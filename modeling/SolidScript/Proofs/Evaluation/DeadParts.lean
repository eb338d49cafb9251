import SolidScript.Evaluation.Statement
import SolidScript.Proofs.Bindings

namespace SolidScript

namespace Head

def keep (head : Head) (first : Bool) (keys : List String) : Head where
  name := head.name
  positional := if first then head.positional.take 1 else []
  named := head.named.filter fun entry => entry.1 ∈ keys
  position := head.position

/-- The names that a cylinder looks up: that of the diameter only if no radius is named. -/
def cylinderKeys (head : Head) : List String :=
  ["h", if head.named.contains "r" then "r" else "d", "center", "$fn"]

/-- Erase the arguments that the primitive does not consult. The first argument stands in for a size
or a height that is not named. -/
def erase (head : Head) : Head :=
  match Primitive.ofName? head.name with
  | some .union | none => head.keep false []
  | some .translate => head.keep true []
  | some .cube => head.keep (!head.named.contains "size") ["size", "center"]
  | some .cylinder => head.keep (!head.named.contains "h") head.cylinderKeys

def runsBlock (head : Head) : Bool :=
  match Primitive.ofName? head.name with
  | some .union | some .translate => true
  | some .cube | some .cylinder | none => false

end Head

mutual

def Stmt.erase : Stmt → Stmt
  | .assign name value => .assign name value
  | .loop counter start step finish body =>
    .loop counter start step finish (Stmt.eraseAll body)
  | .call head none => .call head.erase none
  | .call head (some block) =>
    .call head.erase (if head.runsBlock then some (Stmt.eraseAll block) else none)

def Stmt.eraseAll : List Stmt → List Stmt
  | [] => []
  | s :: ss => s.erase :: Stmt.eraseAll ss

end

namespace Proofs

theorem get?_filter {α : Type} (b : Bindings α) (keys : List String) (key : String) :
    Bindings.get? (b.filter fun entry => entry.1 ∈ keys) key =
      if key ∈ keys then b.get? key else none := by
  induction b with
  | nil => simp
  | cons entry rest ih =>
    obtain ⟨name, value⟩ := entry
    by_cases kept : name ∈ keys
    · by_cases same : name = key
      · subst same
        simp [Bindings.get?, kept]
      · simp only [List.filter_cons, kept, decide_true, if_true, Bindings.get?, same, if_false, ih]
    · by_cases same : name = key
      · subst same
        simp [kept, ih]
      · simp only [List.filter_cons, kept, decide_false, Bool.false_eq_true, if_false, ih,
          Bindings.get?, same]

variable (head : Head)

theorem keep_named (first : Bool) {keys : List String} {key : String} (kept : key ∈ keys) :
    (head.keep first keys).named.get? key = head.named.get? key := by
  rw [Head.keep, get?_filter, if_pos kept]

theorem keep_first (keys : List String) :
    (head.keep true keys).positional.head? = head.positional.head? := by
  simp [Head.keep, List.head?_take]

theorem keep_namedOrFirst {keys : List String} {key : String} (kept : key ∈ keys) :
    (head.keep (!head.named.contains key) keys).namedOrFirst? key = head.namedOrFirst? key := by
  rw [Head.namedOrFirst?, Head.namedOrFirst?, keep_named head _ kept, Bindings.contains]
  cases head.named.get? key with
  | some e => rfl
  | none => exact congrArg (none <|> ·) (keep_first head keys)

theorem keep_measures (first : Bool) :
    (head.keep first head.cylinderKeys).named.get? "r" = head.named.get? "r" ∧
    ((head.keep first head.cylinderKeys).named.get? "r" <|>
      (head.keep first head.cylinderKeys).named.get? "d") =
      (head.named.get? "r" <|> head.named.get? "d") := by
  cases given : head.named.get? "r" with
  | some e =>
    have looked : "r" ∈ head.cylinderKeys := by
      simp [Head.cylinderKeys, Bindings.contains, given]
    rw [keep_named head first looked, given]
    exact ⟨rfl, rfl⟩
  | none =>
    have looked : "d" ∈ head.cylinderKeys := by
      simp [Head.cylinderKeys, Bindings.contains, given]
    have absent : (head.keep first head.cylinderKeys).named.get? "r" = none := by
      rw [Head.keep, get?_filter, given, ite_self]
    rw [keep_named head first looked, absent]
    exact ⟨rfl, rfl⟩

theorem cube_congr {head head' : Head}
    (size : head.namedOrFirst? "size" = head'.namedOrFirst? "size")
    (center : head.named.get? "center" = head'.named.get? "center") : head.cube = head'.cube := by
  funext scope
  simp only [Head.cube, Head.flag, size, center]

theorem cylinder_congr (settings : Settings) {head head' : Head}
    (height : head.namedOrFirst? "h" = head'.namedOrFirst? "h")
    (radius : head.named.get? "r" = head'.named.get? "r")
    (across : (head.named.get? "r" <|> head.named.get? "d") =
      (head'.named.get? "r" <|> head'.named.get? "d"))
    (center : head.named.get? "center" = head'.named.get? "center")
    (segments : head.named.get? "$fn" = head'.named.get? "$fn") :
    head.cylinder settings = head'.cylinder settings := by
  funext scope
  simp only [Head.cylinder, Head.flag, Head.segmentNumber, height, radius, center, segments]
  rw [← radius, across, radius]

theorem cube_keep :
    (head.keep (!head.named.contains "size") ["size", "center"]).cube = head.cube :=
  cube_congr (keep_namedOrFirst head (by simp)) (keep_named head _ (by simp))

theorem cylinder_keep (settings : Settings) :
    (head.keep (!head.named.contains "h") head.cylinderKeys).cylinder settings =
      head.cylinder settings := by
  obtain ⟨radius, across⟩ := keep_measures head (!head.named.contains "h")
  have looked : ∀ key ∈ ["h", "center", "$fn"], key ∈ head.cylinderKeys := by
    simp [Head.cylinderKeys]
  exact cylinder_congr settings (keep_namedOrFirst head (looked "h" (by simp))) radius across
    (keep_named head _ (looked "center" (by simp))) (keep_named head _ (looked "$fn" (by simp)))

theorem offset_keep : (head.keep true []).offset = head.offset := by
  funext scope
  simp only [Head.offset, keep_first]

theorem erase_name : head.erase.name = head.name := by
  unfold Head.erase
  split <;> rfl

theorem erase_position : head.erase.position = head.position := by
  unfold Head.erase
  split <;> rfl

theorem erase_run (settings : Settings) (block : Option (Exec Mesh)) :
    head.erase.run settings block = head.run settings block := by
  unfold Head.run
  rw [erase_name, erase_position]
  cases primitive : Primitive.ofName? head.name with
  | none => rfl
  | some primitive' =>
    cases primitive' with
    | union => rfl
    | translate =>
      have kept : head.erase = head.keep true [] := by simp only [Head.erase, primitive]
      rw [kept, offset_keep]
    | cube =>
      have kept : head.erase = head.keep (!head.named.contains "size") ["size", "center"] := by
        simp only [Head.erase, primitive]
      rw [kept, cube_keep]
    | cylinder =>
      have kept : head.erase = head.keep (!head.named.contains "h") head.cylinderKeys := by
        simp only [Head.erase, primitive]
      rw [kept, cylinder_keep]

theorem run_of_not_runsBlock (settings : Settings) (unused : head.runsBlock = false)
    (block : Option (Exec Mesh)) : head.run settings block = head.run settings none := by
  unfold Head.runsBlock at unused
  unfold Head.run
  cases primitive : Primitive.ofName? head.name with
  | none => rfl
  | some primitive' =>
    rw [primitive] at unused
    cases primitive' with
    | union | translate => cases unused
    | cube | cylinder => rfl

mutual

theorem statement_erase (settings : Settings) : ∀ s : Stmt, s.erase.run settings = s.run settings
  | .assign name value => by rw [Stmt.erase]
  | .loop counter start step finish body => by
    rw [Stmt.erase, Stmt.run, Stmt.run, statements_erase settings body]
  | .call head none => by
    rw [Stmt.erase, Stmt.run, Stmt.run, erase_run]
  | .call head (some block) => by
    rw [Stmt.erase]
    cases used : head.runsBlock with
    | true =>
      rw [if_pos rfl, Stmt.run, Stmt.run, erase_run, statements_erase settings block]
    | false =>
      rw [if_neg Bool.false_ne_true, Stmt.run, Stmt.run, erase_run,
        run_of_not_runsBlock head settings used (some _)]

theorem statements_erase (settings : Settings) :
    ∀ ss : List Stmt, Stmt.runAll settings (Stmt.eraseAll ss) = Stmt.runAll settings ss
  | [] => by rw [Stmt.eraseAll]
  | s :: ss => by
    rw [Stmt.eraseAll, Stmt.runAll, Stmt.runAll, statement_erase settings s,
      statements_erase settings ss]

end

/-- A program from which all dead parts are erased runs as the program does: the same mesh or the
same error, and the same loops on the way, whatever an erased argument or block would have done. -/
theorem erased_program_runs_alike (program : Program) (settings : Settings) (params : Frame) :
    Program.run (Stmt.eraseAll program) settings params = program.run settings params := by
  rw [Program.run, Program.run, statements_erase]

/-- A named size makes the other arguments dead, and a box has no use for its block. -/
example (p : Position) :
    (Stmt.call ⟨"cube", [.var "other"], [("r", .var "radius"), ("size", .var "size")], p⟩
      (some [.assign "name" (.var "nothing")])).erase =
    .call ⟨"cube", [], [("size", .var "size")], p⟩ none := by
  rfl

end Proofs

end SolidScript
