import SolidScript.Proofs.Mesh.Bounds
import SolidScript.Proofs.Number.Decimal
import SolidScript.Proofs.Template.Inspection

namespace SolidScript

namespace Json

mutual

def reals : Json → List Float
  | .real x => [x]
  | .array items => realsOfItems items
  | .object fields => realsOfFields fields
  | .null => []
  | .integer _ => []
  | .text _ => []

def realsOfItems : List Json → List Float
  | [] => []
  | item :: rest => item.reals ++ realsOfItems rest

def realsOfFields : List (String × Json) → List Float
  | [] => []
  | (_, value) :: rest => value.reals ++ realsOfFields rest

end

/-- The texts of doubles that are no numbers of JSON. -/
def unnumbered : List String := ["NaN", "Infinity", "-Infinity"]

end Json

namespace Proofs
open Json

theorem decimalText_digit (d : Number.Decimal) :
    ∃ c rest, Number.decimalText d = c :: rest ∧ c.isDigit = true := by
  have digits := isDigit_toDigits d.digits
  obtain ⟨c, rest, written⟩ := List.exists_cons_of_ne_nil (Nat.toDigits_ne_nil (b := 10)
    (n := d.digits))
  have digit : c.isDigit = true := digits c (by rw [written]; exact List.mem_cons_self)
  unfold Number.decimalText
  rw [written]
  dsimp only
  split
  · cases rest with
    | nil => exact ⟨c, _, rfl, digit⟩
    | cons e rest => exact ⟨c, _, rfl, digit⟩
  split
  · exact ⟨c, _, rfl, digit⟩
  split
  · exact ⟨c, _, rfl, digit⟩
  · exact ⟨'0', _, rfl, rfl⟩

theorem not_unnumbered {negative : Bool} {c : Char} {rest : List Char} (digit : c.isDigit = true) :
    String.ofList (Number.signed negative (c :: rest)) ∉ unnumbered := by
  intro member
  have texts : Number.signed negative (c :: rest) ∈ [['N', 'a', 'N'],
      ['I', 'n', 'f', 'i', 'n', 'i', 't', 'y'], ['-', 'I', 'n', 'f', 'i', 'n', 'i', 't', 'y']] := by
    have read := List.mem_map_of_mem (f := String.toList) member
    rw [String.toList_ofList] at read
    exact read
  have notLetter : c ≠ 'N' ∧ c ≠ 'I' ∧ c ≠ '-' := by
    refine ⟨?_, ?_, ?_⟩ <;> rintro rfl <;> exact absurd digit (by decide)
  cases negative <;> simp [Number.signed, notLetter] at texts

theorem realText_of_finite {x : Float} (finite : x.isFinite = true) : realText x ∉ unnumbered := by
  change x.toModel.unpack.isFinite = true at finite
  unfold realText Number.text Number.shortestText Number.exact
  cases unpacked : x.toModel.unpack with
  | notANumber => rw [unpacked] at finite; cases finite
  | infinity s => rw [unpacked] at finite; cases finite
  | zero s => exact not_unnumbered rfl
  | finite s m e pos =>
    obtain ⟨c, rest, written, digit⟩ := decimalText_digit (Number.shortest m e)
    simp only [Nat.ne_of_gt pos, if_false, written]
    exact not_unnumbered digit

theorem finite?_eq_some {x y : Float} (given : finite? x = some y) : y.isFinite = true := by
  unfold finite? at given
  split at given
  · cases given
    assumption
  · cases given

theorem mem_reals_numberJson {o : Option Float} {x : Float} :
    x ∈ (Inspection.numberJson o).reals ↔ o = some x := by
  cases o <;> simp [Inspection.numberJson, reals, eq_comm]

theorem report_reals_finite (values : Bindings Float) (p : Parameter) :
    ∀ x ∈ (Inspection.paramJson (p.report values)).reals, x.isFinite = true := by
  intro x member
  simp only [Inspection.paramJson, reals, realsOfFields, List.mem_append, mem_reals_numberJson,
    List.not_mem_nil, or_false, false_or] at member
  rcases member with given | given | given | given | given
  · exact finite?_eq_some given
  · exact finite?_eq_some given
  · exact finite?_eq_some given
  · exact finite?_eq_some given
  · obtain ⟨y, -, given⟩ := Option.bind_eq_some_iff.mp given
    exact finite?_eq_some given

theorem mem_realsOfItems {items : List Json} {x : Float} :
    x ∈ realsOfItems items ↔ ∃ item ∈ items, x ∈ item.reals := by
  induction items with
  | nil => simp [realsOfItems]
  | cons item items ih => simp [realsOfItems, ih]

theorem vertex_reals_all {P : Float → Prop} {v : Vertex Float} :
    (∀ x ∈ (Inspection.vertexJson v).reals, P x) ↔ v.All P := by
  simp [Inspection.vertexJson, reals, realsOfItems, Vertex.All]

theorem bounds_reals_all {P : Float → Prop} {o : Option Bounds} :
    (∀ x ∈ (Inspection.boundsJson o).reals, P x) ↔ ∀ b ∈ o, b.All P := by
  cases o with
  | none => simp [Inspection.boundsJson, reals]
  | some b =>
    simp only [Inspection.boundsJson, reals, realsOfFields, List.mem_append, or_imp, forall_and,
      vertex_reals_all, Option.mem_some_iff, forall_eq', Bounds.All]
    simp

theorem mem_reals_inspection {i : Inspection} {x : Float} :
    x ∈ i.json.reals ↔ (∃ report ∈ i.params, x ∈ (Inspection.paramJson report).reals) ∨
      x ∈ (Inspection.boundsJson i.bounds).reals := by
  simp [Inspection.json, reals, realsOfFields, mem_realsOfItems]

theorem resolve_of_inspect {t : Template} {overrides : Bindings Float} {settings : Settings}
    {clamp : Bool} {inspection : Inspection}
    (inspected : t.inspect overrides settings clamp = .ok inspection) :
    ∃ values, t.resolve overrides clamp = .ok values := by
  obtain ⟨values, resolved, -⟩ := bind_eq_ok.mp inspected
  exact ⟨values, mapError_eq_ok.mp resolved⟩

/-- The report on a parameter has only finite numbers. The bounds have finite ends if the mesh has
finite coordinates; and below half of the range of doubles every number of the inspection is finite,
and is written as a number. -/
theorem inspection_reals_finite (t : Template) (overrides : Bindings Float) (settings : Settings)
    (clamp : Bool) (inspection : Inspection)
    (inspected : t.inspect overrides settings clamp = .ok inspection) :
    (∀ report ∈ inspection.params, ∀ x ∈ (Inspection.paramJson report).reals,
      x.isFinite = true) ∧
    ∃ mesh, t.render overrides settings clamp = .ok mesh ∧
      (mesh.All (·.isFinite = true) → ∀ b ∈ inspection.bounds,
        b.min.All (·.isFinite = true) ∧ b.max.All (·.isFinite = true)) ∧
      (mesh.All (Number.inHalfRange · = true) → ∀ x ∈ inspection.json.reals,
        x.isFinite = true ∧ realText x ∉ unnumbered) := by
  obtain ⟨values, resolved⟩ := resolve_of_inspect inspected
  rw [inspect_of_resolve resolved] at inspected
  obtain ⟨mesh, rendered, rfl⟩ := map_eq_ok.mp inspected
  have params : ∀ report ∈ t.metadata.params.map (·.report values),
      ∀ x ∈ (Inspection.paramJson report).reals, x.isFinite = true := by
    rw [List.forall_mem_map]
    exact fun p _ => report_reals_finite values p
  refine ⟨params, mesh, rendered, ?_, ?_⟩
  · intro finite b bounded
    obtain ⟨low, high, -⟩ := bounds_of_all bounded finite
    exact ⟨low, high⟩
  · intro half x member
    have finite : x.isFinite = true := by
      rcases mem_reals_inspection.mp member with ⟨report, among, member⟩ | member
      · exact params report among x member
      · exact bounds_reals_all.mpr (fun b bounded => bounds_finite bounded half) x member
    exact ⟨finite, realText_of_finite finite⟩

def movedBox : Template where
  source := "// @param w | Width | - | - | 1 | 1\ntranslate([w, 0, 0]) \x7b cube([w, 1, 1]); \x7d\n"
  metadata := { Metadata.named "brick" with
    params := [⟨"w", "Width", Number.nan, Number.nan, 1, 1⟩] }
  program := [.call ⟨"translate", [.array [.var "w", .number 0, .number 0]], [], ⟨2, 1⟩⟩ <| some
    [.call ⟨"cube", [.array [.var "w", .number 1, .number 1]], [], ⟨2, 24⟩⟩ none]]

theorem movedBox_reals_finite : ∃ inspection mesh,
    movedBox.inspect [("w", 4e307)] .default true = .ok inspection ∧
    movedBox.render [("w", 4e307)] .default true = .ok mesh ∧
    mesh.All (Number.inHalfRange · = true) ∧
    ∀ x ∈ inspection.json.reals, x.isFinite = true ∧ realText x ∉ unnumbered := by
  obtain ⟨inspection, inspected, -⟩ :=
    @ok_of_any _ _ (movedBox.inspect [("w", 4e307)] .default true) (fun _ => true)
      (by decide +kernel)
  obtain ⟨mesh, rendered, half⟩ :=
    @ok_of_any _ _ (movedBox.render [("w", 4e307)] .default true)
      (fun mesh => mesh.All (Number.inHalfRange · = true)) (by decide +kernel)
  obtain ⟨-, mesh', rendered', -, finite⟩ :=
    inspection_reals_finite movedBox [("w", 4e307)] .default true inspection inspected
  rw [rendered] at rendered'
  cases rendered'
  have half := of_decide_eq_true half
  exact ⟨inspection, mesh, inspected, rendered, half, finite half⟩

/-- All coordinates are finite, but the sum of the two ends is not, and so neither is the middle. -/
theorem movedBox_not_finite : ∃ inspection,
    movedBox.inspect [("w", 8e307)] .default true = .ok inspection ∧
    ∃ x ∈ inspection.json.reals, x.isFinite = false ∧ realText x ∈ unnumbered := by
  obtain ⟨inspection, inspected, infinite⟩ :=
    @ok_of_any _ _ (movedBox.inspect [("w", 8e307)] .default true)
      (fun i => i.bounds.any fun b =>
        !b.center.x.isFinite && unnumbered.contains (realText b.center.x)) (by decide +kernel)
  obtain ⟨b, bounded, infinite⟩ := (Option.any_eq_true _ _).mp infinite
  have among : b.All (· ∈ inspection.json.reals) :=
    bounds_reals_all.mp (fun x member => mem_reals_inspection.mpr (.inr member)) b bounded
  exact ⟨inspection, inspected, b.center.x, among.2.2.2.1, by simpa using infinite⟩

end Proofs

end SolidScript
