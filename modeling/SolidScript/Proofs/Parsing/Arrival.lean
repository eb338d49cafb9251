import SolidScript.Proofs.Parsing.Reading
import SolidScript.Proofs.Parsing.Stuck

namespace SolidScript

namespace Trail

variable {trail : Trail} {finish : Nat}

structure Within (trail : Trail) (finish : Nat) : Prop where
  position_le : trail.position ≤ finish
  looks_le : ∀ look ∈ trail.looks, look ≤ finish
  rounds_read : ∀ round ∈ trail.rounds, round.start < round.finish ∧ round.finish ≤ finish

theorem within_starting {position : Nat} (within : position ≤ finish) :
    (starting position).Within finish :=
  ⟨within, List.forall_mem_nil _, List.forall_mem_nil _⟩

theorem Within.look (within : trail.Within finish) {offset : Nat}
    (near : trail.position + offset ≤ finish) : (trail.look offset).Within finish :=
  ⟨within.position_le, List.forall_mem_cons.mpr ⟨near, within.looks_le⟩, within.rounds_read⟩

theorem Within.step (within : trail.Within finish) (before : trail.position < finish) :
    trail.step.Within finish :=
  ⟨before, within.looks_le, within.rounds_read⟩

theorem Within.endRound (within : trail.Within finish) {start : Nat}
    (moved : start < trail.position) : (trail.endRound start).Within finish :=
  ⟨within.position_le, within.looks_le,
    List.forall_mem_cons.mpr ⟨⟨moved, within.position_le⟩, within.rounds_read⟩⟩

end Trail

namespace Proofs

variable {α β : Type} {tokens : List Token} {trail : Trail}

/-! ## Walks that end as a reader does -/

/-- The walk comes to an end within the tokens. It has read what stands there by this reading, up to
the token where it now stands, or fails with the same fault. -/
def Arrives (tokens : List Token) (w : Nat → Walk α) (trail : Trail)
    (reading : Except Fault (α × List Token)) : Prop :=
  ∃ result after, Walk.Ends w tokens trail result after ∧ after.Within tokens.length ∧
    reading = result.map fun a => (a, tokens.drop after.position)

theorem walk_bind {w : Walk α} {f : α → Walk β} {a : α} {after : Trail}
    (walked : w tokens trail = some (.ok a, after)) :
    (w >>= f) tokens trail = f a tokens after := by
  simp only [bind, ReaderT.bind, ExceptT.bind, ExceptT.mk, StateT.bind, walked, Option.bind_some,
    ExceptT.bindCont]

theorem walk_bind_error {w : Walk α} (f : α → Walk β) {fault : Fault} {after : Trail}
    (walked : w tokens trail = some (.error fault, after)) :
    (w >>= f) tokens trail = some (.error fault, after) := by
  simp only [bind, ReaderT.bind, ExceptT.bind, ExceptT.mk, StateT.bind, walked, Option.bind_some,
    ExceptT.bindCont]
  rfl

theorem walk_yes {w : Walk Bool} {first second : Walk β} {after : Trail}
    (walked : w tokens trail = some (.ok true, after)) :
    (w >>= fun b => if b = true then first else second) tokens trail = first tokens after := by
  rw [walk_bind walked, if_pos rfl]

theorem walk_no {w : Walk Bool} {first second : Walk β} {after : Trail}
    (walked : w tokens trail = some (.ok false, after)) :
    (w >>= fun b => if b = true then first else second) tokens trail = second tokens after := by
  rw [walk_bind walked, if_neg Bool.false_ne_true]

namespace Arrives

theorem of_walk {w : Walk α} {a : α} {after : Trail}
    (walked : w tokens trail = some (.ok a, after)) (within : after.Within tokens.length) :
    Arrives tokens (fun _ => w) trail (.ok (a, tokens.drop after.position)) :=
  ⟨.ok a, after, ⟨0, fun _ _ => walked⟩, within, rfl⟩

theorem pure (within : trail.Within tokens.length) (a : α) :
    Arrives tokens (fun _ => Pure.pure a) trail (.ok (a, tokens.drop trail.position)) :=
  of_walk rfl within

theorem of_less {w : Nat → Walk α} {reading : Except Fault (α × List Token)}
    (arrives : Arrives tokens (fun fuel => w (fuel + 1)) trail reading) :
    Arrives tokens w trail reading := by
  obtain ⟨result, after, ⟨enough, walked⟩, within, same⟩ := arrives
  refine ⟨result, after, ⟨enough + 1, fun fuel more => ?_⟩, within, same⟩
  obtain ⟨fuel, rfl⟩ := Nat.exists_eq_succ_of_ne_zero (Nat.ne_zero_of_lt more)
  exact walked fuel (Nat.le_of_succ_le_succ more)

theorem of_eq {w v : Nat → Walk α} {trail₁ : Trail} {reading : Except Fault (α × List Token)}
    (same : ∀ fuel, w fuel tokens trail = v fuel tokens trail₁)
    (arrives : Arrives tokens v trail₁ reading) : Arrives tokens w trail reading := by
  obtain ⟨result, trail₂, ⟨enough, walked⟩, within, reads⟩ := arrives
  exact ⟨result, trail₂, ⟨enough, fun fuel more => (same fuel).trans (walked fuel more)⟩, within,
    reads⟩

theorem after {w : Walk α} {f : Nat → α → Walk β} {a : α} {trail₁ : Trail}
    {reading : Except Fault (β × List Token)} (walked : w tokens trail = some (.ok a, trail₁))
    (more : Arrives tokens (fun fuel => f fuel a) trail₁ reading) :
    Arrives tokens (fun fuel => w >>= f fuel) trail reading :=
  of_eq (fun _ => walk_bind walked) more

theorem yes {w : Walk Bool} {first second : Nat → Walk β} {trail₁ : Trail}
    {reading : Except Fault (β × List Token)} (walked : w tokens trail = some (.ok true, trail₁))
    (more : Arrives tokens first trail₁ reading) :
    Arrives tokens (fun fuel => w >>= fun b => if b = true then first fuel else second fuel) trail
      reading :=
  of_eq (fun _ => walk_yes walked) more

theorem no {w : Walk Bool} {first second : Nat → Walk β} {trail₁ : Trail}
    {reading : Except Fault (β × List Token)} (walked : w tokens trail = some (.ok false, trail₁))
    (more : Arrives tokens second trail₁ reading) :
    Arrives tokens (fun fuel => w >>= fun b => if b = true then first fuel else second fuel) trail
      reading :=
  of_eq (fun _ => walk_no walked) more

theorem bind {w : Nat → Walk α} {f : Nat → α → Walk β} {reading : Except Fault (α × List Token)}
    {next : α × List Token → Except Fault (β × List Token)} (first : Arrives tokens w trail reading)
    (more : ∀ a trail₁, trail₁.Within tokens.length →
      reading = .ok (a, tokens.drop trail₁.position) →
        Arrives tokens (fun fuel => f fuel a) trail₁ (next (a, tokens.drop trail₁.position))) :
    Arrives tokens (fun fuel => w fuel >>= f fuel) trail (reading >>= next) := by
  obtain ⟨result, trail₁, ⟨enough, walked⟩, within, rfl⟩ := first
  cases result with
  | error fault =>
    exact ⟨.error fault, trail₁, ⟨enough, fun fuel many => walk_bind_error _ (walked fuel many)⟩,
      within, rfl⟩
  | ok a =>
    obtain ⟨result, trail₂, ⟨enough', walked'⟩, within', same⟩ := more a trail₁ within rfl
    refine ⟨result, trail₂, ⟨max enough enough', fun fuel many => ?_⟩, within', same⟩
    have first := walked fuel (Nat.le_trans (Nat.le_max_left _ _) many)
    exact (walk_bind first).trans (walked' fuel (Nat.le_trans (Nat.le_max_right _ _) many))

theorem of_ok {w : Walk α} {a : α} {rest : List Token}
    (arrives : Arrives tokens (fun _ => w) trail (.ok (a, rest))) :
    ∃ trail₁, w tokens trail = some (.ok a, trail₁) ∧ trail₁.Within tokens.length ∧
      rest = tokens.drop trail₁.position := by
  obtain ⟨result, trail₁, ⟨enough, walked⟩, within, same⟩ := arrives
  cases result with
  | error fault => cases same
  | ok b =>
    cases same
    exact ⟨trail₁, walked enough (Nat.le_refl enough), within, rfl⟩

end Arrives

/-! ## Single tokens -/

def Sees (tokens : List Token) (w : Walk α) (trail : Trail) (a : α) : Prop :=
  ∃ after, w tokens trail = some (.ok a, after) ∧ after.Within tokens.length ∧
    after.position = trail.position

theorem rest_of_drop {p : Nat} {t : Token} {rest : List Token} (same : tokens.drop p = t :: rest) :
    p < tokens.length ∧ rest = tokens.drop (p + 1) := by
  constructor
  · have some_left := congrArg List.length same
    rw [List.length_drop, List.length_cons] at some_left
    omega
  · rw [← List.tail_drop, same, List.tail_cons]

theorem lookAt_sees (within : trail.Within tokens.length) :
    Sees tokens (Walk.lookAt 0) trail (tokens.drop trail.position).head? := by
  rw [List.head?_drop]
  exact ⟨trail.look 0, rfl, within.look within.position_le, rfl⟩

theorem isAhead_sees (word : Lexeme → Bool) (within : trail.Within tokens.length) :
    Sees tokens (Walk.isAhead word 0) trail
      ((tokens.drop trail.position).head?.any fun t => word t.lexeme) := by
  rw [List.head?_drop]
  exact ⟨trail.look 0, rfl, within.look within.position_le, rfl⟩

theorem isEnd_sees (within : trail.Within tokens.length) :
    Sees tokens Walk.isEnd trail (tokens.drop trail.position).head?.isNone := by
  rw [List.head?_drop]
  exact ⟨trail.look 0, rfl, within.look within.position_le, rfl⟩

theorem head?_any_symbol (s : Symbol) (ts : List Token) :
    (ts.head?.any fun t => t.lexeme = .symbol s) = (ahead (takeSymbol? s ts)).isSome := by
  cases ts with
  | nil => rfl
  | cons t ts => by_cases same : t.lexeme = .symbol s <;> simp [takeSymbol?, ahead, same]

theorem isSymbol_sees (s : Symbol) (within : trail.Within tokens.length) :
    Sees tokens (Walk.isSymbol s 0) trail
      (ahead (takeSymbol? s (tokens.drop trail.position))).isSome := by
  rw [← head?_any_symbol]
  exact isAhead_sees _ within

theorem head?_any_for (ts : List Token) :
    (ts.head?.any fun t => t.lexeme = .identifier "for") = (ahead (takeFor? ts)).isSome := by
  match ts with
  | [] => rfl
  | ⟨.number _, _⟩ :: _ | ⟨.symbol _, _⟩ :: _ => rfl
  | ⟨.identifier name, _⟩ :: _ =>
    by_cases same : name = "for" <;> simp [takeFor?, takeIdentifier?, ahead, same]

theorem isFor_sees (within : trail.Within tokens.length) :
    Sees tokens Walk.isFor trail (ahead (takeFor? (tokens.drop trail.position))).isSome := by
  rw [← head?_any_for]
  exact isAhead_sees _ within

theorem isSome_takeKey? (name : String) (p : Position) (rest : List Token) :
    (ahead (takeKey? (.identifier name p :: rest))).isSome =
      (ahead (takeSymbol? .equals rest)).isSome := by
  rw [ahead_takeKey?, ahead_takeIdentifier?_eq_some_iff.mpr rfl, Option.bind_eq_bind,
    Option.bind_some]
  dsimp only
  cases ahead (takeSymbol? .equals rest) <;> rfl

theorem isKey_sees (within : trail.Within tokens.length) :
    Sees tokens Walk.isKey trail (ahead (takeKey? (tokens.drop trail.position))).isSome := by
  -- The second place is looked at only behind an identifier, so it is not beyond the end.
  obtain ⟨trail₁, seen, within₁, same⟩ : Sees tokens Walk.isIdentifier trail _ :=
    isAhead_sees _ within
  match front : tokens.drop trail.position with
  | [] | ⟨.number _, _⟩ :: _ | ⟨.symbol _, _⟩ :: _ =>
    rw [front] at seen
    exact ⟨trail₁, (walk_no seen).trans rfl, within₁, same⟩
  | ⟨.identifier name, p⟩ :: rest =>
    rw [front] at seen
    obtain ⟨before, tail⟩ := rest_of_drop front
    rw [isSome_takeKey?, ← head?_any_symbol, tail, List.head?_drop, ← same]
    exact ⟨trail₁.look 1, (walk_yes seen).trans rfl, within₁.look (same ▸ before), same⟩

theorem step_walks {t : Token} {rest : List Token} (within : trail.Within tokens.length)
    (same : tokens.drop trail.position = t :: rest) :
    Walk.step tokens trail = some (.ok (), trail.step) ∧ trail.step.Within tokens.length ∧
      rest = tokens.drop trail.step.position := by
  obtain ⟨before, tail⟩ := rest_of_drop same
  exact ⟨rfl, within.step before, tail⟩

theorem step_arrives {t : Token} {rest : List Token} (within : trail.Within tokens.length)
    (same : tokens.drop trail.position = t :: rest) :
    Arrives tokens (fun _ => Walk.step) trail (.ok ((), rest)) := by
  obtain ⟨stepped, within', tail⟩ := step_walks within same
  rw [tail]
  exact .of_walk stepped within'

theorem fail_arrives {rest : List Token} (within : trail.Within tokens.length)
    (expected : Expectation) (here : tokens.drop trail.position = rest) :
    Arrives tokens (fun _ => (Walk.fail expected : Walk α)) trail (.error ⟨expected, rest⟩) :=
  ⟨_, trail, ⟨0, fun _ _ => rfl⟩, within, by rw [here]; rfl⟩

theorem matchSymbol_none {s : Symbol} (within : trail.Within tokens.length)
    (absent : ahead (takeSymbol? s (tokens.drop trail.position)) = none) :
    Sees tokens (Walk.matchSymbol s) trail false := by
  obtain ⟨trail₁, seen, within₁, same⟩ := isSymbol_sees s within
  rw [absent] at seen
  exact ⟨trail₁, (walk_no seen).trans rfl, within₁, same⟩

theorem matchSymbol_some {s : Symbol} {read : Unit × List Token}
    (within : trail.Within tokens.length)
    (found : ahead (takeSymbol? s (tokens.drop trail.position)) = some read) :
    ∃ after, Walk.matchSymbol s tokens trail = some (.ok true, after) ∧
      after.Within tokens.length ∧ trail.position < after.position ∧
      read = ((), tokens.drop after.position) := by
  obtain ⟨trail₁, seen, within₁, same⟩ := isSymbol_sees s within
  rw [found] at seen
  obtain ⟨p, front⟩ := ahead_takeSymbol?_eq_some_iff.mp found
  rw [← same] at front ⊢
  obtain ⟨stepped, within₂, tail⟩ := step_walks within₁ front
  refine ⟨trail₁.step, (walk_yes seen).trans rfl, within₂, Nat.lt_succ_self _, ?_⟩
  rw [← tail]

theorem consumeSymbol_some {s : Symbol} {p : Position} {rest : List Token}
    (within : trail.Within tokens.length)
    (front : tokens.drop trail.position = .symbol s p :: rest) :
    ∃ after, Walk.consumeSymbol s tokens trail = some (.ok (), after) ∧
      after.Within tokens.length ∧ trail.position < after.position ∧
      rest = tokens.drop after.position := by
  obtain ⟨trail₁, seen, within₁, same⟩ := isSymbol_sees s within
  rw [front, ahead_takeSymbol?_self] at seen
  rw [← same] at front ⊢
  obtain ⟨stepped, within₂, tail⟩ := step_walks within₁ front
  exact ⟨trail₁.step, (walk_yes seen).trans stepped, within₂, Nat.lt_succ_self _, tail⟩

theorem consumeSymbol_arrives (s : Symbol) (within : trail.Within tokens.length) :
    Arrives tokens (fun _ => Walk.consumeSymbol s) trail
      (outcome (takeSymbol s (tokens.drop trail.position))) := by
  rw [outcome_takeSymbol]
  cases found : ahead (takeSymbol? s (tokens.drop trail.position)) with
  | none =>
    obtain ⟨trail₁, seen, within₁, same⟩ := isSymbol_sees s within
    rw [found] at seen
    rw [← same]
    exact .no seen (fail_arrives within₁ _ rfl)
  | some read =>
    obtain ⟨p, front⟩ := ahead_takeSymbol?_eq_some_iff.mp found
    obtain ⟨trail₁, consumed, within₁, moved, tail⟩ := consumeSymbol_some within front
    have arrives := Arrives.of_walk consumed within₁
    rwa [← tail] at arrives

theorem consumeFor_arrives (within : trail.Within tokens.length) :
    Arrives tokens (fun _ => Walk.consumeFor) trail (readFor (tokens.drop trail.position)) := by
  obtain ⟨trail₁, seen, within₁, same⟩ := isFor_sees within
  rw [readFor]
  cases found : ahead (takeFor? (tokens.drop trail.position)) with
  | none =>
    rw [found] at seen
    rw [← same]
    exact .no seen (fail_arrives within₁ _ rfl)
  | some read =>
    rw [found] at seen
    obtain ⟨p, front⟩ := ahead_takeFor?_eq_some_iff.mp found
    rw [← same] at front
    exact .yes seen (step_arrives within₁ front)

theorem consumeIdentifier_arrives (within : trail.Within tokens.length) :
    Arrives tokens (fun _ => Walk.consumeIdentifier) trail
      (outcome (takeIdentifier (tokens.drop trail.position))) := by
  obtain ⟨trail₁, seen, within₁, same⟩ := lookAt_sees within
  rw [← same] at seen ⊢
  refine .after seen ?_
  match front : tokens.drop trail₁.position with
  | [] | ⟨.number _, _⟩ :: _ | ⟨.symbol _, _⟩ :: _ => exact fail_arrives within₁ _ front
  | ⟨.identifier name, p⟩ :: rest =>
    obtain ⟨stepped, within₂, tail⟩ := step_walks within₁ front
    rw [outcome_takeIdentifier_self, tail]
    exact .after stepped (.pure within₂ _)

def Chooses (operator? : Lexeme → Option Operator) (first second : Operator) : Prop :=
  ∀ lexeme, operator? lexeme = if lexeme = .symbol first.symbol then some first
    else if lexeme = .symbol second.symbol then some second else none

theorem sumOperator?_chooses : Chooses sumOperator? .add .sub
  | .number _ | .identifier _ => rfl
  | .symbol s => by cases s <;> rfl

theorem productOperator?_chooses : Chooses productOperator? .mul .div
  | .number _ | .identifier _ => rfl
  | .symbol s => by cases s <;> rfl

theorem operatorAhead_sees {operator? : Lexeme → Option Operator} {first second : Operator}
    (chooses : Chooses operator? first second) (within : trail.Within tokens.length) :
    Sees tokens (Walk.operatorAhead first second) trail
      ((tokens.drop trail.position).head?.bind fun t => operator? t.lexeme) := by
  obtain ⟨trail₁, seen, within₁, same⟩ := isAhead_sees (· = .symbol first.symbol) within
  obtain ⟨trail₂, seen', within₂, same'⟩ := isAhead_sees (· = .symbol second.symbol) within₁
  rw [same] at seen' same'
  generalize (tokens.drop trail.position).head? = front at seen seen' ⊢
  cases front with
  | none => exact ⟨trail₂, (walk_no seen).trans (walk_no seen'), within₂, same'⟩
  | some t =>
    rw [Option.any_some] at seen seen'
    rw [Option.bind_some, chooses]
    by_cases isFirst : t.lexeme = .symbol first.symbol
    · rw [decide_eq_true isFirst] at seen
      rw [if_pos isFirst]
      exact ⟨trail₁, walk_yes seen, within₁, same⟩
    · rw [decide_eq_false isFirst] at seen
      rw [if_neg isFirst]
      by_cases isSecond : t.lexeme = .symbol second.symbol
      · rw [decide_eq_true isSecond] at seen'
        rw [if_pos isSecond]
        exact ⟨trail₂, (walk_no seen).trans (walk_yes seen'), within₂, same'⟩
      · rw [decide_eq_false isSecond] at seen'
        rw [if_neg isSecond]
        exact ⟨trail₂, (walk_no seen).trans (walk_no seen'), within₂, same'⟩

theorem Chooses.front {operator? : Lexeme → Option Operator} {first second op : Operator}
    (chooses : Chooses operator? first second) {ts : List Token}
    (found : (ts.head?.bind fun t => operator? t.lexeme) = some op) :
    ∃ p, ts = .symbol op.symbol p :: ts.tail := by
  match ts with
  | [] => cases found
  | ⟨lexeme, p⟩ :: ts =>
    refine ⟨p, ?_⟩
    rw [List.head?_cons, Option.bind_some, chooses] at found
    by_cases isFirst : lexeme = .symbol first.symbol
    · rw [if_pos isFirst] at found
      cases found
      rw [isFirst, List.tail_cons]
    · rw [if_neg isFirst] at found
      by_cases isSecond : lexeme = .symbol second.symbol
      · rw [if_pos isSecond] at found
        cases found
        rw [isSecond, List.tail_cons]
      · rw [if_neg isSecond] at found
        cases found

end Proofs

end SolidScript
