import SolidScript.Proofs.Parsing.Lookahead

/-!
# Where parsers fail

A parser that fails has read tokens that begin one of its phrases, and it has looked at nothing
after the token that it stopped at: with any other tokens after that one it fails there as well.
Each lemma follows the recursion of its parser. A part that was read before the failure is read
again because its parser is local; the failing part has a lemma of its own.
-/

namespace SolidScript.Proofs
open Grammar

variable {α β γ : Type}

/-- A parser has failed after some tokens, and would fail there with any tokens after the one that
it has stopped at. -/
def Stuck (p : List Token → Except Fault γ) (Before : List Token → Prop) (ts : List Token)
    (fault : Fault) : Prop :=
  ∃ before, ts = before ++ fault.rest ∧ Before before ∧
    ∀ t after, fault.rest = t :: after → ∀ more,
      p (before ++ t :: more) = .error ⟨fault.expected, t :: more⟩

variable {p q : List Token → Except Fault γ} {Before Before' : List Token → Prop}
  {ts : List Token} {fault : Fault}

theorem Stuck.imp (stuck : Stuck p Before ts fault) (imp : ∀ us, Before us → Before' us) :
    Stuck p Before' ts fault := by
  obtain ⟨before, same, holds, blocked⟩ := stuck
  exact ⟨before, same, imp before holds, blocked⟩

theorem Stuck.cons {t : Token}
    (stuck : Stuck (fun us => p (t :: us)) (fun us => Before (t :: us)) ts fault) :
    Stuck p Before (t :: ts) fault := by
  obtain ⟨before, same, holds, blocked⟩ := stuck
  exact ⟨t :: before, by rw [same]; rfl, holds, blocked⟩

theorem Stuck.of_blocked (stuck : Stuck q Before ts fault)
    (same : ∀ before t after, ts = before ++ t :: after →
      (∀ more, q (before ++ t :: more) = .error ⟨fault.expected, t :: more⟩) →
      ∀ more, p (before ++ t :: more) = q (before ++ t :: more)) : Stuck p Before ts fault := by
  obtain ⟨before, split, holds, blocked⟩ := stuck
  refine ⟨before, split, holds, fun t after rest more => ?_⟩
  have blocked' := blocked t after rest
  rw [same before t after (by rw [split, rest]) blocked' more]
  exact blocked' more

theorem Stuck.of_head (stuck : Stuck q Before ts fault)
    (same : ∀ us, us.head? = ts.head? → p us = q us) : Stuck p Before ts fault := by
  refine stuck.of_blocked fun before t after split _ more => same _ ?_
  rw [split, List.head?_append, List.head?_append]
  rfl

theorem Stuck.here (rest : fault.rest = ts) (holds : Before [])
    (blocked : ∀ t after, ts = t :: after → ∀ more,
      p (t :: more) = .error ⟨fault.expected, t :: more⟩) : Stuck p Before ts fault :=
  ⟨[], rest.symm, holds, fun t after start => blocked t after (rest.symm.trans start)⟩

theorem Stuck.bind {p : List Token → Except Fault α} (stuck : Stuck p Before ts fault)
    (f : α → Except Fault γ) : Stuck (fun us => p us >>= f) Before ts fault := by
  obtain ⟨before, same, holds, blocked⟩ := stuck
  refine ⟨before, same, holds, fun t after rest more => ?_⟩
  dsimp only
  rw [blocked t after rest more]
  rfl

theorem stuck_bind {p : Reader α} {f : α × List Token → Except Fault γ}
    {Phrase : List Token → α → Prop} (fails : (p ts >>= f) = .error fault) (sound : Sound p Phrase)
    (near : Local p) (first : p ts = .error fault → Stuck p Before ts fault)
    (later : ∀ a used rest, ts = used ++ rest → p ts = .ok (a, rest) → Phrase used a →
      f (a, rest) = .error fault →
      Stuck (fun us => f (a, us)) (fun before => Before (used ++ before)) rest fault) :
    Stuck (fun us => p us >>= f) Before ts fault := by
  rcases bind_eq_error.mp fails with failed | ⟨⟨a, rest⟩, read, failed⟩
  · exact (first failed).bind f
  · obtain ⟨used, rfl, phrase⟩ := sound ts a rest read
    obtain ⟨before, rfl, holds, blocked⟩ := later a used rest rfl read phrase failed
    refine ⟨used ++ before, (List.append_assoc ..).symm, holds, fun t after rest more => ?_⟩
    -- The first part ends before the same token as it did.
    have head : (before ++ t :: more).head? = (before ++ fault.rest).head? := by
      rw [rest, List.head?_append, List.head?_append]
      rfl
    have again := near used _ (before ++ t :: more) a read head
    dsimp only at again ⊢
    rw [List.append_assoc, again]
    exact blocked t after rest more

theorem stuck_map {p : List Token → Except Fault α} {g : α → γ}
    (fails : (p ts >>= fun x => pure (g x)) = .error fault)
    (stuck : p ts = .error fault → Stuck p Before ts fault) :
    Stuck (fun us => p us >>= fun x => pure (g x)) Before ts fault := by
  rcases bind_eq_error.mp fails with failed | ⟨a, -, failed⟩
  · exact (stuck failed).bind _
  · cases failed

/-! ## Single tokens -/

theorem takeSymbol_stuck {s : Symbol} (fails : outcome (takeSymbol s ts) = .error fault)
    (start : fault.expected = .symbol s → Before []) :
    Stuck (fun us => outcome (takeSymbol s us)) Before ts fault := by
  rw [outcome_takeSymbol] at fails
  cases found : ahead (takeSymbol? s ts) with
  | some read => rw [found] at fails; cases fails
  | none =>
    rw [found] at fails
    cases fails
    refine .here rfl (start rfl) fun t after same more => ?_
    have absent : ahead (takeSymbol? s (t :: more)) = none :=
      ahead_takeSymbol?_eq_none_of_head found (by rw [same]; rfl)
    dsimp only
    rw [outcome_takeSymbol, absent]

theorem takeIdentifier_stuck (fails : outcome (takeIdentifier ts) = .error fault)
    (start : fault.expected = .identifier → Before []) :
    Stuck (fun us => outcome (takeIdentifier us)) Before ts fault := by
  match ts with
  | ⟨.identifier name, p⟩ :: ts =>
    rw [outcome_takeIdentifier_self] at fails
    cases fails
  | [] =>
    cases fails
    exact .here rfl (start rfl) nofun
  | ⟨.symbol _, _⟩ :: ts | ⟨.number _, _⟩ :: ts =>
    cases fails
    refine .here rfl (start rfl) fun t after same more => ?_
    cases same
    rfl

/-! ## Expressions -/

/-- The tokens begin a phrase; if a closing brace is missed, the tokens have come to their end and
leave a block open. -/
structure Viable (Phrase : List Token → α → Prop) (Open : List Token → Prop) (fault : Fault)
    (before : List Token) : Prop where
  completes : ∃ more v, Phrase (before ++ more) v
  opened : fault.expected = .closingBrace → fault.rest = [] ∧ Open before

abbrev Begins (Phrase : List Token → α → Prop) (fault : Fault) (before : List Token) : Prop :=
  Viable Phrase (fun _ => False) fault before

variable {P : List Token → α → Prop} {Q : List Token → β → Prop}

theorem begins_of_phrase {whole before : List Token} {v : α} (phrase : P whole v)
    (more : List Token) (split : whole = before ++ more) (other : fault.expected ≠ .closingBrace) :
    Begins P fault before :=
  ⟨⟨more, v, split ▸ phrase⟩, fun closing => absurd closing other⟩

theorem Viable.within {Open Open' : List Token → Prop} {before before' : List Token}
    (viable : Viable P Open fault before) (start more : List Token)
    (place : before' = start ++ before)
    (whole : ∀ us v, P us v → ∃ us' w, us' = start ++ us ++ more ∧ Q us' w)
    (opened : ∀ us, Open us → Open' (start ++ us)) : Viable Q Open' fault before' := by
  obtain ⟨⟨rest, v, phrase⟩, closing⟩ := viable
  obtain ⟨us', w, same, phrase'⟩ := whole _ v phrase
  subst place
  refine ⟨⟨rest ++ more, w, ?_⟩, fun missed => ?_⟩
  · rw [same] at phrase'
    simpa using phrase'
  · obtain ⟨ended, block⟩ := closing missed
    exact ⟨ended, opened before block⟩

theorem viable_of_begins {Open : List Token → Prop} {before : List Token}
    (begins : Begins P fault before) : Viable P Open fault before :=
  ⟨begins.completes, fun missed => (begins.opened missed).2.elim⟩

theorem Viable.inside {before before' : List Token} (begins : Begins P fault before)
    (start more : List Token) (place : before' = start ++ before)
    (whole : ∀ us v, P us v → ∃ us' w, us' = start ++ us ++ more ∧ Q us' w) :
    Begins Q fault before' :=
  Viable.within begins start more place whole fun _ none => none

theorem Viable.as {before : List Token} (begins : Begins P fault before)
    (whole : ∀ us v, P us v → ∃ w, Q us w) : Begins Q fault before := by
  refine begins.inside [] [] rfl fun us v phrase => ?_
  obtain ⟨w, phrase'⟩ := whole us v phrase
  exact ⟨us, w, by simp, phrase'⟩

theorem primary_zero : Primary [.number "0" .start] (.number (Number.ofNumeral ['0'])) :=
  .number "0" .start

theorem outcome_parsePrimary_symbol {s : Symbol} (noParen : s ≠ .leftParen)
    (noBracket : s ≠ .leftBracket) (p : Position) (ts : List Token) :
    outcome (parsePrimary (.symbol s p :: ts)) = .error ⟨.expression, .symbol s p :: ts⟩ := by
  cases s <;> first | contradiction | (rw [parsePrimary]; rfl)

mutual

theorem parsePrimary_stuck (ts : List Token) {fault : Fault}
    (fails : outcome (parsePrimary ts) = .error fault) :
    Stuck (fun us => outcome (parsePrimary us)) (Begins Primary fault) ts fault := by
  match ts with
  | [] =>
    rw [parsePrimary] at fails
    cases fails
    exact .here rfl (begins_of_phrase primary_zero _ rfl (by simp)) nofun
  | ⟨.number numeral, p⟩ :: ts =>
    rw [outcome_parsePrimary_number] at fails
    cases fails
  | ⟨.identifier name, p⟩ :: ts =>
    rw [outcome_parsePrimary_identifier] at fails
    cases fails
  | ⟨.symbol s, p⟩ :: ts =>
    by_cases paren : s = .leftParen
    · subst paren
      rw [outcome_parsePrimary_paren] at fails
      refine .cons ?_
      simp only [outcome_parsePrimary_paren]
      refine stuck_bind fails (fun ts _ _ read => parseSum_sound ts read) parseSum_local ?_ ?_
      · intro fails
        refine (parseSum_stuck ts fails).imp fun us begins => ?_
        exact begins.inside [_] [_] rfl fun us e sum => ⟨_, e, rfl, .paren p .start sum⟩
      · intro e used rest _ _ sum fails
        dsimp only at fails ⊢
        refine stuck_map fails fun failed => takeSymbol_stuck failed fun missed => ?_
        rw [List.append_nil]
        exact begins_of_phrase (.paren p .start sum) [_] rfl (by simp [missed])
    · by_cases bracket : s = .leftBracket
      · subst bracket
        rw [outcome_parsePrimary_bracket] at fails
        cases empty : ahead (takeSymbol? .rightBracket ts) with
        | some read => rw [empty] at fails; cases fails
        | none =>
          rw [empty] at fails
          refine .cons (Stuck.of_head (stuck_bind fails
            (fun ts _ _ read => parseItems_sound ts read)
            parseItems_local ?_ ?_) fun us head => ?_)
          · intro fails
            refine (parseItems_stuck ts fails).imp fun us begins => ?_
            exact begins.inside [_] [_] rfl fun us items list => ⟨_, _, rfl, .array p .start list⟩
          · intro items used rest _ _ list fails
            dsimp only at fails ⊢
            refine stuck_map fails fun failed => takeSymbol_stuck failed fun missed => ?_
            rw [List.append_nil]
            exact begins_of_phrase (.array p .start list) [_] rfl (by simp [missed])
          · rw [outcome_parsePrimary_bracket, ahead_takeSymbol?_eq_none_of_head empty head]
      · rw [outcome_parsePrimary_symbol paren bracket] at fails
        cases fails
        refine .here rfl (begins_of_phrase primary_zero _ rfl (by simp)) fun t after same more => ?_
        cases same
        exact outcome_parsePrimary_symbol paren bracket p more
termination_by (ts.length, 0)

theorem parseItems_stuck (ts : List Token) {fault : Fault}
    (fails : outcome (parseItems ts) = .error fault) :
    Stuck (fun us => outcome (parseItems us)) (Begins Items fault) ts fault := by
  rw [outcome_parseItems] at fails
  refine Stuck.of_head (stuck_bind fails (fun ts _ _ read => parseSum_sound ts read) parseSum_local
    ?_ ?_) fun us _ => outcome_parseItems us
  · intro fails
    exact (parseSum_stuck ts fails).imp fun us begins => begins.as fun us e sum => ⟨_, .one sum⟩
  · intro e used rest same read sum fails
    cases comma : ahead (takeSymbol? .comma rest) with
    | none => simp only [comma] at fails; cases fails
    | some pair =>
      obtain ⟨p, rfl⟩ := ahead_takeSymbol?_eq_some_iff.mp comma
      have shorter : pair.2.length < ts.length := Nat.lt_of_succ_lt (length_lt_of_outcome read)
      simp only [comma] at fails
      refine .cons ?_
      simp only [ahead_takeSymbol?_self]
      refine stuck_map fails fun failed => (parseItems_stuck pair.2 failed).imp fun us begins => ?_
      exact begins.inside (used ++ [.symbol .comma p]) [] (by simp) fun us es list =>
        ⟨_, _, by simp, .more p sum list⟩
termination_by (ts.length, 4)

theorem parseUnary_stuck (ts : List Token) {fault : Fault}
    (fails : outcome (parseUnary ts) = .error fault) :
    Stuck (fun us => outcome (parseUnary us)) (Begins Unary fault) ts fault := by
  rw [outcome_parseUnary] at fails
  cases minus : ahead (takeSymbol? .minus ts) with
  | none =>
    rw [minus] at fails
    refine Stuck.of_head ((parsePrimary_stuck ts fails).imp fun us begins => ?_) fun us head => ?_
    · exact begins.as fun us e primary => ⟨e, .primary primary⟩
    · rw [outcome_parseUnary, ahead_takeSymbol?_eq_none_of_head minus head]
  | some pair =>
    obtain ⟨p, rfl⟩ := ahead_takeSymbol?_eq_some_iff.mp minus
    simp only [minus] at fails
    refine .cons ?_
    simp only [outcome_parseUnary (_ :: _), ahead_takeSymbol?_self]
    refine stuck_map fails fun failed => (parseUnary_stuck pair.2 failed).imp fun us begins => ?_
    exact begins.inside [_] [] rfl fun us e unary => ⟨_, _, by simp, .minus p unary⟩
termination_by (ts.length, 1)

theorem parseProduct_stuck (ts : List Token) {fault : Fault}
    (fails : outcome (parseProduct ts) = .error fault) :
    Stuck (fun us => outcome (parseProduct us)) (Begins Product fault) ts fault := by
  rw [outcome_parseProduct] at fails
  simp only [outcome_parseProduct]
  refine stuck_bind fails (fun ts _ _ read => parseUnary_sound ts read) parseUnary_local ?_ ?_
  · intro fails
    refine (parseUnary_stuck ts fails).imp fun us begins => ?_
    exact begins.as fun us e unary => ⟨e, .unary unary⟩
  · intro e used rest same read unary fails
    have shorter := length_lt_of_outcome read
    exact parseFactors_stuck rest (.unary unary) fails
termination_by (ts.length, 2)

theorem parseFactors_stuck (ts : List Token) {fault : Fault} {start : List Token} {left : Expr}
    (done : Product start left) (fails : outcome (parseFactors left ts) = .error fault) :
    Stuck (fun us => outcome (parseFactors left us)) (fun us => Begins Product fault (start ++ us))
      ts fault := by
  match ts with
  | [] =>
    rw [outcome_parseFactors_nil] at fails
    cases fails
  | ⟨lexeme, p⟩ :: ts =>
    rw [outcome_parseFactors_cons] at fails
    cases operator : productOperator? lexeme with
    | none => rw [operator] at fails; cases fails
    | some op =>
      obtain ⟨rfl, level⟩ := productOperator?_eq_some operator
      simp only [operator] at fails
      refine .cons ?_
      simp only [outcome_parseFactors_cons, operator]
      refine stuck_bind fails (fun ts _ _ read => parseUnary_sound ts read) parseUnary_local ?_ ?_
      · intro fails
        refine (parseUnary_stuck ts fails).imp fun us begins => ?_
        exact begins.inside (start ++ [.symbol op.symbol p]) [] (by simp) fun us e unary =>
          ⟨_, _, by simp, .more p level done unary⟩
      · intro right used rest same read unary fails
        have shorter := length_lt_of_outcome read
        refine (parseFactors_stuck rest (.more p level done unary) fails).imp fun us begins => ?_
        simpa using begins
termination_by (ts.length, 0)

theorem parseSum_stuck (ts : List Token) {fault : Fault}
    (fails : outcome (parseSum ts) = .error fault) :
    Stuck (fun us => outcome (parseSum us)) (Begins Sum fault) ts fault := by
  rw [outcome_parseSum] at fails
  simp only [outcome_parseSum]
  refine stuck_bind fails (fun ts _ _ read => parseProduct_sound ts read) parseProduct_local ?_ ?_
  · intro fails
    exact (parseProduct_stuck ts fails).imp fun us begins =>
      begins.as fun us e product => ⟨e, .product product⟩
  · intro e used rest same read product fails
    have shorter := length_lt_of_outcome read
    exact parseTerms_stuck rest (.product product) fails
termination_by (ts.length, 3)

theorem parseTerms_stuck (ts : List Token) {fault : Fault} {start : List Token} {left : Expr}
    (done : Sum start left) (fails : outcome (parseTerms left ts) = .error fault) :
    Stuck (fun us => outcome (parseTerms left us)) (fun us => Begins Sum fault (start ++ us))
      ts fault := by
  match ts with
  | [] =>
    rw [outcome_parseTerms_nil] at fails
    cases fails
  | ⟨lexeme, p⟩ :: ts =>
    rw [outcome_parseTerms_cons] at fails
    cases operator : sumOperator? lexeme with
    | none => rw [operator] at fails; cases fails
    | some op =>
      obtain ⟨rfl, level⟩ := sumOperator?_eq_some operator
      simp only [operator] at fails
      refine .cons ?_
      simp only [outcome_parseTerms_cons, operator]
      refine stuck_bind fails (fun ts _ _ read => parseProduct_sound ts read) parseProduct_local
        ?_ ?_
      · intro fails
        refine (parseProduct_stuck ts fails).imp fun us begins => ?_
        exact begins.inside (start ++ [.symbol op.symbol p]) [] (by simp) fun us e product =>
          ⟨_, _, by simp, .more p level done product⟩
      · intro right used rest same read product fails
        have shorter := length_lt_of_outcome read
        refine (parseTerms_stuck rest (.more p level done product) fails).imp fun us begins => ?_
        simpa using begins
termination_by (ts.length, 0)

end

/-! ## Calls -/

theorem sum_zero : Sum [.number "0" .start] (.number (Number.ofNumeral ['0'])) :=
  .product (.unary (.primary primary_zero))

theorem ahead_takeKey?_eq_none_of_blocked {before after more : List Token} {t : Token}
    (unnamed : ahead (takeKey? (before ++ t :: after)) = none)
    (blocked : before = [] → ∀ name p, t ≠ .identifier name p) :
    ahead (takeKey? (before ++ t :: more)) = none := by
  by_cases empty : before = []
  · cases found : ahead (takeKey? (before ++ t :: more)) with
    | none => rfl
    | some pair =>
      obtain ⟨p, q, same⟩ := ahead_takeKey?_eq_some_iff.mp found
      rw [empty] at same
      cases same
      exact absurd rfl (blocked empty pair.1 p)
  · exact ahead_takeKey?_eq_none_of_take unnamed (take_two_of_head empty rfl)

theorem parseArgument_stuck (fails : outcome (parseArgument ts) = .error fault) :
    Stuck (fun us => outcome (parseArgument us)) (Begins Arg fault) ts fault := by
  rw [outcome_parseArgument] at fails
  cases named : ahead (takeKey? ts) with
  | some pair =>
    obtain ⟨p, q, rfl⟩ := ahead_takeKey?_eq_some_iff.mp named
    have found (us : List Token) :
        ahead (takeKey? (.identifier pair.1 p :: .symbol .equals q :: us)) = some (pair.1, us) :=
      ahead_takeKey?_eq_some_iff.mpr ⟨p, q, rfl⟩
    simp only [named] at fails
    refine .cons (.cons ?_)
    simp only [outcome_parseArgument, found]
    refine stuck_map fails fun failed => (parseSum_stuck pair.2 failed).imp fun us begins => ?_
    exact begins.inside [_, _] [] rfl fun us e sum => ⟨_, _, by simp, .named pair.1 p q sum⟩
  | none =>
    simp only [named] at fails
    refine Stuck.of_blocked (stuck_map fails fun failed =>
      (parseSum_stuck ts failed).imp fun us begins => ?_) ?_
    · exact begins.as fun us e sum => ⟨_, .positional sum⟩
    · rintro before t after rfl blocked more
      rw [outcome_parseArgument, ahead_takeKey?_eq_none_of_blocked named ?_]
      rintro rfl name p rfl
      -- A name alone is an expression, so the parser has not failed at it.
      have failed := blocked []
      have read := parseSum_reads (.product (.unary (.primary (primary_ofName name p))))
        (avoids_nil operators)
      rw [List.nil_append, show outcome (parseSum [.identifier name p]) = _ from read] at failed
      cases failed

theorem parseArgumentList_stuck (ts : List Token) {fault : Fault}
    (fails : outcome (parseArgumentList ts) = .error fault) :
    Stuck (fun us => outcome (parseArgumentList us)) (Begins ArgList fault) ts fault := by
  rw [outcome_parseArgumentList] at fails
  refine Stuck.of_head (stuck_bind fails (fun _ _ _ read => parseArgument_sound read)
    parseArgument_local ?_ ?_) fun us _ => outcome_parseArgumentList us
  · intro fails
    exact (parseArgument_stuck fails).imp fun us begins => begins.as fun us a arg => ⟨_, .one arg⟩
  · intro a used rest same read arg fails
    cases comma : ahead (takeSymbol? .comma rest) with
    | none => simp only [comma] at fails; cases fails
    | some pair =>
      obtain ⟨p, rfl⟩ := ahead_takeSymbol?_eq_some_iff.mp comma
      have shorter : pair.2.length < ts.length := Nat.lt_of_succ_lt (length_lt_of_outcome read)
      simp only [comma] at fails
      refine .cons ?_
      simp only [ahead_takeSymbol?_self]
      refine stuck_map fails fun failed => ?_
      refine (parseArgumentList_stuck pair.2 failed).imp fun us begins => ?_
      exact begins.inside (used ++ [.symbol .comma p]) [] (by simp) fun us as list =>
        ⟨_, _, by simp, .more p arg list⟩
termination_by ts.length

def ClosedArgs (ts : List Token) (arguments : List Argument) : Prop :=
  ∃ us p, ts = us ++ [.symbol .rightParen p] ∧ Args us arguments

theorem parseArguments_stuck (fails : outcome (parseArguments ts) = .error fault) :
    Stuck (fun us => outcome (parseArguments us)) (Begins ClosedArgs fault) ts fault := by
  rw [outcome_parseArguments] at fails
  cases empty : ahead (takeSymbol? .rightParen ts) with
  | some read => rw [empty] at fails; cases fails
  | none =>
    rw [empty] at fails
    refine Stuck.of_head (stuck_bind fails (fun ts _ _ read => parseArgumentList_sound ts read)
      parseArgumentList_local ?_ ?_) fun us head => ?_
    · intro fails
      refine (parseArgumentList_stuck ts fails).imp fun us begins => ?_
      exact begins.inside [] [_] rfl fun us as list => ⟨_, as, rfl, us, .start, rfl, .some list⟩
    · intro as used rest _ _ list fails
      dsimp only at fails ⊢
      refine stuck_map fails fun failed => takeSymbol_stuck failed fun missed => ?_
      rw [List.append_nil]
      have closed : ClosedArgs (used ++ [.symbol .rightParen .start]) as :=
        ⟨used, .start, rfl, .some list⟩
      exact begins_of_phrase closed [_] rfl (by simp [missed])
    · rw [outcome_parseArguments, ahead_takeSymbol?_eq_none_of_head empty head]

theorem closedArgs_nil : ClosedArgs [.symbol .rightParen .start] [] := ⟨[], .start, rfl, .none⟩

theorem invocation_of_closedArgs {us : List Token} {arguments : List Argument} (name : String)
    (p q : Position) (closed : ClosedArgs us arguments) :
    Invocation (.identifier name p :: .symbol .leftParen q :: us)
      (.ofArguments name arguments p) := by
  obtain ⟨us, r, rfl, args⟩ := closed
  exact .call name p q r args (collects_ofArguments name arguments p)

theorem parseHead_stuck (fails : outcome (parseHead ts) = .error fault) :
    Stuck (fun us => outcome (parseHead us)) (Begins Invocation fault) ts fault := by
  rw [outcome_parseHead] at fails
  simp only [outcome_parseHead]
  refine stuck_bind fails takeIdentifier_sound takeIdentifier_local ?_ ?_
  · exact fun fails => takeIdentifier_stuck fails fun missed =>
      begins_of_phrase (invocation_of_closedArgs "f" .start .start closedArgs_nil) _ rfl
        (by simp [missed])
  · rintro ⟨name, p⟩ _ rest _ _ rfl fails
    refine stuck_bind fails (takeSymbol_sound _) (takeSymbol_local _) ?_ ?_
    · exact fun fails => takeSymbol_stuck fails fun missed =>
        begins_of_phrase (invocation_of_closedArgs name p .start closedArgs_nil) _ rfl
          (by simp [missed])
    · rintro _ _ rest _ _ ⟨q, rfl⟩ fails
      dsimp only at fails ⊢
      refine stuck_map fails fun failed => (parseArguments_stuck failed).imp fun us begins => ?_
      exact begins.inside [_, _] [] rfl fun us as closed =>
        ⟨_, _, by simp, invocation_of_closedArgs name p q closed⟩

/-! ## Loops -/

section
variable {counter : String}

theorem loopRange_two {as bs : List Token} {a b : Expr} (p q r : Position) (start : Sum as a)
    (finish : Sum bs b) : LoopRange counter
      (.symbol .leftBracket p :: as ++ .symbol .colon q :: bs ++ [.symbol .rightBracket r])
      ⟨counter, a, none, b⟩ :=
  ⟨rfl, .two p q r start finish⟩

theorem loopRange_three {as bs cs : List Token} {a b c : Expr} (p q r s : Position)
    (start : Sum as a) (step : Sum bs b) (finish : Sum cs c) : LoopRange counter
      (.symbol .leftBracket p :: as ++ .symbol .colon q :: bs ++ .symbol .colon r :: cs ++
        [.symbol .rightBracket s]) ⟨counter, a, some b, c⟩ :=
  ⟨rfl, .three p q r s start step finish⟩

theorem parseRange_stuck (fails : outcome (parseRange counter ts) = .error fault) :
    Stuck (fun us => outcome (parseRange counter us)) (Begins (LoopRange counter) fault) ts
      fault := by
  rw [outcome_parseRange] at fails
  simp only [outcome_parseRange]
  refine stuck_bind fails (takeSymbol_sound _) (takeSymbol_local _) ?_ ?_
  · exact fun fails => takeSymbol_stuck fails fun missed =>
      begins_of_phrase (loopRange_two .start .start .start sum_zero sum_zero) _ rfl
        (by simp [missed])
  rintro _ _ rest _ _ ⟨p, rfl⟩ fails
  refine stuck_bind fails (fun ts _ _ read => parseSum_sound ts read) parseSum_local ?_ ?_
  · intro fails
    refine (parseSum_stuck _ fails).imp fun us begins => ?_
    exact begins.inside [_]
      [.symbol .colon .start, .number "0" .start, .symbol .rightBracket .start]
      rfl fun us e start => ⟨_, _, by simp, loopRange_two p .start .start start sum_zero⟩
  intro a as rest _ _ start fails
  refine stuck_bind fails (takeSymbol_sound _) (takeSymbol_local _) ?_ ?_
  · exact fun fails => takeSymbol_stuck fails fun missed =>
      begins_of_phrase (loopRange_two p .start .start start sum_zero)
        [.symbol .colon .start, .number "0" .start, .symbol .rightBracket .start] (by simp)
        (by simp [missed])
  rintro _ _ rest _ _ ⟨q, rfl⟩ fails
  refine stuck_bind fails (fun ts _ _ read => parseSum_sound ts read) parseSum_local ?_ ?_
  · intro fails
    refine (parseSum_stuck _ fails).imp fun us begins => ?_
    exact begins.inside (.symbol .leftBracket p :: as ++ [.symbol .colon q])
      [.symbol .rightBracket .start] (by simp) fun us e finish =>
        ⟨_, _, by simp, loopRange_two p q .start start finish⟩
  intro b bs rest _ _ middle fails
  cases colon : ahead (takeSymbol? .colon rest) with
  | none =>
    simp only [colon] at fails
    refine Stuck.of_head (stuck_map fails fun failed =>
      takeSymbol_stuck failed fun missed => ?_) fun us head => ?_
    · exact begins_of_phrase (loopRange_two p q .start start middle)
        [.symbol .rightBracket .start] (by simp) (by simp [missed])
    · simp only [ahead_takeSymbol?_eq_none_of_head colon head]
  | some pair =>
    obtain ⟨r, rfl⟩ := ahead_takeSymbol?_eq_some_iff.mp colon
    simp only [colon] at fails
    refine .cons ?_
    simp only [ahead_takeSymbol?_self]
    refine stuck_bind fails (fun ts _ _ read => parseSum_sound ts read) parseSum_local ?_ ?_
    · intro fails
      refine (parseSum_stuck _ fails).imp fun us begins => ?_
      exact begins.inside (.symbol .leftBracket p :: as ++ .symbol .colon q :: bs ++
        [.symbol .colon r]) [.symbol .rightBracket .start] (by simp) fun us e finish =>
          ⟨_, _, by simp, loopRange_three p q r .start start middle finish⟩
    intro c cs rest _ _ finish fails
    dsimp only at fails ⊢
    refine stuck_map fails fun failed => takeSymbol_stuck failed fun missed => ?_
    exact begins_of_phrase (loopRange_three p q r .start start middle finish)
      [.symbol .rightBracket .start] (by simp) (by simp [missed])

end

theorem loopParens_of_range {us : List Token} {counter : String} {head : LoopHead}
    (q r s t : Position)
    (range : LoopRange counter us head) : LoopParens (.symbol .leftParen q ::
      .identifier counter r :: .symbol .equals s :: us ++ [.symbol .rightParen t]) head := by
  obtain ⟨rfl, range⟩ := range
  exact ⟨us, q, r, s, t, rfl, range⟩

abbrev zeroRange : List Token :=
  [.symbol .leftBracket .start, .number "0" .start, .symbol .colon .start, .number "0" .start,
    .symbol .rightBracket .start]

theorem loopRange_zero (counter : String) : ∃ head, LoopRange counter zeroRange head :=
  ⟨_, loopRange_two .start .start .start sum_zero sum_zero⟩

theorem parseLoopHead_stuck (fails : outcome (parseLoopHead ts) = .error fault) :
    Stuck (fun us => outcome (parseLoopHead us)) (Begins LoopParens fault) ts fault := by
  rw [outcome_parseLoopHead] at fails
  simp only [outcome_parseLoopHead]
  refine stuck_bind fails (takeSymbol_sound _) (takeSymbol_local _) ?_ ?_
  · intro fails
    obtain ⟨head, range⟩ := loopRange_zero "i"
    exact takeSymbol_stuck fails fun missed =>
      begins_of_phrase (loopParens_of_range .start .start .start .start range) _ rfl
        (by simp [missed])
  rintro _ _ rest _ _ ⟨q, rfl⟩ fails
  refine stuck_bind fails takeIdentifier_sound takeIdentifier_local ?_ ?_
  · intro fails
    obtain ⟨head, range⟩ := loopRange_zero "i"
    exact takeIdentifier_stuck fails fun missed =>
      begins_of_phrase (loopParens_of_range q .start .start .start range) _ rfl (by simp [missed])
  rintro ⟨counter, r⟩ _ rest _ _ rfl fails
  refine stuck_bind fails (takeSymbol_sound _) (takeSymbol_local _) ?_ ?_
  · intro fails
    obtain ⟨head, range⟩ := loopRange_zero counter
    exact takeSymbol_stuck fails fun missed =>
      begins_of_phrase (loopParens_of_range q r .start .start range) _ rfl (by simp [missed])
  rintro _ _ rest _ _ ⟨s, rfl⟩ fails
  refine stuck_bind fails (parseRange_reads counter) (parseRange_local counter) ?_ ?_
  · intro fails
    refine (parseRange_stuck fails).imp fun us begins => ?_
    exact begins.inside [_, _, _] [_] rfl fun us head range =>
      ⟨_, head, rfl, loopParens_of_range q r s .start range⟩
  intro head used rest _ _ range fails
  dsimp only at fails ⊢
  refine stuck_map fails fun failed => takeSymbol_stuck failed fun missed => ?_
  exact begins_of_phrase (loopParens_of_range q r s .start range) [.symbol .rightParen .start]
    (by simp) (by simp [missed])

end SolidScript.Proofs
