import SolidScript.Proofs.Parsing.Correspondence
import SolidScript.Proofs.Parsing.Stuck

namespace SolidScript.Proofs
open Grammar

variable {fault : Fault}

/-! ## Open blocks -/

/-- A loop or a call up to and with the brace that opens its block. -/
inductive Opening : List Token → Prop where
  | loop {us : List Token} {head : LoopHead} (p q : Position) (parens : LoopParens us head) :
    Opening (.identifier "for" p :: us ++ [.symbol .leftBrace q])
  | call {us : List Token} {head : Head} (q : Position) (plain : head.name ≠ "for")
    (invocation : Invocation us head) : Opening (us ++ [.symbol .leftBrace q])

/-- Tokens that end at a statement boundary inside an open block. -/
inductive InOpenBlock : List Token → Prop where
  | outermost {ts us vs : List Token} {before inner : List Stmt} (done : Statements ts before)
    (opening : Opening us) (read : Statements vs inner) : InOpenBlock (ts ++ (us ++ vs))
  | nested {ts us vs : List Token} {before : List Stmt} (done : Statements ts before)
    (opening : Opening us) (deeper : InOpenBlock vs) : InOpenBlock (ts ++ (us ++ vs))

theorem InOpenBlock.after {ts us : List Token} {s : Stmt} (first : Statement ts s)
    (inBlock : InOpenBlock us) : InOpenBlock (ts ++ us) := by
  cases inBlock with
  | outermost done opening read =>
    rw [← List.append_assoc]
    exact .outermost (.cons first done) opening read
  | nested done opening deeper =>
    rw [← List.append_assoc]
    exact .nested (.cons first done) opening deeper

def AtBoundary (ts : List Token) : Prop := (∃ body, Statements ts body) ∨ InOpenBlock ts

theorem AtBoundary.after {ts us : List Token} {s : Stmt} (first : Statement ts s)
    (boundary : AtBoundary us) : AtBoundary (ts ++ us) := by
  rcases boundary with ⟨body, read⟩ | inBlock
  · exact .inl ⟨s :: body, .cons first read⟩
  · exact .inr (inBlock.after first)

theorem AtBoundary.inBlock {us vs : List Token} (boundary : AtBoundary vs) (opening : Opening us) :
    InOpenBlock (us ++ vs) := by
  rcases boundary with ⟨body, read⟩ | inBlock
  · exact .outermost .nil opening read
  · exact .nested .nil opening inBlock

/-! ## Statements -/

theorem statement_loop {us vs : List Token} {head : LoopHead} {body : List Stmt} (p : Position)
    (parens : LoopParens us head) (block : Block vs body) :
    Statement (.identifier "for" p :: us ++ vs)
      (.loop head.counter head.start head.step head.finish body) := by
  obtain ⟨us, q, r, s, t, rfl, range⟩ := parens
  have phrase := @Statement.loop _ _ head.counter _ _ _ _ p q r s t range block
  simpa using phrase

theorem block_nil : Block [.symbol .leftBrace .start, .symbol .rightBrace .start] [] :=
  .braces .start .start .nil

def ClosedStatements (ts : List Token) (body : List Stmt) : Prop :=
  ∃ us p, ts = us ++ [.symbol .rightBrace p] ∧ Statements us body

theorem block_of_closed {us : List Token} {body : List Stmt} (p : Position)
    (closed : ClosedStatements us body) : Block (.symbol .leftBrace p :: us) body := by
  obtain ⟨us, q, rfl, read⟩ := closed
  exact .braces p q read

theorem begins_call {before rest : List Token} (begins : Begins Invocation fault before)
    (plain : ahead (takeFor? (before ++ rest)) = none) : Begins Statement fault before := by
  obtain ⟨⟨more, head, call⟩, opened⟩ := begins
  refine ⟨?_, opened⟩
  cases before with
  | nil =>
    have call := invocation_of_closedArgs "f" .start .start closedArgs_nil
    have statement := Statement.call .start (by decide) call
    exact ⟨_, _, statement⟩
  | cons t us =>
    have plain' := @name_ne_for _ _ [] call (ahead_takeFor?_eq_none_of_head plain (by simp))
    exact ⟨more ++ [.symbol .semicolon .start], _, by
      rw [← List.append_assoc]
      exact .call .start plain' call⟩

mutual

theorem parseStatement_stuck (ts : List Token) {fault : Fault}
    (fails : outcome (parseStatement ts) = .error fault) :
    Stuck (fun us => outcome (parseStatement us)) (Viable Statement InOpenBlock fault) ts
      fault := by
  rw [outcome_parseStatement] at fails
  cases loop : ahead (takeFor? ts) with
  | some pair =>
    obtain ⟨p, word⟩ := ahead_takeFor?_eq_some_iff.mp loop
    simp only [loop] at fails
    rw [word]
    refine .cons ?_
    simp only [outcome_parseStatement, ahead_takeFor?_self]
    refine stuck_bind fails parseLoopHead_reads parseLoopHead_local ?_ ?_
    · intro fails
      refine (parseLoopHead_stuck fails).imp fun us begins => viable_of_begins ?_
      exact begins.inside [_] _ rfl fun us head parens =>
        ⟨_, _, rfl, statement_loop p parens block_nil⟩
    · intro head used rest _ read parens fails
      have shorter : rest.length < ts.length := by
        rw [word]
        exact Nat.lt_succ_of_lt (length_lt_of_outcome read)
      dsimp only at fails ⊢
      refine stuck_map fails fun failed => (parseBlock_stuck rest failed).imp fun us viable => ?_
      refine viable.within (.identifier "for" p :: used) [] rfl (fun us body block => ?_) ?_
      · exact ⟨_, _, by simp, statement_loop p parens block⟩
      · rintro _ ⟨q, us, rfl, boundary⟩
        simpa using boundary.inBlock (.loop p q parens)
  | none =>
    simp only [loop] at fails
    cases assigned : ahead (takeKey? ts) with
    | some pair =>
      obtain ⟨p, q, rfl⟩ := ahead_takeKey?_eq_some_iff.mp assigned
      have plain : pair.1 ≠ "for" := by
        intro word
        rw [word, ahead_takeFor?_self] at loop
        cases loop
      have named (us : List Token) :
          ahead (takeKey? (.identifier pair.1 p :: .symbol .equals q :: us)) = some (pair.1, us) :=
        ahead_takeKey?_eq_some_iff.mpr ⟨p, q, rfl⟩
      simp only [assigned] at fails
      refine .cons (.cons ?_)
      simp only [outcome_parseStatement, ahead_takeFor?_identifier plain, named]
      refine stuck_bind fails (fun ts _ _ read => parseSum_sound ts read) parseSum_local ?_ ?_
      · intro fails
        refine (parseSum_stuck pair.2 fails).imp fun us begins => viable_of_begins ?_
        exact begins.inside [_, _] [_] rfl fun us e value =>
          ⟨_, _, rfl, .assign p q .start plain value⟩
      · intro e used rest _ _ value fails
        dsimp only at fails ⊢
        refine stuck_map fails fun failed => takeSymbol_stuck failed fun missed => ?_
        refine viable_of_begins (begins_of_phrase (.assign p q .start plain value)
          [.symbol .semicolon .start] (by simp) (by simp [missed]))
    | none =>
      simp only [assigned] at fails
      refine Stuck.of_blocked (stuck_bind fails (fun _ _ _ read => parseHead_sound read)
        parseHead_local ?_ ?_) ?_
      · intro fails
        obtain ⟨before, rfl, begins, blocked⟩ := parseHead_stuck fails
        exact ⟨before, rfl, viable_of_begins (begins_call begins loop), blocked⟩
      · intro head used rest same read call fails
        have shorter := length_lt_of_outcome read
        have plain : head.name ≠ "for" := name_ne_for call (same ▸ loop)
        dsimp only at fails ⊢
        exact stuck_map fails fun failed => parseCallEnd_stuck rest call plain failed
      · rintro before t after rfl blocked more
        have unlooped := @ahead_takeFor?_eq_none_of_head _ (before ++ t :: more) loop
          (by rw [List.head?_append, List.head?_append]; rfl)
        rw [outcome_parseStatement, unlooped, ahead_takeKey?_eq_none_of_blocked assigned ?_]
        rintro rfl name p rfl
        -- The parser would have read the name and missed the parenthesis after it.
        have failed := blocked []
        rw [List.nil_append, outcome_parseHead, outcome_takeIdentifier_self] at failed
        cases congrArg Fault.rest (Except.error.inj failed)
termination_by (ts.length, 0)

theorem parseCallEnd_stuck (ts : List Token) {fault : Fault} {start : List Token} {head : Head}
    (call : Invocation start head) (plain : head.name ≠ "for")
    (fails : outcome (parseCallEnd ts) = .error fault) :
    Stuck (fun us => outcome (parseCallEnd us))
      (fun us => Viable Statement InOpenBlock fault (start ++ us)) ts fault := by
  rw [outcome_parseCallEnd] at fails
  cases opening : ahead (takeSymbol? .leftBrace ts) with
  | some pair =>
    obtain ⟨p, rfl⟩ := ahead_takeSymbol?_eq_some_iff.mp opening
    simp only [opening] at fails
    have failed : outcome (parseBlockRest pair.2) = .error fault := by
      rcases bind_eq_error.mp fails with failed | ⟨⟨body, rest⟩, -, failed⟩
      · exact failed
      · dsimp only at failed
        split at failed <;> cases failed
    refine .cons ?_
    simp only [outcome_parseCallEnd, ahead_takeSymbol?_self]
    refine ((parseBlockRest_stuck pair.2 failed).bind _).imp fun us viable => ?_
    refine viable.within (start ++ [.symbol .leftBrace p]) [] (by simp)
      (fun us body closed => ?_) ?_
    · exact ⟨_, _, by simp, .callBlock plain call (block_of_closed p closed)⟩
    · intro us boundary
      exact boundary.inBlock (.call p plain call)
  | none =>
    simp only [opening] at fails
    refine Stuck.of_head (stuck_map fails fun failed =>
      takeSymbol_stuck failed fun missed => ?_) fun us head => ?_
    · exact viable_of_begins (begins_of_phrase (.call .start plain call)
        [.symbol .semicolon .start] (by simp) (by simp [missed]))
    · rw [outcome_parseCallEnd, ahead_takeSymbol?_eq_none_of_head opening head]
termination_by (ts.length, 0)

theorem parseBlock_stuck (ts : List Token) {fault : Fault}
    (fails : outcome (parseBlock ts) = .error fault) :
    Stuck (fun us => outcome (parseBlock us))
      (Viable Block (fun us => ∃ p vs, us = .symbol .leftBrace p :: vs ∧ AtBoundary vs) fault) ts
      fault := by
  rw [outcome_parseBlock] at fails
  simp only [outcome_parseBlock]
  refine stuck_bind fails (takeSymbol_sound _) (takeSymbol_local _) ?_ ?_
  · intro fails
    exact takeSymbol_stuck fails fun missed =>
      viable_of_begins (begins_of_phrase block_nil _ rfl (by simp [missed]))
  · rintro _ _ rest same _ ⟨p, rfl⟩ fails
    have shorter : rest.length < ts.length := by rw [same]; simp
    refine (parseBlockRest_stuck rest fails).imp fun us viable => ?_
    refine viable.within [.symbol .leftBrace p] [] rfl (fun us body closed => ?_) ?_
    · exact ⟨_, body, by simp, block_of_closed p closed⟩
    · intro us boundary
      exact ⟨p, us, rfl, boundary⟩
termination_by (ts.length, 0)

theorem parseBlockRest_stuck (ts : List Token) {fault : Fault}
    (fails : outcome (parseBlockRest ts) = .error fault) :
    Stuck (fun us => outcome (parseBlockRest us)) (Viable ClosedStatements AtBoundary fault) ts
      fault := by
  rw [outcome_parseBlockRest] at fails
  cases closing : ahead (takeSymbol? .rightBrace ts) with
  | some read => rw [closing] at fails; cases fails
  | none =>
    rw [closing] at fails
    by_cases ended : ts = []
    · subst ended
      cases fails
      refine .here rfl ⟨⟨[.symbol .rightBrace .start], [], [], .start, rfl, .nil⟩, fun _ => ?_⟩
        nofun
      exact ⟨rfl, .inl ⟨[], .nil⟩⟩
    · simp only [ended, if_false] at fails
      refine Stuck.of_head (stuck_bind fails (fun ts _ _ read => parseStatement_sound ts read)
        parseStatement_local ?_ ?_) fun us head => ?_
      · intro fails
        refine (parseStatement_stuck ts fails).imp fun us viable => ?_
        refine viable.within [] [.symbol .rightBrace .start] rfl (fun us s statement => ?_)
          fun us inBlock => .inr inBlock
        exact ⟨_, [s], rfl, us, .start, rfl, by simpa using Statements.cons statement .nil⟩
      · intro s used rest _ read statement fails
        have shorter := length_lt_of_outcome read
        dsimp only at fails ⊢
        refine stuck_map fails fun failed => ?_
        refine (parseBlockRest_stuck rest failed).imp fun us viable => ?_
        refine viable.within used [] rfl (fun us body closed => ?_)
          fun us boundary => boundary.after statement
        obtain ⟨us, p, rfl, others⟩ := closed
        exact ⟨_, s :: body, by simp, used ++ us, p, rfl, .cons statement others⟩
      · have nonempty : us ≠ [] := by
          rintro rfl
          exact ended (List.head?_eq_none_iff.mp head.symm)
        rw [outcome_parseBlockRest, ahead_takeSymbol?_eq_none_of_head closing head]
        simp only [nonempty, if_false]
termination_by (ts.length, 1)

end

theorem parseStatements_stuck (ts : List Token) {fault : Fault}
    (fails : parseStatements ts = .error fault) :
    Stuck parseStatements (Viable Statements InOpenBlock fault) ts fault := by
  match ts with
  | [] =>
    rw [parseStatements] at fails
    cases fails
  | t :: ts =>
    rw [parseStatements_cons] at fails
    refine Stuck.of_head (stuck_bind fails (fun ts _ _ read => parseStatement_sound ts read)
      parseStatement_local ?_ ?_) fun us head => ?_
    · intro fails
      refine (parseStatement_stuck (t :: ts) fails).imp fun us viable => ?_
      exact viable.within [] [] rfl (fun us s statement => ⟨_, _, by simp, .cons statement .nil⟩)
        fun us inBlock => inBlock
    · intro s used rest _ read statement fails
      have shorter := length_lt_of_outcome read
      dsimp only at fails ⊢
      refine stuck_map fails fun failed => ?_
      refine (parseStatements_stuck rest failed).imp fun us viable => ?_
      exact viable.within used [] rfl (fun us ss others => ⟨_, _, by simp, .cons statement others⟩)
        fun us inBlock => inBlock.after statement
    · obtain ⟨us, rfl⟩ := List.head?_eq_some_iff.mp head
      exact parseStatements_cons t us
termination_by ts.length
decreasing_by exact shorter

/-! ## Missing braces -/

theorem opening_identifier {us : List Token} (opening : Opening us) (vs : List Token) :
    ∃ name p rest, us ++ vs = .identifier name p :: rest := by
  cases opening with
  | loop p q parens => exact ⟨"for", p, _, rfl⟩
  | call q plain invocation =>
    cases invocation with
    | call name p q r args kept => exact ⟨name, p, _, rfl⟩

theorem parseStatement_opening {us vs : List Token} (opening : Opening us)
    (inner : outcome (parseBlockRest vs) = .error fault) :
    outcome (parseStatement (us ++ vs)) = .error fault := by
  cases opening with
  | @loop _ head p q parens =>
    obtain ⟨ts, r, s, t, u, rfl, range⟩ := parens
    have parens := parseLoopHead_complete range head.counter r s t u (.symbol .leftBrace q :: vs)
    have block : outcome (parseBlock (.symbol .leftBrace q :: vs)) = .error fault := by
      rw [outcome_parseBlock, outcome_takeSymbol_self]
      exact inner
    rw [List.append_assoc, List.cons_append, List.append_assoc, List.singleton_append,
      List.singleton_append, outcome_parseStatement, ahead_takeFor?_self]
    dsimp only
    rw [parens, ok_bind]
    dsimp only
    rw [block]
    rfl
  | call q plain invocation =>
    rw [List.append_assoc, outcome_parseStatement_call invocation plain, List.singleton_append,
      outcome_parseCallEnd, ahead_takeSymbol?_self]
    dsimp only
    rw [inner]
    rfl

theorem parseBlockRest_opening {us vs : List Token} (opening : Opening us)
    (inner : outcome (parseBlockRest vs) = .error fault) :
    outcome (parseBlockRest (us ++ vs)) = .error fault := by
  have statement := parseStatement_opening opening inner
  obtain ⟨name, p, rest, same⟩ := opening_identifier opening vs
  rw [same] at statement ⊢
  rw [outcome_parseBlockRest, ahead_takeSymbol?_of_ne (by simp)]
  simp only [reduceCtorEq, if_false]
  rw [statement]
  rfl

theorem parseBlockRest_after {body : List Stmt} {us rest : List Token} (done : Statements us body)
    (free : Avoids [.semicolon] rest) (fails : outcome (parseBlockRest rest) = .error fault) :
    outcome (parseBlockRest (us ++ rest)) = .error fault := by
  induction body generalizing us with
  | nil =>
    cases done
    exact fails
  | cons s ss ih =>
    cases done with
    | @cons ts vs _ _ first others =>
      have read := parseStatement_complete first (vs ++ rest) (statements_avoid others free)
      obtain ⟨name, p, ws, rfl⟩ := statement_opens first
      rw [List.append_assoc, List.cons_append] at *
      rw [outcome_parseBlockRest, ahead_takeSymbol?_of_ne (by simp)]
      simp only [reduceCtorEq, if_false]
      rw [read, ok_bind]
      dsimp only
      rw [ih others]
      rfl

theorem opening_avoids {us : List Token} (opening : Opening us) (vs : List Token) :
    Avoids [.semicolon] (us ++ vs) := by
  obtain ⟨name, p, rest, same⟩ := opening_identifier opening vs
  rw [same]
  simp [avoids_cons]

theorem parseBlockRest_statements {us : List Token} {body : List Stmt} (read : Statements us body) :
    outcome (parseBlockRest us) = .error ⟨.closingBrace, []⟩ := by
  have ended : outcome (parseBlockRest []) = .error ⟨.closingBrace, []⟩ := by
    rw [outcome_parseBlockRest]
    rfl
  have fails := parseBlockRest_after read (avoids_nil _) ended
  rw [List.append_nil] at fails
  exact fails

theorem parseBlockRest_inOpenBlock {us : List Token} (inBlock : InOpenBlock us) :
    outcome (parseBlockRest us) = .error ⟨.closingBrace, []⟩ := by
  induction inBlock with
  | outermost done opening read =>
    have inner := parseBlockRest_opening opening (parseBlockRest_statements read)
    exact parseBlockRest_after done (opening_avoids opening _) inner
  | nested done opening deeper ih =>
    exact parseBlockRest_after done (opening_avoids opening _) (parseBlockRest_opening opening ih)

theorem parseStatements_after {body : List Stmt} {us rest : List Token} (done : Statements us body)
    (free : Avoids [.semicolon] rest) (fails : parseStatements rest = .error fault) :
    parseStatements (us ++ rest) = .error fault := by
  induction body generalizing us with
  | nil =>
    cases done
    exact fails
  | cons s ss ih =>
    cases done with
    | @cons ts vs _ _ first others =>
      have read := parseStatement_complete first (vs ++ rest) (statements_avoid others free)
      obtain ⟨name, p, ws, rfl⟩ := statement_opens first
      rw [List.append_assoc, List.cons_append] at *
      rw [parseStatements_cons, read, ok_bind]
      dsimp only
      rw [ih others]
      rfl

theorem parseStatements_opening {us vs : List Token} (opening : Opening us)
    (inner : outcome (parseBlockRest vs) = .error fault) :
    parseStatements (us ++ vs) = .error fault := by
  have statement := parseStatement_opening opening inner
  obtain ⟨name, p, rest, same⟩ := opening_identifier opening vs
  rw [same] at statement ⊢
  rw [parseStatements_cons, statement]
  rfl

theorem parseStatements_inOpenBlock {us : List Token} (inBlock : InOpenBlock us) :
    parseStatements us = .error ⟨.closingBrace, []⟩ := by
  cases inBlock with
  | outermost done opening read =>
    have block := parseStatements_opening opening (parseBlockRest_statements read)
    exact parseStatements_after done (opening_avoids opening _) block
  | nested done opening deeper =>
    have block := parseStatements_opening opening (parseBlockRest_inOpenBlock deeper)
    exact parseStatements_after done (opening_avoids opening _) block

/-! ## Token streams -/

/-- The tokens that a parse error leaves unread: it reports the first of them, or their end. -/
def Reports (error : ParseError) (finish : Position) : List Token → Prop
  | [] => error.found = endText ∧ error.position = finish
  | t :: _ => error.found = t.lexeme.text ∧ error.position = t.position

/-- A parse error reports the first impossible token: what stands before it begins a program, and
with it nothing does; at the end, what was read is no program. A closing brace is missed exactly at
a statement boundary inside an open block. -/
theorem parse_error_first_impossible (stream : TokenStream) (error : ParseError)
    (fails : stream.parse = .error error) :
    ∃ before rest, stream.tokens = before ++ rest ∧ Reports error stream.finish rest ∧
      (∃ more program, TokenStream.parse ⟨before ++ more, stream.finish⟩ = .ok program) ∧
      (∀ t after, rest = t :: after → ∀ more finish program,
        TokenStream.parse ⟨before ++ t :: more, finish⟩ ≠ .ok program) ∧
      (rest = [] → ∀ finish program, TokenStream.parse ⟨before, finish⟩ ≠ .ok program) ∧
      (error.expected = .closingBrace ↔ rest = [] ∧ InOpenBlock before) := by
  obtain ⟨fault, failed, rfl⟩ := mapError_eq_error.mp fails
  obtain ⟨before, same, ⟨⟨more, program, phrase⟩, opened⟩, blocked⟩ :=
    parseStatements_stuck stream.tokens failed
  have expected : (fault.toError stream.finish).expected = fault.expected := by
    unfold Fault.toError
    split <;> rfl
  refine ⟨before, fault.rest, same, ?_, ⟨more, program, parse_eq_ok_iff.mpr phrase⟩, ?_, ?_, ?_⟩
  · unfold Fault.toError
    cases fault.rest with
    | nil => exact ⟨rfl, rfl⟩
    | cons t after => exact ⟨rfl, rfl⟩
  · intro t after rest more finish program accepted
    rw [TokenStream.parse, mapError_eq_ok, blocked t after rest more] at accepted
    cases accepted
  · intro ended finish program accepted
    rw [ended, List.append_nil] at same
    rw [TokenStream.parse, mapError_eq_ok, ← same, failed] at accepted
    cases accepted
  · rw [expected]
    refine ⟨opened, fun ⟨ended, inBlock⟩ => ?_⟩
    rw [ended, List.append_nil] at same
    rw [same, parseStatements_inOpenBlock inBlock] at failed
    cases failed
    rfl

def openUnion : TokenStream where
  tokens := [.identifier "union" ⟨1, 1⟩, .symbol .leftParen ⟨1, 6⟩, .symbol .rightParen ⟨1, 7⟩,
    .symbol .leftBrace ⟨1, 9⟩, .identifier "x" ⟨1, 11⟩, .symbol .equals ⟨1, 13⟩,
    .number "1" ⟨1, 15⟩, .symbol .semicolon ⟨1, 16⟩]
  finish := ⟨1, 17⟩

theorem openUnion_inOpenBlock : InOpenBlock openUnion.tokens := by
  have call := invocation_of_closedArgs "union" ⟨1, 1⟩ ⟨1, 6⟩ ⟨[], ⟨1, 7⟩, rfl, .none⟩
  have value := Sum.product (.unary (.primary (.number "1" ⟨1, 15⟩)))
  have inner := Statement.assign ⟨1, 11⟩ ⟨1, 13⟩ ⟨1, 16⟩ (show "x" ≠ "for" by decide) value
  exact .outermost .nil (.call ⟨1, 9⟩ (by decide) call) (.cons inner .nil)

theorem openUnion_parse : openUnion.parse = .error ⟨.closingBrace, endText, ⟨1, 17⟩⟩ := by
  rw [TokenStream.parse, parseStatements_inOpenBlock openUnion_inOpenBlock]
  rfl

theorem openUnion_first_impossible : ∃ error, openUnion.parse = .error error ∧
    ∃ before rest, openUnion.tokens = before ++ rest ∧ Reports error openUnion.finish rest ∧
      (∃ more program, TokenStream.parse ⟨before ++ more, openUnion.finish⟩ = .ok program) ∧
      (∀ t after, rest = t :: after → ∀ more finish program,
        TokenStream.parse ⟨before ++ t :: more, finish⟩ ≠ .ok program) ∧
      (rest = [] → ∀ finish program, TokenStream.parse ⟨before, finish⟩ ≠ .ok program) ∧
      (error.expected = .closingBrace ↔ rest = [] ∧ InOpenBlock before) :=
  ⟨_, openUnion_parse, parse_error_first_impossible openUnion _ openUnion_parse⟩

end SolidScript.Proofs
