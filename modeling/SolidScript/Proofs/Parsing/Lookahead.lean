import SolidScript.Proofs.Parsing.Completeness

namespace SolidScript.Proofs
open Grammar

variable {α β : Type}

abbrev Reader (α : Type) := List Token → Except Fault (α × List Token)

def Local (p : Reader α) : Prop :=
  ∀ used rest other a, p (used ++ rest) = .ok (a, rest) → other.head? = rest.head? →
    p (used ++ other) = .ok (a, other)

def Sound (p : Reader α) (Phrase : List Token → α → Prop) : Prop :=
  ∀ ts a rest, p ts = .ok (a, rest) → ∃ used, ts = used ++ rest ∧ Phrase used a

/-- A sound parser that reads each of its phrases whatever follows looks at nothing that follows. -/
theorem local_of_complete {p : Reader α} {Phrase : List Token → α → Prop} (sound : Sound p Phrase)
    (complete : ∀ used a rest, Phrase used a → p (used ++ rest) = .ok (a, rest)) : Local p := by
  intro used rest other a read _
  obtain ⟨used', same, phrase⟩ := sound _ _ _ read
  rw [List.append_cancel_right same]
  exact complete _ _ _ phrase

/-! ## Single tokens -/

theorem takeSymbol_sound (s : Symbol) :
    Sound (fun ts => outcome (takeSymbol s ts)) fun used _ => ∃ p, used = [.symbol s p] := by
  intro ts u rest read
  obtain ⟨p, rfl⟩ := outcome_takeSymbol_eq_ok_iff.mp read
  exact ⟨[.symbol s p], rfl, p, rfl⟩

theorem takeIdentifier_sound : Sound (fun ts => outcome (takeIdentifier ts))
    fun used word => used = [.identifier word.1 word.2] := by
  intro ts word rest read
  rw [outcome_takeIdentifier_eq_ok_iff.mp read]
  exact ⟨[.identifier word.1 word.2], rfl, rfl⟩

theorem takeSymbol_local (s : Symbol) : Local fun ts => outcome (takeSymbol s ts) := by
  refine local_of_complete (takeSymbol_sound s) fun used u rest single => ?_
  obtain ⟨p, rfl⟩ := single
  exact outcome_takeSymbol_self s p rest

theorem takeIdentifier_local : Local fun ts => outcome (takeIdentifier ts) := by
  refine local_of_complete takeIdentifier_sound fun used word rest single => ?_
  rw [single]
  exact outcome_takeIdentifier_self word.1 word.2 rest

theorem ahead_takeSymbol?_eq_none_of_head {s : Symbol} {ts other : List Token}
    (absent : ahead (takeSymbol? s ts) = none) (head : other.head? = ts.head?) :
    ahead (takeSymbol? s other) = none := by
  cases found : ahead (takeSymbol? s other) with
  | none => rfl
  | some pair =>
    obtain ⟨p, rfl⟩ := ahead_takeSymbol?_eq_some_iff.mp found
    obtain ⟨tail, rfl⟩ := List.head?_eq_some_iff.mp head.symm
    rw [ahead_takeSymbol?_self] at absent
    cases absent

theorem ahead_takeKey?_eq_none_of_take {ts other : List Token}
    (absent : ahead (takeKey? ts) = none) (two : other.take 2 = ts.take 2) :
    ahead (takeKey? other) = none := by
  cases found : ahead (takeKey? other) with
  | none => rfl
  | some pair =>
    obtain ⟨p, q, rfl⟩ := ahead_takeKey?_eq_some_iff.mp found
    match ts, two with
    | [], two => cases two
    | [_], two => cases two
    | _ :: _ :: tail, two =>
      cases two
      rw [ahead_takeKey?_eq_some_iff.mpr ⟨p, q, rfl⟩] at absent
      cases absent

theorem ahead_takeFor?_eq_none_of_head {ts other : List Token}
    (absent : ahead (takeFor? ts) = none) (head : other.head? = ts.head?) :
    ahead (takeFor? other) = none := by
  cases found : ahead (takeFor? other) with
  | none => rfl
  | some pair =>
    obtain ⟨p, rfl⟩ := ahead_takeFor?_eq_some_iff.mp found
    obtain ⟨tail, rfl⟩ := List.head?_eq_some_iff.mp head.symm
    rw [ahead_takeFor?_self] at absent
    cases absent

theorem take_two_of_head {used rest other : List Token} (nonempty : used ≠ [])
    (head : other.head? = rest.head?) : (used ++ other).take 2 = (used ++ rest).take 2 := by
  match used, nonempty with
  | [t], _ => cases other <;> cases rest <;> simp_all
  | t :: u :: used, _ => simp

/-! ## Expressions -/

theorem avoids_of_head {ss : List Symbol} {ts other : List Token} (avoids : Avoids ss ts)
    (head : other.head? = ts.head?) : Avoids ss other := by
  rw [Avoids, head]
  exact avoids

theorem parseFactors_avoids (ts : List Token) {left e : Expr} {rest : List Token}
    (read : outcome (parseFactors left ts) = .ok (e, rest)) : Avoids [.star, .slash] rest := by
  match ts with
  | [] =>
    rw [outcome_parseFactors_nil] at read
    cases read
    exact avoids_nil _
  | t :: ts =>
    rw [outcome_parseFactors_cons] at read
    cases operator : productOperator? t.lexeme with
    | none =>
      rw [operator] at read
      cases read
      rw [avoids_cons]
      intro s member same
      rw [same] at operator
      rcases List.mem_pair.mp member with rfl | rfl <;> cases operator
    | some op =>
      simp only [operator, bind_eq_ok, Prod.exists] at read
      obtain ⟨right, rest₁, first, read⟩ := read
      have shorter := length_lt_of_outcome first
      exact parseFactors_avoids rest₁ read
termination_by ts.length

theorem parseProduct_avoids {ts : List Token} {e : Expr} {rest : List Token}
    (read : outcome (parseProduct ts) = .ok (e, rest)) : Avoids [.star, .slash] rest := by
  rw [outcome_parseProduct] at read
  obtain ⟨⟨first, rest₁⟩, -, read⟩ := bind_eq_ok.mp read
  exact parseFactors_avoids rest₁ read

theorem parseTerms_avoids (ts : List Token) {left e : Expr} {rest : List Token}
    (free : Avoids [.star, .slash] ts) (read : outcome (parseTerms left ts) = .ok (e, rest)) :
    Avoids operators rest := by
  match ts with
  | [] =>
    rw [outcome_parseTerms_nil] at read
    cases read
    exact avoids_nil _
  | t :: ts =>
    rw [outcome_parseTerms_cons] at read
    cases operator : sumOperator? t.lexeme with
    | none =>
      rw [operator] at read
      cases read
      rw [avoids_cons] at free ⊢
      intro s member same
      rw [same] at operator
      simp only [operators, List.mem_cons, List.not_mem_nil, or_false] at member
      rcases member with rfl | rfl | factor
      · cases operator
      · cases operator
      · exact free s (List.mem_pair.mpr factor) same
    | some op =>
      simp only [operator, bind_eq_ok, Prod.exists] at read
      obtain ⟨right, rest₁, first, read⟩ := read
      have shorter := length_lt_of_outcome first
      exact parseTerms_avoids rest₁ (parseProduct_avoids first) read
termination_by ts.length

theorem parseSum_avoids {ts : List Token} {e : Expr} {rest : List Token}
    (read : outcome (parseSum ts) = .ok (e, rest)) : Avoids operators rest := by
  rw [outcome_parseSum] at read
  obtain ⟨⟨first, rest₁⟩, product, read⟩ := bind_eq_ok.mp read
  exact parseTerms_avoids rest₁ (parseProduct_avoids product) read

theorem parseUnary_local : Local fun ts => outcome (parseUnary ts) :=
  local_of_complete (fun ts _ _ read => parseUnary_sound ts read)
    fun _ _ rest phrase => parseUnary_complete phrase rest

theorem parseProduct_local : Local fun ts => outcome (parseProduct ts) := by
  intro used rest other e read head
  obtain ⟨used', same, phrase⟩ := parseProduct_sound _ read
  obtain rfl := List.append_cancel_right same
  have free := avoids_of_head (parseProduct_avoids read) head
  exact (parseProduct_complete phrase other).trans (outcome_parseFactors_of_avoids free e)

theorem parseSum_local : Local fun ts => outcome (parseSum ts) := by
  intro used rest other e read head
  obtain ⟨used', same, phrase⟩ := parseSum_sound _ read
  obtain rfl := List.append_cancel_right same
  exact parseSum_reads phrase (avoids_of_head (parseSum_avoids read) head)

theorem parseItems_avoids (ts : List Token) {items : List Expr} {rest : List Token}
    (read : outcome (parseItems ts) = .ok (items, rest)) : Avoids (.comma :: operators) rest := by
  rw [outcome_parseItems] at read
  simp only [bind_eq_ok, Prod.exists] at read
  obtain ⟨item, rest₁, first, read⟩ := read
  have shorter := length_lt_of_outcome first
  cases comma : ahead (takeSymbol? .comma rest₁) with
  | none =>
    rw [comma] at read
    cases read
    intro t start s member
    rcases List.mem_cons.mp member with rfl | operator
    · intro same
      obtain ⟨tail, rfl⟩ := List.head?_eq_some_iff.mp start
      obtain ⟨lexeme, p⟩ := t
      cases same
      rw [ahead_takeSymbol?_self] at comma
      cases comma
    · exact parseSum_avoids first t start s operator
  | some pair =>
    obtain ⟨p, rfl⟩ := ahead_takeSymbol?_eq_some_iff.mp comma
    simp only [comma, bind_eq_ok, Prod.exists, pure_eq_ok, Prod.mk.injEq] at read
    obtain ⟨others, rest, more, rfl, rfl⟩ := read
    have shorter' : pair.2.length < ts.length := Nat.lt_of_succ_lt shorter
    exact parseItems_avoids pair.2 more
termination_by ts.length

theorem parseItems_local : Local fun ts => outcome (parseItems ts) := by
  intro used rest other items read head
  obtain ⟨used', same, phrase⟩ := parseItems_sound _ read
  obtain rfl := List.append_cancel_right same
  exact parseItems_complete phrase other (avoids_of_head (parseItems_avoids _ read) head)

/-! ## Calls -/

theorem parseArgument_local : Local fun ts => outcome (parseArgument ts) := by
  intro used rest other argument read head
  dsimp only at read ⊢
  obtain ⟨used', same, phrase⟩ := parseArgument_sound read
  obtain rfl := List.append_cancel_right same
  rw [outcome_parseArgument] at read
  cases named : ahead (takeKey? (used ++ rest)) with
  | some pair =>
    simp only [named, bind_eq_ok, Prod.exists, pure_eq_ok, Prod.mk.injEq] at read
    obtain ⟨e, rest, value, rfl, rfl⟩ := read
    have free := avoids_of_head (parseSum_avoids value) head
    cases phrase with
    | named key p q phrase =>
      rw [List.cons_append, List.cons_append, outcome_parseArgument,
        ahead_takeKey?_eq_some_iff.mpr ⟨p, q, rfl⟩]
      simp [parseSum_reads phrase free]
  | none =>
    simp only [named, bind_eq_ok, Prod.exists, pure_eq_ok, Prod.mk.injEq] at read
    obtain ⟨e, rest, value, rfl, rfl⟩ := read
    cases phrase with
    | positional phrase =>
      have nonempty : used ≠ [] := by
        obtain ⟨t, us, rfl, -⟩ := phrase.opens
        exact List.cons_ne_nil t us
      have unnamed := ahead_takeKey?_eq_none_of_take named (take_two_of_head nonempty head)
      rw [outcome_parseArgument, unnamed]
      simp [parseSum_local used rest other e value head]

theorem parseArgumentList_local : Local fun ts => outcome (parseArgumentList ts) := by
  intro used rest other arguments read head
  dsimp only at read ⊢
  rw [outcome_parseArgumentList] at read
  obtain ⟨⟨argument, rest₁⟩, first, read⟩ := bind_eq_ok.mp read
  obtain ⟨used₁, same, phrase⟩ := parseArgument_sound first
  cases comma : ahead (takeSymbol? .comma rest₁) with
  | none =>
    simp only [comma] at read
    cases read
    obtain rfl := List.append_cancel_right same
    have start : outcome (parseArgument (used ++ other)) = .ok (argument, other) :=
      parseArgument_local used rest other argument first head
    rw [outcome_parseArgumentList, start]
    simp [ahead_takeSymbol?_eq_none_of_head comma head]
  | some pair =>
    obtain ⟨p, rfl⟩ := ahead_takeSymbol?_eq_some_iff.mp comma
    simp only [comma, bind_eq_ok, Prod.exists, pure_eq_ok, Prod.mk.injEq] at read
    obtain ⟨others, rest, more, rfl, rfl⟩ := read
    obtain ⟨used₂, left, phrase'⟩ := parseArgumentList_sound _ more
    rw [same, left] at first
    rw [left] at more
    rw [left, ← List.cons_append, ← List.append_assoc] at same
    have whole := List.append_cancel_right same
    have shorter : used₂.length < used.length := by
      rw [whole, List.length_append, List.length_cons]
      omega
    have later : outcome (parseArgumentList (used₂ ++ other)) = .ok (others, other) :=
      parseArgumentList_local used₂ rest other others more head
    have start : outcome (parseArgument (used₁ ++ .symbol .comma p :: (used₂ ++ other))) =
        .ok (argument, .symbol .comma p :: (used₂ ++ other)) :=
      parseArgument_local used₁ _ _ argument first rfl
    rw [whole, List.append_assoc, List.cons_append, outcome_parseArgumentList, start]
    simp [later]
termination_by used => used.length

theorem parseHead_local : Local fun ts => outcome (parseHead ts) :=
  local_of_complete (fun _ _ _ read => parseHead_sound read)
    fun _ _ rest phrase => parseHead_complete phrase rest

/-! ## Statements -/

def LoopRange (counter : String) (ts : List Token) (head : LoopHead) : Prop :=
  head.counter = counter ∧ Range ts head.start head.step head.finish

theorem parseRange_reads (counter : String) :
    Sound (fun ts => outcome (parseRange counter ts)) (LoopRange counter) := by
  intro ts head rest read
  obtain ⟨named, us, same, phrase⟩ := parseRange_sound read
  exact ⟨us, same, named, phrase⟩

theorem parseRange_local (counter : String) : Local fun ts => outcome (parseRange counter ts) := by
  refine local_of_complete (parseRange_reads counter) ?_
  rintro us head rest ⟨rfl, phrase⟩
  exact parseRange_complete phrase head.counter rest

def LoopParens (ts : List Token) (head : LoopHead) : Prop :=
  ∃ us q r s t, ts = .symbol .leftParen q :: .identifier head.counter r :: .symbol .equals s ::
    us ++ [.symbol .rightParen t] ∧ Range us head.start head.step head.finish

theorem parseLoopHead_reads : Sound (fun ts => outcome (parseLoopHead ts)) LoopParens := by
  intro ts head rest read
  obtain ⟨us, q, r, s, t, rfl, phrase⟩ := parseLoopHead_sound read
  exact ⟨_, by simp, us, q, r, s, t, rfl, phrase⟩

theorem parseLoopHead_local : Local fun ts => outcome (parseLoopHead ts) := by
  refine local_of_complete parseLoopHead_reads ?_
  rintro _ head rest ⟨us, q, r, s, t, rfl, phrase⟩
  rw [List.append_assoc, List.singleton_append]
  exact parseLoopHead_complete phrase head.counter q r s t rest

theorem parseCallEnd_local : Local fun ts => outcome (parseCallEnd ts) := by
  intro used rest other block read head
  dsimp only at read ⊢
  rw [outcome_parseCallEnd] at read
  cases opening : ahead (takeSymbol? .leftBrace (used ++ rest)) with
  | none =>
    simp only [opening, bind_eq_ok, Prod.exists, outcome_takeSymbol_eq_ok_iff, pure_eq_ok,
      Prod.mk.injEq] at read
    obtain ⟨-, rest, ⟨p, same⟩, rfl, rfl⟩ := read
    obtain rfl : used = [.symbol .semicolon p] := List.append_cancel_right same
    rw [List.singleton_append, outcome_parseCallEnd, ahead_takeSymbol?_of_ne (by simp)]
    simp
  | some pair =>
    obtain ⟨p, same⟩ := ahead_takeSymbol?_eq_some_iff.mp opening
    simp only [opening, bind_eq_ok, Prod.exists] at read
    obtain ⟨body, rest₁, inner, read⟩ := read
    obtain ⟨us, q, left, phrase⟩ := parseBlockRest_sound pair.2 inner
    rw [left] at same
    have complete := parseBlockRest_complete phrase q
    cases ending : ahead (takeSymbol? .semicolon rest₁) with
    | none =>
      rw [ending] at read
      cases read
      obtain rfl : used = .symbol .leftBrace p :: us ++ [.symbol .rightBrace q] :=
        List.append_cancel_right (same.trans (by simp))
      rw [List.append_assoc, List.cons_append, List.singleton_append, outcome_parseCallEnd]
      simp [complete, ahead_takeSymbol?_eq_none_of_head ending head]
    | some next =>
      obtain ⟨r, rfl⟩ := ahead_takeSymbol?_eq_some_iff.mp ending
      rw [ending] at read
      cases read
      obtain rfl : used =
          .symbol .leftBrace p :: us ++ [.symbol .rightBrace q, .symbol .semicolon r] :=
        List.append_cancel_right (same.trans (by simp))
      rw [List.append_assoc, List.cons_append, List.cons_append, List.singleton_append,
        outcome_parseCallEnd]
      simp [complete]

theorem outcome_parseStatement_call_local {ts us rest other : List Token} {head : Head}
    {s : Stmt} (call : Invocation ts head) (plain : head.name ≠ "for")
    (read : outcome (parseStatement (ts ++ us ++ rest)) = .ok (s, rest))
    (start : other.head? = rest.head?) :
    outcome (parseStatement (ts ++ us ++ other)) = .ok (s, other) := by
  rw [List.append_assoc, outcome_parseStatement_call call plain] at read ⊢
  simp only [bind_eq_ok, Prod.exists, pure_eq_ok, Prod.mk.injEq] at read
  obtain ⟨block, rest, ending, rfl, rfl⟩ := read
  have ending' : outcome (parseCallEnd (us ++ other)) = .ok (block, other) :=
    parseCallEnd_local us rest other block ending start
  rw [ending']
  rfl

theorem parseStatement_local : Local fun ts => outcome (parseStatement ts) := by
  intro used rest other s read start
  dsimp only at read ⊢
  obtain ⟨used', same, phrase⟩ := parseStatement_sound _ read
  obtain rfl := List.append_cancel_right same
  cases phrase with
  | assign p q r plain value =>
    have value' := parseSum_reads value
      (show Avoids operators (.symbol .semicolon r :: other) by simp [avoids_cons])
    rw [List.append_assoc, List.cons_append, List.cons_append, outcome_parseStatement,
      ahead_takeFor?_identifier plain, ahead_takeKey?_eq_some_iff.mpr ⟨p, q, rfl⟩]
    simp [value']
  | @loop ts us counter _ _ _ _ p q r s t range block =>
    have head := parseLoopHead_complete range counter q r s t (us ++ other)
    have body := parseBlock_complete block other
    rw [List.append_assoc, List.cons_append, outcome_parseStatement]
    simp only [ahead_takeFor?_self, List.cons_append] at head ⊢
    simp [head, body]
  | call p plain invocation => exact outcome_parseStatement_call_local invocation plain read start
  | callBlock plain invocation block =>
    exact outcome_parseStatement_call_local invocation plain read start
  | callBlockEnded p plain invocation block =>
    rw [List.append_assoc _ _ [_]] at read ⊢
    exact outcome_parseStatement_call_local invocation plain read start

end SolidScript.Proofs
