import SolidScript.Proofs.Parsing.Layout
import SolidScript.Proofs.Printing.Written

namespace SolidScript.Proofs
open Lexical Text Grammar Written

/-! ## The words of a text -/

def Lexes (ts : List Token) (words : List Word) : Prop :=
  ts.map Token.lexeme = words.map Word.lexeme

theorem scanFrom_spaced (words : List Word) (p : Position) :
    ∃ stream, scanFrom p ([' '].intercalate (words.map (·.lexeme.text.toList))) = .ok stream ∧
      Lexes stream.tokens words := by
  have space : isBlank ' ' = true := by decide
  induction words generalizing p with
  | nil =>
    rw [List.map_nil, List.intercalate_nil, scanFrom]
    exact ⟨_, rfl, rfl⟩
  | cons w words ih =>
    cases words with
    | nil =>
      have read := lexemeAt_spelled w.spelled
      rw [List.map_singleton, List.intercalate_singleton, ← List.append_nil w.lexeme.text.toList,
        scanFrom_lexeme read, scanFrom]
      exact ⟨_, rfl, rfl⟩
    | cons next words =>
      obtain ⟨stream, scanned, lexed⟩ := ih ((p.after w.lexeme.text.toList).next ' ')
      rw [List.map_cons] at scanned
      rw [List.map_cons, List.map_cons, List.intercalate_cons_cons, List.append_assoc,
        List.singleton_append, scanFrom_lexeme (lexemeAt_blank w.spelled space _),
        scanFrom_blank space, scanned]
      exact ⟨_, rfl, congrArg (w.lexeme :: ·) lexed⟩

theorem Lexes.nil {ts : List Token} (lexed : Lexes ts []) : ts = [] :=
  List.map_eq_nil_iff.mp lexed

theorem Lexes.cons {ts : List Token} {w : Word} {words : List Word}
    (lexed : Lexes ts (w :: words)) :
    ∃ p us, ts = ⟨w.lexeme, p⟩ :: us ∧ Lexes us words := by
  obtain ⟨⟨_, p⟩, us, rfl, rfl, others⟩ := List.map_eq_cons_iff.mp lexed
  exact ⟨p, us, rfl, others⟩

theorem Lexes.append {ts : List Token} {words words' : List Word}
    (lexed : Lexes ts (words ++ words')) :
    ∃ us vs, ts = us ++ vs ∧ Lexes us words ∧ Lexes vs words' := by
  rw [Lexes, List.map_append] at lexed
  exact List.map_eq_append_iff.mp lexed

theorem Lexes.one {ts : List Token} {w : Word} (lexed : Lexes ts [w]) :
    ∃ p, ts = [⟨w.lexeme, p⟩] := by
  obtain ⟨p, us, rfl, others⟩ := lexed.cons
  exact ⟨p, by rw [others.nil]⟩

theorem Lexes.between {ts : List Token} {first last : Word} {words : List Word}
    (lexed : Lexes ts (first :: words ++ [last])) :
    ∃ p us q, ts = ⟨first.lexeme, p⟩ :: us ++ [⟨last.lexeme, q⟩] ∧ Lexes us words := by
  obtain ⟨us, vs, rfl, front, back⟩ := lexed.append
  obtain ⟨p, us, rfl, inner⟩ := front.cons
  obtain ⟨q, rfl⟩ := back.one
  exact ⟨p, us, q, rfl, inner⟩

def Derives {α : Type} (R : List Token → α → Prop) (words : List Word) (a : α) : Prop :=
  ∀ ts, Lexes ts words → R ts a

theorem separated_derives {α : Type} {R : List Token → α → Prop} {L : List Token → List α → Prop}
    (one : ∀ ts a, R ts a → L ts [a])
    (more : ∀ ts us a as (p : Position), R ts a → L us as →
      L (ts ++ .symbol .comma p :: us) (a :: as))
    {phrase : List Word} {phrases : List (List Word)} {a : α} {as : List α}
    (first : Derives R phrase a) (others : List.Forall₂ (Derives R) phrases as) :
    Derives L (separated (phrase :: phrases)) (a :: as) := by
  induction others generalizing phrase a with
  | nil =>
    intro ts lexed
    rw [separated, List.intercalate_singleton] at lexed
    exact one _ _ (first ts lexed)
  | cons second others ih =>
    intro ts lexed
    rw [separated, List.intercalate_cons_cons, List.append_assoc, List.singleton_append] at lexed
    obtain ⟨us, rest, rfl, front, back⟩ := lexed.append
    obtain ⟨p, vs, rfl, later⟩ := back.cons
    exact more _ _ _ _ p (first us front) (ih second vs later)

/-! ## Expressions -/

def Phrase : Nat → List Token → SolidScript.Expr → Prop
  | 0 => Sum
  | 1 => Product
  | _ => Unary

theorem phrase_of_unary {ts : List Token} {e : SolidScript.Expr} (phrase : Unary ts e) :
    ∀ level, Phrase level ts e
  | 0 => .product (.unary phrase)
  | 1 => .unary phrase
  | _ + 2 => phrase

theorem Phrase.mono {level least : Nat} {ts : List Token} {e : SolidScript.Expr}
    (phrase : Phrase level ts e) (tight : least ≤ level) : Phrase least ts e := by
  match level, least with
  | 0, 0 | 1, 1 => exact phrase
  | 1, 0 => exact Sum.product phrase
  | _ + 2, least => exact phrase_of_unary phrase least

theorem Phrase.sum {level : Nat} {ts : List Token} {e : SolidScript.Expr}
    (phrase : Phrase level ts e) : Sum ts e :=
  phrase.mono (Nat.zero_le level)

theorem phrase_binary {ls rs : List Token} {l r : SolidScript.Expr} {op : Operator} (p : Position)
    (left : Phrase (precedence op) ls l) (right : Phrase (precedence op + 1) rs r) :
    Phrase (precedence op) (ls ++ .symbol op.symbol p :: rs) (.binary op l r) := by
  cases op with
  | add => exact Sum.more p (.inl rfl) left right
  | sub => exact Sum.more p (.inr rfl) left right
  | mul => exact Product.more p (.inl rfl) left right
  | div => exact Product.more p (.inr rfl) left right

theorem operand_derives {words : List Word} {e : SolidScript.Expr} {level : Nat}
    (derives : Derives (Phrase level) words e) (least : Nat) :
    Derives (Phrase least) (operand least level words) e := by
  intro ts lexed
  unfold operand at lexed
  split at lexed
  · obtain ⟨p, us, q, rfl, inner⟩ := lexed.between
    have sum := (derives us inner).sum
    exact phrase_of_unary (.primary (.paren p q sum)) least
  · exact (derives ts lexed).mono (by omega)

theorem array_derives {phrases : List (List Word)} {items : List SolidScript.Expr}
    (each : List.Forall₂ (Derives Sum) phrases items) (p q : Position) {ts : List Token}
    (lexed : Lexes ts (separated phrases)) :
    Primary (.symbol .leftBracket p :: ts ++ [.symbol .rightBracket q]) (.array items) := by
  cases each with
  | nil =>
    rw [lexed.nil]
    exact .emptyArray p q
  | cons first others =>
    have items := separated_derives @Items.one @Items.more first others
    exact .array p q (items ts lexed)

mutual

theorem expr_derives : ∀ e : Written.Expr, Derives (Phrase e.level) e.words e.tree
  | .number numeral => by
    intro ts lexed
    obtain ⟨p, rfl⟩ := lexed.one
    exact Unary.primary (.number numeral.text p)
  | .boolean true => by
    intro ts lexed
    obtain ⟨p, rfl⟩ := lexed.one
    exact Unary.primary (.truth p)
  | .boolean false => by
    intro ts lexed
    obtain ⟨p, rfl⟩ := lexed.one
    exact Unary.primary (.falsity p)
  | .var name noTruth noFalsity => by
    intro ts lexed
    obtain ⟨p, rfl⟩ := lexed.one
    exact Unary.primary (.var p noTruth noFalsity)
  | .array items => by
    intro ts lexed
    obtain ⟨p, us, q, rfl, inner⟩ := lexed.between
    exact Unary.primary (array_derives (exprs_derive items) p q inner)
  | .negate e => by
    intro ts lexed
    obtain ⟨p, us, rfl, inner⟩ := lexed.cons
    exact Unary.minus p (operand_derives (expr_derives e) 2 us inner)
  | .binary op l r => by
    intro ts lexed
    obtain ⟨ls, rest, rfl, left, later⟩ := lexed.append
    obtain ⟨p, rs, rfl, right⟩ := later.cons
    have left := operand_derives (expr_derives l) _ ls left
    have right := operand_derives (expr_derives r) _ rs right
    exact phrase_binary p left right

theorem exprs_derive : ∀ es : List Written.Expr,
    List.Forall₂ (Derives Sum) (Written.Expr.wordsAll es) (Written.Expr.treeAll es)
  | [] => .nil
  | e :: es => .cons (fun ts lexed => (expr_derives e ts lexed).sum) (exprs_derive es)

end

theorem sum_derives (e : Written.Expr) : Derives Sum e.words e.tree :=
  fun ts lexed => (expr_derives e ts lexed).sum

/-! ## Calls -/

theorem args_derive {phrases : List (List Word)} {arguments : List Argument}
    (each : List.Forall₂ (Derives Arg) phrases arguments) :
    Derives Args (separated phrases) arguments := by
  intro ts lexed
  cases each with
  | nil =>
    rw [lexed.nil]
    exact .none
  | cons first others =>
    have list := separated_derives @ArgList.one @ArgList.more first others
    exact .some (list ts lexed)

theorem positional_derive (es : List Written.Expr) :
    List.Forall₂ (Derives Arg) (es.map Written.Expr.words)
      (es.map fun e => .positional e.tree) := by
  rw [List.forall₂_map_left_iff, List.forall₂_map_right_iff, List.forall₂_same]
  intro e _ ts lexed
  exact .positional (sum_derives e ts lexed)

theorem named_derive (entries : List (Name × Written.Expr)) :
    List.Forall₂ (Derives Arg)
      (entries.map fun (key, value) => .name key :: .symbol .equals :: value.words)
      (entries.map fun (key, value) => .named key.text value.tree) := by
  rw [List.forall₂_map_left_iff, List.forall₂_map_right_iff, List.forall₂_same]
  intro entry _ ts lexed
  obtain ⟨p, us, rfl, later⟩ := lexed.cons
  obtain ⟨q, vs, rfl, value⟩ := later.cons
  exact .named entry.1.text p q (sum_derives entry.2 vs value)

theorem collects_tree (head : Written.Head) :
    Collects head.arguments head.tree.positional head.tree.named := by
  have values : head.arguments.filterMap Argument.value? = head.tree.positional := by
    simp [Head.arguments, Head.tree, List.filterMap_map, Function.comp_def, Argument.value?]
  have entries : head.arguments.filterMap Argument.entry? = head.tree.named := by
    simp [Head.arguments, Head.tree, List.filterMap_map, Function.comp_def, Argument.entry?]
  have distinct : (head.tree.named.map Prod.fst).Nodup := by
    simpa [Head.tree, Function.comp_def] using head.distinct
  have kept := Bindings.ofPairs_of_nodup distinct
  refine ⟨values.symm, ?_, ?_⟩
  · rw [entries, ← Bindings.keys_ofPairs, kept]
  · intro key
    rw [entries, ← Bindings.get?_ofPairs, kept]

/-- A derivation of a tree up to the places of its calls. -/
def UpTo {α : Type} (view : α → α) (R : List Token → α → Prop) (ts : List Token) (a : α) : Prop :=
  ∃ found, R ts found ∧ view found = a

abbrev atStart : Position → Position := fun _ => .start

theorem head_derives (head : Written.Head) :
    Derives (UpTo (Head.relocate atStart) Invocation) head.words head.tree := by
  intro ts lexed
  obtain ⟨p, rest, r, rfl, call⟩ := lexed.between
  obtain ⟨q, us, rfl, inner⟩ := call.cons
  have each := List.rel_append (positional_derive head.positional) (named_derive head.named)
  have args := args_derive each us inner
  exact ⟨_, .call head.name.text p q r args (collects_tree head), rfl⟩

theorem plain_of_relocate {found : SolidScript.Head} {head : Written.Head}
    (same : found.relocate atStart = head.tree) : found.name ≠ "for" := by
  have name : found.name = head.name.text := congrArg SolidScript.Head.name same
  rw [name]
  exact head.plain

/-! ## Statements -/

theorem range_derives (start : Written.Expr) (step : Option Written.Expr) (finish : Written.Expr)
    (ts : List Token) (lexed : Lexes ts (rangeWords start step finish)) :
    Range ts start.tree (step.map Written.Expr.tree) finish.tree := by
  cases step with
  | none =>
    obtain ⟨us, close, rfl, ends, last⟩ := lexed.append
    obtain ⟨as₀, bs₀, rfl, first, second⟩ := ends.append
    obtain ⟨p, as, rfl, start_lexed⟩ := first.cons
    obtain ⟨q, bs, rfl, finish_lexed⟩ := second.cons
    obtain ⟨r, rfl⟩ := last.one
    exact .two p q r (sum_derives start as start_lexed) (sum_derives finish bs finish_lexed)
  | some step =>
    obtain ⟨us, close, rfl, ends, last⟩ := lexed.append
    obtain ⟨vs, cs₀, rfl, firsts, third⟩ := ends.append
    obtain ⟨as₀, bs₀, rfl, first, second⟩ := firsts.append
    obtain ⟨p, as, rfl, start_lexed⟩ := first.cons
    obtain ⟨q, bs, rfl, step_lexed⟩ := second.cons
    obtain ⟨r, cs, rfl, finish_lexed⟩ := third.cons
    obtain ⟨s, rfl⟩ := last.one
    exact .three p q r s (sum_derives start as start_lexed) (sum_derives step bs step_lexed)
      (sum_derives finish cs finish_lexed)

theorem block_derives {words : List Word} {body : Program}
    (derives : Derives (UpTo (Stmt.relocateAll atStart) Statements) words body) :
    Derives (UpTo (Stmt.relocateAll atStart) Block) (braced words) body := by
  intro ts lexed
  obtain ⟨p, us, q, rfl, inner⟩ := lexed.between
  obtain ⟨found, statements, same⟩ := derives us inner
  exact ⟨found, .braces p q statements, same⟩

mutual

theorem statement_derives : ∀ s : Written.Stmt,
    Derives (UpTo (Stmt.relocate atStart) Statement) s.words s.tree
  | .assign name plain value => by
    intro ts lexed
    obtain ⟨p, rest, r, rfl, assigned⟩ := lexed.between
    obtain ⟨q, us, rfl, inner⟩ := assigned.cons
    exact ⟨_, .assign p q r plain (sum_derives value us inner), rfl⟩
  | .loop counter start step finish body => by
    intro ts lexed
    obtain ⟨us₀, vs₀, rfl, word, close⟩ := lexed.append
    obtain ⟨p, us₁, rfl, parens⟩ := word.cons
    obtain ⟨q, us₂, rfl, name⟩ := parens.cons
    obtain ⟨r, us₃, rfl, sign⟩ := name.cons
    obtain ⟨s, us, rfl, range_lexed⟩ := sign.cons
    obtain ⟨t, vs, rfl, block_lexed⟩ := close.cons
    have range := range_derives start step finish us range_lexed
    obtain ⟨found, block, same⟩ := block_derives (statements_derive body) vs block_lexed
    refine ⟨_, .loop p q r s t range block, ?_⟩
    rw [Stmt.relocate, same, Written.Stmt.tree]
  | .call head none => by
    intro ts lexed
    obtain ⟨us, vs, rfl, front, back⟩ := lexed.append
    obtain ⟨p, rfl⟩ := back.one
    obtain ⟨found, invocation, same⟩ := head_derives head us front
    refine ⟨_, .call p (plain_of_relocate same) invocation, ?_⟩
    rw [Stmt.relocate, same, Written.Stmt.tree]
  | .call head (some body) => by
    intro ts lexed
    obtain ⟨us, vs, rfl, front, back⟩ := lexed.append
    obtain ⟨found, invocation, same⟩ := head_derives head us front
    obtain ⟨inner, block, same_block⟩ := block_derives (statements_derive body) vs back
    refine ⟨_, .callBlock (plain_of_relocate same) invocation block, ?_⟩
    rw [Stmt.relocate, same, same_block, Written.Stmt.tree]

theorem statements_derive : ∀ ss : List Written.Stmt,
    Derives (UpTo (Stmt.relocateAll atStart) Statements) (Written.Stmt.wordsAll ss)
      (Written.Stmt.treeAll ss)
  | [] => by
    intro ts lexed
    rw [lexed.nil]
    exact ⟨[], .nil, rfl⟩
  | s :: ss => by
    intro ts lexed
    obtain ⟨us, vs, rfl, front, back⟩ := lexed.append
    obtain ⟨found, statement, same⟩ := statement_derives s us front
    obtain ⟨others, statements, same_others⟩ := statements_derive ss vs back
    refine ⟨found :: others, .cons statement statements, ?_⟩
    rw [Stmt.relocateAll, same, same_others, Written.Stmt.treeAll]

end

/-- Printing a script and parsing its text gives the program it stands for, up to the places of
its calls. -/
theorem parseProgram_printed (script : List Written.Stmt) :
    ∃ program, parseProgram (Written.text script) = .ok program ∧
      Stmt.relocateAll (fun _ => .start) program = Written.Stmt.treeAll script := by
  obtain ⟨stream, scanned, lexed⟩ := scanFrom_spaced (Written.Stmt.wordsAll script) (place [])
  obtain ⟨program, statements, same⟩ := statements_derive script stream.tokens lexed
  have chars : (Written.text script).toList = [' '].intercalate
      ((Written.Stmt.wordsAll script).map (·.lexeme.text.toList)) := by
    simp [Written.text, String.toList_intercalate, Function.comp_def]
  rw [scanFrom_eq_ok_iff, ← chars] at scanned
  exact ⟨program, parseProgram_eq_ok_iff.mpr ⟨stream, scanned, statements⟩, same⟩

end SolidScript.Proofs
