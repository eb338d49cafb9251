import SolidScript.Program.Parse

/-!
# The grammar

Which tokens stand for which tree. The rules are about whole token lists and say nothing of how
they are read: a sum is a product, or a sum, an operator and a product, so operators of one level
group to the left. Two rules keep statements apart: the word of loops begins neither an assignment
nor a call, and a call without a block ends with a semicolon.
-/

namespace SolidScript

abbrev Token.symbol (s : Symbol) (p : Position) : Token := ⟨.symbol s, p⟩

abbrev Token.identifier (name : String) (p : Position) : Token := ⟨.identifier name, p⟩

abbrev Token.number (numeral : String) (p : Position) : Token := ⟨.number numeral, p⟩

def Argument.value? : Argument → Option Expr
  | .positional value => some value
  | .named _ _ => none

def Argument.entry? : Argument → Option (String × Expr)
  | .positional _ => none
  | .named key value => some (key, value)

namespace Grammar

mutual

inductive Primary : List Token → Expr → Prop where
  | number (numeral : String) (p : Position) :
    Primary [.number numeral p] (.number (Number.ofNumeral numeral.toList))
  | truth (p : Position) : Primary [.identifier "true" p] (.boolean true)
  | falsity (p : Position) : Primary [.identifier "false" p] (.boolean false)
  | var {name : String} (p : Position) (noTruth : name ≠ "true") (noFalsity : name ≠ "false") :
    Primary [.identifier name p] (.var name)
  | paren {ts : List Token} {e : Expr} (p q : Position) (inner : Sum ts e) :
    Primary (.symbol .leftParen p :: ts ++ [.symbol .rightParen q]) e
  | emptyArray (p q : Position) :
    Primary [.symbol .leftBracket p, .symbol .rightBracket q] (.array [])
  | array {ts : List Token} {items : List Expr} (p q : Position) (inner : Items ts items) :
    Primary (.symbol .leftBracket p :: ts ++ [.symbol .rightBracket q]) (.array items)

inductive Unary : List Token → Expr → Prop where
  | primary {ts : List Token} {e : Expr} (only : Primary ts e) : Unary ts e
  | minus {ts : List Token} {e : Expr} (p : Position) (operand : Unary ts e) :
    Unary (.symbol .minus p :: ts) (.negate e)

inductive Product : List Token → Expr → Prop where
  | unary {ts : List Token} {e : Expr} (only : Unary ts e) : Product ts e
  | more {ls rs : List Token} {l r : Expr} {op : Operator} (p : Position)
    (level : op = .mul ∨ op = .div) (left : Product ls l) (right : Unary rs r) :
    Product (ls ++ .symbol op.symbol p :: rs) (.binary op l r)

inductive Sum : List Token → Expr → Prop where
  | product {ts : List Token} {e : Expr} (only : Product ts e) : Sum ts e
  | more {ls rs : List Token} {l r : Expr} {op : Operator} (p : Position)
    (level : op = .add ∨ op = .sub) (left : Sum ls l) (right : Product rs r) :
    Sum (ls ++ .symbol op.symbol p :: rs) (.binary op l r)

inductive Items : List Token → List Expr → Prop where
  | one {ts : List Token} {e : Expr} (only : Sum ts e) : Items ts [e]
  | more {ts us : List Token} {e : Expr} {es : List Expr} (p : Position) (first : Sum ts e)
    (others : Items us es) : Items (ts ++ .symbol .comma p :: us) (e :: es)

end

inductive Arg : List Token → Argument → Prop where
  | positional {ts : List Token} {e : Expr} (value : Sum ts e) : Arg ts (.positional e)
  | named {ts : List Token} {e : Expr} (key : String) (p q : Position) (value : Sum ts e) :
    Arg (.identifier key p :: .symbol .equals q :: ts) (.named key e)

inductive ArgList : List Token → List Argument → Prop where
  | one {ts : List Token} {a : Argument} (only : Arg ts a) : ArgList ts [a]
  | more {ts us : List Token} {a : Argument} {as : List Argument} (p : Position) (first : Arg ts a)
    (others : ArgList us as) : ArgList (ts ++ .symbol .comma p :: us) (a :: as)

inductive Args : List Token → List Argument → Prop where
  | none : Args [] []
  | some {ts : List Token} {as : List Argument} (list : ArgList ts as) : Args ts as

/-- How the arguments of a call are kept: the positional ones in order, and for each name, in the
order in which the names first came, the last expression given for it. -/
structure Collects (arguments : List Argument) (positional : List Expr) (named : Bindings Expr) :
    Prop where
  inOrder : positional = arguments.filterMap Argument.value?
  firstPlace : named.keys = ((arguments.filterMap Argument.entry?).map Prod.fst).eraseDups
  lastValue : ∀ key, named.get? key = (arguments.filterMap Argument.entry?).reverse.lookup key

inductive Invocation : List Token → Head → Prop where
  | call {ts : List Token} {arguments : List Argument} {positional : List Expr}
    {named : Bindings Expr} (name : String) (p q r : Position) (args : Args ts arguments)
    (kept : Collects arguments positional named) :
    Invocation (.identifier name p :: .symbol .leftParen q :: ts ++ [.symbol .rightParen r])
      ⟨name, positional, named, p⟩

inductive Range : List Token → Expr → Option Expr → Expr → Prop where
  | two {as bs : List Token} {a b : Expr} (p q r : Position) (start : Sum as a) (finish : Sum bs b) :
    Range (.symbol .leftBracket p :: as ++ .symbol .colon q :: bs ++ [.symbol .rightBracket r])
      a none b
  | three {as bs cs : List Token} {a b c : Expr} (p q r s : Position) (start : Sum as a)
    (step : Sum bs b) (finish : Sum cs c) :
    Range (.symbol .leftBracket p :: as ++ .symbol .colon q :: bs ++ .symbol .colon r :: cs ++
      [.symbol .rightBracket s]) a (some b) c

mutual

inductive Statement : List Token → Stmt → Prop where
  | assign {ts : List Token} {name : String} {e : Expr} (p q r : Position) (plain : name ≠ "for")
    (value : Sum ts e) :
    Statement (.identifier name p :: .symbol .equals q :: ts ++ [.symbol .semicolon r])
      (.assign name e)
  | loop {ts us : List Token} {counter : String} {start finish : Expr} {step : Option Expr}
    {body : List Stmt} (p q r s t : Position) (range : Range ts start step finish)
    (block : Block us body) :
    Statement (.identifier "for" p :: .symbol .leftParen q :: .identifier counter r ::
      .symbol .equals s :: ts ++ .symbol .rightParen t :: us)
      (.loop counter start step finish body)
  | call {ts : List Token} {head : Head} (p : Position) (plain : head.name ≠ "for")
    (invocation : Invocation ts head) :
    Statement (ts ++ [.symbol .semicolon p]) (.call head none)
  | callBlock {ts us : List Token} {head : Head} {body : List Stmt} (plain : head.name ≠ "for")
    (invocation : Invocation ts head) (block : Block us body) :
    Statement (ts ++ us) (.call head (some body))
  | callBlockEnded {ts us : List Token} {head : Head} {body : List Stmt} (p : Position)
    (plain : head.name ≠ "for") (invocation : Invocation ts head) (block : Block us body) :
    Statement (ts ++ us ++ [.symbol .semicolon p]) (.call head (some body))

inductive Block : List Token → List Stmt → Prop where
  | braces {ts : List Token} {body : List Stmt} (p q : Position) (inner : Statements ts body) :
    Block (.symbol .leftBrace p :: ts ++ [.symbol .rightBrace q]) body

inductive Statements : List Token → List Stmt → Prop where
  | nil : Statements [] []
  | cons {ts us : List Token} {s : Stmt} {ss : List Stmt} (first : Statement ts s)
    (others : Statements us ss) : Statements (ts ++ us) (s :: ss)

end

/-! ## Beginnings

The first token of a phrase, and the tokens that cannot occur in one. -/

inductive Opens : Token → Prop where
  | number (numeral : String) (p : Position) : Opens (.number numeral p)
  | identifier (name : String) (p : Position) : Opens (.identifier name p)
  | paren (p : Position) : Opens (.symbol .leftParen p)
  | bracket (p : Position) : Opens (.symbol .leftBracket p)

theorem Opens.lexeme_ne {t : Token} (opens : Opens t) {s : Symbol} (noParen : s ≠ .leftParen)
    (noBracket : s ≠ .leftBracket) : t.lexeme ≠ .symbol s := by
  cases opens with
  | number | identifier => simp
  | paren p => simpa using noParen.symm
  | bracket p => simpa using noBracket.symm

theorem Primary.opens {ts : List Token} {e : Expr} (phrase : Primary ts e) :
    ∃ t us, ts = t :: us ∧ Opens t := by
  cases phrase with
  | number numeral p => exact ⟨_, _, rfl, .number numeral p⟩
  | truth p | falsity p | var p => exact ⟨_, _, rfl, .identifier _ p⟩
  | paren p q inner => exact ⟨_, _, rfl, .paren p⟩
  | emptyArray p q | array p q inner => exact ⟨_, _, rfl, .bracket p⟩

theorem Unary.opens {ts : List Token} {e : Expr} (phrase : Unary ts e) :
    ∃ t us, ts = t :: us ∧ (Opens t ∨ t.lexeme = .symbol .minus) := by
  cases phrase with
  | primary only =>
    obtain ⟨t, us, rfl, opens⟩ := only.opens
    exact ⟨t, us, rfl, .inl opens⟩
  | minus p operand => exact ⟨_, _, rfl, .inr rfl⟩

theorem Product.opens {ts : List Token} {e : Expr} (phrase : Product ts e) :
    ∃ t us, ts = t :: us ∧ (Opens t ∨ t.lexeme = .symbol .minus) := by
  cases phrase with
  | unary only => exact only.opens
  | more p level left right =>
    obtain ⟨t, us, rfl, opens⟩ := left.opens
    exact ⟨t, _, rfl, opens⟩

theorem Sum.opens {ts : List Token} {e : Expr} (phrase : Sum ts e) :
    ∃ t us, ts = t :: us ∧ (Opens t ∨ t.lexeme = .symbol .minus) := by
  cases phrase with
  | product only => exact only.opens
  | more p level left right =>
    obtain ⟨t, us, rfl, opens⟩ := left.opens
    exact ⟨t, _, rfl, opens⟩

end Grammar

end SolidScript
