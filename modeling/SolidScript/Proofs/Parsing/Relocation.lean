import SolidScript.Proofs.Parsing.Grammar

namespace SolidScript

variable (move : Position → Position)

def Token.relocate (t : Token) : Token := { t with position := move t.position }

def Head.relocate (head : Head) : Head := { head with position := move head.position }

mutual

def Stmt.relocate : Stmt → Stmt
  | .assign name value => .assign name value
  | .loop counter start step finish body =>
    .loop counter start step finish (Stmt.relocateAll body)
  | .call head none => .call (head.relocate move) none
  | .call head (some block) => .call (head.relocate move) (some (Stmt.relocateAll block))

def Stmt.relocateAll : List Stmt → List Stmt
  | [] => []
  | s :: ss => s.relocate :: Stmt.relocateAll ss

end

namespace Grammar

@[simp] theorem relocate_symbol (s : Symbol) (p : Position) :
    (Token.symbol s p).relocate move = .symbol s (move p) := rfl

@[simp] theorem relocate_identifier (name : String) (p : Position) :
    (Token.identifier name p).relocate move = .identifier name (move p) := rfl

mutual

theorem Primary.relocate : ∀ {ts : List Token} {e : Expr}, Primary ts e →
    Primary (ts.map (Token.relocate move)) e
  | _, _, .number numeral p => .number numeral (move p)
  | _, _, .truth p => .truth (move p)
  | _, _, .falsity p => .falsity (move p)
  | _, _, .var p noTruth noFalsity => .var (move p) noTruth noFalsity
  | _, _, .paren p q inner => by
    have phrase := Primary.paren (move p) (move q) inner.relocate
    simpa using phrase
  | _, _, .emptyArray p q => .emptyArray (move p) (move q)
  | _, _, .array p q inner => by
    have phrase := Primary.array (move p) (move q) inner.relocate
    simpa using phrase

theorem Unary.relocate : ∀ {ts : List Token} {e : Expr}, Unary ts e →
    Unary (ts.map (Token.relocate move)) e
  | _, _, .primary only => .primary only.relocate
  | _, _, .minus p operand => .minus (move p) operand.relocate

theorem Product.relocate : ∀ {ts : List Token} {e : Expr}, Product ts e →
    Product (ts.map (Token.relocate move)) e
  | _, _, .unary only => .unary only.relocate
  | _, _, .more p level left right => by
    have phrase := Product.more (move p) level left.relocate right.relocate
    simpa using phrase

theorem Sum.relocate : ∀ {ts : List Token} {e : Expr}, Sum ts e →
    Sum (ts.map (Token.relocate move)) e
  | _, _, .product only => .product only.relocate
  | _, _, .more p level left right => by
    have phrase := Sum.more (move p) level left.relocate right.relocate
    simpa using phrase

theorem Items.relocate : ∀ {ts : List Token} {es : List Expr}, Items ts es →
    Items (ts.map (Token.relocate move)) es
  | _, _, .one only => .one only.relocate
  | _, _, .more p first others => by
    have phrase := Items.more (move p) first.relocate others.relocate
    simpa using phrase

end

theorem Statements.append {ts us : List Token} {ss ss' : List Stmt} (first : Statements ts ss)
    (second : Statements us ss') : Statements (ts ++ us) (ss ++ ss') := by
  induction ss generalizing ts with
  | nil =>
    cases first
    exact second
  | cons s ss ih =>
    cases first with
    | cons one others =>
      rw [List.append_assoc]
      exact .cons one (ih others)

end Grammar

end SolidScript
