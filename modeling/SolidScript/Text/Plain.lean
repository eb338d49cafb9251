/-!
# Plain text

A text may hold control sequences, which steer a terminal instead of being shown: the escape
character and a bracket, then parameters, then intermediates, then one final character. The plain
text is what is left without them.
-/

namespace SolidScript.Text

def escape : Char := '\x1b'

/-! ## Character classes -/

def isParameter (c : Char) : Bool := '0' ≤ c && c ≤ '?'

def isIntermediate (c : Char) : Bool := ' ' ≤ c && c ≤ '/'

def isFinal (c : Char) : Bool := '@' ≤ c && c ≤ '~'

/-! ## Sequences -/

/-- What stands behind the control sequence at the front of a text, if there is one. -/
def afterSequence? (cs : List Char) : Option (List Char) :=
  match cs with
  | c :: '[' :: body =>
    if c = escape then
      match (body.dropWhile isParameter).dropWhile isIntermediate with
      | last :: rest => if isFinal last then some rest else none
      | [] => none
    else none
  | _ => none

theorem length_afterSequence?_lt {cs rest : List Char} (h : afterSequence? cs = some rest) :
    rest.length < cs.length := by
  unfold afterSequence? at h
  split at h
  · rename_i body
    split at h
    · split at h
      · rename_i last tail found
        split at h
        · cases h
          have inner := (List.dropWhile_sublist (l := body) isParameter).length_le
          have outer :=
            (List.dropWhile_sublist (l := body.dropWhile isParameter) isIntermediate).length_le
          simp only [found, List.length_cons] at outer ⊢
          omega
        · cases h
      · cases h
    · cases h
  · cases h

/-- A text without its control sequences. It is read once: what closes up around a sequence is not
taken for another. -/
def dropSequences (cs : List Char) : List Char :=
  match cs with
  | [] => []
  | c :: tail =>
    match found : afterSequence? (c :: tail) with
    | some rest =>
      have := length_afterSequence?_lt found
      dropSequences rest
    | none => c :: dropSequences tail
termination_by cs.length
decreasing_by
  · exact this
  · exact Nat.lt_succ_self _

def plain (s : String) : String := String.ofList (dropSequences s.toList)

end SolidScript.Text
