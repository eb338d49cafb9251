import SolidScript.Text.Quoted

/-!
# Similar words

For a word that is not known, those known ones that it may have been meant to be. Two words are
compared by the characters that they share: the longest run they have in common, and then what they
share on the left and on the right of it.
-/

namespace SolidScript.Text

def commonStart : List Char → List Char → Nat
  | a :: as, b :: bs => if a = b then commonStart as bs + 1 else 0
  | _, _ => 0

/-- A run that two words share: where it starts in each, and how long it is. -/
structure Run where
  left : Nat
  right : Nat
  length : Nat

/-- The longest run that two words share; of several, the first in the first word, and then in the
second. -/
def longestRun (a b : List Char) : Run :=
  (List.range a.length).foldl (fun best i =>
    (List.range b.length).foldl (fun best j =>
      let length := commonStart (a.drop i) (b.drop j)
      if best.length < length then ⟨i, j, length⟩ else best) best) ⟨0, 0, 0⟩

def sharedLength : (fuel : Nat) → List Char → List Char → Nat
  | 0, _, _ => 0
  | fuel + 1, a, b =>
    let run := longestRun a b
    if run.length = 0 then 0
    else
      run.length + sharedLength fuel (a.take run.left) (b.take run.right) +
        sharedLength fuel (a.drop (run.left + run.length)) (b.drop (run.right + run.length))

/-- A known word with its likeness to a given one: the part of all characters that is shared. -/
structure Likeness where
  word : String
  shared : Nat
  total : Nat

def likeness (given word : String) : Likeness where
  word
  shared := sharedLength (word.length + 1) word.toList given.toList
  total := word.length + given.length

/-- Six of ten characters have to be shared. -/
def Likeness.isClose (l : Likeness) : Bool := 6 * l.total ≤ 20 * l.shared

/-- The closer word comes first; of two as close, the one with the greater text. -/
def Likeness.before (k l : Likeness) : Bool :=
  if k.shared * l.total = l.shared * k.total then l.word ≤ k.word
  else l.shared * k.total < k.shared * l.total

/-- At most three known words that are close to a given one, the closest, in the order of their
texts. -/
def similar (known : List String) (given : String) : List String :=
  let close := (known.map (likeness given)).filter Likeness.isClose
  let closest := (close.mergeSort Likeness.before).take 3
  (closest.map Likeness.word).mergeSort fun a b => a ≤ b

/-- The words that may have been meant, as the end of a message. -/
def suggestion : List String → String
  | [] => ""
  | [word] => " Did you mean " ++ quoted word ++ "?"
  | words => " (Did you mean one of: " ++ String.intercalate ", " (words.map quoted) ++ "?)"

end SolidScript.Text
