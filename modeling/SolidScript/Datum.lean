namespace SolidScript

inductive Datum where
  | null
  | boolean (b : Bool)
  | integer (n : Int)
  | real (x : Float)
  | text (s : String)
  /-- A text with half of a surrogate pair, for which a stand-in is given. -/
  | broken (s : String)
  | bytes (content : List UInt8)
  /-- A day or a moment, as it was written. -/
  | instant (written : String)
  | sequence (items : List Datum)
  | set (members : List Datum)
  | mapping (entries : List (Datum × Datum))
deriving Repr, Inhabited

end SolidScript
