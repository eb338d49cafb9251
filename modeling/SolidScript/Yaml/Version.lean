import SolidScript.Yaml.Fault

namespace SolidScript.Yaml

inductive Version where
  | first
  | second
deriving DecidableEq, Repr

def Version.ofMinor : Nat → Except Fault Version
  | 1 => .ok .first
  | 2 => .ok .second
  | minor => .error (.unknownVersion minor)

end SolidScript.Yaml
