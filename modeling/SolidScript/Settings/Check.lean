import SolidScript.Bindings
import SolidScript.Datum
import SolidScript.Number.Exact
import SolidScript.Settings
import SolidScript.Settings.Numeral

/-!
# Checking settings

Settings are formed from named data. Whole numbers may come as integers, as doubles without a
fraction, as truth values and as texts; the tolerance may be any number. Every field that is
wrong is reported, in the order of the field names.
-/

namespace SolidScript

inductive SettingFault where
  | unknownField
  | notAnInteger
  | notAnIntegerText
  | fractional
  | tooLarge
  | notFinite
  | notAReal
  | notARealText
  | brokenText
  | belowMinimum
  | notPositive
deriving DecidableEq, Repr

namespace Settings

/-! ## Readings of a datum -/

/-- A whole double counts as an integer while its magnitude is below this bound. -/
def wholeBound : Int := 9223372036854775808

def integerOfText (s : String) : Except SettingFault Int :=
  match clearInteger? s with
  | none => .error .notAnIntegerText
  | some cs =>
    match ofShortest? cs with
    | none => .error .notAnIntegerText
    | some n => if integerLength < cs.length then .error .tooLarge else .ok n

def textOfBytes? (content : List UInt8) : Option String := String.fromUTF8? ⟨content.toArray⟩

def integer : Datum → Except SettingFault Int
  | .integer n => .ok n
  | .boolean b => .ok (if b then 1 else 0)
  | .real x =>
    if x.isFinite then
      match Number.integer? x with
      | some n => if -wholeBound < n && n < wholeBound then .ok n else .error .tooLarge
      | none => .error .fractional
    else .error .notFinite
  | .text s => integerOfText s
  | .bytes content =>
    match textOfBytes? content with
    | some s => integerOfText s
    | none => .error .notAnIntegerText
  | .broken _ => .error .brokenText
  | .null | .instant _ | .sequence _ | .set _ | .mapping _ => .error .notAnInteger

def realOfText (s : String) : Except SettingFault Float :=
  match realOfText? s with
  | some x => .ok x
  | none => .error .notARealText

/-- An integer is taken as the nearest double, unless it is beyond all of them. -/
def real : Datum → Except SettingFault Float
  | .integer n => if (Float.ofInt n).isFinite then .ok (Float.ofInt n) else .error .notAReal
  | .boolean b => .ok (if b then 1 else 0)
  | .real x => .ok x
  | .text s => realOfText s
  | .bytes content =>
    match textOfBytes? content with
    | some s => realOfText s
    | none => .error .notARealText
  | .broken _ => .error .brokenText
  | .null | .instant _ | .sequence _ | .set _ | .mapping _ => .error .notAReal

/-! ## Fields -/

def segmentCount (d : Datum) : Except SettingFault { n : Nat // 3 ≤ n } := do
  let n ← integer d
  if h : 3 ≤ n.toNat then return ⟨n.toNat, h⟩ else throw .belowMinimum

def tolerance (d : Datum) : Except SettingFault { x : Float // 0 ≤ x } := do
  let x ← real d
  if h : 0 ≤ x then return ⟨x, h⟩ else throw .belowMinimum

theorem budget_pos_none : ∀ m ∈ (none : Option Nat), 0 < m := by simp

theorem budget_pos_of_pos {n : Nat} (h : 0 < n) : ∀ m ∈ some n, 0 < m := by
  intro m given
  cases given
  exact h

/-- A limit on rounds; a null is no limit. -/
def budget : Datum → Except SettingFault { b : Option Nat // ∀ n ∈ b, 0 < n }
  | .null => .ok ⟨none, budget_pos_none⟩
  | d => do
    let n ← integer d
    if h : 0 < n.toNat then return ⟨some n.toNat, budget_pos_of_pos h⟩ else throw .notPositive

def fieldOr {β : Type} (fields : Bindings Datum) (name : String) (other : β)
    (check : Datum → Except SettingFault β) : Except SettingFault β :=
  match fields.get? name with
  | some d => check d
  | none => .ok other

def faultOf {β : Type} (name : String) : Except SettingFault β → List (String × SettingFault)
  | .ok _ => []
  | .error fault => [(name, fault)]

def fieldNames : List String :=
  ["default_segments", "min_segments", "loop_tolerance", "max_loop_iterations"]

def ofFields (fields : Bindings Datum) : Except (List (String × SettingFault)) Settings :=
  let segments := fieldOr fields "default_segments"
    ⟨default.defaultSegments, default.three_le_default⟩ segmentCount
  let least := fieldOr fields "min_segments"
    ⟨default.minSegments, default.three_le_min⟩ segmentCount
  let slack := fieldOr fields "loop_tolerance"
    ⟨default.loopTolerance, default.tolerance_nonneg⟩ tolerance
  let rounds := fieldOr fields "max_loop_iterations" ⟨default.loopBudget, default.budget_pos⟩ budget
  let unknown := fields.keys.filter fun name => !fieldNames.contains name
  match segments, least, slack, rounds, unknown with
  | .ok ⟨s, hs⟩, .ok ⟨m, hm⟩, .ok ⟨t, ht⟩, .ok ⟨r, hr⟩, [] =>
    .ok ⟨s, m, t, r, hs, hm, ht, hr⟩
  | _, _, _, _, _ =>
    let faults := faultOf "default_segments" segments ++ faultOf "min_segments" least ++
      faultOf "loop_tolerance" slack ++ faultOf "max_loop_iterations" rounds ++
      unknown.map fun name => (name, SettingFault.unknownField)
    .error (faults.mergeSort fun a b => a.1 ≤ b.1)

end Settings

end SolidScript
