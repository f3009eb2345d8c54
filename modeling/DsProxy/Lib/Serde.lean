import DsProxy.Lib.Bytes
import DsProxy.Lib.Json
import Mathlib.Algebra.Group.Int.Defs

/-!
# Derived JSON readers

How a derived reader takes a struct apart: each field exactly once, other names ignored, machine
integers within their range, bytes as an array of numbers. Every writer of a value that fits has a
reader that gives it back.
-/

namespace Serde

/-- A field of a struct: a missing or repeated one is an error. -/
def field (name : String) (v : Json) : Option Json :=
  match v.values name with
  | [value] => some value
  | _ => none

def textField (name : String) (v : Json) : Option String := do (← field name v).text?

def toInt64 (n : ℤ) : Option Int64 :=
  if -2 ^ 63 ≤ n ∧ n < 2 ^ 63 then some (Int64.ofInt n) else none

def toUInt64 (n : ℤ) : Option UInt64 :=
  if 0 ≤ n ∧ n < 2 ^ 64 then some (UInt64.ofNat n.toNat) else none

def toUInt8 (n : ℤ) : Option UInt8 :=
  if 0 ≤ n ∧ n < 2 ^ 8 then some (UInt8.ofNat n.toNat) else none

def int64Field (name : String) (v : Json) : Option Int64 := do
  toInt64 (← (← field name v).int?)

def uint64Field (name : String) (v : Json) : Option UInt64 := do
  toUInt64 (← (← field name v).int?)

def ofBytes {w : ℕ} (bytes : Vector UInt8 w) : Json :=
  .arr (.ofList (bytes.toList.map fun byte => .num byte.toNat))

def toBytes (w : ℕ) (v : Json) : Option (Vector UInt8 w) := do
  Bytes.ofList w (← (← v.items?).mapM fun item => item.int?.bind toUInt8)

theorem toInt64_toInt (n : Int64) : toInt64 n.toInt = some n := by
  have hlow := n.minValue_le_toInt
  have hhigh := n.toInt_lt
  rw [toInt64, if_pos ⟨by simpa using hlow, by simpa using hhigh⟩, Int64.ofInt_toInt]

theorem toUInt64_toNat (n : UInt64) : toUInt64 n.toNat = some n := by
  have hhigh := n.toNat_lt
  rw [toUInt64, if_pos (by omega), Int.toNat_natCast, UInt64.ofNat_toNat]

theorem toUInt8_toNat (n : UInt8) : toUInt8 n.toNat = some n := by
  have hhigh := n.toNat_lt
  rw [toUInt8, if_pos (by omega), Int.toNat_natCast, UInt8.ofNat_toNat]

theorem toBytes_ofBytes {w : ℕ} (bytes : Vector UInt8 w) :
    toBytes w (ofBytes bytes) = some bytes := by
  have hmap : ∀ list : List UInt8,
      (list.map fun byte => Json.num byte.toNat).mapM (fun item => item.int?.bind toUInt8) =
        some list := by
    intro list
    induction list with
    | nil => rfl
    | cons byte list ih =>
        rw [List.map_cons, List.mapM_cons, ih]
        simp [Json.int?, toUInt8_toNat]
  simp [toBytes, ofBytes, Json.items?, hmap, Bytes.ofList_toList]

end Serde
