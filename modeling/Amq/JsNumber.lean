import Mathlib.Algebra.Order.Field.Rat
import Mathlib.Data.Nat.Cast.Order.Ring

/-!
# JavaScript numbers and serializers

Numbers occur in the library as limits, delays and attempt counts.  A number is
read exactly, as a rational, an infinity or `NaN`; the comparisons follow the
language, where every comparison with `NaN` is false.
-/

namespace Amq

inductive JsNumber where
  | finite (value : ℚ)
  | infinity
  | negativeInfinity
  | nan
  deriving DecidableEq

namespace JsNumber

/-- `left < right`. -/
def lessThan : JsNumber → JsNumber → Bool
  | .finite left, .finite right => decide (left < right)
  | .finite _, .infinity => true
  | .negativeInfinity, .finite _ => true
  | .negativeInfinity, .infinity => true
  | _, _ => false

/-- `left <= right`. -/
def atMost : JsNumber → JsNumber → Bool
  | .finite left, .finite right => decide (left ≤ right)
  | .nan, _ => false
  | _, .nan => false
  | .negativeInfinity, _ => true
  | _, .infinity => true
  | _, _ => false

/-- `Boolean(number)`: zero and `NaN` are falsy. -/
def truthy : JsNumber → Bool
  | .finite value => decide (value ≠ 0)
  | .nan => false
  | _ => true

/-- `Number.isFinite(number)`. -/
def isFinite : JsNumber → Bool
  | .finite _ => true
  | _ => false

/-- `Number.isInteger(number)`. -/
def isInteger : JsNumber → Bool
  | .finite value => decide (value.den = 1)
  | _ => false

/-- The number written as a natural number literal. -/
def ofNat (value : ℕ) : JsNumber :=
  .finite value

@[simp]
theorem atMost_ofNat (left right : ℕ) :
    (ofNat left).atMost (ofNat right) = decide (left ≤ right) := by
  simp [ofNat, atMost]

end JsNumber

/-- `JsonBufferSerializer`: either direction may throw. -/
structure JsonBufferSerializer (Buffer α : Type) where
  serialize : α → Option Buffer
  deserialize : Buffer → Option α

/-- How an awaited operation of the user or of the broker ends. -/
inductive Settlement where
  | fulfilled
  | rejected
  deriving DecidableEq, Repr

end Amq
