import Mathlib.Algebra.Order.Ring.Int
import Std.Data.ExtTreeMap

/-! Errors, sorted maps and the 64-bit arithmetic shared by the connectors. -/
namespace Oxidant

inductive Error where
  | plan (message : String)
  | execution (message : String)
  | unsupported (message : String)
  | io (message : String)
  deriving DecidableEq, Repr

def Error.display : Error → String
  | plan message => s!"plan error: {message}"
  | execution message => s!"execution error: {message}"
  | unsupported message => s!"unsupported: {message}"
  | io message => s!"io error: {message}"

instance decidableEqExcept {ε α : Type} [DecidableEq ε] [DecidableEq α] :
    DecidableEq (Except ε α)
  | .ok first,.ok second => decidable_of_iff (first = second) (by simp)
  | .error first,.error second => decidable_of_iff (first = second) (by simp)
  | .ok _,.error _ | .error _,.ok _ => .isFalse (by simp)

theorem bind_eq_ok {rest : α → Except Error β} :
    (first >>= rest) = .ok value ↔ ∃ middle, first = .ok middle ∧ rest middle = .ok value := by
  cases first with
  | error e => simp [bind,Except.bind]
  | ok middle => simp [bind,Except.bind]

abbrev BTreeMap (β : Type) := Std.ExtTreeMap String β

namespace I64

def min : Int := -9223372036854775808

def max : Int := 9223372036854775807

def saturate (value : Int) : Int :=
  if value < min then min else if max < value then max else value

def saturatingSub (left right : Int) : Int := saturate (left - right)

def saturatingMul (left right : Int) : Int := saturate (left * right)

def ofNat (value : Nat) : Int := Int.bmod value (2^64)

end I64
end Oxidant
