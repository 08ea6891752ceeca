import Mathlib.Algebra.Order.Ring.Int

/-!
# The platform

The two platforms that the sources are built for, and the `int` that both
have with 32 bits: the cast to it, and the range in which its sums are exact.
-/

namespace CwKeyer

inductive Platform where
  | linux
  | windows
deriving Repr, DecidableEq

/-- `static_cast<int>` of a 64-bit number. -/
def toInt (n : Int) : Int := n.bmod (2 ^ 32)

/-- A number that an `int` holds. A sum of ints outside of it is undefined. -/
def InInt (n : Int) : Prop := -2 ^ 31 ≤ n ∧ n < 2 ^ 31

instance (n : Int) : Decidable (InInt n) := inferInstanceAs (Decidable (_ ∧ _))

theorem toInt_eq_self {n : Int} (h : InInt n) : toInt n = n := by
  obtain ⟨hlow, hhigh⟩ := h
  unfold toInt
  rw [Int.bmod_eq_of_le] <;> omega

theorem toInt_eq {n : Int} (h : 0 ≤ n) (hlt : n < 2 ^ 31) : toInt n = n :=
  toInt_eq_self ⟨by omega, hlt⟩

end CwKeyer
