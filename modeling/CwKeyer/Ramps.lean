import Mathlib.Algebra.Order.Group.MinMax
import Mathlib.Algebra.Order.Field.Basic
import Mathlib.Tactic.Positivity

/-!
# Ramps

Sequences that rise to 1 and fall to 0 in steps of equal height. The
minimum of two sequences has no larger step than they have
(`Slew.min`), so what joins ramps by a minimum has no step of its own.
-/

namespace CwKeyer

section

variable {K : Type} [Field K] {n start i : ℕ}

/-- From 0, at the start, to 1 in `n` steps. -/
def rise (n i : ℕ) : K := if i < n then i / n else 1

/-- From 1, up to `start`, to 0 in `n` steps. -/
def fall (n start i : ℕ) : K :=
  if i < start then 1 else if i < start + n then 1 - (i - start) / n else 0

theorem rise_of_ge (h : n ≤ i) : rise n i = (1 : K) := if_neg (Nat.not_lt.mpr h)

theorem rise_zero (h : 0 < n) : rise n 0 = (0 : K) := by
  rw [rise, if_pos h, Nat.cast_zero, zero_div]

/-- With the last step the ramp reaches 1. -/
theorem rise_eq_div [CharZero K] (hn : 0 < n) (h : i ≤ n) : rise n i = (i / n : K) := by
  rcases Nat.lt_or_eq_of_le h with hlt | rfl
  · rw [rise, if_pos hlt]
  · rw [rise_of_ge (Nat.le_refl _), div_self (by exact_mod_cast hn.ne')]

theorem fall_of_lt (h : i < start) : fall n start i = (1 : K) := if_pos h

theorem fall_of_ge (h : start + n ≤ i) : fall n start i = (0 : K) := by
  rw [fall, if_neg (by omega), if_neg (by omega)]

theorem fall_of_between (h : start ≤ i) (h' : i < start + n) :
    fall n start i = (1 - (i - start) / n : K) := by
  rw [fall, if_neg (by omega), if_pos h']

/-- The fall is the rise turned over. -/
theorem fall_add (n start k : ℕ) : fall n start (start + k) = (1 - rise n k : K) := by
  rcases Nat.lt_or_ge k n with hlt | hge
  · rw [fall_of_between (by omega) (by omega), rise, if_pos hlt]
    push_cast
    rw [add_sub_cancel_left]
  · rw [fall_of_ge (by omega), rise_of_ge hge, sub_self]

end

/-! ## Slew -/

section

variable {K : Type} [Field K] [LinearOrder K]

/-- No two neighbours are further apart than `d`. -/
def Slew (d : K) (f : ℕ → K) : Prop := ∀ i, |f (i + 1) - f i| ≤ d

variable [IsStrictOrderedRing K]

theorem Slew.min {d e : K} {f g : ℕ → K} (hf : Slew d f) (hg : Slew e g) :
    Slew (max d e) fun i => min (f i) (g i) :=
  fun i => (abs_min_sub_min_le_max ..).trans (max_le_max (hf i) (hg i))

theorem rise_mem (n i : ℕ) : 0 ≤ rise (K := K) n i ∧ rise (K := K) n i ≤ 1 := by
  rcases Nat.lt_or_ge i n with hlt | hge
  · rw [rise, if_pos hlt]
    have hle : (i : K) ≤ n := by exact_mod_cast hlt.le
    exact ⟨by positivity, div_le_one_of_le₀ hle (by positivity)⟩
  · rw [rise_of_ge hge]
    exact ⟨zero_le_one, le_refl 1⟩

theorem fall_mem (n start i : ℕ) : 0 ≤ fall (K := K) n start i ∧ fall (K := K) n start i ≤ 1 := by
  rcases Nat.lt_or_ge i start with hlt | hge
  · rw [fall_of_lt hlt]
    exact ⟨zero_le_one, le_refl 1⟩
  · obtain ⟨k, rfl⟩ := Nat.exists_eq_add_of_le hge
    obtain ⟨hlow, hhigh⟩ := rise_mem (K := K) n k
    rw [fall_add]
    exact ⟨sub_nonneg.mpr hhigh, sub_le_self 1 hlow⟩

theorem slew_rise {n : ℕ} (hn : 0 < n) : Slew (1 / n : K) (rise n) := by
  intro i
  have hstep : (0 : K) ≤ 1 / n := by positivity
  rcases Nat.lt_or_ge i n with hlt | hge
  · have hdiff : rise n (i + 1) - rise n i = (1 / n : K) := by
      rw [rise_eq_div hn hlt, rise_eq_div hn hlt.le, ← sub_div]
      push_cast
      rw [add_sub_cancel_left]
    rw [hdiff, abs_of_nonneg hstep]
  · rw [rise_of_ge hge, rise_of_ge (Nat.le_succ_of_le hge), sub_self, abs_zero]
    exact hstep

theorem slew_fall {n : ℕ} (hn : 0 < n) (start : ℕ) : Slew (1 / n : K) (fall n start) := by
  intro i
  rcases Nat.lt_or_ge i start with hlt | hge
  · -- the ramp begins with the step from `start` on
    have hnext : fall n start (i + 1) = (1 : K) := by
      rcases Nat.lt_or_eq_of_le (Nat.succ_le_of_lt hlt) with hlt' | rfl
      · exact fall_of_lt hlt'
      · have hat := fall_add (K := K) n (i + 1) 0
        rwa [rise_zero hn, sub_zero] at hat
    rw [hnext, fall_of_lt hlt, sub_self, abs_zero]
    positivity
  · obtain ⟨k, rfl⟩ := Nat.exists_eq_add_of_le hge
    rw [Nat.add_assoc, fall_add, fall_add, sub_sub_sub_cancel_left, abs_sub_comm]
    exact slew_rise hn k

end

end CwKeyer
