import Mathlib.Data.List.Infix

/-!
# The first occurrence of a list in another

`find` searches as `std::string::find` does. Whether an initial part of a
text contains the needle is a matter of where its first occurrence ends
(`infix_take_iff`); in a text that is cut into parts by an item the needle
does not have, it is a matter of the parts alone (`infix_append_cons_iff`).
-/

namespace CwKeyer

variable {α : Type} [DecidableEq α] {needle text : List α}

/-- The index of the first occurrence of `needle`. -/
def find (needle : List α) : List α → Option Nat
  | [] => if needle = [] then some 0 else none
  | a :: text => if needle <+: a :: text then some 0 else (find needle text).map (· + 1)

theorem find_at_start (h : needle <+: text) : find needle text = some 0 := by
  cases text with
  | nil => simp [find, List.prefix_nil.mp h]
  | cons a text => simp [find, h]

theorem find_eq_zero_iff : find needle text = some 0 ↔ needle <+: text := by
  constructor
  · intro h
    cases text with
    | nil =>
        have hnil : needle = [] := by
          by_contra hne
          simp [find, hne] at h
        exact List.prefix_nil.mpr hnil
    | cons a text =>
        by_contra hne
        simp [find, hne] at h
  · exact find_at_start

theorem find_isSome_iff : (find needle text).isSome = true ↔ needle <:+: text := by
  induction text with
  | nil => by_cases hnil : needle = [] <;> simp [find, hnil]
  | cons a text ih =>
      rw [List.infix_cons_iff, ← ih]
      by_cases hstart : needle <+: a :: text <;> simp [find, hstart]

/-- The needle is contained in the first `n` items exactly if its first
occurrence ends there. -/
theorem infix_take_iff {n : Nat} :
    needle <:+: text.take n ↔ ∃ i, find needle text = some i ∧ i + needle.length ≤ n := by
  induction text generalizing n with
  | nil =>
      by_cases hnil : needle = []
      · simp [find, hnil]
      · simp [find, hnil]
  | cons a text ih =>
      by_cases hstart : needle <+: a :: text
      · rw [find_at_start hstart]
        constructor
        · exact fun h => ⟨0, rfl, by simpa using h.length_le.trans (List.length_take_le n _)⟩
        · rintro ⟨i, hi, hle⟩
          obtain rfl : 0 = i := Option.some.inj hi
          refine List.IsPrefix.isInfix (List.prefix_take_iff.mpr ⟨hstart, by simpa using hle⟩)
      · have hnotake : ∀ m, ¬needle <+: a :: text.take m := fun m h =>
          hstart (h.trans (List.cons_prefix_cons.mpr ⟨rfl, List.take_prefix m text⟩))
        have hne : needle ≠ [] := by
          rintro rfl
          exact hstart List.nil_prefix
        cases n with
        | zero =>
            constructor
            · intro h
              exact absurd (List.infix_nil.mp (by simpa using h)) hne
            · rintro ⟨i, -, hle⟩
              exact absurd (List.length_pos_iff.mpr hne) (by omega)
        | succ n =>
            rw [List.take_succ_cons, List.infix_cons_iff, ih]
            simp only [hnotake, false_or, find, hstart, if_false, Option.map_eq_some_iff]
            constructor
            · rintro ⟨i, hi, hle⟩
              exact ⟨i + 1, ⟨i, hi, rfl⟩, by omega⟩
            · rintro ⟨_, ⟨i, hi, rfl⟩, hle⟩
              exact ⟨i, hi, by omega⟩

/-! ## Parts of a text -/

section

variable {α : Type} {needle xs ys : List α} {a : α}

/-- The needle begins with another item than `a`, or is empty. -/
theorem prefix_cons_of_not_mem (h : a ∉ needle) : needle <+: a :: ys ↔ needle = [] := by
  cases needle with
  | nil => simp
  | cons b needle =>
      refine iff_of_false (fun hle => ?_) (List.cons_ne_nil b needle)
      obtain ⟨rfl, -⟩ := List.cons_prefix_cons.mp hle
      exact h List.mem_cons_self

theorem infix_append_cons_iff (h : a ∉ needle) :
    needle <:+: xs ++ a :: ys ↔ needle <:+: xs ∨ needle <:+: ys := by
  constructor
  · intro hinfix
    rcases List.infix_append_iff_ne_nil.mp hinfix with hleft | hright | ⟨l, r, -, hr, rfl, -, hcut⟩
    · exact .inl hleft
    · rcases List.infix_cons_iff.mp hright with hstart | hrest
      · obtain rfl := (prefix_cons_of_not_mem h).mp hstart
        exact .inl List.nil_infix
      · exact .inr hrest
    · have hnot : a ∉ r := fun ha => h (List.mem_append_right l ha)
      exact absurd ((prefix_cons_of_not_mem hnot).mp hcut) hr
  · rintro (hleft | hright)
    · exact List.infix_append_of_infix_left hleft
    · exact List.infix_append_of_infix_right (List.infix_cons hright)

theorem prefix_append_cons_iff (h : a ∉ needle) : needle <+: xs ++ a :: ys ↔ needle <+: xs := by
  induction xs generalizing needle with
  | nil => simpa using prefix_cons_of_not_mem h
  | cons x xs ih =>
      cases needle with
      | nil => simp
      | cons b needle =>
          rw [List.cons_append, List.cons_prefix_cons, List.cons_prefix_cons,
            ih fun ha => h (List.mem_cons_of_mem b ha)]

end

end CwKeyer
