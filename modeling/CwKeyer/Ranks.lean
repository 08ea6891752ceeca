import Mathlib.Data.List.Pairwise
import Mathlib.Order.Lattice

/-!
# Ranks

The rank of a value in a list is the number of entries below it. In a list
without repetitions that is sorted, an entry stands at its rank, so an index
names the entry of that rank (`getElem?_eq_some_iff`).
-/

namespace CwKeyer

namespace Ranks

variable {α : Type} [LinearOrder α] {l : List α} {a b : α} {i : Nat}

def rank (l : List α) (a : α) : Nat := l.countP (· < a)

theorem rank_cons_of_lt (h : b < a) : rank (b :: l) a = rank l a + 1 :=
  List.countP_cons_of_pos (by simpa using h)

theorem rank_eq_zero (h : ∀ b ∈ l, a ≤ b) : rank l a = 0 :=
  List.countP_eq_zero.mpr fun b hb => by simpa using h b hb

theorem getElem?_eq_some_iff (h : l.Pairwise (· < ·)) :
    l[i]? = some a ↔ a ∈ l ∧ rank l a = i := by
  induction l generalizing i with
  | nil => simp
  | cons b l ih =>
      obtain ⟨hb, hl⟩ := List.pairwise_cons.mp h
      have hhead : rank (b :: l) b = 0 := by
        refine rank_eq_zero fun c hc => ?_
        rcases List.mem_cons.mp hc with rfl | hc
        · exact le_rfl
        · exact (hb c hc).le
      cases i with
      | zero =>
          rw [List.getElem?_cons_zero]
          constructor
          · intro hab
            obtain rfl := Option.some.inj hab
            exact ⟨List.mem_cons_self, hhead⟩
          · rintro ⟨ha, hrank⟩
            rcases List.mem_cons.mp ha with rfl | ha
            · rfl
            · rw [rank_cons_of_lt (hb a ha)] at hrank
              cases hrank
      | succ i =>
          rw [List.getElem?_cons_succ, ih hl]
          constructor
          · rintro ⟨ha, hrank⟩
            exact ⟨List.mem_cons_of_mem _ ha, by rw [rank_cons_of_lt (hb a ha), hrank]⟩
          · rintro ⟨ha, hrank⟩
            rcases List.mem_cons.mp ha with rfl | ha
            · rw [hhead] at hrank
              cases hrank
            · rw [rank_cons_of_lt (hb a ha)] at hrank
              exact ⟨ha, Nat.succ.inj hrank⟩

end Ranks

end CwKeyer
