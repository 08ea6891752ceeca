import Mathlib.Data.List.Induction

/-!
# Threads that wait on a condition variable

The threads of a program as a list of program counters, two of which are
special: a thread at `waiting` is in the wait set of the condition
variable, and a notification takes it to `woken`. `notify_all` empties
the wait set (`wakeAll`); `notify_one` takes one thread out of it and is
lost if there is none (`wakeOne`, told whom the scheduler chose).
-/

namespace CwKeyer

/-- The two program counters of a wait. -/
structure WaitSet (α : Type) where
  waiting : α
  woken : α

namespace WaitSet

variable {α : Type} [DecidableEq α] (W : WaitSet α)

def wakeAll (threads : List α) : List α :=
  threads.map fun pc => if pc = W.waiting then W.woken else pc

def wakeOne (threads : List α) : Option Nat → Option (List α)
  | some i => if threads[i]? = some W.waiting then some (threads.set i W.woken) else none
  | none => if W.waiting ∈ threads then none else some threads

variable {W}

theorem wakeOne_cases {threads threads' : List α} {who : Option Nat}
    (h : W.wakeOne threads who = some threads') :
    (W.waiting ∉ threads ∧ threads' = threads)
      ∨ ∃ i, threads[i]? = some W.waiting ∧ threads' = threads.set i W.woken := by
  cases who with
  | none =>
      simp only [wakeOne] at h
      split at h
      · cases h
      · exact Or.inl ⟨‹_›, (Option.some.inj h).symm⟩
  | some i =>
      simp only [wakeOne] at h
      split at h
      · exact Or.inr ⟨i, ‹_›, (Option.some.inj h).symm⟩
      · cases h

/-! ## What a notification changes -/

/-- Some threads of the wait set have been woken, and no other has moved. -/
structure Wakes (W : WaitSet α) (threads threads' : List α) : Prop where
  length : threads'.length = threads.length
  moved : ∀ (i : Nat) (pc : α), threads'[i]? = some pc →
    threads[i]? = some pc ∨ threads[i]? = some W.waiting ∧ pc = W.woken

omit [DecidableEq α] in
theorem wakes_set {threads : List α} {i : Nat} (hi : threads[i]? = some W.waiting) :
    Wakes W threads (threads.set i W.woken) := by
  refine ⟨List.length_set, fun j pc hj => ?_⟩
  rw [List.getElem?_set] at hj
  split at hj
  · rename_i heq
    split at hj
    · exact .inr ⟨heq ▸ hi, (Option.some.inj hj).symm⟩
    · cases hj
  · exact .inl hj

theorem wakes_wakeOne {threads threads' : List α} {who : Option Nat}
    (h : W.wakeOne threads who = some threads') : Wakes W threads threads' := by
  rcases wakeOne_cases h with ⟨-, rfl⟩ | ⟨i, hi, rfl⟩
  · exact ⟨rfl, fun _ _ => .inl⟩
  · exact wakes_set hi

theorem wakes_wakeAll (threads : List α) : Wakes W threads (W.wakeAll threads) := by
  refine ⟨List.length_map _, fun i pc hi => ?_⟩
  rw [wakeAll, List.getElem?_map] at hi
  obtain ⟨pc', hi', heq⟩ := Option.map_eq_some_iff.mp hi
  split at heq
  · rename_i hwaiting
    exact .inr ⟨hwaiting ▸ hi', heq.symm⟩
  · exact .inl (heq ▸ hi')

omit [DecidableEq α] in
/-- A thread elsewhere stays where it is. -/
theorem Wakes.stays {threads threads' : List α} {i : Nat} {pc : α} (h : Wakes W threads threads')
    (hi : threads[i]? = some pc) (hpc : pc ≠ W.waiting) : threads'[i]? = some pc := by
  have hlt : i < threads'.length := h.length ▸ (List.getElem?_eq_some_iff.mp hi).1
  have hsome : threads'[i]? = some threads'[i] := List.getElem?_eq_getElem hlt
  rcases h.moved i _ hsome with hsame | ⟨hwaiting, -⟩
  · rw [hsome, ← hsame, hi]
  · exact absurd (Option.some.inj (hi.symm.trans hwaiting)) hpc

end WaitSet

/-- A list in which only the last entry can meet `p` counts one at most. -/
theorem countP_le_one_of_last {α : Type} {p : α → Bool} {l : List α}
    (h : ∀ i a, l[i]? = some a → p a = true → i + 1 = l.length) : l.countP p ≤ 1 := by
  cases l using List.reverseRecOn with
  | nil => exact Nat.zero_le 1
  | append_singleton l a =>
      have hnone : l.countP p = 0 := by
        refine List.countP_eq_zero.mpr fun b hb hp => ?_
        obtain ⟨i, hi⟩ := List.mem_iff_getElem?.mp hb
        have hlt := (List.getElem?_eq_some_iff.mp hi).1
        have hlast := h i b (List.getElem?_append_left hlt ▸ hi) hp
        rw [List.length_append, List.length_singleton] at hlast
        omega
      rw [List.countP_append, hnone, Nat.zero_add, List.countP_singleton]
      split
      · exact Nat.le_refl 1
      · exact Nat.zero_le 1

end CwKeyer
