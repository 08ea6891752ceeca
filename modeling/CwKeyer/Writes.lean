import Mathlib.Data.List.Basic

/-!
# Short writes

A producer offers a sink one chunk after another, and the sink takes a
number of elements from the front of each. `taken` is what the sink has
then, every element with its place in what was produced. It is an initial
part of that exactly if no write takes anything once one has been short
(`inOrder_iff`): a producer that goes on with its next chunk leaves a gap.
-/

namespace CwKeyer

/-- A chunk and how many of its elements the sink takes. -/
structure Write (α : Type) where
  chunk : List α
  accepted : Nat

namespace Write

variable {α : Type}

/-- Nothing is left of the chunk. -/
def Whole (w : Write α) : Prop := w.chunk.length ≤ w.accepted

/-- The sink takes nothing of it. -/
def Nothing (w : Write α) : Prop := w.chunk.take w.accepted = []

instance (w : Write α) : Decidable w.Whole := inferInstanceAs (Decidable (_ ≤ _))

end Write

variable {α : Type} {n : Nat} {ws : List (Write α)}

def produced (ws : List (Write α)) : List α := ws.flatMap Write.chunk

/-- What the sink takes. -/
def accepted (ws : List (Write α)) : List α := ws.flatMap fun w => w.chunk.take w.accepted

/-- The same with its places; the first chunk begins at `n`. -/
def taken (n : Nat) : List (Write α) → List (α × Nat)
  | [] => []
  | w :: ws => (w.chunk.zipIdx n).take w.accepted ++ taken (n + w.chunk.length) ws

/-- The sink has an initial part of what has been produced. -/
def InOrder (ws : List (Write α)) : Prop := taken 0 ws <+: (produced ws).zipIdx

/-- Once a write has been short, the sink takes nothing. -/
def StopsWhenShort (ws : List (Write α)) : Prop := ws.Pairwise fun u w => u.Whole ∨ w.Nothing

theorem le_of_mem_taken {x : α × Nat} (h : x ∈ taken n ws) : n ≤ x.2 := by
  induction ws generalizing n with
  | nil => cases h
  | cons w ws ih =>
      rcases List.mem_append.mp h with hfirst | hrest
      · exact List.le_snd_of_mem_zipIdx (List.mem_of_mem_take hfirst)
      · exact Nat.le_trans (Nat.le_add_right ..) (ih hrest)

theorem taken_eq_nil : taken n ws = [] ↔ ∀ w ∈ ws, w.Nothing := by
  induction ws generalizing n with
  | nil => simp [taken]
  | cons w ws ih =>
      have hfirst : (w.chunk.zipIdx n).take w.accepted = [] ↔ w.Nothing := by
        simp [Write.Nothing, List.take_eq_nil_iff]
      rw [taken, List.append_eq_nil_iff, hfirst, ih, List.forall_mem_cons]

/-- After a short write the place of the next element belongs to the rest of
its chunk. -/
theorem taken_after_short {w : Write α} (hshort : ¬w.Whole) (rest : List (α × Nat)) :
    (w.chunk.zipIdx n).take w.accepted ++ taken (n + w.chunk.length) ws <+: w.chunk.zipIdx n ++ rest
      ↔ taken (n + w.chunk.length) ws = [] := by
  have hlt : w.accepted < w.chunk.length := Nat.not_le.mp hshort
  have hleft : (w.chunk.zipIdx n).drop w.accepted ≠ [] := by
    simpa [List.drop_eq_nil_iff] using hlt
  obtain ⟨y, ys, hy⟩ := List.exists_cons_of_ne_nil hleft
  have hsplit : w.chunk.zipIdx n ++ rest
      = (w.chunk.zipIdx n).take w.accepted ++ (y :: ys ++ rest) := by
    rw [← hy, ← List.append_assoc, List.take_append_drop]
  rw [hsplit, List.prefix_append_right_inj]
  cases htaken : taken (n + w.chunk.length) ws with
  | nil => simp
  | cons x xs =>
      have hx : n + w.chunk.length ≤ x.2 := le_of_mem_taken (htaken ▸ List.mem_cons_self)
      have hmem : y ∈ w.chunk.zipIdx n :=
        List.mem_of_mem_drop (hy ▸ List.mem_cons_self : y ∈ List.drop w.accepted _)
      have hy' : y.2 < n + w.chunk.length := by
        simpa [Nat.add_comm] using List.snd_lt_of_mem_zipIdx hmem
      refine iff_of_false (fun hle => ?_) (List.cons_ne_nil x xs)
      obtain ⟨rfl, -⟩ := List.cons_prefix_cons.mp hle
      omega

theorem taken_prefix_iff :
    taken n ws <+: (produced ws).zipIdx n ↔ StopsWhenShort ws := by
  induction ws generalizing n with
  | nil => simp [taken, StopsWhenShort]
  | cons w ws ih =>
      rw [StopsWhenShort, List.pairwise_cons, taken, produced, List.flatMap_cons,
        List.zipIdx_append]
      by_cases hwhole : w.Whole
      · have hall : (w.chunk.zipIdx n).take w.accepted = w.chunk.zipIdx n :=
          List.take_of_length_le (by rwa [List.length_zipIdx])
        rw [hall, List.prefix_append_right_inj, Nat.add_comm]
        exact ih.trans (iff_and_self.mpr fun _ _ _ => .inl hwhole)
      · rw [taken_after_short hwhole, taken_eq_nil]
        constructor
        · intro hnothing
          refine ⟨fun v hv => .inr (hnothing v hv), ?_⟩
          exact List.pairwise_of_forall_mem_list fun _ _ v hv => .inr (hnothing v hv)
        · rintro ⟨hfirst, -⟩ v hv
          exact (hfirst v hv).resolve_left hwhole

theorem inOrder_iff : InOrder ws ↔ StopsWhenShort ws := taken_prefix_iff

/-- The elements, without their places. -/
theorem map_fst_taken : (taken n ws).map Prod.fst = accepted ws := by
  induction ws generalizing n with
  | nil => rfl
  | cons w ws ih =>
      rw [taken, List.map_append, ih, List.map_take, List.zipIdx_map_fst, accepted, accepted,
        List.flatMap_cons]

theorem InOrder.isPrefix (h : InOrder ws) : accepted ws <+: produced ws := by
  have hfst := List.IsPrefix.map Prod.fst h
  rwa [map_fst_taken, List.zipIdx_map_fst] at hfst

theorem stopsWhenShort_snoc {w : Write α} :
    StopsWhenShort (ws ++ [w]) ↔ StopsWhenShort ws ∧ ∀ u ∈ ws, u.Whole ∨ w.Nothing := by
  simp [StopsWhenShort, List.pairwise_append]

end CwKeyer
