import Mathlib.Data.List.Nodup
import Mathlib.Logic.Function.Basic

/-!
# Settings kept in a store

A store holds at most one value under each key. A program loads a setting
from it (`Persisted.load`): a value that is not valid is replaced by a
default, in the program and in the store (`Persisted.refill`). What was
loaded is what the store then says (`read_refill`), and a value that the
store says is loaded exactly if it is valid or is the default anyway
(`load_eq_iff`).

Loading one setting after the other changes the store at one key at a time.
`applyChanges` is the whole of it, and with distinct keys the order does not
matter: other keys are untouched (`applyChanges_of_not_target`) and each
change sees what was there before (`applyChanges_target`).
-/

namespace CwKeyer

/-- How a setting is kept: what a reader makes of a stored value, and of
none, which results are valid, and what stands in for the others. -/
structure Persisted (V α : Type) where
  decode : V → α
  absent : α
  valid : α → Bool
  default : α
  encode : α → V
  decode_default : decode (encode default) = default

namespace Persisted

variable {V α : Type} {p : Persisted V α} {v : Option V} {a : α}

def read (p : Persisted V α) (v : Option V) : α := v.elim p.absent p.decode

def load (p : Persisted V α) (v : Option V) : α :=
  if p.valid (p.read v) then p.read v else p.default

/-- What is stored when the setting has been loaded. -/
def refill (p : Persisted V α) (v : Option V) : Option V :=
  if p.valid (p.read v) then v else some (p.encode p.default)

theorem load_of_valid (h : p.valid (p.read v) = true) : p.load v = p.read v := if_pos h

theorem load_of_invalid (h : ¬ p.valid (p.read v) = true) : p.load v = p.default := if_neg h

theorem refill_of_valid (h : p.valid (p.read v) = true) : p.refill v = v := if_pos h

theorem refill_of_invalid (h : ¬ p.valid (p.read v) = true) :
    p.refill v = some (p.encode p.default) := if_neg h

theorem valid_load (h : p.valid p.default = true) (v : Option V) : p.valid (p.load v) = true := by
  unfold load
  split
  case isTrue hvalid => exact hvalid
  case isFalse => exact h

theorem read_refill (p : Persisted V α) (v : Option V) : p.read (p.refill v) = p.load v := by
  unfold refill load
  split
  · rfl
  · exact p.decode_default

theorem refill_isSome (h : p.valid p.absent = false) (v : Option V) :
    (p.refill v).isSome = true := by
  unfold refill
  split
  case isTrue hvalid =>
    cases v with
    | none => exact absurd hvalid (by simp [read, h])
    | some v => rfl
  case isFalse => rfl

theorem refill_of_absent (h : p.valid p.absent = true) (v : Option V) :
    (p.refill v).isSome = v.isSome := by
  cases v with
  | none => simp [refill, read, h]
  | some v =>
      unfold refill
      split <;> rfl

/-- A value that the store holds comes back exactly if it is valid, or the
default. -/
theorem load_eq_iff (h : p.read v = a) : p.load v = a ↔ p.valid a = true ∨ p.default = a := by
  unfold load
  rw [h]
  split
  case isTrue hvalid => exact iff_of_true rfl (.inl hvalid)
  case isFalse hvalid => exact ⟨.inr, fun h' => h'.resolve_left hvalid⟩

/-- The store says `a`, and `a` is valid. -/
structure Remembers (p : Persisted V α) (v : Option V) (a : α) : Prop where
  read : p.read v = a
  valid : p.valid a = true

theorem Remembers.load (h : p.Remembers v a) : p.load v = a :=
  (load_eq_iff h.read).mpr (.inl h.valid)

theorem Remembers.isSome (h : p.Remembers v a) (habsent : p.valid p.absent = false) :
    v.isSome = true := by
  cases v with
  | none =>
      obtain rfl : p.absent = a := h.read
      exact absurd h.valid (by simp [habsent])
  | some v => rfl

theorem remembers_refill (h : p.valid p.default = true) (v : Option V) :
    p.Remembers (p.refill v) (p.load v) :=
  ⟨p.read_refill v, valid_load h v⟩

end Persisted

/-! ## Changing a store key by key -/

section Changes

variable {K V : Type} [DecidableEq K] {s : K → V} {k : K}
variable {c : K × (V → V)} {cs : List (K × (V → V))}

/-- A change replaces what is under its key. -/
def applyChange (s : K → V) (c : K × (V → V)) : K → V := Function.update s c.1 (c.2 (s c.1))

def applyChanges (s : K → V) (cs : List (K × (V → V))) : K → V := cs.foldl applyChange s

theorem applyChange_self : applyChange s c c.1 = c.2 (s c.1) := Function.update_self ..

theorem applyChange_of_ne (h : k ≠ c.1) : applyChange s c k = s k := Function.update_of_ne h ..

theorem applyChanges_snoc : applyChanges s (cs ++ [c]) = applyChange (applyChanges s cs) c := by
  simp [applyChanges]

theorem applyChanges_of_not_target (h : k ∉ cs.map Prod.fst) : applyChanges s cs k = s k := by
  induction cs generalizing s with
  | nil => rfl
  | cons c cs ih =>
      obtain ⟨hne, hnot⟩ : k ≠ c.1 ∧ k ∉ cs.map Prod.fst := by simpa using h
      show applyChanges (applyChange s c) cs k = s k
      rw [ih hnot, applyChange_of_ne hne]

theorem applyChanges_target (hnodup : (cs.map Prod.fst).Nodup) (h : c ∈ cs) :
    applyChanges s cs c.1 = c.2 (s c.1) := by
  induction cs generalizing s with
  | nil => cases h
  | cons d cs ih =>
      obtain ⟨hfresh, hnodup⟩ := List.nodup_cons.mp hnodup
      show applyChanges (applyChange s d) cs c.1 = c.2 (s c.1)
      rcases List.mem_cons.mp h with rfl | htail
      · rw [applyChanges_of_not_target hfresh, applyChange_self]
      · have hne : c.1 ≠ d.1 := fun heq => hfresh (heq ▸ List.mem_map_of_mem htail)
        rw [ih hnodup htail, applyChange_of_ne hne]

end Changes

end CwKeyer
