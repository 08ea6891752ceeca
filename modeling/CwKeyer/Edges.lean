import Mathlib.Data.List.Chain

/-!
# Edges of a level

A two-valued level that is reported to others by its edges only: `true`
when it rises, `false` when it falls. `Follows level log` says that `log`
is such a report and `level` the level after it. In one, every rise has
been answered by a fall exactly if the level is low (`matched_iff`). A log
that has gaps may repeat an edge; a fall comes after every rise in it
exactly if it does not end with a rise (`answered_iff`).
-/

namespace CwKeyer

/-- The level after the edges of a log; it starts low. -/
def levelAfter (log : List Bool) : Bool := log.getLast?.getD false

@[simp] theorem levelAfter_nil : levelAfter [] = false := rfl

@[simp] theorem levelAfter_snoc (log : List Bool) (edge : Bool) :
    levelAfter (log ++ [edge]) = edge := by
  simp [levelAfter]

/-- `log` reports the edges of a level that is now `level`. -/
structure Follows (level : Bool) (log : List Bool) : Prop where
  alternates : log.IsChain (· ≠ ·)
  rises : ∀ edge ∈ log.head?, edge = true
  level_eq : levelAfter log = level

theorem follows_nil : Follows false [] := ⟨.nil, by simp, rfl⟩

/-- The level changes and the edge is reported. -/
theorem Follows.snoc {level : Bool} {log : List Bool} (h : Follows level log) :
    Follows (!level) (log ++ [!level]) := by
  refine ⟨List.isChain_append.mpr ⟨h.alternates, .singleton _, ?_⟩, ?_, by simp⟩
  · intro last hlast edge hedge
    obtain rfl : (!level) = edge := by simpa using hedge
    have hlevel : last = level := by
      have hget : log.getLast? = some last := hlast
      simpa [levelAfter, hget] using h.level_eq
    simp [hlevel]
  · intro edge hedge
    cases log with
    | nil =>
        obtain rfl : false = level := h.level_eq
        simpa using hedge.symm
    | cons first log => exact h.rises edge (by simpa using hedge)

/-- An edge that leaves the level where it is cannot be reported. -/
theorem not_follows_snoc {level : Bool} {log : List Bool} :
    ¬ Follows level (log ++ [levelAfter log]) := by
  intro h
  cases hlast : log.getLast? with
  | none =>
      obtain rfl := List.getLast?_eq_none_iff.mp hlast
      exact absurd (h.rises false rfl) (by decide)
  | some last =>
      obtain ⟨-, -, hne⟩ := List.isChain_append.mp h.alternates
      exact hne last hlast (levelAfter log) rfl (by simp [levelAfter, hlast])

/-- Every rise is directly followed by a fall. -/
def Matched (log : List Bool) : Prop :=
  ∀ u v, log = u ++ true :: v → v.head? = some false

theorem matched_iff {level : Bool} {log : List Bool} (h : Follows level log) :
    Matched log ↔ level = false := by
  rw [← h.level_eq]
  constructor
  · intro hmatched
    by_contra hhigh
    have hlast : log.getLast? = some true := by
      cases hget : log.getLast? with
      | none => simp [levelAfter, hget] at hhigh
      | some edge => simpa [levelAfter, hget] using hhigh
    obtain ⟨u, rfl⟩ := List.getLast?_eq_some_iff.mp hlast
    have := hmatched u [] rfl
    cases this
  · rintro hlow u v rfl
    cases v with
    | nil => simp at hlow
    | cons edge v =>
        obtain ⟨-, hchain, -⟩ := List.isChain_append.mp h.alternates
        have hne : true ≠ edge := (List.isChain_cons_cons.mp hchain).1
        simpa using hne

/-- A fall comes after every rise. -/
def Answered (log : List Bool) : Prop := ∀ u v, log = u ++ true :: v → false ∈ v

theorem answered_iff {log : List Bool} : Answered log ↔ levelAfter log = false := by
  constructor
  · intro h
    cases log using List.reverseRecOn with
    | nil => rfl
    | append_singleton log edge =>
        rw [levelAfter_snoc]
        by_contra hrise
        obtain rfl : edge = true := by simpa using hrise
        cases h log [] rfl
  · rintro hlow u v rfl
    cases v using List.reverseRecOn with
    | nil => simp at hlow
    | append_singleton v edge =>
        have hlast : levelAfter (u ++ true :: v ++ [edge]) = false := by
          rwa [List.append_assoc]
        rw [levelAfter_snoc] at hlast
        exact hlast ▸ List.mem_append_right v List.mem_cons_self

end CwKeyer
