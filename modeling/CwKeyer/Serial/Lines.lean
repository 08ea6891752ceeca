import Mathlib.Data.List.Basic

/-!
# Output lines of open descriptors

The descriptors that a process has open and, on each, the level of one
output line. Driving the line of a descriptor that is not open does
nothing; a number can be opened again once it is closed.
-/

namespace CwKeyer

/-- The open descriptors, each with the level of its line. -/
abbrev Lines := List (Nat × Bool)

namespace Lines

def numbers (lines : Lines) : List Nat := lines.map Prod.fst

def level (lines : Lines) (fd : Nat) : Option Bool := lines.lookup fd

/-- The descriptor is opened, with its line at `level`. -/
def opened (lines : Lines) (fd : Nat) (level : Bool) : Lines := lines ++ [(fd, level)]

def closed (lines : Lines) (fd : Option Nat) : Lines := lines.filter fun l => some l.1 ≠ fd

/-- Writes the level of a descriptor's line; an invalid descriptor, or one
that is not open, has none. -/
def drive (lines : Lines) (fd : Option Nat) (level : Bool) : Lines :=
  lines.map fun l => if some l.1 = fd then (l.1, level) else l

variable {lines : Lines} {fd : Option Nat} {n : Nat} {level : Bool}

@[simp] theorem numbers_drive : (lines.drive fd level).numbers = lines.numbers := by
  simp only [numbers, drive, List.map_map]
  refine List.map_congr_left fun l _ => ?_
  simp only [Function.comp_apply]
  split <;> rfl

@[simp] theorem mem_numbers_opened {m : Nat} :
    m ∈ (lines.opened n level).numbers ↔ m ∈ lines.numbers ∨ m = n := by
  simp [numbers, opened]

@[simp] theorem mem_numbers_closed {m : Nat} :
    m ∈ (lines.closed fd).numbers ↔ m ∈ lines.numbers ∧ some m ≠ fd := by
  simp only [numbers, closed, List.mem_map, List.mem_filter, decide_eq_true_eq]
  constructor
  · rintro ⟨l, ⟨hl, hne⟩, rfl⟩
    exact ⟨⟨l, hl, rfl⟩, hne⟩
  · rintro ⟨⟨l, hl, rfl⟩, hne⟩
    exact ⟨l, ⟨hl, hne⟩, rfl⟩

theorem drive_of_closed (h : ∀ n, fd = some n → n ∉ lines.numbers) :
    lines.drive fd level = lines := by
  have hself : ∀ l ∈ lines, (if some l.1 = fd then (l.1, level) else l) = l := by
    intro l hl
    have hne : some l.1 ≠ fd := fun heq => h l.1 heq.symm (List.mem_map_of_mem hl)
    rw [if_neg hne]
  exact (List.map_congr_left hself).trans (List.map_id lines)

theorem level_drive (h : n ∈ lines.numbers) : (lines.drive (some n) level).level n = some level := by
  induction lines with
  | nil => cases h
  | cons l lines ih =>
      by_cases hl : l.1 = n
      · simp [drive, Lines.level, hl]
      · have hmem : n ∈ Lines.numbers lines := (List.mem_cons.mp h).resolve_left fun heq => hl heq.symm
        have hne : (n == l.1) = false := beq_false_of_ne fun heq => hl heq.symm
        have hdrive : drive (l :: lines) (some n) level = l :: drive lines (some n) level := by
          simp [drive, hl]
        rw [hdrive, Lines.level, List.lookup_cons, hne]
        exact ih hmem

/-- Driving a line leaves the others alone. -/
theorem level_drive_of_ne (h : fd ≠ some n) : (lines.drive fd level).level n = lines.level n := by
  induction lines with
  | nil => rfl
  | cons l lines ih =>
      have hdrive : drive (l :: lines) fd level
          = (if some l.1 = fd then (l.1, level) else l) :: drive lines fd level := rfl
      rw [hdrive, Lines.level, Lines.level, List.lookup_cons, List.lookup_cons]
      by_cases hl : l.1 = n
      · have hne : some l.1 ≠ fd := fun heq => h (heq.symm.trans (congrArg some hl))
        rw [if_neg hne]
        simp [hl]
      · have hne : (n == l.1) = false := beq_false_of_ne fun heq => hl heq.symm
        have hfirst : (if some l.1 = fd then (l.1, level) else l).1 = l.1 := by split <;> rfl
        rw [hfirst, hne]
        exact ih

theorem level_opened_of_ne {m : Nat} (h : m ≠ n) :
    (lines.opened m level).level n = lines.level n := by
  have hne : (n == m) = false := beq_false_of_ne h.symm
  rw [Lines.level, opened, List.lookup_append, List.lookup_cons, hne]
  exact Option.or_none

theorem level_closed_of_ne (h : fd ≠ some n) : (lines.closed fd).level n = lines.level n := by
  induction lines with
  | nil => rfl
  | cons l lines ih =>
      by_cases hl : some l.1 = fd
      · have hne : (n == l.1) = false := beq_false_of_ne fun heq => h (by rw [← hl, heq])
        have hclosed : closed (l :: lines) fd = closed lines fd := by simp [closed, hl]
        rw [hclosed, ih, Lines.level, Lines.level, List.lookup_cons, hne]
      · have hclosed : closed (l :: lines) fd = l :: closed lines fd := by simp [closed, hl]
        rw [hclosed, Lines.level, Lines.level, List.lookup_cons, List.lookup_cons]
        cases n == l.1 with
        | true => rfl
        | false => exact ih

end Lines

end CwKeyer
