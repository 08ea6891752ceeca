import Mathlib.Computability.Language
import Mathlib.Data.List.Chain
import CwKeyer.Machine

/-!
# Bracketed words

Words over an alphabet with an opening letter, a closing letter and body
letters: the language `(opening body⁺ closing)*` (`Brackets.words`) and a
three-phase monitor that reads a word letter by letter.

A producer that appends letters one at a time is followed with the
monitor; `prefix_of_run` turns an accepted word into the statement about
the language, and the `lastMark` lemmas into statements about the
opening and closing letters alone.
-/

namespace CwKeyer

open Computability

/-- An alphabet with an opening letter, a closing letter and body
letters, all distinct. -/
structure Brackets (α : Type) where
  opening : α
  closing : α
  body : α → Bool
  opening_ne_closing : opening ≠ closing
  body_opening : body opening = false
  body_closing : body closing = false

namespace Brackets

variable {α : Type} (B : Brackets α)

/-- The one-letter words of body letters. -/
def bodies : Language α := {w | ∃ a, B.body a = true ∧ w = [a]}

/-- `(opening body⁺ closing)*`. -/
def words : Language α :=
  ({[B.opening]} * (B.bodies * B.bodies∗) * {[B.closing]})∗

/-! ## The monitor -/

inductive Phase where
  | closed
  | opened
  | filled
deriving Repr, DecidableEq

section Monitor

variable [DecidableEq α]

def next : Phase → α → Option Phase
  | .closed, a => if a = B.opening then some .opened else none
  | .opened, a => if B.body a then some .filled else none
  | .filled, a =>
      if B.body a then some .filled
      else if a = B.closing then some .closed
      else none

/-- The machine that reads a word; a word it can read to its end is a
prefix of a bracketed word. -/
def monitor : Machine Phase α := ⟨B.next⟩

variable {B}

theorem next_closed {a : α} {p : Phase} (h : B.monitor.step .closed a = some p) :
    a = B.opening ∧ p = .opened := by
  simp only [monitor, next] at h
  split at h
  · exact ⟨‹_›, (Option.some.inj h).symm⟩
  · cases h

theorem next_opened {a : α} {p : Phase} (h : B.monitor.step .opened a = some p) :
    B.body a = true ∧ p = .filled := by
  simp only [monitor, next] at h
  split at h
  · exact ⟨‹_›, (Option.some.inj h).symm⟩
  · cases h

theorem next_filled {a : α} {p : Phase} (h : B.monitor.step .filled a = some p) :
    (B.body a = true ∧ p = .filled) ∨ (a = B.closing ∧ p = .closed) := by
  simp only [monitor, next] at h
  split at h
  · exact Or.inl ⟨‹_›, (Option.some.inj h).symm⟩
  · split at h
    · exact Or.inr ⟨‹_›, (Option.some.inj h).symm⟩
    · cases h

end Monitor

/-! ## From the monitor to the language -/

/-- What a word that leads the monitor to a phase looks like. -/
def Shape (w : List α) : Phase → Prop
  | .closed => w ∈ B.words
  | .opened => ∃ u ∈ B.words, w = u ++ [B.opening]
  | .filled => ∃ u ∈ B.words, ∃ k ∈ B.bodies * B.bodies∗, w = u ++ (B.opening :: k)

theorem kstar_snoc {l : Language α} {u v : List α} (hu : u ∈ l∗) (hv : v ∈ l) :
    u ++ v ∈ l∗ :=
  (kstar_mul_le_kstar : l∗ * l ≤ l∗) (Language.append_mem_mul hu hv)

variable {B}

theorem mem_bodies {a : α} (h : B.body a = true) : [a] ∈ B.bodies := ⟨a, h, rfl⟩

theorem bodies_singleton {a : α} (h : B.body a = true) : [a] ∈ B.bodies * B.bodies∗ := by
  have := Language.append_mem_mul (mem_bodies h) (Language.nil_mem_kstar B.bodies)
  simpa using this

theorem bodies_snoc {k : List α} {a : α} (hk : k ∈ B.bodies * B.bodies∗)
    (ha : B.body a = true) : k ++ [a] ∈ B.bodies * B.bodies∗ := by
  obtain ⟨x, hx, y, hy, rfl⟩ := Language.mem_mul.mp hk
  rw [List.append_assoc]
  exact Language.append_mem_mul hx (kstar_snoc hy (mem_bodies ha))

/-- A finished group after a bracketed word. -/
theorem words_close {u k : List α} (hu : u ∈ B.words) (hk : k ∈ B.bodies * B.bodies∗) :
    u ++ (B.opening :: k) ++ [B.closing] ∈ B.words := by
  have hgroup : [B.opening] ++ k ++ [B.closing]
      ∈ {[B.opening]} * (B.bodies * B.bodies∗) * ({[B.closing]} : Language α) :=
    Language.append_mem_mul
      (Language.append_mem_mul (Set.mem_singleton _) hk) (Set.mem_singleton _)
  simpa [words] using kstar_snoc hu hgroup

variable [DecidableEq α]

theorem shape_of_run {w : List α} {p : Phase} (h : B.monitor.run .closed w = some p) :
    B.Shape w p := by
  refine Machine.run_rec (C := fun w p => B.Shape w p) (Language.nil_mem_kstar _) ?_ h
  intro w q a p hw hstep
  cases q with
  | closed =>
      obtain ⟨rfl, rfl⟩ := next_closed hstep
      exact ⟨w, hw, rfl⟩
  | opened =>
      obtain ⟨ha, rfl⟩ := next_opened hstep
      obtain ⟨u, hu, rfl⟩ := hw
      exact ⟨u, hu, [a], bodies_singleton ha, by simp⟩
  | filled =>
      obtain ⟨u, hu, k, hk, rfl⟩ := hw
      rcases next_filled hstep with ⟨ha, rfl⟩ | ⟨rfl, rfl⟩
      · exact ⟨u, hu, k ++ [a], bodies_snoc hk ha, by simp⟩
      · exact words_close hu hk

/-- A word the monitor reads to its end can be completed to a bracketed
word. -/
theorem prefix_of_run (hbody : ∃ a, B.body a = true) {w : List α} {p : Phase}
    (h : B.monitor.run .closed w = some p) : ∃ u ∈ B.words, w <+: u := by
  have hshape := shape_of_run h
  cases p with
  | closed => exact ⟨w, hshape, List.prefix_refl w⟩
  | opened =>
      obtain ⟨u, hu, rfl⟩ := hshape
      obtain ⟨a, ha⟩ := hbody
      exact ⟨_, words_close hu (bodies_singleton ha), [a, B.closing], by simp⟩
  | filled =>
      obtain ⟨u, hu, k, hk, rfl⟩ := hshape
      exact ⟨_, words_close hu hk, List.prefix_append _ _⟩

/-! ## Opening and closing letters alone -/

variable (B)

def isMark (a : α) : Bool := a = B.opening ∨ a = B.closing

/-- The last opening or closing letter. -/
def lastMark (w : List α) : Option α := (w.filter B.isMark).getLast?

variable {B}

theorem isMark_iff {a : α} : B.isMark a = true ↔ a = B.opening ∨ a = B.closing := by
  simp [isMark]

theorem isMark_opening : B.isMark B.opening = true := by simp [isMark]

theorem isMark_closing : B.isMark B.closing = true := by simp [isMark]

theorem isMark_of_body {a : α} (h : B.body a = true) : B.isMark a = false := by
  have ho : a ≠ B.opening := fun heq => by simp [heq, B.body_opening] at h
  have hc : a ≠ B.closing := fun heq => by simp [heq, B.body_closing] at h
  simp [isMark, ho, hc]

@[simp] theorem lastMark_nil : B.lastMark [] = none := rfl

theorem isMark_of_lastMark {w : List α} {a : α} (h : B.lastMark w = some a) :
    B.isMark a = true :=
  (List.mem_filter.mp (List.mem_of_getLast? h)).2

theorem lastMark_snoc {w : List α} {a : α} (h : B.isMark a = true) :
    B.lastMark (w ++ [a]) = some a := by
  simp [lastMark, List.filter_append, h]

theorem lastMark_snoc_of_not {w : List α} {a : α} (h : B.isMark a = false) :
    B.lastMark (w ++ [a]) = B.lastMark w := by
  simp [lastMark, List.filter_append, h]

theorem lastMark_snoc_opening (w : List α) :
    B.lastMark (w ++ [B.opening]) = some B.opening := lastMark_snoc isMark_opening

theorem lastMark_snoc_closing (w : List α) :
    B.lastMark (w ++ [B.closing]) = some B.closing := lastMark_snoc isMark_closing

theorem lastMark_snoc_body (w : List α) {a : α} (h : B.body a = true) :
    B.lastMark (w ++ [a]) = B.lastMark w := lastMark_snoc_of_not (isMark_of_body h)

/-- Between groups the last mark is not the opening letter; inside one
it is. -/
theorem lastMark_of_run {w : List α} {p : Phase} (h : B.monitor.run .closed w = some p) :
    B.lastMark w = some B.opening ↔ p ≠ .closed := by
  refine Machine.run_rec (C := fun w p => B.lastMark w = some B.opening ↔ p ≠ .closed)
    (by simp) ?_ h
  intro w q a p hw hstep
  cases q with
  | closed =>
      obtain ⟨rfl, rfl⟩ := next_closed hstep
      simp [lastMark_snoc_opening]
  | opened =>
      obtain ⟨ha, rfl⟩ := next_opened hstep
      simpa [lastMark_snoc_body w ha] using hw
  | filled =>
      rcases next_filled hstep with ⟨ha, rfl⟩ | ⟨rfl, rfl⟩
      · simpa [lastMark_snoc_body w ha] using hw
      · simp [lastMark_snoc_closing, B.opening_ne_closing.symm]

/-- Body letters stand inside a group only. -/
theorem body_inside {w v : List α} {a : α} {p : Phase}
    (h : B.monitor.run .closed (w ++ a :: v) = some p) (ha : B.body a = true) :
    B.lastMark w = some B.opening := by
  obtain ⟨q, hq, hrest⟩ := Machine.run_append.mp h
  obtain ⟨r, hstep, -⟩ := Machine.run_cons.mp hrest
  refine (lastMark_of_run hq).mpr ?_
  rintro rfl
  obtain ⟨rfl, -⟩ := next_closed hstep
  rw [B.body_opening] at ha
  cases ha

/-- Opening and closing letters alternate. -/
theorem marks_alternate {w : List α} {p : Phase}
    (h : B.monitor.run .closed w = some p) : (w.filter B.isMark).IsChain (· ≠ ·) := by
  induction w using List.reverseRecOn generalizing p with
  | nil => exact .nil
  | append_singleton w a ih =>
      obtain ⟨q, hq, hp⟩ := Machine.run_append.mp h
      rw [Machine.run_singleton] at hp
      have hlast := lastMark_of_run hq
      rw [List.filter_append]
      refine (ih hq).append (by cases hm : B.isMark a <;> simp [hm]) ?_
      intro x hx y hy hxy
      subst hxy
      have hxw : B.lastMark w = some x := hx
      have hmark : B.isMark a = true ∧ x = a := by
        cases hm : B.isMark a <;> simp_all
      obtain ⟨hm, rfl⟩ := hmark
      cases q with
      | closed =>
          obtain ⟨rfl, -⟩ := next_closed hp
          simp [hxw] at hlast
      | opened =>
          have := isMark_of_body (next_opened hp).1
          simp [hm] at this
      | filled =>
          rcases next_filled hp with ⟨hb, -⟩ | ⟨rfl, -⟩
          · simp [isMark_of_body hb] at hm
          · simp [hxw, B.opening_ne_closing.symm] at hlast

end Brackets

end CwKeyer
