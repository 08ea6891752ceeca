import Mathlib.Logic.Basic

/-!
# Calls that can fail

`Meets E Q x` is what a caller can rely on when `x` may fail: a result
meets the postcondition `Q`, and an error is one of those that `E`
excuses. With `E` false it says that `x` succeeds. The rules follow the
`do` block: `Meets.bind` for its steps, `Meets.ite` for its branches.
-/

namespace CwKeyer

def Meets {ε α : Type} (E : ε → Prop) (Q : α → Prop) : Except ε α → Prop
  | .ok a => Q a
  | .error e => E e

namespace Meets

variable {ε α β : Type} {E E' : ε → Prop} {Q Q' : α → Prop} {x : Except ε α}

theorem pure {a : α} (h : Q a) : Meets E Q (Pure.pure a) := h

theorem error {e : ε} (h : E e) : Meets E Q (.error e) := h

theorem bind {P : β → Prop} {f : α → Except ε β} (hx : Meets E Q x)
    (hf : ∀ a, Q a → Meets E P (f a)) : Meets E P (x >>= f) := by
  cases x with
  | error e => exact hx
  | ok a => exact hf a hx

theorem ite {c : Prop} [Decidable c] {y : Except ε α} (ht : c → Meets E Q x)
    (he : ¬ c → Meets E Q y) : Meets E Q (if c then x else y) := by
  split
  · exact ht ‹c›
  · exact he ‹¬ c›

theorem mono (h : Meets E Q x) (hQ : ∀ a, Q a → Q' a) : Meets E Q' x := by
  cases x with
  | error e => exact h
  | ok a => exact hQ a h

theorem weaken (h : Meets E Q x) (hE : ∀ e, E e → E' e) : Meets E' Q x := by
  cases x with
  | error e => exact hE e h
  | ok a => exact h

/-- What is known of every result may be added. -/
theorem strengthen {R : α → Prop} (h : Meets E Q x) (hR : ∀ a, x = .ok a → R a) :
    Meets E (fun a => Q a ∧ R a) x := by
  cases x with
  | error e => exact h
  | ok a => exact ⟨h, hR a rfl⟩

theorem ok {a : α} (h : Meets E Q x) (hx : x = .ok a) : Q a := by
  subst hx
  exact h

theorem excused {e : ε} (h : Meets E Q x) (hx : x = .error e) : E e := by
  subst hx
  exact h

/-- When nothing excuses an error there is a result. -/
theorem exists_ok (h : Meets E Q x) (hE : ∀ e, ¬ E e) : ∃ a, x = .ok a ∧ Q a := by
  cases x with
  | error e => exact absurd h (hE e)
  | ok a => exact ⟨a, rfl, h⟩

end Meets

-- from here on only the rules are used
attribute [irreducible] Meets

end CwKeyer
