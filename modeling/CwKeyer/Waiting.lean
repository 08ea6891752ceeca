import Mathlib.Logic.Basic

/-!
# Waiting with a predicate

One thread in `wait(lock, predicate)`, step by step. From the evaluation of
the predicate until it is in the wait set the thread holds the mutex. A
notification before it is there is lost; so it is not lost if the predicate
has been made true under the mutex (`alert_notified`, `not_blocking`), and can
be if not. A thread that has been alerted leaves the wait in a few steps of
its own as long as the predicate stays true (`alert_next`).
-/

namespace CwKeyer

inductive WaitPc where
  /-- About to evaluate the predicate. -/
  | evaluate
  /-- Found it false, about to enter the wait set. -/
  | blocking
  | waiting
  /-- Out of the wait set, about to lock the mutex again. -/
  | woken
deriving Repr, DecidableEq

namespace WaitPc

def holdsMutex : WaitPc → Bool
  | .evaluate => true
  | .blocking => true
  | .waiting => false
  | .woken => false

/-- The next step of the thread: `some none` when `wait` returns. In the wait
set there is none. -/
def next (predicate : Bool) : WaitPc → Option (Option WaitPc)
  | .evaluate => some (if predicate then none else some .blocking)
  | .blocking => some (some .waiting)
  | .waiting => none
  | .woken => some (some .evaluate)

/-- A notification, a time-out or a spurious wake-up. -/
def notified : WaitPc → WaitPc
  | .waiting => .woken
  | pc => pc

/-- Not before the next notification. -/
def asleep : WaitPc → Bool
  | .evaluate => false
  | .blocking => true
  | .waiting => true
  | .woken => false

/-- How many steps of its own the thread needs, at most, to return. -/
def stepsLeft : WaitPc → Nat
  | .evaluate => 1
  | .blocking => 2
  | .waiting => 2
  | .woken => 2

variable {predicate : Bool} {pc pc' : WaitPc}

theorem not_blocking (h : pc.holdsMutex = false) : pc ≠ .blocking := by
  rintro rfl
  cases h

theorem waiting_of_asleep (hasleep : pc.asleep = true) (h : pc ≠ .blocking) : pc = .waiting := by
  cases pc with
  | waiting => rfl
  | blocking => exact absurd rfl h
  | evaluate => cases hasleep
  | woken => cases hasleep

/-- Only a thread about to enter the wait set sleeps through it. -/
theorem alert_notified (h : pc ≠ .blocking) : pc.notified.asleep = false := by
  cases pc with
  | blocking => exact absurd rfl h
  | evaluate => rfl
  | waiting => rfl
  | woken => rfl

theorem notified_awake (h : pc.asleep = false) : pc.notified.asleep = false := by
  refine alert_notified fun hblocking => ?_
  rw [hblocking] at h
  cases h

/-- A thread whose predicate is true does not fall asleep. -/
theorem alert_next (halert : pc.asleep = false) (h : pc.next true = some (some pc')) :
    pc'.asleep = false ∧ pc'.stepsLeft + 1 = pc.stepsLeft := by
  cases pc with
  | evaluate => cases Option.some.inj h
  | blocking => cases halert
  | waiting => cases halert
  | woken =>
      obtain rfl := Option.some.inj (Option.some.inj h)
      exact ⟨rfl, rfl⟩

/-- Without a notification a sleeping thread sleeps on. -/
theorem asleep_next (hasleep : pc.asleep = true) (h : pc.next predicate = some (some pc')) :
    pc'.asleep = true := by
  cases pc with
  | evaluate => cases hasleep
  | blocking =>
      obtain rfl := Option.some.inj (Option.some.inj h)
      rfl
  | waiting => cases h
  | woken => cases hasleep

theorem stepsLeft_notified : pc.notified.stepsLeft = pc.stepsLeft := by
  cases pc <;> rfl

theorem stepsLeft_le : pc.stepsLeft ≤ 2 := by
  cases pc <;> decide

theorem next_isSome (halert : pc ≠ .waiting) : (pc.next predicate).isSome = true := by
  cases pc with
  | waiting => exact absurd rfl halert
  | evaluate => rfl
  | blocking => rfl
  | woken => rfl

/-- Falling asleep, the thread has found its predicate false. -/
theorem predicate_of_next (h : pc.next predicate = some (some pc')) (hasleep : pc'.asleep = true) :
    pc.asleep = true ∨ predicate = false := by
  cases pc with
  | evaluate =>
      cases predicate with
      | true => cases Option.some.inj h
      | false => exact .inr rfl
  | blocking => exact .inl rfl
  | waiting => cases h
  | woken =>
      obtain rfl := Option.some.inj (Option.some.inj h)
      cases hasleep

theorem evaluate_of_next (h : pc.next predicate = some none) :
    pc = .evaluate ∧ predicate = true := by
  cases pc with
  | evaluate =>
      cases predicate with
      | true => exact ⟨rfl, rfl⟩
      | false => cases Option.some.inj h
  | blocking => cases Option.some.inj h
  | waiting => cases h
  | woken => cases Option.some.inj h

end WaitPc

end CwKeyer
