import CwKeyer.Paddle.Events
import CwKeyer.Platform

/-!
# `KeyboardListener`

The keyboard as a paddle source: `keyboard/KeyboardListener.cpp` and the
key tables, `hook` and `unhook` of its Linux and Windows parts. On Windows
no event comes after `unhook`. On Linux the events come on a thread of their
own (`eventLoopWithTimer`) that `hook` detaches, so `unhook` does not wait
for it.
-/

namespace CwKeyer

/-! ## Keys -/

/-- `DEVICE1_DIT` and `DEVICE2_DIT`; `VK_LCONTROL` and `VK_OEM_1`. -/
def Platform.ditKeys : Platform → List Nat
  | .linux => [0x22, 0x25]
  | .windows => [0xA2, 0xBA]

/-- `DEVICE1_DAH` and `DEVICE2_DAH`; `VK_OEM_PLUS` and `VK_RCONTROL`. -/
def Platform.dahKeys : Platform → List Nat
  | .linux => [0x23, 0x6D]
  | .windows => [0xBB, 0xA3]

inductive Paddle where
  | dit
  | dah
deriving Repr, DecidableEq

theorem Paddle.forall_iff {P : Paddle → Prop} : (∀ p, P p) ↔ P .dit ∧ P .dah := by
  refine ⟨fun h => ⟨h .dit, h .dah⟩, fun h p => ?_⟩
  cases p with
  | dit => exact h.1
  | dah => exact h.2

def Paddle.event : Paddle → Bool → PaddleEvent
  | .dit => .onDit
  | .dah => .onDah

def Platform.paddleKeys (platform : Platform) : Paddle → List Nat
  | .dit => platform.ditKeys
  | .dah => platform.dahKeys

/-! ## State -/

/-- What the listener keeps of a paddle: whether it is down, and the key it
has heard first (0 is none). -/
structure Latch where
  pressed : Bool
  key : Nat
deriving Repr, DecidableEq

/-- The members of `KeyboardListener` and what `s_ditDah` has been told;
`m_running` of the Linux part is set and cleared with `m_enabled`. `hooked`
says that `hook` has been called and `unhook` has not returned. Of the
detached threads, `testing` are about to test `m_running` and `replying` are
inside `XRecordProcessReplies`. -/
structure KeyboardListener where
  enabled : Bool := false
  hooked : Bool := false
  testing : Nat := 0
  replying : Nat := 0
  ditPressed : Bool := false
  dahPressed : Bool := false
  ditKey : Nat := 0
  dahKey : Nat := 0
  delivered : List PaddleEvent := []
deriving Repr, DecidableEq

namespace KeyboardListener

def latch (l : KeyboardListener) : Paddle → Latch
  | .dit => ⟨l.ditPressed, l.ditKey⟩
  | .dah => ⟨l.dahPressed, l.dahKey⟩

def withLatch (l : KeyboardListener) (t : Latch) : Paddle → KeyboardListener
  | .dit => { l with ditPressed := t.pressed, ditKey := t.key }
  | .dah => { l with dahPressed := t.pressed, dahKey := t.key }

/-- A call of `s_ditDah`. -/
def tell (l : KeyboardListener) (e : PaddleEvent) : KeyboardListener :=
  { l with delivered := l.delivered ++ [e] }

/-- `setDitPressed` and `setDahPressed`, which differ in the paddle only. -/
def setPressed (l : KeyboardListener) (p : Paddle) (pressed : Bool) (key : Nat) :
    KeyboardListener :=
  let t := l.latch p
  if t.key ≠ 0 ∧ t.key ≠ key then l
  else if pressed ≠ t.pressed then
    (l.withLatch ⟨pressed, key⟩ p).tell (p.event pressed)
  else l.withLatch { t with key := key } p

def setDitPressed (l : KeyboardListener) (pressed : Bool) (key : Nat) : KeyboardListener :=
  l.setPressed .dit pressed key

def setDahPressed (l : KeyboardListener) (pressed : Bool) (key : Nat) : KeyboardListener :=
  l.setPressed .dah pressed key

/-- `handle_event` and `lowLevelKeyboard`. -/
def keyEvent (l : KeyboardListener) (platform : Platform) (pressed : Bool) (key : Nat) :
    KeyboardListener :=
  let l := if key ∈ platform.ditKeys then l.setDitPressed pressed key else l
  if key ∈ platform.dahKeys then l.setDahPressed pressed key else l

/-- `setEnabled` up to the end of `hook` or the start of `unhook`. -/
def setEnabled (l : KeyboardListener) (enabled : Bool) : KeyboardListener :=
  if l.enabled = enabled then l
  else if enabled then
    { l with enabled := true, ditPressed := false, dahPressed := false, hooked := true }
  else { l with enabled := false }

/-- The thread that `hook` starts on Linux. -/
def startThread (l : KeyboardListener) : Platform → KeyboardListener
  | .linux => { l with testing := l.testing + 1 }
  | .windows => l

/-- `setEnabled(false)` is inside `unhook`. -/
def unhooking (l : KeyboardListener) : Bool := !l.enabled && l.hooked

/-- A key event can be handled: on Windows while the hook is set, on Linux
while a thread processes replies. -/
def listens (l : KeyboardListener) : Platform → Bool
  | .linux => 0 < l.replying
  | .windows => l.hooked

end KeyboardListener

/-! ## Steps -/

/-- The steps: a call of `setEnabled`, the return of `unhook`, a thread of
the Linux part that tests `m_running` or returns from
`XRecordProcessReplies`, and the event of a key that goes down or up. -/
inductive KeyboardAct where
  | setEnabled (enabled : Bool)
  | unhooked
  | test
  | replied
  | key (pressed : Bool) (key : Nat)
deriving Repr, DecidableEq

def KeyboardListener.step (platform : Platform) (l : KeyboardListener) :
    KeyboardAct → Option KeyboardListener
  | .setEnabled enabled =>
      if l.unhooking then none
      else if enabled && !l.enabled then some ((l.setEnabled true).startThread platform)
      else some (l.setEnabled enabled)
  | .unhooked => if l.unhooking then some { l with hooked := false } else none
  | .test =>
      if l.testing = 0 then none
      else some { l with
        testing := l.testing - 1
        replying := if l.enabled then l.replying + 1 else l.replying }
  | .replied =>
      if l.replying = 0 then none
      else some { l with replying := l.replying - 1, testing := l.testing + 1 }
  | .key pressed key =>
      if l.listens platform then some (l.keyEvent platform pressed key) else none

def keyboardListener (platform : Platform) : Machine KeyboardListener KeyboardAct :=
  ⟨KeyboardListener.step platform⟩

/-! ## One paddle -/

namespace Latch

/-- The other key is kept. -/
def Ignores (t : Latch) (key : Nat) : Prop := t.key ≠ 0 ∧ t.key ≠ key

instance (t : Latch) (key : Nat) : Decidable (t.Ignores key) := inferInstanceAs (Decidable (_ ∧ _))

def set (t : Latch) (pressed : Bool) (key : Nat) : Latch :=
  if t.Ignores key then t else ⟨pressed, key⟩

/-- The events of `set`. -/
def tells (t : Latch) (p : Paddle) (pressed : Bool) (key : Nat) : List PaddleEvent :=
  if t.Ignores key then [] else if pressed = t.pressed then [] else [p.event pressed]

end Latch

namespace KeyboardListener

theorem latch_withLatch (l : KeyboardListener) (t : Latch) (p q : Paddle) :
    (l.withLatch t p).latch q = if q = p then t else l.latch q := by
  cases p <;> cases q <;> rfl

theorem withLatch_frame (l : KeyboardListener) (t : Latch) (p : Paddle) :
    (l.withLatch t p).delivered = l.delivered ∧ (l.withLatch t p).hooked = l.hooked := by
  cases p <;> exact ⟨rfl, rfl⟩

@[simp] theorem latch_tell (l : KeyboardListener) (e : PaddleEvent) (q : Paddle) :
    (l.tell e).latch q = l.latch q := by
  cases q <;> rfl

variable (l : KeyboardListener) (p : Paddle) (pressed : Bool) (key : Nat)

/-- What a key does to the two paddles, and what the keyer is told. -/
theorem setPressed_spec :
    (∀ q, (l.setPressed p pressed key).latch q
        = if q = p then (l.latch p).set pressed key else l.latch q)
      ∧ (l.setPressed p pressed key).delivered = l.delivered ++ (l.latch p).tells p pressed key
      ∧ (l.setPressed p pressed key).hooked = l.hooked := by
  rw [Latch.set, Latch.tells]
  by_cases hignores : (l.latch p).Ignores key
  · have heq : l.setPressed p pressed key = l := if_pos hignores
    rw [heq, if_pos hignores, if_pos hignores, List.append_nil]
    refine ⟨fun q => ?_, rfl, rfl⟩
    split
    case isTrue hq => rw [hq]
    case isFalse => rfl
  · have hlatch := latch_withLatch l ⟨pressed, key⟩ p
    obtain ⟨hdelivered, hhooked⟩ := withLatch_frame l ⟨pressed, key⟩ p
    rw [if_neg hignores, if_neg hignores]
    by_cases hturn : pressed = (l.latch p).pressed
    · have heq : l.setPressed p pressed key = l.withLatch ⟨pressed, key⟩ p :=
        (if_neg hignores).trans ((if_neg (not_not.mpr hturn)).trans (by rw [hturn]))
      rw [heq, if_pos hturn, List.append_nil]
      exact ⟨hlatch, hdelivered, hhooked⟩
    · have heq : l.setPressed p pressed key
          = (l.withLatch ⟨pressed, key⟩ p).tell (p.event pressed) :=
        (if_neg hignores).trans (if_pos hturn)
      rw [heq, if_neg hturn]
      exact ⟨fun q => (latch_tell ..).trans (hlatch q), congrArg (· ++ _) hdelivered, hhooked⟩

end KeyboardListener

variable {platform : Platform}

/-- No key belongs to both paddles, and none has the number 0. -/
theorem notMem_dahKeys {key : Nat} (h : key ∈ platform.ditKeys) : key ∉ platform.dahKeys := by
  cases platform <;> revert h <;> simp [Platform.ditKeys, Platform.dahKeys] <;> omega

theorem ne_zero_of_mem {p : Paddle} {key : Nat} (h : key ∈ platform.paddleKeys p) : key ≠ 0 := by
  rintro rfl
  revert h
  cases platform <;> cases p <;> decide

namespace KeyboardListener

/-- A key event is one for the paddle of the key, or for none. -/
theorem keyEvent_cases (l : KeyboardListener) (platform : Platform) (pressed : Bool) (key : Nat) :
    (∃ p, (∀ q, key ∈ platform.paddleKeys q ↔ q = p)
        ∧ l.keyEvent platform pressed key = l.setPressed p pressed key)
      ∨ (∀ q, key ∉ platform.paddleKeys q) ∧ l.keyEvent platform pressed key = l := by
  rw [keyEvent]
  by_cases hdit : key ∈ platform.ditKeys
  · have hdah := notMem_dahKeys hdit
    refine .inl ⟨.dit, fun q => ?_, by simp only [hdit, hdah, if_true, if_false, setDitPressed]⟩
    cases q <;> simp [Platform.paddleKeys, hdit, hdah]
  · by_cases hdah : key ∈ platform.dahKeys
    · refine .inl ⟨.dah, fun q => ?_, by simp only [hdit, hdah, if_true, if_false, setDahPressed]⟩
      cases q <;> simp [Platform.paddleKeys, hdit, hdah]
    · refine .inr ⟨fun q => ?_, by simp only [hdit, hdah, if_false]⟩
      cases q <;> simp [Platform.paddleKeys, hdit, hdah]

variable (l : KeyboardListener) (pressed : Bool) (key : Nat)

@[simp] theorem hooked_keyEvent : (l.keyEvent platform pressed key).hooked = l.hooked := by
  rcases l.keyEvent_cases platform pressed key with ⟨p, -, heq⟩ | ⟨-, heq⟩
  · rw [heq, (l.setPressed_spec p pressed key).2.2]
  · rw [heq]

theorem latch_keyEvent (p : Paddle) :
    (l.keyEvent platform pressed key).latch p
      = if key ∈ platform.paddleKeys p then (l.latch p).set pressed key else l.latch p := by
  rcases l.keyEvent_cases platform pressed key with ⟨q, hmem, heq⟩ | ⟨hnone, heq⟩
  · rw [heq, (l.setPressed_spec q pressed key).1]
    by_cases hpq : p = q
    · rw [if_pos hpq, if_pos ((hmem p).mpr hpq), hpq]
    · rw [if_neg hpq, if_neg (mt (hmem p).mp hpq)]
  · rw [heq, if_neg (hnone p)]

theorem delivered_keyEvent {p : Paddle} (h : key ∈ platform.paddleKeys p) :
    (l.keyEvent platform pressed key).delivered
      = l.delivered ++ (l.latch p).tells p pressed key := by
  rcases l.keyEvent_cases platform pressed key with ⟨q, hmem, heq⟩ | ⟨hnone, -⟩
  · obtain rfl := (hmem p).mp h
    rw [heq, (l.setPressed_spec p pressed key).2.1]
  · exact absurd h (hnone p)

/-! ## What the keyer has been told -/

/-- The keyer has been told of every change of a paddle. -/
def Mirrored (l : KeyboardListener) : Prop :=
  Mirrors (l.latch .dit).pressed (l.latch .dah).pressed l.delivered

variable {l}

theorem Mirrored.setPressed (h : l.Mirrored) (p : Paddle) :
    (l.setPressed p pressed key).Mirrored := by
  unfold KeyboardListener.setPressed
  dsimp only
  split
  · exact h
  · split
    · rename_i hturn
      obtain rfl : pressed = !(l.latch p).pressed := Bool.eq_not_of_ne hturn
      cases p with
      | dit => exact Mirrors.onDit h
      | dah => exact Mirrors.onDah h
    · cases p with
      | dit => exact h
      | dah => exact h

theorem Mirrored.keyEvent (h : l.Mirrored) : (l.keyEvent platform pressed key).Mirrored := by
  rcases l.keyEvent_cases platform pressed key with ⟨p, -, heq⟩ | ⟨-, heq⟩
  · rw [heq]
    exact h.setPressed pressed key p
  · rw [heq]
    exact h

end KeyboardListener

end CwKeyer
