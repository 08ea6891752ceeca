import CwKeyer.Paddle.KeyboardListener
import CwKeyer.Paddle.UsbDevice

/-!
# Losing a paddle source

A paddle source that goes away sends no releases. So its listeners, and the
keyer among them, are left with whatever paddle was down, and on Linux with
whatever is pressed before the last event thread of the keyboard has ended:
the paddles are released exactly in the runs in which no paddle is down
whenever the source goes away, and none is pressed after that
(`loss_releases_iff`). `PaddleSource` is what the USB device and the keyboard
have in common.
-/

namespace CwKeyer

/-! ## Sources -/

/-- A machine that tells listeners about two paddles and can go away. -/
structure PaddleSource (σ α : Type) where
  machine : Machine σ α
  dit : σ → Bool
  dah : σ → Bool
  listeners : σ → List (List PaddleEvent)
  /-- The step returns from an operation with which the source goes away, or
  comes after that. -/
  loses : σ → α → Bool
  /-- The step hears a paddle being pressed. -/
  presses : σ → α → Bool

namespace PaddleSource

variable {σ α : Type} (S : PaddleSource σ α)

/-- When the source has gone away, no listener is left with a paddle down
and a keyer among them comes to rest. -/
def Releases (s : σ) (a : α) (s' : σ) : Prop :=
  S.loses s a = true → ∀ log ∈ S.listeners s', Released log ∧ KeyerStops log

/-- No paddle is down when the source goes away, and none is pressed after
that. -/
def PaddlesUp (s : σ) (a : α) (_ : σ) : Prop :=
  S.loses s a = true → S.dit s = false ∧ S.dah s = false ∧ S.presses s a = false

instance (s : σ) (a : α) (s' : σ) : Decidable (S.PaddlesUp s a s') :=
  inferInstanceAs (Decidable (_ → _))

/-- As long as it goes away with its paddles up, the source keeps `I`. When
it goes away its listeners have been told of every change of a paddle, and
the paddles are up only if they were before. -/
structure Tells (I : σ → Prop) : Prop where
  told : ∀ s a s', I s → S.loses s a = true → S.machine.step s a = some s' →
    S.listeners s' ≠ [] ∧ ∃ dit dah, (∀ log ∈ S.listeners s', Mirrors dit dah log)
      ∧ (dit = false ∧ dah = false ↔
        S.dit s = false ∧ S.dah s = false ∧ S.presses s a = false)
  keeps : ∀ s a s', I s → S.PaddlesUp s a s' → S.machine.step s a = some s' → I s'

variable {S} {I : σ → Prop}

theorem releases_step (h : S.Tells I) {s s' : σ} {a : α} (hI : I s)
    (hstep : S.machine.step s a = some s') : S.Releases s a s' ↔ S.PaddlesUp s a s' := by
  refine imp_congr_right fun hloses => ?_
  obtain ⟨hheard, dit, dah, hmirrors, hiff⟩ := h.told s a s' hI hloses hstep
  rw [← hiff]
  constructor
  · intro hreleases
    obtain ⟨log, hlog⟩ := List.exists_mem_of_ne_nil _ hheard
    exact (released_iff (hmirrors log hlog)).mp (hreleases log hlog).1
  · rintro hup log hlog
    refine ⟨(released_iff (hmirrors log hlog)).mpr hup, ?_⟩
    obtain ⟨rfl, rfl⟩ := hup
    exact keyerStops (hmirrors log hlog)

theorem along_releases (h : S.Tells I) {s : σ} {as : List α} (hI : I s) :
    S.machine.Along S.Releases s as ↔ S.machine.Along S.PaddlesUp s as :=
  Machine.along_congr (P := S.Releases) (Q := S.PaddlesUp)
    (fun _ _ _ hI hstep => releases_step h hI hstep) h.keeps hI

end PaddleSource

/-! ## The USB device -/

/-- `disconnectDevice` returns at once when nothing is connected, else when
it has joined the reader. -/
def UsbDevice.loses (d : UsbDevice) : UsbAct → Bool
  | .disconnectDevice => !d.connected
  | .join => true
  | .interrupt .failed => true
  | _ => false

def usbSource : PaddleSource UsbDevice UsbAct where
  machine := usbDevice
  dit := UsbDevice.dit
  dah := UsbDevice.dah
  listeners := UsbDevice.listeners
  loses := UsbDevice.loses
  -- a report is no step with which the device goes away
  presses _ _ := false

theorem usbSource_tells : usbSource.Tells UsbInv where
  told d a d' hI hloses hstep := by
    rcases usbDevice_step hstep with ⟨b0, b2, b3, resubmitted, rfl, -⟩ | hquiet
    · cases hloses
    · have hsame : usbSource.listeners d' = d.listeners := hquiet.listeners
      rw [hsame]
      exact ⟨hI.heard, d.dit, d.dah, hI.mirrored, by simp [usbSource]⟩
  keeps _ _ _ hI _ hstep := usbInv_step hI hstep

/-! ## The keyboard -/

namespace KeyboardListener

/-- `setEnabled(false)` returns at once when the listener is disabled, else
when `unhook` has returned. Any key event after that is late. -/
def loses (l : KeyboardListener) : KeyboardAct → Bool
  | .setEnabled enabled => !enabled && !l.enabled
  | .unhooked => true
  | .key _ _ => !l.hooked
  | .test => false
  | .replied => false

/-- A key goes down that the listener does not ignore. -/
def presses (platform : Platform) (l : KeyboardListener) : KeyboardAct → Bool
  | .key pressed key => pressed && [Paddle.dit, .dah].any fun p =>
      key ∈ platform.paddleKeys p && !(l.latch p).Ignores key
  | _ => false

/-- No paddle is down. -/
def Up (l : KeyboardListener) : Prop := ∀ p, (l.latch p).pressed = false

theorem up_iff {l : KeyboardListener} : l.Up ↔ l.ditPressed = false ∧ l.dahPressed = false :=
  Paddle.forall_iff

/-- With both paddles up, a key event puts one down exactly if it is a press
that the listener does not ignore. -/
theorem up_keyEvent_iff {platform : Platform} {l : KeyboardListener} (h : l.Up) (pressed : Bool)
    (key : Nat) :
    (l.keyEvent platform pressed key).Up ↔ l.presses platform (.key pressed key) = false := by
  have hpaddle (p : Paddle) : ((l.keyEvent platform pressed key).latch p).pressed
      = (pressed && (key ∈ platform.paddleKeys p && !(l.latch p).Ignores key)) := by
    rw [latch_keyEvent, Latch.set]
    by_cases hkey : key ∈ platform.paddleKeys p
    · by_cases hignores : (l.latch p).Ignores key
      · simp [hkey, hignores, h p]
      · simp [hkey, hignores]
    · simp [hkey, h p]
  rw [Up, Paddle.forall_iff, hpaddle, hpaddle, ← Bool.or_eq_false_iff, ← Bool.and_or_distrib_left]
  simp only [presses, List.any_cons, List.any_nil, Bool.or_false]

end KeyboardListener

def keyboardSource (platform : Platform) : PaddleSource KeyboardListener KeyboardAct where
  machine := keyboardListener platform
  dit := KeyboardListener.ditPressed
  dah := KeyboardListener.dahPressed
  listeners l := [l.delivered]
  loses := KeyboardListener.loses
  presses := KeyboardListener.presses platform

/-- The keyer has been told of every change of a paddle, and the paddles are
up once `unhook` has returned: then enabling the listener, which forgets them
without a word, forgets nothing. -/
structure KeyboardInv (l : KeyboardListener) : Prop where
  mirrored : l.Mirrored
  up : l.hooked = false → l.Up

theorem keyboardInv_init : KeyboardInv {} :=
  ⟨mirrors_nil, fun _ => KeyboardListener.up_iff.mpr ⟨rfl, rfl⟩⟩

theorem keyboardInv_setEnabled {l : KeyboardListener} (h : KeyboardInv l) (enabled : Bool)
    (hfree : l.unhooking = false) : KeyboardInv (l.setEnabled enabled) := by
  unfold KeyboardListener.setEnabled
  split
  · exact h
  · rename_i hchange
    cases enabled with
    | false => exact ⟨h.mirrored, h.up⟩
    | true =>
        have hoff : l.hooked = false := by
          simpa [KeyboardListener.unhooking, hchange] using hfree
        have hmirrors := h.mirrored
        rw [KeyboardListener.Mirrored, h.up hoff .dit, h.up hoff .dah] at hmirrors
        exact ⟨hmirrors, fun _ => KeyboardListener.up_iff.mpr ⟨rfl, rfl⟩⟩

theorem KeyboardInv.startThread {l : KeyboardListener} (h : KeyboardInv l) (platform : Platform) :
    KeyboardInv (l.startThread platform) := by
  cases platform with
  | linux => exact ⟨h.mirrored, h.up⟩
  | windows => exact h

theorem keyboardInv_step {platform : Platform} {l l' : KeyboardListener} {a : KeyboardAct}
    (h : KeyboardInv l) (hup : (keyboardSource platform).PaddlesUp l a l')
    (hstep : (keyboardListener platform).step l a = some l') : KeyboardInv l' := by
  cases a with
  | setEnabled enabled =>
      obtain ⟨hfree, hstep⟩ := Option.ite_none_left_eq_some.mp hstep
      have hfree : l.unhooking = false := by simpa using hfree
      split at hstep
      · obtain rfl := Option.some.inj hstep
        exact (keyboardInv_setEnabled h true hfree).startThread platform
      · obtain rfl := Option.some.inj hstep
        exact keyboardInv_setEnabled h enabled hfree
  | unhooked =>
      obtain ⟨-, ⟨⟩⟩ := Option.ite_none_right_eq_some.mp hstep
      obtain ⟨hdit, hdah, -⟩ := hup rfl
      exact ⟨h.mirrored, fun _ => KeyboardListener.up_iff.mpr ⟨hdit, hdah⟩⟩
  | test =>
      obtain ⟨-, ⟨⟩⟩ := Option.ite_none_left_eq_some.mp hstep
      exact ⟨h.mirrored, h.up⟩
  | replied =>
      obtain ⟨-, ⟨⟩⟩ := Option.ite_none_left_eq_some.mp hstep
      exact ⟨h.mirrored, h.up⟩
  | key pressed key =>
      obtain ⟨-, ⟨⟩⟩ := Option.ite_none_right_eq_some.mp hstep
      refine ⟨h.mirrored.keyEvent pressed key, fun hoff => ?_⟩
      rw [KeyboardListener.hooked_keyEvent] at hoff
      have hlate : l.loses (.key pressed key) = true := by rw [KeyboardListener.loses, hoff]; rfl
      obtain ⟨-, -, hquiet⟩ := hup hlate
      exact (KeyboardListener.up_keyEvent_iff (h.up hoff) pressed key).mpr hquiet

theorem keyboardSource_tells (platform : Platform) :
    (keyboardSource platform).Tells KeyboardInv where
  told l a l' hI hloses hstep := by
    have hlog {l' : KeyboardListener} (h : l'.Mirrored) :
        ∀ log ∈ [l'.delivered], Mirrors l'.ditPressed l'.dahPressed log := by
      intro log hmem
      obtain rfl := List.mem_singleton.mp hmem
      exact h
    refine ⟨List.cons_ne_nil _ _, l'.ditPressed, l'.dahPressed, ?_⟩
    cases a with
    | setEnabled enabled =>
        obtain ⟨-, hstep⟩ := Option.ite_none_left_eq_some.mp hstep
        obtain ⟨rfl, hoff⟩ : enabled = false ∧ l.enabled = false := by
          simpa [keyboardSource, KeyboardListener.loses] using hloses
        obtain rfl : l = l' := by simpa [KeyboardListener.setEnabled, hoff] using hstep
        exact ⟨hlog hI.mirrored, by simp [keyboardSource, KeyboardListener.presses]⟩
    | unhooked =>
        obtain ⟨-, ⟨⟩⟩ := Option.ite_none_right_eq_some.mp hstep
        exact ⟨hlog hI.mirrored, by simp [keyboardSource, KeyboardListener.presses]⟩
    | test => cases hloses
    | replied => cases hloses
    | key pressed key =>
        obtain ⟨-, ⟨⟩⟩ := Option.ite_none_right_eq_some.mp hstep
        have hoff : l.hooked = false := by
          simpa [keyboardSource, KeyboardListener.loses] using hloses
        have hup := hI.up hoff
        refine ⟨hlog (hI.mirrored.keyEvent pressed key), ?_⟩
        rw [← KeyboardListener.up_iff, KeyboardListener.up_keyEvent_iff hup]
        simp [keyboardSource, KeyboardListener.up_iff.mp hup]
  keeps _ _ _ hI hup hstep := keyboardInv_step hI hup hstep

/-- **Losing a paddle source.** The paddles are released whenever the USB
device or the keyboard has gone away exactly in the runs in which no paddle
of theirs is down when it goes away, and no press of the keyboard is heard
after `setEnabled(false)` has returned. -/
theorem loss_releases_iff (n : Nat) (us : List UsbAct) (platform : Platform)
    (ks : List KeyboardAct) :
    (usbSource.machine.Along usbSource.Releases (.init n) us
        ↔ usbSource.machine.Along usbSource.PaddlesUp (.init n) us)
      ∧ ((keyboardSource platform).machine.Along (keyboardSource platform).Releases {} ks
        ↔ (keyboardSource platform).machine.Along (keyboardSource platform).PaddlesUp {} ks) :=
  ⟨PaddleSource.along_releases usbSource_tells (usbInv_init n),
    PaddleSource.along_releases (keyboardSource_tells platform) keyboardInv_init⟩

/-- The left paddle is down when the adapter is pulled out. -/
def pulledOut : List UsbAct :=
  [.connectDevice true, .claim true, .interrupt (.completed clickLeft 0 0 true),
    .interrupt .failed]

/-- The left control key is down when the keyboard is turned off. -/
def turnedOff : List KeyboardAct :=
  [.setEnabled true, .test, .key true 0x25, .setEnabled false, .unhooked]

/-- The left control key goes down while the event thread, which nobody has
waited for, still processes replies. -/
def pressedLate : List KeyboardAct :=
  [.setEnabled true, .test, .setEnabled false, .unhooked, .key true 0x25]

/-- Neither source releases what it held, and the keyboard may not even be
silent. -/
theorem loss_keeps_pressed :
    (¬ ∀ n us, usbSource.machine.Along usbSource.Releases (.init n) us)
      ∧ ∀ ks ∈ [turnedOff, pressedLate],
        ¬ (keyboardSource .linux).machine.Along (keyboardSource .linux).Releases {} ks := by
  constructor
  · intro h
    have hup := (PaddleSource.along_releases usbSource_tells (usbInv_init 1)).mp (h 1 pulledOut)
    revert hup
    decide
  · intro ks hks h
    have hup := (PaddleSource.along_releases (keyboardSource_tells .linux) keyboardInv_init).mp h
    revert hup
    rcases List.mem_pair.mp hks with rfl | rfl <;> decide

end CwKeyer
