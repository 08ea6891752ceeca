import CwKeyer.Paddle.Events

/-!
# `UsbDevice`

The reader of a USB paddle in `usb/UsbDevice.cpp`: the operations of the
GUI thread, the reader thread that they create and join, and the
interrupt transfer whose callback decodes the reports. libusb runs the
callback of a transfer that is in flight on whichever thread handles its
events, so a transfer completes in any state.
-/

namespace CwKeyer

/-! ## Reports -/

def clickLeft : UInt8 := 0x01
def clickRight : UInt8 := 0x02
def clickBoth : UInt8 := 0x03

/-- The paddles that a report says are down, dit first: the decoding in
`cbInterrupt`, from the bytes that it reads. -/
def reported (b0 b2 b3 : UInt8) : Bool × Bool :=
  if b0 = clickBoth ∨ (0 < b2 ∧ 0 < b3) then (true, true)
  else if b0 = clickLeft ∨ 0 < b2 then (true, false)
  else if b0 = clickRight ∨ 0 < b3 then (false, true)
  else (false, false)

/-! ## State -/

/-- The reader thread: not there (`m_threadTask` is not joinable), before
its attempt to claim the interface, in its loop, or returned and not yet
joined. -/
inductive ReaderPc where
  | absent
  | claiming
  | looping
  | returned
deriving Repr, DecidableEq

/-- The members of `UsbDevice`, the reader thread, and what each listener
has been told. `detected` is `m_detectedDevice != nullptr`; `inFlight`
says that the transfer is submitted and `joining` that
`disconnectDevice` waits for the thread. -/
structure UsbDevice where
  detected : Bool := false
  connected : Bool := false
  dit : Bool := false
  dah : Bool := false
  reader : ReaderPc := .absent
  inFlight : Bool := false
  joining : Bool := false
  listeners : List (List PaddleEvent)
deriving Repr, DecidableEq

namespace UsbDevice

/-- A device with the listener of its constructor and `n` added ones. -/
def init (n : Nat) : UsbDevice := { listeners := List.replicate (n + 1) [] }

def sendDit (d : UsbDevice) (pressed : Bool) : UsbDevice :=
  { d with listeners := d.listeners.map (· ++ [.onDit pressed]) }

def sendDah (d : UsbDevice) (pressed : Bool) : UsbDevice :=
  { d with listeners := d.listeners.map (· ++ [.onDah pressed]) }

/-- The first half of `sendDitDah`. -/
def latchDit (d : UsbDevice) (ditPressed : Bool) : UsbDevice :=
  if ditPressed && !d.dit then { d with dit := true }.sendDit true
  else if !ditPressed && d.dit then { d with dit := false }.sendDit false
  else d

/-- The second half of `sendDitDah`. -/
def latchDah (d : UsbDevice) (dahPressed : Bool) : UsbDevice :=
  if dahPressed && !d.dah then { d with dah := true }.sendDah true
  else if !dahPressed && d.dah then { d with dah := false }.sendDah false
  else d

def sendDitDah (d : UsbDevice) (ditPressed dahPressed : Bool) : UsbDevice :=
  (d.latchDit ditPressed).latchDah dahPressed

end UsbDevice

/-! ## Steps -/

/-- How the transfer completes; after a report or a timeout it is
submitted again, which may fail. -/
inductive UsbTransfer where
  | completed (b0 b2 b3 : UInt8) (resubmitted : Bool)
  | timedOut (resubmitted : Bool)
  | failed
deriving Repr, DecidableEq

/-- `cbInterrupt`. -/
def UsbDevice.cbInterrupt (d : UsbDevice) : UsbTransfer → UsbDevice
  | .completed b0 b2 b3 resubmitted =>
      { d.sendDitDah (reported b0 b2 b3).1 (reported b0 b2 b3).2 with inFlight := resubmitted }
  | .timedOut resubmitted => { d with inFlight := resubmitted }
  | .failed => { d with inFlight := false }

/-- The steps: `connectDevice` (with whether a device is stored),
`detectDevice` (with whether it finds one), `disconnectDevice` and its
return, the reader thread's attempt to claim the interface and its
return from the loop, and the callback of the transfer. -/
inductive UsbAct where
  | connectDevice (stored : Bool)
  | detectDevice (found : Bool)
  | disconnectDevice
  | join
  | claim (ok : Bool)
  | leaveLoop
  | interrupt (transfer : UsbTransfer)
deriving Repr, DecidableEq

/-- The part of `connectDevice` that starts the reader. Assigning over a
joinable thread terminates the program: there is no next state. -/
def UsbDevice.startReader (d : UsbDevice) : Option UsbDevice :=
  if d.detected && !d.connected then
    if d.reader = .absent then some { d with reader := .claiming } else none
  else some d

def UsbDevice.step (d : UsbDevice) : UsbAct → Option UsbDevice
  | .connectDevice stored =>
      if d.joining then none else { d with detected := d.detected || stored }.startReader
  | .detectDevice found => if d.joining then none else some { d with detected := found }
  | .disconnectDevice =>
      if d.joining then none
      else if d.connected then some { d with connected := false, joining := true }
      else some d
  | .join =>
      if d.joining && d.reader = .returned then
        some { d with reader := .absent, joining := false }
      else none
  | .claim ok =>
      if d.reader = .claiming then
        if ok then some { d with reader := .looping, inFlight := true, connected := true }
        else some { d with reader := .returned }
      else none
  | .leaveLoop =>
      -- the handle is closed: what is still in flight never completes
      if d.reader = .looping && !d.connected then
        some { d with reader := .returned, inFlight := false }
      else none
  | .interrupt transfer => if d.inFlight then some (d.cbInterrupt transfer) else none

def usbDevice : Machine UsbDevice UsbAct := ⟨UsbDevice.step⟩

/-! ## What a step does to the paddles -/

/-- Every listener has been told of every change of a paddle. -/
structure UsbInv (d : UsbDevice) : Prop where
  heard : d.listeners ≠ []
  mirrored : ∀ log ∈ d.listeners, Mirrors d.dit d.dah log

theorem usbInv_init (n : Nat) : UsbInv (.init n) := by
  refine ⟨by simp [UsbDevice.init], ?_⟩
  intro log hlog
  obtain rfl : log = [] := List.eq_of_mem_replicate hlog
  exact mirrors_nil

theorem UsbInv.latchDit {d : UsbDevice} (h : UsbInv d) (ditPressed : Bool) :
    UsbInv (d.latchDit ditPressed) := by
  have hturn : UsbInv ({ d with dit := !d.dit }.sendDit !d.dit) := by
    refine ⟨by simpa [UsbDevice.sendDit] using h.heard, ?_⟩
    intro log' hlog'
    obtain ⟨log, hlog, rfl⟩ := List.mem_map.mp hlog'
    exact (h.mirrored log hlog).onDit
  cases hdit : d.dit <;> cases ditPressed <;> simp_all [UsbDevice.latchDit]

theorem UsbInv.latchDah {d : UsbDevice} (h : UsbInv d) (dahPressed : Bool) :
    UsbInv (d.latchDah dahPressed) := by
  have hturn : UsbInv ({ d with dah := !d.dah }.sendDah !d.dah) := by
    refine ⟨by simpa [UsbDevice.sendDah] using h.heard, ?_⟩
    intro log' hlog'
    obtain ⟨log, hlog, rfl⟩ := List.mem_map.mp hlog'
    exact (h.mirrored log hlog).onDah
  cases hdah : d.dah <;> cases dahPressed <;> simp_all [UsbDevice.latchDah]

theorem UsbInv.sendDitDah {d : UsbDevice} (h : UsbInv d) (ditPressed dahPressed : Bool) :
    UsbInv (d.sendDitDah ditPressed dahPressed) :=
  (h.latchDit ditPressed).latchDah dahPressed

/-- The step leaves the paddles and the listeners alone. -/
structure UsbQuiet (d d' : UsbDevice) : Prop where
  dit : d'.dit = d.dit
  dah : d'.dah = d.dah
  listeners : d'.listeners = d.listeners

theorem UsbInv.quiet {d d' : UsbDevice} (h : UsbInv d) (hquiet : UsbQuiet d d') : UsbInv d' := by
  obtain ⟨hdit, hdah, hlisteners⟩ := hquiet
  refine ⟨by rw [hlisteners]; exact h.heard, ?_⟩
  rw [hdit, hdah, hlisteners]
  exact h.mirrored

theorem UsbQuiet.refl (d : UsbDevice) : UsbQuiet d d := ⟨rfl, rfl, rfl⟩

theorem usbQuiet_connectDevice {d d' : UsbDevice} {stored : Bool}
    (hstep : usbDevice.step d (.connectDevice stored) = some d') : UsbQuiet d d' := by
  simp only [usbDevice, UsbDevice.step, UsbDevice.startReader] at hstep
  split at hstep
  · cases hstep
  · split at hstep
    · split at hstep <;> cases hstep
      exact ⟨rfl, rfl, rfl⟩
    · cases hstep
      exact ⟨rfl, rfl, rfl⟩

/-- Only a report reaches the listeners. -/
theorem usbDevice_step {d d' : UsbDevice} {a : UsbAct} (hstep : usbDevice.step d a = some d') :
    (∃ b0 b2 b3 resubmitted, a = .interrupt (.completed b0 b2 b3 resubmitted)
        ∧ d' = d.cbInterrupt (.completed b0 b2 b3 resubmitted))
      ∨ UsbQuiet d d' := by
  cases a with
  | connectDevice stored => exact .inr (usbQuiet_connectDevice hstep)
  | interrupt transfer =>
      obtain ⟨-, ⟨⟩⟩ := Option.ite_none_right_eq_some.mp hstep
      cases transfer with
      | completed b0 b2 b3 resubmitted => exact .inl ⟨b0, b2, b3, resubmitted, rfl, rfl⟩
      | timedOut resubmitted => exact .inr ⟨rfl, rfl, rfl⟩
      | failed => exact .inr ⟨rfl, rfl, rfl⟩
  | detectDevice found =>
      obtain ⟨-, ⟨⟩⟩ := Option.ite_none_left_eq_some.mp hstep
      exact .inr ⟨rfl, rfl, rfl⟩
  | disconnectDevice =>
      obtain ⟨-, hstep⟩ := Option.ite_none_left_eq_some.mp hstep
      split at hstep <;> cases hstep <;> exact .inr ⟨rfl, rfl, rfl⟩
  | join =>
      obtain ⟨-, ⟨⟩⟩ := Option.ite_none_right_eq_some.mp hstep
      exact .inr ⟨rfl, rfl, rfl⟩
  | claim ok =>
      obtain ⟨-, hstep⟩ := Option.ite_none_right_eq_some.mp hstep
      split at hstep <;> cases hstep <;> exact .inr ⟨rfl, rfl, rfl⟩
  | leaveLoop =>
      obtain ⟨-, ⟨⟩⟩ := Option.ite_none_right_eq_some.mp hstep
      exact .inr ⟨rfl, rfl, rfl⟩

theorem usbInv_step {d d' : UsbDevice} {a : UsbAct} (h : UsbInv d)
    (hstep : usbDevice.step d a = some d') : UsbInv d' := by
  rcases usbDevice_step hstep with ⟨b0, b2, b3, resubmitted, -, rfl⟩ | hquiet
  · obtain ⟨hheard, hmirrored⟩ := h.sendDitDah (reported b0 b2 b3).1 (reported b0 b2 b3).2
    exact ⟨hheard, hmirrored⟩
  · exact h.quiet hquiet

end CwKeyer
