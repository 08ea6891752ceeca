import CwKeyer.Paddle.KeyboardListener
import CwKeyer.Paddle.Reader

/-!
# The paddle input

The USB device and the keyboard listener as `GuiConnector` uses them:
`initConnector` and `connectDevice` fall back to the keyboard when
`UsbDevice::connectDevice` returns no device. What it returns is the
device it remembers, connected or not, and nothing turns the listener off
again but `disconnectDevice`. So one of the two inputs is active after a
call exactly when the remembered device and the listener happen to agree
with the outcome of the attempt (`one_input_iff`).
-/

namespace CwKeyer

/-- What becomes of the reader thread while `UsbDevice::connectDevice`
waits for it. -/
inductive Attempt where
  | claimed
  | failed
  | pending
deriving Repr, DecidableEq

/-- `m_device`, `m_keyboardListener` and whether the configuration has a
value at `"device-usb"`. -/
structure PaddleInput where
  device : UsbDevice
  listener : KeyboardListener := {}
  stored : Bool
deriving Repr, DecidableEq

/-- The operations, with whether the configuration file can be read or
written and what they find, and a step of the reader thread or of the
callback between them. -/
inductive InputAct where
  | initConnector (readable : Bool) (attempt : Attempt)
  | connectDevice (readable : Bool) (attempt : Attempt)
  | disconnectDevice
  | detectDevice (found : Bool) (written : Bool)
  | reader (a : UsbAct)
deriving Repr, DecidableEq

/-- The step of the reader thread that decides an attempt. -/
def UsbDevice.attempt (d : UsbDevice) : Attempt → Option UsbDevice
  | .claimed => usbDevice.step d (.claim true)
  | .failed => usbDevice.step d (.claim false)
  | .pending => some d

namespace PaddleInput

/-- A device is remembered, or stored where it can be read. -/
def knows (s : PaddleInput) (readable : Bool) : Bool :=
  s.device.detected || (s.stored && readable)

/-- `UsbDevice::connectDevice`: the device is read from the configuration
if none is remembered, and removed from it if it is not connected in the
end. Returns whether there is a device to return. -/
def connectUsb (s : PaddleInput) (readable : Bool) (attempt : Attempt) :
    Option (PaddleInput × Bool) := do
  let started ← usbDevice.step s.device (.connectDevice (s.stored && readable))
  let waits := s.knows readable && !s.device.connected
  let d ← (if waits then started.attempt attempt else some started)
  some ({ s with device := d, stored := s.stored && d.detected && d.connected }, d.detected)

def connectDevice (s : PaddleInput) (readable : Bool) (attempt : Attempt) :
    Option PaddleInput := do
  let (s, deviceDetected) ← s.connectUsb readable attempt
  some (if deviceDetected then s else { s with listener := s.listener.setEnabled true })

/-- The inputs are set as by `connectDevice`; what `initConnector` resets
besides is in none of them. -/
def initConnector (s : PaddleInput) (readable : Bool) (attempt : Attempt) :
    Option PaddleInput := do
  let (s, deviceConnected) ← s.connectUsb readable attempt
  some (if deviceConnected then s else { s with listener := s.listener.setEnabled true })

/-- Returns when the reader thread has been joined and the listener is
unhooked. -/
def disconnectDevice (s : PaddleInput) : Option PaddleInput := do
  let d ← (if s.device.connected then usbDevice.run s.device [.disconnectDevice, .leaveLoop, .join]
    else usbDevice.step s.device .disconnectDevice)
  some { s with device := d, listener := { s.listener.setEnabled false with hooked := false } }

/-- What is found is stored. -/
def detectDevice (s : PaddleInput) (found written : Bool) : Option PaddleInput := do
  let d ← usbDevice.step s.device (.detectDevice found)
  some { s with device := d, stored := if found then written else s.stored }

def step (s : PaddleInput) : InputAct → Option PaddleInput
  | .initConnector readable attempt => s.initConnector readable attempt
  | .connectDevice readable attempt => s.connectDevice readable attempt
  | .disconnectDevice => s.disconnectDevice
  | .detectDevice found written => s.detectDevice found written
  | .reader a =>
      if a.isCall then none
      else (usbDevice.step s.device a).map fun d => { s with device := d }

end PaddleInput

def paddleInput : Machine PaddleInput InputAct := ⟨PaddleInput.step⟩

/-! ## The property and its condition -/

/-- The call of a step that connects. -/
def InputAct.connects? : InputAct → Option (Bool × Attempt)
  | .initConnector readable attempt => some (readable, attempt)
  | .connectDevice readable attempt => some (readable, attempt)
  | _ => none

/-- When `initConnector` or `connectDevice` returns, one of the two inputs
is active and the other is not. -/
def OneInput (_ : PaddleInput) (a : InputAct) (s' : PaddleInput) : Prop :=
  a.connects? ≠ none → (s'.device.connected ^^ s'.listener.enabled) = true

/-- A known device is or gets connected with the listener off, or does not
with the listener on; without a known device, none is connected. -/
def InputsAgree (s : PaddleInput) (a : InputAct) (_ : PaddleInput) : Prop :=
  ∀ readable attempt, a.connects? = some (readable, attempt) →
    if s.knows readable then
      ((s.device.connected || attempt = .claimed) ^^ s.listener.enabled) = true
    else s.device.connected = false

instance (s : PaddleInput) (a : InputAct) (s' : PaddleInput) : Decidable (OneInput s a s') :=
  inferInstanceAs (Decidable (_ → _))

/-! ## Connecting -/

theorem usbDevice_connectDevice {d d' : UsbDevice} {stored : Bool}
    (h : usbDevice.step d (.connectDevice stored) = some d') :
    d' = { d with
      detected := d.detected || stored
      reader := if d.Assigns stored then .claiming else d.reader } := by
  obtain ⟨-, h⟩ := Option.ite_none_left_eq_some.mp h
  by_cases hassigns : d.Assigns stored
  · rw [UsbDevice.startReader, if_pos (by simpa [UsbDevice.Assigns] using hassigns)] at h
    obtain ⟨-, h⟩ := Option.ite_none_right_eq_some.mp h
    obtain rfl := Option.some.inj h
    simp [hassigns]
  · rw [UsbDevice.startReader, if_neg (by simpa [UsbDevice.Assigns] using hassigns)] at h
    obtain rfl := Option.some.inj h
    simp [hassigns]

namespace PaddleInput

/-- `UsbDevice::connectDevice` returns a device exactly if it knows one,
and only an attempt that claims the interface connects it. -/
theorem connectUsb_eq {s t : PaddleInput} {readable deviceDetected : Bool} {attempt : Attempt}
    (h : s.connectUsb readable attempt = some (t, deviceDetected)) :
    deviceDetected = s.knows readable ∧ t.listener = s.listener
      ∧ t.device.connected
        = (s.device.connected || s.knows readable && decide (attempt = .claimed)) := by
  obtain ⟨started, hstarted, h⟩ := Option.bind_eq_some_iff.mp h
  obtain ⟨d, hd, h⟩ := Option.bind_eq_some_iff.mp h
  obtain ⟨rfl, rfl⟩ := Prod.mk.inj (Option.some.inj h)
  obtain rfl := usbDevice_connectDevice hstarted
  by_cases hattempt : (s.knows readable && !s.device.connected) = true
  · rw [if_pos hattempt] at hd
    obtain ⟨hknows, hoff⟩ : s.knows readable = true ∧ s.device.connected = false := by
      simpa using hattempt
    cases attempt with
    | claimed =>
        obtain ⟨-, hd⟩ := Option.ite_none_right_eq_some.mp hd
        obtain rfl := Option.some.inj hd
        exact ⟨rfl, rfl, by simp [hknows]⟩
    | failed =>
        obtain ⟨-, hd⟩ := Option.ite_none_right_eq_some.mp hd
        obtain rfl := Option.some.inj hd
        exact ⟨rfl, rfl, by simp⟩
    | pending =>
        obtain rfl := Option.some.inj hd
        exact ⟨rfl, rfl, by simp⟩
  · rw [if_neg hattempt] at hd
    obtain rfl := Option.some.inj hd
    refine ⟨rfl, rfl, ?_⟩
    cases hknows : s.knows readable with
    | true =>
        have hon : s.device.connected = true := by simpa [hknows] using hattempt
        simp [hon]
    | false => simp

end PaddleInput

theorem KeyboardListener.enabled_setEnabled (l : KeyboardListener) (enabled : Bool) :
    (l.setEnabled enabled).enabled = enabled := by
  unfold KeyboardListener.setEnabled
  split_ifs with hsame henabled
  · exact hsame
  · exact henabled.symm
  · exact (by simpa using henabled : enabled = false).symm

/-- Both operations connect and fall back in the same way. -/
theorem connects_step {s s' : PaddleInput} {a : InputAct} {readable : Bool} {attempt : Attempt}
    (ha : a.connects? = some (readable, attempt)) (hstep : paddleInput.step s a = some s') :
    ∃ t, s.connectUsb readable attempt = some (t, s.knows readable)
      ∧ s' = if s.knows readable then t
        else { t with listener := t.listener.setEnabled true } := by
  have hconnect : (s.connectUsb readable attempt).bind (fun p =>
      some (if p.2 then p.1 else { p.1 with listener := p.1.listener.setEnabled true }))
        = some s' := by
    cases a with
    | initConnector r o =>
        obtain ⟨rfl, rfl⟩ := Prod.mk.inj (Option.some.inj ha)
        exact hstep
    | connectDevice r o =>
        obtain ⟨rfl, rfl⟩ := Prod.mk.inj (Option.some.inj ha)
        exact hstep
    | disconnectDevice => cases ha
    | detectDevice found written => cases ha
    | reader a => cases ha
  obtain ⟨⟨t, deviceDetected⟩, husb, heq⟩ := Option.bind_eq_some_iff.mp hconnect
  obtain ⟨rfl, -, -⟩ := PaddleInput.connectUsb_eq husb
  exact ⟨t, husb, (Option.some.inj heq).symm⟩

theorem oneInput_iff_agree {s s' : PaddleInput} {a : InputAct}
    (hstep : paddleInput.step s a = some s') : OneInput s a s' ↔ InputsAgree s a s' := by
  cases hconnects : a.connects? with
  | none => exact ⟨fun _ _ _ h => (by simp [hconnects] at h), fun _ h => absurd hconnects h⟩
  | some call =>
      obtain ⟨readable, attempt⟩ := call
      obtain ⟨t, husb, rfl⟩ := connects_step hconnects hstep
      obtain ⟨-, hlistener, hconnected⟩ := PaddleInput.connectUsb_eq husb
      have hone : OneInput s a (if s.knows readable then t
          else { t with listener := t.listener.setEnabled true })
            ↔ if s.knows readable then
                ((s.device.connected || attempt = .claimed) ^^ s.listener.enabled) = true
              else s.device.connected = false := by
        rw [OneInput, hconnects]
        cases hknows : s.knows readable with
        | true => simp [hknows, hlistener, hconnected]
        | false => simp [hknows, hconnected, KeyboardListener.enabled_setEnabled]
      rw [hone]
      constructor
      · intro hagree r o hcall
        obtain ⟨rfl, rfl⟩ := Prod.mk.inj (Option.some.inj (hconnects.symm.trans hcall))
        exact hagree
      · exact fun hagree => hagree readable attempt hconnects

/-- **One paddle input.** From any stored configuration and over any
history, exactly one input is active whenever `initConnector` or
`connectDevice` returns, exactly in the runs in which the known device,
the listener and the attempt agree at each of these calls. -/
theorem one_input_iff (n : Nat) (stored : Bool) (as : List InputAct) :
    paddleInput.Along OneInput { device := .init n, stored := stored } as
      ↔ paddleInput.Along InputsAgree { device := .init n, stored := stored } as :=
  Machine.along_congr (I := fun _ => True) (fun _ _ _ _ hstep => oneInput_iff_agree hstep)
    (fun _ _ _ _ _ _ => trivial) trivial

/-- Neither input is active after the interface of the stored device could
not be claimed, both are after a device has been detected and connected
while the keyboard stood in for it. -/
theorem no_input_and_both :
    (¬ ∀ n stored as, paddleInput.Along OneInput { device := .init n, stored := stored } as)
      ∧ ¬paddleInput.Along OneInput { device := .init 1, stored := true }
        [.initConnector true .failed]
      ∧ ¬paddleInput.Along OneInput { device := .init 1, stored := false }
        [.initConnector true .failed, .detectDevice true true, .connectDevice true .claimed] := by
  have hneither : ¬paddleInput.Along OneInput { device := .init 1, stored := true }
      [.initConnector true .failed] := by decide
  exact ⟨fun h => hneither (h 1 true _), hneither, by decide⟩

end CwKeyer
