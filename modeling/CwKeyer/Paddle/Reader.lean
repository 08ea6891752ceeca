import CwKeyer.Paddle.UsbDevice

/-!
# The reader thread of `UsbDevice`

`connectDevice` assigns `m_threadTask`, and the destructor destroys it:
either terminates the program if the thread is still joinable. Only
`disconnectDevice` joins it, and only while `m_connected` is set, so a
thread whose attempt failed is never joined (`Doomed`). The thread is
never joinable there exactly in the runs without such an attempt
(`reader_joined_iff`).
-/

namespace CwKeyer

/-! ## The life of a device -/

/-- The device in use, after the last `disconnectDevice` in
`GuiConnector::quit`, deleted, or with a joinable thread assigned or
destroyed. -/
inductive DeviceLife where
  | running (d : UsbDevice)
  | closing (d : UsbDevice)
  | destroyed
  | terminated
deriving Repr, DecidableEq

/-- The operations, the steps of the reader thread and the callback
(`device`), and the two steps of `quit`. -/
inductive LifeAct where
  | initDevice (stored : Bool)
  | device (a : UsbAct)
  | close
  | destroy
deriving Repr, DecidableEq

/-- The step is a call of the GUI thread. -/
def UsbAct.isCall : UsbAct → Bool
  | .connectDevice _ => true
  | .detectDevice _ => true
  | .disconnectDevice => true
  | _ => false

/-- `connectDevice`, which knows a device if one has been detected or is
stored. -/
def UsbDevice.connectDevice (d : UsbDevice) (stored : Bool) : Option DeviceLife :=
  if d.joining then none
  else match ({ d with detected := d.detected || stored } : UsbDevice).startReader with
    | some d' => some (.running d')
    | none => some .terminated

/-- `initDevice`, which is `connectDevice` but for what it returns. -/
def UsbDevice.initDevice (d : UsbDevice) (stored : Bool) : Option DeviceLife :=
  d.connectDevice stored

def DeviceLife.step : DeviceLife → LifeAct → Option DeviceLife
  | .running d, .initDevice stored => d.initDevice stored
  | .running d, .device (.connectDevice stored) => d.connectDevice stored
  | .running d, .device a => (usbDevice.step d a).map .running
  | .running d, .close => (usbDevice.step d .disconnectDevice).map .closing
  | .closing d, .device a => if a.isCall then none else (usbDevice.step d a).map .closing
  | .closing d, .destroy =>
      if d.joining then none
      else if d.reader = .absent then some .destroyed
      else some .terminated
  | _, _ => none

def deviceLife : Machine DeviceLife LifeAct := ⟨DeviceLife.step⟩

/-! ## The property and its condition -/

/-- `connectDevice` assigns the thread. -/
def UsbDevice.Assigns (d : UsbDevice) (stored : Bool) : Prop :=
  (d.detected || stored) = true ∧ d.connected = false

instance (d : UsbDevice) (stored : Bool) : Decidable (d.Assigns stored) :=
  inferInstanceAs (Decidable (_ ∧ _))

/-- The thread is not joinable when it is assigned or destroyed. -/
def NotJoinable : DeviceLife → LifeAct → DeviceLife → Prop
  | .running d, .initDevice stored, _ => d.Assigns stored → d.reader = .absent
  | .running d, .device (.connectDevice stored), _ => d.Assigns stored → d.reader = .absent
  | .closing d, .destroy, _ => d.reader = .absent
  | _, _, _ => True

instance (s : DeviceLife) (a : LifeAct) (s' : DeviceLife) : Decidable (NotJoinable s a s') := by
  unfold NotJoinable
  split <;> infer_instance

/-- No attempt to connect fails, and none is undecided when the next one
is made or when the device is closed. -/
def AttemptsSucceed : DeviceLife → LifeAct → DeviceLife → Prop
  | .running d, .initDevice stored, _ => d.Assigns stored → d.reader ≠ .claiming
  | .running d, .device (.connectDevice stored), _ => d.Assigns stored → d.reader ≠ .claiming
  | .running _, .device (.claim ok), _ => ok = true
  | .running d, .close, _ => d.reader ≠ .claiming
  | _, _, _ => True

instance (s : DeviceLife) (a : LifeAct) (s' : DeviceLife) : Decidable (AttemptsSucceed s a s') := by
  unfold AttemptsSucceed
  split <;> infer_instance

/-! ## Steps -/

/-- What keeps the two guards of `connectDevice` and `disconnectDevice` in
step: a thread that is neither wanted nor pending has been joined. -/
structure UsbDevice.Paired (d : UsbDevice) : Prop where
  parted : d.joining = true → d.connected = false ∧ (d.reader = .looping ∨ d.reader = .returned)
  live : d.joining = false → d.connected = true ∧ d.reader = .looping
    ∨ d.connected = false ∧ (d.reader = .absent ∨ d.reader = .claiming)

def DeviceLife.Paired : DeviceLife → Prop
  | .running d => d.Paired
  | .closing d => d.Paired ∧ d.reader ≠ .claiming ∧ d.connected = false
  | .destroyed => True
  | .terminated => False

/-- The thread will not be joined any more. -/
def DeviceLife.Doomed : DeviceLife → Prop
  | .running d => d.joining = false ∧ d.connected = false ∧ d.reader = .returned
  | .closing d => d.joining = false ∧ d.reader ≠ .absent
  | .destroyed => False
  | .terminated => True

theorem UsbDevice.sendDitDah_frame (d : UsbDevice) (ditPressed dahPressed : Bool) :
    (d.sendDitDah ditPressed dahPressed).joining = d.joining
      ∧ (d.sendDitDah ditPressed dahPressed).connected = d.connected
      ∧ (d.sendDitDah ditPressed dahPressed).reader = d.reader := by
  unfold sendDitDah latchDit latchDah
  split_ifs <;> exact ⟨rfl, rfl, rfl⟩

theorem UsbDevice.cbInterrupt_frame (d : UsbDevice) (transfer : UsbTransfer) :
    (d.cbInterrupt transfer).joining = d.joining
      ∧ (d.cbInterrupt transfer).connected = d.connected
      ∧ (d.cbInterrupt transfer).reader = d.reader := by
  cases transfer with
  | completed b0 b2 b3 resubmitted => exact d.sendDitDah_frame _ _
  | timedOut resubmitted => exact ⟨rfl, rfl, rfl⟩
  | failed => exact ⟨rfl, rfl, rfl⟩

theorem connectDevice_cases {d : UsbDevice} {stored : Bool} {s' : DeviceLife}
    (h : d.connectDevice stored = some s') : d.joining = false ∧
      (¬d.Assigns stored ∧ s' = .running { d with detected := d.detected || stored }
        ∨ d.Assigns stored ∧ d.reader = .absent
          ∧ s' = .running { d with detected := d.detected || stored, reader := .claiming }
        ∨ d.Assigns stored ∧ d.reader ≠ .absent ∧ s' = .terminated) := by
  obtain ⟨hfree, h⟩ := Option.ite_none_left_eq_some.mp h
  refine ⟨by simpa using hfree, ?_⟩
  by_cases hassigns : d.Assigns stored
  · obtain ⟨hknown, hoff⟩ := hassigns
    simp only [UsbDevice.startReader, hknown, hoff] at h
    by_cases habsent : d.reader = .absent
    · simp only [habsent] at h
      exact .inr (.inl ⟨⟨hknown, hoff⟩, habsent, by simp [hknown, hoff, ← Option.some.inj h]⟩)
    · simp only [habsent] at h
      exact .inr (.inr ⟨⟨hknown, hoff⟩, habsent, (Option.some.inj h).symm⟩)
  · have hguard : ((d.detected || stored) && !d.connected) = false := by
      rw [UsbDevice.Assigns] at hassigns
      cases hconnected : d.connected <;> simp_all
    simp only [UsbDevice.startReader, hguard] at h
    exact .inl ⟨hassigns, (Option.some.inj h).symm⟩

theorem paired_connectDevice {d : UsbDevice} (h : d.Paired) {stored : Bool} {s' : DeviceLife}
    (hdecided : d.Assigns stored → d.reader ≠ .claiming)
    (hstep : d.connectDevice stored = some s') :
    s'.Paired ∧ (d.Assigns stored → d.reader = .absent) := by
  rcases connectDevice_cases hstep with
    ⟨hfree, ⟨hidle, rfl⟩ | ⟨hassigns, habsent, rfl⟩ | ⟨hassigns, hne, rfl⟩⟩
  · exact ⟨⟨h.parted, h.live⟩, fun hassigns => absurd hassigns hidle⟩
  · refine ⟨⟨fun hjoining => ?_, fun _ => .inr ⟨hassigns.2, .inr rfl⟩⟩, fun _ => habsent⟩
    exact absurd hjoining (by simp [hfree])
  · rcases h.live hfree with ⟨hon, -⟩ | ⟨-, habsent | hclaiming⟩
    · exact absurd hassigns.2 (by simp [hon])
    · exact absurd habsent hne
    · exact absurd hclaiming (hdecided hassigns)

/-- A step of the reader thread or of the callback. -/
theorem paired_device {d d' : UsbDevice} {a : UsbAct} (h : d.Paired) (hcall : a.isCall = false)
    (hok : a ≠ .claim false) (hstep : usbDevice.step d a = some d') :
    d'.Paired ∧ (d.reader ≠ .claiming → d'.reader ≠ .claiming)
      ∧ (d.reader ≠ .claiming → d'.connected = d.connected) := by
  cases a with
  | connectDevice stored => cases hcall
  | detectDevice found => cases hcall
  | disconnectDevice => cases hcall
  | join =>
      obtain ⟨hguard, ⟨⟩⟩ := Option.ite_none_right_eq_some.mp hstep
      obtain ⟨hjoining, -⟩ : d.joining = true ∧ d.reader = .returned := by simpa using hguard
      obtain ⟨hoff, -⟩ := h.parted hjoining
      exact ⟨⟨by simp, fun _ => .inr ⟨hoff, .inl rfl⟩⟩, by simp, fun _ => rfl⟩
  | claim ok =>
      obtain rfl : ok = true := by cases ok <;> simp_all
      obtain ⟨hclaiming, ⟨⟩⟩ := Option.ite_none_right_eq_some.mp hstep
      refine ⟨⟨fun hjoining => ?_, fun _ => .inl ⟨rfl, rfl⟩⟩, by simp,
        fun hne => absurd hclaiming hne⟩
      rcases (h.parted hjoining).2 with hreader | hreader <;> simp [hclaiming] at hreader
  | leaveLoop =>
      obtain ⟨hguard, ⟨⟩⟩ := Option.ite_none_right_eq_some.mp hstep
      obtain ⟨hlooping, hoff⟩ : d.reader = .looping ∧ d.connected = false := by simpa using hguard
      refine ⟨⟨fun _ => ⟨hoff, .inr rfl⟩, fun hfree => ?_⟩, by simp, fun _ => rfl⟩
      rcases h.live hfree with ⟨hon, -⟩ | ⟨-, hreader | hreader⟩
      · simp [hoff] at hon
      · simp [hlooping] at hreader
      · simp [hlooping] at hreader
  | interrupt transfer =>
      obtain ⟨-, ⟨⟩⟩ := Option.ite_none_right_eq_some.mp hstep
      obtain ⟨hjoining, hconnected, hreader⟩ := d.cbInterrupt_frame transfer
      exact ⟨⟨by rw [hjoining, hconnected, hreader]; exact h.parted,
        by rw [hjoining, hconnected, hreader]; exact h.live⟩, by rw [hreader]; exact id,
        fun _ => hconnected⟩

theorem paired_disconnectDevice {d d' : UsbDevice} (h : d.Paired)
    (hstep : usbDevice.step d .disconnectDevice = some d') :
    d'.Paired ∧ d'.connected = false ∧ d'.reader = d.reader := by
  obtain ⟨hbusy, hstep⟩ := Option.ite_none_left_eq_some.mp hstep
  have hfree : d.joining = false := by simpa using hbusy
  by_cases hon : d.connected = true
  · rw [if_pos hon] at hstep
    obtain rfl := Option.some.inj hstep
    rcases h.live hfree with ⟨-, hlooping⟩ | ⟨hoff, -⟩
    · exact ⟨⟨fun _ => ⟨rfl, .inl hlooping⟩, by simp⟩, rfl, rfl⟩
    · simp [hon] at hoff
  · rw [if_neg hon] at hstep
    obtain rfl := Option.some.inj hstep
    exact ⟨h, by simpa using hon, rfl⟩

theorem paired_step {s s' : DeviceLife} {a : LifeAct} (h : s.Paired)
    (hsucceed : AttemptsSucceed s a s') (hstep : deviceLife.step s a = some s') :
    s'.Paired ∧ NotJoinable s a s' := by
  cases s with
  | running d =>
      cases a with
      | initDevice stored => exact paired_connectDevice h hsucceed hstep
      | close =>
          obtain ⟨d', hdevice, rfl⟩ := Option.map_eq_some_iff.mp hstep
          obtain ⟨hpaired, hoff, hreader⟩ := paired_disconnectDevice h hdevice
          exact ⟨⟨hpaired, by rw [hreader]; exact hsucceed, hoff⟩, trivial⟩
      | destroy => cases hstep
      | device a =>
          cases a with
          | connectDevice stored => exact paired_connectDevice h hsucceed hstep
          | detectDevice found =>
              obtain ⟨d', hdevice, rfl⟩ := Option.map_eq_some_iff.mp hstep
              obtain ⟨-, ⟨⟩⟩ := Option.ite_none_left_eq_some.mp hdevice
              exact ⟨⟨h.parted, h.live⟩, trivial⟩
          | disconnectDevice =>
              obtain ⟨d', hdevice, rfl⟩ := Option.map_eq_some_iff.mp hstep
              exact ⟨(paired_disconnectDevice h hdevice).1, trivial⟩
          | claim ok =>
              obtain ⟨d', hdevice, rfl⟩ := Option.map_eq_some_iff.mp hstep
              obtain rfl : ok = true := hsucceed
              exact ⟨(paired_device h rfl (by simp) hdevice).1, trivial⟩
          | join | leaveLoop | interrupt _ =>
              obtain ⟨d', hdevice, rfl⟩ := Option.map_eq_some_iff.mp hstep
              exact ⟨(paired_device h rfl (by simp) hdevice).1, trivial⟩
  | closing d =>
      obtain ⟨hpaired, hdecided, hoff⟩ := h
      cases a with
      | initDevice stored => cases hstep
      | close => cases hstep
      | device a =>
          obtain ⟨hcall, hmap⟩ := Option.ite_none_left_eq_some.mp hstep
          obtain ⟨d', hdevice, rfl⟩ := Option.map_eq_some_iff.mp hmap
          have hok : a ≠ .claim false := by
            rintro rfl
            exact hdecided (Option.ite_none_right_eq_some.mp hdevice).1
          obtain ⟨hpaired', hreader, hconnected⟩ :=
            paired_device hpaired (by simpa using hcall) hok hdevice
          exact ⟨⟨hpaired', hreader hdecided, (hconnected hdecided).trans hoff⟩, trivial⟩
      | destroy =>
          obtain ⟨hbusy, hstep⟩ := Option.ite_none_left_eq_some.mp hstep
          have habsent : d.reader = .absent := by
            rcases hpaired.live (by simpa using hbusy) with ⟨hon, -⟩ | ⟨-, habsent | hclaiming⟩
            · simp [hoff] at hon
            · exact habsent
            · exact absurd hclaiming hdecided
          rw [if_pos habsent] at hstep
          obtain rfl := Option.some.inj hstep
          exact ⟨trivial, habsent⟩
  | destroyed => cases hstep
  | terminated => cases hstep

/-- An attempt over one that is pending terminates the program. -/
theorem doomed_of_pending {d : UsbDevice} {stored : Bool} {s' : DeviceLife}
    (hpending : ¬(d.Assigns stored → d.reader ≠ .claiming))
    (hstep : d.connectDevice stored = some s') : s'.Doomed := by
  obtain ⟨hassigns, hclaiming⟩ := Classical.not_imp.mp hpending
  rw [not_not] at hclaiming
  rcases connectDevice_cases hstep with ⟨-, ⟨hidle, -⟩ | ⟨-, habsent, -⟩ | ⟨-, -, rfl⟩⟩
  · exact absurd hassigns hidle
  · rw [hclaiming] at habsent
    cases habsent
  · trivial

/-- With nothing connected `disconnectDevice` changes nothing. -/
theorem disconnectDevice_of_off {d d' : UsbDevice} (hoff : d.connected = false)
    (hstep : usbDevice.step d .disconnectDevice = some d') : d' = d := by
  obtain ⟨-, hstep⟩ := Option.ite_none_left_eq_some.mp hstep
  rw [if_neg (by simp [hoff])] at hstep
  exact (Option.some.inj hstep).symm

/-- While an attempt is pending nothing is connected. -/
theorem off_of_claiming {d : UsbDevice} (h : (DeviceLife.running d).Paired)
    (hclaiming : d.reader = .claiming) : d.joining = false ∧ d.connected = false := by
  have hfree : d.joining = false := by
    by_contra hjoining
    rcases (h.parted (by simpa using hjoining)).2 with hreader | hreader <;>
      simp [hclaiming] at hreader
  rcases h.live hfree with ⟨-, hlooping⟩ | ⟨hoff, -⟩
  · rw [hclaiming] at hlooping
    cases hlooping
  · exact ⟨hfree, hoff⟩

theorem doomed_of_attempt {s s' : DeviceLife} {a : LifeAct} (h : s.Paired)
    (hfails : ¬AttemptsSucceed s a s') (hstep : deviceLife.step s a = some s') : s'.Doomed := by
  cases s with
  | running d =>
      cases a with
      | initDevice stored => exact doomed_of_pending hfails hstep
      | close =>
          have hclaiming : d.reader = .claiming := not_not.mp hfails
          obtain ⟨hfree, hoff⟩ := off_of_claiming h hclaiming
          obtain ⟨d', hdevice, rfl⟩ := Option.map_eq_some_iff.mp hstep
          obtain rfl := disconnectDevice_of_off hoff hdevice
          exact ⟨hfree, by simp [hclaiming]⟩
      | destroy => exact absurd trivial hfails
      | device a =>
          cases a with
          | connectDevice stored => exact doomed_of_pending hfails hstep
          | claim ok =>
              obtain rfl : ok = false := Bool.eq_false_iff.mpr hfails
              obtain ⟨d', hdevice, rfl⟩ := Option.map_eq_some_iff.mp hstep
              obtain ⟨hclaiming, hdevice⟩ := Option.ite_none_right_eq_some.mp hdevice
              obtain ⟨hfree, hoff⟩ := off_of_claiming h hclaiming
              obtain rfl := Option.some.inj hdevice
              exact ⟨hfree, hoff, rfl⟩
          | detectDevice _ | disconnectDevice | join | leaveLoop | interrupt _ =>
              exact absurd trivial hfails
  | closing d => exact absurd trivial (by cases a <;> exact hfails)
  | destroyed => cases hstep
  | terminated => cases hstep

/-- No step of the reader or of the callback joins a thread that is not
being waited for. -/
theorem doomed_device {d d' : UsbDevice} {a : UsbAct} (hcall : a.isCall = false)
    (hfree : d.joining = false) (hstep : usbDevice.step d a = some d') :
    d'.joining = false ∧ (d.reader ≠ .absent → d'.reader ≠ .absent)
      ∧ (d.reader = .returned → d'.reader = .returned ∧ d'.connected = d.connected) := by
  cases a with
  | connectDevice stored => cases hcall
  | detectDevice found => cases hcall
  | disconnectDevice => cases hcall
  | join =>
      obtain ⟨hguard, -⟩ := Option.ite_none_right_eq_some.mp hstep
      simp [hfree] at hguard
  | claim ok =>
      obtain ⟨hclaiming, hstep⟩ := Option.ite_none_right_eq_some.mp hstep
      cases ok <;> obtain rfl := Option.some.inj hstep
      · exact ⟨hfree, by simp, by simp [hclaiming]⟩
      · exact ⟨hfree, by simp, by simp [hclaiming]⟩
  | leaveLoop =>
      obtain ⟨hguard, ⟨⟩⟩ := Option.ite_none_right_eq_some.mp hstep
      obtain ⟨hlooping, -⟩ : d.reader = .looping ∧ d.connected = false := by simpa using hguard
      exact ⟨hfree, by simp, by simp [hlooping]⟩
  | interrupt transfer =>
      obtain ⟨-, ⟨⟩⟩ := Option.ite_none_right_eq_some.mp hstep
      obtain ⟨hjoining, hconnected, hreader⟩ := d.cbInterrupt_frame transfer
      exact ⟨hjoining.trans hfree, by rw [hreader]; exact id,
        fun hreturned => ⟨hreader.trans hreturned, hconnected⟩⟩

theorem doomed_connectDevice {d : UsbDevice} {stored : Bool} {s' : DeviceLife}
    (h : (DeviceLife.running d).Doomed) (hstep : d.connectDevice stored = some s') : s'.Doomed := by
  obtain ⟨hfree, hoff, hreturned⟩ := h
  rcases connectDevice_cases hstep with ⟨-, ⟨-, rfl⟩ | ⟨-, habsent, -⟩ | ⟨-, -, rfl⟩⟩
  · exact ⟨hfree, hoff, hreturned⟩
  · rw [hreturned] at habsent
    cases habsent
  · trivial

theorem doomed_step {s s' : DeviceLife} {a : LifeAct} (h : s.Doomed)
    (hstep : deviceLife.step s a = some s') : s'.Doomed := by
  cases s with
  | running d =>
      obtain ⟨hfree, hoff, hreturned⟩ := h
      cases a with
      | initDevice stored => exact doomed_connectDevice ⟨hfree, hoff, hreturned⟩ hstep
      | close =>
          obtain ⟨d', hdevice, rfl⟩ := Option.map_eq_some_iff.mp hstep
          obtain rfl := disconnectDevice_of_off hoff hdevice
          exact ⟨hfree, by simp [hreturned]⟩
      | destroy => cases hstep
      | device a =>
          cases a with
          | connectDevice stored => exact doomed_connectDevice ⟨hfree, hoff, hreturned⟩ hstep
          | detectDevice found =>
              obtain ⟨d', hdevice, rfl⟩ := Option.map_eq_some_iff.mp hstep
              obtain ⟨-, ⟨⟩⟩ := Option.ite_none_left_eq_some.mp hdevice
              exact ⟨hfree, hoff, hreturned⟩
          | disconnectDevice =>
              obtain ⟨d', hdevice, rfl⟩ := Option.map_eq_some_iff.mp hstep
              obtain rfl := disconnectDevice_of_off hoff hdevice
              exact ⟨hfree, hoff, hreturned⟩
          | join | claim _ | leaveLoop | interrupt _ =>
              obtain ⟨d', hdevice, rfl⟩ := Option.map_eq_some_iff.mp hstep
              obtain ⟨hfree', -, hkept⟩ := doomed_device rfl hfree hdevice
              obtain ⟨hreturned', hconnected⟩ := hkept hreturned
              exact ⟨hfree', hconnected.trans hoff, hreturned'⟩
  | closing d =>
      obtain ⟨hfree, hpresent⟩ := h
      cases a with
      | initDevice stored => cases hstep
      | close => cases hstep
      | device a =>
          obtain ⟨hcall, hmap⟩ := Option.ite_none_left_eq_some.mp hstep
          obtain ⟨d', hdevice, rfl⟩ := Option.map_eq_some_iff.mp hmap
          obtain ⟨hfree', hkept, -⟩ := doomed_device (by simpa using hcall) hfree hdevice
          exact ⟨hfree', hkept hpresent⟩
      | destroy =>
          obtain ⟨-, hstep⟩ := Option.ite_none_left_eq_some.mp hstep
          rw [if_neg hpresent] at hstep
          obtain rfl := Option.some.inj hstep
          trivial
  | destroyed => cases h
  | terminated => cases hstep

/-! ## Runs -/

theorem paired_init (n : Nat) : (DeviceLife.running (.init n)).Paired :=
  ⟨by simp [UsbDevice.init], fun _ => .inr ⟨rfl, .inl rfl⟩⟩

theorem not_terminated_connectDevice {d : UsbDevice} {stored : Bool} {s' : DeviceLife}
    (hfree : d.Assigns stored → d.reader = .absent) (hstep : d.connectDevice stored = some s') :
    s' ≠ .terminated := by
  rcases connectDevice_cases hstep with ⟨-, ⟨-, rfl⟩ | ⟨-, -, rfl⟩ | ⟨hassigns, hne, -⟩⟩
  · simp
  · simp
  · exact absurd (hfree hassigns) hne

/-- A run that meets the specification does not terminate the program. -/
theorem not_terminated_step {s s' : DeviceLife} {a : LifeAct} (h : NotJoinable s a s')
    (hstep : deviceLife.step s a = some s') : s' ≠ .terminated := by
  cases s with
  | running d =>
      cases a with
      | initDevice stored => exact not_terminated_connectDevice h hstep
      | destroy => cases hstep
      | close =>
          obtain ⟨d', -, rfl⟩ := Option.map_eq_some_iff.mp hstep
          simp
      | device a =>
          cases a with
          | connectDevice stored => exact not_terminated_connectDevice h hstep
          | detectDevice _ | disconnectDevice | join | claim _ | leaveLoop | interrupt _ =>
              obtain ⟨d', -, rfl⟩ := Option.map_eq_some_iff.mp hstep
              simp
  | closing d =>
      cases a with
      | initDevice stored => cases hstep
      | close => cases hstep
      | device a =>
          obtain ⟨-, hmap⟩ := Option.ite_none_left_eq_some.mp hstep
          obtain ⟨d', -, rfl⟩ := Option.map_eq_some_iff.mp hmap
          simp
      | destroy =>
          obtain ⟨-, hstep⟩ := Option.ite_none_left_eq_some.mp hstep
          have habsent : d.reader = .absent := h
          rw [if_pos habsent] at hstep
          obtain rfl := Option.some.inj hstep
          simp
  | destroyed => cases hstep
  | terminated => cases hstep

/-- **The reader thread.** In every run to the end, be it the destruction
of the device or the termination of the program, the thread is not
joinable whenever it is assigned or destroyed exactly if no attempt to
connect fails and none is undecided when the next is made or the device is
closed. -/
theorem reader_joined_iff {n : Nat} {as : List LifeAct} {s : DeviceLife}
    (hrun : deviceLife.run (.running (.init n)) as = some s)
    (hend : s = .destroyed ∨ s = .terminated) :
    deviceLife.Along NotJoinable (.running (.init n)) as
      ↔ deviceLife.Along AttemptsSucceed (.running (.init n)) as := by
  constructor
  · intro hjoined
    have hs : s ≠ .terminated :=
      Machine.run_invariant (I := fun s => s ≠ .terminated)
        (fun _ _ _ _ h hstep => not_terminated_step h hstep) (by simp) hjoined hrun
    obtain rfl := hend.resolve_right hs
    exact Machine.along_of_trap (I := DeviceLife.Paired) (D := DeviceLife.Doomed)
      (fun _ _ _ h hsucceed hstep => (paired_step h hsucceed hstep).1)
      (fun _ _ _ h hfails hstep => doomed_of_attempt h hfails hstep)
      (fun _ _ _ h hstep => doomed_step h hstep) (paired_init n) hrun id
  · exact Machine.along_of_invariant (I := DeviceLife.Paired)
      (fun _ _ _ h hsucceed hstep => paired_step h hsucceed hstep) (paired_init n)

/-- A connection, a disconnection and a reconnection, then the end. -/
def reconnected : List LifeAct :=
  [.initDevice true, .device (.claim true), .device .disconnectDevice, .device .leaveLoop,
    .device .join, .device (.connectDevice false), .device (.claim true), .close,
    .device .leaveLoop, .device .join, .destroy]

theorem reader_joined_reconnected :
    deviceLife.Along NotJoinable (.running (.init 1)) reconnected :=
  (@reader_joined_iff 1 reconnected .destroyed rfl (.inl rfl)).mpr (by decide)

/-- Another program has the interface of the stored adapter. -/
def interfaceBusy : List LifeAct := [.initDevice true, .device (.claim false), .close, .destroy]

/-- The thread of the attempt that failed is still joinable when the
device is deleted. -/
theorem reader_destroyed_joinable :
    deviceLife.run (.running (.init 1)) interfaceBusy = some .terminated
      ∧ ¬deviceLife.Along NotJoinable (.running (.init 1)) interfaceBusy := by
  decide

end CwKeyer
