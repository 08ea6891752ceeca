import CwKeyer.Paddle.UsbDevice

/-!
# Reports and listeners

What the listeners of `UsbDevice` have been called with after any sequence
of reports. A report sends the changes of the two latches to every
listener (`sendDitDah_eq`), so those that were there before the first
report have all heard the same calls, and these follow the state that the
decoding table of the README assigns to the last report
(`reports_mirrored`). Neither a disconnect nor a reconnect resets the
latches, which is why the calls keep alternating over them.
-/

namespace CwKeyer

/-! ## The decoding table -/

/-- The rows of the table: a condition on the bytes of the report, and the
paddles that are down, dit first. -/
def decodingTable : List ((UInt8 → UInt8 → UInt8 → Bool) × (Bool × Bool)) :=
  [(fun b0 b2 b3 => decide (b0 = clickBoth ∨ (0 < b2 ∧ 0 < b3)), (true, true)),
    (fun b0 b2 _ => decide (b0 = clickLeft ∨ 0 < b2), (true, false)),
    (fun b0 _ b3 => decide (b0 = clickRight ∨ 0 < b3), (false, true))]

/-- The first row whose condition holds decides; with none of them both
paddles are released. -/
def documented (b0 b2 b3 : UInt8) : Bool × Bool :=
  ((decodingTable.find? fun row => row.1 b0 b2 b3).map Prod.snd).getD (false, false)

theorem reported_eq_documented (b0 b2 b3 : UInt8) : reported b0 b2 b3 = documented b0 b2 b3 := by
  simp only [documented, decodingTable, List.find?_cons, List.find?_nil]
  by_cases hboth : b0 = clickBoth ∨ (0 < b2 ∧ 0 < b3)
  · rw [decide_eq_true hboth]
    simp [reported, hboth]
  · rw [decide_eq_false hboth]
    by_cases hleft : b0 = clickLeft ∨ 0 < b2
    · rw [decide_eq_true hleft]
      simp [reported, hboth, hleft]
    · rw [decide_eq_false hleft]
      by_cases hright : b0 = clickRight ∨ 0 < b3
      · rw [decide_eq_true hright]
        simp [reported, hboth, hleft, hright]
      · rw [decide_eq_false hright]
        simp [reported, hboth, hleft, hright]

/-! ## What a report sends -/

theorem latchDit_eq (d : UsbDevice) (ditPressed : Bool) :
    ∃ calls, d.latchDit ditPressed
        = { d with dit := ditPressed, listeners := d.listeners.map (· ++ calls) }
      ∧ ∀ dah log, Mirrors d.dit dah log → Mirrors ditPressed dah (log ++ calls) := by
  by_cases hsame : d.dit = ditPressed
  · subst hsame
    refine ⟨[], ?_, fun dah log h => by simpa using h⟩
    simp [UsbDevice.latchDit]
  · obtain rfl : ditPressed = !d.dit := by
      cases ditPressed <;> cases hdit : d.dit <;> simp_all
    refine ⟨[.onDit !d.dit], ?_, fun dah log h => h.onDit⟩
    cases hdit : d.dit <;> simp [UsbDevice.latchDit, UsbDevice.sendDit, hdit]

theorem latchDah_eq (d : UsbDevice) (dahPressed : Bool) :
    ∃ calls, d.latchDah dahPressed
        = { d with dah := dahPressed, listeners := d.listeners.map (· ++ calls) }
      ∧ ∀ dit log, Mirrors dit d.dah log → Mirrors dit dahPressed (log ++ calls) := by
  by_cases hsame : d.dah = dahPressed
  · subst hsame
    refine ⟨[], ?_, fun dit log h => by simpa using h⟩
    simp [UsbDevice.latchDah]
  · obtain rfl : dahPressed = !d.dah := by
      cases dahPressed <;> cases hdah : d.dah <;> simp_all
    refine ⟨[.onDah !d.dah], ?_, fun dit log h => h.onDah⟩
    cases hdah : d.dah <;> simp [UsbDevice.latchDah, UsbDevice.sendDah, hdah]

/-- Every listener gets the same calls, and the latches are the report's. -/
theorem sendDitDah_eq (d : UsbDevice) (ditPressed dahPressed : Bool) :
    ∃ calls, d.sendDitDah ditPressed dahPressed
        = { d with
            dit := ditPressed
            dah := dahPressed
            listeners := d.listeners.map (· ++ calls) }
      ∧ ∀ log, Mirrors d.dit d.dah log → Mirrors ditPressed dahPressed (log ++ calls) := by
  obtain ⟨ditCalls, hdit, hditMirrors⟩ := latchDit_eq d ditPressed
  obtain ⟨dahCalls, hdah, hdahMirrors⟩ := latchDah_eq (d.latchDit ditPressed) dahPressed
  refine ⟨ditCalls ++ dahCalls, ?_, ?_⟩
  · rw [UsbDevice.sendDitDah, hdah, hdit]
    simp
  · intro log h
    rw [hdit] at hdahMirrors
    rw [← List.append_assoc]
    exact hdahMirrors _ _ (hditMirrors _ _ h)

/-! ## Runs -/

/-- What happens to a device: a listener is added, libusb runs the callback
on a transfer, whatever the reader is doing, or another step. -/
inductive ReportAct where
  | addDitDah
  | cbInterrupt (transfer : UsbTransfer)
  | device (a : UsbAct)
deriving Repr, DecidableEq

def UsbDevice.reportStep (d : UsbDevice) : ReportAct → Option UsbDevice
  | .addDitDah => some { d with listeners := d.listeners ++ [[]] }
  | .cbInterrupt transfer => some (d.cbInterrupt transfer)
  | .device a => usbDevice.step d a

def usbReports : Machine UsbDevice ReportAct := ⟨UsbDevice.reportStep⟩

/-- `UsbDevice()`. -/
def UsbDevice.unheard : UsbDevice := { listeners := [] }

def ReportAct.report? : ReportAct → Option (UInt8 × UInt8 × UInt8)
  | .cbInterrupt (.completed b0 b2 b3 _) => some (b0, b2, b3)
  | .device (.interrupt (.completed b0 b2 b3 _)) => some (b0, b2, b3)
  | _ => none

/-- The completed reports of a run. -/
def reports (as : List ReportAct) : List (UInt8 × UInt8 × UInt8) := as.filterMap ReportAct.report?

/-- The paddles according to the last report; released if there is none. -/
def paddlesAfter (reports : List (UInt8 × UInt8 × UInt8)) : Bool × Bool :=
  (reports.getLast?.map fun (b0, b2, b3) => documented b0 b2 b3).getD (false, false)

theorem paddlesAfter_snoc (rs : List (UInt8 × UInt8 × UInt8)) (b0 b2 b3 : UInt8) :
    paddlesAfter (rs ++ [(b0, b2, b3)]) = documented b0 b2 b3 := by
  simp [paddlesAfter]

theorem reports_snoc (as : List ReportAct) (a : ReportAct) :
    reports (as ++ [a]) = reports as ++ a.report?.toList := by
  cases h : a.report? <;> simp [reports, h]

/-- The first `n` listeners have heard the same calls, and these say where
the paddles of the last report are. -/
structure Heard (n : Nat) (as : List ReportAct) (d : UsbDevice) (log : List PaddleEvent) :
    Prop where
  same : d.listeners.take n = List.replicate n log
  latched : (d.dit, d.dah) = paddlesAfter (reports as)
  mirrors : Mirrors d.dit d.dah log

theorem Heard.report {n : Nat} {as : List ReportAct} {d : UsbDevice} {log : List PaddleEvent}
    (h : Heard n as d log) {a : ReportAct} {b0 b2 b3 : UInt8} (ha : a.report? = some (b0, b2, b3))
    (resubmitted : Bool) :
    ∃ log', Heard n (as ++ [a]) (d.cbInterrupt (.completed b0 b2 b3 resubmitted)) log' := by
  obtain ⟨calls, heq, hmirrors⟩ :=
    sendDitDah_eq d (reported b0 b2 b3).1 (reported b0 b2 b3).2
  refine ⟨log ++ calls, ?_, ?_, ?_⟩
  · simp [UsbDevice.cbInterrupt, heq, ← List.map_take, h.same]
  · rw [reports_snoc, ha, Option.toList_some, paddlesAfter_snoc, ← reported_eq_documented]
    simp [UsbDevice.cbInterrupt, heq]
  · simpa [UsbDevice.cbInterrupt, heq] using hmirrors log h.mirrors

theorem Heard.quiet {n : Nat} {as : List ReportAct} {d d' : UsbDevice} {log : List PaddleEvent}
    (h : Heard n as d log) {a : ReportAct} (ha : a.report? = none) (hquiet : UsbQuiet d d') :
    Heard n (as ++ [a]) d' log := by
  obtain ⟨hdit, hdah, hlisteners⟩ := hquiet
  refine ⟨by rw [hlisteners]; exact h.same, ?_, by rw [hdit, hdah]; exact h.mirrors⟩
  rw [hdit, hdah, reports_snoc, ha, Option.toList_none, List.append_nil]
  exact h.latched

theorem Heard.cbInterrupt {n : Nat} {as : List ReportAct} {d : UsbDevice}
    {log : List PaddleEvent} (h : Heard n as d log) {a : ReportAct} {transfer : UsbTransfer}
    (ha : a = .cbInterrupt transfer ∨ a = .device (.interrupt transfer)) :
    ∃ log', Heard n (as ++ [a]) (d.cbInterrupt transfer) log' := by
  cases transfer with
  | completed b0 b2 b3 resubmitted =>
      exact h.report (by rcases ha with rfl | rfl <;> rfl) resubmitted
  | timedOut resubmitted =>
      exact ⟨log, h.quiet (by rcases ha with rfl | rfl <;> rfl) ⟨rfl, rfl, rfl⟩⟩
  | failed => exact ⟨log, h.quiet (by rcases ha with rfl | rfl <;> rfl) ⟨rfl, rfl, rfl⟩⟩

theorem Heard.step {n : Nat} {as : List ReportAct} {d d' : UsbDevice} {log : List PaddleEvent}
    {a : ReportAct} (h : Heard n as d log) (hstep : usbReports.step d a = some d') :
    ∃ log', Heard n (as ++ [a]) d' log' := by
  cases a with
  | addDitDah =>
      obtain rfl := Option.some.inj hstep
      have hlength : n ≤ d.listeners.length := by
        have := congrArg List.length h.same
        rw [List.length_take, List.length_replicate] at this
        omega
      refine ⟨log, ?_, by simpa [reports_snoc, ReportAct.report?] using h.latched, h.mirrors⟩
      rw [List.take_append_of_le_length hlength]
      exact h.same
  | cbInterrupt transfer =>
      obtain rfl := Option.some.inj hstep
      exact h.cbInterrupt (.inl rfl)
  | device a =>
      have hdevice : usbDevice.step d a = some d' := hstep
      cases a with
      | interrupt transfer =>
          obtain ⟨-, ⟨⟩⟩ := Option.ite_none_right_eq_some.mp hdevice
          exact h.cbInterrupt (.inr rfl)
      | connectDevice _ | detectDevice _ | disconnectDevice | join | claim _ | leaveLoop =>
          rcases usbDevice_step hdevice with ⟨_, _, _, _, hreport, -⟩ | hquiet
          · cases hreport
          · exact ⟨log, h.quiet rfl hquiet⟩

/-- Before the first report no listener has heard anything. -/
structure Unreported (d : UsbDevice) : Prop where
  released : d.dit = false ∧ d.dah = false
  silent : ∀ log ∈ d.listeners, log = []

theorem unreported_step {d d' : UsbDevice} {a : ReportAct} (h : Unreported d)
    (ha : a.report? = none) (hstep : usbReports.step d a = some d') : Unreported d' := by
  have hquiet : UsbQuiet d d' → Unreported d' := by
    rintro ⟨hdit, hdah, hlisteners⟩
    exact ⟨by rw [hdit, hdah]; exact h.released, by rw [hlisteners]; exact h.silent⟩
  cases a with
  | addDitDah =>
      obtain rfl := Option.some.inj hstep
      refine ⟨h.released, ?_⟩
      intro log hlog
      rcases List.mem_append.mp hlog with hold | hnew
      · exact h.silent log hold
      · exact List.mem_singleton.mp hnew
  | cbInterrupt transfer =>
      obtain rfl := Option.some.inj hstep
      cases transfer with
      | completed b0 b2 b3 resubmitted => cases ha
      | timedOut resubmitted => exact hquiet ⟨rfl, rfl, rfl⟩
      | failed => exact hquiet ⟨rfl, rfl, rfl⟩
  | device a =>
      rcases usbDevice_step hstep with ⟨_, _, _, _, rfl, -⟩ | hdevice
      · cases ha
      · exact hquiet hdevice

theorem unreported_of_run {before : List ReportAct} {d : UsbDevice} (hnone : reports before = [])
    (h : usbReports.run .unheard before = some d) : Unreported d := by
  have hall : ∀ a ∈ before, a.report? = none := by simpa [reports] using hnone
  exact Machine.run_invariant (P := fun _ a _ => a.report? = none)
    (fun _ _ _ hI ha hstep => unreported_step hI ha hstep)
    ⟨⟨rfl, rfl⟩, by simp [UsbDevice.unheard]⟩ (Machine.Along.of_forall hall) h

/-- **USB reports are mirrored exactly.** After any sequence of reports,
over any disconnects and reconnects, the listeners that were there before
the first one have all been called alike: for each paddle alternately with
`true` and `false`, `true` first, and last with what the table assigns to
the last report. -/
theorem reports_mirrored {before as : List ReportAct} {d d' : UsbDevice}
    (hbefore : usbReports.run .unheard before = some d) (hnone : reports before = [])
    (hrun : usbReports.run d as = some d') :
    ∃ log, d'.listeners.take d.listeners.length = List.replicate d.listeners.length log
      ∧ Follows (paddlesAfter (reports as)).1 (ditEdges log)
      ∧ Follows (paddlesAfter (reports as)).2 (dahEdges log) := by
  obtain ⟨⟨hdit, hdah⟩, hsilent⟩ := unreported_of_run hnone hbefore
  have hinit : Heard d.listeners.length [] d [] := by
    refine ⟨?_, by rw [hdit, hdah]; rfl, by rw [hdit, hdah]; exact mirrors_nil⟩
    rw [List.take_length]
    exact List.eq_replicate_iff.mpr ⟨rfl, hsilent⟩
  obtain ⟨log, hlog⟩ := Machine.run_rec
    (C := fun as d' => ∃ log, Heard d.listeners.length as d' log) ⟨[], hinit⟩
    (fun _ _ _ _ ⟨_, h⟩ hstep => h.step hstep) hrun
  refine ⟨log, hlog.same, ?_⟩
  rw [← hlog.latched]
  exact ⟨hlog.mirrors.dit, hlog.mirrors.dah⟩

/-- Both paddles, then the dah alone, with a reconnect in between. -/
def chordAndReconnect : List ReportAct :=
  [.device (.connectDevice true), .device (.claim true), .cbInterrupt (.completed 3 0 0 true),
    .device .disconnectDevice, .device .leaveLoop, .device .join,
    .device (.connectDevice true), .device (.claim true), .cbInterrupt (.completed 0 0 7 true)]

theorem reports_mirrored_chord :
    ∃ d', usbReports.run { listeners := [[], []] } chordAndReconnect = some d'
      ∧ ∃ log, d'.listeners.take 2 = [log, log]
        ∧ Follows false (ditEdges log) ∧ Follows true (dahEdges log) := by
  refine ⟨_, rfl, ?_⟩
  exact @reports_mirrored [.addDitDah, .addDitDah] chordAndReconnect _ _ rfl rfl rfl

end CwKeyer
