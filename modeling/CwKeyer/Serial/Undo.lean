import CwKeyer.Serial.N1MMProxy

/-!
# `stop` and what `start` left open

`N1MMProxy::stop` clears `m_running` before it calls `SerialComm::stop`,
which looks at `m_running` to see whether there is anything to undo. So on
Linux the port stays open, and on Windows the worker stays unjoined, after
every `stop` of a started proxy: `stop` undoes `start` in the runs in
which no such `stop` returns (`stop_undoes_start_iff`).
-/

namespace CwKeyer

namespace N1MMProxy

/-- No port is open and no thread joinable. -/
structure Undone (p : N1MMProxy) : Prop where
  hSerial : p.comm.hSerial = none
  ports : p.comm.ports = []
  dsrThread : p.dsrThread = none
  worker : p.worker = false

instance (p : N1MMProxy) : Decidable p.Undone :=
  decidable_of_iff (p.comm.hSerial = none ∧ p.comm.ports = [] ∧ p.dsrThread = none ∧ p.worker = false)
    ⟨fun h => ⟨h.1, h.2.1, h.2.2.1, h.2.2.2⟩, fun h => ⟨h.hSerial, h.ports, h.dsrThread, h.worker⟩⟩

/-- When `stop` returns, `start` is undone; `start` has not assigned a
joinable thread or overwritten an open handle. -/
def UndoesStart (p : N1MMProxy) (a : N1MMAct) (p' : N1MMProxy) : Prop :=
  (p.stopReturns a = true → p'.Undone) ∧ p'.terminated = false ∧ p'.overwritten = false

instance (p : N1MMProxy) (a : N1MMAct) (p' : N1MMProxy) : Decidable (p.UndoesStart a p') :=
  inferInstanceAs (Decidable (_ ∧ _))

/-- The step is not the return of a `stop` that found `m_running` set. -/
def NotStopped (a : N1MMAct) : Bool := a ≠ .joined

/-- Until a `stop` of a started proxy returns, it is either undone or
holds on to what `start` has left open. -/
structure ProxyInv (platform : Platform) (p : N1MMProxy) : Prop where
  terminated : p.terminated = false
  overwritten : p.overwritten = false
  undone : p.comm.running = false → p.stopping = false → p.Undone ∧ p.stopSignal = false
  started : p.comm.running = true ∨ p.stopping = true → p.comm.hSerial.isSome = true ∧
    (platform = .windows → p.worker = true)
  stopping : p.stopping = true → p.comm.running = false

variable {platform : Platform} {p p' : N1MMProxy}

theorem proxyInv_init : ProxyInv platform {} :=
  ⟨rfl, rfl, fun _ _ => ⟨⟨rfl, rfl, rfl, rfl⟩, rfl⟩, nofun, nofun⟩

/-! ## A start from scratch -/

/-- What the `start` of `SerialComm` leaves open. -/
def opened (platform : Platform) (p : N1MMProxy) (n : Nat) : N1MMProxy :=
  { p with comm := ⟨some n, true, [(n, false)]⟩, worker := platform = .windows }

theorem Undone.comm (h : p.Undone) (hrunning : p.comm.running = false) : p.comm = {} := by
  have hcomm : p.comm = ⟨p.comm.hSerial, p.comm.running, p.comm.ports⟩ := rfl
  rw [hcomm, h.hSerial, hrunning, h.ports]

/-- It either fails and leaves nothing, or succeeds. -/
theorem baseStart_of_undone (h : p.Undone) (hrunning : p.comm.running = false) (o : StartOutcome) :
    p.baseStart platform o = (p, false) ∨ ∃ n, p.baseStart platform o = (p.opened platform n, true) := by
  obtain ⟨comm, worker⟩ := p
  obtain rfl : comm = {} := h.comm hrunning
  obtain rfl : worker = false := h.worker
  obtain ⟨fd, level, configured, signal⟩ := o
  cases fd with
  | none =>
      refine .inl ?_
      cases platform <;> simp [baseStart, closeOpen, openPort, SerialComm.openPort]
  | some n =>
      cases configured with
      | false =>
          refine .inl ?_
          cases platform <;>
            simp [baseStart, closeOpen, openPort, SerialComm.openPort, SerialComm.closePort,
              SerialComm.invalidate, Lines.opened, Lines.closed]
      | true =>
          refine .inr ⟨n, ?_⟩
          cases platform <;>
            simp [baseStart, closeOpen, openPort, SerialComm.openPort, SerialComm.setDtr, startWorker, opened,
              Lines.opened, Lines.drive]

/-- `SerialComm::stop` undoes it when it is called with `m_running` set. -/
theorem baseStop_opened (h : p.Undone) (hrunning : p.comm.running = false) (n : Nat) :
    (p.opened platform n).baseStop platform = p := by
  obtain ⟨comm, worker⟩ := p
  obtain rfl : comm = {} := h.comm hrunning
  obtain rfl : worker = false := h.worker
  cases platform <;>
    simp [baseStop, opened, SerialComm.stopLinux, SerialComm.stopWindows, SerialComm.release,
      SerialComm.setDtr, SerialComm.closePort, SerialComm.invalidate, Lines.drive, Lines.closed]

theorem start_of_undone (h : p.Undone) (hrunning : p.comm.running = false) (o : StartOutcome) :
    p.start platform o = p ∨
      ∃ n, p.start platform o = (p.opened platform n).startMonitor platform := by
  rcases @baseStart_of_undone platform p h hrunning o with hstart | ⟨n, hstart⟩
  · exact .inl (by simp [N1MMProxy.start, hstart])
  · by_cases hsignal : o.signal = true
    · exact .inr ⟨n, by simp [N1MMProxy.start, hstart, hsignal]⟩
    · exact .inl (by simp [N1MMProxy.start, hstart, hsignal, baseStop_opened h hrunning])

/-! ## Steps -/

theorem ProxyInv.start (h : ProxyInv platform p) (hstopping : p.stopping = false)
    (o : StartOutcome) : ProxyInv platform (p.start platform o) := by
  cases hrunning : p.comm.running with
  | true =>
      have hsame : p.start platform o = p := by simp [N1MMProxy.start, baseStart, hrunning]
      rwa [hsame]
  | false =>
      obtain ⟨hundone, hsignal⟩ := h.undone hrunning hstopping
      rcases start_of_undone hundone hrunning o with hsame | ⟨n, hstart⟩
      · rwa [hsame]
      · rw [hstart]
        refine ⟨?_, ?_, nofun, fun _ => ⟨rfl, fun hwindows => ?_⟩, ?_⟩
        · simp [startMonitor, opened, h.terminated, hundone.dsrThread]
        · simp [startMonitor, opened, h.overwritten, hsignal]
        · simp [startMonitor, opened, hwindows]
        · intro hstopping'
          exact absurd (hstopping'.symm.trans hstopping) (by decide)

/-- The monitor keeps to its own fields. -/
theorem monitorStep_frame {a : N1MMAct} (hstep : p.monitorStep platform a = some p') :
    p.dsrThread.isSome = true ∧ ∃ pc lastDsr log baseline, p' = { p with
      dsrThread := some pc, lastDsr := lastDsr, log := log, baseline := baseline } := by
  unfold monitorStep at hstep
  split at hstep
  case h_1 level hthread =>
    obtain rfl := Option.some.inj hstep
    exact ⟨by simp [hthread], _, _, p.log, _, rfl⟩
  case h_2 hthread =>
    obtain rfl := Option.some.inj hstep
    exact ⟨by simp [hthread], _, p.lastDsr, p.log, p.baseline, rfl⟩
  case h_3 event hthread =>
    obtain rfl := Option.some.inj hstep
    exact ⟨by simp [hthread], _, p.lastDsr, p.log, p.baseline, rfl⟩
  case h_4 hthread =>
    obtain rfl := Option.some.inj hstep
    exact ⟨by simp [hthread], _, p.lastDsr, p.log, p.baseline, rfl⟩
  case h_5 level hthread =>
    obtain rfl := Option.some.inj hstep
    refine ⟨by simp [hthread], .head, ?_⟩
    unfold read
    split
    · exact ⟨_, p.log, _, rfl⟩
    · split
      · exact ⟨p.lastDsr, p.log, p.baseline, rfl⟩
      · exact ⟨_, _, p.baseline, rfl⟩
  case h_6 => cases hstep

theorem ProxyInv.monitorStep (h : ProxyInv platform p) {a : N1MMAct}
    (hstep : p.monitorStep platform a = some p') : ProxyInv platform p' := by
  obtain ⟨hthread, pc, lastDsr, log, baseline, rfl⟩ := monitorStep_frame hstep
  refine ⟨h.terminated, h.overwritten, ?_, h.started, h.stopping⟩
  intro hrunning hstopping
  rw [(h.undone hrunning hstopping).1.dsrThread] at hthread
  cases hthread

/-- A `stop` that finds `m_running` set goes on to the join; another one
has nothing to undo. -/
theorem ProxyInv.stop (h : ProxyInv platform p) (hstopping : p.stopping = false) :
    ProxyInv platform (p.stop platform) ∧
      (p.comm.running = false → (p.stop platform).Undone) := by
  cases hrunning : p.comm.running with
  | true =>
      rw [N1MMProxy.stop, if_pos hrunning]
      refine ⟨⟨h.terminated, h.overwritten, nofun, fun _ => h.started (.inl hrunning), fun _ => rfl⟩, nofun⟩
  | false =>
      obtain ⟨hundone, hsignal⟩ := h.undone hrunning hstopping
      have hsame : p.stop platform = p := by
        obtain ⟨comm, worker⟩ := p
        obtain rfl : comm = {} := hundone.comm hrunning
        obtain rfl : worker = false := hundone.worker
        cases platform <;> simp [N1MMProxy.stop, baseStop, SerialComm.stopLinux, SerialComm.stopWindows]
      rw [hsame]
      exact ⟨h, fun _ => hundone⟩

/-- The `stop` of `SerialComm` finds `m_running` cleared. -/
theorem ProxyInv.not_undone_joined (h : ProxyInv platform p) (hstopping : p.stopping = true) :
    ¬ (p.joined platform).Undone := by
  obtain ⟨hserial, hworker⟩ := h.started (.inr hstopping)
  have hrunning := h.stopping hstopping
  intro hundone
  cases platform with
  | linux =>
      have hnone := hundone.hSerial
      simp [N1MMProxy.joined, baseStop, SerialComm.stopLinux, hrunning] at hnone
      simp [hnone] at hserial
  | windows =>
      have hjoined := hundone.worker
      simp [N1MMProxy.joined, baseStop, hrunning, hworker rfl] at hjoined

theorem undoesStart_iff {a : N1MMAct} (h : ProxyInv platform p)
    (hstep : (n1mmProxy platform).step p a = some p') :
    (p.UndoesStart a p' ↔ NotStopped a = true) ∧ (NotStopped a = true → ProxyInv platform p') := by
  obtain ⟨-, hstep⟩ := Option.ite_none_left_eq_some.mp hstep
  -- short of the return of a `stop` it is enough to keep the invariant
  have hkeeps (hinv : ProxyInv platform p') (hne : a ≠ .joined)
      (hundone : p.stopReturns a = true → p'.Undone) :
      (p.UndoesStart a p' ↔ NotStopped a = true) ∧ (NotStopped a = true → ProxyInv platform p') :=
    ⟨iff_of_true ⟨hundone, hinv.terminated, hinv.overwritten⟩ (by simpa [NotStopped] using hne),
      fun _ => hinv⟩
  cases a with
  | start o =>
      obtain ⟨⟨hstopping, -⟩, hstep⟩ := Option.ite_none_right_eq_some.mp hstep
      obtain rfl := Option.some.inj hstep
      exact hkeeps (h.start hstopping o) nofun nofun
  | stop =>
      obtain ⟨hstopping, hstep⟩ := Option.ite_none_right_eq_some.mp hstep
      obtain rfl := Option.some.inj hstep
      obtain ⟨hinv, hundone⟩ := h.stop hstopping
      exact hkeeps hinv nofun fun hreturns => hundone (by simpa [stopReturns] using hreturns)
  | joined =>
      obtain ⟨hjoin, hstep⟩ := Option.ite_none_right_eq_some.mp hstep
      obtain rfl := Option.some.inj hstep
      have hstopping : p.stopping = true := (Bool.and_eq_true_iff.mp hjoin).1
      refine ⟨iff_of_false (fun hundoes => ?_) (by simp [NotStopped]), fun h => by simp [NotStopped] at h⟩
      exact h.not_undone_joined hstopping (hundoes.1 rfl)
  | loop => exact hkeeps (h.monitorStep hstep) nofun nofun
  | wake event => exact hkeeps (h.monitorStep hstep) nofun nofun
  | sample level => exact hkeeps (h.monitorStep hstep) nofun nofun

end N1MMProxy

/-! ## Runs -/

/-- Every `stop` undoes its `start`, and every `start` finds nothing left,
exactly in the runs in which no `stop` of a started proxy returns. -/
theorem stop_undoes_start_iff (platform : Platform) (as : List N1MMAct) :
    (n1mmProxy platform).Along N1MMProxy.UndoesStart {} as ↔
      (n1mmProxy platform).Along (fun _ a _ => N1MMProxy.NotStopped a = true) {} as := by
  refine Machine.along_congr (I := N1MMProxy.ProxyInv platform) ?_ ?_ N1MMProxy.proxyInv_init
  · intro p a p' hinv hstep
    exact (N1MMProxy.undoesStart_iff hinv hstep).1
  · intro p a p' hinv hstopped hstep
    exact (N1MMProxy.undoesStart_iff hinv hstep).2 hstopped

/-- One `stop` leaves the port open on Linux, and on Windows the worker
joinable. -/
theorem stop_leaves_open :
    ¬ (n1mmProxy .linux).Along N1MMProxy.UndoesStart {}
      [.start ⟨some 3, false, true, true⟩, .stop, .loop, .joined] ∧
    ¬ (n1mmProxy .windows).Along N1MMProxy.UndoesStart {}
      [.start ⟨some 3, false, true, true⟩, .sample (some false), .stop, .loop, .joined] := by
  decide

end CwKeyer
