import CwKeyer.Edges
import CwKeyer.Serial.Undo

/-!
# The straight key on DSR

The monitor reports the edges of DSR against its first reading of the
session, and on its way out reports nothing. So a session that starts with
DSR high reports a release without a press as soon as DSR falls, and one
that ends with DSR high after a press leaves the key down: presses and
releases match exactly in the runs in which every session reads DSR low
first and last, or high throughout (`stop_releases_key_iff`).
-/

namespace CwKeyer

namespace N1MMProxy

/-- The listener has been told of presses and releases in turn, and of a
release last when `stop` returns. -/
def KeysInPairs (p : N1MMProxy) (a : N1MMAct) (p' : N1MMProxy) : Prop :=
  Follows (levelAfter p'.log) p'.log ∧ (p.stopReturns a = true → levelAfter p'.log = false)

/-- DSR is not read low in a session that has read it high first, nor is
it high at the end of one that has read it low first. -/
def LowOrHigh (p : N1MMProxy) : N1MMAct → Bool
  | .sample (some level) => p.dsrThread ≠ some .sampling || p.baseline ≠ some true || level
  | .joined => p.baseline ≠ some false || p.lastDsr = some false
  | _ => true

/-- The last edge reported is where DSR was read last, unless the session
started high. -/
structure KeyInv (p : N1MMProxy) : Prop where
  follows : Follows (levelAfter p.log) p.log
  session : p.terminated = false → p.dsrThread.isSome = (p.comm.running || p.stopping)
  stopping : p.stopping = true → p.comm.running = false
  outside : p.dsrThread = none → levelAfter p.log = false
  entry : p.dsrThread = some .entry → p.baseline = none
  unread : p.baseline = none → p.lastDsr = none ∧ levelAfter p.log = false
  high : p.baseline = some true → p.lastDsr = some true ∧ levelAfter p.log = false
  low : p.baseline = some false → p.lastDsr = some (levelAfter p.log)

variable {platform : Platform} {p p' : N1MMProxy}

theorem keyInv_init : KeyInv {} :=
  ⟨follows_nil, fun _ => rfl, nofun, fun _ => rfl, nofun, fun _ => ⟨rfl, rfl⟩, nofun, nofun⟩

/-! ## `start` and `stop` leave the reports alone -/

theorem baseStop_frame (platform : Platform) (p : N1MMProxy) : ∃ comm worker,
    p.baseStop platform = { p with comm := comm, worker := worker } ∧
      (comm.running = true → p.comm.running = true) ∧
      (p.comm.hSerial.isSome = true → comm.running = false) := by
  cases platform with
  | linux =>
      refine ⟨_, p.worker, rfl, ?_, ?_⟩
      · intro hrunning
        unfold SerialComm.stopLinux at hrunning
        split at hrunning
        · cases hrunning
        · exact hrunning
      · intro hopen
        unfold SerialComm.stopLinux
        cases hrunning : p.comm.running <;> simp [hopen, hrunning]
  | windows =>
      have hclear : p.comm.stopWindows.running = false := by
        simp only [SerialComm.stopWindows]
        split <;> rfl
      refine ⟨_, _, rfl, ?_, fun _ => hclear⟩
      intro hrunning
      rw [hclear] at hrunning
      cases hrunning

/-- A `stop` of the base class leaves `m_running` clear. -/
theorem baseStop_clear (platform : Platform) (p : N1MMProxy) (hrunning : p.comm.running = false) :
    ∃ comm worker, p.baseStop platform = { p with comm := comm, worker := worker } ∧
      comm.running = false := by
  obtain ⟨comm, worker, hstop, hset, -⟩ := baseStop_frame platform p
  refine ⟨comm, worker, hstop, ?_⟩
  by_contra hne
  have hwas := hset (by simpa using hne)
  rw [hrunning] at hwas
  cases hwas

theorem closeOpen_frame (platform : Platform) (p : N1MMProxy) (hrunning : p.comm.running = false) :
    ∃ comm worker, p.closeOpen platform = { p with comm := comm, worker := worker } ∧
      comm.running = false := by
  unfold closeOpen
  split
  · exact baseStop_clear platform p hrunning
  · exact ⟨p.comm, p.worker, rfl, hrunning⟩

/-- It succeeds only when `m_running` was clear, and sets it; when it fails
`m_running` is as it was. -/
theorem baseStart_frame (platform : Platform) (p : N1MMProxy) (o : StartOutcome) :
    ∃ comm worker terminated overwritten started,
      p.baseStart platform o = ({ p with
        comm := comm, worker := worker, terminated := terminated, overwritten := overwritten },
        started) ∧
      if started then
        p.comm.running = false ∧ comm.running = true ∧ comm.hSerial.isSome = true
      else comm.running = p.comm.running := by
  by_cases hrunning : p.comm.running = true
  · exact ⟨p.comm, p.worker, p.terminated, p.overwritten, false, by simp [baseStart, hrunning], rfl⟩
  · have hfalse : p.comm.running = false := Bool.eq_false_iff.mpr hrunning
    obtain ⟨comm, worker, hclose, hclear⟩ := p.closeOpen_frame platform hfalse
    unfold baseStart
    rw [if_neg hrunning, hclose]
    obtain ⟨fd, level, configured, signal⟩ := o
    cases fd with
    | none =>
        refine ⟨_, worker, p.terminated, _, false, rfl, ?_⟩
        show comm.running = p.comm.running
        rw [hclear, hfalse]
    | some n =>
        cases configured with
        | false =>
            refine ⟨_, worker, p.terminated, _, false, rfl, ?_⟩
            show comm.running = p.comm.running
            rw [hclear, hfalse]
        | true =>
            cases platform with
            | linux => exact ⟨_, worker, p.terminated, _, true, rfl, hfalse, rfl, rfl⟩
            | windows => exact ⟨_, true, _, _, true, rfl, hfalse, rfl, rfl⟩

/-- A `start` either leaves the monitor and `m_running` alone, or finds it
clear, sets it and starts a monitor that has read nothing. -/
theorem start_frame (platform : Platform) (p : N1MMProxy) (o : StartOutcome) :
    ∃ comm worker terminated overwritten,
      (p.start platform o = { p with
          comm := comm, worker := worker, terminated := terminated, overwritten := overwritten } ∧
        comm.running = p.comm.running) ∨
      (p.start platform o = { p with
          comm := comm, worker := worker, terminated := terminated,
          overwritten := overwritten }.startMonitor platform ∧
        p.comm.running = false ∧ comm.running = true) := by
  obtain ⟨comm, worker, terminated, overwritten, started, hstart, hcomm⟩ := p.baseStart_frame platform o
  cases started with
  | false => exact ⟨comm, worker, terminated, overwritten, .inl ⟨by simp [N1MMProxy.start, hstart], hcomm⟩⟩
  | true =>
      obtain ⟨hclear, hrunning, hopen⟩ := hcomm
      by_cases hsignal : o.signal = true
      · exact ⟨comm, worker, terminated, overwritten,
          .inr ⟨by simp [N1MMProxy.start, hstart, hsignal], hclear, hrunning⟩⟩
      · obtain ⟨comm', worker', hstop, -, hstopped⟩ := baseStop_frame platform
          { p with
            comm := comm, worker := worker, terminated := terminated, overwritten := overwritten }
        refine ⟨comm', worker', terminated, overwritten, .inl ⟨?_, ?_⟩⟩
        · simp [N1MMProxy.start, hstart, hsignal, hstop]
        · rw [hstopped hopen, hclear]

/-! ## Steps -/

/-- Outside a session nothing is reported as down. -/
theorem KeyInv.released (h : KeyInv p) (halive : p.terminated = false)
    (hrunning : p.comm.running = false) (hstopping : p.stopping = false) :
    p.dsrThread = none ∧ levelAfter p.log = false := by
  have hnone : p.dsrThread = none := by
    have hsession := h.session halive
    rw [hrunning, hstopping] at hsession
    simpa using hsession
  exact ⟨hnone, h.outside hnone⟩

theorem KeyInv.start (h : KeyInv p) (platform : Platform) (halive : p.terminated = false)
    (hstopping : p.stopping = false) (o : StartOutcome) : KeyInv (p.start platform o) := by
  obtain ⟨comm, worker, terminated, overwritten,
    ⟨hstart, hsame⟩ | ⟨hstart, hclear, hrunning⟩⟩ := start_frame platform p o
  · rw [hstart]
    refine ⟨h.follows, ?_, ?_, h.outside, h.entry, h.unread, h.high, h.low⟩
    · intro _
      rw [h.session halive, hsame]
    · intro hstop
      exact absurd (hstop.symm.trans hstopping) (by decide)
  · obtain ⟨-, hlow⟩ := h.released halive hclear hstopping
    rw [hstart]
    refine ⟨h.follows, fun _ => ?_, fun hstop => ?_, nofun, fun _ => rfl, fun _ => ⟨rfl, hlow⟩,
      nofun, nofun⟩
    · simp [startMonitor, hrunning]
    · exact absurd (hstop.symm.trans hstopping) (by decide)

theorem KeyInv.stop (h : KeyInv p) (platform : Platform) (halive : p.terminated = false) :
    KeyInv (p.stop platform) ∧ (p.stop platform).log = p.log := by
  cases hrunning : p.comm.running with
  | true =>
      rw [N1MMProxy.stop, if_pos hrunning]
      refine ⟨⟨h.follows, fun _ => ?_, fun _ => rfl, h.outside, h.entry, h.unread, h.high, h.low⟩, rfl⟩
      simp [h.session halive, hrunning]
  | false =>
      obtain ⟨comm, worker, hstop, hclear⟩ := baseStop_clear platform p hrunning
      rw [N1MMProxy.stop, if_neg (by simp [hrunning]), hstop]
      refine ⟨⟨h.follows, fun _ => ?_, fun _ => hclear, h.outside, h.entry, h.unread, h.high,
        h.low⟩, rfl⟩
      rw [h.session halive, hrunning, hclear]

/-- When the monitor is joined the key is up exactly if DSR was high
throughout the session or low at its end. -/
theorem KeyInv.joined (h : KeyInv p) (platform : Platform) (hstopping : p.stopping = true) :
    (levelAfter p.log = false ↔ p.LowOrHigh .joined = true) ∧
      (p.LowOrHigh .joined = true → KeyInv (p.joined platform)) := by
  have hiff : levelAfter p.log = false ↔ p.LowOrHigh .joined = true := by
    simp only [LowOrHigh, Bool.or_eq_true, decide_eq_true_eq]
    cases hbase : p.baseline with
    | none => simp [(h.unread hbase).2]
    | some first =>
        cases first with
        | true => simp [(h.high hbase).2]
        | false => simp [h.low hbase]
  refine ⟨hiff, ?_⟩
  intro hsteady
  have hlow := hiff.mpr hsteady
  obtain ⟨comm, worker, hjoined, hclear⟩ := baseStop_clear platform
    { p with dsrThread := none, stopSignal := false, stopping := false } (h.stopping hstopping)
  rw [N1MMProxy.joined, hjoined]
  refine ⟨h.follows, ?_, ?_, fun _ => hlow, ?_, h.unread, h.high, h.low⟩
  · intro _
    show (false : Bool) = (comm.running || false)
    rw [hclear]
    rfl
  · intro hstop
    cases hstop
  · intro hentry
    cases hentry

/-- The monitor goes on without a reading. -/
theorem KeyInv.of_thread (h : KeyInv p) {pc : DsrPc} (hthread : p.dsrThread.isSome = true)
    (hpc : pc ≠ .entry) : KeyInv { p with dsrThread := some pc } := by
  refine ⟨h.follows, ?_, h.stopping, nofun, ?_, h.unread, h.high, h.low⟩
  · intro halive
    rw [← h.session halive, hthread]
    rfl
  · rintro ⟨⟩
    exact absurd rfl hpc

theorem wake_ne_entry (event : Option Bool) : p.wake platform event ≠ .entry := by
  unfold wake
  split
  · split <;> simp
  · simp
  · split
    · simp
    · split <;> simp

/-- A reading in the loop: an edge is reported in its turn unless the
session started high. -/
theorem KeyInv.read (h : KeyInv p) (hthread : p.dsrThread.isSome = true) (level : Bool) :
    (Follows (levelAfter (p.read level).log) (p.read level).log ↔
        (p.baseline ≠ some true ∨ level = true)) ∧
      (p.baseline ≠ some true ∨ level = true →
        KeyInv { p.read level with dsrThread := some .head }) := by
  have hhead : KeyInv { p with dsrThread := some .head } := h.of_thread hthread (by decide)
  cases hbase : p.baseline with
  | none =>
      obtain ⟨hunread, hlow⟩ := h.unread hbase
      have hread : p.read level = { p with lastDsr := some level, baseline := some level } := by
        simp [N1MMProxy.read, hunread]
      rw [hread]
      refine ⟨iff_of_true h.follows (by simp), fun _ => ⟨h.follows, hhead.session, h.stopping, nofun,
        nofun, nofun, ?_, ?_⟩⟩
      · rintro ⟨⟩
        exact ⟨rfl, hlow⟩
      · rintro ⟨⟩
        simp [hlow]
  | some first =>
      cases first with
      | true =>
          obtain ⟨hlast, hlow⟩ := h.high hbase
          cases level with
          | true =>
              have hread : p.read true = p := by simp [N1MMProxy.read, hlast]
              rw [hread]
              exact ⟨iff_of_true h.follows (.inr rfl), fun _ => hhead⟩
          | false =>
              have hread : (p.read false).log = p.log ++ [levelAfter p.log] := by
                simp [N1MMProxy.read, hlast, hlow]
              rw [hread]
              refine ⟨iff_of_false not_follows_snoc (by simp), ?_⟩
              intro hcontra
              simp at hcontra
      | false =>
          have hlast := h.low hbase
          by_cases hsame : level = levelAfter p.log
          · have hread : p.read level = p := by simp [N1MMProxy.read, hlast, hsame]
            rw [hread]
            exact ⟨iff_of_true h.follows (by simp), fun _ => hhead⟩
          · obtain rfl : level = !levelAfter p.log := Bool.eq_not.mpr hsame
            have hread : p.read (!levelAfter p.log) = { p with
                lastDsr := some (!levelAfter p.log), log := p.log ++ [!levelAfter p.log] } := by
              simp [N1MMProxy.read, hlast]
            have hfollows := h.follows.snoc
            rw [← levelAfter_snoc p.log (!levelAfter p.log)] at hfollows
            rw [hread]
            refine ⟨iff_of_true ?_ (by simp), fun _ => ⟨?_, hhead.session, h.stopping, nofun, nofun,
              ?_, ?_, ?_⟩⟩
            · simpa using hfollows
            · simpa using hfollows
            · simp [hbase]
            · simp [hbase]
            · simp

theorem keysInPairs_monitor {a : N1MMAct} (h : KeyInv p) (hreturns : p.stopReturns a = false)
    (hstep : p.monitorStep platform a = some p') :
    (p.KeysInPairs a p' ↔ p.LowOrHigh a = true) ∧ (p.LowOrHigh a = true → KeyInv p') := by
  -- a step without a reading reports nothing
  have hquiet (hlog : p'.log = p.log) (hinv : KeyInv p') (hsteady : p.LowOrHigh a = true) :
      (p.KeysInPairs a p' ↔ p.LowOrHigh a = true) ∧ (p.LowOrHigh a = true → KeyInv p') := by
    refine ⟨iff_of_true ⟨?_, fun hcontra => ?_⟩ hsteady, fun _ => hinv⟩
    · rw [hlog]
      exact h.follows
    · exact absurd (hreturns.symm.trans hcontra) (by decide)
  unfold monitorStep at hstep
  split at hstep
  case h_1 level hthread =>
    obtain rfl := Option.some.inj hstep
    obtain ⟨-, hlow⟩ := h.unread (h.entry hthread)
    have hsession : p.terminated = false → true = (p.comm.running || p.stopping) := by
      simpa [hthread] using h.session
    refine hquiet rfl ⟨h.follows, hsession, h.stopping, nofun, nofun, nofun, ?_, ?_⟩ ?_
    · intro hbase
      exact ⟨hbase, hlow⟩
    · intro hbase
      rw [hlow]
      exact hbase
    · cases level <;> simp [LowOrHigh, hthread]
  case h_2 hthread =>
    obtain rfl := Option.some.inj hstep
    exact hquiet rfl (h.of_thread (by simp [hthread]) (by split <;> simp)) rfl
  case h_3 event hthread =>
    obtain rfl := Option.some.inj hstep
    exact hquiet rfl (h.of_thread (by simp [hthread]) (wake_ne_entry event)) rfl
  case h_4 hthread =>
    obtain rfl := Option.some.inj hstep
    exact hquiet rfl (h.of_thread (by simp [hthread]) (by simp)) rfl
  case h_5 level hthread =>
    obtain rfl := Option.some.inj hstep
    obtain ⟨hiff, hinv⟩ := h.read (by simp [hthread]) level
    have hcond : p.LowOrHigh (.sample (some level)) = true ↔
        (p.baseline ≠ some true ∨ level = true) := by
      simp [LowOrHigh, hthread]
    rw [hcond]
    refine ⟨?_, hinv⟩
    rw [← hiff]
    exact ⟨fun hpairs => hpairs.1, fun hfollows => ⟨hfollows, nofun⟩⟩
  case h_6 => cases hstep

theorem keysInPairs_iff {a : N1MMAct} (h : KeyInv p)
    (hstep : (n1mmProxy platform).step p a = some p') :
    (p.KeysInPairs a p' ↔ p.LowOrHigh a = true) ∧ (p.LowOrHigh a = true → KeyInv p') := by
  obtain ⟨halive, hstep⟩ := Option.ite_none_left_eq_some.mp hstep
  have halive : p.terminated = false := Bool.eq_false_iff.mpr halive
  cases a with
  | start o =>
      obtain ⟨⟨hstopping, -⟩, hstep⟩ := Option.ite_none_right_eq_some.mp hstep
      obtain rfl := Option.some.inj hstep
      have hinv := h.start platform halive hstopping o
      exact ⟨iff_of_true ⟨hinv.follows, nofun⟩ rfl, fun _ => hinv⟩
  | stop =>
      obtain ⟨hstopping, hstep⟩ := Option.ite_none_right_eq_some.mp hstep
      obtain rfl := Option.some.inj hstep
      obtain ⟨hinv, hlog⟩ := h.stop platform halive
      refine ⟨iff_of_true ⟨hinv.follows, fun hreturns => ?_⟩ rfl, fun _ => hinv⟩
      have hrunning : p.comm.running = false := by simpa [stopReturns] using hreturns
      rw [hlog]
      exact (h.released halive hrunning hstopping).2
  | joined =>
      obtain ⟨hjoin, hstep⟩ := Option.ite_none_right_eq_some.mp hstep
      obtain rfl := Option.some.inj hstep
      have hstopping : p.stopping = true := (Bool.and_eq_true_iff.mp hjoin).1
      obtain ⟨hiff, hinv⟩ := h.joined platform hstopping
      have hlog : (p.joined platform).log = p.log := by
        obtain ⟨comm, worker, hjoined, -⟩ := baseStop_frame platform
          { p with dsrThread := none, stopSignal := false, stopping := false }
        rw [N1MMProxy.joined, hjoined]
      refine ⟨?_, hinv⟩
      rw [← hiff, KeysInPairs, hlog]
      exact ⟨fun hpairs => hpairs.2 rfl, fun hlow => ⟨h.follows, fun _ => hlow⟩⟩
  | loop => exact keysInPairs_monitor h rfl hstep
  | wake event => exact keysInPairs_monitor h rfl hstep
  | sample level => exact keysInPairs_monitor h rfl hstep

end N1MMProxy

/-! ## Runs -/

/-- Presses and releases are reported in turn, with a release last
whenever `stop` has returned, exactly in the runs in which every session
reads DSR low first and last, or high throughout. -/
theorem stop_releases_key_iff (platform : Platform) (as : List N1MMAct) :
    (n1mmProxy platform).Along N1MMProxy.KeysInPairs {} as ↔
      (n1mmProxy platform).Along (fun p a _ => p.LowOrHigh a = true) {} as := by
  refine Machine.along_congr (I := N1MMProxy.KeyInv) ?_ ?_ N1MMProxy.keyInv_init
  · intro p a p' hinv hstep
    exact (N1MMProxy.keysInPairs_iff hinv hstep).1
  · intro p a p' hinv hsteady hstep
    exact (N1MMProxy.keysInPairs_iff hinv hstep).2 hsteady

/-- DSR rises and stays high, and `stop` returns with the key down. -/
theorem stop_leaves_key_down :
    ¬ (n1mmProxy .linux).Along N1MMProxy.KeysInPairs {}
      [.start ⟨some 3, false, true, true⟩, .loop, .wake none, .sample (some false), .loop,
        .wake none, .sample (some true), .stop, .loop, .joined] ∧
    ¬ (n1mmProxy .windows).Along N1MMProxy.KeysInPairs {}
      [.start ⟨some 3, false, true, true⟩, .sample (some false), .loop, .wake (some true),
        .sample (some true), .stop, .loop, .joined] := by
  constructor
  · intro h
    have hreleased := h.mono fun _ _ _ hpairs => hpairs.2
    revert hreleased
    decide
  · intro h
    have hreleased := h.mono fun _ _ _ hpairs => hpairs.2
    revert hreleased
    decide

end CwKeyer
