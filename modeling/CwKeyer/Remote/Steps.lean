import CwKeyer.Remote.Client

/-!
# What one step of `RemoteClient` can do

`RemoteStep` lists the outcomes of every step of `remote` with the state
each leads to, one constructor for each exit of the code, and
`RemoteStep.of_step` shows the list complete. The invariants of the
client are proved by cases on it and never unfold the step function.

The two shapes that recur are named: `cancelled` is the client after
`sendKeyerCommand` has cancelled the pending release, and `unkeyed` the
client after `deactivateMoxLocked`.
-/

namespace CwKeyer

/-- The line a call hands to `sendKeyerCommand`. -/
def KeyerCall.line : KeyerCall → Line
  | .runCW _ duration => .keyerTimed duration
  | .startRunCw => .keyer true
  | .stopRunCw => .keyer false

@[simp] theorem KeyerCall.isKeyer_line (k : KeyerCall) : k.line.isKeyer = true := by
  cases k <;> rfl

/-- Whether a call gets as far as `sendKeyerCommand` while the session
runs: the argument checks of `runCW` and `sendDuration`. -/
def KeyerCall.sends : KeyerCall → Bool
  | .runCW item duration => (item = .dit ∨ item = .dah) && 0 < duration
  | .startRunCw => true
  | .stopRunCw => true

namespace RemoteClient

/-- The guard of `sendKeyerCommand` and `sendLine`. -/
def canSend (c : RemoteClient) : Bool := c.running && c.socketFd.isSome

/-- The pending release cancelled. -/
def cancelled (c : RemoteClient) : RemoteClient :=
  { c with
    moxDeactivationScheduled := false
    moxScheduleToken := c.moxScheduleToken + 1 }

/-- The line `sendKeyerCommand` sends before the command, if any. -/
def moxPrefix (c : RemoteClient) : List Line := if c.moxActive then [] else [.trx true]

/-- After `deactivateMoxLocked`: the line is sent, or the send fails and
ends the session, or there is nothing to send it on. -/
inductive Unkeyed (c : RemoteClient) (ok : Bool) : RemoteClient → Prop
  | sent (hopen : c.canSend = true) (hok : ok = true) :
      Unkeyed c ok { c with wire := c.wire ++ [.trx false], moxActive := false }
  | failed (hopen : c.canSend = true) (hok : ok = false) :
      Unkeyed c ok { c with running := false, moxActive := false }
  | closed (hopen : c.canSend = false) : Unkeyed c ok { c with moxActive := false }

theorem not_canSend {c : RemoteClient} :
    (!c.running || c.socketFd.isNone) = !c.canSend := by
  cases hr : c.running <;> cases hs : c.socketFd <;> simp [canSend, hr, hs]

theorem canSend_iff {c : RemoteClient} :
    c.canSend = true ↔ c.running = true ∧ c.socketFd.isNone = false := by
  cases hr : c.running <;> cases hs : c.socketFd <;> simp [canSend, hr, hs]

theorem sendLine_closed {c : RemoteClient} (h : c.canSend = false) (line : Line) (ok : Bool) :
    c.sendLine line ok = (c, false) := by
  simp [sendLine, not_canSend, h]

theorem sendLine_sent {c : RemoteClient} (h : c.canSend = true) (line : Line) :
    c.sendLine line true = ({ c with wire := c.wire ++ [line] }, true) := by
  simp [sendLine, not_canSend, h]

theorem sendLine_failed {c : RemoteClient} (h : c.canSend = true) (line : Line) :
    c.sendLine line false = ({ c with running := false }, false) := by
  simp [sendLine, not_canSend, h]

theorem unkeyed_deactivate (c : RemoteClient) (ok : Bool) :
    Unkeyed c ok (c.deactivateMoxLocked ok) := by
  cases hopen : c.canSend with
  | false =>
      rw [deactivateMoxLocked, sendLine_closed hopen]
      exact .closed hopen
  | true =>
      cases ok with
      | true =>
          rw [deactivateMoxLocked, sendLine_sent hopen]
          exact .sent hopen rfl
      | false =>
          rw [deactivateMoxLocked, sendLine_failed hopen]
          exact .failed hopen rfl

/-! ## Commands -/

/-- The exits of `sendKeyerCommand`. -/
inductive CommandOutcome (c : RemoteClient) (command : Line) (duration : Int) (nowMs : Nat)
    (ok : Sends) : RemoteClient × Bool → Prop
  | refused (hopen : c.canSend = false) : CommandOutcome c command duration nowMs ok (c, false)
  | moxFailed (hopen : c.canSend = true) (hmox : c.moxActive = false) (hok : ok.mox = false) :
      CommandOutcome c command duration nowMs ok ({ c.cancelled with running := false }, false)
  | commandFailed (hopen : c.canSend = true) (hok : ok.command = false) :
      CommandOutcome c command duration nowMs ok
        ({ c.cancelled with
            wire := c.wire ++ c.moxPrefix
            moxActive := true
            running := false }, false)
  | released (hopen : c.canSend = true) (hdelay : c.moxReleaseDelayMs ≤ 0)
      (hok : ok.release = true) :
      CommandOutcome c command duration nowMs ok
        ({ c.cancelled with
            wire := c.wire ++ c.moxPrefix ++ [command, .trx false]
            moxActive := false }, true)
  | releaseFailed (hopen : c.canSend = true) (hdelay : c.moxReleaseDelayMs ≤ 0)
      (hok : ok.release = false) :
      CommandOutcome c command duration nowMs ok
        ({ c.cancelled with
            wire := c.wire ++ c.moxPrefix ++ [command]
            moxActive := false
            running := false }, false)
  | scheduled (hopen : c.canSend = true) (hdelay : 0 < c.moxReleaseDelayMs) :
      CommandOutcome c command duration nowMs ok
        ({ c with
            wire := c.wire ++ c.moxPrefix ++ [command]
            moxActive := true
            moxDeactivationScheduled := true
            moxDeactivationAtMs := nowMs + (c.moxReleaseDelayMs + duration).toNat
            moxScheduleToken := c.moxScheduleToken + 2 }, true)

/-- From the point where MOX is on and the command is about to be sent. -/
theorem commandOutcome_keyed {c : RemoteClient} (hopen : c.canSend = true)
    (command : Line) (duration : Int) (nowMs : Nat) (ok : Sends) {c₁ : RemoteClient}
    (hc₁ : c₁ = { c.cancelled with wire := c.wire ++ c.moxPrefix, moxActive := true }) :
    CommandOutcome c command duration nowMs ok
      (let (c₂, sent) := c₁.sendLine command ok.command
       if !sent then (c₂, false)
       else if c₂.moxReleaseDelayMs ≤ 0 then
        let c₃ := c₂.deactivateMoxLocked ok.release
        (c₃, c₃.running)
       else (c₂.scheduleMoxReleaseLocked duration nowMs, true)) := by
  have hopen₁ : c₁.canSend = true := by rw [hc₁]; exact hopen
  cases hcmd : ok.command with
  | false =>
      rw [sendLine_failed hopen₁, hc₁]
      exact .commandFailed hopen hcmd
  | true =>
      rw [sendLine_sent hopen₁]
      by_cases hdelay : c.moxReleaseDelayMs ≤ 0
      · have hdelay₁ : c₁.moxReleaseDelayMs ≤ 0 := by rw [hc₁]; exact hdelay
        have hrun : c.running = true := (canSend_iff.mp hopen).1
        simp only [Bool.not_true, Bool.false_eq_true, if_false, hdelay₁, if_true]
        cases hrel : ok.release with
        | true =>
            rw [deactivateMoxLocked, sendLine_sent (by exact hopen₁), hc₁]
            simpa [cancelled, hrun] using CommandOutcome.released hopen hdelay hrel
        | false =>
            rw [deactivateMoxLocked, sendLine_failed (by exact hopen₁), hc₁]
            exact .releaseFailed hopen hdelay hrel
      · have hdelay₁ : ¬c₁.moxReleaseDelayMs ≤ 0 := by rw [hc₁]; exact hdelay
        simp only [Bool.not_true, Bool.false_eq_true, if_false, hdelay₁]
        rw [hc₁]
        exact .scheduled hopen (Int.not_le.mp hdelay)

/-- The part of `sendKeyerCommand` before it sends the command. -/
theorem sendKeyerCommand_keyed {c : RemoteClient} (hopen : c.canSend = true)
    (command : Line) (duration : Int) (nowMs : Nat) {ok : Sends}
    (hkeyed : c.moxActive = true ∨ ok.mox = true) :
    c.sendKeyerCommand command duration nowMs ok =
      (let (c₂, sent) := RemoteClient.sendLine
        { c.cancelled with wire := c.wire ++ c.moxPrefix, moxActive := true } command ok.command
       if !sent then (c₂, false)
       else if c₂.moxReleaseDelayMs ≤ 0 then
        let c₃ := c₂.deactivateMoxLocked ok.release
        (c₃, c₃.running)
       else (c₂.scheduleMoxReleaseLocked duration nowMs, true)) := by
  obtain ⟨hrun, hsock⟩ := canSend_iff.mp hopen
  cases hmox : c.moxActive with
  | true => simp [sendKeyerCommand, cancelled, moxPrefix, hrun, hsock, hmox]
  | false =>
      have hok : ok.mox = true := by simpa [hmox] using hkeyed
      simp [sendKeyerCommand, activateMoxLocked, sendLine, cancelled, moxPrefix, hrun, hsock,
        hmox, hok]

theorem commandOutcome (c : RemoteClient) (command : Line) (duration : Int) (nowMs : Nat)
    (ok : Sends) :
    CommandOutcome c command duration nowMs ok
      (c.sendKeyerCommand command duration nowMs ok) := by
  cases hopen : c.canSend with
  | false =>
      have hrefused : c.sendKeyerCommand command duration nowMs ok = (c, false) := by
        simp [sendKeyerCommand, not_canSend, hopen]
      exact hrefused ▸ .refused hopen
  | true =>
      by_cases hkeyed : c.moxActive = true ∨ ok.mox = true
      · rw [sendKeyerCommand_keyed hopen command duration nowMs hkeyed]
        exact commandOutcome_keyed hopen command duration nowMs ok rfl
      · obtain ⟨hmox, hok⟩ : c.moxActive = false ∧ ok.mox = false := by simpa using hkeyed
        obtain ⟨hrun, hsock⟩ := canSend_iff.mp hopen
        have hfailed : c.sendKeyerCommand command duration nowMs ok =
            ({ c.cancelled with running := false }, false) := by
          simp [sendKeyerCommand, activateMoxLocked, sendLine, cancelled, hrun, hsock, hmox, hok]
        exact hfailed ▸ .moxFailed hopen hmox hok

/-- A call sends nothing, or is one `sendKeyerCommand` of its line. -/
theorem call_cases (c : RemoteClient) (k : KeyerCall) (nowMs : Nat) (ok : Sends) :
    c.call k nowMs ok = (c, false) ∨
      k.sends = true ∧
        c.call k nowMs ok = c.sendKeyerCommand k.line k.moxDuration nowMs ok := by
  cases k with
  | runCW item duration =>
      simp only [call, sendDuration]
      split
      · exact Or.inl rfl
      · rename_i hitem
        split
        · exact Or.inl rfl
        · rename_i hduration
          have hpos : 0 < duration :=
            (show c.running = true ∧ 0 < duration by simpa using hduration).2
          refine Or.inr ⟨?_, rfl⟩
          simp only [KeyerCall.sends, hpos]
          grind
  | startRunCw => exact Or.inr ⟨rfl, rfl⟩
  | stopRunCw => exact Or.inr ⟨rfl, rfl⟩

/-! ## The timer -/

/-- The outcomes of one critical section of the timer thread. -/
inductive TimerOutcome (c : RemoteClient) (pc : TimerPc) (nowMs : Nat) (timedOut ok : Bool) :
    RemoteClient × TimerPc → Prop
  | exit (hstop : c.stopMoxTimerThread = true) :
      TimerOutcome c pc nowMs timedOut ok (c, .exited)
  | sleep (hstop : c.stopMoxTimerThread = false) (hsched : c.moxDeactivationScheduled = false) :
      TimerOutcome c pc nowMs timedOut ok (c, .waiting)
  | timedSleep (hstop : c.stopMoxTimerThread = false)
      (hsched : c.moxDeactivationScheduled = true) (hnow : nowMs < c.moxDeactivationAtMs) :
      TimerOutcome c pc nowMs timedOut ok
        (c, .timedWait c.moxScheduleToken c.moxDeactivationAtMs)
  | keepWaiting (hstop : c.stopMoxTimerThread = false) {deactivateAtMs : Nat}
      (hpc : pc = .timedWait c.moxScheduleToken deactivateAtMs) :
      TimerOutcome c pc nowMs timedOut ok (c, pc)
  | release (hstop : c.stopMoxTimerThread = false) (hsched : c.moxDeactivationScheduled = true)
      (hdue : c.moxDeactivationAtMs ≤ nowMs ∨
        timedOut = true ∧ ∃ deactivateAtMs, pc = .timedWait c.moxScheduleToken deactivateAtMs)
      {c' : RemoteClient} (hrelease : c' = c.timerRelease ok) :
      TimerOutcome c pc nowMs timedOut ok (c', .waiting)

theorem timerOutcome_head (c : RemoteClient) (pc : TimerPc) (nowMs : Nat) (timedOut ok : Bool) :
    TimerOutcome c pc nowMs timedOut ok (c.timerHead nowMs ok) := by
  unfold timerHead
  cases hstop : c.stopMoxTimerThread with
  | true => exact .exit hstop
  | false =>
      cases hsched : c.moxDeactivationScheduled with
      | false => exact .sleep hstop hsched
      | true =>
          simp only [Bool.false_eq_true, Bool.not_true, if_false]
          split
          · exact .timedSleep hstop hsched ‹_›
          · exact .release hstop hsched (Or.inl (Nat.not_lt.mp ‹_›)) rfl

theorem timerOutcome {c : RemoteClient} {pc : TimerPc} {nowMs : Nat} {timedOut ok : Bool}
    {r : RemoteClient × TimerPc} (h : c.timerStep pc nowMs timedOut ok = some r) :
    TimerOutcome c pc nowMs timedOut ok r := by
  cases pc with
  | entry => exact Option.some.inj h ▸ timerOutcome_head ..
  | waiting => exact Option.some.inj h ▸ timerOutcome_head ..
  | exited => cases h
  | timedWait token deactivateAtMs =>
      simp only [timerStep] at h
      split at h
      · exact Option.some.inj h ▸ timerOutcome_head ..
      · rename_i hpred
        simp only [ne_eq, decide_not, Bool.or_eq_true, Bool.not_eq_eq_eq_not, Bool.not_true,
          decide_eq_false_iff_not, not_or, Bool.not_eq_true, Bool.not_eq_false,
          Decidable.not_not] at hpred
        obtain ⟨⟨hstop, hsched⟩, rfl⟩ := hpred
        split at h
        · obtain rfl := Option.some.inj h
          exact .release hstop hsched (Or.inr ⟨‹_›, _, rfl⟩) rfl
        · obtain rfl := Option.some.inj h
          exact .keepWaiting hstop rfl

/-- The release of the timer: MOX is switched off if it is on. -/
theorem timerRelease_cases (c : RemoteClient) (ok : Bool) :
    (c.moxActive = false ∧ c.timerRelease ok = { c with moxDeactivationScheduled := false }) ∨
      (c.moxActive = true ∧
        Unkeyed { c with moxDeactivationScheduled := false } ok (c.timerRelease ok)) := by
  cases hmox : c.moxActive with
  | false => exact Or.inl ⟨rfl, by simp [timerRelease, hmox]⟩
  | true =>
      refine Or.inr ⟨rfl, ?_⟩
      have := unkeyed_deactivate { c with moxDeactivationScheduled := false } ok
      simpa [timerRelease, hmox] using this

end RemoteClient

/-! ## `start` and `stop` -/

open RemoteClient in
/-- The steps of the thread that runs `start` and `stop`. -/
inductive MainOutcome (s : RemoteSystem) (ok : Bool) (fd : Nat) : RemoteSystem → Prop
  | firstBlock {caller : Option StartArgs} (hmain : s.main = .stop .firstBlock caller) :
      MainOutcome s ok fd { s with
        client := { s.client with
          stopMoxTimerThread := true
          moxDeactivationScheduled := false
          moxScheduleToken := s.client.moxScheduleToken + 1
          moxDeactivationAtMs := 0 }
        main := .stop (.join s.client.moxActive) caller }
  | join {should : Bool} {caller : Option StartArgs}
      (hmain : s.main = .stop (.join should) caller)
      (htimer : s.timer = none ∨ s.timer = some .exited) :
      MainOutcome s ok fd { s with timer := none, main := .stop (.guarded should) caller }
  | guardedSend {caller : Option StartArgs} (hmain : s.main = .stop (.guarded true) caller)
      (hopen : s.client.canSend = true) {c : RemoteClient} (hunkeyed : Unkeyed s.client ok c) :
      MainOutcome s ok fd { s with client := c, main := .stop .secondBlock caller }
  | guardedSkip {should : Bool} {caller : Option StartArgs}
      (hmain : s.main = .stop (.guarded should) caller)
      (hskip : s.client.canSend = false ∨ should = false) :
      MainOutcome s ok fd { s with main := .stop .secondBlock caller }
  | secondBlock {caller : Option StartArgs} (hmain : s.main = .stop .secondBlock caller) :
      MainOutcome s ok fd { s with
        client := { s.client with moxActive := false, stopMoxTimerThread := false }
        main := .stop .clearRunning caller }
  | clearRunning {caller : Option StartArgs} (hmain : s.main = .stop .clearRunning caller) :
      MainOutcome s ok fd { s with
        client := { s.client with running := false }, main := .stop .close caller }
  | closeStop (hmain : s.main = .stop .close none) :
      MainOutcome s ok fd { s with
        client := { s.client with socketFd := none }, main := .idle }
  | closeStart {args : StartArgs} (hmain : s.main = .stop .close (some args)) :
      MainOutcome s ok fd { s with
        client := { s.client with socketFd := none }, main := .platformInit args }
  | platformInit {args : StartArgs} (hmain : s.main = .platformInit args) (hok : ok = true) :
      MainOutcome s ok fd { s with main := .openConnection args }
  | openConnection {args : StartArgs} (hmain : s.main = .openConnection args) (hok : ok = true) :
      MainOutcome s ok fd { s with
        client := { s.client with socketFd := some fd, wire := [] }, main := .handshake args }
  | handshake {args : StartArgs} (hmain : s.main = .handshake args) (hok : ok = true) :
      MainOutcome s ok fd { s with main := .resetMox args }
  | startFailed {args : StartArgs}
      (hmain : s.main = .platformInit args ∨ s.main = .openConnection args) (hok : ok = false) :
      MainOutcome s ok fd { s with main := .idle }
  | handshakeFailed {args : StartArgs} (hmain : s.main = .handshake args) (hok : ok = false) :
      MainOutcome s ok fd { s with
        client := { s.client with socketFd := none }, main := .idle }
  | resetMox {args : StartArgs} (hmain : s.main = .resetMox args) :
      MainOutcome s ok fd { s with
        client := s.client.resetMoxStateLocked args.moxReleaseDelayMs, main := .setRunning }
  | setRunning (hmain : s.main = .setRunning) :
      MainOutcome s ok fd { s with
        client := { s.client with running := true }, main := .spawn }
  | spawn (hmain : s.main = .spawn) :
      MainOutcome s ok fd { s with timer := some .entry, main := .idle }

theorem mainOutcome {s s' : RemoteSystem} {ok : Bool} {fd : Nat}
    (h : s.mainStep ok fd = some s') : MainOutcome s ok fd s' := by
  simp only [RemoteSystem.mainStep] at h
  split at h
  case h_1 => cases h
  case h_2 hmain => exact Option.some.inj h ▸ .firstBlock hmain
  case h_3 should caller hmain =>
      split at h
      · rename_i htimer
        have hs : s' = { s with timer := none, main := .stop (.guarded should) caller } := by
          rw [← Option.some.inj h, ← htimer]
        exact hs ▸ .join hmain (Or.inl htimer)
      · rename_i htimer
        exact Option.some.inj h ▸ .join hmain (Or.inr htimer)
      · cases h
  case h_4 should caller hmain =>
      split at h
      · rename_i hcond
        obtain ⟨⟨hrun, rfl⟩, hsock⟩ : (s.client.running = true ∧ should = true) ∧
            s.client.socketFd.isSome = true := by simpa using hcond
        exact Option.some.inj h ▸ .guardedSend hmain
          (by simp [RemoteClient.canSend, hrun, hsock])
          (RemoteClient.unkeyed_deactivate ..)
      · rename_i hcond
        refine Option.some.inj h ▸ .guardedSkip hmain ?_
        cases should
        · exact Or.inr rfl
        · exact Or.inl (by simpa [RemoteClient.canSend] using hcond)
  case h_5 hmain => exact Option.some.inj h ▸ .secondBlock hmain
  case h_6 hmain => exact Option.some.inj h ▸ .clearRunning hmain
  case h_7 caller hmain =>
      cases caller with
      | none => exact Option.some.inj h ▸ .closeStop hmain
      | some args => exact Option.some.inj h ▸ .closeStart hmain
  case h_8 hmain =>
      cases ok with
      | true => exact Option.some.inj h ▸ .platformInit hmain rfl
      | false => exact Option.some.inj h ▸ .startFailed (Or.inl hmain) rfl
  case h_9 hmain =>
      cases ok with
      | true => exact Option.some.inj h ▸ .openConnection hmain rfl
      | false => exact Option.some.inj h ▸ .startFailed (Or.inr hmain) rfl
  case h_10 hmain =>
      cases ok with
      | true => exact Option.some.inj h ▸ .handshake hmain rfl
      | false => exact Option.some.inj h ▸ .handshakeFailed hmain rfl
  case h_11 hmain => exact Option.some.inj h ▸ .resetMox hmain
  case h_12 hmain => exact Option.some.inj h ▸ .setRunning hmain
  case h_13 hmain => exact Option.some.inj h ▸ .spawn hmain

/-! ## The whole system -/

open RemoteClient in
/-- The steps of `remote`. -/
inductive RemoteStep (s : RemoteSystem) : RemoteAct → RemoteSystem → Prop
  | callNothing {k : KeyerCall} {nowMs : Nat} {ok : Sends} :
      RemoteStep s (.call k nowMs ok) { s with clock := nowMs }
  | command {k : KeyerCall} {nowMs : Nat} {ok : Sends} {c : RemoteClient} {accepted : Bool}
      (hsends : k.sends = true)
      (hcommand : CommandOutcome s.client k.line k.moxDuration nowMs ok (c, accepted)) :
      RemoteStep s (.call k nowMs ok) { s with
        client := c
        lastAccepted := if accepted then some (nowMs, k.moxDuration) else s.lastAccepted
        clock := nowMs }
  | timer {nowMs : Nat} {timedOut ok : Bool} {c : RemoteClient} {pc pc' : TimerPc}
      (hpc : s.timer = some pc)
      (htimer : TimerOutcome s.client pc nowMs timedOut ok (c, pc')) :
      RemoteStep s (.timer nowMs timedOut ok) { s with
        client := c, timer := some pc', clock := nowMs }
  | startRejected {args : StartArgs} (hmain : s.main = .idle) (hargs : args.valid = false) :
      RemoteStep s (.start args) s
  | start {args : StartArgs} (hmain : s.main = .idle) (hargs : args.valid = true) :
      RemoteStep s (.start args) { s with main := .stop .firstBlock (some args) }
  | stop (hmain : s.main = .idle) :
      RemoteStep s .stop { s with main := .stop .firstBlock none }
  | main {ok : Bool} {fd : Nat} {s' : RemoteSystem} (hmain : MainOutcome s ok fd s') :
      RemoteStep s (.main ok fd) s'

/-- A timer step runs the body of the timer thread from where it is. -/
theorem timer_of_step {s s' : RemoteSystem} {nowMs : Nat} {timedOut ok : Bool}
    (h : remote.step s (.timer nowMs timedOut ok) = some s') :
    ∃ pc c pc', s.timer = some pc ∧ s.client.timerStep pc nowMs timedOut ok = some (c, pc')
      ∧ s' = { s with client := c, timer := some pc', clock := nowMs } := by
  simp only [remote, RemoteSystem.step] at h
  split at h
  · cases h
  · rename_i pc hpc
    obtain ⟨⟨c, pc'⟩, hr, hs⟩ := Option.bind_eq_some_iff.mp h
    exact ⟨pc, c, pc', hpc, hr, (Option.some.inj hs).symm⟩

theorem RemoteStep.of_step {s s' : RemoteSystem} {a : RemoteAct}
    (h : remote.step s a = some s') : RemoteStep s a s' := by
  cases a with
  | call k nowMs ok =>
      obtain ⟨⟨c, accepted⟩, hcall⟩ : ∃ r, s.client.call k nowMs ok = r := ⟨_, rfl⟩
      simp only [remote, RemoteSystem.step, hcall] at h
      obtain rfl := Option.some.inj h
      rcases RemoteClient.call_cases s.client k nowMs ok with hnone | ⟨hsends, hsend⟩
      · obtain ⟨rfl, rfl⟩ := Prod.mk.inj (hcall.symm.trans hnone)
        exact .callNothing
      · refine .command hsends ?_
        rw [← hcall, hsend]
        exact RemoteClient.commandOutcome ..
  | timer nowMs timedOut ok =>
      obtain ⟨pc, c, pc', hpc, hr, rfl⟩ := timer_of_step h
      exact .timer hpc (RemoteClient.timerOutcome hr)
  | start args =>
      simp only [remote, RemoteSystem.step] at h
      by_cases hmain : s.main = .idle
      · rw [if_pos hmain] at h
        obtain rfl := Option.some.inj h
        cases hargs : args.valid with
        | false => exact .startRejected hmain hargs
        | true => exact .start hmain hargs
      · rw [if_neg hmain] at h
        cases h
  | stop =>
      simp only [remote, RemoteSystem.step] at h
      split at h
      · obtain rfl := Option.some.inj h
        exact .stop ‹_›
      · cases h
  | main ok fd => exact .main (mainOutcome h)

end CwKeyer
