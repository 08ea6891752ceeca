import CwKeyer.Waiting
import CwKeyer.Remote.Release

/-!
# The waits of the timer thread

In `remote` a blocked timer thread may wake at any time. Here the two waits of
`moxTimerLoop` are taken step by step: the thread sleeps until it is notified,
until a timed wait runs out of time, or until a spurious wake-up
(`remoteWaits`; `remoteWaits_refines` says that it only does what `remote`
does). Every change of what it waits for is made under `m_moxMutex`, so no
notification is lost: with a release scheduled the thread never sleeps past it
(`mox_release_armed`), and `stop` never waits for a thread that sleeps
(`remote_stop_returns`).
-/

namespace CwKeyer

namespace TimerPc

/-- The predicate of the wait. Outside of a wait there is nothing to wait for. -/
def predicate (c : RemoteClient) : TimerPc → Bool
  | .waiting => c.stopMoxTimerThread || c.moxDeactivationScheduled
  | .timedWait token _ =>
      c.stopMoxTimerThread || !c.moxDeactivationScheduled || c.moxScheduleToken ≠ token
  | .entry => true
  | .exited => true

def waits : TimerPc → Bool
  | .waiting => true
  | .timedWait _ _ => true
  | .entry => false
  | .exited => false

end TimerPc

theorem TimerPc.predicate_eq_true {c : RemoteClient} {pc : TimerPc} (h : pc.waits = false) :
    pc.predicate c = true := by
  cases pc with
  | entry => rfl
  | exited => rfl
  | waiting => cases h
  | timedWait token deactivateAtMs => cases h

theorem TimerPc.predicate_of_stop {c : RemoteClient} (h : c.stopMoxTimerThread = true)
    (pc : TimerPc) : pc.predicate c = true := by
  cases pc <;> simp [predicate, h]

/-- A thread whose predicate is false waits for the scheduled release, if any. -/
theorem TimerPc.predicate_eq_false {c : RemoteClient} {pc : TimerPc} (h : pc.predicate c = false) :
    c.stopMoxTimerThread = false ∧ (c.moxDeactivationScheduled = true →
      ∃ deactivateAtMs, pc = .timedWait c.moxScheduleToken deactivateAtMs) := by
  cases pc with
  | entry => cases h
  | exited => cases h
  | waiting =>
      obtain ⟨hstop, hsched⟩ := Bool.or_eq_false_iff.mp h
      refine ⟨hstop, fun hsched' => ?_⟩
      rw [hsched] at hsched'
      cases hsched'
  | timedWait token deactivateAtMs =>
      obtain ⟨hor, htoken⟩ := Bool.or_eq_false_iff.mp h
      have htoken : c.moxScheduleToken = token := by simpa using htoken
      exact ⟨(Bool.or_eq_false_iff.mp hor).1, fun _ => ⟨deactivateAtMs, by rw [htoken]⟩⟩

/-- The steps of `start` and `stop` that take `m_moxMutex`. -/
def MainPc.locks : MainPc → Bool
  | .stop .firstBlock _ => true
  | .stop (.guarded _) _ => true
  | .stop .secondBlock _ => true
  | .resetMox _ => true
  | _ => false

/-- `stop` waits for the timer thread. -/
def MainPc.joins : MainPc → Bool
  | .stop (.join _) _ => true
  | _ => false

theorem MainPc.exists_of_joins {m : MainPc} (h : m.joins = true) :
    ∃ should caller, m = .stop (.join should) caller := by
  unfold joins at h
  split at h
  case h_1 should caller => exact ⟨should, caller, rfl⟩
  case h_2 => cases h

/-- `wait` is where the timer thread is in its wait, if it is in one, and
`timedOut` says that this is a timed wait that has run out of time.
`notifying`: `stop` has left its first block and not notified yet. -/
structure RemoteWaits where
  system : RemoteSystem := .init
  wait : WaitPc := .evaluate
  timedOut : Bool := false
  notifying : Bool := false
deriving Repr, DecidableEq

inductive RemoteWaitAct where
  | call (k : KeyerCall) (nowMs : Nat) (ok : Sends)
  | timer (nowMs : Nat) (ok : Bool)
  | timeout
  | spuriousWakeup
  | start (args : StartArgs)
  | stop
  | main (ok : Bool) (fd : Nat)
deriving Repr, DecidableEq

/-- A step of the timer thread. -/
def RemoteWaitAct.isTimer : RemoteWaitAct → Bool
  | .timer _ _ => true
  | _ => false

namespace RemoteWaits

/-- The timer thread holds `m_moxMutex`. Whoever else takes it gives it back
in the same step. -/
def locked (s : RemoteWaits) : Bool :=
  s.system.timer.any TimerPc.waits && s.wait.holdsMutex

/-- The timer thread sleeps until it is notified or runs out of time. -/
def asleep (s : RemoteWaits) : Bool :=
  s.system.timer.any TimerPc.waits && s.wait.asleep

/-- The command is scheduled for release, and `scheduleMoxReleaseLocked`
notifies the timer thread. -/
def notifies (s : RemoteWaits) (k : KeyerCall) (nowMs : Nat) (ok : Sends) : Bool :=
  (s.system.client.call k nowMs ok).2 && 0 < s.system.client.moxReleaseDelayMs

def callStep (s : RemoteWaits) (k : KeyerCall) (nowMs : Nat) (ok : Sends) : Option RemoteWaits :=
  if s.locked then none
  else (remote.step s.system (.call k nowMs ok)).map fun r =>
    { s with system := r, wait := if s.notifies k nowMs ok then s.wait.notified else s.wait }

/-- When `wait` or `wait_for` returns, the thread goes on to its next wait. -/
def timerStep (s : RemoteWaits) (nowMs : Nat) (ok : Bool) : Option RemoteWaits :=
  match s.system.timer with
  | none => none
  | some pc =>
      match s.wait.next (pc.predicate s.system.client || s.timedOut) with
      | none => none
      | some (some wait) => some { s with wait := wait }
      | some none => (remote.step s.system (.timer nowMs s.timedOut ok)).map fun r =>
          { s with system := r, wait := .evaluate, timedOut := false }

def timeoutStep (s : RemoteWaits) : Option RemoteWaits :=
  match s.system.timer, s.wait with
  | some (.timedWait _ _), .waiting => some { s with wait := .woken, timedOut := true }
  | _, _ => none

/-- `start` or `stop` has gone on to `r`. -/
def goesOn (s : RemoteWaits) (r : RemoteSystem) : RemoteWaits :=
  match s.system.main with
  | .stop .firstBlock _ => { s with system := r, notifying := true }
  | .spawn => { s with system := r, wait := .evaluate, timedOut := false }
  | _ => { s with system := r }

/-- The first block of a `stop` is followed by its `notify_all`. -/
def mainStep (s : RemoteWaits) (ok : Bool) (fd : Nat) : Option RemoteWaits :=
  if s.notifying then some { s with notifying := false, wait := s.wait.notified }
  else if s.system.main.locks && s.locked then none
  else (remote.step s.system (.main ok fd)).map s.goesOn

def step (s : RemoteWaits) : RemoteWaitAct → Option RemoteWaits
  | .call k nowMs ok => s.callStep k nowMs ok
  | .timer nowMs ok => s.timerStep nowMs ok
  | .timeout => s.timeoutStep
  | .spuriousWakeup => some { s with wait := s.wait.notified }
  | .start args => (remote.step s.system (.start args)).map fun r => { s with system := r }
  | .stop => (remote.step s.system .stop).map fun r => { s with system := r }
  | .main ok fd => s.mainStep ok fd

end RemoteWaits

def remoteWaits : Machine RemoteWaits RemoteWaitAct := ⟨RemoteWaits.step⟩

namespace RemoteWaits

variable {s s' t : RemoteWaits} {a : RemoteWaitAct} {nowMs : Nat} {ok : Bool}

/-! ## Steps -/

/-- What the timer thread can do: go on in its wait, or leave it. -/
theorem timerStep_cases (h : s.timerStep nowMs ok = some s') : ∃ pc, s.system.timer = some pc ∧
    ((∃ wait, s.wait.next (pc.predicate s.system.client || s.timedOut) = some (some wait)
        ∧ s' = { s with wait := wait })
      ∨ s.wait.next (pc.predicate s.system.client || s.timedOut) = some none
        ∧ ∃ r, remote.step s.system (.timer nowMs s.timedOut ok) = some r
          ∧ s' = { s with system := r, wait := .evaluate, timedOut := false }) := by
  unfold timerStep at h
  cases htimer : s.system.timer with
  | none => rw [htimer] at h; cases h
  | some pc =>
      rw [htimer] at h
      refine ⟨pc, rfl, ?_⟩
      dsimp only at h
      cases hnext : s.wait.next (pc.predicate s.system.client || s.timedOut) with
      | none => rw [hnext] at h; cases h
      | some next =>
          rw [hnext] at h
          cases next with
          | some wait => exact .inl ⟨wait, rfl, (Option.some.inj h).symm⟩
          | none =>
              obtain ⟨r, hr, rfl⟩ := Option.map_eq_some_iff.mp h
              exact .inr ⟨rfl, r, hr, rfl⟩

theorem timeoutStep_cases (h : s.timeoutStep = some s') :
    ∃ token deactivateAtMs, s.system.timer = some (.timedWait token deactivateAtMs)
      ∧ s.wait = .waiting ∧ s' = { s with wait := .woken, timedOut := true } := by
  unfold timeoutStep at h
  split at h
  case h_1 token deactivateAtMs htimer hwait =>
      exact ⟨token, deactivateAtMs, htimer, hwait, (Option.some.inj h).symm⟩
  case h_2 => cases h

theorem mainStep_cases {fd : Nat} (h : s.mainStep ok fd = some s') :
    s.notifying = true ∧ s' = { s with notifying := false, wait := s.wait.notified }
      ∨ s.notifying = false ∧ (s.system.main.locks = true → s.locked = false)
        ∧ ∃ r, remote.step s.system (.main ok fd) = some r ∧ s' = s.goesOn r := by
  unfold mainStep at h
  split_ifs at h with hnotifying hlocked
  · exact .inl ⟨hnotifying, (Option.some.inj h).symm⟩
  · obtain ⟨r, hr, rfl⟩ := Option.map_eq_some_iff.mp h
    refine .inr ⟨by simpa using hnotifying, fun hlocks => ?_, r, hr, rfl⟩
    simpa [hlocks] using hlocked

theorem callStep_cases {k : KeyerCall} {sends : Sends} (h : s.callStep k nowMs sends = some s') :
    s.locked = false ∧ ∃ r, remote.step s.system (.call k nowMs sends) = some r ∧ s' =
      { s with
        system := r, wait := if s.notifies k nowMs sends then s.wait.notified else s.wait } := by
  obtain ⟨hlocked, h⟩ := Option.ite_none_left_eq_some.mp h
  obtain ⟨r, hr, rfl⟩ := Option.map_eq_some_iff.mp h
  exact ⟨by simpa using hlocked, r, hr, rfl⟩

@[simp] theorem goesOn_system (r : RemoteSystem) : (s.goesOn r).system = r := by
  unfold goesOn
  split <;> rfl

theorem goesOn_of_ne {r : RemoteSystem}
    (hfirst : ∀ caller, s.system.main ≠ .stop .firstBlock caller)
    (hspawn : s.system.main ≠ .spawn) : s.goesOn r = { s with system := r } := by
  unfold goesOn
  split
  case h_1 caller hmain => exact absurd hmain (hfirst caller)
  case h_2 hmain => exact absurd hmain hspawn
  case h_3 => rfl

/-- Every step is a step of `remote`, or none. -/
theorem remoteWaits_refines :
    Machine.Refines remoteWaits remote (fun _ => True) RemoteWaits.system := by
  intro s a s' _ hstep
  refine ⟨trivial, ?_⟩
  have hone {a : RemoteAct} {r : RemoteSystem} (h : remote.step s.system a = some r) :
      remote.Reachable s.system r := ⟨[a], by rwa [Machine.run_singleton]⟩
  cases a with
  | call k nowMs sends =>
      obtain ⟨-, r, hr, rfl⟩ := callStep_cases hstep
      exact hone hr
  | timer nowMs ok =>
      obtain ⟨pc, -, ⟨wait, -, rfl⟩ | ⟨-, r, hr, rfl⟩⟩ := timerStep_cases hstep
      · exact .refl _
      · exact hone hr
  | timeout =>
      obtain ⟨token, deactivateAtMs, -, -, rfl⟩ := timeoutStep_cases hstep
      exact .refl _
  | spuriousWakeup =>
      obtain rfl := Option.some.inj hstep
      exact .refl _
  | start args =>
      obtain ⟨r, hr, rfl⟩ := Option.map_eq_some_iff.mp hstep
      exact hone hr
  | stop =>
      obtain ⟨r, hr, rfl⟩ := Option.map_eq_some_iff.mp hstep
      exact hone hr
  | main ok fd =>
      rcases mainStep_cases hstep with ⟨-, rfl⟩ | ⟨-, -, r, hr, rfl⟩
      · exact .refl _
      · rw [goesOn_system]
        exact hone hr

/-! ## Nothing is slept through -/

/-- A thread that sleeps with a release scheduled sleeps in the timed wait for
it, and one that sleeps in a `stop` is about to be notified. -/
structure Awake (s : RemoteWaits) : Prop where
  deadline : DeadlineInv s.system
  armed : s.asleep = true → s.system.client.moxDeactivationScheduled = true →
    s.system.timer = some (.timedWait s.system.client.moxScheduleToken
      s.system.client.moxDeactivationAtMs)
  stopped : s.asleep = true → s.system.client.stopMoxTimerThread = true →
    s.wait = .waiting ∧ s.notifying = true
  notifying : s.notifying = true → s.system.main.joins = true
  joining : s.system.main.joins = true → s.system.client.stopMoxTimerThread = true
  outside : ∀ pc, s.system.timer = some pc → pc.waits = false → s.wait = .evaluate

theorem awake_init : Awake {} := by
  refine ⟨deadlineInv_init, ?_, ?_, ?_, ?_, fun _ _ _ => rfl⟩ <;> intro h <;> cases h

theorem asleep_iff : s.asleep = true ↔ s.system.timer.any TimerPc.waits = true ∧
    s.wait.asleep = true := by
  rw [asleep, Bool.and_eq_true]

/-- Whoever has the mutex finds a sleeping thread in the wait set. -/
theorem waiting_of_unlocked (hlocked : s.locked = false) (hasleep : s.asleep = true) :
    s.wait = .waiting := by
  obtain ⟨hwaits, hasleep⟩ := asleep_iff.mp hasleep
  rw [locked, hwaits, Bool.true_and] at hlocked
  exact WaitPc.waiting_of_asleep hasleep (WaitPc.not_blocking hlocked)

/-- Nobody sleeps. -/
theorem Awake.of_awake (hasleep : s.asleep = false) (hdeadline : DeadlineInv s.system)
    (hnotifying : s.notifying = true → s.system.main.joins = true)
    (hjoining : s.system.main.joins = true → s.system.client.stopMoxTimerThread = true)
    (houtside : ∀ pc, s.system.timer = some pc → pc.waits = false → s.wait = .evaluate) :
    Awake s := by
  refine ⟨hdeadline, ?_, ?_, hnotifying, hjoining, houtside⟩ <;>
  · rw [hasleep]
    intro h
    cases h

/-- The timer thread stays where it is, and what it waits for stays as it is
unless no release is scheduled any more. -/
theorem Awake.of_same (h : Awake s) (hdeadline : DeadlineInv s'.system)
    (htimer : s'.system.timer = s.system.timer) (hwait : s'.wait = s.wait)
    (hscheduled : s'.system.client.moxDeactivationScheduled = true →
      s.system.client.moxDeactivationScheduled = true
        ∧ s'.system.client.moxScheduleToken = s.system.client.moxScheduleToken
        ∧ s'.system.client.moxDeactivationAtMs = s.system.client.moxDeactivationAtMs)
    (hstop : s'.system.client.stopMoxTimerThread = true →
      s.system.client.stopMoxTimerThread = true)
    (hnotified : s.notifying = true → s'.notifying = true)
    (hnotifying : s'.notifying = true → s'.system.main.joins = true)
    (hjoining : s'.system.main.joins = true → s'.system.client.stopMoxTimerThread = true) :
    Awake s' := by
  have hasleep : s'.asleep = s.asleep := by rw [asleep, asleep, htimer, hwait]
  refine ⟨hdeadline, ?_, ?_, hnotifying, hjoining, ?_⟩
  · rw [hasleep, htimer]
    intro hs hsched
    obtain ⟨hsched, htoken, hat⟩ := hscheduled hsched
    rw [htoken, hat]
    exact h.armed hs hsched
  · rw [hasleep, hwait]
    intro hs hflag
    exact (h.stopped hs (hstop hflag)).imp_right hnotified
  · rw [htimer, hwait]
    exact h.outside

/-- A thread that goes on in its wait is in one. -/
theorem Awake.waits_of_next (h : Awake s) {pc : TimerPc} {wait : WaitPc}
    (htimer : s.system.timer = some pc)
    (hnext : s.wait.next (pc.predicate s.system.client || s.timedOut) = some (some wait)) :
    pc.waits = true := by
  by_contra hne
  have hpc : pc.waits = false := by simpa using hne
  rw [h.outside pc htimer hpc, TimerPc.predicate_eq_true hpc] at hnext
  cases Option.some.inj hnext

theorem Awake.timer (h : Awake s) (hstep : s.timerStep nowMs ok = some s') : Awake s' := by
  obtain ⟨pc, htimer, ⟨wait, hnext, rfl⟩ | ⟨hnext, r, hr, rfl⟩⟩ := timerStep_cases hstep
  · have hwaits : pc.waits = true := h.waits_of_next htimer hnext
    have houtside : ∀ pc', s.system.timer = some pc' → pc'.waits = false → wait = .evaluate := by
      intro pc' hpc' hne
      obtain rfl := Option.some.inj (htimer.symm.trans hpc')
      rw [hwaits] at hne
      cases hne
    cases hasleep : wait.asleep with
    | false =>
        refine .of_awake ?_ h.deadline h.notifying h.joining houtside
        rw [asleep, hasleep, Bool.and_false]
    | true =>
        rcases WaitPc.predicate_of_next hnext hasleep with hbefore | hfalse
        · have hs : s.asleep = true := asleep_iff.mpr ⟨by rw [htimer]; exact hwaits, hbefore⟩
          refine ⟨h.deadline, fun _ => h.armed hs, ?_, h.notifying, h.joining, houtside⟩
          intro _ hflag
          rw [(h.stopped hs hflag).1] at hnext
          cases hnext
        · obtain ⟨hstop, hsched⟩ := TimerPc.predicate_eq_false (Bool.or_eq_false_iff.mp hfalse).1
          refine ⟨h.deadline, fun _ hscheduled => ?_, ?_, h.notifying, h.joining, houtside⟩
          · obtain ⟨deactivateAtMs, rfl⟩ := hsched hscheduled
            rw [← h.deadline.current deactivateAtMs htimer hscheduled]
            exact htimer
          · intro _ hflag
            rw [hstop] at hflag
            cases hflag
  · have hdeadline := deadlineInv_step h.deadline hr
    cases RemoteStep.of_step hr with
    | timer hpc houtcome =>
        refine .of_awake (Bool.and_false _) hdeadline h.notifying ?_ fun _ _ _ => rfl
        exact fun hjoins => houtcome.frame.2.1.trans (h.joining hjoins)

/-- A command that leaves a release scheduled notifies, or has changed
nothing. -/
theorem call_effect {k : KeyerCall} {sends : Sends} {r : RemoteSystem}
    (h : remote.step s.system (.call k nowMs sends) = some r) :
    (r.timer = s.system.timer ∧ r.main = s.system.main
        ∧ r.client.stopMoxTimerThread = s.system.client.stopMoxTimerThread)
      ∧ (s.notifies k nowMs sends = true ∨ r.client.moxDeactivationScheduled = false
        ∨ r.client = s.system.client) := by
  obtain ⟨⟨c, accepted⟩, hcall⟩ : ∃ r, s.system.client.call k nowMs sends = r := ⟨_, rfl⟩
  simp only [remote, RemoteSystem.step, hcall] at h
  obtain rfl := Option.some.inj h
  rcases RemoteClient.call_cases s.system.client k nowMs sends with hnone | ⟨-, hsend⟩
  · obtain ⟨rfl, rfl⟩ := Prod.mk.inj (hcall.symm.trans hnone)
    exact ⟨⟨rfl, rfl, rfl⟩, .inr (.inr rfl)⟩
  · have houtcome :=
      RemoteClient.commandOutcome s.system.client k.line k.moxDuration nowMs sends
    rw [← hsend, hcall] at houtcome
    cases houtcome with
    | refused => exact ⟨⟨rfl, rfl, rfl⟩, .inr (.inr rfl)⟩
    | moxFailed => exact ⟨⟨rfl, rfl, rfl⟩, .inr (.inl rfl)⟩
    | commandFailed => exact ⟨⟨rfl, rfl, rfl⟩, .inr (.inl rfl)⟩
    | released => exact ⟨⟨rfl, rfl, rfl⟩, .inr (.inl rfl)⟩
    | releaseFailed => exact ⟨⟨rfl, rfl, rfl⟩, .inr (.inl rfl)⟩
    | scheduled hopen hdelay =>
        refine ⟨⟨rfl, rfl, rfl⟩, .inl ?_⟩
        rw [notifies, hcall]
        simpa using hdelay

theorem asleep_notified_eq_false {r : RemoteSystem} {timedOut notifying : Bool}
    (h : r.timer.any TimerPc.waits = true → s.wait ≠ .blocking) :
    asleep ⟨r, s.wait.notified, timedOut, notifying⟩ = false := by
  rw [asleep]
  cases hwaits : r.timer.any TimerPc.waits with
  | false => rfl
  | true => exact WaitPc.alert_notified (h hwaits)

theorem Awake.call (h : Awake s) {k : KeyerCall} {sends : Sends}
    (hstep : s.callStep k nowMs sends = some s') : Awake s' := by
  obtain ⟨hlocked, r, hr, rfl⟩ := callStep_cases hstep
  obtain ⟨⟨htimer, hmain, hstop⟩, heffect⟩ := call_effect hr
  have hdeadline := deadlineInv_step h.deadline hr
  have hnotifying : s.notifying = true → r.main.joins = true := by
    rw [hmain]
    exact h.notifying
  have hjoining : r.main.joins = true → r.client.stopMoxTimerThread = true := by
    rw [hmain, hstop]
    exact h.joining
  cases hnotifies : s.notifies k nowMs sends with
  | true =>
      refine .of_awake (asleep_notified_eq_false fun hwaits => ?_) hdeadline hnotifying hjoining ?_
      · rw [locked, ← htimer, hwaits] at hlocked
        exact WaitPc.not_blocking hlocked
      · intro pc hpc hne
        rw [htimer] at hpc
        show s.wait.notified = .evaluate
        rw [h.outside pc hpc hne]
        rfl
  | false =>
      refine h.of_same hdeadline htimer rfl ?_ (fun hflag => hstop ▸ hflag) id hnotifying hjoining
      intro hsched
      rcases heffect with hsent | hcancelled | hsame
      · rw [hnotifies] at hsent
        cases hsent
      · rw [hcancelled] at hsched
        cases hsched
      · rw [hsame] at hsched ⊢
        exact ⟨hsched, rfl, rfl⟩

/-- The steps of `start` and `stop` that leave the timer thread alone. -/
theorem Awake.goesOn (h : Awake s) (hnotifying : s.notifying = false) {r : RemoteSystem}
    (hfirst : ∀ caller, s.system.main ≠ .stop .firstBlock caller) (hspawn : s.system.main ≠ .spawn)
    (hdeadline : DeadlineInv r) (htimer : r.timer = s.system.timer)
    (hscheduled : r.client.moxDeactivationScheduled = true →
      s.system.client.moxDeactivationScheduled = true
        ∧ r.client.moxScheduleToken = s.system.client.moxScheduleToken
        ∧ r.client.moxDeactivationAtMs = s.system.client.moxDeactivationAtMs)
    (hstop : r.client.stopMoxTimerThread = true → s.system.client.stopMoxTimerThread = true)
    (hjoins : r.main.joins = false) : Awake (s.goesOn r) := by
  rw [goesOn_of_ne hfirst hspawn]
  refine h.of_same hdeadline htimer rfl hscheduled hstop id ?_ ?_
  · intro hnotified
    exact absurd hnotified (by simp [hnotifying])
  · intro hjoined
    exact absurd hjoined (by simp [hjoins])

theorem Awake.main (h : Awake s) {fd : Nat} (hstep : s.mainStep ok fd = some s') : Awake s' := by
  rcases mainStep_cases hstep with ⟨hnotifying, rfl⟩ | ⟨hnotifying, hlocks, r, hr, rfl⟩
  · have hflag := h.joining (h.notifying hnotifying)
    refine .of_awake (asleep_notified_eq_false fun hwaits hblocking => ?_) h.deadline nofun
      h.joining fun pc hpc hne => ?_
    · have hasleep : s.asleep = true := asleep_iff.mpr ⟨hwaits, by rw [hblocking]; rfl⟩
      rw [(h.stopped hasleep hflag).1] at hblocking
      cases hblocking
    · show s.wait.notified = .evaluate
      rw [h.outside pc hpc hne]
      rfl
  · have hdeadline := deadlineInv_step h.deadline hr
    have houtcome : MainOutcome s.system ok fd r := mainOutcome hr
    cases houtcome with
    | firstBlock hmain =>
        have hunlocked := hlocks (by rw [hmain]; rfl)
        rw [RemoteWaits.goesOn, hmain]
        refine ⟨hdeadline, fun _ hsched => ?_, fun hasleep _ => ⟨?_, rfl⟩, fun _ => rfl,
          fun _ => rfl, h.outside⟩
        · cases hsched
        · exact waiting_of_unlocked hunlocked hasleep
    | join hmain =>
        rw [goesOn_of_ne (by simp [hmain]) (by simp [hmain])]
        refine .of_awake rfl hdeadline (fun hnotified => ?_) nofun nofun
        rw [hnotifying] at hnotified
        cases hnotified
    | guardedSend hmain hopen hunkeyed =>
        refine h.goesOn hnotifying (by simp [hmain]) (by simp [hmain]) hdeadline rfl ?_ ?_ rfl <;>
          cases hunkeyed <;> exact fun hset => by first | exact hset | exact ⟨hset, rfl, rfl⟩
    | resetMox hmain =>
        exact h.goesOn hnotifying (by simp [hmain]) (by simp [hmain]) hdeadline rfl nofun nofun rfl
    | secondBlock hmain =>
        exact h.goesOn hnotifying (by simp [hmain]) (by simp [hmain]) hdeadline rfl
          (fun hsched => ⟨hsched, rfl, rfl⟩) nofun rfl
    | spawn hmain =>
        rw [RemoteWaits.goesOn, hmain]
        refine .of_awake rfl hdeadline (fun hnotified => ?_) nofun fun _ _ _ => rfl
        rw [show s.notifying = true from hnotified] at hnotifying
        cases hnotifying
    | startFailed hmain =>
        have hfirst : ∀ caller, s.system.main ≠ .stop .firstBlock caller := by
          rcases hmain with hmain | hmain <;> simp [hmain]
        have hspawn : s.system.main ≠ .spawn := by
          rcases hmain with hmain | hmain <;> simp [hmain]
        exact h.goesOn hnotifying hfirst hspawn hdeadline rfl (fun hsched => ⟨hsched, rfl, rfl⟩) id
          rfl
    | guardedSkip hmain | clearRunning hmain | closeStop hmain | closeStart hmain
    | platformInit hmain | openConnection hmain | handshake hmain | handshakeFailed hmain
    | setRunning hmain =>
        exact h.goesOn hnotifying (by simp [hmain]) (by simp [hmain]) hdeadline rfl
          (fun hsched => ⟨hsched, rfl, rfl⟩) id rfl

/-- `start` and `stop` begin when no other is under way. -/
theorem Awake.begins (h : Awake s) (hmain : s.system.main = .idle) {r : RemoteSystem}
    (hdeadline : DeadlineInv r) (htimer : r.timer = s.system.timer)
    (hclient : r.client = s.system.client) (hjoins : r.main.joins = false) :
    Awake { s with system := r } := by
  refine h.of_same hdeadline htimer rfl ?_ ?_ id ?_ ?_
  · rw [hclient]
    exact fun hsched => ⟨hsched, rfl, rfl⟩
  · rw [hclient]
    exact id
  · intro hnotifying
    have hjoined := h.notifying hnotifying
    rw [hmain] at hjoined
    cases hjoined
  · intro hjoined
    exact absurd hjoined (by simp [hjoins])

theorem Awake.step (h : Awake s) (hstep : remoteWaits.step s a = some s') : Awake s' := by
  cases a with
  | call k nowMs sends => exact h.call hstep
  | timer nowMs ok => exact h.timer hstep
  | main ok fd => exact h.main hstep
  | timeout =>
      obtain ⟨token, deactivateAtMs, htimer, -, rfl⟩ := timeoutStep_cases hstep
      refine .of_awake (Bool.and_false _) h.deadline h.notifying h.joining fun pc hpc hne => ?_
      obtain rfl := Option.some.inj (htimer.symm.trans hpc)
      cases hne
  | spuriousWakeup =>
      obtain rfl := Option.some.inj hstep
      by_cases hblocking : s.wait = .blocking
      · cases s
        cases hblocking
        exact h
      · refine .of_awake (asleep_notified_eq_false fun _ => hblocking) h.deadline h.notifying
          h.joining fun pc hpc hne => ?_
        show s.wait.notified = .evaluate
        rw [h.outside pc hpc hne]
        rfl
  | start args =>
      obtain ⟨r, hr, rfl⟩ := Option.map_eq_some_iff.mp hstep
      have hdeadline := deadlineInv_step h.deadline hr
      cases RemoteStep.of_step hr with
      | startRejected => exact h
      | start hmain => exact h.begins hmain hdeadline rfl rfl rfl
  | stop =>
      obtain ⟨r, hr, rfl⟩ := Option.map_eq_some_iff.mp hstep
      have hdeadline := deadlineInv_step h.deadline hr
      cases RemoteStep.of_step hr with
      | stop hmain => exact h.begins hmain hdeadline rfl rfl rfl

theorem awake_of_reachable (h : remoteWaits.Reachable {} s) : Awake s :=
  h.invariant awake_init fun _ _ _ hI hstep => hI.step hstep

theorem system_of_reachable (h : remoteWaits.Reachable {} s) :
    remote.Reachable .init s.system :=
  (remoteWaits_refines.reachable trivial h).2

/-! ## The release -/

theorem timerStep_isSome {c : RemoteClient} {pc : TimerPc} {timedOut : Bool}
    (h : pc ≠ .exited) : (c.timerStep pc nowMs timedOut ok).isSome = true := by
  cases pc with
  | exited => exact absurd rfl h
  | entry => rfl
  | waiting => rfl
  | timedWait token deactivateAtMs =>
      unfold RemoteClient.timerStep
      dsimp only
      split_ifs <;> rfl

/-- Out of the wait set the timer thread can go on. -/
theorem timer_isSome {pc : TimerPc} (htimer : s.system.timer = some pc) (hexited : pc ≠ .exited)
    (hwaiting : s.wait ≠ .waiting) (nowMs : Nat) (ok : Bool) :
    (remoteWaits.step s (.timer nowMs ok)).isSome = true := by
  show (s.timerStep nowMs ok).isSome = true
  have hnext : (s.wait.next (pc.predicate s.system.client || s.timedOut)).isSome = true :=
    WaitPc.next_isSome hwaiting
  obtain ⟨next, hnext⟩ := Option.isSome_iff_exists.mp hnext
  unfold timerStep
  rw [htimer]
  dsimp only
  rw [hnext]
  cases next with
  | some wait => rfl
  | none =>
      have hsome : (s.system.client.timerStep pc nowMs s.timedOut ok).isSome = true :=
        timerStep_isSome hexited
      obtain ⟨⟨c, pc'⟩, hc⟩ := Option.isSome_iff_exists.mp hsome
      simp [remote, RemoteSystem.step, htimer, hc]

/-- In the wait set the timer thread sleeps. -/
theorem Awake.asleep_of_waiting (h : Awake s) {pc : TimerPc} (htimer : s.system.timer = some pc)
    (hwaiting : s.wait = .waiting) : s.asleep = true := by
  refine asleep_iff.mpr ⟨?_, by rw [hwaiting]; rfl⟩
  rw [htimer]
  by_contra hne
  have houtside := h.outside pc htimer (by simpa using hne)
  rw [hwaiting] at houtside
  cases houtside

/-! ## `stop` -/

/-- How many steps the timer thread takes, at most, once it has been told to
stop. -/
def stepsLeft (s : RemoteWaits) : Nat :=
  match s.system.timer with
  | none => 0
  | some .exited => 0
  | some .entry => 1
  | some _ => s.wait.stepsLeft

theorem stepsLeft_le : s.stepsLeft ≤ 2 := by
  unfold stepsLeft
  split
  · exact Nat.zero_le _
  · exact Nat.zero_le _
  · exact Nat.le_succ _
  · exact WaitPc.stepsLeft_le

theorem stepsLeft_congr (htimer : s'.system.timer = s.system.timer)
    (hwait : s'.wait.stepsLeft = s.wait.stepsLeft) : s'.stepsLeft = s.stepsLeft := by
  rw [stepsLeft, stepsLeft, htimer, hwait]

theorem stepsLeft_of_waits {pc : TimerPc} (htimer : s.system.timer = some pc)
    (hwaits : pc.waits = true) : s.stepsLeft = s.wait.stepsLeft := by
  unfold stepsLeft
  rw [htimer]
  cases pc with
  | waiting => rfl
  | timedWait token deactivateAtMs => rfl
  | entry => cases hwaits
  | exited => cases hwaits

/-- Told to stop, the thread finds its predicate true and ends. -/
theorem Awake.timer_stepsLeft (h : Awake s) (hflag : s.system.client.stopMoxTimerThread = true)
    (hstep : s.timerStep nowMs ok = some s') : 1 + s'.stepsLeft ≤ s.stepsLeft := by
  obtain ⟨pc, htimer, ⟨wait, hnext, rfl⟩ | ⟨hnext, r, hr, rfl⟩⟩ := timerStep_cases hstep
  · have hwaits : pc.waits = true := h.waits_of_next htimer hnext
    have hawake : s.wait.asleep = false := by
      by_contra hne
      have hs : s.asleep = true :=
        asleep_iff.mpr ⟨by rw [htimer]; exact hwaits, by simpa using hne⟩
      rw [(h.stopped hs hflag).1] at hnext
      cases hnext
    rw [TimerPc.predicate_of_stop hflag, Bool.true_or] at hnext
    obtain ⟨-, hless⟩ := WaitPc.alert_next hawake hnext
    have hbefore : s.stepsLeft = s.wait.stepsLeft := stepsLeft_of_waits htimer hwaits
    have hafter : stepsLeft { s with wait := wait } = wait.stepsLeft :=
      stepsLeft_of_waits htimer hwaits
    omega
  · obtain ⟨hevaluate, -⟩ := WaitPc.evaluate_of_next hnext
    have hexit : r.timer = some .exited := by
      cases RemoteStep.of_step hr with
      | timer hpc houtcome =>
          cases houtcome with
          | exit => rfl
          | sleep hstop | timedSleep hstop | keepWaiting hstop | release hstop =>
              rw [hflag] at hstop
              cases hstop
    have hleft : 1 ≤ s.stepsLeft := by
      unfold stepsLeft
      rw [htimer, hevaluate]
      cases pc with
      | entry => exact le_rfl
      | waiting => exact le_rfl
      | timedWait token deactivateAtMs => exact le_rfl
      | exited =>
          simp only [remote, RemoteSystem.step, htimer, RemoteClient.timerStep] at hr
          cases hr
    refine le_trans (le_of_eq ?_) hleft
    unfold stepsLeft
    rw [hexit]
    rfl

theorem Awake.joins_step (h : Awake s) (hjoins : s.system.main.joins = true)
    (hstays : s'.system.main.joins = true) (hstep : remoteWaits.step s a = some s') :
    (if a.isTimer then 1 else 0) + s'.stepsLeft ≤ s.stepsLeft := by
  have hflag := h.joining hjoins
  cases a with
  | call k nowMs sends =>
      obtain ⟨-, r, hr, rfl⟩ := callStep_cases hstep
      refine le_of_eq ((Nat.zero_add _).trans (stepsLeft_congr (call_effect hr).1.1 ?_))
      dsimp only
      split
      · exact WaitPc.stepsLeft_notified
      · rfl
  | timer nowMs ok => exact h.timer_stepsLeft hflag hstep
  | timeout =>
      obtain ⟨token, deactivateAtMs, htimer, hwaiting, rfl⟩ := timeoutStep_cases hstep
      refine le_of_eq ((Nat.zero_add _).trans (stepsLeft_congr rfl ?_))
      rw [hwaiting]
      rfl
  | spuriousWakeup =>
      obtain rfl := Option.some.inj hstep
      exact le_of_eq ((Nat.zero_add _).trans (stepsLeft_congr rfl WaitPc.stepsLeft_notified))
  | start args =>
      obtain ⟨r, hr, rfl⟩ := Option.map_eq_some_iff.mp hstep
      cases RemoteStep.of_step hr with
      | startRejected hmain | start hmain =>
          rw [hmain] at hjoins
          cases hjoins
  | stop =>
      obtain ⟨r, hr, rfl⟩ := Option.map_eq_some_iff.mp hstep
      cases RemoteStep.of_step hr with
      | stop hmain =>
          rw [hmain] at hjoins
          cases hjoins
  | main ok fd =>
      rcases mainStep_cases hstep with ⟨-, rfl⟩ | ⟨-, -, r, hr, rfl⟩
      · exact le_of_eq ((Nat.zero_add _).trans (stepsLeft_congr rfl WaitPc.stepsLeft_notified))
      · rw [goesOn_system] at hstays
        have houtcome : MainOutcome s.system ok fd r := mainOutcome hr
        cases houtcome with
        | firstBlock hmain =>
            rw [hmain] at hjoins
            cases hjoins
        | _ => cases hstays

theorem Awake.goes_on (h : Awake s) (hjoins : s.system.main.joins = true) :
    (∀ ok fd, (remoteWaits.step s (.main ok fd)).isSome = true)
      ∨ ∀ nowMs ok, (remoteWaits.step s (.timer nowMs ok)).isSome = true := by
  by_cases hended : s.system.timer = none ∨ s.system.timer = some .exited
  · refine .inl fun ok fd => ?_
    obtain ⟨should, caller, hmain⟩ := MainPc.exists_of_joins hjoins
    have hcoarse : (remote.step s.system (.main ok fd)).isSome = true := by
      rcases hended with htimer | htimer <;>
        simp [remote, RemoteSystem.step, RemoteSystem.mainStep, hmain, htimer]
    have hlocks : s.system.main.locks = false := by rw [hmain]; rfl
    show (s.mainStep ok fd).isSome = true
    rw [mainStep, hlocks, Bool.false_and, if_neg Bool.false_ne_true]
    split
    · rfl
    · rwa [Option.isSome_map]
  · obtain ⟨hnone, hexited⟩ := not_or.mp hended
    obtain ⟨pc, htimer⟩ := Option.ne_none_iff_exists'.mp hnone
    by_cases hwaiting : s.wait = .waiting
    · refine .inl fun ok fd => ?_
      have hs := h.asleep_of_waiting htimer hwaiting
      have hnotifying := (h.stopped hs (h.joining hjoins)).2
      show (s.mainStep ok fd).isSome = true
      rw [mainStep, hnotifying]
      rfl
    · exact .inr (timer_isSome htimer (fun heq => hexited (heq ▸ htimer)) hwaiting)

end RemoteWaits

open RemoteWaits

/-- **No release is slept through.** While MOX is on outside of `start` and
`stop`, the timer thread can go on, or it sleeps in a timed wait that ends when
the delay and the duration of the last accepted command, where they add up to an
int, are over. -/
theorem mox_release_armed {s : RemoteWaits} (h : remoteWaits.Reachable {} s)
    (hmain : s.system.main = .idle) (hrun : s.system.client.running = true)
    (hmox : s.system.client.moxActive = true) :
    ∃ t₀ d, s.system.lastAccepted = some (t₀, d) ∧
      ((∀ nowMs ok, (remoteWaits.step s (.timer nowMs ok)).isSome = true)
        ∨ s.wait = .waiting ∧ ∃ deactivateAtMs,
          s.system.timer = some (.timedWait s.system.client.moxScheduleToken deactivateAtMs)
            ∧ (InInt (s.system.client.moxReleaseDelayMs + d) →
              deactivateAtMs = t₀ + (s.system.client.moxReleaseDelayMs + d).toNat)) := by
  have hcoarse := system_of_reachable h
  have hawake := awake_of_reachable h
  have harmed := armedInv_of_reachable hcoarse
  have hlive : s.system.main.live = true := by rw [hmain]; rfl
  obtain ⟨-, hsched⟩ := harmed.armed hlive hrun hmox
  obtain ⟨pc, htimer, hexited⟩ := harmed.timer hlive (by simp [hmain]) hrun
  obtain ⟨t₀, d, hlast, hat⟩ := hawake.deadline.deadline hsched
  refine ⟨t₀, d, hlast, ?_⟩
  by_cases hwaiting : s.wait = .waiting
  · have harmed := hawake.armed (hawake.asleep_of_waiting htimer hwaiting) hsched
    exact .inr ⟨hwaiting, _, harmed, fun _ => hat⟩
  · exact .inl (timer_isSome htimer hexited hwaiting)

/-- A dit has been keyed, and the timer thread has gone to sleep. -/
def ditAsleep : List RemoteWaitAct :=
  .start ⟨"127.0.0.1", 50005, 250⟩ :: List.replicate 13 (.main true 3) ++
    [.call (.runCW .dit 60) 5 ⟨true, true, true⟩, .timer 6 true, .timer 6 true, .timer 6 true]

theorem mox_release_armed_dit : ∃ s, remoteWaits.run {} ditAsleep = some s ∧ s.wait = .waiting
    ∧ s.system.timer = some (.timedWait s.system.client.moxScheduleToken 315) := by
  obtain ⟨s, hrun, hmain, hrunning, hmox, hlast, hnone, hdelay⟩ : ∃ s,
      remoteWaits.run {} ditAsleep = some s ∧ s.system.main = .idle
        ∧ s.system.client.running = true ∧ s.system.client.moxActive = true
        ∧ s.system.lastAccepted = some (5, 60) ∧ remoteWaits.step s (.timer 7 true) = none
        ∧ s.system.client.moxReleaseDelayMs = 250 := ⟨_, rfl, rfl, rfl, rfl, rfl, rfl, rfl⟩
  obtain ⟨t₀, d, hlast', hgoes | ⟨hwait, at', htimer, hat⟩⟩ :=
    mox_release_armed ⟨ditAsleep, hrun⟩ hmain hrunning hmox
  · have hstep := hgoes 7 true
    rw [hnone] at hstep
    cases hstep
  · obtain ⟨rfl, rfl⟩ := Prod.mk.inj (Option.some.inj (hlast.symm.trans hlast'))
    rw [hdelay] at hat
    rw [hat (by decide)] at htimer
    exact ⟨s, hrun, hwait, htimer⟩

/-- **`stop` returns.** While it waits for the timer thread one of the two can
go on, and the timer thread takes two steps at most. -/
theorem remote_stop_returns {s t : RemoteWaits} {as : List RemoteWaitAct}
    (h : remoteWaits.Reachable {} s) (hjoins : s.system.main.joins = true)
    (hstays : remoteWaits.Along (fun _ _ s' => s'.system.main.joins = true) s as)
    (hrun : remoteWaits.run s as = some t) :
    as.countP RemoteWaitAct.isTimer ≤ 2 ∧
      ((∀ ok fd, (remoteWaits.step t (.main ok fd)).isSome = true)
        ∨ ∀ nowMs ok, (remoteWaits.step t (.timer nowMs ok)).isSome = true) := by
  obtain ⟨⟨hawake, hjoined⟩, hcount⟩ := Machine.run_countP
    (I := fun s => Awake s ∧ s.system.main.joins = true) (c := RemoteWaitAct.isTimer)
    (fun _ _ _ ⟨hawake, hjoins⟩ hstay hstep =>
      ⟨⟨hawake.step hstep, hstay⟩, hawake.joins_step hjoins hstay hstep⟩)
    ⟨awake_of_reachable h, hjoins⟩ hstays hrun
  exact ⟨le_trans (Nat.le_of_add_right_le hcount) stepsLeft_le, hawake.goes_on hjoined⟩

theorem remote_stop_returns_asleep : ∃ s t,
    remoteWaits.run {} (ditAsleep ++ [.stop, .main true 3]) = some s ∧ s.asleep = true
      ∧ remoteWaits.run s [.main true 3, .timer 8 true, .timer 8 true] = some t
      ∧ ∀ ok fd, (remoteWaits.step t (.main ok fd)).isSome = true := by
  obtain ⟨s, t, hbefore, hasleep, hrun, hjoins, hstays, hnone⟩ : ∃ s t,
      remoteWaits.run {} (ditAsleep ++ [.stop, .main true 3]) = some s ∧ s.asleep = true
        ∧ remoteWaits.run s [.main true 3, .timer 8 true, .timer 8 true] = some t
        ∧ s.system.main.joins = true
        ∧ remoteWaits.Along (fun _ _ s' => s'.system.main.joins = true) s
          [.main true 3, .timer 8 true, .timer 8 true]
        ∧ remoteWaits.step t (.timer 9 true) = none :=
    ⟨_, _, rfl, rfl, rfl, rfl, by decide, rfl⟩
  rcases (remote_stop_returns ⟨_, hbefore⟩ hjoins hstays hrun).2 with hmain | htimer
  · exact ⟨s, t, hbefore, hasleep, hrun, hmain⟩
  · have hstep := htimer 9 true
    rw [hnone] at hstep
    cases hstep

end CwKeyer
