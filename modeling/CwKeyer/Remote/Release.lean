import CwKeyer.Platform
import CwKeyer.Remote.Bracketing

/-!
# The scheduled MOX release

Two invariants of the release that `scheduleMoxReleaseLocked` plants and
`moxTimerLoop` carries out. `DeadlineInv`: a scheduled release is the one
of the last accepted command, and a blocked timer thread whose token is
still current waits for exactly that release. So the timer never cuts an
element short (`timer_never_cuts_short`). `ArmedInv`: as long as a
session runs outside `stop`, MOX is on only with a release scheduled and
a timer thread alive to carry it out (`no_orphaned_mox`).
-/

namespace CwKeyer

namespace RemoteClient

theorem timerRelease_fields (c : RemoteClient) (ok : Bool) :
    (c.timerRelease ok).moxDeactivationScheduled = false
      ∧ (c.timerRelease ok).moxActive = false := by
  rcases timerRelease_cases c ok with ⟨hmox, heq⟩ | ⟨-, hunkeyed⟩
  · simp [heq, hmox]
  · generalize c.timerRelease ok = c' at hunkeyed
    cases hunkeyed <;> exact ⟨rfl, rfl⟩

/-- A line the timer sends is the end of a release that is due. -/
theorem TimerOutcome.sends {c c' : RemoteClient} {pc pc' : TimerPc} {nowMs : Nat}
    {timedOut ok : Bool} (h : TimerOutcome c pc nowMs timedOut ok (c', pc'))
    (hsent : c'.wire ≠ c.wire) :
    c.moxDeactivationScheduled = true
      ∧ (c.moxDeactivationAtMs ≤ nowMs ∨
        timedOut = true ∧ ∃ deactivateAtMs, pc = .timedWait c.moxScheduleToken deactivateAtMs)
      ∧ c'.wire = c.wire ++ [.trx false] := by
  cases h with
  | exit => exact absurd rfl hsent
  | sleep => exact absurd rfl hsent
  | timedSleep => exact absurd rfl hsent
  | keepWaiting => exact absurd rfl hsent
  | release hstop hsched hdue hrelease =>
      refine ⟨hsched, hdue, ?_⟩
      rcases timerRelease_cases c ok with ⟨-, heq⟩ | ⟨-, hunkeyed⟩
      · rw [hrelease, heq] at hsent
        exact absurd rfl hsent
      · rw [← hrelease] at hunkeyed
        cases hunkeyed with
        | sent => rfl
        | failed => exact absurd rfl hsent
        | closed => exact absurd rfl hsent

theorem TimerOutcome.not_stopped_of_sends {c c' : RemoteClient} {pc pc' : TimerPc} {nowMs : Nat}
    {timedOut ok : Bool} (h : TimerOutcome c pc nowMs timedOut ok (c', pc'))
    (hsent : c'.wire ≠ c.wire) : c.stopMoxTimerThread = false := by
  cases h with
  | exit => exact absurd rfl hsent
  | sleep => exact absurd rfl hsent
  | timedSleep => exact absurd rfl hsent
  | keepWaiting => exact absurd rfl hsent
  | release hstop => exact hstop

end RemoteClient

/-! ## The deadline -/

structure DeadlineInv (s : RemoteSystem) : Prop where
  deadline : s.client.moxDeactivationScheduled = true →
    ∃ t₀ d, s.lastAccepted = some (t₀, d)
      ∧ s.client.moxDeactivationAtMs = t₀ + (s.client.moxReleaseDelayMs + d).toNat
  token : ∀ token deactivateAtMs, s.timer = some (.timedWait token deactivateAtMs) →
    token ≤ s.client.moxScheduleToken
  current : ∀ deactivateAtMs,
    s.timer = some (.timedWait s.client.moxScheduleToken deactivateAtMs) →
    s.client.moxDeactivationScheduled = true →
    deactivateAtMs = s.client.moxDeactivationAtMs

theorem deadlineInv_init : DeadlineInv .init :=
  ⟨by simp [RemoteSystem.init], by simp [RemoteSystem.init], by simp [RemoteSystem.init]⟩

/-- Cancelling the release outdates whatever the timer waits for. -/
theorem DeadlineInv.cancel {s s' : RemoteSystem} (hI : DeadlineInv s)
    (hsched : s'.client.moxDeactivationScheduled = false) (htimer : s'.timer = s.timer)
    (htoken : s.client.moxScheduleToken ≤ s'.client.moxScheduleToken) : DeadlineInv s' := by
  refine ⟨?_, ?_, ?_⟩
  · intro h
    rw [hsched] at h
    cases h
  · intro token deactivateAtMs h
    rw [htimer] at h
    exact Nat.le_trans (hI.token token deactivateAtMs h) htoken
  · intro _ _ h
    rw [hsched] at h
    cases h

theorem deadlineInv_command {s : RemoteSystem} {k : KeyerCall} {nowMs : Nat} {ok : Sends}
    {c : RemoteClient} {accepted : Bool} (hI : DeadlineInv s)
    (h : RemoteClient.CommandOutcome s.client k.line k.moxDuration nowMs ok (c, accepted)) :
    DeadlineInv { s with
      client := c
      lastAccepted := if accepted then some (nowMs, k.moxDuration) else s.lastAccepted
      clock := nowMs } := by
  cases h with
  | refused => exact ⟨hI.deadline, hI.token, hI.current⟩
  | moxFailed => exact hI.cancel rfl rfl (Nat.le_succ _)
  | commandFailed => exact hI.cancel rfl rfl (Nat.le_succ _)
  | released => exact hI.cancel rfl rfl (Nat.le_succ _)
  | releaseFailed => exact hI.cancel rfl rfl (Nat.le_succ _)
  | scheduled =>
      refine ⟨fun _ => ⟨nowMs, k.moxDuration, rfl, rfl⟩, fun token at' h => ?_,
        fun at' h => ?_⟩
      · have := hI.token token at' h
        exact Nat.le_trans this (Nat.le_add_right _ 2)
      · have := hI.token _ at' h
        simp only at this
        omega

theorem deadlineInv_timer {s : RemoteSystem} {pc pc' : TimerPc} {nowMs : Nat}
    {timedOut ok : Bool} {c : RemoteClient} (hI : DeadlineInv s) (hpc : s.timer = some pc)
    (h : RemoteClient.TimerOutcome s.client pc nowMs timedOut ok (c, pc')) :
    DeadlineInv { s with client := c, timer := some pc', clock := nowMs } := by
  cases h with
  | exit => exact ⟨hI.deadline, by simp, by simp⟩
  | sleep => exact ⟨hI.deadline, by simp, by simp⟩
  | timedSleep => exact ⟨hI.deadline, by simp, by simp⟩
  | keepWaiting =>
      rw [← hpc]
      exact ⟨hI.deadline, hI.token, hI.current⟩
  | release hstop hsched hdue hrelease =>
      have hoff := (RemoteClient.timerRelease_fields s.client ok).1
      rw [← hrelease] at hoff
      exact ⟨fun h => by simp [hoff] at h, by simp, by simp⟩

theorem deadlineInv_step {s s' : RemoteSystem} {a : RemoteAct} (hI : DeadlineInv s)
    (hstep : remote.step s a = some s') : DeadlineInv s' := by
  cases RemoteStep.of_step hstep with
  | callNothing => exact ⟨hI.deadline, hI.token, hI.current⟩
  | command hsends hcommand => exact deadlineInv_command hI hcommand
  | timer hpc htimer => exact deadlineInv_timer hI hpc htimer
  | startRejected => exact hI
  | start => exact ⟨hI.deadline, hI.token, hI.current⟩
  | stop => exact ⟨hI.deadline, hI.token, hI.current⟩
  | main hmain =>
      cases hmain with
      | firstBlock => exact hI.cancel rfl rfl (Nat.le_succ _)
      | join => exact ⟨hI.deadline, by simp, by simp⟩
      | guardedSend hmain hopen hunkeyed =>
          cases hunkeyed <;> exact ⟨hI.deadline, hI.token, hI.current⟩
      | resetMox => exact hI.cancel rfl rfl (Nat.le_succ _)
      | spawn => exact ⟨hI.deadline, by simp, by simp⟩
      | guardedSkip => exact ⟨hI.deadline, hI.token, hI.current⟩
      | secondBlock => exact ⟨hI.deadline, hI.token, hI.current⟩
      | clearRunning => exact ⟨hI.deadline, hI.token, hI.current⟩
      | closeStop => exact ⟨hI.deadline, hI.token, hI.current⟩
      | closeStart => exact ⟨hI.deadline, hI.token, hI.current⟩
      | platformInit => exact ⟨hI.deadline, hI.token, hI.current⟩
      | openConnection => exact ⟨hI.deadline, hI.token, hI.current⟩
      | handshake => exact ⟨hI.deadline, hI.token, hI.current⟩
      | startFailed => exact ⟨hI.deadline, hI.token, hI.current⟩
      | handshakeFailed => exact ⟨hI.deadline, hI.token, hI.current⟩
      | setRunning => exact ⟨hI.deadline, hI.token, hI.current⟩

/-- What `wait_for` promises on a steady clock: when it times out, the
time it was given has passed, so the clock has reached the deadline. It
may time out late. -/
def waitsFullTime (s : RemoteSystem) : RemoteAct → Bool
  | .timer nowMs true _ =>
      match s.timer with
      | some (.timedWait _ deactivateAtMs) => deactivateAtMs ≤ nowMs
      | _ => true
  | _ => true

/-- The timer finds the scheduled release due. -/
theorem release_due {s : RemoteSystem} {pc : TimerPc} {nowMs : Nat} {timedOut ok : Bool}
    (hI : DeadlineInv s) (hwait : waitsFullTime s (.timer nowMs timedOut ok) = true)
    (hpc : s.timer = some pc)
    (hsched : s.client.moxDeactivationScheduled = true)
    (hdue : s.client.moxDeactivationAtMs ≤ nowMs ∨
      timedOut = true ∧ ∃ at', pc = .timedWait s.client.moxScheduleToken at') :
    s.client.moxDeactivationAtMs ≤ nowMs := by
  rcases hdue with hdue | ⟨rfl, at', rfl⟩
  · exact hdue
  · have hreached : at' ≤ nowMs := by simpa [waitsFullTime, hpc] using hwait
    rwa [hI.current at' hpc hsched] at hreached

/-- When the timer sends `trx:0,false;`, the delay and the duration of
the last accepted command have passed since that command. -/
def ReleasesOnTime (s : RemoteSystem) (a : RemoteAct) (s' : RemoteSystem) : Prop :=
  ∀ nowMs timedOut ok, a = .timer nowMs timedOut ok →
    s'.client.wire = s.client.wire ++ [.trx false] →
    ∃ (t₀ : Nat) (d : Int), s.lastAccepted = some (t₀, d)
      ∧ (t₀ : Int) + s.client.moxReleaseDelayMs + d ≤ nowMs

theorem releasesOnTime_step {s s' : RemoteSystem} {a : RemoteAct} (hI : DeadlineInv s)
    (hwait : waitsFullTime s a = true) (hstep : remote.step s a = some s') :
    ReleasesOnTime s a s' := by
  rintro nowMs timedOut ok rfl hsent
  cases RemoteStep.of_step hstep with
  | @timer _ _ _ c pc pc' hpc htimer =>
      have hwire : c.wire = s.client.wire ++ [.trx false] := hsent
      obtain ⟨hsched, hdue, -⟩ := htimer.sends (by simp [hwire])
      have hreached := release_due hI hwait hpc hsched hdue
      obtain ⟨t₀, d, hlast, hdeadline⟩ := hI.deadline hsched
      exact ⟨t₀, d, hlast, by omega⟩

/-- **The timer never cuts an element short.** In every run, whatever the
commands, delays, clock readings and wake-ups, provided only that a timed
wait does not time out early. -/
theorem timer_never_cuts_short {as : List RemoteAct}
    (hwait : remote.Along (fun s a _ => waitsFullTime s a) .init as) :
    remote.Along ReleasesOnTime .init as :=
  Machine.along_of_invariant (I := DeadlineInv)
    (fun _ _ _ hI hwait hstep =>
      ⟨deadlineInv_step hI hstep, releasesOnTime_step hI hwait hstep⟩)
    deadlineInv_init hwait

theorem timer_never_cuts_short_dit :
    ∃ s, remote.run .init ditSession = some s ∧ s.client.wire.contains (.trx false) = true
      ∧ remote.Along (fun s a _ => waitsFullTime s a) .init ditSession
      ∧ remote.Along ReleasesOnTime .init ditSession :=
  ⟨_, rfl, rfl, by decide, timer_never_cuts_short (by decide)⟩

/-! ## No orphaned MOX -/

/-- A session that runs here has its timer thread and no `stop` has
touched it yet. -/
def MainPc.live : MainPc → Bool
  | .idle => true
  | .spawn => true
  | .stop .firstBlock _ => true
  | _ => false

theorem MainPc.not_quiet_of_live {m : MainPc} (h : m.live = true) : m.quiet = false := by
  cases m with
  | stop pc caller => cases pc <;> simp_all [live, quiet]
  | _ => simp_all [live, quiet]

structure ArmedInv (s : RemoteSystem) : Prop where
  stopFlag : s.main.live = true → s.client.running = true →
    s.client.stopMoxTimerThread = false
  timer : s.main.live = true → s.main ≠ .spawn → s.client.running = true →
    ∃ pc, s.timer = some pc ∧ pc ≠ .exited
  armed : s.main.live = true → s.client.running = true → s.client.moxActive = true →
    0 < s.client.moxReleaseDelayMs ∧ s.client.moxDeactivationScheduled = true
  undelayed : s.client.running = true → s.client.moxReleaseDelayMs ≤ 0 →
    s.client.moxActive = false

theorem armedInv_init : ArmedInv .init :=
  ⟨by simp [RemoteSystem.init], by simp [RemoteSystem.init], by simp [RemoteSystem.init],
    by simp [RemoteSystem.init]⟩

/-- Without a session there is nothing to show. -/
theorem ArmedInv.of_not_running {s : RemoteSystem} (h : s.client.running = false) :
    ArmedInv s :=
  ⟨by simp [h], by simp [h], by simp [h], by simp [h]⟩

/-- With MOX off there is only the timer thread to look after. -/
theorem ArmedInv.of_not_active {s : RemoteSystem} (hmox : s.client.moxActive = false)
    (hstop : s.main.live = true → s.client.running = true →
      s.client.stopMoxTimerThread = false)
    (htimer : s.main.live = true → s.main ≠ .spawn → s.client.running = true →
      ∃ pc, s.timer = some pc ∧ pc ≠ .exited) : ArmedInv s :=
  ⟨hstop, htimer, by simp [hmox], by simp [hmox]⟩

theorem armedInv_command {s : RemoteSystem} {k : KeyerCall} {nowMs : Nat} {ok : Sends}
    {c : RemoteClient} {accepted : Bool} {last : Option (Nat × Int)} (hI : ArmedInv s)
    (h : RemoteClient.CommandOutcome s.client k.line k.moxDuration nowMs ok (c, accepted)) :
    ArmedInv { s with client := c, lastAccepted := last, clock := nowMs } := by
  cases h with
  | refused => exact ⟨hI.stopFlag, hI.timer, hI.armed, hI.undelayed⟩
  | moxFailed => exact .of_not_running rfl
  | commandFailed => exact .of_not_running rfl
  | released => exact .of_not_active rfl hI.stopFlag hI.timer
  | releaseFailed => exact .of_not_running rfl
  | scheduled hopen hdelay =>
      exact ⟨hI.stopFlag, hI.timer, fun _ _ _ => ⟨hdelay, rfl⟩,
        fun _ h => absurd hdelay (Int.not_lt.mpr h)⟩

theorem armedInv_timer {s : RemoteSystem} {pc pc' : TimerPc} {nowMs : Nat}
    {timedOut ok : Bool} {c : RemoteClient} (hI : ArmedInv s)
    (h : RemoteClient.TimerOutcome s.client pc nowMs timedOut ok (c, pc')) :
    ArmedInv { s with client := c, timer := some pc', clock := nowMs } := by
  cases h with
  | exit hstop =>
      refine ⟨hI.stopFlag, ?_, hI.armed, hI.undelayed⟩
      intro hlive _ hrun
      have := hI.stopFlag hlive hrun
      simp [hstop] at this
  | sleep => exact ⟨hI.stopFlag, by simp, hI.armed, hI.undelayed⟩
  | timedSleep => exact ⟨hI.stopFlag, by simp, hI.armed, hI.undelayed⟩
  | keepWaiting hstop hwait => exact ⟨hI.stopFlag, by simp [hwait], hI.armed, hI.undelayed⟩
  | release hstop hsched hdue hrelease =>
      have hoff := (RemoteClient.timerRelease_fields s.client ok).2
      rw [← hrelease] at hoff
      have houtcome : RemoteClient.TimerOutcome s.client pc nowMs timedOut ok (c, .waiting) :=
        .release hstop hsched hdue hrelease
      exact .of_not_active hoff (fun _ _ => houtcome.frame.2.1.trans hstop) (by simp)

theorem armedInv_main {s s' : RemoteSystem} {ok : Bool} {fd : Nat} (hP : PhaseInv s)
    (hI : ArmedInv s) (h : MainOutcome s ok fd s') : ArmedInv s' := by
  have hquiet : s.main.quiet = true → s'.client.running = s.client.running → ArmedInv s' :=
    fun hmain hrun => .of_not_running (hrun.trans (hP.quiet hmain))
  cases h with
  | firstBlock => exact ⟨by simp [MainPc.live], by simp [MainPc.live], by simp [MainPc.live],
      hI.undelayed⟩
  | join => exact ⟨by simp [MainPc.live], by simp [MainPc.live], by simp [MainPc.live],
      hI.undelayed⟩
  | guardedSend hmain hopen hunkeyed =>
      cases hunkeyed <;>
        exact .of_not_active rfl (by simp [MainPc.live]) (by simp [MainPc.live])
  | guardedSkip => exact ⟨by simp [MainPc.live], by simp [MainPc.live], by simp [MainPc.live],
      hI.undelayed⟩
  | secondBlock => exact .of_not_active rfl (by simp [MainPc.live]) (by simp [MainPc.live])
  | clearRunning => exact .of_not_running rfl
  | closeStop hmain => exact hquiet (by rw [hmain]; rfl) rfl
  | closeStart hmain => exact hquiet (by rw [hmain]; rfl) rfl
  | platformInit hmain => exact hquiet (by rw [hmain]; rfl) rfl
  | openConnection hmain => exact hquiet (by rw [hmain]; rfl) rfl
  | handshake hmain => exact hquiet (by rw [hmain]; rfl) rfl
  | startFailed hmain =>
      refine hquiet ?_ rfl
      rcases hmain with hmain | hmain <;> rw [hmain] <;> rfl
  | handshakeFailed hmain => exact hquiet (by rw [hmain]; rfl) rfl
  | resetMox hmain => exact hquiet (by rw [hmain]; rfl) rfl
  | setRunning hmain =>
      obtain ⟨hmox, hstop, -⟩ := hP.reset hmain
      exact .of_not_active hmox (fun _ _ => hstop) (by simp)
  | spawn hmain =>
      have hlive : s.main.live = true := by rw [hmain]; rfl
      exact ⟨fun _ => hI.stopFlag hlive, by simp, fun _ => hI.armed hlive, hI.undelayed⟩

theorem armedInv_step {s s' : RemoteSystem} {a : RemoteAct} (hP : PhaseInv s)
    (hI : ArmedInv s) (hstep : remote.step s a = some s') : ArmedInv s' := by
  cases RemoteStep.of_step hstep with
  | callNothing => exact ⟨hI.stopFlag, hI.timer, hI.armed, hI.undelayed⟩
  | command hsends hcommand => exact armedInv_command hI hcommand
  | timer hpc htimer => exact armedInv_timer hI htimer
  | startRejected => exact hI
  | start hmain =>
      have hlive : s.main.live = true := by rw [hmain]; rfl
      exact ⟨fun _ => hI.stopFlag hlive, fun _ _ => hI.timer hlive (by simp [hmain]),
        fun _ => hI.armed hlive, hI.undelayed⟩
  | stop hmain =>
      have hlive : s.main.live = true := by rw [hmain]; rfl
      exact ⟨fun _ => hI.stopFlag hlive, fun _ _ => hI.timer hlive (by simp [hmain]),
        fun _ => hI.armed hlive, hI.undelayed⟩
  | main hmain => exact armedInv_main hP hI hmain

theorem armedInv_of_reachable {s : RemoteSystem} (h : remote.Reachable .init s) :
    ArmedInv s := by
  refine (h.invariant (I := fun s => PhaseInv s ∧ ArmedInv s)
    ⟨phaseInv_init, armedInv_init⟩ ?_).2
  exact fun _ _ _ hI hstep => ⟨phaseInv_step hI.1 hstep, armedInv_step hI.1 hI.2 hstep⟩

theorem deadlineInv_of_reachable {s : RemoteSystem} (h : remote.Reachable .init s) :
    DeadlineInv s :=
  h.invariant deadlineInv_init fun _ _ _ hI hstep => deadlineInv_step hI hstep

/-- **No orphaned MOX.** In every reachable state with `m_running` set:
outside `start` and `stop`, if MOX is on then the delay is positive, a
release is scheduled, at the deadline of the last accepted command as long
as its delay and duration add up to an int, and the timer thread has not
exited; and without a delay MOX is off. -/
theorem no_orphaned_mox {s : RemoteSystem} (h : remote.Reachable .init s)
    (hrun : s.client.running = true) :
    (s.main = .idle → s.client.moxActive = true →
      0 < s.client.moxReleaseDelayMs
        ∧ s.client.moxDeactivationScheduled = true
        ∧ (∃ t₀ d, s.lastAccepted = some (t₀, d) ∧ (InInt (s.client.moxReleaseDelayMs + d) →
          s.client.moxDeactivationAtMs = t₀ + (s.client.moxReleaseDelayMs + d).toNat))
        ∧ ∃ pc, s.timer = some pc ∧ pc ≠ .exited)
      ∧ (s.client.moxReleaseDelayMs ≤ 0 → s.client.moxActive = false) := by
  have hA := armedInv_of_reachable h
  refine ⟨?_, hA.undelayed hrun⟩
  intro hmain hmox
  have hlive : s.main.live = true := by rw [hmain]; rfl
  obtain ⟨hdelay, hsched⟩ := hA.armed hlive hrun hmox
  obtain ⟨t₀, d, hlast, hdeadline⟩ := (deadlineInv_of_reachable h).deadline hsched
  exact ⟨hdelay, hsched, ⟨t₀, d, hlast, fun _ => hdeadline⟩,
    hA.timer hlive (by simp [hmain]) hrun⟩

/-- The dit session just before the timer runs. -/
theorem no_orphaned_mox_dit :
    ∃ s, remote.run .init (ditSession.take 14) = some s ∧ s.client.moxActive = true
      ∧ ∃ t₀ d, s.lastAccepted = some (t₀, d)
        ∧ s.client.moxDeactivationAtMs = t₀ + (s.client.moxReleaseDelayMs + d).toNat := by
  obtain ⟨-, -, ⟨t₀, d, hlast, hdeadline⟩, -⟩ :=
    (no_orphaned_mox ⟨ditSession.take 14, rfl⟩ rfl).1 rfl rfl
  obtain ⟨rfl, rfl⟩ := Prod.mk.inj (Option.some.inj hlast)
  exact ⟨_, rfl, rfl, _, _, rfl, hdeadline (by decide)⟩

end CwKeyer
