import CwKeyer.Remote.Stop

/-!
# MOX and the straight key

A key-down is sent as an untimed command, and `sendCommand` hands it to
`sendKeyerCommand` with duration 0: its MOX release is due one release
delay after the press, however long the key is held, and at once when no
delay is configured. `mox_held_while_key_down` says exactly when this
does no harm on a working connection: there is a delay whenever the key
is pressed, and while it is down the timer thread does not get to run
once the delay and the duration of the last accepted command are over.
-/

namespace CwKeyer

/-- What a line does to the remote key. -/
def Line.keyAfter (line : Line) (keyDown : Bool) : Bool :=
  match line with
  | .keyer down => down
  | .trx _ => keyDown
  | .keyerTimed _ => keyDown

/-- The key is down after these lines: the last untimed keyer line is
`keyer:0,true;`. -/
def keyDown (wire : List Line) : Bool := wire.foldl (fun down line => line.keyAfter down) false

@[simp] theorem keyDown_nil : keyDown [] = false := rfl

@[simp] theorem keyDown_snoc (wire : List Line) (line : Line) :
    keyDown (wire ++ [line]) = line.keyAfter (keyDown wire) := by
  simp [keyDown]

/-- The release time of every command is an int. -/
def delaysFit (s : RemoteSystem) : RemoteAct → Bool
  | .call k _ _ => InInt (s.client.moxReleaseDelayMs + k.moxDuration)
  | _ => true

/-- The connection works, a timed wait does not time out early, and the sum
of a delay and a duration does not overflow. -/
def ordinary (s : RemoteSystem) (a : RemoteAct) : Bool :=
  sendsOk s a && waitsFullTime s a && delaysFit s a

/-- At this time the release delay and the duration of the last accepted
command are over. -/
def delayOver (s : RemoteSystem) (nowMs : Nat) : Bool :=
  s.lastAccepted.any fun (t₀, d) => (t₀ : Int) + s.client.moxReleaseDelayMs + d ≤ nowMs

/-- The thread is in its timed wait for the last command, and this has not
timed out. -/
def waitsOn (s : RemoteSystem) (timedOut : Bool) : Bool :=
  match s.timer with
  | some (.timedWait token _) => token = s.client.moxScheduleToken && !timedOut
  | _ => false

/-- The key is pressed with a release delay configured, and with the key
down the timer thread gets no further than its wait once the delay and the
duration of the last accepted command are over. -/
def heldBriefly (s : RemoteSystem) : RemoteAct → Bool
  | .call k _ _ => !(k = .startRunCw && s.client.canSend && s.client.moxReleaseDelayMs ≤ 0)
  | .timer nowMs timedOut _ =>
      !(keyDown s.client.wire && !s.client.stopMoxTimerThread && delayOver s nowMs
        && !waitsOn s timedOut)
  | _ => true

/-- The commands and the timer do not send `trx:0,false;` while the key is
down. -/
def KeepsMoxOn (s : RemoteSystem) (a : RemoteAct) (s' : RemoteSystem) : Prop :=
  match a with
  | .call .. | .timer .. =>
      ∀ u v, s'.client.wire = s.client.wire ++ u ++ .trx false :: v →
        keyDown (s.client.wire ++ u) = false
  | _ => True

namespace RemoteClient

theorem keyDown_moxPrefix (c : RemoteClient) :
    keyDown (c.wire ++ c.moxPrefix) = keyDown c.wire := by
  unfold moxPrefix
  split
  · simp
  · simp [Line.keyAfter]

theorem timerStep_waitsOn {c c' : RemoteClient} {pc' : TimerPc} {deactivateAtMs nowMs : Nat}
    {ok : Bool}
    (h : c.timerStep (.timedWait c.moxScheduleToken deactivateAtMs) nowMs false ok
      = some (c', pc')) : c' = c := by
  grind [timerStep, timerHead]

theorem timerStep_releases {c : RemoteClient} {pc : TimerPc} {nowMs : Nat} {timedOut ok : Bool}
    (hstop : c.stopMoxTimerThread = false) (hsched : c.moxDeactivationScheduled = true)
    (hdue : c.moxDeactivationAtMs ≤ nowMs) (hexited : pc ≠ .exited)
    (hwait : ∀ deactivateAtMs, pc = .timedWait c.moxScheduleToken deactivateAtMs →
      timedOut = true) :
    c.timerStep pc nowMs timedOut ok = some (c.timerRelease ok, .waiting) := by
  cases pc <;> grind [timerStep, timerHead]

end RemoteClient

/-- What a command sends before the release line. -/
theorem closing_not_mem (c : RemoteClient) (k : KeyerCall) :
    Line.trx false ∉ c.moxPrefix ++ [k.line] := by
  unfold RemoteClient.moxPrefix
  cases k <;> cases c.moxActive <;> simp [KeyerCall.line]

/-! ## The invariant -/

structure KeyInv (s : RemoteSystem) : Prop where
  undelayed : s.client.moxReleaseDelayMs ≤ 0 → keyDown s.client.wire = false
  held : s.main.live = true → s.client.running = true → keyDown s.client.wire = true →
    s.client.moxActive = true
  duration : ∀ t₀ d, s.lastAccepted = some (t₀, d) → 0 ≤ d

theorem keyInv_init : KeyInv .init := by
  constructor <;> simp [RemoteSystem.init]

/-- Without a delay a command leaves the key up. -/
theorem keyUp_command {s : RemoteSystem} {k : KeyerCall} {nowMs : Nat} {ok : Sends}
    (hI : KeyInv s) (hbrief : heldBriefly s (.call k nowMs ok) = true)
    (hopen : s.client.canSend = true) (hdelay : s.client.moxReleaseDelayMs ≤ 0) :
    keyDown (s.client.wire ++ s.client.moxPrefix ++ [k.line]) = false := by
  have hup : keyDown s.client.wire = false := hI.undelayed hdelay
  rw [keyDown_snoc, RemoteClient.keyDown_moxPrefix, hup]
  cases k with
  | runCW => rfl
  | startRunCw => simp [heldBriefly, hopen, hdelay] at hbrief
  | stopRunCw => rfl

theorem moxDuration_nonneg {k : KeyerCall} (h : k.sends = true) : 0 ≤ k.moxDuration := by
  cases k with
  | runCW item duration =>
      have hpos : 0 < duration := by
        simp only [KeyerCall.sends, Bool.and_eq_true, decide_eq_true_eq] at h
        exact h.2
      exact hpos.le
  | startRunCw => exact le_rfl
  | stopRunCw => exact le_rfl

/-- A timer thread that has not been told to stop is that of a session on an
open connection. -/
theorem SessionInv.canSend_of_timer {s : RemoteSystem} (hS : SessionInv s)
    (htimer : s.timer ≠ none) (hstop : s.client.stopMoxTimerThread = false) :
    s.client.canSend = true := by
  obtain ⟨hlive, hsock⟩ := hS.alive htimer hstop
  have hrun := hS.session hsock (MainPc.not_quiet_of_live hlive)
  simp [RemoteClient.canSend, hrun, hsock]

/-- The release of a running session with MOX on sends its line. -/
theorem release_sends {c : RemoteClient} (hopen : c.canSend = true) (hmox : c.moxActive = true) :
    (c.timerRelease true).wire = c.wire ++ [.trx false] := by
  rcases RemoteClient.timerRelease_cases c true with ⟨hoff, -⟩ | ⟨-, hunkeyed⟩
  · simp [hmox] at hoff
  · generalize c.timerRelease true = c' at hunkeyed
    cases hunkeyed with
    | sent => rfl
    | failed _ h => cases h
    | closed h => exact absurd hopen (by simpa [RemoteClient.canSend] using h)

theorem keyInv_command {s : RemoteSystem} {k : KeyerCall} {nowMs : Nat} {ok : Sends}
    {c : RemoteClient} {accepted : Bool} (hI : KeyInv s) (hsends : k.sends = true)
    (hbrief : heldBriefly s (.call k nowMs ok) = true)
    (h : RemoteClient.CommandOutcome s.client k.line k.moxDuration nowMs ok (c, accepted)) :
    KeyInv { s with
      client := c
      lastAccepted := if accepted then some (nowMs, k.moxDuration) else s.lastAccepted
      clock := nowMs } := by
  have hduration : ∀ t₀ d, some (nowMs, k.moxDuration) = some (t₀, d) → 0 ≤ d := by
    rintro t₀ d ⟨⟩
    exact moxDuration_nonneg hsends
  cases h with
  | refused => exact ⟨hI.undelayed, hI.held, hI.duration⟩
  | moxFailed => exact ⟨hI.undelayed, by simp, hI.duration⟩
  | commandFailed =>
      refine ⟨?_, by simp, hI.duration⟩
      intro hdelay
      exact (RemoteClient.keyDown_moxPrefix s.client).trans (hI.undelayed hdelay)
  | released hopen hdelay =>
      have hup : keyDown (s.client.wire ++ s.client.moxPrefix ++ [k.line, .trx false]) = false := by
        rw [List.append_cons, keyDown_snoc]
        exact keyUp_command hI hbrief hopen hdelay
      refine ⟨fun _ => hup, fun _ _ hdown => ?_, hduration⟩
      cases hup.symm.trans hdown
  | releaseFailed hopen hdelay =>
      exact ⟨fun _ => keyUp_command hI hbrief hopen hdelay, by simp, hI.duration⟩
  | scheduled hopen hdelay =>
      exact ⟨fun h => absurd hdelay (Int.not_lt.mpr h), fun _ _ _ => rfl, hduration⟩

theorem keyInv_timer {s : RemoteSystem} {pc pc' : TimerPc} {nowMs : Nat}
    {timedOut ok : Bool} {c : RemoteClient} (hS : SessionInv s) (hI : KeyInv s)
    (hok : ok = true) (hpc : s.timer = some pc)
    (hup : c.wire ≠ s.client.wire → keyDown s.client.wire = false)
    (h : RemoteClient.TimerOutcome s.client pc nowMs timedOut ok (c, pc')) :
    KeyInv { s with client := c, timer := some pc', clock := nowMs } := by
  refine ⟨?_, ?_, hI.duration⟩
  · intro hdelay
    have hbefore : keyDown s.client.wire = false :=
      hI.undelayed (by rw [← h.frame.2.2.1]; exact hdelay)
    show keyDown c.wire = false
    by_cases hsent : c.wire = s.client.wire
    · rwa [hsent]
    · simpa [(h.sends hsent).2.2, Line.keyAfter] using hbefore
  · intro hlive hrun hdown
    cases h with
    | exit => exact hI.held hlive hrun hdown
    | sleep => exact hI.held hlive hrun hdown
    | timedSleep => exact hI.held hlive hrun hdown
    | keepWaiting => exact hI.held hlive hrun hdown
    | release hstop hsched hdue hrelease =>
        exfalso
        subst hok hrelease
        cases hmox : s.client.moxActive with
        | false =>
            -- nothing is sent, and with MOX off the key was up
            have hsame : s.client.timerRelease true =
                { s.client with moxDeactivationScheduled := false } := by
              simp [RemoteClient.timerRelease, hmox]
            rw [hsame] at hrun hdown
            rw [hI.held hlive hrun hdown] at hmox
            cases hmox
        | true =>
            have hopen := hS.canSend_of_timer (by simp [hpc]) hstop
            have hwire := release_sends hopen hmox
            have hdown : keyDown (s.client.timerRelease true).wire = true := hdown
            rw [hwire, keyDown_snoc] at hdown
            rw [Line.keyAfter, hup (by simp [hwire])] at hdown
            cases hdown

theorem keyInv_main {s s' : RemoteSystem} {ok : Bool} {fd : Nat} (hP : PhaseInv s)
    (hI : KeyInv s) (h : MainOutcome s ok fd s') : KeyInv s' := by
  have hquiet : s.main.quiet = true → s.client.running = false := hP.quiet
  cases h with
  | firstBlock => exact ⟨hI.undelayed, by simp [MainPc.live], hI.duration⟩
  | join => exact ⟨hI.undelayed, by simp [MainPc.live], hI.duration⟩
  | guardedSend hmain hopen hunkeyed =>
      refine ⟨?_, by simp [MainPc.live], hI.duration⟩
      intro hdelay
      cases hunkeyed with
      | sent =>
          have := hI.undelayed hdelay
          simpa [Line.keyAfter] using this
      | failed => exact hI.undelayed hdelay
      | closed => exact hI.undelayed hdelay
  | guardedSkip => exact ⟨hI.undelayed, by simp [MainPc.live], hI.duration⟩
  | secondBlock => exact ⟨hI.undelayed, by simp [MainPc.live], hI.duration⟩
  | clearRunning => exact ⟨hI.undelayed, by simp, hI.duration⟩
  | closeStop hmain =>
      have hrun := hquiet (by rw [hmain]; rfl)
      exact ⟨hI.undelayed, by simp [hrun], hI.duration⟩
  | closeStart => exact ⟨hI.undelayed, by simp [MainPc.live], hI.duration⟩
  | platformInit => exact ⟨hI.undelayed, by simp [MainPc.live], hI.duration⟩
  | openConnection => exact ⟨fun _ => rfl, by simp [MainPc.live], hI.duration⟩
  | handshake => exact ⟨hI.undelayed, by simp [MainPc.live], hI.duration⟩
  | startFailed hmain =>
      have hrun := hquiet (by rcases hmain with hmain | hmain <;> rw [hmain] <;> rfl)
      exact ⟨hI.undelayed, by simp [hrun], hI.duration⟩
  | handshakeFailed hmain =>
      have hrun := hquiet (by rw [hmain]; rfl)
      exact ⟨hI.undelayed, by simp [hrun], hI.duration⟩
  | resetMox hmain =>
      have hwire : s.client.wire = [] := hP.connecting (by rw [hmain]; rfl)
      exact ⟨fun _ => by simp [RemoteClient.resetMoxStateLocked, hwire], by simp [MainPc.live],
        hI.duration⟩
  | setRunning hmain =>
      have hwire : s.client.wire = [] := hP.connecting (by rw [hmain]; rfl)
      exact ⟨hI.undelayed, by simp [hwire], hI.duration⟩
  | spawn hmain => exact ⟨hI.undelayed, fun _ => hI.held (by rw [hmain]; rfl), hI.duration⟩

/-! ## Both directions -/

/-- The invariants of a run on a working connection. -/
structure HeldInv (s : RemoteSystem) : Prop where
  phase : PhaseInv s
  session : SessionInv s
  deadline : DeadlineInv s
  armed : ArmedInv s
  key : KeyInv s

theorem heldInv_init : HeldInv .init :=
  ⟨phaseInv_init, sessionInv_init, deadlineInv_init, armedInv_init, keyInv_init⟩

theorem ordinary_iff {s : RemoteSystem} {a : RemoteAct} : ordinary s a = true ↔
    (sendsOk s a = true ∧ waitsFullTime s a = true) ∧ delaysFit s a = true := by
  simp [ordinary]

/-- A line from the timer thread is `trx:0,false;`, and it comes out of its
wait when the delay and the duration are over. -/
theorem timer_sends {s s' : RemoteSystem} {nowMs : Nat} {timedOut ok : Bool} (hI : HeldInv s)
    (hwait : waitsFullTime s (.timer nowMs timedOut ok) = true)
    (hstep : remote.step s (.timer nowMs timedOut ok) = some s')
    (hsent : s'.client.wire ≠ s.client.wire) :
    s.client.stopMoxTimerThread = false ∧ delayOver s nowMs = true ∧ waitsOn s timedOut = false
      ∧ s'.client.wire = s.client.wire ++ [.trx false] := by
  obtain ⟨pc, c, pc', hpc, hr, rfl⟩ := timer_of_step hstep
  have houtcome := RemoteClient.timerOutcome hr
  obtain ⟨hsched, hdue, hwire⟩ := houtcome.sends hsent
  have hreached := release_due hI.deadline hwait hpc hsched hdue
  obtain ⟨t₀, d, hlast, hdeadline⟩ := hI.deadline.deadline hsched
  have hover : (t₀ : Int) + s.client.moxReleaseDelayMs + d ≤ nowMs := by omega
  refine ⟨houtcome.not_stopped_of_sends hsent, by simpa [delayOver, hlast] using hover, ?_, hwire⟩
  by_contra hon
  rw [Bool.not_eq_false, waitsOn, hpc] at hon
  cases pc with
  | entry => cases hon
  | waiting => cases hon
  | exited => cases hon
  | timedWait token deactivateAtMs =>
      obtain ⟨rfl, rfl⟩ : token = s.client.moxScheduleToken ∧ timedOut = false := by
        simpa using hon
      exact hsent (congrArg RemoteClient.wire (RemoteClient.timerStep_waitsOn hr))

theorem key_up_of_sends {s s' : RemoteSystem} {nowMs : Nat} {timedOut ok : Bool} (hI : HeldInv s)
    (hwait : waitsFullTime s (.timer nowMs timedOut ok) = true)
    (hbrief : heldBriefly s (.timer nowMs timedOut ok) = true)
    (hstep : remote.step s (.timer nowMs timedOut ok) = some s')
    (hsent : s'.client.wire ≠ s.client.wire) : keyDown s.client.wire = false := by
  obtain ⟨hstop, hover, hwaits, -⟩ := timer_sends hI hwait hstep hsent
  simpa [heldBriefly, hstop, hover, hwaits] using hbrief

theorem keyInv_step {s s' : RemoteSystem} {a : RemoteAct} (hI : HeldInv s)
    (hordinary : ordinary s a = true) (hbrief : heldBriefly s a = true)
    (hstep : remote.step s a = some s') : KeyInv s' := by
  obtain ⟨⟨hok, hwait⟩, -⟩ := ordinary_iff.mp hordinary
  have hkey := hI.key
  cases RemoteStep.of_step hstep with
  | callNothing => exact ⟨hkey.undelayed, hkey.held, hkey.duration⟩
  | command hsends hcommand => exact keyInv_command hkey hsends hbrief hcommand
  | timer hpc htimer =>
      exact keyInv_timer hI.session hkey hok hpc (key_up_of_sends hI hwait hbrief hstep) htimer
  | startRejected => exact hkey
  | start hmain => exact ⟨hkey.undelayed, fun _ => hkey.held (by rw [hmain]; rfl), hkey.duration⟩
  | stop hmain => exact ⟨hkey.undelayed, fun _ => hkey.held (by rw [hmain]; rfl), hkey.duration⟩
  | main hmain => exact keyInv_main hI.phase hkey hmain

theorem heldInv_step {s s' : RemoteSystem} {a : RemoteAct} (hI : HeldInv s)
    (hordinary : ordinary s a = true) (hbrief : heldBriefly s a = true)
    (hstep : remote.step s a = some s') : HeldInv s' :=
  ⟨phaseInv_step hI.phase hstep, sessionInv_step hI.session (ordinary_iff.mp hordinary).1.1 hstep,
    deadlineInv_step hI.deadline hstep, armedInv_step hI.phase hI.armed hstep,
    keyInv_step hI hordinary hbrief hstep⟩

theorem keepsMoxOn_step {s s' : RemoteSystem} {a : RemoteAct} (hI : HeldInv s)
    (hordinary : ordinary s a = true) (hbrief : heldBriefly s a = true)
    (hstep : remote.step s a = some s') : KeepsMoxOn s a s' := by
  cases RemoteStep.of_step hstep with
  | callNothing => exact fun u v h => by simp at h
  | @command k nowMs ok c accepted hsends hcommand =>
      intro u v h
      have hclosing := closing_not_mem s.client k
      cases hcommand with
      | refused => simp at h
      | moxFailed => simp [RemoteClient.cancelled] at h
      | commandFailed =>
          have heq : s.client.moxPrefix = u ++ .trx false :: v := by simpa using h
          simp [heq] at hclosing
      | released hopen hdelay =>
          have heq : s.client.moxPrefix ++ [k.line] ++ .trx false :: [] = u ++ .trx false :: v := by
            simpa using h
          obtain ⟨rfl, -, -⟩ :=
            (List.append_cons_inj_of_notMem hclosing (List.not_mem_nil)).mp heq
          rw [← List.append_assoc]
          exact keyUp_command hI.key hbrief hopen hdelay
      | releaseFailed =>
          have heq : s.client.moxPrefix ++ [k.line] = u ++ .trx false :: v := by simpa using h
          simp [heq] at hclosing
      | scheduled =>
          have heq : s.client.moxPrefix ++ [k.line] = u ++ .trx false :: v := by simpa using h
          simp [heq] at hclosing
  | @timer _ _ _ c _ _ hpc htimer =>
      intro u v h
      have hsent : c.wire ≠ s.client.wire := fun heq => by simpa using heq.symm.trans h
      obtain ⟨⟨-, hwait⟩, -⟩ := ordinary_iff.mp hordinary
      obtain ⟨-, -, -, hwire⟩ := timer_sends hI hwait hstep hsent
      have hup := key_up_of_sends hI hwait hbrief hstep hsent
      have heq : [Line.trx false] = u ++ .trx false :: v := by
        rw [h] at hwire
        simpa using hwire.symm
      cases u with
      | nil => simpa using hup
      | cons line u => simp at heq
  | startRejected => trivial
  | start => trivial
  | stop => trivial
  | main => trivial

theorem heldBriefly_call {s s' : RemoteSystem} {k : KeyerCall} {nowMs : Nat} {ok : Sends}
    (hok : sendsOk s (.call k nowMs ok) = true) (hkeeps : KeepsMoxOn s (.call k nowMs ok) s')
    (hstep : remote.step s (.call k nowMs ok) = some s') :
    heldBriefly s (.call k nowMs ok) = true := by
  by_contra hheld
  obtain ⟨⟨rfl, hopen⟩, hdelay⟩ : (k = .startRunCw ∧ s.client.canSend = true)
      ∧ s.client.moxReleaseDelayMs ≤ 0 := by simpa [heldBriefly] using hheld
  obtain ⟨⟨hmox, hcommand⟩, hrelease⟩ :
      (ok.mox = true ∧ ok.command = true) ∧ ok.release = true := by simpa [sendsOk] using hok
  have hclient : s'.client = (s.client.sendKeyerCommand (.keyer true) 0 nowMs ok).1 := by
    obtain rfl := Option.some.inj hstep
    rfl
  have houtcome := RemoteClient.commandOutcome s.client (.keyer true) 0 nowMs ok
  generalize s.client.sendKeyerCommand (.keyer true) 0 nowMs ok = r at hclient houtcome
  cases houtcome with
  | refused h => simp [h] at hopen
  | moxFailed _ _ h => simp [hmox] at h
  | commandFailed _ h => simp [hcommand] at h
  | released =>
      have hup := hkeeps (s.client.moxPrefix ++ [.keyer true]) [] (by simp [hclient])
      rw [← List.append_assoc, keyDown_snoc] at hup
      cases hup
  | releaseFailed _ _ h => simp [hrelease] at h
  | scheduled _ hpos => omega

theorem heldBriefly_timer {s s' : RemoteSystem} {nowMs : Nat} {timedOut ok : Bool}
    (hI : HeldInv s) (hok : ok = true) (hkeeps : KeepsMoxOn s (.timer nowMs timedOut ok) s')
    (hstep : remote.step s (.timer nowMs timedOut ok) = some s') :
    heldBriefly s (.timer nowMs timedOut ok) = true := by
  obtain ⟨pc, c, pc', hpc, hr, rfl⟩ := timer_of_step hstep
  by_contra hheld
  obtain ⟨⟨⟨hdown, hstop⟩, hover⟩, hwaits⟩ : ((keyDown s.client.wire = true
      ∧ s.client.stopMoxTimerThread = false) ∧ delayOver s nowMs = true)
      ∧ waitsOn s timedOut = false := by simpa [heldBriefly] using hheld
  have htimer : s.timer ≠ none := by simp [hpc]
  have hlive := (hI.session.alive htimer hstop).1
  have hopen := hI.session.canSend_of_timer htimer hstop
  have hrun := (RemoteClient.canSend_iff.mp hopen).1
  have hmox := hI.key.held hlive hrun hdown
  obtain ⟨hdelay, hsched⟩ := hI.armed.armed hlive hrun hmox
  obtain ⟨t₀, d, hlast, hdeadline⟩ := hI.deadline.deadline hsched
  have hduration := hI.key.duration t₀ d hlast
  have hreached : (t₀ : Int) + s.client.moxReleaseDelayMs + d ≤ nowMs := by
    simpa [delayOver, hlast] using hover
  have hexited : pc ≠ .exited := by
    rintro rfl
    cases hr
  rw [RemoteClient.timerStep_releases hstop hsched (by omega) hexited, hok] at hr
  · obtain ⟨rfl, -⟩ := Prod.mk.inj (Option.some.inj hr)
    have hup := hkeeps [] [] (by simp [release_sends hopen hmox])
    rw [List.append_nil, hdown] at hup
    cases hup
  · rintro deactivateAtMs rfl
    simpa [waitsOn, hpc] using hwaits

theorem heldBriefly_step {s s' : RemoteSystem} {a : RemoteAct} (hI : HeldInv s)
    (hok : sendsOk s a = true) (hkeeps : KeepsMoxOn s a s')
    (hstep : remote.step s a = some s') : heldBriefly s a = true := by
  cases a with
  | call k nowMs ok => exact heldBriefly_call hok hkeeps hstep
  | timer nowMs timedOut ok => exact heldBriefly_timer hI hok hkeeps hstep
  | start args => rfl
  | stop => rfl
  | main ok fd => rfl

/-- **MOX while the straight key is held.** On a working connection MOX
stays on whenever the key is down exactly in the runs in which the key is
pressed only with a release delay configured, and let up before the delay
and the duration of the last accepted command are over: with it still down
the timer thread gets no further than its wait from then on. -/
theorem mox_held_while_key_down {as : List RemoteAct}
    (hordinary : remote.Along (fun s a _ => ordinary s a) .init as) :
    remote.Along KeepsMoxOn .init as ↔
      remote.Along (fun s a _ => heldBriefly s a) .init as := by
  refine Machine.along_congr_of ?_ ?_ heldInv_init hordinary
  · intro s a s' hI hordinary hstep
    have hok := (ordinary_iff.mp hordinary).1.1
    exact ⟨fun hkeeps => heldBriefly_step hI hok hkeeps hstep,
      fun hbrief => keepsMoxOn_step hI hordinary hbrief hstep⟩
  · exact fun s a s' hI hordinary hbrief hstep => heldInv_step hI hordinary hbrief hstep

/-- A key held for 100 ms with the default delay of 250 ms. -/
def briefPress : List RemoteAct :=
  connects ⟨"127.0.0.1", 50005, 250⟩ ++
    [.call .startRunCw 5 ⟨true, true, true⟩, .timer 6 false true,
      .call .stopRunCw 105 ⟨true, true, true⟩, .timer 105 false true, .timer 355 true true]

theorem mox_held_while_key_down_brief :
    (∃ s, remote.run .init briefPress = some s
        ∧ s.client.wire = [.trx true, .keyer true, .keyer false, .trx false])
      ∧ remote.Along KeepsMoxOn .init briefPress :=
  ⟨⟨_, rfl, rfl⟩, (mox_held_while_key_down (by decide)).mpr (by decide)⟩

/-- A key held past the default delay. -/
def longPress : List RemoteAct :=
  connects ⟨"127.0.0.1", 50005, 250⟩ ++
    [.call .startRunCw 5 ⟨true, true, true⟩, .timer 6 false true, .timer 300 true true]

/-- MOX does not stay on while the key is held: `longPress` ends with
`trx:0,false;` sent and the key down. -/
theorem mox_lost_while_key_down :
    ¬ ∀ as, remote.Along (fun s a _ => ordinary s a) .init as →
      remote.Along KeepsMoxOn .init as := by
  intro h
  have hkeeps : remote.Along KeepsMoxOn .init (longPress.take 15 ++ [.timer 300 true true]) :=
    h longPress (by decide)
  have hup := (hkeeps.append rfl _ rfl).1 [] [] rfl
  revert hup
  decide

end CwKeyer
