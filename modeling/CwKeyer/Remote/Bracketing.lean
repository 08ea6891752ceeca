import CwKeyer.Brackets
import CwKeyer.Remote.Steps

/-!
# MOX brackets on the wire

The lines of one connection form `(trx:0,true; keyer⁺ trx:0,false;)*`,
cut off anywhere (`mox_bracketing`). The invariant `Followed` ties the
monitor of the bracket language to the client: while the session runs,
the monitor is inside a group with at least one command exactly when
`m_moxActive` is set. A failed send leaves the monitor wherever it is,
but then nothing more is sent.

`PhaseInv` collects what the position of `start` and `stop` in their
bodies says about the client; every other invariant of the client builds
on it.
-/

namespace CwKeyer

/-! ## The phases of `start` and `stop` -/

/-- From the end of `stop` to `m_running = true`: no session runs. -/
def MainPc.quiet : MainPc → Bool
  | .stop .close _ => true
  | .platformInit _ => true
  | .openConnection _ => true
  | .handshake _ => true
  | .resetMox _ => true
  | .setRunning => true
  | _ => false

/-- The socket is open and no line has been sent on it. -/
def MainPc.connecting : MainPc → Bool
  | .handshake _ => true
  | .resetMox _ => true
  | .setRunning => true
  | _ => false

/-- `stop` is past its guarded deactivation. -/
def MainPc.unkeyed : MainPc → Bool
  | .stop .secondBlock _ => true
  | .stop .clearRunning _ => true
  | .stop .close _ => true
  | _ => false

structure PhaseInv (s : RemoteSystem) : Prop where
  quiet : s.main.quiet = true → s.client.running = false
  connecting : s.main.connecting = true → s.client.wire = []
  reset : s.main = .setRunning →
    s.client.moxActive = false ∧ s.client.stopMoxTimerThread = false
      ∧ s.client.moxDeactivationScheduled = false

namespace RemoteClient

/-- Without a session a command changes nothing. -/
theorem CommandOutcome.eq_of_closed {c c' : RemoteClient} {command : Line} {duration : Int}
    {nowMs : Nat} {ok : Sends} {accepted : Bool}
    (h : CommandOutcome c command duration nowMs ok (c', accepted)) (hopen : c.canSend = false) :
    c' = c ∧ accepted = false := by
  cases h with
  | refused => exact ⟨rfl, rfl⟩
  | moxFailed h' => rw [hopen] at h'; cases h'
  | commandFailed h' => rw [hopen] at h'; cases h'
  | released h' => rw [hopen] at h'; cases h'
  | releaseFailed h' => rw [hopen] at h'; cases h'
  | scheduled h' => rw [hopen] at h'; cases h'

theorem canSend_of_not_running {c : RemoteClient} (h : c.running = false) :
    c.canSend = false := by
  simp [canSend, h]

/-- What a timer step leaves alone, and what it does without a session. -/
theorem TimerOutcome.frame {c c' : RemoteClient} {pc pc' : TimerPc} {nowMs : Nat}
    {timedOut ok : Bool} (h : TimerOutcome c pc nowMs timedOut ok (c', pc')) :
    c'.socketFd = c.socketFd ∧ c'.stopMoxTimerThread = c.stopMoxTimerThread
      ∧ c'.moxReleaseDelayMs = c.moxReleaseDelayMs
      ∧ c'.moxScheduleToken = c.moxScheduleToken
      ∧ c'.moxDeactivationAtMs = c.moxDeactivationAtMs
      ∧ (c.moxActive = false → c'.moxActive = false)
      ∧ (c.moxDeactivationScheduled = false → c'.moxDeactivationScheduled = false)
      ∧ (c.running = false → c'.running = false ∧ c'.wire = c.wire) := by
  cases h with
  | exit => simp
  | sleep => simp
  | timedSleep => simp
  | keepWaiting => simp
  | release hstop hsched hdue hrelease =>
      rcases timerRelease_cases c ok with ⟨hmox, heq⟩ | ⟨hmox, hunkeyed⟩
      · simp [hrelease, heq]
      · rw [← hrelease] at hunkeyed
        have hclosed : c.running = false → c.canSend = false := canSend_of_not_running
        cases hunkeyed with
        | sent hopen =>
            have : c.canSend = true := hopen
            simp_all
        | failed hopen =>
            have : c.canSend = true := hopen
            simp_all
        | closed => simp

end RemoteClient

theorem phaseInv_init : PhaseInv .init := ⟨by simp [RemoteSystem.init, MainPc.quiet],
  by simp [RemoteSystem.init, MainPc.connecting], by simp [RemoteSystem.init]⟩

/-- The connecting phases are quiet. -/
theorem MainPc.quiet_of_connecting {m : MainPc} (h : m.connecting = true) : m.quiet = true := by
  cases m <;> simp_all [quiet, connecting]

/-- Outside the quiet phases there is nothing to keep. -/
theorem PhaseInv.of_not_quiet {s : RemoteSystem} (h : s.main.quiet = false) : PhaseInv s := by
  refine ⟨?_, ?_, ?_⟩
  · intro hquiet
    exact absurd hquiet (by simp [h])
  · intro hconnecting
    exact absurd (MainPc.quiet_of_connecting hconnecting) (by simp [h])
  · intro hmain
    rw [hmain] at h
    cases h

theorem phaseInv_step {s s' : RemoteSystem} {a : RemoteAct} (hI : PhaseInv s)
    (hstep : remote.step s a = some s') : PhaseInv s' := by
  cases RemoteStep.of_step hstep with
  | callNothing => exact ⟨hI.quiet, hI.connecting, hI.reset⟩
  | command hsends hcommand =>
      cases hquiet : s.main.quiet with
      | true =>
          obtain ⟨rfl, -⟩ := hcommand.eq_of_closed
            (RemoteClient.canSend_of_not_running (hI.quiet hquiet))
          exact ⟨hI.quiet, hI.connecting, hI.reset⟩
      | false => exact .of_not_quiet hquiet
  | timer hpc htimer =>
      obtain ⟨-, hstop, -, -, -, hmox, hsched, hclosed⟩ := htimer.frame
      refine ⟨fun h => (hclosed (hI.quiet h)).1, ?_, ?_⟩
      · intro h
        have hrun := hI.quiet (MainPc.quiet_of_connecting h)
        exact (hclosed hrun).2.trans (hI.connecting h)
      · intro h
        obtain ⟨h1, h2, h3⟩ := hI.reset h
        exact ⟨hmox h1, hstop.trans h2, hsched h3⟩
  | startRejected => exact hI
  | start => exact .of_not_quiet rfl
  | stop => exact .of_not_quiet rfl
  | main hmain =>
      cases hmain with
      | firstBlock => exact .of_not_quiet rfl
      | join => exact .of_not_quiet rfl
      | guardedSend => exact .of_not_quiet rfl
      | guardedSkip => exact .of_not_quiet rfl
      | secondBlock => exact .of_not_quiet rfl
      | clearRunning => exact ⟨by simp, by simp [MainPc.connecting], by simp⟩
      | closeStop => exact .of_not_quiet rfl
      | closeStart hmain =>
          exact ⟨fun _ => hI.quiet (by rw [hmain]; rfl), by simp [MainPc.connecting], by simp⟩
      | platformInit hmain =>
          exact ⟨fun _ => hI.quiet (by rw [hmain]; rfl), by simp [MainPc.connecting], by simp⟩
      | openConnection hmain =>
          exact ⟨fun _ => hI.quiet (by rw [hmain]; rfl), by simp, by simp⟩
      | handshake hmain =>
          exact ⟨fun _ => hI.quiet (by rw [hmain]; rfl),
            fun _ => hI.connecting (by rw [hmain]; rfl), by simp⟩
      | startFailed => exact .of_not_quiet rfl
      | handshakeFailed => exact .of_not_quiet rfl
      | resetMox hmain =>
          exact ⟨fun _ => hI.quiet (by rw [hmain]; rfl),
            fun _ => hI.connecting (by rw [hmain]; rfl),
            fun _ => by simp [RemoteClient.resetMoxStateLocked]⟩
      | setRunning => exact .of_not_quiet rfl
      | spawn => exact .of_not_quiet rfl

/-! ## The brackets -/

/-- MOX on and off as brackets around keyer lines. -/
def moxBrackets : Brackets Line where
  opening := .trx true
  closing := .trx false
  body := Line.isKeyer
  opening_ne_closing := by simp
  body_opening := rfl
  body_closing := rfl

/-- The last `trx` line of a word. -/
def lastTrx (wire : List Line) : Option Line := moxBrackets.lastMark wire

/-- The phase of the monitor that `m_moxActive` stands for. -/
def moxPhase (moxActive : Bool) : Brackets.Phase :=
  if moxActive then .filled else .closed

/-- The monitor can read the lines sent so far, and while the session
runs it agrees with `m_moxActive`. -/
def Followed (c : RemoteClient) : Prop :=
  ∃ p, moxBrackets.monitor.run .closed c.wire = some p
    ∧ (c.running = true → p = moxPhase c.moxActive)

theorem run_moxPrefix (c : RemoteClient) :
    ∃ q, moxBrackets.monitor.run (moxPhase c.moxActive) c.moxPrefix = some q := by
  unfold moxPhase RemoteClient.moxPrefix
  cases c.moxActive <;> exact ⟨_, rfl⟩

theorem run_moxPrefix_command (c : RemoteClient) {command : Line}
    (hkeyer : command.isKeyer = true) :
    moxBrackets.monitor.run (moxPhase c.moxActive) (c.moxPrefix ++ [command])
      = some .filled := by
  unfold moxPhase RemoteClient.moxPrefix
  cases c.moxActive <;>
    simp [Machine.run, Brackets.monitor, Brackets.next, moxBrackets, hkeyer]

theorem run_closing : moxBrackets.monitor.run .filled [.trx false] = some .closed := rfl

/-- Lines are read after the ones already on the wire. -/
theorem run_wire_append {w added : List Line} {p q : Brackets.Phase}
    (hw : moxBrackets.monitor.run .closed w = some p)
    (hadded : moxBrackets.monitor.run p added = some q) :
    moxBrackets.monitor.run .closed (w ++ added) = some q :=
  Machine.run_append.mpr ⟨p, hw, hadded⟩

theorem Followed.command {c c' : RemoteClient} {k : KeyerCall} {duration : Int} {nowMs : Nat}
    {ok : Sends} {accepted : Bool} (hF : Followed c)
    (h : RemoteClient.CommandOutcome c k.line duration nowMs ok (c', accepted)) :
    Followed c' := by
  obtain ⟨p, hp, hrun⟩ := hF
  cases hopen : c.canSend with
  | false =>
      obtain ⟨rfl, -⟩ := h.eq_of_closed hopen
      exact ⟨p, hp, hrun⟩
  | true =>
      obtain rfl := hrun (RemoteClient.canSend_iff.mp hopen).1
      have hcommand := run_wire_append hp (run_moxPrefix_command c k.isKeyer_line)
      rw [← List.append_assoc] at hcommand
      cases h with
      | refused => exact ⟨_, hp, fun _ => rfl⟩
      | moxFailed => exact ⟨_, hp, by simp⟩
      | commandFailed =>
          obtain ⟨q, hq⟩ := run_moxPrefix c
          exact ⟨q, run_wire_append hp hq, by simp⟩
      | released =>
          have hreleased := run_wire_append hcommand run_closing
          exact ⟨.closed, by simpa using hreleased, fun _ => rfl⟩
      | releaseFailed => exact ⟨.filled, hcommand, by simp⟩
      | scheduled => exact ⟨.filled, hcommand, fun _ => rfl⟩

/-- Switching MOX off closes the group that is open. -/
theorem Followed.unkeyed {c c' : RemoteClient} {ok : Bool} (hF : Followed c)
    (hsock : c.socketFd.isSome = true) (hmox : c.moxActive = true)
    (h : RemoteClient.Unkeyed c ok c') : Followed c' := by
  obtain ⟨p, hp, hrun⟩ := hF
  cases h with
  | sent hopen =>
      obtain rfl := hrun (RemoteClient.canSend_iff.mp hopen).1
      rw [hmox] at hp
      exact ⟨.closed, run_wire_append hp run_closing, fun _ => rfl⟩
  | failed => exact ⟨p, hp, by simp⟩
  | closed hopen =>
      have hstopped : c.running = false := by simpa [RemoteClient.canSend, hsock] using hopen
      exact ⟨p, hp, by simp [hstopped]⟩

theorem Followed.timer {c c' : RemoteClient} {pc pc' : TimerPc} {nowMs : Nat}
    {timedOut ok : Bool} (hF : Followed c) (hsock : c.socketFd.isSome = true)
    (h : RemoteClient.TimerOutcome c pc nowMs timedOut ok (c', pc')) : Followed c' := by
  cases h with
  | exit => exact hF
  | sleep => exact hF
  | timedSleep => exact hF
  | keepWaiting => exact hF
  | release hstop hsched hdue hrelease =>
      rcases RemoteClient.timerRelease_cases c ok with ⟨-, heq⟩ | ⟨hmox, hunkeyed⟩
      · rw [hrelease, heq]
        exact hF
      · rw [← hrelease] at hunkeyed
        exact Followed.unkeyed (c := { c with moxDeactivationScheduled := false }) hF hsock hmox
          hunkeyed

/-- Until `stop` has unkeyed, the lines of the open connection are
followed. -/
def BracketInv (s : RemoteSystem) : Prop :=
  s.main.unkeyed = false → s.client.socketFd.isSome = true → Followed s.client

theorem bracketInv_init : BracketInv .init := fun _ h => by simp [RemoteSystem.init] at h

theorem bracketInv_step {s s' : RemoteSystem} {a : RemoteAct} (hP : PhaseInv s)
    (hI : BracketInv s) (hstep : remote.step s a = some s') : BracketInv s' := by
  cases RemoteStep.of_step hstep with
  | callNothing => exact hI
  | command hsends hcommand =>
      intro hmain hsock
      have hsock₀ : s.client.socketFd.isSome = true := by
        cases hcommand <;> exact hsock
      exact (hI hmain hsock₀).command hcommand
  | timer hpc htimer =>
      intro hmain hsock
      have hsock₀ : s.client.socketFd.isSome = true := htimer.frame.1 ▸ hsock
      exact (hI hmain hsock₀).timer hsock₀ htimer
  | startRejected => exact hI
  | start hmain => exact fun _ hsock => hI (by rw [hmain]; rfl) hsock
  | stop hmain => exact fun _ hsock => hI (by rw [hmain]; rfl) hsock
  | main hmain =>
      cases hmain with
      | firstBlock hmain => exact fun _ hsock => hI (by rw [hmain]; rfl) hsock
      | join hmain => exact fun _ hsock => hI (by rw [hmain]; rfl) hsock
      | guardedSend => exact fun h => by simp [MainPc.unkeyed] at h
      | guardedSkip => exact fun h => by simp [MainPc.unkeyed] at h
      | secondBlock => exact fun h => by simp [MainPc.unkeyed] at h
      | clearRunning => exact fun h => by simp [MainPc.unkeyed] at h
      | closeStop => exact fun _ h => by simp at h
      | closeStart => exact fun _ h => by simp at h
      | platformInit hmain => exact fun _ hsock => hI (by rw [hmain]; rfl) hsock
      | openConnection hmain =>
          have hquiet : s.client.running = false := hP.quiet (by rw [hmain]; rfl)
          exact fun _ _ => ⟨.closed, rfl, by simp [hquiet]⟩
      | handshake hmain => exact fun _ hsock => hI (by rw [hmain]; rfl) hsock
      | startFailed hmain =>
          refine fun _ hsock => hI ?_ hsock
          rcases hmain with hmain | hmain <;> rw [hmain] <;> rfl
      | handshakeFailed => exact fun _ h => by simp at h
      | resetMox hmain =>
          have hquiet : s.client.running = false := hP.quiet (by rw [hmain]; rfl)
          have hwire : s.client.wire = [] := hP.connecting (by rw [hmain]; rfl)
          exact fun _ _ => ⟨.closed, by simp [RemoteClient.resetMoxStateLocked, hwire],
            by simp [RemoteClient.resetMoxStateLocked, hquiet]⟩
      | setRunning hmain =>
          have hwire : s.client.wire = [] := hP.connecting (by rw [hmain]; rfl)
          obtain ⟨hmox, -⟩ := hP.reset hmain
          exact fun _ _ => ⟨.closed, by simp [hwire], fun _ => by simp [moxPhase, hmox]⟩
      | spawn hmain => exact fun _ hsock => hI (by rw [hmain]; rfl) hsock

theorem bracketInv_of_reachable {s : RemoteSystem} (h : remote.Reachable .init s) :
    BracketInv s := by
  refine (h.invariant (I := fun s => PhaseInv s ∧ BracketInv s)
    ⟨phaseInv_init, bracketInv_init⟩ ?_).2
  exact fun _ _ _ hI hstep => ⟨phaseInv_step hI.1 hstep, bracketInv_step hI.1 hI.2 hstep⟩

/-- While the session runs, `m_moxActive` tells what the last `trx` line
was. -/
theorem Followed.moxActive_iff {c : RemoteClient} (hF : Followed c)
    (hrun : c.running = true) :
    c.moxActive = true ↔ lastTrx c.wire = some (.trx true) := by
  obtain ⟨p, hp, hphase⟩ := hF
  have hlast : lastTrx c.wire = some (.trx true) ↔ p ≠ .closed := Brackets.lastMark_of_run hp
  rw [hlast, hphase hrun, moxPhase]
  cases c.moxActive <;> simp

/-- **MOX bracketing on the wire.** Between a `start` that has returned
true and the next `stop` (the main thread is outside both, with the
socket open), whatever the commands, timer steps, clock readings and
failed sends were: the lines sent are a prefix of a word of
`(trx:0,true; keyer⁺ trx:0,false;)*`; no keyer line was sent while MOX
was off; the `trx` lines alternate; and while `m_running` holds,
`m_moxActive` tells what the last `trx` line was. -/
theorem mox_bracketing {s : RemoteSystem} (h : remote.Reachable .init s)
    (hmain : s.main = .idle) (hsock : s.client.socketFd.isSome = true) :
    (∃ w ∈ moxBrackets.words, s.client.wire <+: w)
      ∧ (∀ u line v, s.client.wire = u ++ line :: v → line.isKeyer = true →
          lastTrx u = some (.trx true))
      ∧ (s.client.wire.filter moxBrackets.isMark).IsChain (· ≠ ·)
      ∧ (s.client.running = true →
          (s.client.moxActive = true ↔ lastTrx s.client.wire = some (.trx true))) := by
  have hfollowed := bracketInv_of_reachable h (by rw [hmain]; rfl) hsock
  have hactive := hfollowed.moxActive_iff
  obtain ⟨p, hp, -⟩ := hfollowed
  refine ⟨Brackets.prefix_of_run ⟨.keyer true, rfl⟩ hp, ?_, Brackets.marks_alternate hp,
    hactive⟩
  intro u line v hwire hkeyer
  rw [hwire] at hp
  exact Brackets.body_inside hp hkeyer

/-- A dit keyed on a new connection, up to its MOX release. -/
def ditSession : List RemoteAct :=
  connects ⟨"127.0.0.1", 50005, 250⟩ ++
    [.call (.runCW .dit 60) 5 ⟨true, true, true⟩, .timer 6 false true, .timer 315 true true]

theorem mox_bracketing_dit :
    ∃ s, remote.run .init ditSession = some s
      ∧ s.client.wire = [.trx true, .keyerTimed 60, .trx false]
      ∧ (s.client.wire.filter moxBrackets.isMark).IsChain (· ≠ ·) :=
  ⟨_, rfl, rfl, (mox_bracketing ⟨ditSession, rfl⟩ rfl rfl).2.2.1⟩

end CwKeyer
