import CwKeyer.Remote.Release

/-!
# `RemoteClient::stop` and the last `trx` line

`stop` reads `m_moxActive` in its first locked block and unkeys later, in
a block of its own, only if MOX was on then; commands are still accepted
up to `m_running = false`. So a command that arrives when `stop` will not
unkey any more (`MainPc.unguarded`) leaves the transceiver keyed on the
socket that is then closed (`stop_leaves_keyed`). These commands are the
only way: `stop_unkeys` shows that in every run without one, no socket is
closed with MOX on.
-/

namespace CwKeyer

/-- `stop` has decided not to unkey, or has unkeyed already. -/
def MainPc.unguarded : MainPc → Bool
  | .stop (.join shouldDeactivateMox) _ => !shouldDeactivateMox
  | .stop (.guarded shouldDeactivateMox) _ => !shouldDeactivateMox
  | .stop .secondBlock _ => true
  | .stop .clearRunning _ => true
  | .stop .close _ => true
  | _ => false

/-- No command that leaves MOX on is sent while `stop` is unguarded. -/
def stopsCleanly (s : RemoteSystem) : RemoteAct → Bool
  | .call k _ _ =>
      !(k.sends && s.client.canSend && 0 < s.client.moxReleaseDelayMs && s.main.unguarded)
  | _ => true

/-- A step that closes the socket does so with MOX off on the other side:
the last `trx` line on the connection, if any, is `trx:0,false;`. -/
def ClosesUnkeyed (s : RemoteSystem) (_ : RemoteAct) (s' : RemoteSystem) : Prop :=
  s.client.socketFd.isSome = true → s'.client.socketFd = none →
    lastTrx s.client.wire = none ∨ lastTrx s.client.wire = some (.trx false)

instance (s : RemoteSystem) (a : RemoteAct) (s' : RemoteSystem) :
    Decidable (ClosesUnkeyed s a s') :=
  inferInstanceAs (Decidable (_ → _ → _ ∨ _))

/-! ## The last `trx` line -/

/-- The last `trx` line does not switch MOX on. -/
def MoxOff (wire : List Line) : Prop := lastTrx wire ≠ some (.trx true)

theorem MoxOff.cases {wire : List Line} (h : MoxOff wire) :
    lastTrx wire = none ∨ lastTrx wire = some (.trx false) := by
  cases hlast : lastTrx wire with
  | none => exact Or.inl rfl
  | some line =>
      have hmark : line = .trx true ∨ line = .trx false :=
        Brackets.isMark_iff.mp (Brackets.isMark_of_lastMark hlast)
      rcases hmark with rfl | rfl
      · exact absurd hlast h
      · exact Or.inr rfl

theorem moxOff_snoc (wire : List Line) : MoxOff (wire ++ [.trx false]) := by
  have : lastTrx (wire ++ [.trx false]) = some (.trx false) :=
    Brackets.lastMark_snoc_closing (B := moxBrackets) wire
  simp [MoxOff, this]

/-- Without a delay a command leaves MOX off, and without a session it
sends nothing. -/
theorem MoxOff.command {c c' : RemoteClient} {k : KeyerCall} {duration : Int} {nowMs : Nat}
    {ok : Sends} {accepted : Bool}
    (h : RemoteClient.CommandOutcome c k.line duration nowMs ok (c', accepted))
    (hok : (ok.mox && ok.command && ok.release) = true)
    (hclean : c.canSend = false ∨ c.moxReleaseDelayMs ≤ 0) (hoff : MoxOff c.wire) :
    MoxOff c'.wire := by
  obtain ⟨⟨hmox, hcommand⟩, hrelease⟩ :
      (ok.mox = true ∧ ok.command = true) ∧ ok.release = true := by simpa using hok
  cases h with
  | refused => exact hoff
  | moxFailed _ _ h => simp [hmox] at h
  | commandFailed _ h => simp [hcommand] at h
  | released =>
      have := moxOff_snoc (c.wire ++ c.moxPrefix ++ [k.line])
      simpa using this
  | releaseFailed _ _ h => simp [hrelease] at h
  | scheduled hopen hdelay =>
      rcases hclean with hclosed | hundelayed
      · simp [hclosed] at hopen
      · omega

theorem MoxOff.timer {c c' : RemoteClient} {pc pc' : TimerPc} {nowMs : Nat}
    {timedOut ok : Bool} (h : RemoteClient.TimerOutcome c pc nowMs timedOut ok (c', pc'))
    (hoff : MoxOff c.wire) : MoxOff c'.wire := by
  by_cases hsent : c'.wire = c.wire
  · rwa [hsent]
  · obtain ⟨-, -, hwire⟩ := h.sends hsent
    exact hwire ▸ moxOff_snoc _

namespace RemoteClient

/-- On a working connection a command keeps the session. -/
theorem CommandOutcome.keeps_session {c c' : RemoteClient} {command : Line} {duration : Int}
    {nowMs : Nat} {ok : Sends} {accepted : Bool}
    (h : CommandOutcome c command duration nowMs ok (c', accepted))
    (hok : (ok.mox && ok.command && ok.release) = true) :
    c'.socketFd = c.socketFd ∧ c'.running = c.running := by
  obtain ⟨⟨hmox, hcommand⟩, hrelease⟩ :
      (ok.mox = true ∧ ok.command = true) ∧ ok.release = true := by simpa using hok
  cases h with
  | refused => exact ⟨rfl, rfl⟩
  | moxFailed _ _ h => simp [hmox] at h
  | commandFailed _ h => simp [hcommand] at h
  | released => exact ⟨rfl, rfl⟩
  | releaseFailed _ _ h => simp [hrelease] at h
  | scheduled => exact ⟨rfl, rfl⟩

theorem Unkeyed.keeps_session {c c' : RemoteClient} {ok : Bool} (h : Unkeyed c ok c')
    (hok : ok = true) : c'.socketFd = c.socketFd ∧ c'.running = c.running := by
  cases h with
  | sent => exact ⟨rfl, rfl⟩
  | failed _ h => simp [hok] at h
  | closed => exact ⟨rfl, rfl⟩

theorem TimerOutcome.keeps_session {c c' : RemoteClient} {pc pc' : TimerPc} {nowMs : Nat}
    {timedOut ok : Bool} (h : TimerOutcome c pc nowMs timedOut ok (c', pc')) (hok : ok = true) :
    c'.socketFd = c.socketFd ∧ c'.running = c.running := by
  cases h with
  | exit => exact ⟨rfl, rfl⟩
  | sleep => exact ⟨rfl, rfl⟩
  | timedSleep => exact ⟨rfl, rfl⟩
  | keepWaiting => exact ⟨rfl, rfl⟩
  | release hstop hsched hdue hrelease =>
      rcases timerRelease_cases c ok with ⟨-, heq⟩ | ⟨-, hunkeyed⟩
      · rw [hrelease, heq]
        exact ⟨rfl, rfl⟩
      · rw [← hrelease] at hunkeyed
        exact hunkeyed.keeps_session hok

end RemoteClient

/-! ## Sessions on a working connection -/

/-- The timer thread has been joined or is not there yet. -/
def MainPc.joined : MainPc → Bool
  | .idle => false
  | .stop .firstBlock _ => false
  | .stop (.join _) _ => false
  | _ => true

/-- What holds as long as no send fails: an open socket outside the quiet
phases belongs to a running session, and so does a timer thread that has
not been told to stop. -/
structure SessionInv (s : RemoteSystem) : Prop where
  session : s.client.socketFd.isSome = true → s.main.quiet = false → s.client.running = true
  fresh : ∀ args, s.main = .platformInit args ∨ s.main = .openConnection args →
    s.client.socketFd = none
  connected : s.main.connecting = true ∨ s.main = .spawn → s.client.socketFd.isSome = true
  joined : s.main.joined = true → s.timer = none
  alive : s.timer ≠ none → s.client.stopMoxTimerThread = false →
    s.main.live = true ∧ s.client.socketFd.isSome = true

theorem sessionInv_init : SessionInv .init := by
  constructor <;> simp [RemoteSystem.init, MainPc.connecting]

/-- Commands and timer steps keep the session. -/
theorem SessionInv.of_client {s : RemoteSystem} {c : RemoteClient} {timer : Option TimerPc}
    {last : Option (Nat × Int)} {nowMs : Nat} (hI : SessionInv s)
    (hsession : c.socketFd = s.client.socketFd ∧ c.running = s.client.running)
    (hstop : c.stopMoxTimerThread = s.client.stopMoxTimerThread)
    (htimer : timer = none ↔ s.timer = none) :
    SessionInv { s with client := c, timer := timer, lastAccepted := last, clock := nowMs } := by
  obtain ⟨hsock, hrun⟩ := hsession
  constructor
  · simpa [hsock, hrun] using hI.session
  · simpa [hsock] using hI.fresh
  · simpa [hsock] using hI.connected
  · simpa [htimer] using hI.joined
  · simpa [htimer, hsock, hstop] using hI.alive

/-- A step of `start` or `stop` after the join. -/
theorem SessionInv.of_no_timer {s : RemoteSystem} (htimer : s.timer = none)
    (hsession : s.client.socketFd.isSome = true → s.main.quiet = false →
      s.client.running = true)
    (hfresh : ∀ args, s.main = .platformInit args ∨ s.main = .openConnection args →
      s.client.socketFd = none)
    (hconnected : s.main.connecting = true ∨ s.main = .spawn → s.client.socketFd.isSome = true) :
    SessionInv s :=
  ⟨hsession, hfresh, hconnected, fun _ => htimer, fun h => absurd htimer h⟩

theorem sessionInv_main {s s' : RemoteSystem} {ok : Bool} {fd : Nat} (hI : SessionInv s)
    (hok : sendsOk s (.main ok fd) = true) (h : MainOutcome s ok fd s') : SessionInv s' := by
  have htimer : s.main.joined = true → s.timer = none := hI.joined
  cases h with
  | firstBlock hmain =>
      exact ⟨fun hsock _ => hI.session hsock (by rw [hmain]; rfl), by simp,
        by simp [MainPc.connecting], by simp [MainPc.joined], by simp⟩
  | join hmain =>
      exact ⟨fun hsock _ => hI.session hsock (by rw [hmain]; rfl), by simp,
        by simp [MainPc.connecting], fun _ => rfl, by simp⟩
  | guardedSend hmain hopen hunkeyed =>
      have hnone := htimer (by rw [hmain]; rfl)
      obtain ⟨-, hrun⟩ := hunkeyed.keeps_session (by simpa [sendsOk, hmain] using hok)
      exact .of_no_timer hnone (fun _ _ => hrun.trans (RemoteClient.canSend_iff.mp hopen).1)
        (by simp) (by simp [MainPc.connecting])
  | guardedSkip hmain =>
      have hnone := htimer (by rw [hmain]; rfl)
      exact .of_no_timer hnone (fun hsock _ => hI.session hsock (by rw [hmain]; rfl))
        (by simp) (by simp [MainPc.connecting])
  | secondBlock hmain =>
      have hnone := htimer (by rw [hmain]; rfl)
      exact .of_no_timer hnone (fun hsock _ => hI.session hsock (by rw [hmain]; rfl))
        (by simp) (by simp [MainPc.connecting])
  | clearRunning hmain =>
      have hnone := htimer (by rw [hmain]; rfl)
      exact .of_no_timer hnone (by simp [MainPc.quiet]) (by simp) (by simp [MainPc.connecting])
  | closeStop hmain =>
      have hnone := htimer (by rw [hmain]; rfl)
      exact .of_no_timer hnone (by simp) (by simp) (by simp [MainPc.connecting])
  | closeStart hmain =>
      have hnone := htimer (by rw [hmain]; rfl)
      exact .of_no_timer hnone (by simp) (by simp) (by simp [MainPc.connecting])
  | platformInit hmain =>
      have hnone := htimer (by rw [hmain]; rfl)
      have hsock := hI.fresh _ (Or.inl hmain)
      exact .of_no_timer hnone (by simp [MainPc.quiet])
        (fun _ _ => hsock) (by simp [MainPc.connecting])
  | openConnection hmain =>
      have hnone := htimer (by rw [hmain]; rfl)
      exact .of_no_timer hnone (by simp [MainPc.quiet]) (by simp) (by simp)
  | handshake hmain =>
      have hnone := htimer (by rw [hmain]; rfl)
      have hsock := hI.connected (Or.inl (by rw [hmain]; rfl))
      exact .of_no_timer hnone (by simp [MainPc.quiet]) (by simp) (fun _ => hsock)
  | startFailed hmain =>
      have hnone := htimer (by rcases hmain with hmain | hmain <;> rw [hmain] <;> rfl)
      have hsock := hI.fresh _ hmain
      exact .of_no_timer hnone (by simp [hsock]) (by simp) (by simp [MainPc.connecting])
  | handshakeFailed hmain =>
      have hnone := htimer (by rw [hmain]; rfl)
      exact .of_no_timer hnone (by simp) (by simp) (by simp [MainPc.connecting])
  | resetMox hmain =>
      have hnone := htimer (by rw [hmain]; rfl)
      have hsock := hI.connected (Or.inl (by rw [hmain]; rfl))
      exact .of_no_timer hnone (by simp [MainPc.quiet]) (by simp) (fun _ => hsock)
  | setRunning hmain =>
      have hnone := htimer (by rw [hmain]; rfl)
      have hsock := hI.connected (Or.inl (by rw [hmain]; rfl))
      exact .of_no_timer hnone (fun _ _ => rfl) (by simp) (fun _ => hsock)
  | spawn hmain =>
      have hsock := hI.connected (Or.inr hmain)
      exact ⟨fun h _ => hI.session h (by rw [hmain]; rfl), by simp,
        by simp [MainPc.connecting], by simp [MainPc.joined], fun _ _ => ⟨rfl, hsock⟩⟩

theorem sessionInv_step {s s' : RemoteSystem} {a : RemoteAct} (hI : SessionInv s)
    (hok : sendsOk s a = true) (hstep : remote.step s a = some s') : SessionInv s' := by
  cases RemoteStep.of_step hstep with
  | callNothing => exact hI.of_client ⟨rfl, rfl⟩ rfl Iff.rfl
  | command hsends hcommand =>
      refine hI.of_client (hcommand.keeps_session hok) ?_ Iff.rfl
      cases hcommand <;> rfl
  | timer hpc htimer =>
      exact hI.of_client (htimer.keeps_session hok) htimer.frame.2.1 (by simp [hpc])
  | startRejected => exact hI
  | start hmain =>
      refine ⟨fun hsock _ => hI.session hsock (by rw [hmain]; rfl), by simp,
        by simp [MainPc.connecting], by simp [MainPc.joined], fun htimer hstop => ?_⟩
      exact ⟨rfl, (hI.alive htimer hstop).2⟩
  | stop hmain =>
      refine ⟨fun hsock _ => hI.session hsock (by rw [hmain]; rfl), by simp,
        by simp [MainPc.connecting], by simp [MainPc.joined], fun htimer hstop => ?_⟩
      exact ⟨rfl, (hI.alive htimer hstop).2⟩
  | main hmain => exact sessionInv_main hI hok hmain

/-! ## The invariant of `stop` -/

/-- Where `stop` will not unkey any more, there is nothing to unkey. -/
def UnkeyInv (s : RemoteSystem) : Prop :=
  s.client.socketFd.isSome = true → s.main.unguarded = true → MoxOff s.client.wire

theorem unkeyInv_init : UnkeyInv .init := by simp [UnkeyInv, RemoteSystem.init]

theorem UnkeyInv.of_guarded {s : RemoteSystem} (h : s.main.unguarded = false) : UnkeyInv s := by
  intro _ hunguarded
  rw [h] at hunguarded
  cases hunguarded

theorem unkeyInv_main {s s' : RemoteSystem} {ok : Bool} {fd : Nat} (hB : BracketInv s)
    (hS : SessionInv s) (hI : UnkeyInv s) (hok : sendsOk s (.main ok fd) = true)
    (h : MainOutcome s ok fd s') : UnkeyInv s' := by
  cases h with
  | firstBlock hmain =>
      intro hsock hunguarded
      have hmox : s.client.moxActive = false := by simpa [MainPc.unguarded] using hunguarded
      have hrun := hS.session hsock (by rw [hmain]; rfl)
      have hlast := (hB (by rw [hmain]; rfl) hsock).moxActive_iff hrun
      intro hon
      rw [hlast.mpr hon] at hmox
      cases hmox
  | join hmain =>
      exact fun hsock hunguarded => hI hsock (by rw [hmain]; exact hunguarded)
  | guardedSend hmain hopen hunkeyed =>
      have hsent : ok = true := by simpa [sendsOk, hmain] using hok
      intro _ _
      cases hunkeyed with
      | sent => exact moxOff_snoc _
      | failed _ h => simp [hsent] at h
      | closed h => simp [hopen] at h
  | guardedSkip hmain hskip =>
      intro hsock _
      rcases hskip with hclosed | hshould
      · have hrun := hS.session hsock (by rw [hmain]; rfl)
        have hsome : s.client.socketFd.isSome = true := hsock
        simp [RemoteClient.canSend, hrun, hsome] at hclosed
      · exact hI hsock (by simp [hmain, MainPc.unguarded, hshould])
  | secondBlock hmain => exact fun hsock _ => hI hsock (by rw [hmain]; rfl)
  | clearRunning hmain => exact fun hsock _ => hI hsock (by rw [hmain]; rfl)
  | closeStop => exact .of_guarded rfl
  | closeStart => exact .of_guarded rfl
  | platformInit => exact .of_guarded rfl
  | openConnection => exact .of_guarded rfl
  | handshake => exact .of_guarded rfl
  | startFailed => exact .of_guarded rfl
  | handshakeFailed => exact .of_guarded rfl
  | resetMox => exact .of_guarded rfl
  | setRunning => exact .of_guarded rfl
  | spawn => exact .of_guarded rfl

theorem unkeyInv_step {s s' : RemoteSystem} {a : RemoteAct} (hB : BracketInv s)
    (hS : SessionInv s) (hI : UnkeyInv s) (hok : sendsOk s a = true)
    (hclean : stopsCleanly s a = true) (hstep : remote.step s a = some s') : UnkeyInv s' := by
  cases RemoteStep.of_step hstep with
  | callNothing => exact hI
  | command hsends hcommand =>
      intro hsock hunguarded
      have hkept := (hcommand.keeps_session hok).1
      refine (hI (hkept ▸ hsock) hunguarded).command hcommand hok ?_
      have hmain : s.main.unguarded = true := hunguarded
      cases hopen : s.client.canSend with
      | false => exact Or.inl rfl
      | true => exact Or.inr (by simpa [stopsCleanly, hsends, hmain, hopen] using hclean)
  | timer hpc htimer =>
      intro hsock hunguarded
      exact (hI (htimer.frame.1 ▸ hsock) hunguarded).timer htimer
  | startRejected => exact hI
  | start => exact .of_guarded rfl
  | stop => exact .of_guarded rfl
  | main hmain => exact unkeyInv_main hB hS hI hok hmain

theorem closesUnkeyed_step {s s' : RemoteSystem} {a : RemoteAct} (hP : PhaseInv s)
    (hI : UnkeyInv s) (hok : sendsOk s a = true) (hstep : remote.step s a = some s') :
    ClosesUnkeyed s a s' := by
  intro hsock hclosed
  have hopen : s'.client.socketFd = s.client.socketFd →
      lastTrx s.client.wire = none ∨ lastTrx s.client.wire = some (.trx false) := by
    intro heq
    rw [hclosed] at heq
    simp [← heq] at hsock
  cases RemoteStep.of_step hstep with
  | callNothing => exact hopen rfl
  | command hsends hcommand => exact hopen (hcommand.keeps_session hok).1
  | timer hpc htimer => exact hopen htimer.frame.1
  | startRejected => exact hopen rfl
  | start => exact hopen rfl
  | stop => exact hopen rfl
  | main hmain =>
      cases hmain with
      | closeStop hmain => exact (hI hsock (by rw [hmain]; rfl)).cases
      | closeStart hmain => exact (hI hsock (by rw [hmain]; rfl)).cases
      | handshakeFailed hmain =>
          have hwire : s.client.wire = [] := hP.connecting (by rw [hmain]; rfl)
          exact Or.inl (by simp [hwire, lastTrx])
      | guardedSend hmain hopen' hunkeyed => cases hunkeyed <;> exact hopen rfl
      | openConnection => simp at hclosed
      | firstBlock => exact hopen rfl
      | join => exact hopen rfl
      | guardedSkip => exact hopen rfl
      | secondBlock => exact hopen rfl
      | clearRunning => exact hopen rfl
      | platformInit => exact hopen rfl
      | handshake => exact hopen rfl
      | startFailed => exact hopen rfl
      | resetMox => exact hopen rfl
      | setRunning => exact hopen rfl
      | spawn => exact hopen rfl

/-- **`stop` unkeys the transceiver** on a working connection, for every
delay and every interleaving, as long as no command that leaves MOX on is
sent where `stop` will not unkey any more. -/
theorem stop_unkeys {as : List RemoteAct}
    (hok : remote.Along (fun s a _ => sendsOk s a) .init as)
    (hclean : remote.Along (fun s a _ => stopsCleanly s a) .init as) :
    remote.Along ClosesUnkeyed .init as := by
  refine Machine.along_of_invariant
    (I := fun s => PhaseInv s ∧ BracketInv s ∧ SessionInv s ∧ UnkeyInv s) ?_
    ⟨phaseInv_init, bracketInv_init, sessionInv_init, unkeyInv_init⟩ (hok.and hclean)
  rintro s a s' ⟨hP, hB, hS, hI⟩ ⟨hok, hclean⟩ hstep
  exact ⟨⟨phaseInv_step hP hstep, bracketInv_step hP hB hstep, sessionInv_step hS hok hstep,
    unkeyInv_step hB hS hI hok hclean hstep⟩, closesUnkeyed_step hP hI hok hstep⟩

/-- A dit, a `stop` while its MOX release is pending, and a command that
comes before the guarded deactivation. -/
theorem stop_unkeys_dit :
    let acts := ditSession.take 14 ++
      [.stop, .main true 0, .call (.runCW .dah 180) 70 ⟨true, true, true⟩, .timer 71 false true,
        .main true 0, .main true 0, .main true 0, .main true 0, .main true 0]
    (∃ s, remote.run .init acts = some s
      ∧ s.client.wire = [.trx true, .keyerTimed 60, .keyerTimed 180, .trx false]
      ∧ s.client.socketFd = none)
      ∧ remote.Along ClosesUnkeyed .init acts :=
  ⟨⟨_, rfl, rfl, rfl⟩, stop_unkeys (by decide) (by decide)⟩

/-- A press that arrives after the first block of a `stop` that found MOX
off. -/
def lateCommand : List RemoteAct :=
  connects ⟨"127.0.0.1", 50005, 250⟩ ++
    [.stop, .main true 0, .call .startRunCw 5 ⟨true, true, true⟩, .timer 6 false true,
      .main true 0, .main true 0, .main true 0, .main true 0, .main true 0]

/-- `stop` does not always unkey: after `lateCommand` the socket is closed
and the last `trx` line on it is `trx:0,true;`. -/
theorem stop_leaves_keyed :
    ¬ ∀ as, remote.Along (fun s a _ => sendsOk s a) .init as →
      remote.Along ClosesUnkeyed .init as := by
  intro h
  have hclosed := h lateCommand (by decide)
  revert hclosed
  decide

end CwKeyer
