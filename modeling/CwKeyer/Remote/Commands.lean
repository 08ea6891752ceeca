import CwKeyer.Remote.Bracketing

/-!
# Commands on the wire

What a session sends of the calls it gets. The keyer lines on the wire are
those of the calls, in the order in which the calls take the mutex: none is
sent twice or in another's place, and only the last ones can be missing,
once a send has failed or `stop` has cleared `m_running`
(`commands_on_wire`). The timer and `stop` send `trx` lines only.
-/

namespace CwKeyer

/-! ## Calls and keyer lines -/

def keyerLines (wire : List Line) : List Line := wire.filter Line.isKeyer

/-- The call of an action, if it is one that asks for a command. -/
def RemoteAct.command? : RemoteAct → Option KeyerCall
  | .call k _ _ => if k.sends then some k else none
  | _ => none

def commands (as : List RemoteAct) : List KeyerCall := as.filterMap RemoteAct.command?

def RemoteAct.isStart : RemoteAct → Bool
  | .start _ => true
  | _ => false

@[simp] theorem keyerLines_append (w w' : List Line) :
    keyerLines (w ++ w') = keyerLines w ++ keyerLines w' :=
  List.filter_append ..

@[simp] theorem keyerLines_trx (on : Bool) : keyerLines [.trx on] = [] := rfl

@[simp] theorem keyerLines_line (k : KeyerCall) : keyerLines [k.line] = [k.line] := by
  cases k <;> rfl

@[simp] theorem keyerLines_moxPrefix (c : RemoteClient) : keyerLines c.moxPrefix = [] := by
  unfold RemoteClient.moxPrefix
  split <;> rfl

theorem commands_snoc (as : List RemoteAct) (a : RemoteAct) :
    commands (as ++ [a]) = commands as ++ a.command?.toList := by
  cases h : a.command? <;> simp [commands, h]

namespace RemoteClient

/-- A call that finds the session open is its command. -/
theorem call_open {c : RemoteClient} {k : KeyerCall} (hsends : k.sends = true)
    (hopen : c.canSend = true) (nowMs : Nat) (ok : Sends) :
    c.call k nowMs ok = c.sendKeyerCommand k.line k.moxDuration nowMs ok := by
  obtain ⟨hrun, -⟩ := canSend_iff.mp hopen
  cases k with
  | runCW item duration =>
      obtain ⟨hitem, hpos⟩ : (item = .dit ∨ item = .dah) ∧ 0 < duration := by
        simpa [KeyerCall.sends] using hsends
      have hcheck : ¬(item ≠ .dit ∧ item ≠ .dah) := fun h => hitem.elim h.1 h.2
      rw [call, if_neg hcheck, sendDuration, hrun]
      simp only [Bool.not_true, Bool.false_or, decide_eq_true_eq, if_neg (Int.not_le.mpr hpos)]
      rfl
  | startRunCw => rfl
  | stopRunCw => rfl

/-- Any other call changes nothing. -/
theorem call_closed {c : RemoteClient} {k : KeyerCall}
    (hclosed : k.sends = false ∨ c.canSend = false) (nowMs : Nat) (ok : Sends) :
    c.call k nowMs ok = (c, false) := by
  rcases c.call_cases k nowMs ok with hnone | ⟨hsends, hsend⟩
  · exact hnone
  · rcases hclosed with hsends' | hopen
    · simp [hsends] at hsends'
    · rw [hsend, sendKeyerCommand, not_canSend, hopen]
      rfl

/-! ## What the parts of the client add to the wire -/

/-- A command adds its line, or the session ends with it. -/
theorem CommandOutcome.keyerLines {c c' : RemoteClient} {k : KeyerCall} {nowMs : Nat} {ok : Sends}
    {accepted : Bool} (h : CommandOutcome c k.line k.moxDuration nowMs ok (c', accepted))
    (hopen : c.canSend = true) :
    keyerLines c'.wire = keyerLines c.wire ++ [k.line]
      ∨ keyerLines c'.wire = keyerLines c.wire ∧ c'.canSend = false := by
  cases h with
  | refused hclosed => simp [hopen] at hclosed
  | moxFailed => exact .inr ⟨rfl, canSend_of_not_running rfl⟩
  | commandFailed => exact .inr ⟨by simp, canSend_of_not_running rfl⟩
  | released =>
      refine .inl ?_
      show CwKeyer.keyerLines (c.wire ++ c.moxPrefix ++ ([k.line] ++ [.trx false])) = _
      rw [keyerLines_append, keyerLines_append, keyerLines_append]
      simp
  | releaseFailed => exact .inl (by simp)
  | scheduled => exact .inl (by simp)

/-- The keyer lines stay, and a session that cannot send does not begin to. -/
structure SendsNoKeyer (c c' : RemoteClient) : Prop where
  lines : CwKeyer.keyerLines c'.wire = CwKeyer.keyerLines c.wire
  closed : c'.canSend = true → c.canSend = true

theorem SendsNoKeyer.refl (c : RemoteClient) : SendsNoKeyer c c := ⟨rfl, id⟩

theorem Unkeyed.sendsNoKeyer {c c' : RemoteClient} {ok : Bool} (h : Unkeyed c ok c') :
    SendsNoKeyer c c' := by
  cases h with
  | sent => exact ⟨by simp, id⟩
  | failed => exact ⟨rfl, fun hopen => by simp [canSend] at hopen⟩
  | closed => exact ⟨rfl, id⟩

theorem TimerOutcome.sendsNoKeyer {c c' : RemoteClient} {pc pc' : TimerPc} {nowMs : Nat}
    {timedOut ok : Bool} (h : TimerOutcome c pc nowMs timedOut ok (c', pc')) :
    SendsNoKeyer c c' := by
  cases h with
  | exit | sleep | timedSleep | keepWaiting => exact .refl _
  | release _ _ _ hrelease =>
      rcases timerRelease_cases c ok with ⟨-, heq⟩ | ⟨-, hunkeyed⟩
      · rw [hrelease, heq]
        exact ⟨rfl, id⟩
      · rw [hrelease]
        exact ⟨hunkeyed.sendsNoKeyer.lines, hunkeyed.sendsNoKeyer.closed⟩

end RemoteClient

/-- No `start` is in progress. -/
def MainPc.notStarting : MainPc → Prop
  | .idle => True
  | .stop _ caller => caller = none
  | _ => False

theorem MainPc.notStarting_stop {m : MainPc} {pc pc' : StopPc} {caller : Option StartArgs}
    (h : m.notStarting) (hpc : m = .stop pc caller) : (MainPc.stop pc' caller).notStarting := by
  rw [hpc] at h
  exact h

open RemoteClient in
theorem sendsNoKeyer_main {s s' : RemoteSystem} {ok : Bool} {fd : Nat}
    (hmain : s.main.notStarting) (h : MainOutcome s ok fd s') :
    SendsNoKeyer s.client s'.client ∧ s'.main.notStarting := by
  cases h with
  | firstBlock hpc => exact ⟨⟨rfl, id⟩, MainPc.notStarting_stop hmain hpc⟩
  | join hpc => exact ⟨.refl _, MainPc.notStarting_stop hmain hpc⟩
  | guardedSend hpc _ hunkeyed => exact ⟨hunkeyed.sendsNoKeyer, MainPc.notStarting_stop hmain hpc⟩
  | guardedSkip hpc => exact ⟨.refl _, MainPc.notStarting_stop hmain hpc⟩
  | secondBlock hpc => exact ⟨⟨rfl, id⟩, MainPc.notStarting_stop hmain hpc⟩
  | clearRunning hpc =>
      exact ⟨⟨rfl, fun hopen => by simp [canSend] at hopen⟩, MainPc.notStarting_stop hmain hpc⟩
  | closeStop => exact ⟨⟨rfl, fun hopen => by simp [canSend] at hopen⟩, trivial⟩
  | closeStart hpc =>
      rw [hpc] at hmain
      cases hmain
  | startFailed hpc =>
      rcases hpc with hpc | hpc <;> rw [hpc] at hmain <;> exact hmain.elim
  | platformInit hpc =>
      rw [hpc] at hmain
      exact hmain.elim
  | openConnection hpc =>
      rw [hpc] at hmain
      exact hmain.elim
  | handshake hpc =>
      rw [hpc] at hmain
      exact hmain.elim
  | handshakeFailed hpc =>
      rw [hpc] at hmain
      exact hmain.elim
  | resetMox hpc =>
      rw [hpc] at hmain
      exact hmain.elim
  | setRunning hpc =>
      rw [hpc] at hmain
      exact hmain.elim
  | spawn hpc =>
      rw [hpc] at hmain
      exact hmain.elim

/-! ## Runs -/

/-- After the calls `ks`, on a wire that had the keyer lines `before`. -/
structure Transmits (before : List Line) (ks : List KeyerCall) (s : RemoteSystem) : Prop where
  notStarting : s.main.notStarting
  lines : ∃ sent lost, ks = sent ++ lost
    ∧ keyerLines s.client.wire = before ++ sent.map KeyerCall.line
    ∧ (s.client.canSend = true → lost = [])

theorem Transmits.sendsNoKeyer {before : List Line} {ks : List KeyerCall} {s s' : RemoteSystem}
    (h : Transmits before ks s) (hsends : s.client.SendsNoKeyer s'.client)
    (hmain : s'.main.notStarting) : Transmits before ks s' := by
  obtain ⟨sent, lost, rfl, hwire, hlost⟩ := h.lines
  exact ⟨hmain, sent, lost, rfl, hsends.lines.trans hwire, fun hopen => hlost (hsends.closed hopen)⟩

/-- A call that gets as far as the command. -/
theorem Transmits.command {before : List Line} {ks : List KeyerCall} {s s' : RemoteSystem}
    {k : KeyerCall} {nowMs : Nat} {ok : Sends} {accepted : Bool} (h : Transmits before ks s)
    (hopen : s.client.canSend = true) (hmain : s'.main = s.main)
    (hcommand : s.client.CommandOutcome k.line k.moxDuration nowMs ok (s'.client, accepted)) :
    Transmits before (ks ++ [k]) s' := by
  obtain ⟨sent, lost, rfl, hwire, hlost⟩ := h.lines
  obtain rfl := hlost hopen
  refine ⟨hmain ▸ h.notStarting, ?_⟩
  rcases hcommand.keyerLines hopen with hsent | ⟨hsame, hclosed⟩
  · exact ⟨sent ++ [k], [], by simp, by rw [hsent, hwire]; simp, fun _ => rfl⟩
  · exact ⟨sent, [k], by simp, hsame.trans hwire, fun hopen' => by simp [hclosed] at hopen'⟩

/-- A call after the end of the session is lost. -/
theorem Transmits.lost {before : List Line} {ks : List KeyerCall} {s s' : RemoteSystem}
    (h : Transmits before ks s) (hclosed : s.client.canSend = false)
    (hclient : s'.client = s.client) (hmain : s'.main = s.main) (k : KeyerCall) :
    Transmits before (ks ++ [k]) s' := by
  obtain ⟨sent, lost, rfl, hwire, -⟩ := h.lines
  refine ⟨hmain ▸ h.notStarting, sent, lost ++ [k], by simp, hclient ▸ hwire, fun hopen => ?_⟩
  rw [hclient, hclosed] at hopen
  cases hopen

theorem call_of_step {s s' : RemoteSystem} {k : KeyerCall} {nowMs : Nat} {ok : Sends}
    (hstep : remote.step s (.call k nowMs ok) = some s') :
    s'.client = (s.client.call k nowMs ok).1 ∧ s'.main = s.main := by
  obtain rfl := Option.some.inj hstep
  exact ⟨rfl, rfl⟩

theorem Transmits.call {before : List Line} {ks : List KeyerCall} {s s' : RemoteSystem}
    {k : KeyerCall} {nowMs : Nat} {ok : Sends} (h : Transmits before ks s)
    (hstep : remote.step s (.call k nowMs ok) = some s') :
    Transmits before (ks ++ (RemoteAct.call k nowMs ok).command?.toList) s' := by
  obtain ⟨hclient, hmain⟩ := call_of_step hstep
  cases hsends : k.sends with
  | false =>
      rw [RemoteClient.call_closed (.inl hsends)] at hclient
      simp only [RemoteAct.command?, hsends, Bool.false_eq_true, if_false, Option.toList_none,
        List.append_nil]
      exact h.sendsNoKeyer (hclient ▸ .refl _) (hmain ▸ h.notStarting)
  | true =>
      simp only [RemoteAct.command?, hsends, if_true, Option.toList_some]
      cases hopen : s.client.canSend with
      | false =>
          rw [RemoteClient.call_closed (.inr hopen)] at hclient
          exact h.lost hopen hclient hmain k
      | true =>
          rw [RemoteClient.call_open hsends hopen] at hclient
          have hcommand : s.client.CommandOutcome k.line k.moxDuration nowMs ok
              (s'.client, (s.client.sendKeyerCommand k.line k.moxDuration nowMs ok).2) := by
            rw [hclient]
            exact s.client.commandOutcome ..
          exact h.command hopen hmain hcommand

theorem Transmits.step {before : List Line} {ks : List KeyerCall} {s s' : RemoteSystem}
    {a : RemoteAct} (h : Transmits before ks s) (ha : a.isStart = false)
    (hstep : remote.step s a = some s') : Transmits before (ks ++ a.command?.toList) s' := by
  cases a with
  | call k nowMs ok => exact h.call hstep
  | start args => cases ha
  | stop =>
      simp only [RemoteAct.command?, Option.toList_none, List.append_nil]
      cases RemoteStep.of_step hstep with
      | stop hmain => exact h.sendsNoKeyer (.refl _) rfl
  | timer nowMs timedOut ok =>
      simp only [RemoteAct.command?, Option.toList_none, List.append_nil]
      cases RemoteStep.of_step hstep with
      | timer hpc htimer => exact h.sendsNoKeyer htimer.sendsNoKeyer h.notStarting
  | main ok fd =>
      simp only [RemoteAct.command?, Option.toList_none, List.append_nil]
      obtain ⟨hsends, hmain⟩ := sendsNoKeyer_main h.notStarting (mainOutcome hstep)
      exact h.sendsNoKeyer hsends hmain

theorem transmits_run {s t : RemoteSystem} {as : List RemoteAct} (hmain : s.main.notStarting)
    (has : ∀ a ∈ as, a.isStart = false) (hrun : remote.run s as = some t) :
    Transmits (keyerLines s.client.wire) (commands as) t := by
  revert has
  refine Machine.run_rec (C := fun as t => (∀ a ∈ as, a.isStart = false) →
    Transmits (keyerLines s.client.wire) (commands as) t) ?_ ?_ hrun
  · exact fun _ => ⟨hmain, [], [], rfl, (List.append_nil _).symm, fun _ => rfl⟩
  · intro as t a u ih hstep has
    rw [commands_snoc]
    exact (ih fun b hb => has b (List.mem_append_left _ hb)).step
      (has a (List.mem_append_right _ (List.mem_singleton_self a))) hstep

/-- **The wire carries the commands.** From any state in which no `start`
is in progress until the next one, whatever the order of the calls, the
timer and `stop` and whichever sends fail: the keyer lines that are added
are those of the calls in their order, but for the last calls, of which
none is missing while the session runs. -/
theorem commands_on_wire {s t : RemoteSystem} {as : List RemoteAct} (hmain : s.main.notStarting)
    (has : ∀ a ∈ as, a.isStart = false) (hrun : remote.run s as = some t) :
    ∃ sent lost, commands as = sent ++ lost
      ∧ keyerLines t.client.wire = keyerLines s.client.wire ++ sent.map KeyerCall.line
      ∧ (t.client.running = true → t.client.socketFd.isSome = true → lost = []) := by
  obtain ⟨sent, lost, hks, hwire, hlost⟩ := (transmits_run hmain has hrun).lines
  refine ⟨sent, lost, hks, hwire, fun hrunning hsock => hlost ?_⟩
  rw [RemoteClient.canSend, hrunning, hsock]
  rfl

/-- A dit, and the straight key on a connection that is lost while it is
down. -/
def lostUnderKey : List RemoteAct := [.call (.runCW .dit 60) 5 ⟨true, true, true⟩,
  .timer 6 false true, .call .startRunCw 90 ⟨true, true, true⟩,
  .call .stopRunCw 95 ⟨true, false, true⟩, .call (.runCW .dah 180) 99 ⟨true, true, true⟩]

theorem commands_on_wire_lost : ∃ s t,
    remote.run .init (connects ⟨"127.0.0.1", 50005, 250⟩) = some s
      ∧ remote.run s lostUnderKey = some t
      ∧ keyerLines t.client.wire = [.keyerTimed 60, .keyer true]
      ∧ ∃ sent lost, commands lostUnderKey = sent ++ lost
        ∧ keyerLines t.client.wire = keyerLines s.client.wire ++ sent.map KeyerCall.line
        ∧ (t.client.running = true → t.client.socketFd.isSome = true → lost = []) := by
  refine ⟨_, _, rfl, rfl, rfl, ?_⟩
  exact @commands_on_wire _ _ lostUnderKey trivial (by decide) rfl

end CwKeyer
