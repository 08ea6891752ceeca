import CwKeyer.Remote.Stop

/-!
# The life cycle of `RemoteClient`

What each exit of `start` and `stop` leaves behind, when the calls come
one at a time. A failed send leaves a client that does not run with its
socket open and its timer thread alive; `stop` recovers from it, and every
`start` begins with a `stop`. From the join of the timer thread to its next
creation there is no thread, and from the second block of `stop` on MOX is
off (`LifecycleInv`), so whichever step of `start` fails, nothing is left
open (`remote_lifecycle`).
-/

namespace CwKeyer

/-- No keyer command comes during a `start` or a `stop`. -/
def oneAtATime (s : RemoteSystem) : RemoteAct → Bool
  | .call _ _ _ => s.main = .idle
  | _ => true

namespace RemoteSystem

/-- Nothing runs, nothing is open. -/
structure Stopped (s : RemoteSystem) : Prop where
  running : s.client.running = false
  socket : s.client.socketFd = none
  timer : s.timer = none

/-- A session with its socket, one timer thread and a clean MOX state. -/
structure Started (s : RemoteSystem) : Prop where
  running : s.client.running = true
  socket : s.client.socketFd.isSome = true
  timer : s.timer = some .entry
  moxActive : s.client.moxActive = false
  scheduled : s.client.moxDeactivationScheduled = false

end RemoteSystem

/-- `start` can still fail here. -/
def MainPc.mayFail : MainPc → Bool
  | .platformInit _ => true
  | .openConnection _ => true
  | .handshake _ => true
  | _ => false

/-- What the exits of `start` and `stop` leave behind. -/
structure Lifecycle (s : RemoteSystem) (a : RemoteAct) (s' : RemoteSystem) : Prop where
  /-- `start` rejects its arguments -/
  rejected : ∀ args, a = .start args → args.valid = false → s' = s
  /-- `start` assigns the thread and returns `true` -/
  started : s.main = .spawn → s'.main = .idle → s.timer = none ∧ s'.Started
  /-- `start` returns `false` after its checks -/
  failed : s.main.mayFail = true → s'.main = .idle → s'.Stopped
  /-- `stop` returns, to its caller or to `start` -/
  stopped : ∀ caller, s.main = .stop .close caller → s'.main ≠ s.main →
    s'.Stopped ∧ s'.client.moxActive = false
  /-- `stop` waits for a timer thread that ends with its next step -/
  joins : ∀ should caller, s.main = .stop (.join should) caller → s'.main = s.main →
    s'.timer = some .exited

/-! ## The invariant -/

/-- Past the second block of `stop`, up to the return of `start`. -/
def MainPc.released : MainPc → Bool
  | .idle => false
  | .stop .firstBlock _ => false
  | .stop (.join _) _ => false
  | .stop (.guarded _) _ => false
  | .stop .secondBlock _ => false
  | _ => true

structure LifecycleInv (s : RemoteSystem) : Prop where
  joined : s.main.joined = true → s.timer = none
  released : s.main.released = true → s.client.moxActive = false
  fresh : ∀ args, s.main = .platformInit args ∨ s.main = .openConnection args →
    s.client.socketFd = none
  connected : s.main.connecting = true ∨ s.main = .spawn → s.client.socketFd.isSome = true
  ready : s.main = .spawn →
    s.client.running = true ∧ s.client.moxDeactivationScheduled = false
  stopping : ∀ should caller, s.main = .stop (.join should) caller →
    s.client.stopMoxTimerThread = true

/-- Until the timer thread is joined there is nothing to show but that it
is told to end. -/
theorem LifecycleInv.of_not_joined {s : RemoteSystem} (h : s.main.joined = false)
    (hstop : ∀ should caller, s.main = .stop (.join should) caller →
      s.client.stopMoxTimerThread = true) : LifecycleInv s := by
  cases hmain : s.main with
  | idle => constructor <;> simp [hmain, MainPc.joined, MainPc.released, MainPc.connecting]
  | stop pc caller =>
      rw [hmain] at h
      cases pc with
      | firstBlock =>
          constructor <;> simp [hmain, MainPc.joined, MainPc.released, MainPc.connecting]
      | join should =>
          have := hstop should caller hmain
          constructor <;> simp [hmain, MainPc.joined, MainPc.released, MainPc.connecting, this]
      | guarded | secondBlock | clearRunning | close => cases h
  | platformInit | openConnection | handshake | resetMox | setRunning | spawn =>
      rw [hmain] at h
      cases h

theorem lifecycleInv_init : LifecycleInv .init :=
  .of_not_joined rfl (by simp [RemoteSystem.init])

/-- A step of `start` or `stop` after the join. -/
theorem LifecycleInv.of_joined {s : RemoteSystem} (htimer : s.timer = none)
    (hjoin : s.main.joined = true)
    (hreleased : s.main.released = true → s.client.moxActive = false)
    (hfresh : ∀ args, s.main = .platformInit args ∨ s.main = .openConnection args →
      s.client.socketFd = none)
    (hconnected : s.main.connecting = true ∨ s.main = .spawn → s.client.socketFd.isSome = true)
    (hready : s.main = .spawn →
      s.client.running = true ∧ s.client.moxDeactivationScheduled = false) : LifecycleInv s := by
  refine ⟨fun _ => htimer, hreleased, hfresh, hconnected, hready, ?_⟩
  intro should caller hmain
  rw [hmain] at hjoin
  cases hjoin

theorem lifecycleInv_main {s s' : RemoteSystem} {ok : Bool} {fd : Nat} (hP : PhaseInv s)
    (hI : LifecycleInv s) (h : MainOutcome s ok fd s') : LifecycleInv s' := by
  cases h with
  | firstBlock => exact .of_not_joined rfl fun _ _ _ => rfl
  | join =>
      exact .of_joined rfl rfl (by simp [MainPc.released]) (by simp)
        (by simp [MainPc.connecting]) (by simp)
  | guardedSend hmain | guardedSkip hmain =>
      exact .of_joined (hI.joined (by rw [hmain]; rfl)) rfl (by simp [MainPc.released]) (by simp)
        (by simp [MainPc.connecting]) (by simp)
  | secondBlock hmain =>
      exact .of_joined (hI.joined (by rw [hmain]; rfl)) rfl (fun _ => rfl) (by simp)
        (by simp [MainPc.connecting]) (by simp)
  | clearRunning hmain =>
      exact .of_joined (hI.joined (by rw [hmain]; rfl)) rfl
        (fun _ => hI.released (by rw [hmain]; rfl)) (by simp) (by simp [MainPc.connecting])
        (by simp)
  | closeStop => exact .of_not_joined rfl (by simp)
  | closeStart hmain =>
      exact .of_joined (hI.joined (by rw [hmain]; rfl)) rfl
        (fun _ => hI.released (by rw [hmain]; rfl)) (fun _ _ => rfl) (by simp [MainPc.connecting])
        (by simp)
  | platformInit hmain =>
      exact .of_joined (hI.joined (by rw [hmain]; rfl)) rfl
        (fun _ => hI.released (by rw [hmain]; rfl)) (fun _ _ => hI.fresh _ (.inl hmain))
        (by simp [MainPc.connecting]) (by simp)
  | openConnection hmain =>
      exact .of_joined (hI.joined (by rw [hmain]; rfl)) rfl
        (fun _ => hI.released (by rw [hmain]; rfl)) (by simp) (fun _ => rfl) (by simp)
  | handshake hmain =>
      exact .of_joined (hI.joined (by rw [hmain]; rfl)) rfl
        (fun _ => hI.released (by rw [hmain]; rfl)) (by simp)
        (fun _ => hI.connected (.inl (by rw [hmain]; rfl))) (by simp)
  | startFailed => exact .of_not_joined rfl (by simp)
  | handshakeFailed => exact .of_not_joined rfl (by simp)
  | resetMox hmain =>
      exact .of_joined (hI.joined (by rw [hmain]; rfl)) rfl (fun _ => rfl) (by simp)
        (fun _ => hI.connected (.inl (by rw [hmain]; rfl))) (by simp)
  | setRunning hmain =>
      obtain ⟨hmox, -, hscheduled⟩ := hP.reset hmain
      exact .of_joined (hI.joined (by rw [hmain]; rfl)) rfl (fun _ => hmox) (by simp)
        (fun _ => hI.connected (.inl (by rw [hmain]; rfl))) (fun _ => ⟨rfl, hscheduled⟩)
  | spawn => exact .of_not_joined rfl (by simp)

theorem lifecycleInv_step {s s' : RemoteSystem} {a : RemoteAct} (hP : PhaseInv s)
    (hI : LifecycleInv s) (hone : oneAtATime s a = true) (hstep : remote.step s a = some s') :
    LifecycleInv s' := by
  cases RemoteStep.of_step hstep with
  | callNothing | command =>
      have hidle : s.main = .idle := by simpa [oneAtATime] using hone
      exact .of_not_joined (by simp [hidle, MainPc.joined]) (by simp [hidle])
  | timer hpc htimer =>
      -- there is a timer thread, so it has not been joined
      refine .of_not_joined ?_ fun should caller hmain => ?_
      · by_contra hjoined
        simp [hI.joined (by simpa using hjoined)] at hpc
      · rw [htimer.frame.2.1]
        exact hI.stopping should caller hmain
  | startRejected => exact hI
  | start => exact .of_not_joined rfl (by simp)
  | stop => exact .of_not_joined rfl (by simp)
  | main hmain => exact lifecycleInv_main hP hI hmain

/-! ## The exits -/

theorem MainPc.joined_of_mayFail {m : MainPc} (h : m.mayFail = true) : m.joined = true := by
  cases m <;> simp_all [mayFail, joined]

/-- A step of another thread, or of an idle client. -/
theorem Lifecycle.of_not_joined {s s' : RemoteSystem} {a : RemoteAct}
    (h : s.main.joined = false) (hstart : ∀ args, a = .start args → args.valid = false → s' = s)
    (hjoins : ∀ should caller, s.main = .stop (.join should) caller → s'.main = s.main →
      s'.timer = some .exited) : Lifecycle s a s' := by
  refine ⟨hstart, ?_, ?_, ?_, hjoins⟩
  · intro hmain
    rw [hmain] at h
    cases h
  · intro hmain
    rw [MainPc.joined_of_mayFail hmain] at h
    cases h
  · intro caller hmain
    rw [hmain] at h
    cases h

/-- A step of `start` or `stop` after the join that does not return. -/
theorem Lifecycle.of_next {s s' : RemoteSystem} {ok : Bool} {fd : Nat}
    (h : s.main.joined = true) (hnext : s'.main ≠ .idle)
    (hclose : ∀ caller, s.main ≠ .stop .close caller) : Lifecycle s (.main ok fd) s' := by
  refine ⟨by simp, fun _ hidle => absurd hidle hnext, fun _ hidle => absurd hidle hnext,
    fun caller hmain => absurd hmain (hclose caller), fun should caller hmain => ?_⟩
  rw [hmain] at h
  cases h

theorem lifecycle_main {s s' : RemoteSystem} {ok : Bool} {fd : Nat} (hP : PhaseInv s)
    (hI : LifecycleInv s) (h : MainOutcome s ok fd s') : Lifecycle s (.main ok fd) s' := by
  cases h with
  | firstBlock hmain => exact .of_not_joined (by rw [hmain]; rfl) (by simp) (by simp [hmain])
  | join hmain => exact .of_not_joined (by rw [hmain]; rfl) (by simp) (by simp [hmain])
  | guardedSend hmain | guardedSkip hmain | secondBlock hmain | clearRunning hmain
  | platformInit hmain | openConnection hmain | handshake hmain | resetMox hmain
  | setRunning hmain =>
      exact .of_next (by rw [hmain]; rfl) (by simp) (by simp [hmain])
  | closeStop hmain | closeStart hmain =>
      have hstopped := And.intro (hP.quiet (by rw [hmain]; rfl)) (hI.joined (by rw [hmain]; rfl))
      have hmox := hI.released (by rw [hmain]; rfl)
      refine ⟨by simp, by simp [hmain], by simp [hmain, MainPc.mayFail], ?_, by simp [hmain]⟩
      exact fun _ _ _ => ⟨⟨hstopped.1, rfl, hstopped.2⟩, hmox⟩
  | startFailed hmain =>
      have hjoined : s.main.joined = true := by rcases hmain with h | h <;> rw [h] <;> rfl
      have hquiet : s.main.quiet = true := by rcases hmain with h | h <;> rw [h] <;> rfl
      refine ⟨by simp, by rcases hmain with h | h <;> simp [h], fun _ _ => ?_,
        by rcases hmain with h | h <;> simp [h], by rcases hmain with h | h <;> simp [h]⟩
      exact ⟨hP.quiet hquiet, hI.fresh _ hmain, hI.joined hjoined⟩
  | handshakeFailed hmain =>
      refine ⟨by simp, by simp [hmain], ?_, by simp [hmain], by simp [hmain]⟩
      intro _ _
      exact ⟨hP.quiet (by rw [hmain]; rfl), rfl, hI.joined (by rw [hmain]; rfl)⟩
  | spawn hmain =>
      obtain ⟨hrunning, hscheduled⟩ := hI.ready hmain
      refine ⟨by simp, fun _ _ => ⟨hI.joined (by rw [hmain]; rfl), ?_⟩,
        by simp [hmain, MainPc.mayFail], by simp [hmain], by simp [hmain]⟩
      exact ⟨hrunning, hI.connected (.inr hmain), rfl, hI.released (by rw [hmain]; rfl), hscheduled⟩

theorem lifecycle_step {s s' : RemoteSystem} {a : RemoteAct} (hP : PhaseInv s)
    (hI : LifecycleInv s) (hone : oneAtATime s a = true) (hstep : remote.step s a = some s') :
    Lifecycle s a s' := by
  cases RemoteStep.of_step hstep with
  | callNothing | command =>
      have hidle : s.main = .idle := by simpa [oneAtATime] using hone
      exact .of_not_joined (by rw [hidle]; rfl) (by simp) (by simp [hidle])
  | timer hpc htimer =>
      refine .of_not_joined ?_ (by simp) fun should caller hmain _ => ?_
      · by_contra hjoined
        simp [hI.joined (by simpa using hjoined)] at hpc
      · have hexit := hI.stopping should caller hmain
        cases htimer with
        | exit => rfl
        | sleep hstop | timedSleep hstop | keepWaiting hstop | release hstop =>
            rw [hexit] at hstop
            cases hstop
  | startRejected hmain => exact .of_not_joined (by rw [hmain]; rfl) (by simp) (by simp [hmain])
  | start hmain hargs =>
      refine .of_not_joined (by rw [hmain]; rfl) ?_ (by simp [hmain])
      rintro args ⟨⟩ hinvalid
      rw [hargs] at hinvalid
      cases hinvalid
  | stop hmain => exact .of_not_joined (by rw [hmain]; rfl) (by simp) (by simp [hmain])
  | main hmain => exact lifecycle_main hP hI hmain

/-- **The life cycle of `RemoteClient`.** With the calls one at a time, and
whatever fails, `start` assigns no joinable thread, leaves a clean session
when it returns `true`, nothing open when it returns `false` and no change
when it rejects its arguments; and from any state `stop` leaves nothing
open and MOX off. -/
theorem remote_lifecycle {as : List RemoteAct}
    (hone : remote.Along (fun s a _ => oneAtATime s a = true) .init as) :
    remote.Along Lifecycle .init as :=
  Machine.along_of_invariant (I := fun s => PhaseInv s ∧ LifecycleInv s)
    (fun _ _ _ ⟨hP, hI⟩ hone hstep =>
      ⟨⟨phaseInv_step hP hstep, lifecycleInv_step hP hI hone hstep⟩,
        lifecycle_step hP hI hone hstep⟩)
    ⟨phaseInv_init, lifecycleInv_init⟩ hone

/-- A session whose first send fails, and a `start` that cannot connect. -/
def lostAndRefused : List RemoteAct :=
  connects ⟨"10.0.0.1", 8080, 250⟩ ++
    [.call (.runCW .dit 60) 5 ⟨false, true, true⟩, .start ⟨"10.0.0.1", 8080, 250⟩,
      .main true 0, .timer 6 false true] ++ List.replicate 6 (.main true 0) ++ [.main false 0]

theorem remote_lifecycle_lost :
    ∃ s, remote.run .init lostAndRefused = some s ∧ remote.Along Lifecycle .init lostAndRefused :=
  ⟨_, rfl, remote_lifecycle (by decide)⟩

end CwKeyer
