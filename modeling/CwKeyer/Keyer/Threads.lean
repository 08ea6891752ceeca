import CwKeyer.Keyer.Basic
import CwKeyer.WaitSet

/-!
# The threads of `Keyer`

`keyerCall`, `enqueue`, `initKeyer` and `stopKeyer` step by step: every
thread that `initKeyer` ever created, the paddle side, and the thread
that calls `initKeyer` and `stopKeyer` (`setWpm`, `setMode` and quitting
do). `m_mutex` is held by a keyer thread for its whole loop body except
while it waits; `enqueue` does not take it. The threads are detached at
once, so `joinable()` is false and `stopKeyer` joins nothing.

The wait predicate and the check of `m_queue.empty()` after the wait are
one step: a push between the two leaves the same state as a push just
before both.
-/

namespace CwKeyer

/-- Where a keyer thread is in `keyerCall`. -/
inductive CallPc where
  /-- About to test `m_started`. -/
  | test
  /-- About to lock `m_mutex`. -/
  | lock
  /-- Holds `m_mutex`, about to evaluate the wait predicate. -/
  | evaluate
  /-- Found the predicate false, about to enter the wait set. -/
  | blocking
  | waiting
  /-- Out of the wait set, about to lock `m_mutex` again. -/
  | woken
  /-- Found the queue non-empty. -/
  | pop
  | playing (item : KeyerItem) (squeeze : Bool)
  /-- Has pushed in the mode processing, about to notify. -/
  | notify
  /-- Out of `keyerCall`. -/
  | left
deriving Repr, DecidableEq

/-- `m_coditionVar`. -/
def coditionVar : WaitSet CallPc := ⟨.waiting, .woken⟩

/-- What the thread that calls `initKeyer` and `stopKeyer` does next. A
`stopKeyer` that `initKeyer` has called goes on with its settings. -/
inductive ControlPc where
  | idle
  | clear (caller : Option (Int × Mode))
  | notifyAll (caller : Option (Int × Mode))
  | join (caller : Option (Int × Mode))
  | discard (caller : Option (Int × Mode))
  | configure (wpm : Int) (mode : Mode)
  | setStarted
  | spawn
  | detach
deriving Repr, DecidableEq

/-- What the threads share. `threads` are all keyer threads ever created,
`threadKeyer` says whether `m_threadKeyer` points to a thread and whether
that one is joinable, `notifying` counts the `enqueue` calls of the paddle
side that have pushed and not yet notified. For the statements: the threads
that have tested `m_started` since it was last cleared, the number of threads
created before the last `stopKeyer` that has returned, and every element
started with the thread that started it. -/
structure KeyerSystem where
  keyer : Keyer
  started : Bool := false
  mutex : Option Nat := none
  threads : List CallPc := []
  threadKeyer : Option Bool := none
  notifying : Nat := 0
  control : ControlPc := .idle
  tested : List Nat := []
  stale : Nat := 0
  played : List (Nat × KeyerItem) := []
deriving Repr, DecidableEq

inductive KeyerSystemAct where
  | onDit (pressed : Bool)
  | onDah (pressed : Bool)
  /-- The `notify_one` of an `enqueue` of the paddle side. -/
  | notify (who : Option Nat)
  /-- The next step of a keyer thread; `who` is read by its `notify_one`. -/
  | thread (i : Nat) (who : Option Nat)
  | spuriousWakeup (i : Nat)
  | stopKeyer
  | initKeyer (wpm : Int) (mode : Mode)
  /-- The next step of `initKeyer` or `stopKeyer`. -/
  | control
deriving Repr, DecidableEq

namespace KeyerSystem

/-- `stopKeyer` returns. -/
def stopped (s : KeyerSystem) (caller : Option (Int × Mode)) : KeyerSystem :=
  { s with
    stale := s.threads.length
    control := match caller with
      | none => .idle
      | some (wpm, mode) => .configure wpm mode }

def controlStep (s : KeyerSystem) : Option KeyerSystem :=
  match s.control with
  | .idle => none
  | .clear caller =>
      some (if s.started then
          { s with started := false, control := .notifyAll caller, tested := [] }
        else s.stopped caller)
  | .notifyAll caller =>
      some { s with threads := coditionVar.wakeAll s.threads, control := .join caller }
  | .join caller =>
      if s.threadKeyer = some true ∧ s.threads.getLast? ≠ some .left then none
      else some { s with control := .discard caller }
  | .discard caller => some ({ s with threadKeyer := none }.stopped caller)
  | .configure wpm mode =>
      some { s with keyer := s.keyer.configure wpm mode, control := .setStarted }
  | .setStarted => some { s with started := true, control := .spawn }
  | .spawn =>
      some { s with
        threads := s.threads ++ [.test]
        threadKeyer := some true
        control := .detach }
  | .detach => some { s with threadKeyer := some false, control := .idle }

/-- The next step of thread `i` of `keyerCall`, which is at `pc`. The lock
goes with the last step of the loop body. -/
def callStep (s : KeyerSystem) (i : Nat) (who : Option Nat) : CallPc → Option KeyerSystem
  | .test =>
      some { s with
        threads := s.threads.set i (if s.started then .lock else .left)
        tested := s.tested ++ [i] }
  | .lock =>
      if s.mutex = none then
        some { s with mutex := some i, threads := s.threads.set i .evaluate }
      else none
  | .evaluate =>
      if s.keyer.queue ≠ [] then some { s with threads := s.threads.set i .pop }
      else if !s.started then some { s with mutex := none, threads := s.threads.set i .test }
      else some { s with threads := s.threads.set i .blocking }
  | .blocking => some { s with mutex := none, threads := s.threads.set i .waiting }
  | .waiting => none
  | .woken =>
      if s.mutex = none then
        some { s with mutex := some i, threads := s.threads.set i .evaluate }
      else none
  | .pop =>
      match s.keyer.queue with
      | [] => none
      | item :: rest =>
          some { s with
            keyer := { s.keyer with queue := rest }
            threads := s.threads.set i (.playing item s.keyer.squeeze)
            played := s.played ++ [(i, item)] }
  | .playing _ squeeze =>
      let keyer := s.keyer.processMode squeeze
      if (s.keyer.modeItem squeeze).isSome && s.keyer.queue.isEmpty then
        some { s with keyer := keyer, threads := s.threads.set i .notify }
      else some { s with keyer := keyer, mutex := none, threads := s.threads.set i .test }
  | .notify => do
      let threads ← coditionVar.wakeOne s.threads who
      some { s with mutex := none, threads := threads.set i .test }
  | .left => none

/-- A press sets the flags and pushes in one step; if it pushed, its
`notify_one` is still to come. -/
def press (s : KeyerSystem) (keyer : Keyer) : KeyerSystem :=
  { s with
    keyer := keyer
    notifying := if s.keyer.queue.isEmpty then s.notifying + 1 else s.notifying }

def step (s : KeyerSystem) : KeyerSystemAct → Option KeyerSystem
  | .onDit pressed =>
      some (if pressed then s.press (s.keyer.onDit true)
        else { s with keyer := s.keyer.onDit false })
  | .onDah pressed =>
      some (if pressed then s.press (s.keyer.onDah true)
        else { s with keyer := s.keyer.onDah false })
  | .notify who =>
      if s.notifying = 0 then none
      else do
        let threads ← coditionVar.wakeOne s.threads who
        some { s with threads := threads, notifying := s.notifying - 1 }
  | .thread i who => do
      let pc ← s.threads[i]?
      s.callStep i who pc
  | .spuriousWakeup i =>
      if s.threads[i]? = some .waiting then
        some { s with threads := s.threads.set i .woken }
      else none
  | .stopKeyer => if s.control = .idle then some { s with control := .clear none } else none
  | .initKeyer wpm mode =>
      if s.control = .idle then some { s with control := .clear (some (wpm, mode)) } else none
  | .control => s.controlStep

/-- A keyer that has just been constructed. -/
def init (lastPressed lastQueued : KeyerItem) : KeyerSystem :=
  { keyer := { lastPressed := lastPressed, lastQueued := lastQueued } }

/-- A keyer after its first `initKeyer`, its thread not yet scheduled. -/
def launched (lastPressed lastQueued : KeyerItem) (wpm : Int) (mode : Mode) : KeyerSystem :=
  { keyer := { lastPressed := lastPressed, lastQueued := lastQueued : Keyer }.configure wpm mode
    started := true
    threads := [.test]
    threadKeyer := some false }

end KeyerSystem

/-- `Keyer` and all its threads. -/
def keyerThreads : Machine KeyerSystem KeyerSystemAct := ⟨KeyerSystem.step⟩

/-- The step belongs to a call of `initKeyer` or `stopKeyer`. -/
def KeyerSystemAct.byControl : KeyerSystemAct → Bool
  | .stopKeyer => true
  | .initKeyer _ _ => true
  | .control => true
  | _ => false

/-- The same while nobody calls `initKeyer` or `stopKeyer`. -/
def runningKeyer : Machine KeyerSystem KeyerSystemAct :=
  keyerThreads.restrict fun a => !a.byControl

/-- The steps of `initKeyer` on a keyer that is not started. -/
def initKeyerActs (wpm : Int) (mode : Mode) : List KeyerSystemAct :=
  .initKeyer wpm mode :: List.replicate 5 .control

theorem run_initKeyer (lastPressed lastQueued : KeyerItem) (wpm : Int) (mode : Mode) :
    keyerThreads.run (.init lastPressed lastQueued) (initKeyerActs wpm mode)
      = some (.launched lastPressed lastQueued wpm mode) := rfl

/-! ## What a keyer thread can do -/

/-- The outcomes of a step of thread `i` at each place in `keyerCall`. -/
inductive CallOutcome (s : KeyerSystem) (i : Nat) : CallPc → KeyerSystem → Prop
  | enter (hstarted : s.started = true) :
      CallOutcome s i .test { s with
        threads := s.threads.set i .lock, tested := s.tested ++ [i] }
  | leave (hstarted : s.started = false) :
      CallOutcome s i .test { s with
        threads := s.threads.set i .left, tested := s.tested ++ [i] }
  | lock {pc : CallPc} (hpc : pc = .lock ∨ pc = .woken) (hmutex : s.mutex = none) :
      CallOutcome s i pc { s with mutex := some i, threads := s.threads.set i .evaluate }
  | found (hqueue : s.keyer.queue ≠ []) :
      CallOutcome s i .evaluate { s with threads := s.threads.set i .pop }
  | again (hqueue : s.keyer.queue = []) (hstarted : s.started = false) :
      CallOutcome s i .evaluate { s with mutex := none, threads := s.threads.set i .test }
  | block (hqueue : s.keyer.queue = []) (hstarted : s.started = true) :
      CallOutcome s i .evaluate { s with threads := s.threads.set i .blocking }
  | wait : CallOutcome s i .blocking { s with mutex := none, threads := s.threads.set i .waiting }
  | pop {item : KeyerItem} {rest : List KeyerItem} (hqueue : s.keyer.queue = item :: rest) :
      CallOutcome s i .pop { s with
        keyer := { s.keyer with queue := rest }
        threads := s.threads.set i (.playing item s.keyer.squeeze)
        played := s.played ++ [(i, item)] }
  | pushed {item : KeyerItem} {squeeze : Bool} (hqueue : s.keyer.queue = []) :
      CallOutcome s i (.playing item squeeze) { s with
        keyer := s.keyer.processMode squeeze, threads := s.threads.set i .notify }
  | processed {item : KeyerItem} {squeeze : Bool} :
      CallOutcome s i (.playing item squeeze) { s with
        keyer := s.keyer.processMode squeeze, mutex := none, threads := s.threads.set i .test }
  | notified {who : Option Nat} {threads : List CallPc}
      (hwake : coditionVar.wakeOne s.threads who = some threads) :
      CallOutcome s i .notify { s with mutex := none, threads := threads.set i .test }

theorem callOutcome {s s' : KeyerSystem} {i : Nat} {who : Option Nat} {pc : CallPc}
    (h : s.callStep i who pc = some s') : CallOutcome s i pc s' := by
  cases pc with
  | test =>
      obtain rfl := Option.some.inj h
      cases hstarted : s.started with
      | true => simpa [hstarted] using CallOutcome.enter (i := i) hstarted
      | false => simpa [hstarted] using CallOutcome.leave (i := i) hstarted
  | lock =>
      simp only [KeyerSystem.callStep] at h
      split at h
      · exact Option.some.inj h ▸ .lock (Or.inl rfl) ‹_›
      · cases h
  | evaluate =>
      simp only [KeyerSystem.callStep] at h
      split at h
      · exact Option.some.inj h ▸ .found ‹_›
      · rename_i hqueue
        split at h
        · rename_i hstarted
          exact Option.some.inj h ▸ .again (not_not.mp hqueue) (by simpa using hstarted)
        · rename_i hstarted
          exact Option.some.inj h ▸ .block (not_not.mp hqueue) (by simpa using hstarted)
  | blocking => exact Option.some.inj h ▸ .wait
  | waiting => cases h
  | woken =>
      simp only [KeyerSystem.callStep] at h
      split at h
      · exact Option.some.inj h ▸ .lock (Or.inr rfl) ‹_›
      · cases h
  | pop =>
      simp only [KeyerSystem.callStep] at h
      split at h
      · cases h
      · exact Option.some.inj h ▸ .pop ‹_›
  | playing item squeeze =>
      simp only [KeyerSystem.callStep] at h
      split at h
      · rename_i hpush
        simp only [Bool.and_eq_true, List.isEmpty_iff] at hpush
        exact Option.some.inj h ▸ .pushed hpush.2
      · exact Option.some.inj h ▸ .processed
  | notify =>
      obtain ⟨threads, hwake, hs⟩ := Option.bind_eq_some_iff.mp h
      exact Option.some.inj hs ▸ .notified hwake
  | left => cases h

theorem keyerThreads_thread {s s' : KeyerSystem} {i : Nat} {who : Option Nat}
    (h : keyerThreads.step s (.thread i who) = some s') :
    ∃ pc, s.threads[i]? = some pc ∧ CallOutcome s i pc s' := by
  obtain ⟨pc, hpc, hcall⟩ := Option.bind_eq_some_iff.mp h
  exact ⟨pc, hpc, callOutcome hcall⟩

theorem keyerThreads_onDit {s s' : KeyerSystem} {pressed : Bool}
    (h : keyerThreads.step s (.onDit pressed) = some s') :
    s'.keyer = s.keyer.onDit pressed ∧ s'.threads = s.threads ∧ s'.started = s.started
      ∧ s'.played = s.played := by
  obtain rfl := Option.some.inj h
  cases pressed with
  | true => exact ⟨rfl, rfl, rfl, rfl⟩
  | false => exact ⟨rfl, rfl, rfl, rfl⟩

theorem keyerThreads_onDah {s s' : KeyerSystem} {pressed : Bool}
    (h : keyerThreads.step s (.onDah pressed) = some s') :
    s'.keyer = s.keyer.onDah pressed ∧ s'.threads = s.threads ∧ s'.started = s.started
      ∧ s'.played = s.played := by
  obtain rfl := Option.some.inj h
  cases pressed with
  | true => exact ⟨rfl, rfl, rfl, rfl⟩
  | false => exact ⟨rfl, rfl, rfl, rfl⟩

theorem keyerThreads_notify {s s' : KeyerSystem} {who : Option Nat}
    (h : keyerThreads.step s (.notify who) = some s') :
    ∃ threads, 0 < s.notifying ∧ coditionVar.wakeOne s.threads who = some threads
      ∧ s' = { s with threads := threads, notifying := s.notifying - 1 } := by
  simp only [keyerThreads, KeyerSystem.step] at h
  split at h
  · cases h
  · rename_i hpending
    obtain ⟨threads, hwake, hs⟩ := Option.bind_eq_some_iff.mp h
    exact ⟨threads, Nat.pos_of_ne_zero hpending, hwake, (Option.some.inj hs).symm⟩

theorem keyerThreads_spuriousWakeup {s s' : KeyerSystem} {i : Nat}
    (h : keyerThreads.step s (.spuriousWakeup i) = some s') :
    s.threads[i]? = some .waiting ∧ s' = { s with threads := s.threads.set i .woken } := by
  simp only [keyerThreads, KeyerSystem.step] at h
  split at h
  · exact ⟨‹_›, (Option.some.inj h).symm⟩
  · cases h

theorem keyerThreads_stopKeyer {s s' : KeyerSystem}
    (h : keyerThreads.step s .stopKeyer = some s') :
    s.control = .idle ∧ s' = { s with control := .clear none } := by
  simp only [keyerThreads, KeyerSystem.step] at h
  split at h
  · exact ⟨‹_›, (Option.some.inj h).symm⟩
  · cases h

theorem keyerThreads_initKeyer {s s' : KeyerSystem} {wpm : Int} {mode : Mode}
    (h : keyerThreads.step s (.initKeyer wpm mode) = some s') :
    s.control = .idle ∧ s' = { s with control := .clear (some (wpm, mode)) } := by
  simp only [keyerThreads, KeyerSystem.step] at h
  split at h
  · exact ⟨‹_›, (Option.some.inj h).symm⟩
  · cases h

end CwKeyer
