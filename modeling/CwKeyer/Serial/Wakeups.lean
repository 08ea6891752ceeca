import CwKeyer.Waiting
import CwKeyer.Serial.SerialComm

/-!
# The wait of the Windows worker

In `windowsSerial` a waiting worker may wake at any time. Here its wait is
taken step by step (`serialWaits`; `serialWaits_refines` says that it only does
what `windowsSerial` does). `runCW` pushes under `m_queueMutex`, but `stop`
clears `m_running` without it. So the `notify_all` of `stop` can come between
the predicate that was found false and the wait, and be lost: then `stop` joins
a worker that sleeps for good, and otherwise it returns (`serial_stop_returns`).
-/

namespace CwKeyer

/-- How many steps are left, at most, to a worker that finds `m_running`
clear. -/
def WorkerPc.stepsLeft : WorkerPc → Nat
  | .exited => 0
  | .head => 1
  | .elapsed _ => 2
  | .holding _ => 3
  | .toSet _ => 4
  | .waiting => 5

namespace WindowsSerial

/-- The predicate of the wait. Outside of it there is nothing to wait for. -/
def predicate (s : WindowsSerial) : Bool :=
  match s.worker with
  | some .waiting => !s.comm.running || !s.queue.isEmpty
  | _ => true

theorem predicate_outside {s : WindowsSerial} (h : s.worker ≠ some .waiting) :
    s.predicate = true := by
  unfold predicate
  split
  case h_1 hworker => exact absurd hworker h
  case h_2 => rfl

theorem predicate_of_stopped {s : WindowsSerial} (h : s.comm.running = false) :
    s.predicate = true := by
  unfold predicate
  rw [h]
  split <;> rfl

end WindowsSerial

/-- `wait` is where the worker is in its wait, if it is in it. `notifying`:
`stop` has cleared `m_running` and not notified yet. -/
structure SerialWaits where
  serial : WindowsSerial := {}
  wait : WaitPc := .evaluate
  notifying : Bool := false
deriving Repr, DecidableEq

inductive SerialWaitAct where
  | serial (a : SerialAct)
  | spuriousWakeup
deriving Repr, DecidableEq

/-- A step of the worker. -/
def SerialWaitAct.isWork : SerialWaitAct → Bool
  | .serial (.work _) => true
  | _ => false

namespace SerialWaits

/-- The worker holds `m_queueMutex` in its wait. -/
def locked (s : SerialWaits) : Bool := s.serial.worker = some .waiting && s.wait.holdsMutex

/-- The worker sleeps until it is notified. -/
def asleep (s : SerialWaits) : Bool := s.serial.worker = some .waiting && s.wait.asleep

/-- The next step of call `i` is the push. -/
def pushing (s : SerialWaits) (i : Nat) : Bool :=
  s.serial.calls[i]?.any fun call => call.pc = .hand

/-- The push needs the mutex, and notifies. -/
def callStep (s : SerialWaits) (i : Nat) : Option SerialWaits :=
  if s.pushing i && s.locked then none
  else (windowsSerial.step s.serial (.call i)).map fun r =>
    { s with serial := r, wait := if s.pushing i then s.wait.notified else s.wait }

def workStep (s : SerialWaits) (i : Nat) : Option SerialWaits :=
  match s.wait.next s.serial.predicate with
  | none => none
  | some (some wait) => some { s with wait := wait }
  | some none => (windowsSerial.step s.serial (.work i)).map fun r =>
      { s with serial := r, wait := .evaluate }

/-- Before it joins, `stop` notifies. A new worker is not in its wait. -/
def mainStep (s : SerialWaits) (ok : Bool) : Option SerialWaits :=
  if s.notifying then some { s with notifying := false, wait := s.wait.notified }
  else (windowsSerial.step s.serial (.main ok)).map fun r =>
    { s with serial := r, wait := if s.serial.main = .configure then .evaluate else s.wait }

/-- A `stop` that has cleared `m_running` is about to notify. -/
def otherStep (s : SerialWaits) (a : SerialAct) : Option SerialWaits :=
  (windowsSerial.step s.serial a).map fun r =>
    { s with serial := r, notifying := s.notifying || (a = .stop && r.main = .join) }

def step (s : SerialWaits) : SerialWaitAct → Option SerialWaits
  | .serial (.call i) => s.callStep i
  | .serial (.work i) => s.workStep i
  | .serial (.main ok) => s.mainStep ok
  | .serial a => s.otherStep a
  | .spuriousWakeup => some { s with wait := s.wait.notified }

end SerialWaits

def serialWaits : Machine SerialWaits SerialWaitAct := ⟨SerialWaits.step⟩

namespace WindowsSerial

variable {s r : WindowsSerial} {i : Nat} {ok : Bool}

theorem callStep_frame (h : s.callStep i = some r) :
    r.main = s.main ∧ r.comm = s.comm ∧ r.worker = s.worker := by
  obtain ⟨call, -, ⟨-, rfl⟩ | ⟨-, -, rfl⟩⟩ := callStep_cases h
  · exact ⟨rfl, rfl, rfl⟩
  · exact ⟨rfl, rfl, rfl⟩

/-- A step of the worker is one of those that are left, if `m_running` is
clear. -/
theorem workerStep_frame (h : s.workerStep = some r) : ∃ pc pc', s.worker = some pc
    ∧ r.worker = some pc' ∧ r.main = s.main ∧ r.comm.running = s.comm.running ∧ r.calls = s.calls
    ∧ (s.comm.running = false → pc'.stepsLeft < pc.stepsLeft) := by
  unfold workerStep at h
  cases hworker : s.worker with
  | none => rw [hworker] at h; cases h
  | some pc =>
      rw [hworker] at h
      cases pc with
      | exited => cases h
      | head =>
          obtain rfl := Option.some.inj h
          refine ⟨_, _, rfl, rfl, rfl, rfl, rfl, fun hrunning => ?_⟩
          rw [hrunning]
          decide
      | waiting =>
          cases hqueue : s.queue with
          | nil =>
              rw [hqueue] at h
              obtain rfl := Option.some.inj h
              refine ⟨_, _, rfl, rfl, rfl, rfl, rfl, fun hrunning => ?_⟩
              rw [hrunning]
              decide
          | cons request rest =>
              rw [hqueue] at h
              obtain rfl := Option.some.inj h
              refine ⟨_, _, rfl, rfl, rfl, rfl, rfl, fun _ => ?_⟩
              split
              · exact Nat.le_of_ble_eq_true rfl
              · exact Nat.le_refl _
      | toSet request | holding request | elapsed request =>
          obtain rfl := Option.some.inj h
          exact ⟨_, _, rfl, rfl, rfl, rfl, rfl, fun _ => Nat.le_refl _⟩

/-- No step of a `stop` begins to wait, and the wait ends with the worker. -/
theorem mainStep_frame (h : s.mainStep ok = some r) : r.main ≠ .join
    ∧ (s.main = .join → s.worker = none ∨ s.worker = some .exited)
    ∧ (s.main = .configure ∨ s.worker = some .exited ∨ r.worker = s.worker) := by
  unfold mainStep at h
  cases hmain : s.main with
  | idle | halt => rw [hmain] at h; cases h
  | configure =>
      rw [hmain] at h
      cases ok with
      | true | false =>
          obtain rfl := Option.some.inj h
          exact ⟨nofun, nofun, .inl rfl⟩
  | join =>
      rw [hmain] at h
      cases hworker : s.worker with
      | none =>
          rw [hworker] at h
          obtain rfl := Option.some.inj h
          exact ⟨nofun, fun _ => .inl rfl, .inr (.inr rfl)⟩
      | some pc =>
          rw [hworker] at h
          cases pc with
          | exited =>
              obtain rfl := Option.some.inj h
              exact ⟨nofun, fun _ => .inr rfl, .inr (.inl rfl)⟩
          | head | waiting | toSet | holding | elapsed => cases h
  | clear =>
      rw [hmain] at h
      dsimp only at h
      split_ifs at h <;> obtain rfl := Option.some.inj h
      · exact ⟨nofun, nofun, .inr (.inr rfl)⟩
      · exact ⟨nofun, nofun, .inr (.inr rfl)⟩
  | close | invalidate =>
      rw [hmain] at h
      obtain rfl := Option.some.inj h
      exact ⟨nofun, nofun, .inr (.inr rfl)⟩

end WindowsSerial

namespace SerialWaits

variable {s s' t : SerialWaits} {a : SerialWaitAct} {i : Nat} {ok : Bool}

/-! ## Steps -/

theorem callStep_cases (h : s.callStep i = some s') :
    (s.pushing i = true → s.locked = false) ∧
      ∃ r, s.serial.callStep i = some r ∧ s' =
        { s with serial := r, wait := if s.pushing i then s.wait.notified else s.wait } := by
  obtain ⟨hlocked, h⟩ := Option.ite_none_left_eq_some.mp h
  obtain ⟨r, hr, rfl⟩ := Option.map_eq_some_iff.mp h
  refine ⟨fun hpushes => ?_, r, hr, rfl⟩
  simpa [hpushes] using hlocked

theorem workStep_cases (h : s.workStep i = some s') :
    (∃ wait, s.wait.next s.serial.predicate = some (some wait) ∧ s' = { s with wait := wait })
      ∨ s.wait.next s.serial.predicate = some none
        ∧ ∃ r, s.serial.workerStep = some r ∧ s' = { s with serial := r, wait := .evaluate } := by
  unfold workStep at h
  cases hnext : s.wait.next s.serial.predicate with
  | none => rw [hnext] at h; cases h
  | some next =>
      rw [hnext] at h
      cases next with
      | some wait => exact .inl ⟨wait, rfl, (Option.some.inj h).symm⟩
      | none =>
          obtain ⟨r, hr, rfl⟩ := Option.map_eq_some_iff.mp h
          exact .inr ⟨rfl, r, hr, rfl⟩

theorem mainStep_cases (h : s.mainStep ok = some s') :
    s.notifying = true ∧ s' = { s with notifying := false, wait := s.wait.notified }
      ∨ s.notifying = false
        ∧ ∃ r, s.serial.mainStep ok = some r ∧ s' =
          { s with
            serial := r, wait := if s.serial.main = .configure then .evaluate else s.wait } := by
  unfold mainStep at h
  by_cases hnotifying : s.notifying = true
  · rw [if_pos hnotifying] at h
    exact .inl ⟨hnotifying, (Option.some.inj h).symm⟩
  · rw [if_neg hnotifying] at h
    obtain ⟨r, hr, rfl⟩ := Option.map_eq_some_iff.mp h
    exact .inr ⟨by simpa using hnotifying, r, hr, rfl⟩

/-- The steps that have nothing to do with the wait. -/
def isOther : SerialAct → Bool
  | .call _ => false
  | .work _ => false
  | .main _ => false
  | _ => true

theorem step_other {a : SerialAct} (h : isOther a = true) :
    serialWaits.step s (.serial a) = s.otherStep a := by
  cases a with
  | call | work | main => cases h
  | _ => rfl

/-- What one step can do. -/
inductive Step (s : SerialWaits) : SerialWaitAct → SerialWaits → Prop
  | call {i : Nat} {r : WindowsSerial} (hlocked : s.pushing i = true → s.locked = false)
      (hr : s.serial.callStep i = some r) :
      Step s (.serial (.call i))
        { s with serial := r, wait := if s.pushing i then s.wait.notified else s.wait }
  | goesOn {i : Nat} {wait : WaitPc}
      (hnext : s.wait.next s.serial.predicate = some (some wait)) :
      Step s (.serial (.work i)) { s with wait := wait }
  | work {i : Nat} {r : WindowsSerial} (hnext : s.wait.next s.serial.predicate = some none)
      (hr : s.serial.workerStep = some r) :
      Step s (.serial (.work i)) { s with serial := r, wait := .evaluate }
  | notify {ok : Bool} (hnotifying : s.notifying = true) :
      Step s (.serial (.main ok)) { s with notifying := false, wait := s.wait.notified }
  | main {ok : Bool} {r : WindowsSerial} (hnotifying : s.notifying = false)
      (hr : s.serial.mainStep ok = some r) :
      Step s (.serial (.main ok))
        { s with serial := r, wait := if s.serial.main = .configure then .evaluate else s.wait }
  | other {a : SerialAct} {r : WindowsSerial} (hother : isOther a = true)
      (hr : windowsSerial.step s.serial a = some r) :
      Step s (.serial a)
        { s with serial := r, notifying := s.notifying || (a = .stop && r.main = .join) }
  | spuriousWakeup : Step s .spuriousWakeup { s with wait := s.wait.notified }

theorem Step.of_step (h : serialWaits.step s a = some s') : Step s a s' := by
  have hothers {a : SerialAct} (hother : isOther a = true)
      (h : serialWaits.step s (.serial a) = some s') : Step s (.serial a) s' := by
    rw [step_other hother] at h
    obtain ⟨r, hr, rfl⟩ := Option.map_eq_some_iff.mp h
    exact .other hother hr
  cases a with
  | spuriousWakeup =>
      obtain rfl := Option.some.inj h
      exact .spuriousWakeup
  | serial a =>
      cases a with
      | call i =>
          obtain ⟨hlocked, r, hr, rfl⟩ := callStep_cases h
          exact .call hlocked hr
      | work i =>
          rcases workStep_cases h with ⟨wait, hnext, rfl⟩ | ⟨hnext, r, hr, rfl⟩
          · exact .goesOn hnext
          · exact .work hnext hr
      | main ok =>
          rcases mainStep_cases h with ⟨hnotifying, rfl⟩ | ⟨hnotifying, r, hr, rfl⟩
          · exact .notify hnotifying
          · exact .main hnotifying hr
      | _ => exact hothers rfl h

/-- Every step is a step of `windowsSerial`, or none. -/
theorem serialWaits_refines :
    Machine.Refines serialWaits windowsSerial (fun _ => True) SerialWaits.serial := by
  intro s a s' _ hstep
  refine ⟨trivial, ?_⟩
  have hone {a : SerialAct} {r : WindowsSerial} (h : windowsSerial.step s.serial a = some r) :
      windowsSerial.Reachable s.serial r := ⟨[a], by rwa [Machine.run_singleton]⟩
  cases Step.of_step hstep with
  | @call i r _ hr => exact hone (a := .call i) hr
  | goesOn | notify | spuriousWakeup => exact .refl _
  | @work i r _ hr => exact hone (a := .work i) hr
  | @main ok r _ hr => exact hone (a := .main ok) hr
  | other _ hr => exact hone hr

/-! ## The wait in a `stop` -/

/-- `notifying` is part of a `stop` that waits, which has cleared `m_running`,
and outside of its wait the worker has nothing to wait for. -/
structure Waits (s : SerialWaits) : Prop where
  notifying : s.notifying = true → s.serial.main = .join
  joining : s.serial.main = .join → s.serial.comm.running = false
  outside : s.serial.worker ≠ some .waiting → s.wait = .evaluate

theorem waits_init : Waits {} := ⟨nofun, nofun, fun _ => rfl⟩

/-- The other steps leave the worker alone, and begin a `stop` only where none
is under way. -/
theorem other_frame {a : SerialAct} {w r : WindowsSerial} (hother : isOther a = true)
    (h : windowsSerial.step w a = some r) : r.worker = w.worker ∧ r.queue = w.queue
    ∧ (r.main = w.main ∧ r.comm.running = w.comm.running ∧ a ≠ .stop
      ∨ w.main = .idle ∧ (r.main = .join → r.comm.running = false))
    ∧ (w.comm.running = false → r.calls = w.calls) := by
  cases a with
  | call | work | main => cases hother
  | runCW item duration =>
      obtain rfl := Option.some.inj h
      split
      case isTrue hrunning =>
        refine ⟨rfl, rfl, .inl ⟨rfl, rfl, nofun⟩, fun hclear => ?_⟩
        rw [hrunning] at hclear
        cases hclear
      case isFalse => exact ⟨rfl, rfl, .inl ⟨rfl, rfl, nofun⟩, fun _ => rfl⟩
  | startRunCw =>
      obtain rfl := Option.some.inj h
      exact ⟨rfl, rfl, .inl ⟨rfl, SerialComm.startRunCw_port.2.1, nofun⟩, fun _ => rfl⟩
  | stopRunCw =>
      obtain rfl := Option.some.inj h
      exact ⟨rfl, rfl, .inl ⟨rfl, SerialComm.stopRunCw_port.2.1, nofun⟩, fun _ => rfl⟩
  | start fd level =>
      obtain ⟨⟨hidle, -⟩, h⟩ := Option.ite_none_right_eq_some.mp h
      by_cases hrunning : w.comm.running = true
      · rw [if_pos hrunning] at h
        obtain rfl := Option.some.inj h
        exact ⟨rfl, rfl, .inr ⟨hidle, by simp [hidle]⟩, fun _ => rfl⟩
      · rw [if_neg hrunning] at h
        obtain rfl := Option.some.inj h
        refine ⟨rfl, rfl, .inr ⟨hidle, fun hjoin => ?_⟩, fun _ => rfl⟩
        cases fd with
        | none => cases hjoin
        | some n => cases hjoin
  | stop =>
      obtain ⟨hidle, h⟩ := Option.ite_none_right_eq_some.mp h
      split_ifs at h <;> obtain rfl := Option.some.inj h
      · exact ⟨rfl, rfl, .inr ⟨hidle, fun _ => rfl⟩, fun _ => rfl⟩
      · exact ⟨rfl, rfl, .inr ⟨hidle, nofun⟩, fun _ => rfl⟩
  | openOther fd level =>
      obtain ⟨-, h⟩ := Option.ite_none_right_eq_some.mp h
      obtain rfl := Option.some.inj h
      exact ⟨rfl, rfl, .inl ⟨rfl, rfl, nofun⟩, fun _ => rfl⟩
  | closeOther fd =>
      obtain ⟨-, h⟩ := Option.ite_none_right_eq_some.mp h
      obtain rfl := Option.some.inj h
      exact ⟨rfl, rfl, .inl ⟨rfl, rfl, nofun⟩, fun _ => rfl⟩

theorem outside_notified (h : s.wait = .evaluate) : s.wait.notified = .evaluate := by
  rw [h]
  rfl

/-- A worker that goes on in its wait is in it. -/
theorem Waits.worker_of_next (h : Waits s) {wait : WaitPc}
    (hnext : s.wait.next s.serial.predicate = some (some wait)) :
    s.serial.worker = some .waiting := by
  by_contra hne
  rw [h.outside hne, WindowsSerial.predicate_outside hne] at hnext
  cases Option.some.inj hnext

theorem Waits.step (h : Waits s) (hstep : serialWaits.step s a = some s') : Waits s' := by
  cases Step.of_step hstep with
  | @call i r hlocked hr =>
      obtain ⟨hmain, hcomm, hworker⟩ := WindowsSerial.callStep_frame hr
      refine ⟨?_, ?_, fun hne => ?_⟩
      · exact fun hnotifying => hmain.trans (h.notifying hnotifying)
      · exact fun hjoin => (congrArg SerialComm.running hcomm).trans (h.joining (hmain ▸ hjoin))
      · have houtside : s.wait = .evaluate := h.outside (hworker ▸ hne)
        dsimp only
        split
        · exact outside_notified houtside
        · exact houtside
  | goesOn hnext =>
      exact ⟨h.notifying, h.joining, fun hne => absurd (h.worker_of_next hnext) hne⟩
  | work hnext hr =>
      obtain ⟨pc, pc', -, -, hmain, hrunning, -⟩ := WindowsSerial.workerStep_frame hr
      refine ⟨?_, ?_, fun _ => rfl⟩
      · exact fun hnotifying => hmain.trans (h.notifying hnotifying)
      · exact fun hjoin => hrunning.trans (h.joining (hmain ▸ hjoin))
  | notify hnotifying =>
      exact ⟨nofun, h.joining, fun hne => outside_notified (h.outside hne)⟩
  | main hnotifying hr =>
      obtain ⟨hjoin, -, hworker⟩ := WindowsSerial.mainStep_frame hr
      refine ⟨fun hnotified => ?_, fun hjoined => absurd hjoined hjoin, fun hne => ?_⟩
      · rw [hnotifying] at hnotified
        cases hnotified
      · dsimp only
        split
        · rfl
        · rename_i hconfigure
          rcases hworker with hmain | hexited | hsame
          · exact absurd hmain hconfigure
          · exact h.outside (by simp [hexited])
          · exact h.outside (hsame ▸ hne)
  | @other a r hother hr =>
      obtain ⟨hworker, -, hmain, -⟩ := other_frame hother hr
      refine ⟨fun hnotified => ?_, fun hjoined => ?_, fun hne => h.outside (hworker ▸ hne)⟩
      · rcases Bool.or_eq_true _ _ ▸ hnotified with hbefore | hbegun
        · rcases hmain with ⟨hsame, -⟩ | ⟨hidle, -⟩
          · exact hsame.trans (h.notifying hbefore)
          · rw [h.notifying hbefore] at hidle
            cases hidle
        · exact of_decide_eq_true (Bool.and_eq_true_iff.mp hbegun).2
      · rcases hmain with ⟨hsame, hrunning, -⟩ | ⟨-, hcleared⟩
        · exact hrunning.trans (h.joining (hsame ▸ hjoined))
        · exact hcleared hjoined
  | spuriousWakeup =>
      exact ⟨h.notifying, h.joining, fun hne => outside_notified (h.outside hne)⟩

theorem waits_of_reachable (h : serialWaits.Reachable {} s) : Waits s :=
  h.invariant waits_init fun _ _ _ hI hstep => hI.step hstep

/-! ## A worker that has been alerted -/

/-- `stop` has notified and waits for a worker that will go on. -/
structure Alerted (s : SerialWaits) : Prop where
  waits : Waits s
  joins : s.serial.main = .join
  notified : s.notifying = false
  awake : s.asleep = false

def stepsLeft (s : SerialWaits) : Nat :=
  match s.serial.worker with
  | none => 0
  | some .waiting => 4 + s.wait.stepsLeft
  | some pc => pc.stepsLeft

theorem stepsLeft_le : s.stepsLeft ≤ 6 := by
  unfold stepsLeft
  split
  case h_1 => exact Nat.zero_le _
  case h_2 => exact Nat.add_le_add_left WaitPc.stepsLeft_le 4
  case h_3 pc hworker hne => cases pc <;> simp [WorkerPc.stepsLeft]

theorem stepsLeft_congr (hworker : s'.serial.worker = s.serial.worker)
    (hwait : s'.wait.stepsLeft = s.wait.stepsLeft) : s'.stepsLeft = s.stepsLeft := by
  rw [stepsLeft, stepsLeft, hworker, hwait]

theorem stepsLeft_evaluate {pc : WorkerPc} (hworker : s.serial.worker = some pc)
    (hwait : s.wait = .evaluate) : s.stepsLeft = pc.stepsLeft := by
  rw [stepsLeft, hworker, hwait]
  cases pc <;> rfl

theorem asleep_congr (hworker : s'.serial.worker = s.serial.worker)
    (hwait : s'.wait = s.wait ∨ s'.wait = s.wait.notified) (hawake : s.asleep = false) :
    s'.asleep = false := by
  rw [asleep] at hawake
  rw [asleep, hworker]
  rcases Bool.and_eq_false_iff.mp hawake with hworker | hawake
  · rw [hworker, Bool.false_and]
  · rcases hwait with hwait | hwait
    · rw [hwait, hawake, Bool.and_false]
    · rw [hwait, WaitPc.notified_awake hawake, Bool.and_false]

theorem Alerted.step (h : Alerted s) (hstays : s'.serial.main = .join)
    (hstep : serialWaits.step s a = some s') :
    Alerted s' ∧ (if a.isWork then 1 else 0) + s'.stepsLeft ≤ s.stepsLeft := by
  have hwaits := h.waits.step hstep
  have hrunning := h.waits.joining h.joins
  cases Step.of_step hstep with
  | @call i r hlocked hr =>
      obtain ⟨-, -, hworker⟩ := WindowsSerial.callStep_frame hr
      have hwait : (if s.pushing i then s.wait.notified else s.wait) = s.wait
          ∨ (if s.pushing i then s.wait.notified else s.wait) = s.wait.notified := by
        cases s.pushing i with
        | true => exact .inr rfl
        | false => exact .inl rfl
      refine ⟨⟨hwaits, hstays, h.notified, asleep_congr hworker hwait h.awake⟩, ?_⟩
      refine Nat.le_of_eq ((Nat.zero_add _).trans (stepsLeft_congr hworker ?_))
      rcases hwait with hwait | hwait
      · exact congrArg WaitPc.stepsLeft hwait
      · exact (congrArg WaitPc.stepsLeft hwait).trans WaitPc.stepsLeft_notified
  | @goesOn i wait hnext =>
      have hworker := h.waits.worker_of_next hnext
      have hawake : s.wait.asleep = false := by
        have hawake := h.awake
        rwa [asleep, hworker, decide_eq_true rfl, Bool.true_and] at hawake
      rw [WindowsSerial.predicate_of_stopped hrunning] at hnext
      obtain ⟨hnow, hless⟩ := WaitPc.alert_next hawake hnext
      refine ⟨⟨hwaits, hstays, h.notified, by rw [asleep, hnow, Bool.and_false]⟩, ?_⟩
      have hbefore : s.stepsLeft = 4 + s.wait.stepsLeft := by rw [stepsLeft, hworker]
      have hafter : stepsLeft { s with wait := wait } = 4 + wait.stepsLeft := by
        rw [stepsLeft, hworker]
      have hone : (if SerialWaitAct.isWork (.serial (.work i)) then 1 else 0) = 1 := rfl
      omega
  | @work i r hnext hr =>
      obtain ⟨hevaluate, -⟩ := WaitPc.evaluate_of_next hnext
      obtain ⟨pc, pc', hpc, hpc', -, -, -, hless⟩ := WindowsSerial.workerStep_frame hr
      refine ⟨⟨hwaits, hstays, h.notified, Bool.and_false _⟩, ?_⟩
      have hbefore : s.stepsLeft = pc.stepsLeft := stepsLeft_evaluate hpc hevaluate
      have hafter : stepsLeft { s with serial := r, wait := .evaluate } = pc'.stepsLeft :=
        stepsLeft_evaluate hpc' rfl
      have hone : (if SerialWaitAct.isWork (.serial (.work i)) then 1 else 0) = 1 := rfl
      have hfewer := hless hrunning
      omega
  | notify hnotifying =>
      rw [h.notified] at hnotifying
      cases hnotifying
  | main hnotifying hr => exact absurd hstays (WindowsSerial.mainStep_frame hr).1
  | @other a r hother hr =>
      obtain ⟨hworker, -, hmain, -⟩ := other_frame hother hr
      have hnotstop : a ≠ .stop := by
        rcases hmain with ⟨-, -, hne⟩ | ⟨hidle, -⟩
        · exact hne
        · rw [h.joins] at hidle
          cases hidle
      refine ⟨⟨hwaits, hstays, ?_, asleep_congr hworker (.inl rfl) h.awake⟩, ?_⟩
      · rw [h.notified, decide_eq_false hnotstop]
        rfl
      · have hzero : (if SerialWaitAct.isWork (.serial a) then 1 else 0) = 0 := by
          cases a with
          | work => cases hother
          | _ => rfl
        rw [hzero]
        exact Nat.le_of_eq ((Nat.zero_add _).trans (stepsLeft_congr hworker rfl))
  | spuriousWakeup =>
      refine ⟨⟨hwaits, hstays, h.notified, asleep_congr (s := s) rfl (.inr rfl) h.awake⟩, ?_⟩
      exact Nat.le_of_eq ((Nat.zero_add _).trans (stepsLeft_congr rfl WaitPc.stepsLeft_notified))

theorem workerStep_isSome {w : WindowsSerial} {pc : WorkerPc} (hworker : w.worker = some pc)
    (hexited : pc ≠ .exited) : w.workerStep.isSome = true := by
  unfold WindowsSerial.workerStep
  rw [hworker]
  cases pc with
  | exited => exact absurd rfl hexited
  | waiting =>
      dsimp only
      split <;> rfl
  | head | toSet | holding | elapsed => rfl

theorem Alerted.goes_on (h : Alerted s) :
    (∀ ok, (serialWaits.step s (.serial (.main ok))).isSome = true)
      ∨ ∀ i, (serialWaits.step s (.serial (.work i))).isSome = true := by
  by_cases hended : s.serial.worker = none ∨ s.serial.worker = some .exited
  · refine .inl fun ok => ?_
    show (s.mainStep ok).isSome = true
    rw [mainStep, h.notified, if_neg Bool.false_ne_true, Option.isSome_map]
    show (s.serial.mainStep ok).isSome = true
    rcases hended with hworker | hworker <;>
      simp [WindowsSerial.mainStep, h.joins, hworker]
  · obtain ⟨hnone, hexited⟩ := not_or.mp hended
    obtain ⟨pc, hworker⟩ := Option.ne_none_iff_exists'.mp hnone
    have hwaiting : s.wait ≠ .waiting := by
      intro hwaiting
      have hawake := h.awake
      have hsleeps : s.serial.worker = some .waiting := by
        by_contra hne
        rw [h.waits.outside hne] at hwaiting
        cases hwaiting
      rw [asleep, hsleeps, hwaiting] at hawake
      cases hawake
    refine .inr fun i => ?_
    show (s.workStep i).isSome = true
    have hnext : (s.wait.next s.serial.predicate).isSome = true := WaitPc.next_isSome hwaiting
    obtain ⟨next, hnext⟩ := Option.isSome_iff_exists.mp hnext
    unfold workStep
    rw [hnext]
    cases next with
    | some wait => rfl
    | none =>
        dsimp only
        rw [Option.isSome_map]
        exact workerStep_isSome hworker fun heq => hexited (heq ▸ hworker)

/-! ## A worker that has not -/

/-- `stop` waits for a worker that nobody will notify. -/
structure Hangs (s : SerialWaits) : Prop where
  joins : s.serial.main = .join
  cleared : s.serial.comm.running = false
  notified : s.notifying = false
  worker : s.serial.worker = some .waiting
  asleep : s.wait.asleep = true
  calls : ∀ call ∈ s.serial.calls, call.pc = .returned

theorem Hangs.step (h : Hangs s) (ha : a ≠ .spuriousWakeup)
    (hstep : serialWaits.step s a = some s') : Hangs s' := by
  cases Step.of_step hstep with
  | call hlocked hr =>
      obtain ⟨call, hi, hcase⟩ := WindowsSerial.callStep_cases hr
      have hreturned := h.calls call (List.mem_of_getElem? hi)
      rcases hcase with ⟨hpc, -⟩ | ⟨hpc, -⟩ <;>
      · rw [hreturned] at hpc
        cases hpc
  | goesOn hnext =>
      exact ⟨h.joins, h.cleared, h.notified, h.worker, WaitPc.asleep_next h.asleep hnext, h.calls⟩
  | work hnext hr =>
      have hasleep := h.asleep
      rw [(WaitPc.evaluate_of_next hnext).1] at hasleep
      cases hasleep
  | notify hnotifying =>
      rw [h.notified] at hnotifying
      cases hnotifying
  | main hnotifying hr =>
      rcases (WindowsSerial.mainStep_frame hr).2.1 h.joins with hworker | hworker <;>
      · rw [h.worker] at hworker
        cases hworker
  | other hother hr =>
      obtain ⟨hworker, -, hmain, hcalls⟩ := other_frame hother hr
      rcases hmain with ⟨hmain, hrunning, hnotstop⟩ | ⟨hidle, -⟩
      · refine ⟨hmain.trans h.joins, hrunning.trans h.cleared, ?_, hworker.trans h.worker, h.asleep,
          ?_⟩
        · rw [h.notified, decide_eq_false hnotstop]
          rfl
        · rw [hcalls h.cleared]
          exact h.calls
      · rw [h.joins] at hidle
        cases hidle
  | spuriousWakeup => exact absurd rfl ha

/-- The worker has found its predicate false, and is not in the wait set yet. -/
def Misses (s : SerialWaits) : Prop := s.serial.worker = some .waiting ∧ s.wait = .blocking

end SerialWaits

open SerialWaits

/-- **When `stop` returns.** If the worker is not just about to enter the wait
set when `stop` notifies, then while `stop` waits for the worker one of the two
can go on, and the worker takes six steps at most. If it is, and no `runCW` is
on its way, `stop` never returns, unless the worker wakes without a reason. -/
theorem serial_stop_returns {s s' : SerialWaits} {ok : Bool} (h : serialWaits.Reachable {} s)
    (hnotifying : s.notifying = true)
    (hstep : serialWaits.step s (.serial (.main ok)) = some s') :
    (¬ s.Misses → ∀ as t, serialWaits.run s' as = some t →
        serialWaits.Along (fun _ _ u => u.serial.main = .join) s' as →
        as.countP SerialWaitAct.isWork ≤ 6
          ∧ ((∀ ok, (serialWaits.step t (.serial (.main ok))).isSome = true)
            ∨ ∀ i, (serialWaits.step t (.serial (.work i))).isSome = true))
      ∧ (s.Misses → (∀ call ∈ s.serial.calls, call.pc = .returned) →
        ∀ as t, (∀ a ∈ as, a ≠ .spuriousWakeup) → serialWaits.run s' as = some t →
          t.serial.main = .join) := by
  have hwaits := waits_of_reachable h
  have hjoins := hwaits.notifying hnotifying
  have hwaits' := hwaits.step hstep
  have hs' : s' = { s with notifying := false, wait := s.wait.notified } := by
    cases Step.of_step hstep with
    | notify => rfl
    | main hnot =>
        rw [hnotifying] at hnot
        cases hnot
    | other hother => cases hother
  subst hs'
  refine ⟨fun hheard as t hrun hstays => ?_, fun hmisses hcalls as t hspurious hrun => ?_⟩
  · have hawake : asleep { s with notifying := false, wait := s.wait.notified } = false := by
      rw [asleep]
      cases hworker : decide (s.serial.worker = some .waiting) with
      | false => rfl
      | true =>
          exact WaitPc.alert_notified fun hblocking =>
            hheard ⟨of_decide_eq_true hworker, hblocking⟩
    obtain ⟨halerted, hcount⟩ := Machine.run_countP (c := SerialWaitAct.isWork)
      (fun _ _ _ hI hstay hstep => hI.step hstay hstep)
      (⟨hwaits', hjoins, rfl, hawake⟩ : Alerted _) hstays hrun
    exact ⟨Nat.le_trans (Nat.le_of_add_right_le hcount) stepsLeft_le, halerted.goes_on⟩
  · obtain ⟨hworker, hblocking⟩ := hmisses
    have hasleep : s.wait.notified.asleep = true := by rw [hblocking]; rfl
    have hhangs : Hangs { s with notifying := false, wait := s.wait.notified } :=
      ⟨hjoins, hwaits.joining hjoins, rfl, hworker, hasleep, hcalls⟩
    exact (Machine.run_invariant (fun _ _ _ hI ha hstep => hI.step ha hstep) hhangs
      (Machine.Along.of_forall hspurious) hrun).joins

/-- The worker has found the queue empty when `stop` clears `m_running`. -/
theorem serial_stop_hangs : ∃ s s',
    serialWaits.run {} [.serial (.start (some 3) false), .serial (.main true), .serial (.work 0),
        .serial (.work 0), .serial .stop] = some s
      ∧ serialWaits.step s (.serial (.main true)) = some s'
      ∧ ∀ as t, (∀ a ∈ as, a ≠ .spuriousWakeup) → serialWaits.run s' as = some t →
        t.serial.main = .join := by
  obtain ⟨s, s', hrun, hnotifying, hstep, hmisses, hcalls⟩ : ∃ s s',
      serialWaits.run {} [.serial (.start (some 3) false), .serial (.main true), .serial (.work 0),
          .serial (.work 0), .serial .stop] = some s
        ∧ s.notifying = true ∧ serialWaits.step s (.serial (.main true)) = some s'
        ∧ s.Misses ∧ s.serial.calls = [] := ⟨_, _, rfl, rfl, rfl, ⟨rfl, rfl⟩, rfl⟩
  refine ⟨s, s', hrun, hstep, (serial_stop_returns ⟨_, hrun⟩ hnotifying hstep).2 hmisses ?_⟩
  rw [hcalls]
  nofun

end CwKeyer
