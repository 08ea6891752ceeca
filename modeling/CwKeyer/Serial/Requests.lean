import CwKeyer.Projection
import CwKeyer.Serial.DtrLine

/-!
# The worker of the Windows port

The worker plays what `runCW` has pushed: every element once, in order, with
one pulse of DTR. It never takes one without a port, since `stop` joins it
before it closes the port; what it leaves in the queue is played after the
next `start`.
-/

namespace CwKeyer

namespace WindowsSerial

variable {s s' : WindowsSerial}

/-! ## Sessions -/

/-- A worker lives in a session, or while `stop` waits for it, and in a
session there is an open port. -/
structure Session (s : WindowsSerial) : Prop where
  worker : s.worker.isSome = true → s.main = .join ∨ s.main = .idle ∧ s.comm.running = true
  port : s.worker.isSome = true → s.comm.IsOpen
  opening : s.main = .configure → s.comm.IsOpen
  closed : s.main = .idle → s.comm.running = false → s.comm.hSerial = none

theorem session_init : Session {} := ⟨nofun, nofun, nofun, fun _ _ => rfl⟩

theorem Session.no_worker (h : s.Session) (hjoin : s.main ≠ .join)
    (hidle : s.main = .idle → s.comm.running = false) : s.worker = none := by
  by_contra hne
  rcases h.worker (Option.isSome_iff_ne_none.mpr hne) with hmain | ⟨hmain, hrunning⟩
  · exact hjoin hmain
  · rw [hidle hmain] at hrunning
    cases hrunning

/-- Steps that leave the port, the worker's life and `start` and `stop`
alone. -/
theorem Session.of_same (h : s.Session) (hserial : s'.comm.hSerial = s.comm.hSerial)
    (hrunning : s'.comm.running = s.comm.running) (hmain : s'.main = s.main)
    (hworker : s'.worker.isSome = s.worker.isSome)
    (hopen : ∀ fd, s.comm.hSerial = some fd → fd ∈ s.comm.ports.numbers →
      fd ∈ s'.comm.ports.numbers) : s'.Session := by
  have hport : s.comm.IsOpen → s'.comm.IsOpen := fun ⟨fd, hfd, hmem⟩ =>
    ⟨fd, hserial.trans hfd, hopen fd hfd hmem⟩
  refine ⟨?_, ?_, ?_, ?_⟩
  · rw [hworker, hmain, hrunning]
    exact h.worker
  · rw [hworker]
    exact fun hsome => hport (h.port hsome)
  · rw [hmain]
    exact fun hconfigure => hport (h.opening hconfigure)
  · rw [hmain, hrunning, hserial]
    exact h.closed

theorem Session.of_no_worker (hworker : s.worker = none)
    (hopening : s.main = .configure → s.comm.IsOpen)
    (hclosed : s.main = .idle → s.comm.running = false → s.comm.hSerial = none) : s.Session := by
  refine ⟨?_, ?_, hopening, hclosed⟩ <;>
  · rw [hworker]
    nofun

theorem Session.main_step {ok : Bool} (h : s.Session) (hstep : s.mainStep ok = some s') :
    s'.Session := by
  unfold mainStep at hstep
  cases hmain : s.main with
  | idle | halt => rw [hmain] at hstep; cases hstep
  | configure =>
      rw [hmain] at hstep
      have hnone := h.no_worker (by simp [hmain]) (by simp [hmain])
      cases ok with
      | true =>
          obtain rfl := Option.some.inj hstep
          exact ⟨fun _ => .inr ⟨rfl, rfl⟩, fun _ => (h.opening hmain).setDtr, nofun, nofun⟩
      | false =>
          obtain rfl := Option.some.inj hstep
          exact .of_no_worker hnone nofun fun _ _ => rfl
  | join =>
      rw [hmain] at hstep
      cases hworker : s.worker with
      | none =>
          rw [hworker] at hstep
          obtain rfl := Option.some.inj hstep
          exact .of_no_worker rfl nofun nofun
      | some pc =>
          rw [hworker] at hstep
          cases pc with
          | exited =>
              obtain rfl := Option.some.inj hstep
              exact .of_no_worker rfl nofun nofun
          | head | waiting | toSet | holding | elapsed => cases hstep
  | clear =>
      rw [hmain] at hstep
      have hnone := h.no_worker (by simp [hmain]) (by simp [hmain])
      dsimp only at hstep
      split_ifs at hstep with hserial
      · obtain rfl := Option.some.inj hstep
        exact .of_no_worker hnone nofun nofun
      · obtain rfl := Option.some.inj hstep
        exact .of_no_worker hnone nofun fun _ _ => by simpa using hserial
  | close =>
      rw [hmain] at hstep
      obtain rfl := Option.some.inj hstep
      exact .of_no_worker (h.no_worker (by simp [hmain]) (by simp [hmain])) nofun nofun
  | invalidate =>
      rw [hmain] at hstep
      obtain rfl := Option.some.inj hstep
      exact .of_no_worker (h.no_worker (by simp [hmain]) (by simp [hmain])) nofun fun _ _ => rfl

theorem Session.worker_step (h : s.Session) (hstep : s.workerStep = some s') : s'.Session := by
  unfold workerStep at hstep
  cases hworker : s.worker with
  | none => rw [hworker] at hstep; cases hstep
  | some pc =>
      rw [hworker] at hstep
      cases pc with
      | exited => cases hstep
      | head | toSet | holding | elapsed =>
          obtain rfl := Option.some.inj hstep
          exact h.of_same rfl rfl rfl (by rw [hworker]; rfl) fun _ _ hopen => by simpa using hopen
      | waiting =>
          cases hqueue : s.queue with
          | nil =>
              rw [hqueue] at hstep
              obtain rfl := Option.some.inj hstep
              exact h.of_same rfl rfl rfl (by rw [hworker]; rfl) fun _ _ hopen => hopen
          | cons request rest =>
              rw [hqueue] at hstep
              obtain rfl := Option.some.inj hstep
              exact h.of_same rfl rfl rfl (by rw [hworker]; rfl) fun _ _ hopen => hopen

theorem Session.step {a : SerialAct} (h : s.Session) (hstep : windowsSerial.step s a = some s') :
    s'.Session := by
  cases a with
  | work i => exact h.worker_step hstep
  | main ok => exact h.main_step hstep
  | call i =>
      obtain ⟨call, -, ⟨-, rfl⟩ | ⟨-, -, rfl⟩⟩ := callStep_cases hstep <;>
        exact h.of_same rfl rfl rfl rfl fun _ _ hopen => hopen
  | runCW item duration =>
      obtain rfl := Option.some.inj hstep
      split <;> exact h.of_same rfl rfl rfl rfl fun _ _ hopen => hopen
  | startRunCw =>
      obtain rfl := Option.some.inj hstep
      obtain ⟨hserial, hrunning, hnumbers⟩ := s.comm.startRunCw_port
      exact h.of_same hserial hrunning rfl rfl fun _ _ hopen => hnumbers ▸ hopen
  | stopRunCw =>
      obtain rfl := Option.some.inj hstep
      obtain ⟨hserial, hrunning, hnumbers⟩ := s.comm.stopRunCw_port
      exact h.of_same hserial hrunning rfl rfl fun _ _ hopen => hnumbers ▸ hopen
  | start fd level =>
      obtain ⟨⟨hmain, -⟩, hstep⟩ := Option.ite_none_right_eq_some.mp hstep
      split at hstep
      case isTrue =>
        obtain rfl := Option.some.inj hstep
        exact h
      case isFalse hrunning =>
        obtain rfl := Option.some.inj hstep
        have hnone := h.no_worker (by simp [hmain]) fun _ => Bool.eq_false_iff.mpr hrunning
        cases fd with
        | none => exact .of_no_worker hnone nofun fun _ _ => rfl
        | some n =>
            exact .of_no_worker hnone (fun _ => ⟨n, rfl, Lines.mem_numbers_opened.mpr (.inr rfl)⟩)
              nofun
  | stop =>
      obtain ⟨hmain, hstep⟩ := Option.ite_none_right_eq_some.mp hstep
      split_ifs at hstep with hrunning
      · obtain rfl := Option.some.inj hstep
        exact ⟨fun _ => .inl rfl, h.port, nofun, nofun⟩
      · obtain rfl := Option.some.inj hstep
        have hnone := h.no_worker (by simp [hmain]) fun _ => Bool.eq_false_iff.mpr hrunning
        exact .of_no_worker hnone nofun nofun
  | openOther fd level =>
      obtain ⟨-, hstep⟩ := Option.ite_none_right_eq_some.mp hstep
      obtain rfl := Option.some.inj hstep
      exact h.of_same rfl rfl rfl rfl fun _ _ hopen => Lines.mem_numbers_opened.mpr (.inl hopen)
  | closeOther fd =>
      obtain ⟨hother, hstep⟩ := Option.ite_none_right_eq_some.mp hstep
      obtain rfl := Option.some.inj hstep
      refine h.of_same rfl rfl rfl rfl fun n hserial hopen => ?_
      exact Lines.mem_numbers_closed.mpr ⟨hopen, fun heq => hother (hserial.trans heq)⟩

/-! ## The queue -/

/-- The element that a step pushes. -/
def pushes (s : WindowsSerial) : SerialAct → List CwRequest
  | .call i =>
      match s.calls[i]? with
      | some call =>
          if call.pc = .hand then [⟨call.item, call.duration, call.began⟩] else []
      | none => []
  | _ => []

/-- The element that the worker has played with a step. -/
def plays (s : WindowsSerial) : SerialAct → List CwRequest
  | .work _ =>
      match s.worker with
      | some (.elapsed request) => [request]
      | _ => []
  | _ => []

/-- What the worker does to DTR. -/
def pulses (s : WindowsSerial) : SerialAct → List Bool
  | .work _ =>
      match s.worker with
      | some (.toSet _) => [true]
      | some (.elapsed _) => [false]
      | _ => []
  | _ => []

/-- DTR of the open port gets what the worker does to it, and the worker
does nothing else there. -/
structure Drives (s : WindowsSerial) (a : SerialAct) (s' : WindowsSerial) : Prop where
  dtr : ∀ level ∈ s.pulses a, s'.comm.dtr = some level
  other : ∀ i, a = .work i → s.pulses a = [] → s'.comm = s.comm

/-- The element that the worker has taken, and those that wait. -/
def pending (s : WindowsSerial) : List CwRequest :=
  (s.worker.bind WorkerPc.request).toList ++ s.queue

/-- The worker has set DTR. -/
def sets (s : WindowsSerial) : List Bool :=
  match s.worker with
  | some (.holding _) | some (.elapsed _) => [true]
  | _ => []

/-- What is pushed is pending until it has been played, and a pulse belongs
to the element that is being played. -/
structure Conserves (s : WindowsSerial) (a : SerialAct) (s' : WindowsSerial) : Prop where
  pending : s.pending ++ s.pushes a = s.plays a ++ s'.pending
  sets : s.sets ++ s.pulses a = (s.plays a).flatMap (fun _ => [true, false]) ++ s'.sets

/-- Steps of other threads that push nothing. -/
theorem conserves_of_same {a : SerialAct} (hpending : s'.pending = s.pending)
    (hsets : s'.sets = s.sets) (hpushes : s.pushes a = []) (hplays : s.plays a = [])
    (hpulses : s.pulses a = []) : s.Conserves a s' := by
  constructor
  · rw [hpending, hpushes, hplays, List.append_nil, List.nil_append]
  · rw [hsets, hpulses, hplays, List.append_nil, List.flatMap_nil, List.nil_append]

/-- The worker waits, or is gone. -/
theorem idle_of_worker {pc : Option WorkerPc}
    (h : pc = none ∨ pc = some .head ∨ pc = some .waiting ∨ pc = some .exited)
    (hworker : s.worker = pc) : s.pending = s.queue ∧ s.sets = [] := by
  rcases h with rfl | rfl | rfl | rfl <;> simp [pending, sets, hworker, WorkerPc.request]

theorem conserves_work {i : Nat} (h : s.Session) (hstep : s.workerStep = some s') :
    s.Conserves (.work i) s' := by
  unfold workerStep at hstep
  cases hworker : s.worker with
  | none => rw [hworker] at hstep; cases hstep
  | some pc =>
      rw [hworker] at hstep
      cases pc with
      | exited => cases hstep
      | head =>
          obtain rfl := Option.some.inj hstep
          obtain ⟨hpending, hsets⟩ := idle_of_worker (.inr (.inl rfl)) hworker
          refine conserves_of_same ?_ ?_ rfl (by simp [plays, hworker]) (by simp [pulses, hworker])
          · rw [hpending]
            cases s.comm.running <;> rfl
          · rw [hsets]
            cases s.comm.running <;> rfl
      | waiting =>
          obtain ⟨hpending, hsets⟩ := idle_of_worker (.inr (.inr (.inl rfl))) hworker
          cases hqueue : s.queue with
          | nil =>
              rw [hqueue] at hstep
              obtain rfl := Option.some.inj hstep
              refine conserves_of_same ?_ ?_ rfl (by simp [plays, hworker])
                (by simp [pulses, hworker])
              · rw [hpending, hqueue]
                cases s.comm.running <;> rfl
              · rw [hsets]
                cases s.comm.running <;> rfl
          | cons request rest =>
              obtain ⟨fd, hserial, -⟩ := h.port (by rw [hworker]; rfl)
              have hport : s.comm.hSerial.isNone = false := by rw [hserial]; rfl
              rw [hqueue, hport] at hstep
              obtain rfl := Option.some.inj hstep
              refine conserves_of_same ?_ ?_ rfl (by simp [plays, hworker])
                (by simp [pulses, hworker])
              · rw [hpending, hqueue]
                rfl
              · rw [hsets]
                rfl
      | toSet | holding | elapsed =>
          obtain rfl := Option.some.inj hstep
          constructor <;>
            simp [pending, pushes, plays, sets, pulses, hworker, WorkerPc.request]

theorem Session.drives {a : SerialAct} (h : s.Session)
    (hstep : windowsSerial.step s a = some s') : s.Drives a s' := by
  cases a with
  | work i =>
      change s.workerStep = some s' at hstep
      unfold workerStep at hstep
      cases hworker : s.worker with
      | none => rw [hworker] at hstep; cases hstep
      | some pc =>
          have hport : s.comm.IsOpen := h.port (by rw [hworker]; rfl)
          rw [hworker] at hstep
          cases pc with
          | exited => cases hstep
          | head | holding =>
              obtain rfl := Option.some.inj hstep
              exact ⟨by simp [pulses, hworker], fun _ _ _ => rfl⟩
          | waiting =>
              cases hqueue : s.queue <;>
              · rw [hqueue] at hstep
                obtain rfl := Option.some.inj hstep
                exact ⟨by simp [pulses, hworker], fun _ _ _ => rfl⟩
          | toSet | elapsed =>
              obtain rfl := Option.some.inj hstep
              exact ⟨by simp [pulses, hworker, hport.dtr_setDtr], by simp [pulses, hworker]⟩
  | runCW | call | startRunCw | stopRunCw | start | stop | main | openOther | closeOther =>
      exact ⟨nofun, nofun⟩

theorem conserves_main {ok : Bool} (h : s.Session) (hstep : s.mainStep ok = some s') :
    s.Conserves (.main ok) s' := by
  unfold mainStep at hstep
  cases hmain : s.main with
  | idle | halt => rw [hmain] at hstep; cases hstep
  | configure =>
      rw [hmain] at hstep
      obtain ⟨hpending, hsets⟩ := idle_of_worker (.inl rfl) <|
        h.no_worker (by simp [hmain]) (by simp [hmain])
      cases ok with
      | true =>
          obtain rfl := Option.some.inj hstep
          exact conserves_of_same hpending.symm hsets.symm rfl rfl rfl
      | false =>
          obtain rfl := Option.some.inj hstep
          exact conserves_of_same rfl rfl rfl rfl rfl
  | join =>
      rw [hmain] at hstep
      cases hworker : s.worker with
      | none =>
          rw [hworker] at hstep
          obtain rfl := Option.some.inj hstep
          obtain ⟨hpending, hsets⟩ := idle_of_worker (.inl rfl) hworker
          exact conserves_of_same hpending.symm hsets.symm rfl rfl rfl
      | some pc =>
          rw [hworker] at hstep
          cases pc with
          | exited =>
              obtain rfl := Option.some.inj hstep
              obtain ⟨hpending, hsets⟩ := idle_of_worker (.inr (.inr (.inr rfl))) hworker
              exact conserves_of_same hpending.symm hsets.symm rfl rfl rfl
          | head | waiting | toSet | holding | elapsed => cases hstep
  | clear =>
      rw [hmain] at hstep
      dsimp only at hstep
      split_ifs at hstep <;>
      · obtain rfl := Option.some.inj hstep
        exact conserves_of_same rfl rfl rfl rfl rfl
  | close | invalidate =>
      rw [hmain] at hstep
      obtain rfl := Option.some.inj hstep
      exact conserves_of_same rfl rfl rfl rfl rfl

theorem Session.conserves {a : SerialAct} (h : s.Session)
    (hstep : windowsSerial.step s a = some s') : s.Conserves a s' := by
  cases a with
  | work i => exact conserves_work h hstep
  | main ok => exact conserves_main h hstep
  | call i =>
      obtain ⟨call, hi, ⟨hpc, rfl⟩ | ⟨hpc, -, rfl⟩⟩ := callStep_cases hstep
      · refine conserves_of_same rfl rfl ?_ rfl rfl
        simp [pushes, hi, hpc]
      · constructor
        · simp [pending, pushes, plays, hi, hpc]
        · exact List.append_nil _
  | runCW item duration =>
      obtain rfl := Option.some.inj hstep
      split <;> exact conserves_of_same rfl rfl rfl rfl rfl
  | startRunCw | stopRunCw =>
      obtain rfl := Option.some.inj hstep
      exact conserves_of_same rfl rfl rfl rfl rfl
  | start fd level =>
      obtain ⟨-, hstep⟩ := Option.ite_none_right_eq_some.mp hstep
      split at hstep <;>
      · obtain rfl := Option.some.inj hstep
        exact conserves_of_same rfl rfl rfl rfl rfl
  | stop =>
      obtain ⟨-, hstep⟩ := Option.ite_none_right_eq_some.mp hstep
      split at hstep <;>
      · obtain rfl := Option.some.inj hstep
        exact conserves_of_same rfl rfl rfl rfl rfl
  | openOther fd level | closeOther fd =>
      obtain ⟨-, hstep⟩ := Option.ite_none_right_eq_some.mp hstep
      obtain rfl := Option.some.inj hstep
      exact conserves_of_same rfl rfl rfl rfl rfl

end WindowsSerial

/-! ## Runs -/

/-- **Every element is played once, in order.** Over any interleaving of
calls, sessions and the worker's steps, what has been pushed is what the
worker has played, in the same order, and what is pending; and DTR of the
open port has been set and cleared once for each element it has played. -/
theorem worker_plays_in_order {as : List SerialAct} {s : WindowsSerial}
    (hrun : windowsSerial.run {} as = some s) :
    windowsSerial.trace WindowsSerial.pushes {} as
        = windowsSerial.trace WindowsSerial.plays {} as ++ s.pending
      ∧ windowsSerial.trace WindowsSerial.pulses {} as
        = (windowsSerial.trace WindowsSerial.plays {} as).flatMap (fun _ => [true, false])
          ++ s.sets
      ∧ windowsSerial.Along WindowsSerial.Drives {} as := by
  refine ⟨?_, ?_, ?_⟩
  · exact Machine.trace_queue (q := WindowsSerial.pending)
      (fun _ _ _ h hstep => ⟨h.step hstep, (h.conserves hstep).pending⟩)
      WindowsSerial.session_init hrun
  · rw [← Machine.trace_flatMap]
    exact Machine.trace_queue (q := WindowsSerial.sets)
      (fun _ _ _ h hstep => ⟨h.step hstep, (h.conserves hstep).sets⟩)
      WindowsSerial.session_init hrun
  · exact Machine.along_of_invariant (I := WindowsSerial.Session)
      (fun _ _ _ h _ hstep => ⟨h.step hstep, h.drives hstep⟩) WindowsSerial.session_init
      (Machine.Along.of_forall (p := fun _ => True) fun _ _ => trivial)

/-- A dit is played, and a dah is left in the queue. -/
theorem worker_plays_in_order_left :
    ∃ s, windowsSerial.run {} [.start (some 3) false, .main true, .runCW .dit 60, .call 0,
        .runCW .dah 180, .call 0, .call 1, .call 1, .work 0, .work 0, .work 0, .work 0, .work 0,
        .stop, .work 0, .main true] = some s
      ∧ windowsSerial.trace WindowsSerial.pushes {} [.start (some 3) false, .main true,
        .runCW .dit 60, .call 0, .runCW .dah 180, .call 0, .call 1, .call 1, .work 0, .work 0,
        .work 0, .work 0, .work 0, .stop, .work 0, .main true]
          = [⟨.dit, 60, 0⟩] ++ s.pending :=
  ⟨_, rfl, (worker_plays_in_order rfl).1⟩

end CwKeyer
