import CwKeyer.Serial.SerialComm

/-!
# `stop` as a barrier

An element outlives the `runCW` that requested it. On Linux its thread
keeps the number of a descriptor that `stop` closes, and writes to
whatever is opened under that number next; a `runCW` call that is still on
its way takes the next session's descriptor. On Windows the queue outlives
`stop`, and the next worker plays it.

So `stop` is a barrier in the runs in which nothing of the kind is left
when a descriptor is opened (`stop_is_barrier`); with nothing opened, what
is left finds its descriptor closed.
-/

namespace CwKeyer

/-- A `runCW` call on its way that began before a `stop` returned. -/
def RunCwCall.stale (stops : Nat) (call : RunCwCall) : Bool :=
  call.pc ≠ .returned && call.began < stops

theorem RunCwCall.began_of_fresh {stops : Nat} {call : RunCwCall}
    (h : call.stale stops = false) (hpc : call.pc ≠ .returned) : stops ≤ call.began := by
  simpa [stale, hpc] using h

theorem RunCwCall.fresh_of_began {stops : Nat} {call : RunCwCall} (h : stops ≤ call.began) :
    call.stale stops = false := by
  simp [stale, Nat.not_lt.mpr h]

/-- A call that goes on is as fresh as it was. -/
theorem RunCwCall.fresh_set {stops i : Nat} {calls : List RunCwCall} {call : RunCwCall}
    {pc : RunCwPc} (h : ∀ c ∈ calls, c.stale stops = false) (hmem : call ∈ calls)
    (hpc : call.pc ≠ .returned) :
    ∀ c ∈ calls.set i { call with pc := pc }, c.stale stops = false := by
  intro c hc
  rcases List.mem_or_eq_of_mem_set hc with hc | rfl
  · exact h c hc
  · have hbegan := RunCwCall.began_of_fresh (h call hmem) hpc
    exact RunCwCall.fresh_of_began hbegan

/-- A call that begins now is fresh. -/
theorem RunCwCall.fresh_append {stops : Nat} {calls : List RunCwCall} {call : RunCwCall}
    (h : ∀ c ∈ calls, c.stale stops = false) (hbegan : stops ≤ call.began) :
    ∀ c ∈ calls ++ [call], c.stale stops = false := by
  intro c hc
  rcases List.mem_append.mp hc with hc | hc
  · exact h c hc
  · obtain rfl := List.mem_singleton.mp hc
    exact RunCwCall.fresh_of_began hbegan

/-! ## Linux -/

namespace LinuxSerial

/-- The step of an element whose call began before a `stop` that has
returned changes no DTR. -/
def NoLateEffect (s : LinuxSerial) : SerialAct → LinuxSerial → Prop
  | .work i, s' => ∀ e ∈ s.elements[i]?, e.began < s.stops → s'.comm.ports = s.comm.ports
  | _, _ => True

instance (s : LinuxSerial) (a : SerialAct) (s' : LinuxSerial) : Decidable (NoLateEffect s a s') := by
  unfold NoLateEffect
  split <;> infer_instance

/-- An element thread that has not finished has captured the descriptor. -/
def captured (s : LinuxSerial) (fd : Nat) : Bool :=
  s.elements.any fun e => e.pc ≠ .done && e.fd = some fd

/-- No element is left over when a number is opened: no unfinished thread
has captured it, `m_hSerial` does not still hold it, and at a `start` no
stale call is on its way. -/
def NothingLeft (s : LinuxSerial) : SerialAct → Bool
  | .start (some fd) _ =>
      s.comm.running || (!s.captured fd && !s.calls.any (RunCwCall.stale s.stops))
  | .openOther fd _ => !s.captured fd && s.comm.hSerial ≠ some fd
  | _ => true

/-- Whatever an unfinished thread can still write to is the session's own
port, and the thread belongs to the session. -/
structure BarrierInv (s : LinuxSerial) : Prop where
  elements : ∀ e ∈ s.elements, e.pc ≠ .done → ∀ fd, e.fd = some fd →
    fd ∈ s.comm.ports.numbers → s.comm.hSerial = some fd ∧ s.stops ≤ e.began
  calls : s.comm.hSerial.isSome = true → ∀ call ∈ s.calls, call.stale s.stops = false
  idle : s.main = .idle → s.comm.hSerial.isSome = true → s.comm.running = true
  closed : s.main = .invalidate → ∀ fd, s.comm.hSerial = some fd → fd ∉ s.comm.ports.numbers
  halted : s.main = .halt → s.comm.hSerial = none

theorem barrierInv_init : BarrierInv {} := by
  constructor <;> simp

variable {dtrControl : Bool} {s s' : LinuxSerial}

theorem captured_eq_false {fd : Nat} (h : s.captured fd = false) :
    ∀ e ∈ s.elements, e.pc ≠ .done → e.fd ≠ some fd := by
  simpa [captured] using h

/-- Without a port no unfinished thread can write. -/
theorem BarrierInv.unreachable (h : BarrierInv s) (hnone : s.comm.hSerial = none) {e : ElementThread}
    (he : e ∈ s.elements) (hdone : e.pc ≠ .done) {fd : Nat} (hfd : e.fd = some fd) :
    fd ∉ s.comm.ports.numbers := by
  intro hmem
  have hserial := (h.elements e he hdone fd hfd hmem).1
  rw [hnone] at hserial
  cases hserial

/-- While no port is open the rest of the state is free. -/
theorem BarrierInv.of_no_port (h : BarrierInv s) (hnone : s.comm.hSerial = none)
    (hnumbers : s'.comm.ports.numbers = s.comm.ports.numbers)
    (helements : s'.elements = s.elements) (hnone' : s'.comm.hSerial = none) : BarrierInv s' := by
  refine ⟨?_, ?_, ?_, ?_, fun _ => hnone'⟩
  · intro e he hdone fd hfd hmem
    rw [helements] at he
    rw [hnumbers] at hmem
    exact absurd hmem (h.unreachable hnone he hdone hfd)
  · intro hopen
    rw [hnone'] at hopen
    cases hopen
  · intro _ hopen
    rw [hnone'] at hopen
    cases hopen
  · intro _ fd hserial
    rw [hnone'] at hserial
    cases hserial

/-- Steps that leave the port, the calls and `start` and `stop` alone. -/
theorem BarrierInv.of_elements (h : BarrierInv s)
    (hnumbers : s'.comm.ports.numbers = s.comm.ports.numbers)
    (hserial : s'.comm.hSerial = s.comm.hSerial) (hrunning : s'.comm.running = s.comm.running)
    (hmain : s'.main = s.main) (hstops : s'.stops = s.stops)
    (hcalls : (∀ call ∈ s.calls, call.stale s.stops = false) →
      ∀ call ∈ s'.calls, call.stale s.stops = false)
    (helements : ∀ e ∈ s'.elements, e.pc ≠ .done → ∀ fd, e.fd = some fd →
      fd ∈ s.comm.ports.numbers → s.comm.hSerial = some fd ∧ s.stops ≤ e.began) :
    BarrierInv s' := by
  refine ⟨?_, ?_, ?_, ?_, ?_⟩
  · rw [hnumbers, hserial, hstops]
    exact helements
  · rw [hserial, hstops]
    exact fun hopen => hcalls (h.calls hopen)
  · rw [hmain, hserial, hrunning]
    exact h.idle
  · rw [hmain, hserial, hnumbers]
    exact h.closed
  · rw [hmain, hserial]
    exact h.halted

theorem barrierInv_call {i : Nat} (h : BarrierInv s) (hstep : s.callStep i = some s') :
    BarrierInv s' := by
  obtain ⟨call, hi, hcall⟩ := callStep_cases hstep
  have hmem : call ∈ s.calls := List.mem_of_getElem? hi
  rcases hcall with ⟨hpc, rfl⟩ | ⟨hpc, rfl⟩
  · exact h.of_elements rfl rfl rfl rfl rfl (RunCwCall.fresh_set · hmem (by simp [hpc])) h.elements
  · refine h.of_elements rfl rfl rfl rfl rfl (RunCwCall.fresh_set · hmem (by simp [hpc])) ?_
    intro e he hdone fd hfd hmemfd
    rcases List.mem_append.mp he with he | he
    · exact h.elements e he hdone fd hfd hmemfd
    · obtain rfl := List.mem_singleton.mp he
      have hopen : s.comm.hSerial.isSome = true := by simp [show s.comm.hSerial = some fd from hfd]
      exact ⟨hfd, RunCwCall.began_of_fresh (h.calls hopen call hmem) (by simp [hpc])⟩

theorem elementStep_cases {i : Nat} (hstep : s.elementStep i = some s') :
    ∃ e pc ports, s.elements[i]? = some e ∧ e.pc ≠ .done ∧
      s' = { s with
        comm := { s.comm with ports := ports }
        elements := s.elements.set i { e with pc := pc } } ∧
      (ports = s.comm.ports ∨ ∃ level, ports = s.comm.ports.drive e.fd level) := by
  unfold elementStep at hstep
  cases hi : s.elements[i]? with
  | none => rw [hi] at hstep; cases hstep
  | some e =>
      rw [hi] at hstep
      dsimp only at hstep
      cases hpc : e.pc with
      | done => rw [hpc] at hstep; cases hstep
      | toSet =>
          rw [hpc] at hstep
          obtain rfl := Option.some.inj hstep
          exact ⟨e, .holding, _, rfl, by simp [hpc], rfl, .inr ⟨true, rfl⟩⟩
      | holding =>
          rw [hpc] at hstep
          obtain rfl := Option.some.inj hstep
          exact ⟨e, .elapsed, _, rfl, by simp [hpc], rfl, .inl rfl⟩
      | elapsed =>
          rw [hpc] at hstep
          obtain rfl := Option.some.inj hstep
          exact ⟨e, .done, _, rfl, by simp [hpc], rfl, .inr ⟨false, rfl⟩⟩

theorem barrierInv_element {i : Nat} (h : BarrierInv s) (hstep : s.elementStep i = some s') :
    BarrierInv s' := by
  obtain ⟨e, pc, ports, hi, hpc, rfl, hports⟩ := elementStep_cases hstep
  have hnumbers : ports.numbers = s.comm.ports.numbers := by
    rcases hports with rfl | ⟨level, rfl⟩ <;> simp
  refine h.of_elements hnumbers rfl rfl rfl rfl id fun e' he' hdone fd hfd hmem => ?_
  rcases List.mem_or_eq_of_mem_set he' with he' | rfl
  · exact h.elements e' he' hdone fd hfd hmem
  · exact h.elements e (List.mem_of_getElem? hi) hpc fd hfd hmem

theorem barrierInv_main {ok : Bool} (h : BarrierInv s)
    (hstep : s.mainStep dtrControl ok = some s') : BarrierInv s' := by
  unfold mainStep at hstep
  cases hmain : s.main with
  | idle => rw [hmain] at hstep; cases hstep
  | join => rw [hmain] at hstep; cases hstep
  | configure =>
      rw [hmain] at hstep
      cases ok with
      | true =>
          obtain rfl := Option.some.inj hstep
          refine ⟨?_, h.calls, fun _ _ => rfl, nofun, nofun⟩
          simpa [SerialComm.setDtr] using h.elements
      | false =>
          obtain rfl := Option.some.inj hstep
          refine ⟨?_, nofun, nofun, nofun, nofun⟩
          intro e he hdone fd hfd hmem
          obtain ⟨hmem, hne⟩ := Lines.mem_numbers_closed.mp hmem
          exact absurd (h.elements e he hdone fd hfd hmem).1.symm hne
  | clear =>
      rw [hmain] at hstep
      obtain rfl := Option.some.inj hstep
      refine ⟨?_, h.calls, nofun, nofun, nofun⟩
      simpa [SerialComm.setDtr] using h.elements
  | close =>
      rw [hmain] at hstep
      obtain rfl := Option.some.inj hstep
      refine ⟨?_, h.calls, nofun, ?_, nofun⟩
      · intro e he hdone fd hfd hmem
        exact h.elements e he hdone fd hfd (Lines.mem_numbers_closed.mp hmem).1
      · intro _ fd hserial hmem
        exact (Lines.mem_numbers_closed.mp hmem).2 hserial.symm
  | invalidate =>
      rw [hmain] at hstep
      obtain rfl := Option.some.inj hstep
      refine ⟨?_, nofun, nofun, nofun, fun _ => rfl⟩
      intro e he hdone fd hfd hmem
      exact absurd hmem (h.closed hmain fd (h.elements e he hdone fd hfd hmem).1)
  | halt =>
      rw [hmain] at hstep
      obtain rfl := Option.some.inj hstep
      have hnone := h.halted hmain
      exact h.of_no_port hnone rfl rfl hnone

theorem barrierInv_start {fd : Option Nat} {level : Bool} (h : BarrierInv s)
    (hleft : s.NothingLeft (.start fd level) = true)
    (hstep : (linuxSerial dtrControl).step s (.start fd level) = some s') : BarrierInv s' := by
  obtain ⟨⟨hmain, -⟩, hstep⟩ := Option.ite_none_right_eq_some.mp hstep
  split at hstep
  case isTrue =>
    obtain rfl := Option.some.inj hstep
    exact h
  case isFalse hrunning =>
    obtain rfl := Option.some.inj hstep
    have hnone : s.comm.hSerial = none := by
      by_contra hopen
      exact hrunning (h.idle hmain (Option.isSome_iff_ne_none.mpr hopen))
    cases fd with
    | none => exact h.of_no_port hnone rfl rfl rfl
    | some n =>
        simp only [NothingLeft, Bool.or_eq_true, hrunning, Bool.false_eq_true, false_or,
          Bool.and_eq_true, Bool.not_eq_true'] at hleft
        obtain ⟨hcaptured, hstale⟩ := hleft
        refine ⟨?_, ?_, nofun, nofun, nofun⟩
        · intro e he hdone m hm hmem
          rcases Lines.mem_numbers_opened.mp hmem with hmem | rfl
          · exact absurd hmem (h.unreachable hnone he hdone hm)
          · exact absurd hm (captured_eq_false hcaptured e he hdone)
        · intro _ call hcall
          have := List.any_eq_false.mp hstale call hcall
          simpa using this

theorem barrierInv_step {a : SerialAct} (h : BarrierInv s) (hleft : s.NothingLeft a = true)
    (hstep : (linuxSerial dtrControl).step s a = some s') : BarrierInv s' := by
  cases a with
  | call i => exact barrierInv_call h hstep
  | work i => exact barrierInv_element h hstep
  | main ok => exact barrierInv_main h hstep
  | start fd level => exact barrierInv_start h hleft hstep
  | runCW item duration =>
      obtain rfl := Option.some.inj hstep
      split
      case isFalse => exact h
      case isTrue =>
        refine h.of_elements rfl rfl rfl rfl rfl (fun hfresh => ?_) h.elements
        exact RunCwCall.fresh_append hfresh (Nat.le_refl s.stops)
  | startRunCw =>
      obtain rfl := Option.some.inj hstep
      rcases s.comm.startRunCw_cases with hcomm | hcomm <;>
        exact h.of_elements (by simp [hcomm]) (by simp [hcomm]) (by simp [hcomm]) rfl rfl id h.elements
  | stopRunCw =>
      obtain rfl := Option.some.inj hstep
      rcases s.comm.stopRunCw_cases with hcomm | hcomm <;>
        exact h.of_elements (by simp [hcomm]) (by simp [hcomm]) (by simp [hcomm]) rfl rfl id h.elements
  | stop =>
      obtain ⟨hmain, hstep⟩ := Option.ite_none_right_eq_some.mp hstep
      split at hstep
      case isTrue =>
        obtain rfl := Option.some.inj hstep
        exact ⟨h.elements, h.calls, nofun, nofun, nofun⟩
      case isFalse hguard =>
        obtain rfl := Option.some.inj hstep
        have hnone : s.comm.hSerial = none := by
          by_contra hopen
          have hsome := Option.isSome_iff_ne_none.mpr hopen
          exact hguard (by simp [hsome, h.idle hmain hsome])
        exact h.of_no_port hnone rfl rfl hnone
  | openOther fd level =>
      obtain ⟨hfree, hstep⟩ := Option.ite_none_right_eq_some.mp hstep
      obtain rfl := Option.some.inj hstep
      simp only [NothingLeft, Bool.and_eq_true, Bool.not_eq_true', decide_eq_true_eq] at hleft
      obtain ⟨hcaptured, hserial⟩ := hleft
      refine ⟨?_, h.calls, h.idle, ?_, h.halted⟩
      · intro e he hdone n hn hmem
        rcases Lines.mem_numbers_opened.mp hmem with hmem | rfl
        · exact h.elements e he hdone n hn hmem
        · exact absurd hn (captured_eq_false hcaptured e he hdone)
      · intro hmain n hn hmem
        rcases Lines.mem_numbers_opened.mp hmem with hmem | rfl
        · exact h.closed hmain n hn hmem
        · exact hserial hn
  | closeOther fd =>
      obtain ⟨hserial, hstep⟩ := Option.ite_none_right_eq_some.mp hstep
      obtain rfl := Option.some.inj hstep
      refine ⟨?_, h.calls, h.idle, ?_, h.halted⟩
      · intro e he hdone n hn hmem
        exact h.elements e he hdone n hn (Lines.mem_numbers_closed.mp hmem).1
      · intro hmain n hn hmem
        exact h.closed hmain n hn (Lines.mem_numbers_closed.mp hmem).1

/-- Only a thread of the session reaches an open descriptor. -/
theorem noLateEffect {a : SerialAct} (h : BarrierInv s)
    (hstep : (linuxSerial dtrControl).step s a = some s') : NoLateEffect s a s' := by
  unfold NoLateEffect
  split
  case h_2 => trivial
  case h_1 i =>
    intro e he hbegan
    obtain ⟨e', pc, ports, hi, hpc, rfl, hports⟩ := elementStep_cases hstep
    obtain rfl : e' = e := Option.some.inj (hi.symm.trans he)
    rcases hports with rfl | ⟨level, rfl⟩
    · rfl
    · refine Lines.drive_of_closed fun fd hfd hmem => ?_
      have hfresh := (h.elements e' (List.mem_of_getElem? hi) hpc fd hfd hmem).2
      omega

end LinuxSerial

/-! ## Windows -/

namespace WindowsSerial

/-- The step of the worker while it plays a request whose call began before
a `stop` that has returned changes no DTR. -/
def NoLateEffect (s : WindowsSerial) : SerialAct → WindowsSerial → Prop
  | .work _, s' => ∀ pc ∈ s.worker, ∀ r ∈ pc.request, r.began < s.stops →
      s'.comm.ports = s.comm.ports
  | _, _ => True

instance (s : WindowsSerial) (a : SerialAct) (s' : WindowsSerial) :
    Decidable (NoLateEffect s a s') := by
  unfold NoLateEffect
  split <;> infer_instance

/-- At a `start` no request of an earlier session is queued and no stale
call is on its way. -/
def NothingLeft (s : WindowsSerial) : SerialAct → Bool
  | .start (some _) _ =>
      s.comm.running ||
        (s.queue.all (fun r => s.stops ≤ r.began) && !s.calls.any (RunCwCall.stale s.stops))
  | _ => true

/-- Whatever is played or can still be played was requested after the last
`stop`. -/
structure Fresh (s : WindowsSerial) : Prop where
  queue : ∀ r ∈ s.queue, s.stops ≤ r.began
  calls : ∀ call ∈ s.calls, call.stale s.stops = false
  playing : ∀ pc ∈ s.worker, ∀ r ∈ pc.request, s.stops ≤ r.began

/-- From opening the port to joining the worker. -/
def InSession (s : WindowsSerial) : Prop := s.worker.isSome = true ∨ s.main = .configure

/-- A worker lives while `m_running` is set or `stop` waits for it, and
between sessions the port is closed. -/
structure WindowsInv (s : WindowsSerial) : Prop where
  session : s.InSession → s.Fresh
  worker : s.worker.isSome = true → s.main = .join ∨ s.main = .idle ∧ s.comm.running = true
  closed : s.main = .idle → s.comm.running = false → s.comm.hSerial = none

theorem windowsInv_init : WindowsInv {} := by
  refine ⟨?_, nofun, fun _ _ => rfl⟩
  rintro (h | h) <;> cases h

variable {s s' : WindowsSerial}

theorem WindowsInv.no_worker (h : WindowsInv s) (hjoin : s.main ≠ .join)
    (hidle : s.main = .idle → s.comm.running = false) : s.worker = none := by
  by_contra hne
  rcases h.worker (Option.isSome_iff_ne_none.mpr hne) with hmain | ⟨hmain, hrunning⟩
  · exact hjoin hmain
  · rw [hidle hmain] at hrunning
    cases hrunning

/-- Steps that leave the port, the worker's life and `start` and `stop`
alone. -/
theorem WindowsInv.of_fresh (h : WindowsInv s) (hserial : s'.comm.hSerial = s.comm.hSerial)
    (hrunning : s'.comm.running = s.comm.running) (hmain : s'.main = s.main)
    (hworker : s'.worker.isSome = s.worker.isSome) (hfresh : s.Fresh → s'.Fresh) :
    WindowsInv s' := by
  refine ⟨?_, ?_, ?_⟩
  · rintro hsession
    refine hfresh (h.session ?_)
    rwa [InSession, ← hworker, ← hmain]
  · rw [hworker, hmain, hrunning]
    exact h.worker
  · rw [hmain, hrunning, hserial]
    exact h.closed

/-- Without a worker there is no session, unless the port is being opened. -/
theorem WindowsInv.of_no_worker (hworker : s.worker = none) (hmain : s.main ≠ .configure)
    (hclosed : s.main = .idle → s.comm.running = false → s.comm.hSerial = none) : WindowsInv s := by
  refine ⟨?_, ?_, hclosed⟩
  · rintro (hsome | hconfigure)
    · rw [hworker] at hsome
      cases hsome
    · exact absurd hconfigure hmain
  · intro hsome
    rw [hworker] at hsome
    cases hsome

theorem windowsInv_call {i : Nat} (h : WindowsInv s) (hstep : s.callStep i = some s') :
    WindowsInv s' := by
  obtain ⟨call, hi, hcall⟩ := callStep_cases hstep
  have hmem : call ∈ s.calls := List.mem_of_getElem? hi
  rcases hcall with ⟨hpc, rfl⟩ | ⟨hpc, -, rfl⟩
  · refine h.of_fresh rfl rfl rfl rfl fun hfresh => ⟨hfresh.queue, ?_, hfresh.playing⟩
    exact RunCwCall.fresh_set hfresh.calls hmem (by simp [hpc])
  · refine h.of_fresh rfl rfl rfl rfl fun hfresh => ⟨fun r hr => ?_, ?_, hfresh.playing⟩
    · rcases List.mem_append.mp hr with hr | hr
      · exact hfresh.queue r hr
      · obtain rfl := List.mem_singleton.mp hr
        exact RunCwCall.began_of_fresh (hfresh.calls call hmem) (by simp [hpc])
    · exact RunCwCall.fresh_set hfresh.calls hmem (by simp [hpc])

/-- What the worker can do: it goes on with its request, takes one from the
queue or drops one. -/
theorem workerStep_cases (hstep : s.workerStep = some s') :
    ∃ pc pc' rest ports, s.worker = some pc ∧
      s' = { s with
        comm := { s.comm with ports := ports }, queue := rest, worker := some pc' } ∧
      (∀ r ∈ rest, r ∈ s.queue) ∧ (∀ r ∈ pc'.request, r ∈ pc.request ∨ r ∈ s.queue) ∧
      (ports = s.comm.ports ∨ pc.request.isSome = true) := by
  unfold workerStep at hstep
  cases hworker : s.worker with
  | none => rw [hworker] at hstep; cases hstep
  | some pc =>
      rw [hworker] at hstep
      cases pc with
      | exited => cases hstep
      | head =>
          obtain rfl := Option.some.inj hstep
          refine ⟨_, _, s.queue, _, rfl, rfl, fun r hr => hr, ?_, .inl rfl⟩
          intro r hr
          split at hr <;> cases hr
      | waiting =>
          cases hqueue : s.queue with
          | nil =>
              rw [hqueue] at hstep
              obtain rfl := Option.some.inj hstep
              refine ⟨_, _, [], _, rfl, by rw [← hqueue], fun r hr => hr, ?_, .inl rfl⟩
              intro r hr
              split at hr <;> cases hr
          | cons request rest =>
              rw [hqueue] at hstep
              obtain rfl := Option.some.inj hstep
              refine ⟨_, _, rest, _, rfl, rfl, fun r hr => .tail _ hr, ?_, .inl rfl⟩
              intro r hr
              split at hr
              · cases hr
              · obtain rfl := Option.some.inj hr
                exact .inr (List.mem_cons_self ..)
      | toSet request =>
          obtain rfl := Option.some.inj hstep
          exact ⟨_, .holding request, s.queue, _, rfl, rfl, fun r hr => hr, fun r hr => .inl hr, .inr rfl⟩
      | holding request =>
          obtain rfl := Option.some.inj hstep
          exact ⟨_, .elapsed request, s.queue, _, rfl, rfl, fun r hr => hr, fun r hr => .inl hr, .inl rfl⟩
      | elapsed request =>
          obtain rfl := Option.some.inj hstep
          exact ⟨_, .head, s.queue, _, rfl, rfl, fun r hr => hr, nofun, .inr rfl⟩

theorem windowsInv_worker (h : WindowsInv s) (hstep : s.workerStep = some s') :
    WindowsInv s' := by
  obtain ⟨pc, pc', rest, ports, hworker, rfl, hrest, hrequest, -⟩ := workerStep_cases hstep
  refine h.of_fresh rfl rfl rfl (by simp [hworker]) fun hfresh => ⟨?_, hfresh.calls, ?_⟩
  · exact fun r hr => hfresh.queue r (hrest r hr)
  · rintro _ ⟨⟩ r hr
    rcases hrequest r hr with hr | hr
    · exact hfresh.playing pc hworker r hr
    · exact hfresh.queue r hr

theorem windowsInv_main {ok : Bool} (h : WindowsInv s) (hstep : s.mainStep ok = some s') :
    WindowsInv s' := by
  unfold mainStep at hstep
  cases hmain : s.main with
  | idle => rw [hmain] at hstep; cases hstep
  | halt => rw [hmain] at hstep; cases hstep
  | configure =>
      rw [hmain] at hstep
      have hnone := h.no_worker (by simp [hmain]) (by simp [hmain])
      cases ok with
      | true =>
          obtain rfl := Option.some.inj hstep
          have hfresh := h.session (.inr hmain)
          refine ⟨fun _ => ⟨hfresh.queue, hfresh.calls, ?_⟩, fun _ => .inr ⟨rfl, rfl⟩, nofun⟩
          rintro _ ⟨⟩ r hr
          cases hr
      | false =>
          obtain rfl := Option.some.inj hstep
          exact .of_no_worker hnone nofun fun _ _ => rfl
  | join =>
      rw [hmain] at hstep
      cases hworker : s.worker with
      | none =>
          rw [hworker] at hstep
          obtain rfl := Option.some.inj hstep
          exact .of_no_worker rfl nofun nofun
      | some pc =>
          rw [hworker] at hstep
          cases pc with
          | exited =>
              obtain rfl := Option.some.inj hstep
              exact .of_no_worker rfl nofun nofun
          | head | waiting | toSet | holding | elapsed => cases hstep
  | clear =>
      rw [hmain] at hstep
      have hnone := h.no_worker (by simp [hmain]) (by simp [hmain])
      dsimp only at hstep
      split at hstep
      case isTrue =>
        obtain rfl := Option.some.inj hstep
        exact .of_no_worker hnone nofun nofun
      case isFalse hserial =>
        obtain rfl := Option.some.inj hstep
        exact .of_no_worker hnone nofun fun _ _ => by simpa using hserial
  | close =>
      rw [hmain] at hstep
      have hnone := h.no_worker (by simp [hmain]) (by simp [hmain])
      obtain rfl := Option.some.inj hstep
      exact .of_no_worker hnone nofun nofun
  | invalidate =>
      rw [hmain] at hstep
      have hnone := h.no_worker (by simp [hmain]) (by simp [hmain])
      obtain rfl := Option.some.inj hstep
      exact .of_no_worker hnone nofun fun _ _ => rfl

theorem windowsInv_start {fd : Option Nat} {level : Bool} (h : WindowsInv s)
    (hleft : s.NothingLeft (.start fd level) = true)
    (hstep : windowsSerial.step s (.start fd level) = some s') : WindowsInv s' := by
  obtain ⟨⟨hmain, -⟩, hstep⟩ := Option.ite_none_right_eq_some.mp hstep
  split at hstep
  case isTrue =>
    obtain rfl := Option.some.inj hstep
    exact h
  case isFalse hrunning =>
    obtain rfl := Option.some.inj hstep
    have hnone := h.no_worker (by simp [hmain]) fun _ => Bool.eq_false_iff.mpr hrunning
    cases fd with
    | none => exact .of_no_worker hnone nofun fun _ _ => rfl
    | some n =>
        simp only [NothingLeft, Bool.or_eq_true, hrunning, Bool.false_eq_true, false_or,
          Bool.and_eq_true, Bool.not_eq_true'] at hleft
        obtain ⟨hqueue, hcalls⟩ := hleft
        refine ⟨fun _ => ⟨?_, ?_, by simp [hnone]⟩, by simp [hnone], nofun⟩
        · simpa using hqueue
        · intro call hcall
          simpa using List.any_eq_false.mp hcalls call hcall

theorem windowsInv_step {a : SerialAct} (h : WindowsInv s) (hleft : s.NothingLeft a = true)
    (hstep : windowsSerial.step s a = some s') : WindowsInv s' := by
  cases a with
  | call i => exact windowsInv_call h hstep
  | work i => exact windowsInv_worker h hstep
  | main ok => exact windowsInv_main h hstep
  | start fd level => exact windowsInv_start h hleft hstep
  | runCW item duration =>
      obtain rfl := Option.some.inj hstep
      split
      case isFalse => exact h
      case isTrue =>
        refine h.of_fresh rfl rfl rfl rfl fun hfresh => ⟨hfresh.queue, ?_, hfresh.playing⟩
        exact RunCwCall.fresh_append hfresh.calls (Nat.le_refl s.stops)
  | startRunCw =>
      obtain rfl := Option.some.inj hstep
      rcases s.comm.startRunCw_cases with hcomm | hcomm <;>
        exact h.of_fresh (by simp [hcomm]) (by simp [hcomm]) rfl rfl
          fun hfresh => ⟨hfresh.queue, hfresh.calls, hfresh.playing⟩
  | stopRunCw =>
      obtain rfl := Option.some.inj hstep
      rcases s.comm.stopRunCw_cases with hcomm | hcomm <;>
        exact h.of_fresh (by simp [hcomm]) (by simp [hcomm]) rfl rfl
          fun hfresh => ⟨hfresh.queue, hfresh.calls, hfresh.playing⟩
  | stop =>
      obtain ⟨hmain, hstep⟩ := Option.ite_none_right_eq_some.mp hstep
      split at hstep
      case isTrue =>
        obtain rfl := Option.some.inj hstep
        refine ⟨?_, fun _ => .inl rfl, nofun⟩
        rintro (hsome | hmain')
        · have hfresh := h.session (.inl hsome)
          exact ⟨hfresh.queue, hfresh.calls, hfresh.playing⟩
        · cases hmain'
      case isFalse hrunning =>
        obtain rfl := Option.some.inj hstep
        have hnone := h.no_worker (by simp [hmain]) fun _ => Bool.eq_false_iff.mpr hrunning
        exact .of_no_worker hnone nofun nofun
  | openOther fd level =>
      obtain ⟨-, hstep⟩ := Option.ite_none_right_eq_some.mp hstep
      obtain rfl := Option.some.inj hstep
      exact h.of_fresh rfl rfl rfl rfl fun hfresh => ⟨hfresh.queue, hfresh.calls, hfresh.playing⟩
  | closeOther fd =>
      obtain ⟨-, hstep⟩ := Option.ite_none_right_eq_some.mp hstep
      obtain rfl := Option.some.inj hstep
      exact h.of_fresh rfl rfl rfl rfl fun hfresh => ⟨hfresh.queue, hfresh.calls, hfresh.playing⟩

theorem noLateEffect {a : SerialAct} (h : WindowsInv s) (s' : WindowsSerial) :
    NoLateEffect s a s' := by
  unfold NoLateEffect
  split
  case h_2 => trivial
  case h_1 =>
    intro pc hpc r hr hbegan
    have hsession : s.InSession := .inl (by simp [Option.mem_def.mp hpc])
    have := (h.session hsession).playing pc hpc r hr
    omega

end WindowsSerial

/-! ## Runs -/

/-- When nothing is left over at a `start`, or when another descriptor is
opened, no element of an earlier session has an effect, on either platform. -/
theorem stop_is_barrier (dtrControl : Bool) :
    (∀ as, (linuxSerial dtrControl).Along (fun s a _ => s.NothingLeft a = true) {} as →
      (linuxSerial dtrControl).Along LinuxSerial.NoLateEffect {} as) ∧
    ∀ as, windowsSerial.Along (fun s a _ => s.NothingLeft a = true) {} as →
      windowsSerial.Along WindowsSerial.NoLateEffect {} as := by
  constructor
  · intro as
    refine Machine.along_of_invariant (I := LinuxSerial.BarrierInv) ?_ LinuxSerial.barrierInv_init
    intro s a s' hinv hleft hstep
    exact ⟨LinuxSerial.barrierInv_step hinv hleft hstep, LinuxSerial.noLateEffect hinv hstep⟩
  · intro as
    refine Machine.along_of_invariant (I := WindowsSerial.WindowsInv) ?_ WindowsSerial.windowsInv_init
    intro s a s' hinv hleft hstep
    exact ⟨WindowsSerial.windowsInv_step hinv hleft hstep, WindowsSerial.noLateEffect hinv s'⟩

/-- A session with one element, played out before `stop`, and the next
`start`. -/
def playedOutLinux : List SerialAct :=
  [.start (some 3) false, .main true, .runCW .dit 60, .call 0, .call 0, .work 0, .work 0, .work 0,
    .stop, .main true, .main true, .main true, .main true, .start (some 3) false, .main true,
    .runCW .dah 180, .call 1, .call 1, .work 1]

def playedOutWindows : List SerialAct :=
  [.start (some 3) false, .main true, .runCW .dit 60, .call 0, .call 0, .work 0, .work 0, .work 0,
    .work 0, .work 0, .work 0, .stop, .work 0, .work 0, .main true, .main true, .main true,
    .main true, .start (some 3) false, .main true, .work 0]

theorem stop_is_barrier_playedOut :
    (∃ s, (linuxSerial false).run {} playedOutLinux = some s ∧ s.stops = 1
      ∧ (linuxSerial false).Along LinuxSerial.NoLateEffect {} playedOutLinux)
      ∧ ∃ s, windowsSerial.run {} playedOutWindows = some s ∧ s.stops = 1
        ∧ windowsSerial.Along WindowsSerial.NoLateEffect {} playedOutWindows :=
  ⟨⟨_, rfl, rfl, (stop_is_barrier false).1 _ (by decide)⟩,
    ⟨_, rfl, rfl, (stop_is_barrier false).2 _ (by decide)⟩⟩

/-- On Linux the thread of an element first runs when the next session has
been given the same descriptor; on Windows the next worker plays the
second of two queued elements. -/
theorem element_outlives_stop :
    ¬ (linuxSerial false).Along LinuxSerial.NoLateEffect {}
      [.start (some 3) false, .main true, .runCW .dit 60, .call 0, .call 0, .stop, .main true,
        .main true, .main true, .main true, .start (some 3) false, .main true, .work 0] ∧
    ¬ windowsSerial.Along WindowsSerial.NoLateEffect {}
      [.start (some 3) false, .main true, .runCW .dit 60, .call 0, .call 0, .runCW .dit 60,
        .call 1, .call 1, .work 0, .work 0, .work 0, .work 0, .stop, .work 0, .work 0, .main true,
        .main true, .main true, .main true, .start (some 3) false, .main true, .work 0, .work 0,
        .work 0] := by
  decide

end CwKeyer
