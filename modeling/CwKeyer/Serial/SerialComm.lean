import CwKeyer.KeyerItem
import CwKeyer.Machine
import CwKeyer.Serial.Lines

/-!
# `SerialComm`

The serial CW output of `serial/SerialComm_linux.cpp` and
`serial/SerialComm_win.cpp`, as one machine for each: the calls of
`IKeyerCW` from the keyer threads, the threads that play elements, and the
thread that calls `start` and `stop`. A step is one system call or one
access to a shared member.

On Linux every element has a detached thread that captures the descriptor;
on Windows one worker plays a queue, and holds the mutex of the queue from
taking an element until it has played it. Other serial descriptors of the
process can be opened and closed at any time.

`stops` counts the `stop` calls that have returned; a `runCW` call carries
the count at which it began, and its element with it.
-/

namespace CwKeyer

/-- The members of `SerialComm` that both platforms have, and the serial
descriptors open in the process with their DTR levels. An invalid
`m_hSerial` is `none`. -/
structure SerialComm where
  hSerial : Option Nat := none
  running : Bool := false
  ports : Lines := []
deriving Repr, DecidableEq

namespace SerialComm

def setDtr (c : SerialComm) (level : Bool) : SerialComm :=
  { c with ports := c.ports.drive c.hSerial level }

def closePort (c : SerialComm) : SerialComm := { c with ports := c.ports.closed c.hSerial }

def invalidate (c : SerialComm) : SerialComm := { c with hSerial := none }

def startRunCw (c : SerialComm) : SerialComm :=
  if c.running && c.hSerial.isSome then c.setDtr true else c

def stopRunCw (c : SerialComm) : SerialComm :=
  if c.running && c.hSerial.isSome then c.setDtr false else c

/-- `open` or `CreateFile`: the new descriptor, with its DTR at whatever
level the driver leaves it, or none. -/
def openPort (c : SerialComm) (fd : Option Nat) (level : Bool) : SerialComm :=
  match fd with
  | none => { c with hSerial := none }
  | some n => { c with hSerial := some n, ports := c.ports.opened n level }

variable {c : SerialComm} {level : Bool}

@[simp] theorem setDtr_hSerial : (c.setDtr level).hSerial = c.hSerial := rfl

@[simp] theorem setDtr_running : (c.setDtr level).running = c.running := rfl

@[simp] theorem setDtr_numbers : (c.setDtr level).ports.numbers = c.ports.numbers :=
  Lines.numbers_drive

/-- A straight-key call writes the level or, on a port that does not run,
does nothing. -/
theorem startRunCw_cases : c.startRunCw = c.setDtr true ∨ c.startRunCw = c := by
  unfold startRunCw
  split
  · exact .inl rfl
  · exact .inr rfl

theorem stopRunCw_cases : c.stopRunCw = c.setDtr false ∨ c.stopRunCw = c := by
  unfold stopRunCw
  split
  · exact .inl rfl
  · exact .inr rfl

/-- Neither touches anything but the level. -/
theorem startRunCw_port : c.startRunCw.hSerial = c.hSerial ∧ c.startRunCw.running = c.running
    ∧ c.startRunCw.ports.numbers = c.ports.numbers := by
  rcases c.startRunCw_cases with hcall | hcall <;> simp [hcall]

theorem stopRunCw_port : c.stopRunCw.hSerial = c.hSerial ∧ c.stopRunCw.running = c.running
    ∧ c.stopRunCw.ports.numbers = c.ports.numbers := by
  rcases c.stopRunCw_cases with hcall | hcall <;> simp [hcall]

end SerialComm

/-- What the thread that calls `start` and `stop` does next. `join` and
`halt` are where the platforms differ: Windows clears `m_running` first
and joins its worker, Linux clears it last. -/
inductive SerialMain where
  | idle
  | configure
  | join
  | clear
  | close
  | invalidate
  | halt
deriving Repr, DecidableEq

/-- A `runCW` call that has found `m_running` set: it checks the port, then
hands its element over. -/
inductive RunCwPc where
  | checkPort
  | hand
  | returned
deriving Repr, DecidableEq

structure RunCwCall where
  item : KeyerItem
  duration : Int
  began : Nat
  pc : RunCwPc := .checkPort
deriving Repr, DecidableEq

/-! ## Linux -/

inductive ElementPc where
  | toSet
  | holding
  | elapsed
  | done
deriving Repr, DecidableEq

/-- The detached thread of an element. -/
structure ElementThread where
  fd : Option Nat
  duration : Int
  began : Nat
  pc : ElementPc := .toSet
deriving Repr, DecidableEq

structure LinuxSerial where
  comm : SerialComm := {}
  calls : List RunCwCall := []
  elements : List ElementThread := []
  main : SerialMain := .idle
  stops : Nat := 0
  /-- a `startRunCw` has had no `stopRunCw` after it -/
  straight : Bool := false
deriving Repr, DecidableEq

/-- The actions of both platforms: `work i` is the next step of element
thread `i` on Linux and of the worker on Windows. -/
inductive SerialAct where
  | runCW (item : KeyerItem) (duration : Int)
  | call (i : Nat)
  | work (i : Nat)
  | startRunCw
  | stopRunCw
  | start (fd : Option Nat) (level : Bool)
  | stop
  | main (ok : Bool)
  | openOther (fd : Nat) (level : Bool)
  | closeOther (fd : Nat)
deriving Repr, DecidableEq

namespace LinuxSerial

/-- The next step of a `runCW` call: the check of `m_hSerial`, then its
capture and the new thread. -/
def callStep (s : LinuxSerial) (i : Nat) : Option LinuxSerial :=
  match s.calls[i]? with
  | none => none
  | some call =>
      match call.pc with
      | .checkPort =>
          let pc := if s.comm.hSerial.isNone then .returned else .hand
          some { s with calls := s.calls.set i { call with pc := pc } }
      | .hand =>
          some { s with
            calls := s.calls.set i { call with pc := .returned }
            elements := s.elements ++ [⟨s.comm.hSerial, call.duration, call.began, .toSet⟩] }
      | .returned => none

/-- The next step of an element's thread: set DTR, sleep, clear DTR. -/
def elementStep (s : LinuxSerial) (i : Nat) : Option LinuxSerial :=
  match s.elements[i]? with
  | none => none
  | some e =>
      match e.pc with
      | .toSet =>
          some { s with
            comm := { s.comm with ports := s.comm.ports.drive e.fd true }
            elements := s.elements.set i { e with pc := .holding } }
      | .holding => some { s with elements := s.elements.set i { e with pc := .elapsed } }
      | .elapsed =>
          some { s with
            comm := { s.comm with ports := s.comm.ports.drive e.fd false }
            elements := s.elements.set i { e with pc := .done } }
      | .done => none

/-- The next step of `start` or `stop`; `ok` is the outcome of configuring
the port. -/
def mainStep (dtrControl : Bool) (s : LinuxSerial) (ok : Bool) : Option LinuxSerial :=
  match s.main with
  | .configure =>
      if ok then
        some { s with comm := { s.comm.setDtr dtrControl with running := true }, main := .idle }
      else some { s with comm := s.comm.closePort.invalidate, main := .idle }
  | .clear => some { s with comm := s.comm.setDtr false, main := .close }
  | .close => some { s with comm := s.comm.closePort, main := .invalidate }
  | .invalidate => some { s with comm := s.comm.invalidate, main := .halt }
  | .halt =>
      some { s with
        comm := { s.comm with running := false }
        main := .idle
        stops := s.stops + 1 }
  | .idle => none
  | .join => none

def step (dtrControl : Bool) (s : LinuxSerial) : SerialAct → Option LinuxSerial
  | .runCW item duration =>
      some (if s.comm.running then { s with calls := s.calls ++ [⟨item, duration, s.stops, .checkPort⟩] }
        else s)
  | .call i => s.callStep i
  | .work i => s.elementStep i
  | .startRunCw => some { s with comm := s.comm.startRunCw, straight := true }
  | .stopRunCw => some { s with comm := s.comm.stopRunCw, straight := false }
  | .start fd level =>
      if s.main = .idle ∧ ∀ n ∈ fd, n ∉ s.comm.ports.numbers then
        if s.comm.running then some s
        else
          some { s with
            comm := s.comm.openPort fd level
            main := if fd.isSome then .configure else .idle }
      else none
  | .stop =>
      if s.main = .idle then
        if s.comm.hSerial.isSome && s.comm.running then some { s with main := .clear }
        else some { s with stops := s.stops + 1 }
      else none
  | .main ok => s.mainStep dtrControl ok
  | .openOther fd level =>
      if fd ∉ s.comm.ports.numbers then
        some { s with comm := { s.comm with ports := s.comm.ports.opened fd level } }
      else none
  | .closeOther fd =>
      if s.comm.hSerial ≠ some fd then
        some { s with comm := { s.comm with ports := s.comm.ports.closed (some fd) } }
      else none

/-- What a `runCW` call can do next. -/
theorem callStep_cases {s s' : LinuxSerial} {i : Nat} (hstep : s.callStep i = some s') :
    ∃ call, s.calls[i]? = some call ∧
      ((call.pc = .checkPort ∧
          s' = { s with
            calls := s.calls.set i
              { call with pc := if s.comm.hSerial.isNone then .returned else .hand } }) ∨
        (call.pc = .hand ∧
          s' = { s with
            calls := s.calls.set i { call with pc := .returned }
            elements := s.elements ++ [⟨s.comm.hSerial, call.duration, call.began, .toSet⟩] })) := by
  unfold callStep at hstep
  cases hi : s.calls[i]? with
  | none => rw [hi] at hstep; cases hstep
  | some call =>
      rw [hi] at hstep
      dsimp only at hstep
      refine ⟨call, rfl, ?_⟩
      cases hpc : call.pc with
      | returned => rw [hpc] at hstep; cases hstep
      | checkPort =>
          rw [hpc] at hstep
          exact .inl ⟨rfl, (Option.some.inj hstep).symm⟩
      | hand =>
          rw [hpc] at hstep
          exact .inr ⟨rfl, (Option.some.inj hstep).symm⟩

end LinuxSerial

/-- `SerialComm` on Linux, constructed with `dtrControl`. -/
def linuxSerial (dtrControl : Bool) : Machine LinuxSerial SerialAct :=
  ⟨LinuxSerial.step dtrControl⟩

/-! ## Windows -/

structure CwRequest where
  item : KeyerItem
  duration : Int
  began : Nat
deriving Repr, DecidableEq

/-- Where the worker is; from `toSet` to `elapsed` it holds `m_queueMutex`. -/
inductive WorkerPc where
  | head
  | waiting
  | toSet (request : CwRequest)
  | holding (request : CwRequest)
  | elapsed (request : CwRequest)
  | exited
deriving Repr, DecidableEq

namespace WorkerPc

/-- The request being played. -/
def request : WorkerPc → Option CwRequest
  | .toSet r => some r
  | .holding r => some r
  | .elapsed r => some r
  | _ => none

end WorkerPc

/-- `worker` is `none` while `m_workerThread` is not joinable. -/
structure WindowsSerial where
  comm : SerialComm := {}
  calls : List RunCwCall := []
  queue : List CwRequest := []
  worker : Option WorkerPc := none
  main : SerialMain := .idle
  stops : Nat := 0
  straight : Bool := false
deriving Repr, DecidableEq

namespace WindowsSerial

def lockFree (s : WindowsSerial) : Bool :=
  match s.worker with
  | none => true
  | some pc => pc.request.isNone

/-- The next step of a `runCW` call: the check of `m_hSerial`, then the
push under the mutex. -/
def callStep (s : WindowsSerial) (i : Nat) : Option WindowsSerial :=
  match s.calls[i]? with
  | none => none
  | some call =>
      match call.pc with
      | .checkPort =>
          let pc := if s.comm.hSerial.isNone then .returned else .hand
          some { s with calls := s.calls.set i { call with pc := pc } }
      | .hand =>
          if s.lockFree then
            some { s with
              calls := s.calls.set i { call with pc := .returned }
              queue := s.queue ++ [⟨call.item, call.duration, call.began⟩] }
          else none
      | .returned => none

/-- The next step of `processQueue`. Woken with nothing to do, the worker
waits on, or goes back to the head of its loop when `m_running` is clear. -/
def workerStep (s : WindowsSerial) : Option WindowsSerial :=
  match s.worker with
  | some .head => some { s with worker := some (if s.comm.running then .waiting else .exited) }
  | some .waiting =>
      match s.queue with
      | [] => some { s with worker := some (if s.comm.running then .waiting else .head) }
      | request :: rest =>
          some { s with
            queue := rest
            worker := some (if s.comm.hSerial.isNone then .head else .toSet request) }
  | some (.toSet request) =>
      some { s with comm := s.comm.setDtr true, worker := some (.holding request) }
  | some (.holding request) => some { s with worker := some (.elapsed request) }
  | some (.elapsed _) => some { s with comm := s.comm.setDtr false, worker := some .head }
  | some .exited => none
  | none => none

def mainStep (s : WindowsSerial) (ok : Bool) : Option WindowsSerial :=
  match s.main with
  | .configure =>
      if ok then
        some { s with
          comm := { s.comm.setDtr false with running := true }
          worker := some .head
          main := .idle }
      else some { s with comm := s.comm.closePort.invalidate, main := .idle }
  | .join =>
      match s.worker with
      | none => some { s with main := .clear }
      | some .exited => some { s with worker := none, main := .clear }
      | some _ => none
  | .clear =>
      if s.comm.hSerial.isSome then some { s with comm := s.comm.setDtr false, main := .close }
      else some { s with main := .idle, stops := s.stops + 1 }
  | .close => some { s with comm := s.comm.closePort, main := .invalidate }
  | .invalidate =>
      some { s with comm := s.comm.invalidate, main := .idle, stops := s.stops + 1 }
  | .idle => none
  | .halt => none

/-- A `start` on a client that does not run finds neither an open port nor
a joinable worker (`WindowsInv`), so the `stop` in it is left out. -/
def step (s : WindowsSerial) : SerialAct → Option WindowsSerial
  | .runCW item duration =>
      some (if s.comm.running then { s with calls := s.calls ++ [⟨item, duration, s.stops, .checkPort⟩] }
        else s)
  | .call i => s.callStep i
  | .work _ => s.workerStep
  | .startRunCw => some { s with comm := s.comm.startRunCw, straight := true }
  | .stopRunCw => some { s with comm := s.comm.stopRunCw, straight := false }
  | .start fd level =>
      if s.main = .idle ∧ ∀ n ∈ fd, n ∉ s.comm.ports.numbers then
        if s.comm.running then some s
        else
          some { s with
            comm := s.comm.openPort fd level
            main := if fd.isSome then .configure else .idle }
      else none
  | .stop =>
      if s.main = .idle then
        if s.comm.running then
          some { s with comm := { s.comm with running := false }, main := .join }
        else some { s with main := .clear }
      else none
  | .main ok => s.mainStep ok
  | .openOther fd level =>
      if fd ∉ s.comm.ports.numbers then
        some { s with comm := { s.comm with ports := s.comm.ports.opened fd level } }
      else none
  | .closeOther fd =>
      if s.comm.hSerial ≠ some fd then
        some { s with comm := { s.comm with ports := s.comm.ports.closed (some fd) } }
      else none

/-- What a `runCW` call can do next. -/
theorem callStep_cases {s s' : WindowsSerial} {i : Nat} (hstep : s.callStep i = some s') :
    ∃ call, s.calls[i]? = some call ∧
      ((call.pc = .checkPort ∧
          s' = { s with
            calls := s.calls.set i
              { call with pc := if s.comm.hSerial.isNone then .returned else .hand } }) ∨
        (call.pc = .hand ∧ s.lockFree = true ∧
          s' = { s with
            calls := s.calls.set i { call with pc := .returned }
            queue := s.queue ++ [⟨call.item, call.duration, call.began⟩] })) := by
  unfold callStep at hstep
  cases hi : s.calls[i]? with
  | none => rw [hi] at hstep; cases hstep
  | some call =>
      rw [hi] at hstep
      dsimp only at hstep
      refine ⟨call, rfl, ?_⟩
      cases hpc : call.pc with
      | returned => rw [hpc] at hstep; cases hstep
      | checkPort =>
          rw [hpc] at hstep
          exact .inl ⟨rfl, (Option.some.inj hstep).symm⟩
      | hand =>
          rw [hpc] at hstep
          obtain ⟨hfree, hstep⟩ := Option.ite_none_right_eq_some.mp hstep
          exact .inr ⟨rfl, hfree, (Option.some.inj hstep).symm⟩

end WindowsSerial

/-- `SerialComm` on Windows. -/
def windowsSerial : Machine WindowsSerial SerialAct := ⟨WindowsSerial.step⟩

end CwKeyer
