import CwKeyer.Platform
import CwKeyer.Serial.SerialComm

/-!
# `N1MMProxy`

The straight key input of `serial/N1MMProxy_linux.cpp` and
`serial/N1MMProxy_win.cpp`: `start` and `stop` over those of `SerialComm`,
with which it shares `m_running` and `m_hSerial`, and `dsrMonitorLoop`.

A `start` is one step: no monitor is alive while it runs. `stop` is one
step up to the join of the monitor and one after it, with the `stop` of
`SerialComm` in it; `run_stop` of `LinuxSerial` and of `WindowsSerial` says
that those of its system calls that are one by one in `SerialComm`'s own
machine come to the same. Between the two the monitor goes on, one test,
wait or reading of DSR at a time.
-/

namespace CwKeyer

namespace SerialComm

/-- Clears DTR, closes the port and invalidates `m_hSerial`. -/
def release (c : SerialComm) : SerialComm := (c.setDtr false).closePort.invalidate

/-- `SerialComm::stop` on Linux. -/
def stopLinux (c : SerialComm) : SerialComm :=
  if c.hSerial.isSome && c.running then { c.release with running := false } else c

/-- `SerialComm::stop` on Windows past its worker. -/
def stopWindows (c : SerialComm) : SerialComm :=
  let c := { c with running := false }
  if c.hSerial.isSome then c.release else c

@[simp] theorem release_hSerial (c : SerialComm) : c.release.hSerial = none := rfl

@[simp] theorem release_running (c : SerialComm) : c.release.running = c.running := rfl

end SerialComm

/-- From the call to its return, `stop` does to the port what `stopLinux`
says, when no other thread comes between. -/
theorem LinuxSerial.run_stop {dtrControl : Bool} {s : LinuxSerial} (hmain : s.main = .idle)
    (hopen : (s.comm.hSerial.isSome && s.comm.running) = true) :
    (linuxSerial dtrControl).run s [.stop, .main true, .main true, .main true, .main true] =
      some { s with comm := s.comm.stopLinux, main := .idle, stops := s.stops + 1 } := by
  rw [SerialComm.stopLinux, if_pos hopen]
  simp [Machine.run, linuxSerial, LinuxSerial.step, LinuxSerial.mainStep, hmain, hopen,
    SerialComm.release]

/-- The same on Windows, once the worker has seen `m_running` cleared. -/
theorem WindowsSerial.run_stop {s : WindowsSerial} (hmain : s.main = .idle)
    (hopen : s.comm.hSerial.isSome = true) (hrunning : s.comm.running = true)
    (hworker : s.worker = some .exited) :
    windowsSerial.run s [.stop, .main true, .main true, .main true, .main true] =
      some { s with
        comm := s.comm.stopWindows, worker := none, main := .idle, stops := s.stops + 1 } := by
  rw [SerialComm.stopWindows]
  simp [Machine.run, windowsSerial, WindowsSerial.step, WindowsSerial.mainStep, hmain, hopen,
    hrunning, hworker, SerialComm.release, SerialComm.setDtr, SerialComm.closePort,
    SerialComm.invalidate]

/-- Where `dsrMonitorLoop` is. Only on Windows it reads DSR on `entry`. -/
inductive DsrPc where
  | entry
  | head
  | waiting
  | sampling
  | exited
deriving Repr, DecidableEq

/-- What the system calls of a `start` come to: the descriptor of `open`
with its DTR, whether the port could be configured, and whether the pipe
or the event that stops the monitor could be made. -/
structure StartOutcome where
  fd : Option Nat
  level : Bool := false
  configured : Bool := true
  signal : Bool := true
deriving Repr, DecidableEq

/-- A thread is `none` while it is not joinable, and so is `worker` while
it is false. `stopSignal` is set while the pipe or the event is open. -/
structure N1MMProxy where
  comm : SerialComm := {}
  worker : Bool := false
  dsrThread : Option DsrPc := none
  stopSignal : Bool := false
  signalled : Bool := false
  /-- `lastDsr` of the monitor, `none` for -1 -/
  lastDsr : Option Bool := none
  /-- `stop` waits for the monitor -/
  stopping : Bool := false
  /-- the calls of `onStraight` -/
  log : List Bool := []
  /-- the first reading of the session -/
  baseline : Option Bool := none
  /-- a joinable thread has been assigned: `std::terminate` -/
  terminated : Bool := false
  /-- an open handle has been overwritten -/
  overwritten : Bool := false
deriving Repr, DecidableEq

inductive N1MMAct where
  | start (outcome : StartOutcome)
  | stop
  | joined
  | loop
  | wake (event : Option Bool)
  | sample (level : Option Bool)
deriving Repr, DecidableEq

namespace N1MMProxy

/-- `SerialComm::stop`. -/
def baseStop (platform : Platform) (p : N1MMProxy) : N1MMProxy :=
  match platform with
  | .linux => { p with comm := p.comm.stopLinux }
  | .windows => { p with comm := p.comm.stopWindows, worker := p.worker && !p.comm.running }

/-- On Windows `SerialComm::start` calls `stop` when a port is still open. -/
def closeOpen (platform : Platform) (p : N1MMProxy) : N1MMProxy :=
  if platform = .windows ∧ p.comm.hSerial.isSome then p.baseStop platform else p

/-- `m_hSerial` is assigned by `open` or `CreateFile`. -/
def openPort (p : N1MMProxy) (outcome : StartOutcome) : N1MMProxy :=
  { p with
    comm := p.comm.openPort outcome.fd outcome.level
    overwritten := p.overwritten || p.comm.hSerial.any (· ∈ p.comm.ports.numbers) }

/-- `m_workerThread` is assigned; Linux has none. -/
def startWorker (platform : Platform) (p : N1MMProxy) : N1MMProxy :=
  match platform with
  | .linux => p
  | .windows => { p with worker := true, terminated := p.terminated || p.worker }

/-- `SerialComm::start`, and whether it returns true. -/
def baseStart (platform : Platform) (p : N1MMProxy) (outcome : StartOutcome) : N1MMProxy × Bool :=
  if p.comm.running then (p, false)
  else
    let p := (p.closeOpen platform).openPort outcome
    if outcome.fd.isNone then (p, false)
    else if outcome.configured then
      let p := { p with comm := { p.comm.setDtr false with running := true } }
      (p.startWorker platform, true)
    else ({ p with comm := p.comm.closePort.invalidate }, false)

/-- `m_dsrThread` is assigned. -/
def startMonitor (platform : Platform) (p : N1MMProxy) : N1MMProxy :=
  { p with
    dsrThread := some (if platform = .windows then .entry else .head)
    terminated := p.terminated || p.dsrThread.isSome
    stopSignal := true
    signalled := false
    overwritten := p.overwritten || p.stopSignal
    lastDsr := none
    baseline := none }

def start (platform : Platform) (p : N1MMProxy) (outcome : StartOutcome) : N1MMProxy :=
  match p.baseStart platform outcome with
  | (p, false) => p
  | (p, true) => if outcome.signal then p.startMonitor platform else p.baseStop platform

/-- `stop` up to the join. -/
def stop (platform : Platform) (p : N1MMProxy) : N1MMProxy :=
  if p.comm.running then
    { p with
      comm := { p.comm with running := false }
      signalled := p.stopSignal
      stopping := true }
  else p.baseStop platform

/-- `stop` after it. -/
def joined (platform : Platform) (p : N1MMProxy) : N1MMProxy :=
  { p with dsrThread := none, stopSignal := false, stopping := false }.baseStop platform

/-- Edge detection on a reading of DSR. -/
def read (p : N1MMProxy) (level : Bool) : N1MMProxy :=
  match p.lastDsr with
  | none => { p with lastDsr := some level, baseline := some level }
  | some last =>
      if level = last then p else { p with lastDsr := some level, log := p.log ++ [level] }

/-- The monitor is woken: on Linux by its poll interval or the pipe, on
Windows by an event of the port, of which `event` says whether DSR is
among its causes, or else by `m_stopEvent` or a failed call. -/
def wake (platform : Platform) (p : N1MMProxy) (event : Option Bool) : DsrPc :=
  match platform, event with
  | .linux, _ => if p.signalled || p.comm.hSerial.isNone then .exited else .sampling
  | .windows, none => .exited
  | .windows, some dsr => if !p.comm.running then .exited else if dsr then .sampling else .head

/-- The next step of the monitor; `level` is `none` when DSR cannot be
read. -/
def monitorStep (platform : Platform) (p : N1MMProxy) (act : N1MMAct) : Option N1MMProxy :=
  match p.dsrThread, act with
  | some .entry, .sample level =>
      some { p with
        lastDsr := some (level.getD false)
        baseline := some (level.getD false)
        dsrThread := some .head }
  | some .head, .loop =>
      some { p with dsrThread := some (if p.comm.running then .waiting else .exited) }
  | some .waiting, .wake event => some { p with dsrThread := some (p.wake platform event) }
  | some .sampling, .sample none => some { p with dsrThread := some .head }
  | some .sampling, .sample (some level) => some { p.read level with dsrThread := some .head }
  | _, _ => none

def step (platform : Platform) (p : N1MMProxy) (act : N1MMAct) : Option N1MMProxy :=
  if p.terminated then none
  else
    match act with
    | .start outcome =>
        if p.stopping = false ∧ ∀ n ∈ outcome.fd, n ∉ p.comm.ports.numbers then
          some (p.start platform outcome)
        else none
    | .stop => if p.stopping = false then some (p.stop platform) else none
    | .joined =>
        if p.stopping && (p.dsrThread.isNone || p.dsrThread = some .exited) then
          some (p.joined platform)
        else none
    | _ => p.monitorStep platform act

/-- The step with which `stop` returns. -/
def stopReturns (p : N1MMProxy) : N1MMAct → Bool
  | .stop => !p.comm.running
  | .joined => true
  | _ => false

end N1MMProxy

/-- `N1MMProxy` on a platform. -/
def n1mmProxy (platform : Platform) : Machine N1MMProxy N1MMAct := ⟨N1MMProxy.step platform⟩

end CwKeyer
