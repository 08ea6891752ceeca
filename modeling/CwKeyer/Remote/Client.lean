import CwKeyer.KeyerItem
import CwKeyer.Machine

/-!
# `RemoteClient`

The state of `remote/RemoteClient.cpp` and its threads: the keyer and
straight-key threads call `runCW`, `startRunCw` and `stopRunCw`, the
timer thread runs `moxTimerLoop`, and one thread calls `start` and
`stop`. A critical section under `m_moxMutex` is one step. `start` and
`stop` take the mutex for a part of their body only, so they are
programs of several steps (`MainPc`) that the other threads interleave
with.

What the program does not decide is in the action: clock readings,
whether a send succeeds, whether a timed wait has timed out. A blocked
timer thread may wake at any time, so notifications need no state.
-/

namespace CwKeyer

/-- The lines handed to `sendLine`. -/
inductive Line where
  | trx (on : Bool)
  | keyerTimed (duration : Int)
  | keyer (keyDown : Bool)
deriving Repr, DecidableEq

namespace Line

/-- The text that goes out in the frame. -/
def text : Line → String
  | .trx true => "trx:0,true;"
  | .trx false => "trx:0,false;"
  | .keyerTimed duration => "keyer:0,true," ++ toString duration ++ ";"
  | .keyer true => "keyer:0,true;"
  | .keyer false => "keyer:0,false;"

def isKeyer : Line → Bool
  | .trx _ => false
  | .keyerTimed _ => true
  | .keyer _ => true

/-- On the wire a line is a `trx` line, or an untimed keyer line, only
if it was sent as one. -/
theorem text_eq_iff {line other : Line} (h : ∀ d, other ≠ .keyerTimed d) :
    line.text = other.text ↔ line = other := by
  refine ⟨?_, fun heq => heq ▸ rfl⟩
  intro heq
  have hlist := congrArg String.toList heq
  clear heq
  cases other with
  | keyerTimed d => exact absurd rfl (h d)
  | trx on =>
      cases on <;> rcases line with (_ | _) | _ | (_ | _) <;>
        first
          | rfl
          | simp [text] at hlist
  | keyer keyDown =>
      cases keyDown <;> rcases line with (_ | _) | _ | (_ | _) <;>
        first
          | rfl
          | simp [text] at hlist

/-- The keyer lines are the lines that read `keyer:0,...`. -/
theorem isKeyer_iff {line : Line} :
    line.isKeyer = true ↔ "keyer:0,".toList <+: line.text.toList := by
  rcases line with (_ | _) | _ | (_ | _) <;> simp [isKeyer, text]

end Line

/-- The outcomes of the sends of one `sendKeyerCommand`, each of them
read only if that send is made. -/
structure Sends where
  mox : Bool
  command : Bool
  release : Bool
deriving Repr, DecidableEq

/-- The members of `RemoteClient`, and `wire`: the lines sent on the
current connection, or on the last one when none is open. The schedule
token is a 64-bit counter that a run cannot wrap (it would take 2^63
commands within one timed wait), so it is a `Nat` here; so are the
millisecond clock and the deadline. -/
structure RemoteClient where
  socketFd : Option Nat := none
  running : Bool := false
  moxActive : Bool := false
  stopMoxTimerThread : Bool := false
  moxDeactivationScheduled : Bool := false
  moxScheduleToken : Nat := 0
  moxDeactivationAtMs : Nat := 0
  moxReleaseDelayMs : Int := 250
  wire : List Line := []
deriving Repr, DecidableEq

namespace RemoteClient

/-! ## Sending -/

/-- Sends one line; a failed send ends the session. -/
def sendLine (c : RemoteClient) (line : Line) (ok : Bool) : RemoteClient × Bool :=
  if !c.running || c.socketFd.isNone then (c, false)
  else if ok then ({ c with wire := c.wire ++ [line] }, true)
  else ({ c with running := false }, false)

def activateMoxLocked (c : RemoteClient) (ok : Bool) : RemoteClient × Bool :=
  let (c, sent) := c.sendLine (.trx true) ok
  if !sent then (c, false) else ({ c with moxActive := true }, true)

def deactivateMoxLocked (c : RemoteClient) (ok : Bool) : RemoteClient :=
  { (c.sendLine (.trx false) ok).1 with moxActive := false }

/-- The release time is the configured delay plus the element duration, a
sum of two ints that is exact here. Whatever rests on the deadline asks
for the sum to be an int. -/
def scheduleMoxReleaseLocked (c : RemoteClient) (duration : Int) (nowMs : Nat) : RemoteClient :=
  { c with
    moxDeactivationScheduled := true
    moxDeactivationAtMs := nowMs + (c.moxReleaseDelayMs + duration).toNat
    moxScheduleToken := c.moxScheduleToken + 1 }

def resetMoxStateLocked (c : RemoteClient) (moxReleaseDelayMs : Int) : RemoteClient :=
  { c with
    moxReleaseDelayMs := if moxReleaseDelayMs ≥ 0 then moxReleaseDelayMs else 0
    moxActive := false
    stopMoxTimerThread := false
    moxDeactivationScheduled := false
    moxScheduleToken := c.moxScheduleToken + 1
    moxDeactivationAtMs := 0 }

/-- One critical section: cancel the pending release, activate MOX if it
is off, send the command, then release MOX at once (no delay configured)
or schedule its release. -/
def sendKeyerCommand (c : RemoteClient) (command : Line) (duration : Int) (nowMs : Nat)
    (ok : Sends) : RemoteClient × Bool :=
  if !c.running || c.socketFd.isNone then (c, false)
  else
    let c := { c with
      moxDeactivationScheduled := false
      moxScheduleToken := c.moxScheduleToken + 1 }
    let (c, active) := if c.moxActive then (c, true) else c.activateMoxLocked ok.mox
    if !active then (c, false)
    else
      let (c, sent) := c.sendLine command ok.command
      if !sent then (c, false)
      else if c.moxReleaseDelayMs ≤ 0 then
        let c := c.deactivateMoxLocked ok.release
        (c, c.running)
      else (c.scheduleMoxReleaseLocked duration nowMs, true)

def sendTimedCommand (c : RemoteClient) (duration : Int) (nowMs : Nat) (ok : Sends) :
    RemoteClient × Bool :=
  c.sendKeyerCommand (.keyerTimed duration) duration nowMs ok

/-- `m_running` is read here without the mutex; `sendKeyerCommand` reads
it again, so reading it in the same step loses no behaviour. -/
def sendDuration (c : RemoteClient) (duration : Int) (nowMs : Nat) (ok : Sends) :
    RemoteClient × Bool :=
  if !c.running || duration ≤ 0 then (c, false)
  else c.sendTimedCommand duration nowMs ok

def sendCommand (c : RemoteClient) (keyDown : Bool) (nowMs : Nat) (ok : Sends) :
    RemoteClient × Bool :=
  c.sendKeyerCommand (.keyer keyDown) 0 nowMs ok

/-- The three methods of `IKeyerCW`, with the result of the command they
send (`false` when they send none). -/
def call (c : RemoteClient) (k : KeyerCall) (nowMs : Nat) (ok : Sends) : RemoteClient × Bool :=
  match k with
  | .runCW item duration =>
      if item ≠ .dit ∧ item ≠ .dah then (c, false)
      else c.sendDuration duration nowMs ok
  | .startRunCw => c.sendCommand true nowMs ok
  | .stopRunCw => c.sendCommand false nowMs ok

end RemoteClient

/-! ## The timer thread -/

/-- Where the timer thread is: created and about to take the mutex,
blocked in `wait`, blocked in `wait_for` with the token and the deadline
it has read, or out of the loop. -/
inductive TimerPc where
  | entry
  | waiting
  | timedWait (token deactivateAtMs : Nat)
  | exited
deriving Repr, DecidableEq

namespace RemoteClient

/-- The end of the loop body: the release whose deadline has passed. -/
def timerRelease (c : RemoteClient) (ok : Bool) : RemoteClient :=
  let c := { c with moxDeactivationScheduled := false }
  if c.moxActive then c.deactivateMoxLocked ok else c

/-- `moxTimerLoop` from its head until it blocks or ends. -/
def timerHead (c : RemoteClient) (nowMs : Nat) (ok : Bool) : RemoteClient × TimerPc :=
  if c.stopMoxTimerThread then (c, .exited)
  else if !c.moxDeactivationScheduled then (c, .waiting)
  else if nowMs < c.moxDeactivationAtMs then
    (c, .timedWait c.moxScheduleToken c.moxDeactivationAtMs)
  else
    -- back at the head nothing is scheduled any more, so the thread blocks in `wait`
    (c.timerRelease ok, .waiting)

/-- One critical section of the timer thread, entered when it starts or
wakes up. `timedOut` says whether `wait_for` has reached its deadline. -/
def timerStep (c : RemoteClient) (pc : TimerPc) (nowMs : Nat) (timedOut ok : Bool) :
    Option (RemoteClient × TimerPc) :=
  match pc with
  | .entry => some (c.timerHead nowMs ok)
  | .waiting => some (c.timerHead nowMs ok)
  | .timedWait token deactivateAtMs =>
      if c.stopMoxTimerThread || !c.moxDeactivationScheduled || c.moxScheduleToken ≠ token then
        some (c.timerHead nowMs ok)
      else if timedOut then some (c.timerRelease ok, .waiting)
      else some (c, .timedWait token deactivateAtMs)
  | .exited => none

end RemoteClient

/-! ## `start` and `stop` -/

structure StartArgs where
  serverIp : String
  port : Int
  moxReleaseDelayMs : Int
deriving Repr, DecidableEq

/-- The argument checks of `start`. -/
def StartArgs.valid (args : StartArgs) : Bool :=
  !(args.port ≤ 0 || args.port > 65535) && !args.serverIp.isEmpty

/-- The next step of a `stop` call. `shouldDeactivateMox` is its local
variable, read in the first locked block. -/
inductive StopPc where
  | firstBlock
  | join (shouldDeactivateMox : Bool)
  | guarded (shouldDeactivateMox : Bool)
  | secondBlock
  | clearRunning
  | close
deriving Repr, DecidableEq

/-- What the thread that calls `start` and `stop` does next. A `stop`
that `start` has called continues with the rest of `start`. -/
inductive MainPc where
  | idle
  | stop (pc : StopPc) (caller : Option StartArgs)
  | platformInit (args : StartArgs)
  | openConnection (args : StartArgs)
  | handshake (args : StartArgs)
  | resetMox (args : StartArgs)
  | setRunning
  | spawn
deriving Repr, DecidableEq

/-- Everything the threads share, and for the statements: when and with
which duration the last accepted command was sent, and the last clock
reading. `timer` is `none` when `m_moxTimerThread` is not joinable. -/
structure RemoteSystem where
  client : RemoteClient := {}
  timer : Option TimerPc := none
  main : MainPc := .idle
  lastAccepted : Option (Nat × Int) := none
  clock : Nat := 0
deriving Repr, DecidableEq

inductive RemoteAct where
  | call (k : KeyerCall) (nowMs : Nat) (ok : Sends)
  | timer (nowMs : Nat) (timedOut ok : Bool)
  | start (args : StartArgs)
  | stop
  /-- The next step of `start` or `stop`, with the outcome of the system
  call it makes and the descriptor that `openConnection` gets. -/
  | main (ok : Bool) (fd : Nat)
deriving Repr, DecidableEq

/-- The duration a command is scheduled with. -/
def KeyerCall.moxDuration : KeyerCall → Int
  | .runCW _ duration => duration
  | .startRunCw => 0
  | .stopRunCw => 0

namespace RemoteSystem

def mainStep (s : RemoteSystem) (ok : Bool) (fd : Nat) : Option RemoteSystem :=
  match s.main with
  | .idle => none
  | .stop .firstBlock caller =>
      some { s with
        client := { s.client with
          stopMoxTimerThread := true
          moxDeactivationScheduled := false
          moxScheduleToken := s.client.moxScheduleToken + 1
          moxDeactivationAtMs := 0 }
        main := .stop (.join s.client.moxActive) caller }
  | .stop (.join shouldDeactivateMox) caller =>
      match s.timer with
      | none => some { s with main := .stop (.guarded shouldDeactivateMox) caller }
      | some .exited =>
          some { s with timer := none, main := .stop (.guarded shouldDeactivateMox) caller }
      | some _ => none
  | .stop (.guarded shouldDeactivateMox) caller =>
      if s.client.running && shouldDeactivateMox && s.client.socketFd.isSome then
        some { s with client := s.client.deactivateMoxLocked ok, main := .stop .secondBlock caller }
      else some { s with main := .stop .secondBlock caller }
  | .stop .secondBlock caller =>
      some { s with
        client := { s.client with moxActive := false, stopMoxTimerThread := false }
        main := .stop .clearRunning caller }
  | .stop .clearRunning caller =>
      some { s with client := { s.client with running := false }, main := .stop .close caller }
  | .stop .close caller =>
      some { s with
        client := { s.client with socketFd := none }
        main := match caller with
          | none => .idle
          | some args => .platformInit args }
  | .platformInit args => some { s with main := if ok then .openConnection args else .idle }
  | .openConnection args =>
      if ok then
        some { s with
          client := { s.client with socketFd := some fd, wire := [] }
          main := .handshake args }
      else some { s with main := .idle }
  | .handshake args =>
      if ok then some { s with main := .resetMox args }
      else some { s with client := { s.client with socketFd := none }, main := .idle }
  | .resetMox args =>
      some { s with
        client := s.client.resetMoxStateLocked args.moxReleaseDelayMs
        main := .setRunning }
  | .setRunning => some { s with client := { s.client with running := true }, main := .spawn }
  | .spawn => some { s with timer := some .entry, main := .idle }

def step (s : RemoteSystem) : RemoteAct → Option RemoteSystem
  | .call k nowMs ok =>
      let (c, accepted) := s.client.call k nowMs ok
      some { s with
        client := c
        lastAccepted := if accepted then some (nowMs, k.moxDuration) else s.lastAccepted
        clock := nowMs }
  | .timer nowMs timedOut ok =>
      match s.timer with
      | none => none
      | some pc => do
          let (c, pc) ← s.client.timerStep pc nowMs timedOut ok
          some { s with client := c, timer := some pc, clock := nowMs }
  | .start args =>
      if s.main = .idle then
        some (if args.valid then { s with main := .stop .firstBlock (some args) } else s)
      else none
  | .stop =>
      if s.main = .idle then some { s with main := .stop .firstBlock none } else none
  | .main ok fd => s.mainStep ok fd

end RemoteSystem

/-- `RemoteClient` and its threads. -/
def remote : Machine RemoteSystem RemoteAct := ⟨RemoteSystem.step⟩

/-- A client that has just been constructed. -/
def RemoteSystem.init : RemoteSystem := {}

/-- The steps of a first `start` whose system calls all succeed. -/
def connects (args : StartArgs) : List RemoteAct :=
  .start args :: List.replicate 12 (.main true 3)

/-- The connection works: the sends of this step succeed. -/
def sendsOk (s : RemoteSystem) : RemoteAct → Bool
  | .call _ _ ok => ok.mox && ok.command && ok.release
  | .timer _ _ ok => ok
  | .main ok _ =>
      match s.main with
      | .stop (.guarded _) _ => ok
      | _ => true
  | .start _ => true
  | .stop => true

end CwKeyer
