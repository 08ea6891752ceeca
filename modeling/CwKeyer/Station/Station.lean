import CwKeyer.Decoder.CwDecoder
import CwKeyer.Keyer.Basic
import CwKeyer.Projection
import CwKeyer.Remote.Client
import CwKeyer.Serial.SerialComm
import CwKeyer.Sound.Player

/-!
# The station

The keyer with its outputs, as `GuiConnector` puts them together: the sound,
the serial port, the decoder and the remote client, in the order of
`m_keyerCWList`. Two threads call them, the keyer's for every element and
the one that watches the straight key; each calls one output after another,
and anything can happen between two calls.

The serial port is a parameter, since it is another machine on each
platform. Its `runCW` may still be under way when the next output is called,
which gives more orders than there are.
-/

namespace CwKeyer

/-! ## Calls -/

/-- The threads that call the outputs. -/
inductive Caller where
  | keyer
  | straight
deriving Repr, DecidableEq

/-- The members of `m_keyerCWList`. -/
inductive Output where
  | sound
  | serial
  | decoder
  | remote
deriving Repr, DecidableEq

namespace Output

def position : Output → Nat
  | .sound => 0
  | .serial => 1
  | .decoder => 2
  | .remote => 3

def next : Output → Option Output
  | .sound => some .serial
  | .serial => some .decoder
  | .decoder => some .remote
  | .remote => none

end Output

namespace KeyerCall

/-- The call as a signal of `Sound`. -/
def request : KeyerCall → SoundRequest
  | .runCW _ duration => .playRequested duration
  | .startRunCw => .startCwRequested
  | .stopRunCw => .stopCwRequested

/-- The call as one of `SerialComm`. -/
def serialAct : KeyerCall → SerialAct
  | .runCW item duration => .runCW item duration
  | .startRunCw => .startRunCw
  | .stopRunCw => .stopRunCw

end KeyerCall

/-- What an output reads while it is called: the clocks, and the outcomes of
its sends. -/
structure Reading where
  now : Int
  signalTime : Int
  nowMs : Nat
  ok : Sends
deriving Repr, DecidableEq

/-! ## State -/

/-- `paddleCall` and `straightCall` are the calls that the two threads are
making, with the output that is next. -/
structure Station (K σ : Type) where
  keyer : KeyerRun
  paddleCall : Option (KeyerCall × Output) := none
  straightCall : Option (KeyerCall × Output) := none
  sound : SoundPlayer K
  serial : σ
  decoder : CwDecoder
  remote : RemoteSystem

inductive StationAct (K : Type) where
  | paddle (a : KeyerAct)
  | onStraight (pressed : Bool)
  | deliver (c : Caller) (reading : Reading)
  | sound (a : PlayerAct K)
  | serial (a : SerialAct)
  | timeoutCheck (now : Int)
  | remote (a : RemoteAct)

/-- Only the outputs' callers make these. -/
def PlayerAct.isCall {K : Type} : PlayerAct K → Bool
  | .emit _ => true
  | _ => false

def SerialAct.isCall : SerialAct → Bool
  | .runCW _ _ => true
  | .startRunCw => true
  | .stopRunCw => true
  | _ => false

def RemoteAct.isCall : RemoteAct → Bool
  | .call _ _ _ => true
  | _ => false

namespace Station

variable {K σ : Type}

def call (s : Station K σ) : Caller → Option (KeyerCall × Output)
  | .keyer => s.paddleCall
  | .straight => s.straightCall

def setCall (s : Station K σ) (c : Caller) (call : Option (KeyerCall × Output)) : Station K σ :=
  match c with
  | .keyer => { s with paddleCall := call }
  | .straight => { s with straightCall := call }

/-- `onStraight` calls every output. -/
def straightKey (pressed : Bool) : KeyerCall := if pressed then .startRunCw else .stopRunCw

/-- The call that the keyer makes for the element at the head of its queue. -/
def elementCall (s : Station K σ) : Option KeyerCall :=
  s.keyer.keyer.queue.head?.bind s.keyer.keyer.playDitDah

variable [Field K] [LinearOrder K] [FloorRing K] (pi : K) (sin : K → K)
  (port : Machine σ SerialAct)

/-- One output is called. -/
def perform (s : Station K σ) (call : KeyerCall) (reading : Reading) :
    Output → Option (Station K σ)
  | .sound =>
      ((player pi sin).step s.sound (.emit call.request)).map fun sound => { s with sound := sound }
  | .serial => (port.step s.serial call.serialAct).map fun serial => { s with serial := serial }
  | .decoder =>
      match call with
      | .runCW item duration =>
          (cwDecoder.step s.decoder
            (.runCW item duration reading.now reading.signalTime)).map fun decoder =>
              { s with decoder := decoder }
      | _ => some s
  | .remote =>
      (CwKeyer.remote.step s.remote (.call call reading.nowMs reading.ok)).map fun remote =>
        { s with remote := remote }

def step (s : Station K σ) : StationAct K → Option (Station K σ)
  | .paddle a =>
      if a.byThread = true ∧ s.paddleCall.isSome = true then none
      else
        (paddleKeyer.step s.keyer a).map fun keyer =>
          { s with
            keyer := keyer
            paddleCall := if a = .start then s.elementCall.map (·, .sound) else s.paddleCall }
  | .onStraight pressed =>
      if s.straightCall.isSome then none
      else some { s with straightCall := some (straightKey pressed, .sound) }
  | .deliver c reading =>
      (s.call c).bind fun (call, output) =>
        (s.perform pi sin port call reading output).map fun s =>
          s.setCall c (output.next.map (call, ·))
  | .sound a =>
      if a.isCall then none
      else ((player pi sin).step s.sound a).map fun sound => { s with sound := sound }
  | .serial a =>
      if a.isCall then none
      else (port.step s.serial a).map fun serial => { s with serial := serial }
  | .timeoutCheck now =>
      (cwDecoder.step s.decoder (.timeoutCheck now)).map fun decoder => { s with decoder := decoder }
  | .remote a =>
      if a.isCall then none
      else (CwKeyer.remote.step s.remote a).map fun remote => { s with remote := remote }

end Station

def station {K σ : Type} [Field K] [LinearOrder K] [FloorRing K] (pi : K) (sin : K → K)
    (port : Machine σ SerialAct) : Machine (Station K σ) (StationAct K) :=
  ⟨Station.step pi sin port⟩

end CwKeyer
