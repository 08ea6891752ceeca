import CwKeyer.Sound.Sound

/-!
# The player

All of `Sound`: the queue of requests, the sink and its streams, the buffer
of a paddle tone with its cache, and the push mode of `CwKeyer.Sound.Sound`.
Requests come from any thread and are delivered in order by the event loop,
which also runs the timer and `resetSound`.

A step that uses a pointer to something that is gone has no result.
-/

namespace CwKeyer

/-! ## The sink -/

/-- A stream reads the buffer, or takes what is written to its device. -/
inductive StreamMode where
  | pull
  | push
deriving Repr, DecidableEq

/-- A `QAudioSink`: the stream that was started last, unless it has been
stopped since, and whether its state is `StoppedState`. -/
structure AudioSink where
  stream : Option (Nat × StreamMode) := none
  stopped : Bool := true
deriving Repr, DecidableEq

namespace AudioSink

/-- `opened` says whether the audio system takes the stream. -/
def start (_ : AudioSink) (stream : Nat) (mode : StreamMode) (opened : Bool) : AudioSink :=
  ⟨some (stream, mode), !opened⟩

def stop (_ : AudioSink) : AudioSink := {}

/-- The audio system gives the stream up. -/
def lost (sink : AudioSink) : AudioSink := { sink with stopped := true }

end AudioSink

/-! ## State -/

/-- The signals that are connected by a queue. -/
inductive SoundRequest where
  | playRequested (duration : Int)
  | startCwRequested
  | stopCwRequested
deriving Repr, DecidableEq

/-- The members of `Sound`; `device` is the stream that `m_sinkDevice`
belongs to, when there is one. -/
structure SoundPlayer (K : Type) where
  sound : Sound K
  sink : Option AudioSink := none
  streams : Nat := 0
  device : Nat := 0
  activeBuffer : Option (List Int) := none
  cacheSound : List (Int × List Int) := []
  queue : List SoundRequest := []

/-- What `resetSound` finds: the parameters, whether the device supports the
format, and the setting of the switch. -/
structure SoundConfig (K : Type) where
  frequency : K
  amplitude : K
  supported : Bool
  enabled : Bool

variable {K : Type} [Field K] [LinearOrder K] [FloorRing K]

def defaultSampleRate : Int := 44100

namespace SoundPlayer

/-! ## Functions -/

def stop (p : SoundPlayer K) : SoundPlayer K :=
  { p with
    sound :=
      if p.sound.pushTimer.isSome then { p.sound with pushTimer := none, sinkDevice := false }
      else p.sound
    sink := p.sink.map fun sink => if sink.stopped then sink else sink.stop
    activeBuffer := none
    cacheSound := [] }

def setEnabled (p : SoundPlayer K) (enable : Bool) : SoundPlayer K :=
  { p with sound := { p.sound with enabled := enable } }

/-- `none`: an exception, with which the program ends. -/
def initWithDevice (pi : K) (isFormatSupported : Int → Bool) (p : SoundPlayer K) (frequency : K)
    (sampleRate : Int) (amplitude attackTime releaseTime : K) : Option (SoundPlayer K) := do
  let sound ← p.sound.initWithDevice pi isFormatSupported frequency sampleRate amplitude attackTime
    releaseTime
  some { p with sound := sound, sink := some {}, cacheSound := [] }

/-- `GuiConnector::resetSound`. -/
def resetSound (pi : K) (p : SoundPlayer K) (config : SoundConfig K) : Option (SoundPlayer K) := do
  let p ← p.stop.initWithDevice pi (fun _ => config.supported) config.frequency defaultSampleRate
    config.amplitude (5 / 1000) (5 / 1000)
  some (p.setEnabled config.enabled)

variable (sin : K → K)

/-- The buffer of a duration in milliseconds. -/
def elementBuffer (s : Sound K) (duration : Int) : Option (List Int) :=
  s.generateBuffer sin (duration / 1000)

/-- The cache with the buffer of a duration. -/
def cached (p : SoundPlayer K) (duration : Int) : Option (List (Int × List Int)) :=
  if (p.cacheSound.lookup duration).isSome then some p.cacheSound
  else (elementBuffer sin p.sound duration).map fun samples =>
    (duration, samples) :: p.cacheSound

/-- The end of `onPlayRequested`. -/
def playBuffer (p : SoundPlayer K) (duration : Int) (opened : Bool) : Option (SoundPlayer K) := do
  let cacheSound ← p.cached sin duration
  let samples ← cacheSound.lookup duration
  let sink ← p.sink
  some { p with
    cacheSound := cacheSound
    activeBuffer := some samples
    sink := some (sink.start p.streams .pull opened)
    streams := p.streams + 1 }

def onPlayRequested (p : SoundPlayer K) (duration : Int) (opened : Bool) :
    Option (SoundPlayer K) :=
  if p.sound.enabled then p.stop.playBuffer sin duration opened else some p

/-- The end of `onStartCwRequested`. -/
def startPush (p : SoundPlayer K) (opened : Bool) : Option (SoundPlayer K) := do
  let sink ← p.sink
  some { p with
    sound := p.sound.onStartCwRequested opened
    sink := some (sink.start p.streams .push opened)
    streams := p.streams + 1
    device := p.streams }

def onStartCwRequested (p : SoundPlayer K) (opened : Bool) : Option (SoundPlayer K) :=
  if p.sound.enabled ∧ p.sound.cwGenerator.isSome then
    if p.sound.pushTimer.isSome then some { p with sound := p.sound.onStartCwRequested opened }
    else p.stop.startPush opened
  else some p

def onStopCwRequested (p : SoundPlayer K) : SoundPlayer K :=
  { p with sound := p.sound.onStopCwRequested }

/-- The function of the timer. -/
def onTimeout (p : SoundPlayer K) (timer : PushTimer) (accepted : Nat) :
    Option (SoundPlayer K) :=
  if p.sound.sinkDevice then do
    let sink ← p.sink
    if sink.stream = some (p.device, .push) then do
      let sound ← p.sound.onTimeout sin timer accepted
      some { p with
        sound := sound
        sink := some (if sound.pushTimer.isSome then sink else sink.stop) }
    else none
  else some p

def handle (p : SoundPlayer K) (opened : Bool) : SoundRequest → Option (SoundPlayer K)
  | .playRequested duration => p.onPlayRequested sin duration opened
  | .startCwRequested => p.onStartCwRequested opened
  | .stopCwRequested => some p.onStopCwRequested

/-- The audio system reads the buffer of a stream in pull mode. -/
def read (p : SoundPlayer K) : Option (SoundPlayer K) :=
  if p.sink.any fun sink => !sink.stopped && sink.stream.any (·.2 = .pull) then
    if p.activeBuffer.isSome then some p else none
  else some p

end SoundPlayer

/-- The parameters that `resetSound` gives a sound. -/
def SoundConfig.tune (pi : K) (config : SoundConfig K) (s : Sound K) : Sound K :=
  s.configure pi config.frequency defaultSampleRate config.amplitude
    (truncate ((defaultSampleRate : K) * (5 / 1000)))
    (truncate ((defaultSampleRate : K) * (5 / 1000)))

/-! ## Steps -/

/-- A call of `runCW`, `startRunCw` or `stopRunCw`, the delivery of the
oldest request, a tick, a read, and what the user and the audio system do. -/
inductive PlayerAct (K : Type) where
  | emit (request : SoundRequest)
  | deliver (opened : Bool)
  | tick (accepted : Nat)
  | read
  | setEnabled (enable : Bool)
  | resetSound (config : SoundConfig K)
  | lost

def SoundPlayer.step (pi : K) (sin : K → K) (p : SoundPlayer K) :
    PlayerAct K → Option (SoundPlayer K)
  | .emit request => some { p with queue := p.queue ++ [request] }
  | .deliver opened =>
      match p.queue with
      | [] => none
      | request :: queue => SoundPlayer.handle sin { p with queue := queue } opened request
  | .tick accepted => p.sound.pushTimer.bind fun timer => p.onTimeout sin timer accepted
  | .read => p.read
  | .setEnabled enable => some (p.setEnabled enable)
  | .resetSound config => p.resetSound pi config
  | .lost => some { p with sink := p.sink.map AudioSink.lost }

def player (pi : K) (sin : K → K) : Machine (SoundPlayer K) (PlayerAct K) :=
  ⟨SoundPlayer.step pi sin⟩

end CwKeyer
