import CwKeyer.Sound.CwGenerator

/-!
# `Sound`

`sound/Sound.cpp`: the parameters and the buffer of a paddle tone, and the
push mode of the straight key, in which a timer writes a chunk of the
generator to the sink every 20 ms and stops the sink after 2 s in which
the generator was stopped. The playback of a paddle tone, which ends the
push mode, is left to `CwKeyer.Sound.Player`, and with it the cache of
buffers.
-/

namespace CwKeyer

variable {K : Type}

/-! ## State -/

/-- What the timer's function has captured. -/
structure PushTimer where
  numSamples : Int
  idleTicks : Nat := 0
deriving Repr, DecidableEq

/-- A tick: the generator and the timer before it, the chunk, and how many
of its bytes the sink took. -/
structure PushTick (K : Type) where
  found : CwGenerator K
  timer : PushTimer
  chunk : List (Sample K)
  accepted : Nat

/-- The members of `Sound`, and the ticks since the sink was last started. -/
structure Sound (K : Type) where
  enabled : Bool := true
  sampleRate : Int := 44100
  attackSamples : Int := 0
  releaseSamples : Int := 0
  maxAmplitude : K
  twoPiF : K
  cwGenerator : Option (CwGenerator K) := none
  sinkDevice : Bool := false
  pushTimer : Option PushTimer := none
  ticks : List (PushTick K) := []

variable [Field K] [LinearOrder K] [FloorRing K]

/-- The bytes of a sample in the buffer. -/
def Sample.bytes (sample : Sample K) : List UInt8 :=
  let bits := (sample.value % 65536).toNat
  [UInt8.ofNat (bits % 256), UInt8.ofNat (bits / 256)]

def PushTick.bytes (tick : PushTick K) : List UInt8 := tick.chunk.flatMap Sample.bytes

theorem PushTick.length_bytes (tick : PushTick K) : tick.bytes.length = 2 * tick.chunk.length := by
  have hbytes : ∀ sample : Sample K, sample.bytes.length = 2 := fun _ => rfl
  rw [PushTick.bytes, List.length_flatMap, List.map_congr_left fun sample _ => hbytes sample,
    List.map_const', List.sum_replicate_nat, Nat.mul_comm]

namespace Sound

/-! ## Parameters -/

/-- The constructor. -/
def new : Sound K := { maxAmplitude := 0, twoPiF := 0 }

/-- What `initWithDevice` makes of its parameters once the ramps are counted
in samples. -/
def configure (pi : K) (s : Sound K) (frequency : K) (sampleRate : Int) (amplitude : K)
    (attackSamples releaseSamples : Int) : Sound K :=
  { s with
    sampleRate := sampleRate
    attackSamples := attackSamples
    releaseSamples := releaseSamples
    maxAmplitude := amplitude * qint16Max
    twoPiF := 2 * pi * frequency
    cwGenerator := some (.new pi sampleRate frequency amplitude attackSamples releaseSamples) }

/-- `none`: the format is not supported. -/
def initWithDevice (pi : K) (isFormatSupported : Int → Bool) (s : Sound K) (frequency : K)
    (sampleRate : Int) (amplitude attackTime releaseTime : K) : Option (Sound K) :=
  if isFormatSupported sampleRate then
    some (s.configure pi frequency sampleRate amplitude (truncate (sampleRate * attackTime))
      (truncate (sampleRate * releaseTime)))
  else none

/-! ## The paddle tone -/

variable (sin : K → K)

/-- The envelope of a buffer of `totalSamples`. -/
def bufferEnvelope (s : Sound K) (totalSamples i : Int) : Option ℚ :=
  if i < s.attackSamples ∧ 0 < s.attackSamples then divide i s.attackSamples
  else if i ≥ totalSamples - s.releaseSamples ∧ 0 < s.releaseSamples then
    divide (totalSamples - i) s.releaseSamples
  else some 1

def bufferSample (s : Sound K) (totalSamples i : Int) : Option Int := do
  let t ← divide i s.sampleRate
  let env ← s.bufferEnvelope totalSamples i
  some (toQint16 (env * s.maxAmplitude * sin (s.twoPiF * t)))

def bufferOf (s : Sound K) (totalSamples : Int) : Option (List Int) :=
  (List.range totalSamples.toNat).mapM fun i : Nat => s.bufferSample sin totalSamples i

/-- The product is exact here; that of two doubles can fall just short of an
integer. -/
def generateBuffer (s : Sound K) (durationSec : K) : Option (List Int) :=
  s.bufferOf sin (truncate (s.sampleRate * durationSec))

/-! ## The push mode -/

def chunkMs : Int := 20

/-- Ticks of silence before the sink is stopped. -/
def maxIdleTicks : Nat := 2000 / 20

/-- `opened` says whether the sink returns a device. -/
def onStartCwRequested (s : Sound K) (opened : Bool) : Sound K :=
  match s.enabled, s.cwGenerator with
  | true, some g =>
      let s := { s with cwGenerator := some g.startStream }
      if s.pushTimer.isSome then s
      else
        { s with
          sinkDevice := opened
          pushTimer := some { numSamples := (s.sampleRate * chunkMs).tdiv 1000 }
          ticks := [] }
  | _, _ => s

def onStopCwRequested (s : Sound K) : Sound K :=
  { s with cwGenerator := s.cwGenerator.map CwGenerator.stopStream }

/-- The end of a tick. -/
def countIdle (s : Sound K) (timer : PushTimer) (stopped : Bool) : Sound K :=
  if stopped then
    if timer.idleTicks + 1 ≥ maxIdleTicks then { s with pushTimer := none, sinkDevice := false }
    else { s with pushTimer := some { timer with idleTicks := timer.idleTicks + 1 } }
  else { s with pushTimer := some { timer with idleTicks := 0 } }

/-- The function of the timer, when the sink takes `accepted` bytes. -/
def onTimeout (s : Sound K) (timer : PushTimer) (accepted : Nat) : Option (Sound K) :=
  if s.sinkDevice then do
    let found ← s.cwGenerator
    let (chunk, g) ← found.generateChunk sin timer.numSamples
    let tick : PushTick K := ⟨found, timer, chunk, accepted⟩
    if accepted ≤ tick.bytes.length then
      some ({ s with cwGenerator := some g, ticks := s.ticks ++ [tick] }.countIdle timer g.isStopped)
    else none
  else some s

end Sound

/-! ## Steps -/

/-- The requests, and the ticks of a timer that runs. -/
inductive SoundAct where
  | onStartCwRequested (opened : Bool)
  | onStopCwRequested
  | tick (accepted : Nat)
deriving Repr, DecidableEq

def Sound.step (sin : K → K) (s : Sound K) : SoundAct → Option (Sound K)
  | .onStartCwRequested opened => some (s.onStartCwRequested opened)
  | .onStopCwRequested => some s.onStopCwRequested
  | .tick accepted => s.pushTimer.bind fun timer => s.onTimeout sin timer accepted

def sound (sin : K → K) : Machine (Sound K) SoundAct := ⟨Sound.step sin⟩

end CwKeyer
