import Mathlib.Analysis.SpecialFunctions.Trigonometric.Basic
import CwKeyer.Ramps
import CwKeyer.Sound.CwGenerator

/-!
# The tone of a stream

From a `startStream` on, the samples of a `CwGenerator` depend on their
index and on the index at which the stream was first stopped, and on
nothing else: not on the chunks, nor on later stops
(`tone_depends_on_stop`). So the generator is always in the state
`CwGenerator.after` says, and every call leads from one such state to
another.
-/

namespace CwKeyer

section

variable {K : Type}

namespace CwGenerator

/-! ## The closed form -/

/-- The attack. -/
def attackAt (g : CwGenerator K) (i : Nat) : ℚ := rise g.attackSamples.toNat i

/-- The release of a stream that is stopped at `stop`, if ever. -/
def releaseAt (g : CwGenerator K) (stop : Option Nat) (i : Nat) : ℚ :=
  stop.elim 1 fun s => fall g.releaseSamples.toNat s i

def envelopeAt (g : CwGenerator K) (stop : Option Nat) (i : Nat) : ℚ :=
  min (g.attackAt i) (g.releaseAt stop i)

/-- The index is before the end of the release. -/
def Sounds (g : CwGenerator K) (stop : Option Nat) (i : Nat) : Prop :=
  ∀ s ∈ stop, i < s + g.releaseSamples.toNat

instance (g : CwGenerator K) (stop : Option Nat) (i : Nat) : Decidable (g.Sounds stop i) :=
  inferInstanceAs (Decidable (∀ s ∈ stop, _))

/-- The state of a stream after `n` samples, stopped at `stop`. -/
def after (g : CwGenerator K) (stop : Option Nat) (n : Nat) : CwGenerator K :=
  { g with
    sampleIndex := n
    stopping := stop.isSome
    stopped := stop.any fun s => s + g.releaseSamples.toNat < n
    stopSample := stop.getD 0 }

variable {g : CwGenerator K} {stop : Option Nat} {n : Nat}

theorem startStream_eq (g : CwGenerator K) : g.startStream = g.after none 0 := by
  simp [startStream, after]

theorem stopStream_after (hstop : ∀ s ∈ stop, s ≤ n) :
    (g.after stop n).stopStream = g.after (stop <|> some n) n := by
  cases stop <;> simp [stopStream, after]

theorem stopped_after {x : Nat} (h : x + g.releaseSamples.toNat < n) :
    (g.after (some x) n).stopped = true := decide_eq_true h

/-- The attack divides by `attackSamples` only while it lasts. -/
theorem attackEnvelope_after (hattack : 0 ≤ g.attackSamples) :
    (g.after stop n).attackEnvelope = some (g.attackAt n) := by
  obtain ⟨a, ha⟩ := Int.eq_ofNat_of_zero_le hattack
  show (if (n : Int) < g.attackSamples ∧ 0 < g.attackSamples then divide n g.attackSamples
    else some 1) = some (g.attackAt n)
  rw [attackAt, ha, Int.toNat_natCast, rise]
  by_cases hlt : n < a
  · have hne : (a : Int) ≠ 0 := by omega
    rw [if_pos ⟨by omega, by omega⟩, if_pos hlt, divide, if_neg hne]
    simp
  · rw [if_neg (by omega), if_neg hlt]

/-- The release divides by `releaseSamples` only before its end. -/
theorem divide_elapsed {s : Nat} (hrelease : 0 ≤ g.releaseSamples) (hle : s ≤ n)
    (hsounds : g.Sounds (some s) n) :
    ∃ fallen, divide ((n : Int) - s) g.releaseSamples = some fallen
      ∧ 1 - fallen = g.releaseAt (some s) n := by
  obtain ⟨r, hr⟩ := Int.eq_ofNat_of_zero_le hrelease
  have hlt : n < s + r := by simpa [hr] using hsounds s rfl
  have hne : (r : Int) ≠ 0 := by omega
  rw [releaseAt, hr, Int.toNat_natCast, Option.elim_some, fall_of_between hle hlt, divide,
    if_neg hne]
  exact ⟨_, rfl, by simp⟩

theorem attackAt_le_one : g.attackAt n ≤ 1 := (rise_mem _ n).2

end CwGenerator

end

/-! ## From state to state -/

variable {K : Type} [Field K] (sin : K → K)

namespace CwGenerator

/-- The tone at an index, under an envelope. -/
def toneAt (g : CwGenerator K) (env : ℚ) (i : Nat) : Option (Sample K) :=
  (divide i g.sampleRate).map fun t : ℚ =>
    .tone env (env * g.maxAmplitude * sin (g.twoPiF * t))

def sampleAt (g : CwGenerator K) (stop : Option Nat) (i : Nat) : Option (Sample K) :=
  if g.Sounds stop i then g.toneAt sin (g.envelopeAt stop i) i else some .silence

variable {sin} {g : CwGenerator K} {stop : Option Nat} {n : Nat}

theorem writeTone_after (env : ℚ) (hsounds : g.Sounds stop n) :
    (g.after stop n).writeTone sin env
      = (g.toneAt sin env n).map fun sample => (sample, g.after stop (n + 1)) := by
  have hsame : { g.after stop n with sampleIndex := (n : Int) + 1 } = g.after stop (n + 1) := by
    cases stop with
    | none => simp [after]
    | some s =>
        have hlt : n < s + g.releaseSamples.toNat := hsounds s rfl
        have hnow : decide (s + g.releaseSamples.toNat < n) = false :=
          decide_eq_false (by omega)
        have hnext : decide (s + g.releaseSamples.toNat < n + 1) = false :=
          decide_eq_false (by omega)
        simp only [after, Option.any_some, hnow, hnext, Nat.cast_add, Nat.cast_one]
  simp only [writeTone, toneAt]
  cases hdivide : divide (n : Int) g.sampleRate with
  | none => simp [after, hdivide]
  | some t => simpa [after, hdivide] using hsame

theorem generateSample_after (hattack : 0 ≤ g.attackSamples) (hrelease : 0 ≤ g.releaseSamples)
    (hstop : ∀ s ∈ stop, s ≤ n) :
    (g.after stop n).generateSample sin
      = (g.sampleAt sin stop n).map fun sample => (sample, g.after stop (n + 1)) := by
  rw [generateSample, attackEnvelope_after hattack, Option.bind_eq_bind, Option.bind_some]
  cases stop with
  | none =>
      have hsounds : g.Sounds none n := nofun
      have henv : g.envelopeAt none n = g.attackAt n := min_eq_left attackAt_le_one
      rw [sampleAt, if_pos hsounds, henv]
      exact writeTone_after _ hsounds
  | some s =>
      have hle : s ≤ n := hstop s rfl
      show (if (n : Int) - s ≥ g.releaseSamples then _ else _) = _
      by_cases hsounds : g.Sounds (some s) n
      · have hlt : n < s + g.releaseSamples.toNat := hsounds s rfl
        obtain ⟨fallen, hdivide, hfallen⟩ := divide_elapsed hrelease hle hsounds
        rw [if_neg (by omega)]
        show (divide ((n : Int) - s) g.releaseSamples).bind _ = _
        rw [hdivide, Option.bind_some, hfallen, sampleAt, if_pos hsounds]
        exact writeTone_after _ hsounds
      · have hover : s + g.releaseSamples.toNat ≤ n := by simpa [Sounds] using hsounds
        have hnext : decide (s + g.releaseSamples.toNat < n + 1) = true :=
          decide_eq_true (by omega)
        rw [if_pos (by omega), sampleAt, if_neg hsounds]
        simp only [after, Option.any_some, hnext, Option.map_some, Nat.cast_add, Nat.cast_one]

/-! ## Chunks -/

variable (sin) in
/-- The samples from index `n` on. -/
def samplesFrom (g : CwGenerator K) (stop : Option Nat) (n count : Nat) :
    Option (List (Sample K)) :=
  (List.range' n count).mapM (g.sampleAt sin stop)

theorem samplesFrom_zero : g.samplesFrom sin stop n 0 = some [] := rfl

theorem samplesFrom_succ {count : Nat} : g.samplesFrom sin stop n (count + 1)
    = (g.sampleAt sin stop n).bind fun sample =>
        (g.samplesFrom sin stop (n + 1) count).map (sample :: ·) := by
  rw [samplesFrom, List.range'_succ, List.mapM_cons]
  simp only [Option.map_eq_bind]
  rfl

theorem samplesFrom_add {j k : Nat} : g.samplesFrom sin stop n (j + k)
    = (g.samplesFrom sin stop n j).bind fun samples =>
        (g.samplesFrom sin stop (n + j) k).map (samples ++ ·) := by
  rw [samplesFrom, ← List.range'_append_1, List.mapM_append]
  simp only [Option.map_eq_bind]
  rfl

theorem samplesFrom_congr {stop' : Option Nat} {count : Nat}
    (h : ∀ i, n ≤ i → i < n + count → g.sampleAt sin stop i = g.sampleAt sin stop' i) :
    g.samplesFrom sin stop n count = g.samplesFrom sin stop' n count := by
  induction count generalizing n with
  | zero => rfl
  | succ count ih =>
      rw [samplesFrom_succ, samplesFrom_succ, h n (Nat.le_refl n) (by omega),
        ih fun i hi hi' => h i (by omega) (by omega)]

theorem getElem?_of_samplesFrom {count i : Nat} {samples : List (Sample K)}
    (h : g.samplesFrom sin stop n count = some samples) :
    samples[i]? = if i < count then g.sampleAt sin stop (n + i) else none := by
  induction count generalizing n i samples with
  | zero =>
      obtain rfl := Option.some.inj h
      rfl
  | succ count ih =>
      rw [samplesFrom_succ] at h
      obtain ⟨sample, hsample, h⟩ := Option.bind_eq_some_iff.mp h
      obtain ⟨rest, hrest, rfl⟩ := Option.map_eq_some_iff.mp h
      cases i with
      | zero => simp [hsample]
      | succ i => simp [ih hrest, Nat.add_assoc, Nat.add_comm 1]

/-- Before the stop the sample does not depend on it. -/
theorem sampleAt_before {s i : Nat} (h : i < s) :
    g.sampleAt sin (some s) i = g.sampleAt sin none i := by
  have hsounds : g.Sounds (some s) i := by
    rintro _ ⟨⟩
    omega
  have hsounds' : g.Sounds none i := nofun
  have henv : g.envelopeAt (some s) i = g.envelopeAt none i :=
    congrArg (min (g.attackAt i)) (fall_of_lt h)
  rw [sampleAt, sampleAt, if_pos hsounds, if_pos hsounds', henv]

theorem generateSamples_after (hattack : 0 ≤ g.attackSamples) (hrelease : 0 ≤ g.releaseSamples)
    (hstop : ∀ s ∈ stop, s ≤ n) (count : Nat) :
    generateSamples sin count (g.after stop n)
      = (g.samplesFrom sin stop n count).map fun samples =>
          (samples, g.after stop (n + count)) := by
  induction count generalizing n with
  | zero => rfl
  | succ count ih =>
      rw [generateSamples, generateSample_after hattack hrelease hstop, samplesFrom_succ]
      cases g.sampleAt sin stop n with
      | none => rfl
      | some sample =>
          have hrest := ih fun s hs => Nat.le_succ_of_le (hstop s hs)
          simp only [Option.map_some, Option.bind_eq_bind, Option.bind_some, hrest]
          cases g.samplesFrom sin stop (n + 1) count with
          | none => rfl
          | some rest => simp [Nat.add_assoc, Nat.add_comm 1]

end CwGenerator

/-! ## Streams -/

/-- How many samples a call generates. -/
def GeneratorCall.size : GeneratorCall → Nat
  | .generateChunk numSamples => numSamples.toNat
  | _ => 0

def generated (calls : List GeneratorCall) : Nat := (calls.map GeneratorCall.size).sum

/-- The index at which calls first stop a stream that has reached `n`. -/
def stopPoint (n : Nat) : List GeneratorCall → Option Nat
  | [] => none
  | .stopStream :: _ => some n
  | call :: calls => stopPoint (n + call.size) calls

theorem le_stopPoint {n s : Nat} {calls : List GeneratorCall} (h : s ∈ stopPoint n calls) :
    n ≤ s := by
  induction calls generalizing n with
  | nil => cases h
  | cons call calls ih =>
      cases call with
      | stopStream =>
          obtain rfl := Option.some.inj h
          exact Nat.le_refl _
      | startStream => exact ih h
      | generateChunk numSamples => exact (Nat.le_add_right ..).trans (ih h)

namespace CwStream

variable {sin} {g : CwGenerator K} {stop : Option Nat} {n : Nat} {chunks : List (List (Sample K))}

/-- A stop that is still to come does not change the samples before it. -/
theorem samplesFrom_orElse {later : Option Nat} {count : Nat}
    (hlater : ∀ s ∈ later, n + count ≤ s) :
    g.samplesFrom sin stop n count = g.samplesFrom sin (stop <|> later) n count := by
  refine CwGenerator.samplesFrom_congr fun i _ hi => ?_
  cases stop with
  | some s => rfl
  | none =>
      show _ = g.sampleAt sin later i
      cases later with
      | none => rfl
      | some s =>
          have hle : n + count ≤ s := hlater s rfl
          exact (CwGenerator.sampleAt_before (by omega)).symm

theorem run_generateChunk (hattack : 0 ≤ g.attackSamples) (hrelease : 0 ≤ g.releaseSamples)
    (hstop : ∀ s ∈ stop, s ≤ n) (numSamples : Int) (calls : List GeneratorCall) :
    (cwStream sin).run ⟨g.after stop n, chunks⟩ (.generateChunk numSamples :: calls)
      = (g.samplesFrom sin stop n numSamples.toNat).bind fun chunk =>
          (cwStream sin).run ⟨g.after stop (n + numSamples.toNat), chunks ++ [chunk]⟩ calls := by
  show ((cwStream sin).step _ _).bind _ = _
  simp only [cwStream, step, CwGenerator.generateChunk,
    CwGenerator.generateSamples_after hattack hrelease hstop]
  cases g.samplesFrom sin stop n numSamples.toNat <;> rfl

theorem run_after (hattack : 0 ≤ g.attackSamples) (hrelease : 0 ≤ g.releaseSamples)
    {calls : List GeneratorCall} (hcalls : .startStream ∉ calls) (hstop : ∀ s ∈ stop, s ≤ n) :
    ((cwStream sin).run ⟨g.after stop n, chunks⟩ calls).map
        (fun t => (t.samples, t.generator))
      = (g.samplesFrom sin (stop <|> stopPoint n calls) n (generated calls)).map fun samples =>
          (chunks.flatten ++ samples,
            g.after (stop <|> stopPoint n calls) (n + generated calls)) := by
  induction calls generalizing stop n chunks with
  | nil => simp [stopPoint, generated, CwGenerator.samplesFrom_zero, samples]
  | cons call calls ih =>
      obtain ⟨hne, hrest⟩ : .startStream ≠ call ∧ .startStream ∉ calls := by
        simpa using hcalls
      cases call with
      | startStream => exact absurd rfl hne
      | stopStream =>
          have hstop' : ∀ s ∈ stop <|> some n, s ≤ n := by
            cases stop with
            | none => simp
            | some s => simpa using hstop
          show ((cwStream sin).run ⟨(g.after stop n).stopStream, chunks⟩ calls).map _ = _
          rw [CwGenerator.stopStream_after hstop, ih hrest hstop']
          have hlast : ((stop <|> some n) <|> stopPoint n calls)
              = (stop <|> stopPoint n (.stopStream :: calls)) := by
            cases stop <;> rfl
          rw [hlast]
          simp [generated, GeneratorCall.size]
      | generateChunk numSamples =>
          let k := numSamples.toNat
          have hgenerated : generated (.generateChunk numSamples :: calls)
              = k + generated calls := by
            simp [generated, GeneratorCall.size, k]
          have hchunk : g.samplesFrom sin stop n k
              = g.samplesFrom sin (stop <|> stopPoint (n + k) calls) n k :=
            samplesFrom_orElse fun s hs => le_stopPoint hs
          rw [run_generateChunk hattack hrelease hstop, hgenerated, CwGenerator.samplesFrom_add]
          show ((g.samplesFrom sin stop n k).bind _).map _
            = (((g.samplesFrom sin (stop <|> stopPoint (n + k) calls) n k).bind _).map _)
          rw [← hchunk]
          cases g.samplesFrom sin stop n k with
          | none => rfl
          | some chunk =>
              have hstop' : ∀ s ∈ stop, s ≤ n + k := fun s hs => (hstop s hs).trans (by omega)
              rw [Option.bind_some, Option.bind_some, ih hrest hstop', Option.map_map]
              simp [Function.comp_def, Nat.add_assoc, stopPoint, GeneratorCall.size, k]

end CwStream

/-- What is heard of a stream that is started and then called so: its
samples, and what `isStopped` returns in the end. -/
def heard (g : CwGenerator K) (calls : List GeneratorCall) : Option (List (Sample K) × Bool) :=
  ((cwStream sin).run ⟨g, []⟩ (.startStream :: calls)).map fun t =>
    (t.samples, t.generator.isStopped)

variable {sin}

theorem heard_eq {g : CwGenerator K} (hattack : 0 ≤ g.attackSamples)
    (hrelease : 0 ≤ g.releaseSamples) {calls : List GeneratorCall}
    (hcalls : .startStream ∉ calls) :
    heard sin g calls
      = ((List.range (generated calls)).mapM (g.sampleAt sin (stopPoint 0 calls))).map
          fun samples => (samples, (stopPoint 0 calls).any fun s =>
            s + g.releaseSamples.toNat < generated calls) := by
  have hrun := @CwStream.run_after K _ sin g none 0 [] hattack hrelease calls hcalls nofun
  have hfirst : heard sin g calls = (((cwStream sin).run ⟨g.after none 0, []⟩ calls).map
      fun t => (t.samples, t.generator)).map fun t => (t.1, t.2.isStopped) := by
    rw [← CwGenerator.startStream_eq, Option.map_map]
    rfl
  rw [hfirst, hrun, Option.map_map, CwGenerator.samplesFrom, ← List.range_eq_range', Nat.zero_add]
  rfl

/-- **The tone depends on when it is stopped.** The samples of a stream are
those of the closed form at their indices, and it is stopped when more than
the release after the stop has been generated. So neither the chunks nor
further stops make a difference. -/
theorem tone_depends_on_stop (g : CwGenerator K) (hattack : 0 ≤ g.attackSamples)
    (hrelease : 0 ≤ g.releaseSamples) (calls : List GeneratorCall)
    (hcalls : .startStream ∉ calls) :
    heard sin g calls
        = ((List.range (generated calls)).mapM (g.sampleAt sin (stopPoint 0 calls))).map
            (fun samples => (samples, (stopPoint 0 calls).any fun s =>
              s + g.releaseSamples.toNat < generated calls))
      ∧ ∀ calls' : List GeneratorCall, .startStream ∉ calls' →
          generated calls' = generated calls → stopPoint 0 calls' = stopPoint 0 calls →
          heard sin g calls' = heard sin g calls := by
  refine ⟨heard_eq hattack hrelease hcalls, ?_⟩
  intro calls' hcalls' hsize hstop
  rw [heard_eq hattack hrelease hcalls', heard_eq hattack hrelease hcalls, hsize, hstop]

/-- A tone of 650 Hz at half amplitude, with an attack and a release of 5 ms. -/
noncomputable def sidetone : CwGenerator ℝ := .new Real.pi 44100 650 (1 / 2) 220 220

theorem tone_depends_on_stop_sidetone :
    heard Real.sin sidetone [.generateChunk 882, .stopStream, .generateChunk 882]
        = ((List.range (882 + 882)).mapM (sidetone.sampleAt Real.sin (some 882))).map
            (fun samples => (samples, true))
      ∧ ∀ calls' : List GeneratorCall, .startStream ∉ calls' →
          generated calls' = 882 + 882 → stopPoint 0 calls' = some 882 →
          heard Real.sin sidetone calls'
            = heard Real.sin sidetone [.generateChunk 882, .stopStream, .generateChunk 882] :=
  tone_depends_on_stop sidetone (show (0 : Int) ≤ 220 by decide) (show (0 : Int) ≤ 220 by decide)
    [.generateChunk 882, .stopStream, .generateChunk 882] (by decide)

end CwKeyer
