import CwKeyer.Sound.Clicks
import CwKeyer.Sound.Sound

/-!
# The paddle tone and the straight-key tone

A buffer for a paddle element fades out before its end, a stream from its
stop on. They have the same samples when the stream is stopped as long
before the end as the release lasts (`paddle_tone_eq_straight_tone`).
-/

namespace CwKeyer

/-- Chunks of these sizes. -/
def chunksOf (sizes : List Int) : List GeneratorCall := sizes.map .generateChunk

theorem generated_append (calls calls' : List GeneratorCall) :
    generated (calls ++ calls') = generated calls + generated calls' := by
  simp [generated]

theorem not_mem_chunksOf (sizes : List Int) : .startStream ∉ chunksOf sizes := by
  simp [chunksOf]

theorem stopPoint_chunksOf {n : Nat} (sizes : List Int) (calls : List GeneratorCall) :
    stopPoint n (chunksOf sizes ++ .stopStream :: calls) = some (n + generated (chunksOf sizes)) := by
  induction sizes generalizing n with
  | nil => rfl
  | cons size sizes ih =>
      show stopPoint (n + size.toNat) (chunksOf sizes ++ .stopStream :: calls) = _
      rw [ih, Nat.add_assoc]
      rfl

/-- Two ways of making the elements of a list. -/
theorem map_mapM_eq {α β γ : Type} {f : α → Option β} {g : α → Option γ} {h : β → γ} :
    ∀ {l : List α}, (∀ a ∈ l, (f a).map h = g a) → (l.mapM f).map (List.map h) = l.mapM g
  | [], _ => rfl
  | a :: l, hfg => by
      have hrest := map_mapM_eq fun b hb => hfg b (List.mem_cons_of_mem a hb)
      rw [List.mapM_cons, List.mapM_cons, ← hrest, ← hfg a List.mem_cons_self]
      cases f a with
      | none => rfl
      | some b => cases l.mapM f <;> rfl

/-! ## The envelopes -/

section

variable {K : Type} {s : Sound K} {g : CwGenerator K} {total i : Nat}

/-- The generator has the parameters of the buffers. -/
structure Shares (s : Sound K) (g : CwGenerator K) : Prop where
  sampleRate : g.sampleRate = s.sampleRate
  twoPiF : g.twoPiF = s.twoPiF
  maxAmplitude : g.maxAmplitude = s.maxAmplitude
  attackSamples : g.attackSamples = s.attackSamples
  releaseSamples : g.releaseSamples = s.releaseSamples

/-- The ramp of the attack has reached 1 where that of the release begins. -/
theorem bufferEnvelope_eq (hshares : Shares s g) (hattack : 0 ≤ s.attackSamples)
    (hrelease : 0 ≤ s.releaseSamples) (htotal : s.attackSamples + s.releaseSamples ≤ total)
    (hi : i < total) :
    s.bufferEnvelope total i
      = some (g.envelopeAt (some (total - s.releaseSamples.toNat)) i) := by
  obtain ⟨a, ha⟩ := Int.eq_ofNat_of_zero_le hattack
  obtain ⟨r, hr⟩ := Int.eq_ofNat_of_zero_le hrelease
  have hfit : a + r ≤ total := by omega
  rw [Sound.bufferEnvelope, CwGenerator.envelopeAt, CwGenerator.attackAt, CwGenerator.releaseAt,
    hshares.attackSamples, hshares.releaseSamples, ha, hr, Int.toNat_natCast, Int.toNat_natCast,
    Option.elim_some]
  by_cases hrises : i < a
  · have hne : (a : Int) ≠ 0 := by omega
    rw [if_pos ⟨by omega, by omega⟩, divide, if_neg hne, fall_of_lt (by omega),
      min_eq_left (rise_mem a i).2, rise, if_pos hrises]
    simp
  · rw [if_neg (by omega), rise_of_ge (Nat.le_of_not_lt hrises), min_eq_right (fall_mem ..).2]
    by_cases hfalls : total - r ≤ i
    · have hne : (r : Int) ≠ 0 := by omega
      have hne' : (r : ℚ) ≠ 0 := by exact_mod_cast hne
      rw [if_pos ⟨by omega, by omega⟩, divide, if_neg hne, fall_of_between hfalls (by omega),
        Nat.cast_sub (by omega)]
      push_cast
      congr 1
      field_simp
      ring
    · rw [if_neg (by omega), fall_of_lt (by omega)]

end

variable {K : Type} [Field K] [LinearOrder K] [FloorRing K] {sin : K → K} {s : Sound K}
  {g : CwGenerator K}

theorem bufferSample_eq {total i : Nat} (hshares : Shares s g) (hattack : 0 ≤ s.attackSamples)
    (hrelease : 0 ≤ s.releaseSamples) (htotal : s.attackSamples + s.releaseSamples ≤ total)
    (hi : i < total) :
    (g.sampleAt sin (some (total - s.releaseSamples.toNat)) i).map Sample.value
      = s.bufferSample sin total i := by
  have hsounds : g.Sounds (some (total - s.releaseSamples.toNat)) i := by
    rintro _ ⟨⟩
    rw [hshares.releaseSamples]
    omega
  have henv := bufferEnvelope_eq hshares hattack hrelease htotal hi
  rw [CwGenerator.sampleAt, if_pos hsounds, CwGenerator.toneAt, Sound.bufferSample, henv,
    hshares.sampleRate, hshares.twoPiF, hshares.maxAmplitude]
  cases divide i s.sampleRate <;> rfl

/-- **Paddle and straight key sound the same.** The buffer of a paddle tone
has the samples of a stream that is stopped the release before its end,
whatever the chunks, for the parameters that `Sound` shares with its
generator. -/
theorem paddle_tone_eq_straight_tone (pi : K) (s : Sound K) (frequency amplitude : K)
    (sampleRate attackSamples releaseSamples total : Int) (hattack : 0 ≤ attackSamples)
    (hrelease : 0 ≤ releaseSamples) (htotal : attackSamples + releaseSamples ≤ total)
    (before after : List Int)
    (hbefore : (generated (chunksOf before) : Int) = total - releaseSamples)
    (hafter : (generated (chunksOf after) : Int) = releaseSamples) :
    ∃ g, (s.configure pi frequency sampleRate amplitude attackSamples releaseSamples).cwGenerator
          = some g
      ∧ (s.configure pi frequency sampleRate amplitude attackSamples releaseSamples).bufferOf sin
          total
        = (heard sin g (chunksOf before ++ .stopStream :: chunksOf after)).map
            fun stream => stream.1.map Sample.value := by
  obtain ⟨n, rfl⟩ := Int.eq_ofNat_of_zero_le (show 0 ≤ total by omega)
  let g : CwGenerator K := .new pi sampleRate frequency amplitude attackSamples releaseSamples
  let s' := s.configure pi frequency sampleRate amplitude attackSamples releaseSamples
  have hshares : Shares s' g := ⟨rfl, rfl, rfl, rfl, rfl⟩
  refine ⟨g, rfl, ?_⟩
  have hcalls : .startStream ∉ chunksOf before ++ .stopStream :: chunksOf after := by
    simp [not_mem_chunksOf]
  have hsize : generated (chunksOf before ++ .stopStream :: chunksOf after) = n := by
    have hstop : generated (.stopStream :: chunksOf after) = generated (chunksOf after) := by
      simp [generated, GeneratorCall.size]
    rw [generated_append, hstop]
    omega
  have hstop : stopPoint 0 (chunksOf before ++ .stopStream :: chunksOf after)
      = some (n - releaseSamples.toNat) := by
    rw [stopPoint_chunksOf]
    congr 1
    omega
  rw [heard_eq (g := g) hattack hrelease hcalls, hsize, hstop, Option.map_map]
  have hbuffer : s'.bufferOf sin n = (List.range n).mapM fun i : Nat => s'.bufferSample sin n i := by
    rw [Sound.bufferOf, Int.toNat_natCast]
  refine hbuffer.trans (map_mapM_eq fun i hi => ?_).symm
  exact bufferSample_eq hshares hattack hrelease htotal (List.mem_range.mp hi)

theorem paddle_tone_eq_straight_tone_dit :
    ∃ g : CwGenerator ℝ,
      (Sound.new.configure Real.pi 650 44100 (1 / 2) 220 220).cwGenerator = some g
      ∧ (Sound.new.configure Real.pi 650 44100 (1 / 2) 220 220).bufferOf Real.sin 2116
        = (heard Real.sin g (chunksOf [882, 882, 132] ++ .stopStream :: chunksOf [220])).map
            fun stream => stream.1.map Sample.value :=
  paddle_tone_eq_straight_tone Real.pi .new 650 (1 / 2) 44100 220 220 2116 (by decide) (by decide)
    (by decide) [882, 882, 132] [220] (by decide) (by decide)

end CwKeyer
