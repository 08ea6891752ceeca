import Mathlib.Data.Rat.Cast.Order
import CwKeyer.Sound.Tone

/-!
# Clicks

The envelope of a stream is the minimum of two ramps, whatever the stop
cuts off: it has no larger step than they have, so there is no click at
the stop, at either end of a ramp or between chunks. With an amplitude
and an oscillator within 1, no level reaches the bounds of the clamp.
-/

namespace CwKeyer

namespace CwGenerator

/-! ## Division -/

section

variable {K : Type} [Field K] {sin : K → K} {g : CwGenerator K} {stop : Option Nat} {n : Nat}

theorem exists_divide (x : Int) {y : Int} (h : y ≠ 0) : ∃ q, divide x y = some q :=
  ⟨_, if_neg h⟩

theorem exists_sampleAt (hrate : g.sampleRate ≠ 0) :
    ∃ sample, g.sampleAt sin stop n = some sample := by
  rw [sampleAt]
  split
  · obtain ⟨t, ht⟩ := exists_divide n hrate
    exact ⟨_, by rw [toneAt, ht, Option.map_some]⟩
  · exact ⟨.silence, rfl⟩

theorem exists_samplesFrom (hrate : g.sampleRate ≠ 0) (count : Nat) :
    ∃ samples, g.samplesFrom sin stop n count = some samples := by
  induction count generalizing n with
  | zero => exact ⟨[], rfl⟩
  | succ count ih =>
      obtain ⟨sample, hsample⟩ := @exists_sampleAt K _ sin g stop n hrate
      obtain ⟨rest, hrest⟩ := ih (n := n + 1)
      exact ⟨sample :: rest, by rw [samplesFrom_succ, hsample, Option.bind_some, hrest]; rfl⟩

end

end CwGenerator

namespace CwStream

variable {K : Type} [Field K] {sin : K → K} {g : CwGenerator K} {stop : Option Nat} {n : Nat}
  {chunks : List (List (Sample K))}

/-- Any call leads from one state of a stream to another. -/
theorem exists_step (hattack : 0 ≤ g.attackSamples) (hrelease : 0 ≤ g.releaseSamples)
    (hrate : g.sampleRate ≠ 0) (hstop : ∀ s ∈ stop, s ≤ n) (call : GeneratorCall) :
    ∃ stop' n' chunks', (∀ s ∈ stop', s ≤ n')
      ∧ (cwStream sin).step ⟨g.after stop n, chunks⟩ call = some ⟨g.after stop' n', chunks'⟩ := by
  cases call with
  | startStream =>
      refine ⟨none, 0, chunks, nofun, ?_⟩
      show some (⟨(g.after stop n).startStream, chunks⟩ : CwStream K) = _
      rw [CwGenerator.startStream_eq]
      rfl
  | stopStream =>
      refine ⟨stop <|> some n, n, chunks, ?_, ?_⟩
      · cases stop with
        | none => simp
        | some s => simpa using hstop
      · show some (⟨(g.after stop n).stopStream, chunks⟩ : CwStream K) = _
        rw [CwGenerator.stopStream_after hstop]
  | generateChunk numSamples =>
      obtain ⟨chunk, hchunk⟩ := @CwGenerator.exists_samplesFrom K _ sin g stop n hrate
        numSamples.toNat
      refine ⟨stop, n + numSamples.toNat, chunks ++ [chunk], ?_, ?_⟩
      · intro s hs
        exact (hstop s hs).trans (Nat.le_add_right ..)
      · simp only [cwStream, step, CwGenerator.generateChunk,
          CwGenerator.generateSamples_after hattack hrelease hstop, hchunk]
        rfl

theorem exists_run (hattack : 0 ≤ g.attackSamples) (hrelease : 0 ≤ g.releaseSamples)
    (hrate : g.sampleRate ≠ 0) (hstop : ∀ s ∈ stop, s ≤ n) (calls : List GeneratorCall) :
    ∃ t, (cwStream sin).run ⟨g.after stop n, chunks⟩ calls = some t := by
  induction calls generalizing stop n chunks with
  | nil => exact ⟨_, rfl⟩
  | cons call calls ih =>
      obtain ⟨stop', n', chunks', hstop', hstep⟩ :=
        @exists_step K _ sin g stop n chunks hattack hrelease hrate hstop call
      obtain ⟨t, ht⟩ := @ih stop' n' chunks' hstop'
      exact ⟨t, Machine.run_cons.mpr ⟨_, hstep, ht⟩⟩

end CwStream

/-! ## The envelope -/

namespace CwGenerator

section

variable {K : Type} {g : CwGenerator K} {stop : Option Nat} {n : Nat}

theorem releaseAt_mem (i : Nat) : 0 ≤ g.releaseAt stop i ∧ g.releaseAt stop i ≤ 1 := by
  cases stop with
  | none => exact ⟨zero_le_one, le_refl 1⟩
  | some s => exact fall_mem _ s i

theorem envelopeAt_mem (i : Nat) : 0 ≤ g.envelopeAt stop i ∧ g.envelopeAt stop i ≤ 1 :=
  ⟨le_min (rise_mem _ i).1 (releaseAt_mem i).1, (min_le_left ..).trans (rise_mem _ i).2⟩

theorem envelopeAt_zero (hattack : 0 < g.attackSamples) : g.envelopeAt stop 0 = 0 := by
  have hrise : g.attackAt 0 = 0 := rise_zero (by omega)
  rw [envelopeAt, hrise]
  exact min_eq_left (releaseAt_mem 0).1

/-- After the release. -/
theorem envelopeAt_of_not_sounds {i : Nat} (h : ¬g.Sounds stop i) : g.envelopeAt stop i = 0 := by
  cases stop with
  | none => exact absurd nofun h
  | some s =>
      have hle : s + g.releaseSamples.toNat ≤ i := by simpa [Sounds] using h
      have hfall : g.releaseAt (some s) i = 0 := fall_of_ge hle
      rw [envelopeAt, hfall]
      exact min_eq_right (rise_mem _ i).1

theorem slew_envelopeAt (hattack : 0 < g.attackSamples) (hrelease : 0 < g.releaseSamples) :
    Slew (max (1 / g.attackSamples : ℚ) (1 / g.releaseSamples)) (g.envelopeAt stop) := by
  have hrise : Slew (1 / g.attackSamples : ℚ) g.attackAt := by
    have hcast : (g.attackSamples : ℚ) = g.attackSamples.toNat := by
      exact_mod_cast (Int.toNat_of_nonneg hattack.le).symm
    rw [hcast]
    exact slew_rise (by omega)
  have hfall : Slew (1 / g.releaseSamples : ℚ) (g.releaseAt stop) := by
    have hcast : (g.releaseSamples : ℚ) = g.releaseSamples.toNat := by
      exact_mod_cast (Int.toNat_of_nonneg hrelease.le).symm
    rw [hcast]
    cases stop with
    | none =>
        intro i
        show |(1 - 1 : ℚ)| ≤ _
        rw [sub_self, abs_zero]
        positivity
    | some s => exact slew_fall (by omega) s
  exact hrise.min hfall

end

section

variable {K : Type} [Field K] {sin : K → K} {g : CwGenerator K} {stop : Option Nat} {n : Nat}

theorem env_of_sampleAt {i : Nat} {sample : Sample K} (h : g.sampleAt sin stop i = some sample) :
    sample.env = g.envelopeAt stop i := by
  rw [sampleAt] at h
  split at h
  · obtain ⟨t, -, rfl⟩ := Option.map_eq_some_iff.mp h
    rfl
  case isFalse hsilent =>
    obtain rfl := Option.some.inj h
    exact (envelopeAt_of_not_sounds hsilent).symm

/-- The level is the envelope times the oscillator. -/
theorem level_of_sampleAt {i : Nat} {env : ℚ} {level : K}
    (h : g.sampleAt sin stop i = some (.tone env level)) :
    env = g.envelopeAt stop i ∧ ∃ x, level = env * g.maxAmplitude * sin x := by
  rw [sampleAt] at h
  split at h
  · obtain ⟨t, -, heq⟩ := Option.map_eq_some_iff.mp h
    obtain ⟨rfl, rfl⟩ := Sample.tone.inj heq
    exact ⟨rfl, _, rfl⟩
  · cases h

end

/-! ## The clamp -/

variable {K : Type} [Field K] [LinearOrder K] [IsStrictOrderedRing K]

theorem qBound_of_abs_le {level : K} (h : |level| ≤ 32767) :
    qBound (-32768) level 32767 = level := by
  obtain ⟨hlow, hhigh⟩ := abs_le.mp h
  have hneg : (-32768 : K) ≤ -32767 := by norm_num
  rw [qBound, min_eq_right hhigh, max_eq_right (hneg.trans hlow)]

theorem abs_level_le {env : ℚ} {amplitude x : K} (henv : 0 ≤ env ∧ env ≤ 1)
    (hamplitude : 0 ≤ amplitude ∧ amplitude ≤ 1) (hx : |x| ≤ 1) :
    |env * (amplitude * qint16Max) * x| ≤ 32767 := by
  have hmax : (qint16Max : K) = 32767 := by norm_num [qint16Max]
  have henv' : |(env : K)| ≤ 1 := by
    rw [abs_of_nonneg (by exact_mod_cast henv.1)]
    exact_mod_cast henv.2
  have hamplitude' : |amplitude| ≤ 1 := by
    rw [abs_of_nonneg hamplitude.1]
    exact hamplitude.2
  rw [abs_mul, abs_mul, abs_mul, hmax, abs_of_nonneg (show (0 : K) ≤ 32767 by norm_num)]
  calc |(env : K)| * (|amplitude| * 32767) * |x|
      ≤ 1 * (1 * 32767) * 1 := by gcongr
    _ = 32767 := by ring

end CwGenerator

/-! ## Streams -/

/-- The envelope of a stream that is stopped at `stop`, if ever, sample by
sample. -/
structure ClickFree {K : Type} (g : CwGenerator K) (stop : Option Nat) (env : List ℚ) : Prop where
  mem : ∀ e ∈ env, 0 ≤ e ∧ e ≤ 1
  starts : ∀ e ∈ env[0]?, e = 0
  ends : ∀ s ∈ stop, ∀ i, s + g.releaseSamples.toNat ≤ i → ∀ e ∈ env[i]?, e = 0
  slew : ∀ i, ∀ x ∈ env[i]?, ∀ y ∈ env[i + 1]?,
    |y - x| ≤ max (1 / g.attackSamples : ℚ) (1 / g.releaseSamples)

section

variable {K : Type} [Field K] {sin : K → K}

/-- The samples of a stream, index by index. -/
theorem getElem?_of_run {g : CwGenerator K} (hattack : 0 ≤ g.attackSamples)
    (hrelease : 0 ≤ g.releaseSamples) {calls : List GeneratorCall}
    (hcalls : .startStream ∉ calls) {t : CwStream K}
    (hrun : (cwStream sin).run ⟨g, []⟩ (.startStream :: calls) = some t) (i : Nat) :
    t.samples[i]? = if i < generated calls then g.sampleAt sin (stopPoint 0 calls) i else none := by
  have hheard := @heard_eq K _ sin g hattack hrelease calls hcalls
  rw [heard, hrun, List.range_eq_range'] at hheard
  obtain ⟨samples, hsamples, heq⟩ := Option.map_eq_some_iff.mp hheard.symm
  obtain rfl : samples = t.samples := congrArg Prod.fst heq
  have hget := CwGenerator.getElem?_of_samplesFrom (i := i) hsamples
  rwa [Nat.zero_add] at hget

/-- Every sample of a stream has an index. -/
theorem sampleAt_of_mem {g : CwGenerator K} (hattack : 0 ≤ g.attackSamples)
    (hrelease : 0 ≤ g.releaseSamples) {calls : List GeneratorCall}
    (hcalls : .startStream ∉ calls) {t : CwStream K}
    (hrun : (cwStream sin).run ⟨g, []⟩ (.startStream :: calls) = some t) {i : Nat}
    {sample : Sample K} (h : t.samples[i]? = some sample) :
    g.sampleAt sin (stopPoint 0 calls) i = some sample := by
  rw [getElem?_of_run hattack hrelease hcalls hrun] at h
  exact (Option.ite_none_right_eq_some.mp h).2

theorem clickFree_of_run {g : CwGenerator K} (hattack : 0 < g.attackSamples)
    (hrelease : 0 < g.releaseSamples) {calls : List GeneratorCall}
    (hcalls : .startStream ∉ calls) {t : CwStream K}
    (hrun : (cwStream sin).run ⟨g, []⟩ (.startStream :: calls) = some t) :
    ClickFree g (stopPoint 0 calls) (t.samples.map Sample.env) := by
  have henv : ∀ i, ∀ e ∈ (t.samples.map Sample.env)[i]?,
      e = g.envelopeAt (stopPoint 0 calls) i := by
    intro i e he
    rw [List.getElem?_map] at he
    obtain ⟨sample, hsample, rfl⟩ := Option.map_eq_some_iff.mp he
    exact CwGenerator.env_of_sampleAt (sampleAt_of_mem hattack.le hrelease.le hcalls hrun hsample)
  refine ⟨?_, ?_, ?_, ?_⟩
  · intro e he
    obtain ⟨i, hi⟩ := List.mem_iff_getElem?.mp he
    rw [henv i e hi]
    exact CwGenerator.envelopeAt_mem i
  · intro e he
    rw [henv 0 e he]
    exact CwGenerator.envelopeAt_zero hattack
  · intro s hs i hi e he
    rw [henv i e he]
    exact CwGenerator.envelopeAt_of_not_sounds fun hsounds => Nat.not_lt.mpr hi (hsounds s hs)
  · intro i x hx y hy
    rw [henv i x hx, henv (i + 1) y hy]
    exact CwGenerator.slew_envelopeAt hattack hrelease i

end

variable {K : Type} [Field K] [LinearOrder K] [IsStrictOrderedRing K] {sin : K → K}

/-- **No clicks, no clipping.** No run of a generator divides by zero, and
the envelope of every stream with ramps is free of clicks; with an
amplitude and an oscillator within 1 the clamp changes no level. -/
theorem tone_click_free (pi : K) (sampleRate : Int) (frequency amplitude : K)
    (attackSamples releaseSamples : Int) (hattack : 0 ≤ attackSamples)
    (hrelease : 0 ≤ releaseSamples) (g : CwGenerator K)
    (hg : g = .new pi sampleRate frequency amplitude attackSamples releaseSamples) :
    (sampleRate ≠ 0 → ∀ calls, ∃ t, (cwStream sin).run ⟨g, []⟩ calls = some t)
      ∧ (0 < attackSamples → 0 < releaseSamples → ∀ calls t, .startStream ∉ calls →
          (cwStream sin).run ⟨g, []⟩ (.startStream :: calls) = some t →
          ClickFree g (stopPoint 0 calls) (t.samples.map Sample.env)
            ∧ (0 ≤ amplitude → amplitude ≤ 1 → (∀ x, |sin x| ≤ 1) →
                ∀ env level, .tone env level ∈ t.samples →
                  qBound (-32768) level 32767 = level)) := by
  subst hg
  refine ⟨?_, fun hattack' hrelease' calls t hcalls hrun => ⟨?_, ?_⟩⟩
  · intro hrate calls
    exact @CwStream.exists_run K _ sin
      (.new pi sampleRate frequency amplitude attackSamples releaseSamples) none 0 [] hattack
      hrelease hrate nofun calls
  · exact clickFree_of_run hattack' hrelease' hcalls hrun
  · intro hlow hhigh hsin env level hmem
    obtain ⟨i, hi⟩ := List.mem_iff_getElem?.mp hmem
    have hsample := sampleAt_of_mem hattack hrelease hcalls hrun hi
    obtain ⟨rfl, x, rfl⟩ := CwGenerator.level_of_sampleAt hsample
    exact CwGenerator.qBound_of_abs_le
      (CwGenerator.abs_level_le (CwGenerator.envelopeAt_mem i) ⟨hlow, hhigh⟩ (hsin x))

theorem tone_click_free_sidetone :
    ∃ t, (cwStream Real.sin).run ⟨sidetone, []⟩
        [.startStream, .generateChunk 882, .stopStream, .generateChunk 882] = some t
      ∧ ClickFree sidetone (some 882) (t.samples.map Sample.env)
      ∧ ∀ env level, .tone env level ∈ t.samples → qBound (-32768) level 32767 = level := by
  obtain ⟨hrun, hstream⟩ := @tone_click_free ℝ _ _ _ Real.sin Real.pi 44100 650 (1 / 2) 220 220
    (by decide) (by decide) sidetone rfl
  obtain ⟨t, ht⟩ := hrun (by decide)
    [.startStream, .generateChunk 882, .stopStream, .generateChunk 882]
  obtain ⟨hfree, hunclipped⟩ := hstream (by decide) (by decide)
    [.generateChunk 882, .stopStream, .generateChunk 882] t (by decide) ht
  exact ⟨t, ht, hfree, hunclipped (by norm_num) (by norm_num) Real.abs_sin_le_one⟩

end CwKeyer
