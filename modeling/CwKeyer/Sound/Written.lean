import Mathlib.Analysis.SpecialFunctions.Trigonometric.Bounds
import CwKeyer.Writes
import CwKeyer.Sound.Silence

/-!
# What the sink takes

A tick does not look at how many bytes the sink has taken, and the
generator goes on from the end of the chunk. So the sink has a contiguous
part of the stream exactly if it takes nothing any more once it has left
a part of a chunk (`accepts_in_order_iff`).
-/

namespace CwKeyer

namespace CwGenerator

variable {K : Type} [Field K] {sin : K → K} {g g' : CwGenerator K}

theorem length_of_generateSamples {n : Nat} {samples : List (Sample K)}
    (h : generateSamples sin n g = some (samples, g')) : samples.length = n := by
  induction n generalizing g samples with
  | zero =>
      obtain ⟨rfl, -⟩ := Prod.mk.inj (Option.some.inj h)
      rfl
  | succ n ih =>
      obtain ⟨⟨sample, g₁⟩, -, h⟩ := Option.bind_eq_some_iff.mp h
      obtain ⟨⟨rest, g₂⟩, hrest, h⟩ := Option.bind_eq_some_iff.mp h
      obtain ⟨rfl, rfl⟩ := Prod.mk.inj (Option.some.inj h)
      rw [List.length_cons, ih hrest]

end CwGenerator

section

variable {K : Type} {s : Sound K}

theorem ticks_countIdle (timer : PushTimer) (stopped : Bool) :
    (s.countIdle timer stopped).ticks = s.ticks := by
  unfold Sound.countIdle
  split
  · split <;> rfl
  · rfl

theorem ticks_start (opened : Bool) :
    (s.onStartCwRequested opened).ticks = s.ticks ∨ (s.onStartCwRequested opened).ticks = [] := by
  unfold Sound.onStartCwRequested
  split
  · dsimp only
    split
    · exact .inl rfl
    · exact .inr rfl
  · exact .inl rfl

end

variable {K : Type} [Field K] [LinearOrder K] [FloorRing K]

def PushTick.write (tick : PushTick K) : Write UInt8 := ⟨tick.bytes, tick.accepted⟩

/-- The writes since the sink was last started. -/
def Sound.writes (s : Sound K) : List (Write UInt8) := s.ticks.map PushTick.write

/-! ## The property and its condition -/

/-- The sink has a contiguous part of the stream, from its beginning. -/
def Sound.AcceptsInOrder (_ : Sound K) (_ : SoundAct) (s' : Sound K) : Prop := InOrder s'.writes

/-- The sink takes bytes only if it has taken all those of the ticks before. -/
def Sound.TakesWhenWhole (s : Sound K) (a : SoundAct) (_ : Sound K) : Prop :=
  match a with
  | .tick accepted => s.sinkDevice = true → accepted = 0 ∨
      ∀ tick ∈ s.ticks, 2 * tick.timer.numSamples.toNat ≤ tick.accepted
  | _ => True

/-! ## Steps -/

variable {sin : K → K} {s s' : Sound K}

structure WriteInv (s : Sound K) : Prop where
  stops : StopsWhenShort s.writes
  length : ∀ tick ∈ s.ticks, tick.bytes.length = 2 * tick.timer.numSamples.toNat

/-- A tick is a write, if there is a sink. -/
theorem ticks_of_tick {accepted : Nat} (h : (sound sin).step s (.tick accepted) = some s') :
    (s.sinkDevice = false ∧ s' = s) ∨ (s.sinkDevice = true ∧ ∃ tick, tick.accepted = accepted
      ∧ accepted ≤ tick.bytes.length ∧ tick.bytes.length = 2 * tick.timer.numSamples.toNat
      ∧ s'.ticks = s.ticks ++ [tick]) := by
  obtain ⟨timer, -, h⟩ := Option.bind_eq_some_iff.mp h
  rw [Sound.onTimeout] at h
  cases hsink : s.sinkDevice with
  | false =>
      rw [hsink, if_neg Bool.false_ne_true] at h
      exact .inl ⟨rfl, (Option.some.inj h).symm⟩
  | true =>
      rw [hsink, if_pos rfl] at h
      obtain ⟨found, -, h⟩ := Option.bind_eq_some_iff.mp h
      obtain ⟨⟨chunk, g⟩, hchunk, h⟩ := Option.bind_eq_some_iff.mp h
      obtain ⟨haccepted, h⟩ := Option.ite_none_right_eq_some.mp h
      refine .inr ⟨rfl, ⟨found, timer, chunk, accepted⟩, rfl, haccepted, ?_, ?_⟩
      · rw [PushTick.length_bytes, CwGenerator.length_of_generateSamples hchunk]
      · rw [← Option.some.inj h, ticks_countIdle]

theorem writeInv_of_ticks (h : WriteInv s) (hticks : s'.ticks = s.ticks ∨ s'.ticks = []) :
    WriteInv s' := by
  rcases hticks with hsame | hnone
  · exact ⟨by rw [Sound.writes, hsame]; exact h.stops, by rw [hsame]; exact h.length⟩
  · exact ⟨by rw [Sound.writes, hnone]; exact .nil, by rw [hnone]; nofun⟩

theorem write_nothing_iff {tick : PushTick K} (h : tick.accepted ≤ tick.bytes.length) :
    tick.write.Nothing ↔ tick.accepted = 0 := by
  rw [Write.Nothing, List.take_eq_nil_iff]
  show tick.accepted = 0 ∨ _ ↔ _
  refine or_iff_left_of_imp fun hnil => ?_
  have hnone : tick.bytes = [] := hnil
  simpa [hnone] using h

theorem stops_snoc_iff (h : WriteInv s) {tick : PushTick K}
    (haccepted : tick.accepted ≤ tick.bytes.length) (hticks : s'.ticks = s.ticks ++ [tick]) :
    StopsWhenShort s'.writes ↔ tick.accepted = 0 ∨
      ∀ tick ∈ s.ticks, 2 * tick.timer.numSamples.toNat ≤ tick.accepted := by
  have hwrites : s'.writes = s.writes ++ [tick.write] := by
    rw [Sound.writes, hticks, List.map_append, List.map_singleton, Sound.writes]
  have hwhole : (∀ u ∈ s.writes, u.Whole ∨ tick.write.Nothing) ↔
      ∀ u ∈ s.ticks, tick.accepted = 0 ∨ 2 * u.timer.numSamples.toNat ≤ u.accepted := by
    rw [Sound.writes, List.forall_mem_map]
    refine forall₂_congr fun u hu => ?_
    rw [write_nothing_iff haccepted, or_comm, Write.Whole, PushTick.write, h.length u hu]
  rw [hwrites, stopsWhenShort_snoc, hwhole, and_iff_right h.stops]
  exact ⟨fun hall => or_iff_not_imp_left.mpr fun hne u hu => (hall u hu).resolve_left hne,
    fun hor u hu => hor.imp_right fun hall => hall u hu⟩

theorem writeInv_step {a : SoundAct} (h : WriteInv s) (hstep : (sound sin).step s a = some s') :
    (s.AcceptsInOrder a s' ↔ s.TakesWhenWhole a s') ∧ (s.TakesWhenWhole a s' → WriteInv s') := by
  have hquiet (hticks : s'.ticks = s.ticks ∨ s'.ticks = []) (htakes : s.TakesWhenWhole a s') :
      (s.AcceptsInOrder a s' ↔ s.TakesWhenWhole a s')
        ∧ (s.TakesWhenWhole a s' → WriteInv s') := by
    have hinv := writeInv_of_ticks h hticks
    exact ⟨iff_of_true (inOrder_iff.mpr hinv.stops) htakes, fun _ => hinv⟩
  cases a with
  | onStartCwRequested opened =>
      obtain rfl := Option.some.inj hstep
      exact hquiet (ticks_start opened) trivial
  | onStopCwRequested =>
      obtain rfl := Option.some.inj hstep
      exact hquiet (.inl rfl) trivial
  | tick accepted =>
      rcases ticks_of_tick hstep with
        ⟨hnosink, rfl⟩ | ⟨hsink, tick, rfl, haccepted, hlength, hticks⟩
      · refine hquiet (.inl rfl) fun hsink => ?_
        rw [hnosink] at hsink
        cases hsink
      · have hstops := stops_snoc_iff h haccepted hticks
        have htakes : s.TakesWhenWhole (.tick tick.accepted) s' ↔ tick.accepted = 0 ∨
            ∀ tick ∈ s.ticks, 2 * tick.timer.numSamples.toNat ≤ tick.accepted :=
          forall_prop_of_true hsink
        refine ⟨inOrder_iff.trans (hstops.trans htakes.symm), fun hwhole => ⟨?_, ?_⟩⟩
        · exact hstops.mpr (htakes.mp hwhole)
        · rw [hticks, List.forall_mem_append]
          exact ⟨h.length, List.forall_mem_singleton.mpr hlength⟩

/-- **Audio in order.** Over any interleaving of requests and ticks, and
however many bytes the sink takes, it always has a contiguous part of what
was generated since its start exactly in the runs in which it takes nothing
after a write it took only in part. -/
theorem accepts_in_order_iff (hticks : s.ticks = []) (as : List SoundAct) :
    (sound sin).Along Sound.AcceptsInOrder s as ↔ (sound sin).Along Sound.TakesWhenWhole s as := by
  refine Machine.along_congr (I := WriteInv) ?_ ?_ ⟨?_, ?_⟩
  · exact fun s a s' h hstep => (writeInv_step h hstep).1
  · exact fun s a s' h hwhole hstep => (writeInv_step h hstep).2 hwhole
  · rw [Sound.writes, hticks]
    exact .nil
  · rw [hticks]
    nofun

/-- The sink takes a whole chunk, then a part of one, and then nothing. -/
def sinkFills : List SoundAct :=
  [.onStartCwRequested true, .tick 1764, .tick 1000, .onStopCwRequested, .tick 0]

theorem accepts_in_order_sidetone :
    ∃ t : Sound ℝ, (sound Real.sin).run (Sound.new.configure Real.pi 650 44100 (1 / 2) 220 220)
        sinkFills = some t
      ∧ t.ticks.map PushTick.accepted = [1764, 1000, 0]
      ∧ (sound Real.sin).Along Sound.AcceptsInOrder
        (Sound.new.configure Real.pi 650 44100 (1 / 2) 220 220) sinkFills := by
  let s : Sound ℝ := Sound.new.configure Real.pi 650 44100 (1 / 2) 220 220
  have hs : (s.onStartCwRequested true).Pushing sidetone none 0 ⟨882, 0⟩ :=
    ⟨rfl, nofun, rfl, rfl⟩
  obtain ⟨chunk, t, -, hfirst, -, ht, hticks⟩ := @Sound.Pushing.exists_tick ℝ _ _ _ Real.sin
    sidetone _ none 0 _ 1764 hs sidetone_proper (by decide) nofun
  obtain ⟨chunk', u, -, hsecond, -, hu, hticks'⟩ := @Sound.Pushing.exists_tick ℝ _ _ _ Real.sin
    sidetone t none (0 + 882) ⟨882, 0⟩ 1000 ht sidetone_proper (by decide) nofun
  obtain ⟨chunk'', v, -, hthird, -, -, hticks''⟩ := @Sound.Pushing.exists_tick ℝ _ _ _ Real.sin
    sidetone _ (some (0 + 882 + 882)) (0 + 882 + 882) ⟨882, 0⟩ 0 hu.stopRequested sidetone_proper
    (by decide) fun _ => by decide
  have hone : t.ticks = [⟨sidetone.after none 0, ⟨882, 0⟩, chunk, 1764⟩] := hticks
  have hwhole : ∀ tick ∈ t.ticks, 2 * tick.timer.numSamples.toNat ≤ tick.accepted := by
    rw [hone]
    exact List.forall_mem_singleton.mpr (Nat.le_refl 1764)
  have hrun : (sound Real.sin).run s sinkFills = some v
      ∧ (sound Real.sin).Along Sound.TakesWhenWhole s sinkFills := by
    refine Machine.run_along_cons rfl trivial ?_
    refine Machine.run_along_cons hfirst (fun _ => .inr nofun) ?_
    refine Machine.run_along_cons hsecond (fun _ => .inr hwhole) ?_
    refine Machine.run_along_cons rfl trivial ?_
    exact Machine.run_along_cons hthird (fun _ => .inl rfl) ⟨rfl, trivial⟩
  refine ⟨v, hrun.1, ?_, (accepts_in_order_iff rfl _).mpr hrun.2⟩
  have hlast : v.ticks = t.ticks ++ [_] ++ [_] := hticks''.trans (congrArg (· ++ [_]) hticks')
  rw [hlast, hone]
  rfl

/-! ## A chunk that is lost -/

theorem toQint16_mem [IsStrictOrderedRing K] {level : K} (h : 1 ≤ level) :
    0 < toQint16 level ∧ toQint16 level ≤ 32767 := by
  have hlow : 1 ≤ qBound (-32768) level 32767 :=
    le_max_of_le_right (le_min (by norm_num) h)
  have hhigh : qBound (-32768) level 32767 ≤ 32767 :=
    max_le (by norm_num) (min_le_left ..)
  rw [toQint16, truncate, if_pos (zero_le_one.trans hlow)]
  constructor
  · exact Int.floor_pos.mpr hlow
  · exact_mod_cast (Int.floor_le _).trans hhigh

theorem Sample.bytes_ne_silence {sample : Sample K} (h : 0 < sample.value ∧ sample.value ≤ 32767) :
    sample.bytes ≠ (silence : Sample K).bytes := by
  obtain ⟨n, hn⟩ := Int.eq_ofNat_of_zero_le h.1.le
  intro heq
  have hbits : (sample.value % 65536).toNat = n := by omega
  have hlow := congrArg UInt8.toNat (List.cons.inj heq).1
  have hhigh := congrArg UInt8.toNat (List.cons.inj (List.cons.inj heq).2).1
  rw [hbits, UInt8.toNat_ofNat'] at hlow hhigh
  have hzero : ((silence : Sample K).value % 65536).toNat = 0 := rfl
  rw [hzero] at hlow hhigh
  have hlow' : n % 256 = 0 := by simpa using hlow
  have hhigh' : n / 256 = 0 := by
    have hlt : n / 256 < 256 := by omega
    simpa [Nat.mod_eq_of_lt hlt] using hhigh
  omega

/-- A chunk that is lost shifts the next one to its place. -/
theorem head_eq_of_prefix_bytes {chunk chunk' : List (Sample K)} {sample sample' : Sample K}
    (h : chunk'.flatMap Sample.bytes <+: chunk.flatMap Sample.bytes ++ chunk'.flatMap Sample.bytes)
    (hhead : chunk[0]? = some sample) (hhead' : chunk'[0]? = some sample') :
    sample'.bytes = sample.bytes := by
  cases chunk with
  | nil => cases hhead
  | cons first rest =>
      cases chunk' with
      | nil => cases hhead'
      | cons first' rest' =>
          obtain rfl := Option.some.inj hhead
          obtain rfl := Option.some.inj hhead'
          rw [List.flatMap_cons, List.flatMap_cons, List.append_assoc] at h
          obtain ⟨hlow, h⟩ := List.cons_prefix_cons.mp h
          obtain ⟨hhigh, -⟩ := List.cons_prefix_cons.mp h
          exact congrArg₂ (fun low high => [low, high]) hlow hhigh

/-- A tone of 660 Hz. -/
noncomputable def highTone : CwGenerator ℝ := .new Real.pi 44100 660 (1 / 2) 220 220

theorem highTone_proper : highTone.Proper := ⟨by decide, by decide, by decide⟩

theorem highTone_starts :
    ∃ sample, highTone.sampleAt Real.sin none 0 = some sample ∧ sample.value = 0 := by
  obtain ⟨sample, hsample⟩ := @CwGenerator.exists_sampleAt ℝ _ Real.sin highTone none 0 highTone_proper.rate
  refine ⟨sample, hsample, ?_⟩
  cases sample with
  | silence => rfl
  | tone env level =>
      obtain ⟨rfl, x, rfl⟩ := CwGenerator.level_of_sampleAt hsample
      rw [CwGenerator.envelopeAt_zero (show 0 < highTone.attackSamples by decide)]
      simp [Sample.value, toQint16, truncate, qBound]

/-- The second chunk begins in the first quarter of a period. -/
theorem highTone_second : ∃ sample, highTone.sampleAt Real.sin none 882 = some sample
    ∧ 0 < sample.value ∧ sample.value ≤ 32767 := by
  have hsounds : highTone.Sounds none 882 := nofun
  have henv : highTone.envelopeAt none 882 = 1 := by
    have hrise : highTone.attackAt 882 = 1 := rise_of_ge (by decide)
    rw [CwGenerator.envelopeAt, hrise]
    exact min_self 1
  have hphase : highTone.twoPiF * (((882 : Int) / (44100 : Int) : ℚ) : ℝ)
      = 2 * Real.pi / 5 + (13 : ℕ) * (2 * Real.pi) := by
    show 2 * Real.pi * 660 * _ = _
    push_cast
    ring
  have hsin : 4 / 5 ≤ Real.sin (2 * Real.pi / 5) := by
    have hpi := Real.pi_pos
    have hle := Real.mul_le_sin (x := 2 * Real.pi / 5) (by positivity) (by linarith)
    have heq : 2 / Real.pi * (2 * Real.pi / 5) = 4 / 5 := by
      field_simp
      norm_num
    rwa [heq] at hle
  have hloud : 1 ≤ ((1 : ℚ) : ℝ) * highTone.maxAmplitude * Real.sin (2 * Real.pi / 5) := by
    show 1 ≤ ((1 : ℚ) : ℝ) * (1 / 2 * ((32767 : Int) : ℝ)) * _
    push_cast
    linarith
  refine ⟨.tone 1 _, ?_, toQint16_mem hloud⟩
  rw [CwGenerator.sampleAt, if_pos hsounds, henv, CwGenerator.toneAt]
  show some (Sample.tone 1
    (_ * Real.sin (highTone.twoPiF * (((882 : Int) / (44100 : Int) : ℚ) : ℝ)))) = _
  rw [hphase, Real.sin_add_nat_mul_two_pi]

/-- The second chunk does not begin as the first one does. -/
theorem highTone_shifted {chunk chunk' : List (Sample ℝ)}
    (hchunk : highTone.samplesFrom Real.sin none 0 882 = some chunk)
    (hchunk' : highTone.samplesFrom Real.sin none (0 + 882) 882 = some chunk') :
    ¬chunk'.flatMap Sample.bytes <+: chunk.flatMap Sample.bytes ++ chunk'.flatMap Sample.bytes := by
  intro hsame
  obtain ⟨sample, hsample, hquiet⟩ := highTone_starts
  obtain ⟨sample', hsample', hloud⟩ := highTone_second
  have hhead : chunk[0]? = some sample := by
    rw [CwGenerator.getElem?_of_samplesFrom hchunk, if_pos (by decide), ← hsample]
  have hhead' : chunk'[0]? = some sample' := by
    rw [CwGenerator.getElem?_of_samplesFrom hchunk', if_pos (by decide), ← hsample']
  refine Sample.bytes_ne_silence hloud ((head_eq_of_prefix_bytes hsame hhead hhead').trans ?_)
  rw [Sample.bytes, Sample.bytes, hquiet]
  rfl

/-- The sink is full at the first tick and takes all of the second: its bytes
are not even equal to those at the beginning of the stream. -/
theorem highTone_lost :
    (¬∀ as, (sound Real.sin).Along Sound.AcceptsInOrder
        (Sound.new.configure Real.pi 660 44100 (1 / 2) 220 220) as)
      ∧ ¬∀ as t, (sound Real.sin).run (Sound.new.configure Real.pi 660 44100 (1 / 2) 220 220) as
        = some t → accepted t.writes <+: produced t.writes := by
  let s : Sound ℝ := Sound.new.configure Real.pi 660 44100 (1 / 2) 220 220
  have hs : (s.onStartCwRequested true).Pushing highTone none 0 ⟨882, 0⟩ := ⟨rfl, nofun, rfl, rfl⟩
  obtain ⟨chunk, t, hchunk, hfirst, -, ht, hticks⟩ := @Sound.Pushing.exists_tick ℝ _ _ _ Real.sin
    highTone _ none 0 _ 0 hs highTone_proper (by decide) nofun
  obtain ⟨chunk', u, hchunk', hsecond, -, -, hticks'⟩ := @Sound.Pushing.exists_tick ℝ _ _ _ Real.sin
    highTone t none (0 + 882) ⟨882, 0⟩ 1764 ht highTone_proper (by decide) nofun
  have hrun : (sound Real.sin).run s [.onStartCwRequested true, .tick 0] = some t :=
    Machine.run_cons.mpr ⟨_, rfl, (Machine.run_singleton ..).trans hfirst⟩
  have hrun' : (sound Real.sin).run s ([.onStartCwRequested true, .tick 0] ++ [.tick 1764])
      = some u :=
    Machine.run_append.mpr ⟨t, hrun, (Machine.run_singleton ..).trans hsecond⟩
  have hlost : ¬accepted u.writes <+: produced u.writes := by
    have hwhole : (chunk'.flatMap Sample.bytes).take 1764 = chunk'.flatMap Sample.bytes := by
      refine List.take_of_length_le (Nat.le_of_eq ?_)
      have hlength := PushTick.length_bytes ⟨highTone, ⟨882, 0⟩, chunk', 1764⟩
      rwa [CwGenerator.length_of_samplesFrom hchunk'] at hlength
    have hboth : u.ticks = [⟨highTone.after none 0, ⟨882, 0⟩, chunk, 0⟩,
        ⟨highTone.after none (0 + 882), ⟨882, 0⟩, chunk', 1764⟩] := by
      rw [hticks', hticks]
      rfl
    intro hinit
    refine highTone_shifted hchunk hchunk' ?_
    simpa [Sound.writes, hboth, accepted, produced, PushTick.write, PushTick.bytes, hwhole]
      using hinit
  refine ⟨fun h => hlost ?_, fun h => hlost (h _ u hrun')⟩
  have hlast : (sound Real.sin).Along Sound.AcceptsInOrder t [.tick 1764] :=
    (h (_ ++ [.tick 1764])).append hrun
  exact (hlast u hsecond).1.isPrefix

end CwKeyer
