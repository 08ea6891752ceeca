import CwKeyer.Sound.Clicks
import CwKeyer.Sound.Sound

/-!
# Silence before the sink is stopped

The timer counts the ticks that end with the generator stopped. Between two
ticks the key can go down and up again, and then the tone and its release
may end within one chunk: the tick is counted although its chunk is not
silent. The sink is stopped after real silence exactly if no such tick is
among those counted, after the first (`shutdown_after_silence_iff`).
-/

namespace CwKeyer

/-! ## Recent ticks -/

/-- The last `n` elements. -/
def lastTicks {α : Type} (n : Nat) (ticks : List α) : List α := ticks.drop (ticks.length - n)

section

variable {α : Type} {ticks : List α} {n : Nat}

theorem notMem_lastTicks_zero {tick : α} : tick ∉ lastTicks 0 ticks := by simp [lastTicks]

theorem lastTicks_snoc (tick : α) :
    lastTicks (n + 1) (ticks ++ [tick]) = lastTicks n ticks ++ [tick] := by
  rw [lastTicks, List.length_append, List.length_singleton, Nat.add_sub_add_right,
    List.drop_append_of_le_length (Nat.sub_le ..)]
  rfl

theorem lastTicks_append (ticks' : List α) :
    lastTicks ticks'.length (ticks ++ ticks') = ticks' := by
  rw [lastTicks, List.length_append, Nat.add_sub_cancel, List.drop_left]

theorem mem_lastTicks_mono {m : Nat} (h : m ≤ n) {tick : α} (hmem : tick ∈ lastTicks m ticks) :
    tick ∈ lastTicks n ticks := by
  have hle : ticks.length - n ≤ ticks.length - m := by omega
  exact (List.drop_sublist_drop_left ticks hle).subset hmem

end

/-! ## The property and its condition -/

section

variable {K : Type}

/-- A sample of the chunk lies between the start of a stream and the end of
its release. -/
def PushTick.hasTone (tick : PushTick K) : Bool := tick.chunk.any Sample.isTone

/-- A tone has been started and stopped since the last tick, and its release
ends within this one. -/
def PushTick.swallowsTone (tick : PushTick K) : Bool :=
  tick.found.stopping && !tick.found.stopped
    && (0 < tick.found.releaseSamples && tick.found.releaseSamples < tick.timer.numSamples)

/-- The step is a tick that stops the sink. -/
def Sound.ShutsDown (s s' : Sound K) : Prop := s.pushTimer.isSome = true ∧ s'.pushTimer = none

/-- The counted ticks after the first one wrote silence. -/
def Sound.AfterSilence (s : Sound K) (_ : SoundAct) (s' : Sound K) : Prop :=
  s.ShutsDown s' → ∀ tick ∈ lastTicks (maxIdleTicks - 1) s'.ticks, tick.hasTone = false

/-- None of them has swallowed a tone. -/
def Sound.NothingSwallowed (s : Sound K) (_ : SoundAct) (s' : Sound K) : Prop :=
  s.ShutsDown s' → ∀ tick ∈ lastTicks (maxIdleTicks - 1) s'.ticks, tick.swallowsTone = false

end

/-! ## The chunk of a tick -/

namespace CwGenerator

variable {K : Type} [Field K] {sin : K → K} {g : CwGenerator K} {stop : Option Nat} {n count : Nat}
  {chunk : List (Sample K)}

theorem length_of_samplesFrom (h : g.samplesFrom sin stop n count = some chunk) :
    chunk.length = count := by
  induction count generalizing n chunk with
  | zero =>
      obtain rfl := Option.some.inj h
      rfl
  | succ count ih =>
      rw [samplesFrom_succ] at h
      obtain ⟨sample, -, h⟩ := Option.bind_eq_some_iff.mp h
      obtain ⟨rest, hrest, rfl⟩ := Option.map_eq_some_iff.mp h
      rw [List.length_cons, ih hrest]

theorem isTone_of_sampleAt {i : Nat} {sample : Sample K}
    (h : g.sampleAt sin stop i = some sample) : sample.isTone = true ↔ g.Sounds stop i := by
  rw [sampleAt] at h
  split at h
  case isTrue hsounds =>
    obtain ⟨t, -, rfl⟩ := Option.map_eq_some_iff.mp h
    exact iff_of_true rfl hsounds
  case isFalse hsilent =>
    obtain rfl := Option.some.inj h
    exact iff_of_false Bool.false_ne_true hsilent

theorem any_isTone_iff (h : g.samplesFrom sin stop n count = some chunk) :
    chunk.any Sample.isTone = true ↔ ∃ i < count, g.Sounds stop (n + i) := by
  rw [List.any_eq_true]
  constructor
  · rintro ⟨sample, hmem, htone⟩
    obtain ⟨i, hi⟩ := List.mem_iff_getElem?.mp hmem
    rw [getElem?_of_samplesFrom h] at hi
    obtain ⟨hlt, hsample⟩ := Option.ite_none_right_eq_some.mp hi
    exact ⟨i, hlt, (isTone_of_sampleAt hsample).mp htone⟩
  · rintro ⟨i, hlt, hsounds⟩
    have hget := getElem?_of_samplesFrom (i := i) h
    rw [if_pos hlt] at hget
    have hbound : i < chunk.length := length_of_samplesFrom h ▸ hlt
    have hat : chunk[i]? = some chunk[i] := List.getElem?_eq_getElem hbound
    exact ⟨_, List.getElem_mem _, (isTone_of_sampleAt (hget.symm.trans hat)).mpr hsounds⟩

/-- A stream that is stopped already, or has only been started. -/
def Fresh (g : CwGenerator K) (stop : Option Nat) (n : Nat) : Prop :=
  (g.after stop n).stopped = true ∨ n = 0

/-- A chunk that ends with the generator stopped has a tone exactly if it
has swallowed it. -/
theorem hasTone_iff_swallows {timer : PushTimer} (hrelease : 0 ≤ g.releaseSamples)
    (hstop : ∀ s ∈ stop, s ≤ n) (hfresh : g.Fresh stop n)
    (h : g.samplesFrom sin stop n timer.numSamples.toNat = some chunk)
    (hstopped : (g.after stop (n + timer.numSamples.toNat)).stopped = true) (accepted : Nat) :
    (PushTick.mk (g.after stop n) timer chunk accepted).hasTone
      = (PushTick.mk (g.after stop n) timer chunk accepted).swallowsTone := by
  obtain ⟨r, hr⟩ := Int.eq_ofNat_of_zero_le hrelease
  cases stop with
  | none => cases hstopped
  | some s =>
      have hends : s + r < n + timer.numSamples.toNat := by simpa [after, hr] using hstopped
      have hle : s ≤ n := hstop s rfl
      rw [Bool.eq_iff_iff]
      show chunk.any Sample.isTone = true ↔ _
      have hsounds (i : Nat) : g.Sounds (some s) i ↔ i < s + r := by simp [Sounds, hr]
      rw [any_isTone_iff h]
      simp only [hsounds, PushTick.swallowsTone, after, hr, Option.isSome_some,
        Option.any_some, Bool.true_and, Bool.and_eq_true, Bool.not_eq_true', decide_eq_true_eq,
        decide_eq_false_iff_not, Int.toNat_natCast, Nat.cast_pos]
      rcases hfresh with hover | rfl
      · have hpast : s + r < n := by simpa [after, hr] using hover
        refine iff_of_false ?_ fun hswallows => hswallows.1 hpast
        rintro ⟨i, _, hi⟩
        omega
      · constructor
        · rintro ⟨i, _, hi⟩
          omega
        · rintro ⟨_, hpos, hlt⟩
          exact ⟨0, by omega, by omega⟩

end CwGenerator

/-! ## Steps -/

section

variable {K : Type} {g : CwGenerator K} {s s' : Sound K} {stop : Option Nat} {n : Nat}

/-- The generator of `s` has generated `n` samples since it was started;
while ticks are being counted it is fresh, and those counted after the
first have a tone only if they have swallowed it. -/
structure PushInv (g : CwGenerator K) (s : Sound K) (stop : Option Nat) (n : Nat) : Prop where
  generator : s.cwGenerator = some (g.after stop n)
  stop_le : ∀ x ∈ stop, x ≤ n
  fresh : ∀ timer ∈ s.pushTimer, 0 < timer.idleTicks → g.Fresh stop n
  counted : ∀ timer ∈ s.pushTimer, ∀ tick ∈ lastTicks (timer.idleTicks - 1) s.ticks,
    tick.hasTone = tick.swallowsTone

theorem PushInv.startRequested (h : PushInv g s stop n) (opened : Bool) :
    ∃ stop' n', PushInv g (s.onStartCwRequested opened) stop' n' := by
  unfold Sound.onStartCwRequested
  split
  case h_1 g' _ hg' =>
    obtain rfl : g.after stop n = g' := Option.some.inj (h.generator.symm.trans hg')
    dsimp only
    split
    · exact ⟨none, 0, rfl, nofun, fun _ _ _ => .inr rfl, h.counted⟩
    · refine ⟨none, 0, rfl, nofun, fun _ _ _ => .inr rfl, ?_⟩
      rintro _ ⟨⟩ tick htick
      exact absurd htick notMem_lastTicks_zero
  case h_2 => exact ⟨stop, n, h⟩

theorem PushInv.stopRequested (h : PushInv g s stop n) :
    PushInv g s.onStopCwRequested (stop <|> some n) n := by
  refine ⟨?_, ?_, ?_, h.counted⟩
  · rw [Sound.onStopCwRequested, h.generator, Option.map_some,
      CwGenerator.stopStream_after h.stop_le]
  · cases stop with
    | none => simp
    | some x => simpa using h.stop_le
  · intro timer htimer hcounting
    cases stop with
    | none => exact .inr ((h.fresh timer htimer hcounting).resolve_left nofun)
    | some x => exact h.fresh timer htimer hcounting

theorem isSome_pushTimer_start (opened : Bool) (h : s.pushTimer.isSome = true) :
    (s.onStartCwRequested opened).pushTimer.isSome = true := by
  unfold Sound.onStartCwRequested
  split
  · simp [h]
  · exact h

theorem onStartCwRequested_running (henabled : s.enabled = true)
    (hgenerator : s.cwGenerator = some g) (htimer : s.pushTimer.isSome = true) (opened : Bool) :
    s.onStartCwRequested opened = { s with cwGenerator := some g.startStream } := by
  rw [Sound.onStartCwRequested, henabled, hgenerator]
  exact if_pos htimer

theorem nothingSwallowed_of_runs {a : SoundAct} (h : s'.pushTimer.isSome = true) :
    s.NothingSwallowed a s' := by
  rintro ⟨-, hdown⟩
  rw [hdown] at h
  cases h

/-- A step after which the timer still runs does not stop the sink. -/
theorem afterSilence_of_runs {a : SoundAct}
    (h : s.pushTimer.isSome = true → s'.pushTimer.isSome = true) :
    s.AfterSilence a s' ↔ s.NothingSwallowed a s' := by
  have hruns : ¬s.ShutsDown s' := by
    rintro ⟨htimer, hdown⟩
    have hsome := h htimer
    rw [hdown] at hsome
    cases hsome
  exact iff_of_true (fun hdown => absurd hdown hruns) fun hdown => absurd hdown hruns

end

theorem pushInv_configure {K : Type} [Field K] {s : Sound K} (pi frequency amplitude : K)
    {sampleRate attackSamples releaseSamples : Int} (htimer : s.pushTimer = none) :
    PushInv (.new pi sampleRate frequency amplitude attackSamples releaseSamples)
      (s.configure pi frequency sampleRate amplitude attackSamples releaseSamples) none 0 := by
  have hnone : (s.configure pi frequency sampleRate amplitude attackSamples
    releaseSamples).pushTimer = none := htimer
  refine ⟨rfl, nofun, fun timer h => ?_, fun timer h => ?_⟩ <;>
  · rw [hnone] at h
    cases h

/-- When a tick is counted, all those counted after the first have a tone
only if they have swallowed it. -/
theorem PushInv.counted_snoc {K : Type} [Field K] {sin : K → K} {g : CwGenerator K} {s : Sound K}
    {stop : Option Nat} {n : Nat} (h : PushInv g s stop n) (hrelease : 0 ≤ g.releaseSamples)
    {timer : PushTimer} (htimer : s.pushTimer = some timer) {chunk : List (Sample K)}
    (hchunk : g.samplesFrom sin stop n timer.numSamples.toNat = some chunk)
    (hstopped : (g.after stop (n + timer.numSamples.toNat)).stopped = true) (accepted : Nat) :
    ∀ tick ∈ lastTicks timer.idleTicks
      (s.ticks ++ [⟨g.after stop n, timer, chunk, accepted⟩]),
      tick.hasTone = tick.swallowsTone := by
  cases hidle : timer.idleTicks with
  | zero =>
      intro tick htick
      exact absurd htick notMem_lastTicks_zero
  | succ k =>
      intro tick htick
      rw [lastTicks_snoc] at htick
      rcases List.mem_append.mp htick with hold | hnew
      · refine h.counted timer htimer tick ?_
        rwa [hidle, Nat.add_sub_cancel]
      · obtain rfl := List.mem_singleton.mp hnew
        exact CwGenerator.hasTone_iff_swallows hrelease h.stop_le
          (h.fresh timer htimer (by omega)) hchunk hstopped _

variable {K : Type} [Field K] [LinearOrder K] [FloorRing K] {sin : K → K} {g : CwGenerator K}
  {s s' : Sound K} {stop : Option Nat} {n : Nat}

/-- What a tick writes and counts. -/
theorem onTimeout_after {timer : PushTimer} {accepted : Nat} (hattack : 0 ≤ g.attackSamples)
    (hrelease : 0 ≤ g.releaseSamples) (hgenerator : s.cwGenerator = some (g.after stop n))
    (hstop : ∀ x ∈ stop, x ≤ n) (hsink : s.sinkDevice = true) :
    s.onTimeout sin timer accepted
      = (g.samplesFrom sin stop n timer.numSamples.toNat).bind fun chunk =>
          let tick := ⟨g.after stop n, timer, chunk, accepted⟩
          let g' := g.after stop (n + timer.numSamples.toNat)
          if accepted ≤ tick.bytes.length then
            some ({ s with cwGenerator := some g', ticks := s.ticks ++ [tick] }.countIdle timer
              g'.stopped)
          else none := by
  rw [Sound.onTimeout, if_pos hsink, hgenerator, Option.bind_eq_bind, Option.bind_some,
    CwGenerator.generateChunk, CwGenerator.generateSamples_after hattack hrelease hstop]
  cases g.samplesFrom sin stop n timer.numSamples.toNat <;> rfl

theorem tick_cases {accepted : Nat} (h : PushInv g s stop n) (hattack : 0 ≤ g.attackSamples)
    (hrelease : 0 ≤ g.releaseSamples) (hstep : (sound sin).step s (.tick accepted) = some s') :
    ∃ timer, s.pushTimer = some timer ∧ (s' = s ∨ ∃ chunk,
      g.samplesFrom sin stop n timer.numSamples.toNat = some chunk ∧
      accepted ≤ (PushTick.mk (g.after stop n) timer chunk accepted).bytes.length ∧
      s' = ({ s with
        cwGenerator := some (g.after stop (n + timer.numSamples.toNat))
        ticks := s.ticks ++ [⟨g.after stop n, timer, chunk, accepted⟩] } :
          Sound K).countIdle timer (g.after stop (n + timer.numSamples.toNat)).stopped) := by
  obtain ⟨timer, htimer, hstep⟩ := Option.bind_eq_some_iff.mp hstep
  refine ⟨timer, htimer, ?_⟩
  by_cases hsink : s.sinkDevice = true
  · rw [onTimeout_after hattack hrelease h.generator h.stop_le hsink] at hstep
    obtain ⟨chunk, hchunk, hstep⟩ := Option.bind_eq_some_iff.mp hstep
    obtain ⟨haccepted, hstep⟩ := Option.ite_none_right_eq_some.mp hstep
    exact .inr ⟨chunk, hchunk, haccepted, (Option.some.inj hstep).symm⟩
  · rw [Sound.onTimeout, if_neg hsink] at hstep
    exact .inl (Option.some.inj hstep).symm

theorem pushInv_tick {accepted : Nat} (h : PushInv g s stop n) (hattack : 0 ≤ g.attackSamples)
    (hrelease : 0 ≤ g.releaseSamples) (hstep : (sound sin).step s (.tick accepted) = some s') :
    (∃ n', PushInv g s' stop n')
      ∧ (s.AfterSilence (.tick accepted) s' ↔ s.NothingSwallowed (.tick accepted) s') := by
  rcases tick_cases h hattack hrelease hstep with ⟨timer, htimer, rfl | ⟨chunk, hchunk, -, rfl⟩⟩
  · exact ⟨⟨n, h⟩, afterSilence_of_runs id⟩
  · have hstop_le : ∀ x ∈ stop, x ≤ n + timer.numSamples.toNat := fun x hx =>
      (h.stop_le x hx).trans (Nat.le_add_right ..)
    cases hstopped : (g.after stop (n + timer.numSamples.toNat)).stopped with
    | false =>
        refine ⟨⟨n + timer.numSamples.toNat, rfl, hstop_le, ?_, ?_⟩,
          afterSilence_of_runs fun _ => rfl⟩
        · rintro _ ⟨⟩ hcounting
          cases hcounting
        · rintro _ ⟨⟩ tick htick
          exact absurd htick notMem_lastTicks_zero
    | true =>
        have hcounted := h.counted_snoc hrelease htimer hchunk hstopped accepted
        simp only [Sound.countIdle, if_true]
        split_ifs with hlast
        · refine ⟨⟨n + timer.numSamples.toNat, rfl, hstop_le, nofun, nofun⟩, ?_⟩
          refine imp_congr_right fun _ => forall₂_congr fun tick htick => ?_
          rw [hcounted tick (mem_lastTicks_mono (by omega) htick)]
        · refine ⟨⟨n + timer.numSamples.toNat, rfl, hstop_le, ?_, ?_⟩,
            afterSilence_of_runs fun _ => rfl⟩
          · rintro _ ⟨⟩ _
            exact .inl hstopped
          · rintro _ ⟨⟩ tick htick
            exact hcounted tick htick

theorem pushInv_step {a : SoundAct} (h : PushInv g s stop n) (hattack : 0 ≤ g.attackSamples)
    (hrelease : 0 ≤ g.releaseSamples) (hstep : (sound sin).step s a = some s') :
    (∃ stop' n', PushInv g s' stop' n') ∧ (s.AfterSilence a s' ↔ s.NothingSwallowed a s') := by
  cases a with
  | tick accepted =>
      obtain ⟨⟨n', hinv⟩, hiff⟩ := pushInv_tick h hattack hrelease hstep
      exact ⟨⟨stop, n', hinv⟩, hiff⟩
  | onStartCwRequested opened =>
      obtain rfl := Option.some.inj hstep
      exact ⟨h.startRequested opened, afterSilence_of_runs (isSome_pushTimer_start opened)⟩
  | onStopCwRequested =>
      obtain rfl := Option.some.inj hstep
      exact ⟨⟨_, n, h.stopRequested⟩, afterSilence_of_runs id⟩

/-! ## Runs of ticks -/

/-- Parameters that an init can set up. -/
structure CwGenerator.Proper {K : Type} (g : CwGenerator K) : Prop where
  attack : 0 ≤ g.attackSamples
  release : 0 ≤ g.releaseSamples
  rate : g.sampleRate ≠ 0

theorem sidetone_proper : sidetone.Proper := ⟨by decide, by decide, by decide⟩

/-- The timer runs over an open sink, and `n` samples of the stream of `g`
have been generated. -/
structure Sound.Pushing {K : Type} (g : CwGenerator K) (s : Sound K) (stop : Option Nat) (n : Nat)
    (timer : PushTimer) : Prop where
  generator : s.cwGenerator = some (g.after stop n)
  stop_le : ∀ x ∈ stop, x ≤ n
  sink : s.sinkDevice = true
  timer : s.pushTimer = some timer

namespace Sound.Pushing

variable {timer : PushTimer} {accepted : Nat} (h : s.Pushing g stop n timer)
  (hg : g.Proper) (haccepted : accepted ≤ 2 * timer.numSamples.toNat)

include h hg haccepted

/-- The sink takes as much as it is told to. -/
theorem exists_step : ∃ chunk, g.samplesFrom sin stop n timer.numSamples.toNat = some chunk ∧
    (sound sin).step s (.tick accepted) = some (({ s with
      cwGenerator := some (g.after stop (n + timer.numSamples.toNat))
      ticks := s.ticks ++ [⟨g.after stop n, timer, chunk, accepted⟩] } :
        Sound K).countIdle timer (g.after stop (n + timer.numSamples.toNat)).stopped) := by
  obtain ⟨chunk, hchunk⟩ := @CwGenerator.exists_samplesFrom K _ sin g stop n hg.rate
    timer.numSamples.toNat
  refine ⟨chunk, hchunk, ?_⟩
  show s.pushTimer.bind _ = _
  rw [h.timer, Option.bind_some, onTimeout_after hg.attack hg.release h.generator h.stop_le h.sink,
    hchunk, Option.bind_some]
  refine if_pos ?_
  rw [PushTick.length_bytes, CwGenerator.length_of_samplesFrom hchunk]
  exact haccepted

/-- A tick that is not the last one. -/
theorem exists_tick (hgoes : (g.after stop (n + timer.numSamples.toNat)).stopped = true →
      timer.idleTicks + 1 < maxIdleTicks) :
    ∃ chunk s', g.samplesFrom sin stop n timer.numSamples.toNat = some chunk
      ∧ (sound sin).step s (.tick accepted) = some s' ∧ s'.enabled = s.enabled
      ∧ s'.Pushing g stop (n + timer.numSamples.toNat) ⟨timer.numSamples,
        if (g.after stop (n + timer.numSamples.toNat)).stopped then timer.idleTicks + 1 else 0⟩
      ∧ s'.ticks = s.ticks ++ [⟨g.after stop n, timer, chunk, accepted⟩] := by
  obtain ⟨chunk, hchunk, hstep⟩ :=
    @exists_step K _ _ _ sin g s stop n timer accepted h hg haccepted
  have hstop_le : ∀ x ∈ stop, x ≤ n + timer.numSamples.toNat := fun x hx =>
    (h.stop_le x hx).trans (Nat.le_add_right ..)
  rw [countIdle] at hstep
  cases hstopped : (g.after stop (n + timer.numSamples.toNat)).stopped with
  | false =>
      rw [hstopped, if_neg Bool.false_ne_true] at hstep
      exact ⟨chunk, _, hchunk, hstep, rfl, ⟨rfl, hstop_le, h.sink, rfl⟩, rfl⟩
  | true =>
      rw [hstopped, if_pos rfl, if_neg (Nat.not_le.mpr (hgoes hstopped))] at hstep
      exact ⟨chunk, _, hchunk, hstep, rfl, ⟨rfl, hstop_le, h.sink, rfl⟩, rfl⟩

/-- The last tick. -/
theorem exists_shutdown (hstopped : (g.after stop (n + timer.numSamples.toNat)).stopped = true)
    (hidle : maxIdleTicks ≤ timer.idleTicks + 1) :
    ∃ tick s', (sound sin).step s (.tick accepted) = some s' ∧ s'.pushTimer = none
      ∧ s'.ticks = s.ticks ++ [tick] ∧ tick.found = g.after stop n := by
  obtain ⟨chunk, -, hstep⟩ := @exists_step K _ _ _ sin g s stop n timer accepted h hg haccepted
  rw [hstopped, countIdle, if_pos rfl, if_pos hidle] at hstep
  exact ⟨_, _, hstep, rfl, rfl, rfl⟩

end Sound.Pushing

omit [Field K] [LinearOrder K] [FloorRing K] in
/-- The key goes up. -/
theorem Sound.Pushing.stopRequested {timer : PushTimer} (h : s.Pushing g none n timer) :
    s.onStopCwRequested.Pushing g (some n) n timer := by
  refine ⟨?_, by simp, h.sink, h.timer⟩
  rw [Sound.onStopCwRequested, h.generator, Option.map_some,
    CwGenerator.stopStream_after h.stop_le]
  rfl

/-- The timer counts the ticks of a stopped generator. -/
theorem Sound.Pushing.run_idle {numSamples : Int} {idleTicks accepted x : Nat} (m : Nat)
    (hg : g.Proper) (haccepted : accepted ≤ 2 * numSamples.toNat)
    (h : s.Pushing g (some x) n ⟨numSamples, idleTicks⟩) (hover : x + g.releaseSamples.toNat < n)
    (hidle : idleTicks + m < maxIdleTicks) :
    ∃ t n' ticks, ((sound sin).run s (List.replicate m (.tick accepted)) = some t
        ∧ (sound sin).Along (fun _ _ u => u.pushTimer.isSome = true) s
          (List.replicate m (.tick accepted)))
      ∧ t.Pushing g (some x) n' ⟨numSamples, idleTicks + m⟩ ∧ x + g.releaseSamples.toNat < n'
      ∧ t.ticks = s.ticks ++ ticks ∧ ticks.length = m
      ∧ ∀ tick ∈ ticks, tick.found.stopped = true := by
  induction m generalizing s n idleTicks with
  | zero => exact ⟨s, n, [], ⟨rfl, trivial⟩, h, hover, by simp, rfl, nofun⟩
  | succ m ih =>
      have hnext : x + g.releaseSamples.toNat < n + numSamples.toNat := by omega
      have hcounts : idleTicks + 1 < maxIdleTicks := by omega
      obtain ⟨chunk, s', -, hstep, -, h', hticks'⟩ := @exists_tick K _ _ _ sin g s (some x) n _
        accepted h hg haccepted fun _ => hcounts
      have hlast : s'.Pushing g (some x) (n + numSamples.toNat) ⟨numSamples, idleTicks + 1⟩ := by
        rwa [CwGenerator.stopped_after hnext, if_pos rfl] at h'
      obtain ⟨t, n', ticks, hrun, ht, hover', hticks, hlength, hstopped⟩ :=
        ih hlast hnext (by omega)
      have htimer : s'.pushTimer.isSome = true := by rw [hlast.timer]; rfl
      rw [Nat.add_assoc, Nat.add_comm 1] at ht
      refine ⟨t, n', ⟨g.after (some x) n, ⟨numSamples, idleTicks⟩, chunk, accepted⟩ :: ticks,
        Machine.run_along_cons hstep htimer hrun, ht, hover', ?_, ?_, ?_⟩
      · rw [hticks, hticks', List.append_assoc, List.singleton_append]
      · rw [List.length_cons, hlength]
      · exact List.forall_mem_cons.mpr ⟨CwGenerator.stopped_after hover, hstopped⟩

/-! ## Runs -/

/-- **Silence before the shutdown.** Over any interleaving of requests and
ticks, all counted ticks but the first have written silence whenever the
sink is stopped, exactly in the runs in which none of them has swallowed a
tone. -/
theorem shutdown_after_silence_iff (pi frequency amplitude : K)
    (sampleRate attackSamples releaseSamples : Int) (hattack : 0 ≤ attackSamples)
    (hrelease : 0 ≤ releaseSamples) (s : Sound K) (htimer : s.pushTimer = none)
    (as : List SoundAct) :
    (sound sin).Along Sound.AfterSilence
        (s.configure pi frequency sampleRate amplitude attackSamples releaseSamples) as
      ↔ (sound sin).Along Sound.NothingSwallowed
        (s.configure pi frequency sampleRate amplitude attackSamples releaseSamples) as := by
  let g : CwGenerator K := .new pi sampleRate frequency amplitude attackSamples releaseSamples
  refine Machine.along_congr (I := fun s => ∃ stop n, PushInv g s stop n) ?_ ?_
    ⟨none, 0, pushInv_configure pi frequency amplitude htimer⟩
  · rintro s a s' ⟨stop, n, h⟩ hstep
    exact (pushInv_step h hattack hrelease hstep).2
  · rintro s a s' ⟨stop, n, h⟩ - hstep
    exact (pushInv_step h hattack hrelease hstep).1

/-- A tone of one chunk, and as many ticks after it as it takes to stop the
sink. -/
def toneAndSilence : List SoundAct :=
  [.onStartCwRequested true, .tick 1764, .onStopCwRequested, .tick 1764]
    ++ List.replicate 98 (.tick 1764) ++ [.tick 1764]

theorem shutdown_after_silence_sidetone :
    ∃ t : Sound ℝ, (sound Real.sin).run (Sound.new.configure Real.pi 650 44100 (1 / 2) 220 220)
        toneAndSilence = some t
      ∧ t.pushTimer = none ∧ t.ticks.length = 101
      ∧ (sound Real.sin).Along Sound.AfterSilence
        (Sound.new.configure Real.pi 650 44100 (1 / 2) 220 220) toneAndSilence := by
  let s : Sound ℝ := Sound.new.configure Real.pi 650 44100 (1 / 2) 220 220
  have hs : (s.onStartCwRequested true).Pushing sidetone none 0 ⟨882, 0⟩ :=
    ⟨rfl, nofun, rfl, rfl⟩
  obtain ⟨chunk, t, -, hfirst, -, ht, hticks⟩ := @Sound.Pushing.exists_tick ℝ _ _ _ Real.sin
    sidetone _ none 0 _ 1764 hs sidetone_proper (by decide) nofun
  obtain ⟨chunk', u, -, hsecond, -, hu, hticks'⟩ := @Sound.Pushing.exists_tick ℝ _ _ _ Real.sin
    sidetone _ (some (0 + 882)) (0 + 882) ⟨882, 0⟩ 1764 ht.stopRequested sidetone_proper
    (by decide) fun _ => by decide
  obtain ⟨v, n, ticks, hidle, hv, hover, hticks'', hlength, hstopped⟩ :=
    @Sound.Pushing.run_idle ℝ _ _ _ Real.sin sidetone u (0 + 882 + 882) 882 1 1764 (0 + 882) 98
      sidetone_proper (by decide) hu (by decide) (by decide)
  have hafter : (sidetone.after (some (0 + 882)) (n + 882)).stopped = true :=
    CwGenerator.stopped_after (hover.trans_le (Nat.le_add_right ..))
  obtain ⟨last, w, hlast, hdown, hlastticks, hfound⟩ := @Sound.Pushing.exists_shutdown ℝ _ _ _
    Real.sin sidetone v (some (0 + 882)) n _ 1764 hv sidetone_proper (by decide) hafter
    (by decide)
  -- the timer runs until the last tick
  have hlead : (sound Real.sin).run s ([.onStartCwRequested true, .tick 1764, .onStopCwRequested,
        .tick 1764] ++ List.replicate 98 (.tick 1764)) = some v
      ∧ (sound Real.sin).Along (fun _ _ u => u.pushTimer.isSome = true) s
        ([.onStartCwRequested true, .tick 1764, .onStopCwRequested, .tick 1764]
          ++ List.replicate 98 (.tick 1764)) := by
    refine Machine.run_along_append ?_ hidle
    refine Machine.run_along_cons rfl rfl ?_
    refine Machine.run_along_cons hfirst (by rw [ht.timer]; rfl) ?_
    refine Machine.run_along_cons rfl (by rw [ht.stopRequested.timer]; rfl) ?_
    exact Machine.run_along_cons hsecond (by rw [hu.timer]; rfl) ⟨rfl, trivial⟩
  have hswallowed : Sound.NothingSwallowed v (.tick 1764) w := by
    intro _ tick htick
    have hcounted : lastTicks (Sound.maxIdleTicks - 1) w.ticks = ticks ++ [last] := by
      have hlen : (ticks ++ [last]).length = Sound.maxIdleTicks - 1 := by
        rw [List.length_append, hlength]
        rfl
      rw [hlastticks, hticks'', List.append_assoc, ← hlen, lastTicks_append]
    rw [hcounted] at htick
    have hfinished : tick.found.stopped = true := by
      rcases List.mem_append.mp htick with hmem | hmem
      · exact hstopped tick hmem
      · rw [List.mem_singleton.mp hmem, hfound]
        exact CwGenerator.stopped_after hover
    simp [PushTick.swallowsTone, hfinished]
  have hend : (sound Real.sin).run v [.tick 1764] = some w
      ∧ (sound Real.sin).Along Sound.NothingSwallowed v [.tick 1764] :=
    Machine.run_along_cons hlast hswallowed ⟨rfl, trivial⟩
  have hrun := Machine.run_along_append
    ⟨hlead.1, hlead.2.mono fun _ _ _ => nothingSwallowed_of_runs⟩ hend
  refine ⟨w, hrun.1, hdown, ?_, (shutdown_after_silence_iff Real.pi 650 (1 / 2) 44100 220 220
    (by decide) (by decide) .new rfl _).mpr hrun.2⟩
  have hfirst_ticks : t.ticks.length = 1 := by
    rw [hticks]
    rfl
  have hsecond_ticks : u.ticks.length = 2 := by
    rw [hticks', List.length_append]
    exact congrArg (· + 1) hfirst_ticks
  rw [hlastticks, hticks'', List.length_append, List.length_append, hsecond_ticks, hlength]
  rfl

/-! ## A tone that is swallowed -/

/-- A tone within a tick: it is counted. -/
theorem exists_swallowed {numSamples : Int} {idleTicks accepted : Nat}
    (h : s.Pushing g none 0 ⟨numSamples, idleTicks⟩) (hg : g.Proper)
    (hrelease : 0 < g.releaseSamples)
    (haccepted : accepted ≤ 2 * numSamples.toNat) (hlong : g.releaseSamples < numSamples)
    (hidle : idleTicks + 1 < Sound.maxIdleTicks) :
    ∃ t tick, (sound sin).run s [.onStopCwRequested, .tick accepted] = some t
      ∧ t.enabled = s.enabled ∧ t.Pushing g (some 0) numSamples.toNat ⟨numSamples, idleTicks + 1⟩
      ∧ t.ticks = s.ticks ++ [tick] ∧ tick.hasTone = true := by
  have hover : 0 + g.releaseSamples.toNat < 0 + numSamples.toNat := by omega
  have hsome : 0 < numSamples.toNat := by omega
  obtain ⟨chunk, t, hchunk, hstep, henabled, ht, hticks⟩ := @Sound.Pushing.exists_tick K _ _ _ sin g
    s.onStopCwRequested (some 0) 0 _ accepted h.stopRequested hg haccepted
    fun _ => hidle
  rw [CwGenerator.stopped_after hover, if_pos rfl, Nat.zero_add] at ht
  refine ⟨t, _, Machine.run_cons.mpr ⟨_, rfl, (Machine.run_singleton ..).trans hstep⟩, henabled, ht,
    hticks, ?_⟩
  refine (CwGenerator.any_isTone_iff hchunk).mpr ⟨0, hsome, ?_⟩
  rintro _ ⟨⟩
  omega

/-- Two tones, each within a tick, and 98 ticks in which no key is pressed. -/
def quickKeying : List SoundAct :=
  [.onStartCwRequested true] ++ [.onStopCwRequested, .tick 1764] ++ [.onStartCwRequested true]
    ++ [.onStopCwRequested, .tick 1764] ++ List.replicate 97 (.tick 1764)

/-- The second of the 100 ticks before the shutdown writes a tone. -/
theorem quickKeying_swallowed :
    ¬∀ as, (sound Real.sin).Along Sound.AfterSilence
      (Sound.new.configure Real.pi 650 44100 (1 / 2) 220 220) as := by
  intro h
  let s : Sound ℝ := Sound.new.configure Real.pi 650 44100 (1 / 2) 220 220
  have hs : (s.onStartCwRequested true).Pushing sidetone none 0 ⟨882, 0⟩ :=
    ⟨rfl, nofun, rfl, rfl⟩
  obtain ⟨t, tick, hfirst, henabled, ht, hticks, -⟩ := @exists_swallowed ℝ _ _ _ Real.sin sidetone
    _ 882 0 1764 hs sidetone_proper (by decide) (by decide) (by decide) (by decide)
  let t' : Sound ℝ := { t with cwGenerator := some sidetone.startStream }
  have hstart : t.onStartCwRequested true = t' :=
    onStartCwRequested_running henabled ht.generator (by rw [ht.timer]; rfl) true
  have ht' : t'.Pushing sidetone none 0 ⟨882, 1⟩ := ⟨rfl, nofun, ht.sink, ht.timer⟩
  obtain ⟨u, tick', hsecond, -, hu, hticks', htone⟩ := @exists_swallowed ℝ _ _ _ Real.sin sidetone
    t' 882 1 1764 ht' sidetone_proper (by decide) (by decide) (by decide) (by decide)
  obtain ⟨v, n, ticks, ⟨hidle, -⟩, hv, hover, hticks'', hlength, -⟩ :=
    @Sound.Pushing.run_idle ℝ _ _ _ Real.sin sidetone u 882 882 2 1764 0 97 sidetone_proper
      (by decide) hu (by decide) (by decide)
  have hstopped : (sidetone.after (some 0) (n + 882)).stopped = true :=
    CwGenerator.stopped_after (hover.trans_le (Nat.le_add_right ..))
  obtain ⟨last, w, hlast, hdown, hlastticks, -⟩ := @Sound.Pushing.exists_shutdown ℝ _ _ _ Real.sin
    sidetone v (some 0) n _ 1764 hv sidetone_proper (by decide) hstopped (by decide)
  have hrun : (sound Real.sin).run s quickKeying = some v := by
    refine Machine.run_append.mpr ⟨u, Machine.run_append.mpr ⟨t', Machine.run_append.mpr
      ⟨t, Machine.run_append.mpr ⟨_, rfl, hfirst⟩, ?_⟩, hsecond⟩, hidle⟩
    rw [Machine.run_singleton, ← hstart]
    rfl
  -- all 100 ticks, the first aside
  have hall : w.ticks = [tick] ++ (tick' :: ticks ++ [last]) := by
    rw [hlastticks, hticks'', hticks', hticks]
    rfl
  have hcounted : lastTicks (Sound.maxIdleTicks - 1) w.ticks = tick' :: ticks ++ [last] := by
    have hlast : (tick' :: ticks ++ [last]).length = Sound.maxIdleTicks - 1 := by
      rw [List.length_append, List.length_cons, hlength]
      rfl
    rw [hall, ← hlast, lastTicks_append]
  have hafter : (sound Real.sin).Along Sound.AfterSilence v [.tick 1764] :=
    (h (quickKeying ++ [.tick 1764])).append hrun
  have hsilent := (hafter w hlast).1 ⟨by rw [hv.timer]; rfl, hdown⟩
  have hfalse := hsilent tick' (by rw [hcounted]; exact List.mem_cons_self)
  rw [htone] at hfalse
  cases hfalse

end CwKeyer
