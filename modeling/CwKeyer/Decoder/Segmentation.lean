import CwKeyer.Decoder.Spaces
import CwKeyer.Segments

/-!
# Letters from silences

With `u` the inter-element space of the session and `7u` its word space,
both threads compare `max (silence - u) u` with `u` and `7u`. As long as
the casts are exact this is a threshold on the silence between two
elements: the next one continues the letter up to `2u` and starts a new
one above, and a check ends the word from `8u` on.

So the sequences handed over are the segments of the elements received
under `near` (`Segmented`), whatever the order of the two threads: a check
that has ended a letter was late enough for the next element to be far.

Silences are counted in whole milliseconds, as `duration_cast` does.
-/

namespace CwKeyer

/-! ## Clock readings -/

theorem millis_mono {ns ns' : Int} (h : ns ≤ ns') : millis ns ≤ millis ns' :=
  Int.tdiv_le_tdiv (by decide) h

theorem millis_nonneg {ns : Int} (h : 0 ≤ ns) : 0 ≤ millis ns := by
  simpa [millis] using millis_mono h

theorem millis_mul (ms : Int) : millis (ms * 1000000) = ms :=
  Int.mul_tdiv_cancel ms (by decide)

/-! ## Elements and their silences -/

/-- An element as `runCW` receives it. -/
structure Signal where
  item : KeyerItem
  duration : Int
  now : Int
  signalTime : Int
deriving Repr, DecidableEq

namespace DecoderAct

def signal? : DecoderAct → Option Signal
  | .runCW item duration now signalTime => some ⟨item, duration, now, signalTime⟩
  | .timeoutCheck _ => none

/-- The readings of the clock in an action. -/
def readings : DecoderAct → List Int
  | .runCW _ _ now signalTime => [now, signalTime]
  | .timeoutCheck now => [now]

end DecoderAct

def signals (as : List DecoderAct) : List Signal := as.filterMap DecoderAct.signal?

def readings (as : List DecoderAct) : List Int := as.flatMap DecoderAct.readings

namespace Signal

/-- From the end of `x` to the start of `y`, in whole ms. -/
def silence (x y : Signal) : Int := millis (y.now - x.signalTime) - x.duration

/-- `y` continues the letter of `x`. -/
def near (u : Int) (x y : Signal) : Bool := decide (x.silence y ≤ 2 * u)

/-- The cast of the time from `x` to `y` is exact. -/
def Within (x y : Signal) : Prop := millis (y.now - x.signalTime) < 2 ^ 31

/-- The sequence that the elements of a letter make up. -/
def spelling (letter : List Signal) : String :=
  String.ofList (letter.map fun e => MorseTable.toSymbol e.item)

theorem spelling_singleton (e : Signal) : spelling [e] = "".push (MorseTable.toSymbol e.item) :=
  String.toList_inj.mp (by simp [spelling])

theorem spelling_snoc (letter : List Signal) (e : Signal) :
    spelling (letter ++ [e]) = (spelling letter).push (MorseTable.toSymbol e.item) :=
  String.toList_inj.mp (by simp [spelling])

end Signal

namespace CwDecoder

variable {u clock : Int} {d d' : CwDecoder} {es : List Signal}

/-- The decoder after the elements `es`, at the time `clock`. -/
structure Segmented (u : Int) (es : List Signal) (clock : Int) (d : CwDecoder) : Prop where
  handed : (es.splitBy (Signal.near u)).map Signal.spelling =
    d.handed ++ if d.currentSequence = "" then [] else [d.currentSequence]
  time : ∀ e ∈ es.getLast?, d.lastSignalTime = e.signalTime
  past : ∀ e ∈ es.getLast?, e.signalTime ≤ clock
  duration : d.currentSequence ≠ "" → ∀ e ∈ es.getLast?, d.lastDuration = e.duration
  /-- whatever comes after a check has ended the word is far -/
  paused : d.currentSequence = "" → ∀ e ∈ es.getLast?, ∀ y : Signal, clock ≤ y.now →
    e.Within y → 8 * u ≤ e.silence y

/-- Elements make up letters, so with none there is no sequence. -/
theorem Segmented.empty (h : Segmented u [] clock d) : d.handed = [] ∧ d.currentSequence = "" := by
  have := h.handed
  split at this
  case isTrue hseq => exact ⟨by simpa using this.symm, hseq⟩
  case isFalse => simp at this

/-- The sequence held is the last segment. -/
theorem Segmented.held (h : Segmented u es clock d) (hseq : d.currentSequence ≠ "") :
    ∃ L g, es.splitBy (Signal.near u) = L ++ [g] ∧ L.map Signal.spelling = d.handed ∧
      Signal.spelling g = d.currentSequence := by
  have hhanded := h.handed
  rw [if_neg hseq] at hhanded
  obtain ⟨L, G, hsplit, hL, hG⟩ := List.map_eq_append_iff.mp hhanded
  obtain ⟨g, rfl, hg⟩ := List.map_eq_singleton_iff.mp hG
  exact ⟨L, g, hsplit, hL, hg⟩

theorem Segmented.getLast? (h : Segmented u es clock d) (hseq : d.currentSequence ≠ "") :
    ∃ e, es.getLast? = some e := by
  cases hlast : es.getLast? with
  | some e => exact ⟨e, rfl⟩
  | none =>
      obtain rfl := List.getLast?_eq_none_iff.mp hlast
      exact absurd h.empty.2 hseq

/-- The silence that a thread measures after the element `e`. -/
theorem Segmented.silenceMs (h : Segmented u es clock d) (hlive : Live u (7 * u) d)
    (hseq : d.currentSequence ≠ "") {e y : Signal} (he : es.getLast? = some e)
    (hclock : clock ≤ y.now) (hwithin : e.Within y) :
    d.silenceMs y.now = max (e.silence y - u) u := by
  have hpast := h.past e he
  have hnonneg : 0 ≤ millis (y.now - e.signalTime) := millis_nonneg (by omega)
  rw [CwDecoder.silenceMs, h.time e he, h.duration hseq e he, hlive.interElementSpace,
    toInt_eq hnonneg hwithin]
  rfl

/-! ## Steps -/

@[simp] theorem afterElement_handed (item : KeyerItem) (duration signalTime : Int)
    (sequence : String) (log : List DecoderEvent) :
    (d.afterElement item duration signalTime sequence log).handed =
      log.filterMap DecoderEvent.handed? := by
  simp [handed, afterElement, List.filterMap_cons]

theorem Segmented.check (h : Segmented u es clock d) (hu : 1 ≤ u) (hlive : Live u (7 * u) d)
    {now : Int} (hclock : clock ≤ now) (hmove : Moves d (.timeoutCheck now) d') :
    Segmented u es now d' := by
  have hpast : ∀ e ∈ es.getLast?, e.signalTime ≤ now := fun e he =>
    Int.le_trans (h.past e he) hclock
  cases hmove with
  | idle =>
      exact ⟨h.handed, h.time, hpast, h.duration, fun hseq e he y hy =>
        h.paused hseq e he y (Int.le_trans hclock hy)⟩
  | pause now hseq hw =>
      refine ⟨?_, h.time, hpast, fun h => absurd rfl h, ?_⟩
      · simp [h.handed, hseq, CwDecoder.handed, flushed_handed]
      · intro _ e he y hy hwithin
        -- the check measured a silence that has only grown since
        let z : Signal := ⟨.dit, 0, now, now⟩
        have hgrown : millis (z.now - e.signalTime) ≤ millis (y.now - e.signalTime) :=
          millis_mono (Int.sub_le_sub_right hy _)
        have hz := h.silenceMs hlive hseq (y := z) he hclock (Int.lt_of_le_of_lt hgrown hwithin)
        have hsilence : e.silence z ≤ e.silence y := Int.sub_le_sub_right hgrown _
        rw [show z.now = now from rfl] at hz
        rw [hz, hlive.wordSpace] at hw
        omega

theorem Segmented.element (h : Segmented u es clock d) (hu : 1 ≤ u) (hlive : Live u (7 * u) d)
    {y : Signal} (hclock : clock ≤ y.now) (hwithin : ∀ e ∈ es.getLast?, e.Within y)
    (hmove : Moves d (.runCW y.item y.duration y.now y.signalTime) d') :
    Segmented u (es ++ [y]) y.signalTime d' := by
  suffices hhanded : ((es ++ [y]).splitBy (Signal.near u)).map Signal.spelling =
      d'.handed ++ [d'.currentSequence] ∧ d'.currentSequence ≠ "" ∧
      d'.lastSignalTime = y.signalTime ∧ d'.lastDuration = y.duration by
    obtain ⟨hhanded, hne, htime, hduration⟩ := hhanded
    refine ⟨by rwa [if_neg hne], ?_, ?_, fun _ => ?_, fun h => absurd h hne⟩ <;>
      simp [htime, hduration]
  by_cases hseq : d.currentSequence = ""
  · -- nothing is held: the element is far from the last one
    have hfar : ∀ e ∈ es.getLast?, Signal.near u e y = false := fun e he => by
      have := h.paused hseq e he y hclock (hwithin e he)
      simp only [Signal.near, decide_eq_false_iff_not]
      omega
    have hhanded := h.handed
    rw [if_pos hseq, List.append_nil] at hhanded
    rw [splitBy_snoc_far hfar, List.map_append, hhanded]
    cases hmove <;> simp [afterElement, hseq, flushed_handed, Signal.spelling_singleton,
      CwDecoder.handed]
  · obtain ⟨e, he⟩ := h.getLast? hseq
    obtain ⟨L, g, hsplit, hL, hg⟩ := h.held hseq
    have hsilence := h.silenceMs hlive hseq he hclock (hwithin e he)
    have hfar (hs : u < d.silenceMs y.now) :
        ((es ++ [y]).splitBy (Signal.near u)).map Signal.spelling =
          d.handed ++ [d.currentSequence] ++ ["".push (MorseTable.toSymbol y.item)] := by
      rw [splitBy_snoc_far, hsplit]
      · simp [hL, hg, Signal.spelling_singleton]
      · intro x hx
        obtain rfl := Option.some.inj (he.symm.trans hx)
        simp only [Signal.near, decide_eq_false_iff_not]
        omega
    cases hmove with
    | word item duration now signalTime hw =>
        rw [hlive.wordSpace] at hw
        rw [hfar (by omega)]
        simp [afterElement, hseq, flushed_handed, CwDecoder.handed]
    | letter item duration now signalTime hw hl =>
        rw [hlive.interElementSpace] at hl
        rw [hfar hl]
        simp [afterElement, hseq, flushed_handed, CwDecoder.handed]
    | inside item duration now signalTime hw hl =>
        rw [hlive.interElementSpace] at hl
        have hnear : Signal.near u e y = true := by
          simp only [Signal.near, decide_eq_true_eq]
          omega
        rw [splitBy_snoc_near hsplit he hnear, List.map_append, hL]
        simp [afterElement, CwDecoder.handed, Signal.spelling_snoc, hg]

/-- A check that sees `8u` of silence after the last element leaves no
sequence. -/
theorem Segmented.ended (h : Segmented u es clock d) (hlive : Live u (7 * u) d)
    {now : Int} (hclock : clock ≤ now)
    (hwithin : ∀ e ∈ es.getLast?, millis (now - e.signalTime) < 2 ^ 31)
    (hlast : ∀ e ∈ es.getLast?, 8 * u ≤ millis (now - e.signalTime) - e.duration)
    (hmove : Moves d (.timeoutCheck now) d') : d'.currentSequence = "" := by
  cases hmove with
  | pause => rfl
  | idle now hidle =>
      refine hidle.elim id fun hidle => ?_
      by_contra hseq
      obtain ⟨e, he⟩ := h.getLast? hseq
      have hsilence := h.silenceMs hlive hseq (y := ⟨.dit, 0, now, now⟩) he hclock (hwithin e he)
      have hlast : 8 * u ≤ e.silence ⟨.dit, 0, now, now⟩ := hlast e he
      rw [hlive.wordSpace] at hidle
      simp only at hsilence
      omega

/-! ## Runs -/

/-- The time after a run, by its last reading of the clock. -/
def clockAfter (startTime : Int) (as : List DecoderAct) : Int :=
  (readings as).getLast?.getD startTime

/-- A session from `startTime` on whose clock does not go back. -/
def Timeline (startTime : Int) (as : List DecoderAct) : Prop :=
  (startTime :: readings as).IsChain (· ≤ ·)

instance (startTime : Int) (as : List DecoderAct) : Decidable (Timeline startTime as) :=
  inferInstanceAs (Decidable ((startTime :: readings as).IsChain (· ≤ ·)))

theorem Timeline.snoc {startTime : Int} {as : List DecoderAct} {a : DecoderAct}
    (h : Timeline startTime (as ++ [a])) : Timeline startTime as ∧
      (clockAfter startTime as :: a.readings).IsChain (· ≤ ·) := by
  simp only [Timeline, readings, List.flatMap_append, List.flatMap_singleton,
    ← List.cons_append] at h
  obtain ⟨has, ha, hjoin⟩ := List.isChain_append.mp h
  refine ⟨has, List.isChain_cons.mpr ⟨fun b hb => hjoin _ ?_ b hb, ha⟩⟩
  rw [List.getLast?_cons]
  rfl

theorem segmented_start (d : CwDecoder) (farnsWorth wpm startTime : Int) :
    Segmented u [] startTime (d.start farnsWorth wpm startTime) :=
  ⟨rfl, by simp, by simp, by simp, by simp⟩

theorem segmented_run (d : CwDecoder) {farnsWorth wpm startTime : Int}
    (hu : calculateDuration .interElementSpace farnsWorth = u) (hpos : 1 ≤ u)
    {as : List DecoderAct} {t : CwDecoder} (hclock : Timeline startTime as)
    (hgaps : (signals as).IsChain Signal.Within)
    (hrun : cwDecoder.run (d.start farnsWorth wpm startTime) as = some t) :
    Live u (7 * u) t ∧ Segmented u (signals as) (clockAfter startTime as) t := by
  have hw : calculateDuration .wordSpace farnsWorth = 7 * u := by
    simp only [calculateDuration] at hu ⊢
    omega
  revert hclock hgaps
  refine cwDecoder.run_rec (C := fun as t => Timeline startTime as →
    (signals as).IsChain Signal.Within →
    Live u (7 * u) t ∧ Segmented u (signals as) (clockAfter startTime as) t) ?_ ?_ hrun
  · intro _ _
    have hlive := d.live_start farnsWorth wpm startTime
    rw [hu, hw] at hlive
    exact ⟨hlive, d.segmented_start farnsWorth wpm _⟩
  · intro as t a t' ih hstep hclock hgaps
    obtain ⟨hclock, ha⟩ := hclock.snoc
    simp only [signals, List.filterMap_append] at hgaps
    obtain ⟨hgaps, -, hwithin⟩ := List.isChain_append.mp hgaps
    obtain ⟨hlive, hseg⟩ := ih hclock hgaps
    have hmove := step_moves hlive hstep
    refine ⟨hmove.live hlive, ?_⟩
    cases a with
    | runCW item duration now signalTime =>
        have hle := (List.isChain_cons_cons.mp ha).1
        have := hseg.element hpos hlive (y := ⟨item, duration, now, signalTime⟩) hle
          (fun e he => hwithin e he _ (by simp [DecoderAct.signal?])) hmove
        simpa [signals, DecoderAct.signal?, clockAfter, readings, DecoderAct.readings] using this
    | timeoutCheck now =>
        have hle := (List.isChain_cons_cons.mp ha).1
        have := hseg.check hpos hlive hle hmove
        simpa [signals, List.filterMap_cons, DecoderAct.signal?, clockAfter, readings,
          DecoderAct.readings] using this

/-! ## Texts -/

/-- The callback for a sequence handed over. -/
def voice (sequence : String) : Option String := textOf (MorseTable.decode sequence)

/-- The callbacks other than ' ' are those for the sequences handed over. -/
def Voiced (d : CwDecoder) : Prop :=
  d.texts.filter (· ≠ " ") = d.handed.filterMap voice

theorem voice_ne_space {s : String} {l : List String} (h : s ∈ l.filterMap voice) : s ≠ " " := by
  obtain ⟨sequence, -, hsome⟩ := List.mem_filterMap.mp h
  rintro rfl
  exact textOf_ne_space sequence hsome

theorem flushed_texts (d : CwDecoder) : d.flushed.filterMap DecoderEvent.text? =
    (d.flushed.filterMap DecoderEvent.handed?).filterMap voice := by
  unfold flushed
  split
  case isTrue => rfl
  case isFalse =>
    cases h : textOf (MorseTable.decode d.currentSequence) <;>
      simp [voice, h, List.filterMap_cons]

theorem Voiced.step {a : DecoderAct} (h : Voiced d) (hmove : Moves d a d') : Voiced d' := by
  unfold Voiced at h ⊢
  have hflushed : (d.flushed.filterMap DecoderEvent.text?).filter (· ≠ " ") =
      (d.flushed.filterMap DecoderEvent.handed?).filterMap voice := by
    rw [flushed_texts, List.filter_eq_self]
    intro s hs
    simpa using voice_ne_space hs
  cases hmove with
  | idle => exact h
  | pause | word | letter | inside =>
      simp_all [texts, handed, afterElement, List.filterMap_cons]

theorem voiced_run (d : CwDecoder) {farnsWorth wpm startTime : Int} {as : List DecoderAct}
    {t : CwDecoder} (hrun : cwDecoder.run (d.start farnsWorth wpm startTime) as = some t) :
    Voiced t := by
  have hreach : cwDecoder.Reachable (d.start farnsWorth wpm startTime) t := ⟨as, hrun⟩
  refine (hreach.invariant (I := fun d => (∃ u w, Live u w d) ∧ Voiced d)
    ⟨⟨_, _, d.live_start farnsWorth wpm startTime⟩, rfl⟩ ?_).2
  rintro d a d' ⟨⟨u, w, hlive⟩, hvoiced⟩ hstep
  have hmove := step_moves hlive hstep
  exact ⟨⟨u, w, hmove.live hlive⟩, hvoiced.step hmove⟩

theorem keys_voiced : ∀ key ∈ MorseTable.keys, (voice key).isSome = true := by decide

theorem voice_keys {l : List String} (h : ∀ key ∈ l, key ∈ MorseTable.keys) :
    (l.filterMap voice).map some = l.map voice := by
  rw [List.map_filterMap_some_eq_filter_map_isSome, List.filter_eq_self]
  intro v hv
  obtain ⟨key, hkey, rfl⟩ := List.mem_map.mp hv
  exact keys_voiced key (h key hkey)

/-! ## Decoded letters -/

theorem interElementSpace_pos {farnsWorth : Int} (h : 1 ≤ farnsWorth ∧ farnsWorth ≤ 1200) :
    1 ≤ calculateDuration .interElementSpace farnsWorth := by
  simp only [calculateDuration, parisTimeBase]
  rw [Int.tdiv_eq_ediv_of_nonneg (by decide), Int.le_ediv_iff_mul_le (by omega)]
  omega

theorem Timeline.start_le {startTime : Int} {as : List DecoderAct}
    (h : Timeline startTime as) : ∀ time ∈ readings as, startTime ≤ time :=
  (List.pairwise_cons.mp h.pairwise).1

theorem mem_readings {as : List DecoderAct} {e : Signal} (he : e ∈ signals as) :
    e.now ∈ readings as ∧ e.signalTime ∈ readings as := by
  obtain ⟨a, ha, hsome⟩ := List.mem_filterMap.mp he
  cases a with
  | timeoutCheck => cases hsome
  | runCW item duration now signalTime =>
      obtain rfl := Option.some.inj hsome
      simp only [readings, List.mem_flatMap]
      exact ⟨⟨_, ha, by simp [DecoderAct.readings]⟩, ⟨_, ha, by simp [DecoderAct.readings]⟩⟩

/-- In a session shorter than `2 ^ 30` ms every cast is exact. -/
theorem Timeline.within {startTime : Int} {as : List DecoderAct} (h : Timeline startTime as)
    {now : Int} (hrange : millis (now - startTime) < 2 ^ 30) {e : Signal} (he : e ∈ signals as) :
    millis (now - e.signalTime) < 2 ^ 31 := by
  have hstart := h.start_le _ (mem_readings he).2
  have hle : millis (now - e.signalTime) ≤ millis (now - startTime) :=
    millis_mono (Int.sub_le_sub_left hstart _)
  omega

end CwDecoder

/-- Letters are decoded as they were keyed: when every silence inside a
letter is at most `2u` and every one between letters more, then once a
check has seen `8u` after the last element the callbacks other than ' '
are the letters' outputs, one for each, in order. -/
theorem letters_decoded (d : CwDecoder) {u farnsWorth wpm startTime now : Int}
    (hu : u = calculateDuration .interElementSpace farnsWorth)
    (hfw : 1 ≤ farnsWorth ∧ farnsWorth ≤ 1200) {as : List DecoderAct} {t : CwDecoder}
    (hclock : CwDecoder.Timeline startTime (as ++ [.timeoutCheck now]))
    (hrange : ∀ time ∈ readings (as ++ [.timeoutCheck now]), millis (time - startTime) < 2 ^ 30)
    {letters : List (List Signal)} (hletters : signals as = letters.flatten)
    (hkeys : ∀ letter ∈ letters, Signal.spelling letter ∈ MorseTable.keys)
    (hinside : ∀ letter ∈ letters, letter.IsChain fun x y => x.silence y ≤ 2 * u)
    (hbetween : letters.IsChain (Joined fun x y => 2 * u < x.silence y))
    (hlast : ∀ e ∈ (signals as).getLast?, 8 * u ≤ millis (now - e.signalTime) - e.duration)
    (hrun : cwDecoder.run (d.start farnsWorth wpm startTime) (as ++ [.timeoutCheck now]) = some t) :
    (t.texts.filter (· ≠ " ")).map some =
      letters.map fun letter => CwDecoder.textOf (MorseTable.decode (Signal.spelling letter)) := by
  have hpos : 1 ≤ u := hu ▸ CwDecoder.interElementSpace_pos hfw
  obtain ⟨hclock', hnow⟩ := hclock.snoc
  have hle : CwDecoder.clockAfter startTime as ≤ now := (List.isChain_cons_cons.mp hnow).1
  have hreadings : ∀ time ∈ readings as ++ [now], millis (time - startTime) < 2 ^ 30 := by
    simpa [readings, DecoderAct.readings] using hrange
  have hgaps : (signals as).IsChain Signal.Within := by
    refine List.Pairwise.isChain (List.pairwise_of_forall_mem_list fun x hx y hy => ?_)
    exact hclock'.within (hreadings _ (by simp [(CwDecoder.mem_readings hy).1])) hx
  obtain ⟨d', hrun', hstep⟩ := Machine.run_append.mp hrun
  obtain ⟨hlive, hseg⟩ := d.segmented_run hu.symm hpos hclock' hgaps hrun'
  rw [Machine.run_singleton] at hstep
  have hmove := CwDecoder.step_moves hlive hstep
  have hend : t.currentSequence = "" := by
    refine hseg.ended hlive hle (fun e he => ?_) hlast hmove
    exact hclock'.within (hreadings _ (by simp)) (List.mem_of_mem_getLast? he)
  -- the segments of the elements are the letters
  have hsegments : (signals as).splitBy (Signal.near u) = letters := by
    rw [hletters]
    refine splitBy_segments (fun hnil => ?_) (fun g hg => ?_) ?_
    · exact absurd (hkeys [] hnil) (by decide)
    · exact (hinside g hg).imp fun x y hxy => by simpa [Signal.near] using hxy
    · exact hbetween.imp fun g g' hjoin =>
        hjoin.mono fun x _ y _ hxy => by simpa [Signal.near] using hxy
  have hhanded := (hseg.check hpos hlive hle hmove).handed
  rw [hend, if_pos rfl, List.append_nil, hsegments] at hhanded
  have hvoiced := d.voiced_run hrun
  rw [CwDecoder.Voiced, ← hhanded] at hvoiced
  rw [hvoiced, CwDecoder.voice_keys, List.map_map]
  · rfl
  · simpa using hkeys

/-- A dit and, four dits later, a dah. -/
theorem letters_decoded_et : ∃ t,
    cwDecoder.run (CwDecoder.start {} 20 20 0) ([.runCW .dit 60 0 0,
      .runCW .dah 180 300000000 300000000] ++ [.timeoutCheck 960000000]) = some t ∧
    (t.texts.filter (· ≠ " ")).map some = [some "E", some "T"] :=
  ⟨_, rfl, (@letters_decoded {} 60 20 20 0 960000000 (by decide) (by decide)
    [.runCW .dit 60 0 0, .runCW .dah 180 300000000 300000000] _ (by decide) (by decide)
    [[⟨.dit, 60, 0, 0⟩], [⟨.dah, 180, 300000000, 300000000⟩]] rfl (by decide) (by decide)
    (by decide) (by decide) rfl).trans (by decide)⟩

end CwKeyer
