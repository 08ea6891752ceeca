import CwKeyer.Decoder.Segmentation
import Mathlib.Data.List.DropRight

/-!
# Text keyed with standard timing

A word space of standard timing is `7u`, and it is measured as `6u`: the
silence that the two threads compare with `wordSpace` has had one
inter-element space subtracted that nobody keyed. So the letters come out
right and no ' ' ever stands between two words (`text_decoded_iff`).
-/

namespace CwKeyer

/-! ## Standard timing -/

/-- `y` starts `s` ms after the end of `x`. -/
def Signal.After (s : Int) (x y : Signal) : Prop :=
  y.now = x.signalTime + (x.duration + s) * 1000000

instance (s : Int) : DecidableRel (Signal.After s) := fun _ _ => inferInstanceAs (Decidable (_ = _))

/-- The words, as letters made of elements, are keyed at `wpm` with the
spaces between letters and words of `farnsWorth`, from `startTime` on. -/
structure StandardTiming (farnsWorth wpm startTime : Int)
    (words : List (List (List Signal))) : Prop where
  keyed : ∀ e ∈ words.flatten.flatten, (e.item = .dit ∨ e.item = .dah) ∧
    e.duration = calculateDuration e.item wpm ∧ e.signalTime = e.now
  first : ∀ e ∈ words.flatten.flatten.head?, e.now = startTime
  inLetter : ∀ letter ∈ words.flatten,
    letter.IsChain (Signal.After (calculateDuration .dit wpm))
  inWord : ∀ word ∈ words,
    word.IsChain (Joined (Signal.After (calculateDuration .letterSpace farnsWorth)))
  between : words.IsChain
    (Joined (Joined (Signal.After (calculateDuration .wordSpace farnsWorth))))

/-- The callbacks that the text asks for: the outputs of the letters, with
one ' ' between words. -/
def expectedTexts (words : List (List (List Signal))) : List String :=
  [" "].intercalate (words.map fun word =>
    word.filterMap fun letter => CwDecoder.voice (Signal.spelling letter))

/-- The callbacks from the first letter's output to the last letter's. -/
def betweenLetters (texts : List String) : List String :=
  (texts.dropWhile (· == " ")).rdropWhile (· == " ")

theorem betweenLetters_eq {lead outs trail : List String} (hlead : ∀ s ∈ lead, s = " ")
    (houts : ∀ s ∈ outs, s ≠ " ") (htrail : ∀ s ∈ trail, s = " ") :
    betweenLetters (lead ++ outs ++ trail) = outs := by
  have hdrop : (lead ++ outs ++ trail).dropWhile (· == " ") =
      (outs ++ trail).dropWhile (· == " ") := by
    rw [List.append_assoc, List.dropWhile_append_of_pos]
    simpa using hlead
  rw [betweenLetters, hdrop]
  cases outs with
  | nil =>
      rw [List.nil_append, List.dropWhile_eq_nil_iff.mpr (by simpa using htrail)]
      rfl
  | cons s outs =>
      have hs : s ≠ " " := houts s (by simp)
      rw [List.cons_append, List.dropWhile_cons_of_neg (by simpa using hs), ← List.cons_append,
        List.rdropWhile, List.reverse_append, List.dropWhile_append_of_pos]
      · rw [← List.rdropWhile, List.rdropWhile_eq_self_iff]
        intro hne
        simpa using houts _ (List.getLast_mem hne)
      · simpa using htrail

theorem space_mem_intercalate {L : List (List String)} (h : 2 ≤ L.length) :
    " " ∈ [" "].intercalate L := by
  match L with
  | a :: b :: L => simp [List.intercalate, List.intersperse]

/-- Without a ' ' of its own a text of two words or more is not expected. -/
theorem expectedTexts_eq_iff {words : List (List (List Signal))} :
    (words.flatten.map Signal.spelling).filterMap CwDecoder.voice = expectedTexts words ↔
      words.length ≤ 1 := by
  constructor
  · intro heq
    by_contra hlen
    have hspace : " " ∈ expectedTexts words := space_mem_intercalate (by simp; omega)
    exact CwDecoder.voice_ne_space (heq ▸ hspace) rfl
  · intro hlen
    match words with
    | [] => rfl
    | [word] => simp [expectedTexts, List.intercalate]

/-! ## Standard silences -/

/-- A faster dit is no longer. -/
theorem calculateDuration_dit_le {farnsWorth wpm : Int} (hfw : 1 ≤ farnsWorth)
    (h : farnsWorth ≤ wpm) : calculateDuration .dit wpm ≤ calculateDuration .dit farnsWorth := by
  simp only [calculateDuration, parisTimeBase]
  rw [Int.tdiv_eq_ediv_of_nonneg (by decide), Int.tdiv_eq_ediv_of_nonneg (by decide),
    Int.le_ediv_iff_mul_le (by omega)]
  calc 1200 / wpm * farnsWorth ≤ 1200 / wpm * wpm :=
        Int.mul_le_mul_of_nonneg_left h (Int.ediv_nonneg (by decide) (by omega))
    _ ≤ 1200 := Int.ediv_mul_le 1200 (by omega)

/-- The standard silences in terms of the inter-element space. -/
theorem standardSpaces {farnsWorth wpm u : Int}
    (h : 1 ≤ farnsWorth ∧ farnsWorth ≤ wpm ∧ wpm ≤ 1200)
    (hu : calculateDuration .interElementSpace farnsWorth = u) :
    1 ≤ u ∧ calculateDuration .dit wpm ≤ u ∧ calculateDuration .letterSpace farnsWorth = 3 * u ∧
      calculateDuration .wordSpace farnsWorth = 7 * u := by
  refine ⟨hu ▸ CwDecoder.interElementSpace_pos (by omega),
    hu ▸ calculateDuration_dit_le h.1 h.2.1, ?_, ?_⟩
  all_goals
    simp only [calculateDuration] at hu ⊢
    omega

theorem Signal.After.millis {s : Int} {x y : Signal} (h : x.After s y) :
    CwKeyer.millis (y.now - x.signalTime) = x.duration + s := by
  rw [show y.now - x.signalTime = (x.duration + s) * 1000000 by unfold After at h; omega,
    millis_mul]

theorem Signal.After.silence {s : Int} {x y : Signal} (h : x.After s y) : x.silence y = s := by
  rw [Signal.silence, h.millis]
  omega

/-- A silence of standard timing: too short for a check to end the word. -/
def Signal.Brief (u : Int) (x y : Signal) : Prop := x.Within y ∧ x.silence y < 8 * u

namespace StandardTiming

variable {farnsWorth wpm startTime : Int} {words : List (List (List Signal))}

theorem brief_of_after (h : StandardTiming farnsWorth wpm startTime words)
    {u s : Int} (hu : u ≤ 1200) (hs : s < 8 * u) {x y : Signal}
    (hx : x ∈ words.flatten.flatten) (hafter : x.After s y) : x.Brief u y := by
  refine ⟨?_, by rwa [hafter.silence]⟩
  have hdit : Int.tdiv 1200 wpm ≤ 1200 := Int.tdiv_le_self wpm (by decide)
  obtain ⟨hitem, hduration, -⟩ := h.keyed x hx
  rw [Signal.Within, hafter.millis, hduration]
  rcases hitem with hitem | hitem <;> rw [hitem] <;>
    simp only [calculateDuration, parisTimeBase] <;> omega

/-- Any two neighbours are at most a word space apart. -/
theorem brief (h : StandardTiming farnsWorth wpm startTime words)
    (hspeeds : 1 ≤ farnsWorth ∧ farnsWorth ≤ wpm ∧ wpm ≤ 1200) {u : Int}
    (hu : calculateDuration .interElementSpace farnsWorth = u) (hwords : [] ∉ words)
    (hletters : [] ∉ words.flatten) :
    words.flatten.flatten.IsChain (Signal.Brief u) := by
  obtain ⟨hpos, hle, hletter, hword⟩ := standardSpaces hspeeds hu
  have hmax : u ≤ 1200 := hu ▸ Int.tdiv_le_self farnsWorth (by decide)
  have hbrief {s : Int} (hs : s < 8 * u) {x y : Signal} (hx : x ∈ words.flatten.flatten)
      (hafter : x.After s y) : x.Brief u y :=
    h.brief_of_after hmax hs hx hafter
  have hmem {word letter : List _} {x : Signal} (hw : word ∈ words) (hl : letter ∈ word)
      (hx : x ∈ letter) : x ∈ words.flatten.flatten :=
    List.mem_flatten.mpr ⟨letter, List.mem_flatten.mpr ⟨word, hw, hl⟩, hx⟩
  refine (List.isChain_flatten hletters).mpr ⟨fun letter hl => ?_, ?_⟩
  · refine (h.inLetter letter hl).imp_of_mem_imp fun x y hx _ => hbrief (by omega) ?_
    exact List.mem_flatten.mpr ⟨letter, hl, hx⟩
  refine (List.isChain_flatten hwords).mpr ⟨fun word hw => ?_, ?_⟩
  · refine (h.inWord word hw).imp_of_mem_imp fun l l' hl _ hjoin => ?_
    exact hjoin.mono fun x hx y _ => hbrief (by omega) (hmem hw hl hx)
  · refine h.between.imp_of_mem_imp fun v w hv _ hjoin => ?_
    exact hjoin.mono fun l hl l' _ hjoin =>
      hjoin.mono fun x hx y _ => hbrief (by omega) (hmem hv hl hx)

/-- The letters are the segments of the elements. -/
theorem splitBy_near (h : StandardTiming farnsWorth wpm startTime words)
    (hspeeds : 1 ≤ farnsWorth ∧ farnsWorth ≤ wpm ∧ wpm ≤ 1200) {u : Int}
    (hu : calculateDuration .interElementSpace farnsWorth = u) (hwords : [] ∉ words)
    (hletters : [] ∉ words.flatten) :
    words.flatten.flatten.splitBy (Signal.near u) = words.flatten := by
  obtain ⟨hpos, hle, hletter, hword⟩ := standardSpaces hspeeds hu
  have hfar {s : Int} (hs : 2 * u < s) {x y : Signal} (hafter : x.After s y) :
      Signal.near u x y = false := by
    simpa [Signal.near, hafter.silence] using hs
  refine splitBy_segments hletters (fun letter hl => ?_) ?_
  · refine (h.inLetter letter hl).imp fun x y hafter => ?_
    simp only [Signal.near, hafter.silence, decide_eq_true_eq]
    omega
  refine (List.isChain_flatten hwords).mpr ⟨fun word hw => ?_, ?_⟩
  · exact (h.inWord word hw).imp fun l l' hjoin =>
      hjoin.mono fun x _ y _ => hfar (by omega)
  · exact h.between.imp fun v w hjoin =>
      hjoin.mono fun l _ l' _ hjoin => hjoin.mono fun x _ y _ => hfar (by omega)

end StandardTiming

/-! ## Text without pauses -/

namespace CwDecoder

variable {u clock : Int} {d d' : CwDecoder} {es : List Signal}

/-- The callbacks are those for the letters, with a ' ' after them once a
check has ended the last; one before them if the first element came late. -/
structure Plain (es : List Signal) (d : CwDecoder) : Prop where
  silent : es = [] → d.texts = []
  spoken : ∃ lead, (∀ s ∈ lead, s = " ") ∧
    d.texts = lead ++ d.handed.filterMap voice ++
      if es ≠ [] ∧ d.currentSequence = "" then [" "] else []

theorem plain_start (d : CwDecoder) (farnsWorth wpm startTime : Int) :
    Plain [] (d.start farnsWorth wpm startTime) :=
  ⟨fun _ => rfl, [], by simp, rfl⟩

theorem Plain.check (h : Plain es d) (hseg : Segmented u es clock d) {now : Int}
    (hmove : Moves d (.timeoutCheck now) d') : Plain es d' := by
  cases hmove with
  | idle => exact h
  | pause now hseq hw =>
      obtain ⟨e, he⟩ := hseg.getLast? hseq
      have hes : es ≠ [] := fun h => by simp [h] at he
      obtain ⟨lead, hlead, htexts⟩ := h.spoken
      refine ⟨fun h => absurd h hes, lead, hlead, ?_⟩
      simp [hes, hseq, texts, CwDecoder.handed] at htexts ⊢
      simp [htexts, flushed_texts]

theorem Plain.element (h : Plain es d) (hseg : Segmented u es clock d)
    (hlive : Live u (7 * u) d) (hu : 1 ≤ u) {y : Signal} (hclock : clock ≤ y.now)
    (hbrief : ∀ e ∈ es.getLast?, e.Brief u y)
    (hmove : Moves d (.runCW y.item y.duration y.now y.signalTime) d') :
    Plain (es ++ [y]) d' := by
  refine ⟨fun h => by simp at h, ?_⟩
  cases hlast : es.getLast? with
  | none =>
      obtain rfl := List.getLast?_eq_none_iff.mp hlast
      have htexts : d.log.filterMap DecoderEvent.text? = [] := h.silent rfl
      obtain ⟨hhanded, hseq⟩ := hseg.empty
      rw [CwDecoder.handed] at hhanded
      cases hmove with
      | word =>
          refine ⟨[" "], by simp, ?_⟩
          simp [texts, handed, afterElement, flushed, hseq, htexts, hhanded, List.filterMap_cons]
      | letter | inside =>
          refine ⟨[], by simp, ?_⟩
          simp [texts, handed, afterElement, flushed, hseq, htexts, hhanded, List.filterMap_cons]
  | some e =>
      have hes : es ≠ [] := fun h => by simp [h] at hlast
      obtain ⟨hwithin, hsilence⟩ := hbrief e hlast
      have hseq : d.currentSequence ≠ "" := fun hseq => by
        have := hseg.paused hseq e hlast y hclock hwithin
        omega
      obtain ⟨lead, hlead, htexts⟩ := h.spoken
      refine ⟨lead, hlead, ?_⟩
      have hsil := hseg.silenceMs hlive hseq hlast hclock hwithin
      cases hmove with
      | word item duration now signalTime hw =>
          rw [hlive.wordSpace] at hw
          omega
      | letter | inside =>
          simp_all [texts, handed, afterElement, flushed_texts, List.filterMap_cons]

theorem plain_run (d : CwDecoder) {farnsWorth wpm startTime : Int}
    (hu : calculateDuration .interElementSpace farnsWorth = u) (hpos : 1 ≤ u)
    {as : List DecoderAct} {t : CwDecoder} (hclock : Timeline startTime as)
    (hbrief : (signals as).IsChain (Signal.Brief u))
    (hrun : cwDecoder.run (d.start farnsWorth wpm startTime) as = some t) :
    Plain (signals as) t := by
  suffices h : cwDecoder.run (d.start farnsWorth wpm startTime) as = some t ∧
      (Timeline startTime as → (signals as).IsChain (Signal.Brief u) → Plain (signals as) t) from
    h.2 hclock hbrief
  refine cwDecoder.run_rec (C := fun as t =>
    cwDecoder.run (d.start farnsWorth wpm startTime) as = some t ∧
      (Timeline startTime as → (signals as).IsChain (Signal.Brief u) → Plain (signals as) t))
    ⟨rfl, fun _ _ => d.plain_start farnsWorth wpm startTime⟩ ?_ hrun
  rintro as t a t' ⟨hrun, ih⟩ hstep
  refine ⟨Machine.run_append.mpr ⟨t, hrun, by simpa using hstep⟩, ?_⟩
  intro hsnoc hbriefs
  obtain ⟨hclock, ha⟩ := hsnoc.snoc
  simp only [signals, List.filterMap_append] at hbriefs
  obtain ⟨hbrief, -, hnext⟩ := List.isChain_append.mp hbriefs
  obtain ⟨hlive, hseg⟩ := d.segmented_run hu hpos hclock (hbrief.imp fun _ _ h => h.1) hrun
  have hmove := step_moves hlive hstep
  cases a with
  | runCW item duration now signalTime =>
      have hle := (List.isChain_cons_cons.mp ha).1
      have := (ih hclock hbrief).element hseg hlive hpos (y := ⟨item, duration, now, signalTime⟩)
        hle (fun e he => hnext e he _ (by simp [DecoderAct.signal?])) hmove
      simpa [signals, DecoderAct.signal?] using this
  | timeoutCheck now =>
      have := (ih hclock hbrief).check hseg hmove
      simpa [signals, List.filterMap_cons, DecoderAct.signal?] using this

end CwDecoder

/-- Text keyed with standard timing is decoded to itself, spaces included,
exactly if it has at most one word. -/
theorem text_decoded_iff (d : CwDecoder) {farnsWorth wpm startTime : Int}
    (hspeeds : 1 ≤ farnsWorth ∧ farnsWorth ≤ wpm ∧ wpm ≤ 1200)
    {words : List (List (List Signal))} (hwords : [] ∉ words)
    (hkeys : ∀ letter ∈ words.flatten, Signal.spelling letter ∈ MorseTable.keys)
    (htiming : StandardTiming farnsWorth wpm startTime words) {as : List DecoderAct}
    {t : CwDecoder} (hclock : CwDecoder.Timeline startTime as)
    (hsignals : signals as = words.flatten.flatten)
    (hrun : cwDecoder.run (d.start farnsWorth wpm startTime) as = some t)
    (hflushed : t.currentSequence = "") :
    betweenLetters t.texts = expectedTexts words ↔ words.length ≤ 1 := by
  have hletters : [] ∉ words.flatten := fun hnil => absurd (hkeys [] hnil) (by decide)
  obtain ⟨hpos, -⟩ := standardSpaces hspeeds rfl
  have hbrief := htiming.brief hspeeds rfl hwords hletters
  rw [← hsignals] at hbrief
  obtain ⟨-, hseg⟩ := d.segmented_run rfl hpos hclock (hbrief.imp fun _ _ h => h.1) hrun
  obtain ⟨lead, hlead, htexts⟩ := (d.plain_run rfl hpos hclock hbrief hrun).spoken
  have hhanded := hseg.handed
  rw [hflushed, if_pos rfl, List.append_nil, hsignals,
    htiming.splitBy_near hspeeds rfl hwords hletters] at hhanded
  rw [htexts, betweenLetters_eq hlead (fun s hs => CwDecoder.voice_ne_space hs), ← hhanded]
  · exact expectedTexts_eq_iff
  · intro s hs
    split at hs
    · simpa using hs
    · cases hs

/-- "AN" at 20 wpm. -/
def oneWord : List (List (List Signal)) :=
  [[[⟨.dit, 60, 0, 0⟩, ⟨.dah, 180, 120000000, 120000000⟩],
    [⟨.dah, 180, 480000000, 480000000⟩, ⟨.dit, 60, 720000000, 720000000⟩]]]

/-- Its elements, with checks inside and after a letter and one that ends the
word. -/
def keysOneWord : List DecoderAct :=
  [.runCW .dit 60 0 0, .timeoutCheck 100000000, .runCW .dah 180 120000000 120000000,
    .timeoutCheck 400000000, .runCW .dah 180 480000000 480000000,
    .runCW .dit 60 720000000 720000000, .timeoutCheck 1260000000]

theorem text_decoded_iff_an : ∃ t : CwDecoder,
    cwDecoder.run (CwDecoder.start {} 20 20 0) keysOneWord = some t
      ∧ betweenLetters t.texts = expectedTexts oneWord ∧ expectedTexts oneWord = ["A", "N"] := by
  refine ⟨_, rfl, ?_, by decide⟩
  have hrun : cwDecoder.run (CwDecoder.start {} 20 20 0) keysOneWord = some _ := rfl
  have htiming : StandardTiming 20 20 0 oneWord :=
    ⟨by decide, by decide, by decide, by decide, by decide⟩
  exact (text_decoded_iff {} (by decide) (by decide) (by decide) htiming (by decide) rfl hrun
    (by decide)).mpr (by decide)

/-- Two dits, a word space apart. -/
def twoWords : List (List (List Signal)) :=
  [[[⟨.dit, 60, 0, 0⟩]], [[⟨.dit, 60, 480000000, 480000000⟩]]]

/-- At 20 wpm "E E" is decoded to "EE". -/
theorem word_space_missed : StandardTiming 20 20 0 twoWords ∧
    (cwDecoder.run (CwDecoder.start {} 20 20 0) [.runCW .dit 60 0 0,
      .runCW .dit 60 480000000 480000000, .timeoutCheck 1020000000]).map
        (fun t => (t.currentSequence, betweenLetters t.texts)) = some ("", ["E", "E"]) ∧
    expectedTexts twoWords = ["E", " ", "E"] :=
  ⟨⟨by decide, by decide, by decide, by decide, by decide⟩, by decide, by decide⟩

end CwKeyer
