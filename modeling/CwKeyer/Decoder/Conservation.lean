import CwKeyer.Decoder.CwDecoder

/-!
# What a step of the decoder does

Every step of a session is one of five moves (`Moves`, `step_moves`): a
check that does nothing or ends the word, an element after a word's, a
letter's or no silence. The invariants below and in the modules that
follow are read off the moves.

No element is lost or duplicated (`elements_conserved`): what was handed
to `MorseTable::decode` and what is still in `m_currentSequence` spell the
elements received, for any readings of the clock.
-/

namespace CwKeyer

namespace CwDecoder

/-! ## The log -/

/-- What `flushLetter` adds to the log. -/
def flushed (d : CwDecoder) : List DecoderEvent :=
  if d.currentSequence = "" then []
  else .handed d.currentSequence ::
    (textOf (MorseTable.decode d.currentSequence)).toList.map .text

theorem flushLetter_eq (d : CwDecoder) :
    d.flushLetter = { d with currentSequence := "", log := d.log ++ d.flushed } := by
  unfold flushLetter flushed
  split
  case isTrue h => cases d; simp_all
  case isFalse => rfl

/-! ## Sessions -/

/-- A session with thresholds for the letter gap `u` and the word gap `w`. -/
structure Live (u w : Int) (d : CwDecoder) : Prop where
  started : d.started = true
  running : d.running = true
  interElementSpace : d.interElementSpace = u
  wordSpace : d.wordSpace = w

theorem live_start (d : CwDecoder) (farnsWorth wpm now : Int) :
    Live (calculateDuration .interElementSpace farnsWorth) (calculateDuration .wordSpace farnsWorth)
      (d.start farnsWorth wpm now) := ⟨rfl, rfl, rfl, rfl⟩

/-- The decoder after an element that it appends to `sequence`. -/
def afterElement (d : CwDecoder) (item : KeyerItem) (duration signalTime : Int) (sequence : String)
    (log : List DecoderEvent) : CwDecoder :=
  { d with
    lastSignalTime := signalTime
    lastDuration := duration
    currentSequence := sequence.push (MorseTable.toSymbol item)
    log := log ++ [.element item] }

/-- What one step of a session does. -/
inductive Moves (d : CwDecoder) : DecoderAct → CwDecoder → Prop
  /-- the check finds no sequence or no word silence -/
  | idle (now : Int) (h : d.currentSequence = "" ∨ d.silenceMs now < d.wordSpace) :
      Moves d (.timeoutCheck now) d
  /-- the check ends the word -/
  | pause (now : Int) (hseq : d.currentSequence ≠ "") (h : d.wordSpace ≤ d.silenceMs now) :
      Moves d (.timeoutCheck now)
        { d with
          currentSequence := ""
          lastDuration := 0
          log := d.log ++ d.flushed ++ [.text " "] }
  /-- the element ends the word before it -/
  | word (item : KeyerItem) (duration now signalTime : Int) (h : d.wordSpace ≤ d.silenceMs now) :
      Moves d (.runCW item duration now signalTime)
        (d.afterElement item duration signalTime "" (d.log ++ d.flushed ++ [.text " "]))
  /-- the element ends the letter before it -/
  | letter (item : KeyerItem) (duration now signalTime : Int) (hw : d.silenceMs now < d.wordSpace)
      (h : d.interElementSpace < d.silenceMs now) :
      Moves d (.runCW item duration now signalTime)
        (d.afterElement item duration signalTime "" (d.log ++ d.flushed))
  /-- the element continues the letter -/
  | inside (item : KeyerItem) (duration now signalTime : Int) (hw : d.silenceMs now < d.wordSpace)
      (h : d.silenceMs now ≤ d.interElementSpace) :
      Moves d (.runCW item duration now signalTime)
        (d.afterElement item duration signalTime d.currentSequence d.log)

variable {u w : Int} {d d' : CwDecoder} {a : DecoderAct}

theorem step_moves (hlive : Live u w d) (hstep : cwDecoder.step d a = some d') :
    Moves d a d' := by
  change d.step a = some d' at hstep
  cases a with
  | runCW item duration now signalTime =>
      simp only [step, runCW, hlive.started, Bool.not_true, Bool.false_eq_true, if_false,
        Option.some.injEq] at hstep
      subst hstep
      rcases Int.lt_or_le (d.silenceMs now) d.wordSpace with hw | hw
      · rcases Int.lt_or_le d.interElementSpace (d.silenceMs now) with hl | hl
        · convert Moves.letter item duration now signalTime hw hl using 1
          simp [endLetter, Int.not_le.mpr hw, hl, flushLetter_eq, append, afterElement, flushed,
            hlive.started]
        · convert Moves.inside item duration now signalTime hw hl using 1
          simp [endLetter, Int.not_le.mpr hw, Int.not_lt.mpr hl, append, afterElement,
            hlive.started]
      · convert Moves.word item duration now signalTime hw using 1
        simp [endLetter, hw, flushLetter_eq, emit, append, afterElement, flushed, hlive.started]
  | timeoutCheck now =>
      simp only [step, hlive.running, if_true, Option.some.injEq] at hstep
      subst hstep
      unfold timeoutCheck
      split
      case isTrue hseq => exact .idle now (.inl hseq)
      case isFalse hseq =>
        split
        case isTrue hw =>
          convert Moves.pause now hseq hw using 1
          simp [flushLetter_eq, emit]
        case isFalse hw => exact .idle now (.inr (Int.not_le.mp hw))

theorem Moves.live (h : Moves d a d') (hlive : Live u w d) : Live u w d' := by
  cases h <;> exact ⟨hlive.started, hlive.running, hlive.interElementSpace, hlive.wordSpace⟩

/-! ## Conservation -/

/-- What was handed over and what is held spell the elements `items`. -/
structure Conserves (items : List KeyerItem) (d : CwDecoder) : Prop where
  spelled : String.join d.handed ++ d.currentSequence =
    String.ofList (items.map MorseTable.toSymbol)
  nonempty : ∀ sequence ∈ d.handed, sequence ≠ ""

/-- The sequences that `flushLetter` hands over. -/
theorem flushed_handed (d : CwDecoder) : d.flushed.filterMap DecoderEvent.handed? =
    if d.currentSequence = "" then [] else [d.currentSequence] := by
  unfold flushed
  split
  · rfl
  · cases textOf (MorseTable.decode d.currentSequence) <;> simp

theorem join_flushed_handed (d : CwDecoder) :
    String.join (d.flushed.filterMap DecoderEvent.handed?) = d.currentSequence := by
  rw [flushed_handed]
  split
  case isTrue hseq => rw [hseq, String.join_nil]
  case isFalse => simp

theorem conserves_start (d : CwDecoder) (farnsWorth wpm now : Int) :
    Conserves [] (d.start farnsWorth wpm now) := ⟨rfl, by simp [handed, start]⟩

theorem append_push (s t : String) (c : Char) : s ++ t.push c = (s ++ t).push c :=
  String.toList_inj.mp (by simp)

theorem ofList_toSymbol_snoc (items : List KeyerItem) (item : KeyerItem) :
    String.ofList ((items ++ [item]).map MorseTable.toSymbol) =
      (String.ofList (items.map MorseTable.toSymbol)).push (MorseTable.toSymbol item) :=
  String.toList_inj.mp (by simp)

/-- The letter is handed over, and nothing else changes what is spelled. -/
theorem Conserves.flush {items : List KeyerItem} (h : Conserves items d) (log : List DecoderEvent)
    (hlog : log.filterMap DecoderEvent.handed? =
      d.handed ++ d.flushed.filterMap DecoderEvent.handed?) :
    String.join (log.filterMap DecoderEvent.handed?) =
        String.ofList (items.map MorseTable.toSymbol) ∧
      ∀ sequence ∈ log.filterMap DecoderEvent.handed?, sequence ≠ "" := by
  rw [hlog]
  refine ⟨?_, ?_⟩
  · rw [String.join_append, join_flushed_handed, h.spelled]
  · intro sequence hmem
    rcases List.mem_append.mp hmem with hmem | hmem
    · exact h.nonempty sequence hmem
    · rw [flushed_handed] at hmem
      split at hmem
      case isTrue => cases hmem
      case isFalse hseq => exact List.mem_singleton.mp hmem ▸ hseq

theorem Conserves.step {items : List KeyerItem} (h : Conserves items d) (hmove : Moves d a d') :
    Conserves (items ++ a.item?.toList) d' := by
  cases hmove with
  | idle now => simpa [DecoderAct.item?] using h
  | pause now hseq hw =>
      obtain ⟨hjoin, hne⟩ := h.flush (d.log ++ d.flushed ++ [.text " "])
        (by simp [handed])
      exact ⟨by simpa [handed, DecoderAct.item?] using hjoin, hne⟩
  | word item duration now signalTime hw =>
      obtain ⟨hjoin, hne⟩ := h.flush (d.log ++ d.flushed ++ [.text " "] ++ [.element item])
        (by simp [handed])
      refine ⟨?_, hne⟩
      simp only [DecoderAct.item?, Option.toList_some, ofList_toSymbol_snoc, ← hjoin]
      simp [handed, afterElement]
  | letter item duration now signalTime hw hl =>
      obtain ⟨hjoin, hne⟩ := h.flush (d.log ++ d.flushed ++ [.element item])
        (by simp [handed])
      refine ⟨?_, hne⟩
      simp only [DecoderAct.item?, Option.toList_some, ofList_toSymbol_snoc, ← hjoin]
      simp [handed, afterElement]
  | inside item duration now signalTime hw hl =>
      refine ⟨?_, by simpa [handed, afterElement] using h.nonempty⟩
      simp only [DecoderAct.item?, Option.toList_some, ofList_toSymbol_snoc, ← h.spelled]
      simp [handed, afterElement, append_push, List.filterMap_cons]

end CwDecoder

/-- Whatever the readings of the clock and the order of the two threads,
the sequences handed to `MorseTable::decode` followed by the one still
held are the elements received since `start`, and none of them is empty. -/
theorem elements_conserved (d : CwDecoder) (farnsWorth wpm startTime : Int)
    {as : List DecoderAct} {t : CwDecoder}
    (hrun : cwDecoder.run (d.start farnsWorth wpm startTime) as = some t) :
    String.join t.handed ++ t.currentSequence =
        String.ofList ((received as).map MorseTable.toSymbol) ∧
      ∀ sequence ∈ t.handed, sequence ≠ "" := by
  have h : (∃ u w, CwDecoder.Live u w t) ∧ CwDecoder.Conserves (received as) t := by
    refine cwDecoder.run_rec
      (C := fun as t => (∃ u w, CwDecoder.Live u w t) ∧ CwDecoder.Conserves (received as) t)
      ⟨⟨_, _, d.live_start farnsWorth wpm startTime⟩, d.conserves_start farnsWorth wpm startTime⟩
      ?_ hrun
    rintro as t a t' ⟨⟨u, w, hlive⟩, hcons⟩ hstep
    have hmove := CwDecoder.step_moves hlive hstep
    refine ⟨⟨u, w, hmove.live hlive⟩, ?_⟩
    rw [received_snoc]
    exact hcons.step hmove
  exact ⟨h.2.spelled, h.2.nonempty⟩

/-- The clock may go back: here the dah is heard before the dit was. -/
theorem elements_conserved_rounding : ∃ t,
    cwDecoder.run (CwDecoder.start {} 20 20 0) [.runCW .dit 60 5000000 6000000,
      .timeoutCheck 700000000, .runCW .dah 180 4000000 3000000] = some t ∧
    String.join t.handed ++ t.currentSequence = ".-" :=
  ⟨_, rfl, (@elements_conserved {} 20 20 0 [.runCW .dit 60 5000000 6000000,
    .timeoutCheck 700000000, .runCW .dah 180 4000000 3000000] _ rfl).1.trans (by decide)⟩

end CwKeyer
