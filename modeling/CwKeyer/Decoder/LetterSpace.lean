import CwKeyer.Decoder.Segmentation

/-!
# The configured letter space

`runCW` never reads `m_letterSpace`. It flushes when the silence, less one
inter-element space, is above the inter-element space, so from two of them
on, and these come from the Farnsworth speed. Whether every silence above
the letter space ends the letter is therefore a relation between the two
speeds (`letter_space_separates_iff`): it holds at equal speeds and fails
at low Farnsworth speeds.
-/

namespace CwKeyer

/-- The silence between two elements in ns, and not in the whole ms that
`runCW` measures. -/
def Signal.trueSilence (x y : Signal) : Int := y.now - x.signalTime - x.duration * 1000000

namespace CwDecoder

variable {u clock letterSpace : Int} {d d' : CwDecoder} {es : List Signal} {y : Signal}

/-- The element `y` after the elements `es`: more than the letter space
after the last of them, it starts a new sequence. -/
def SeparatesLetter (letterSpace : Int) (es : List Signal) (y : Signal) (d' : CwDecoder) : Prop :=
  ∀ x ∈ es.getLast?, letterSpace * 1000000 < x.trueSilence y →
    d'.currentSequence = String.singleton (MorseTable.toSymbol y.item)

/-- With a sequence pending, more than the letter space is also more than
two inter-element spaces in whole ms. -/
def MeasuresLetter (letterSpace : Int) (es : List Signal) (y : Signal) (d : CwDecoder) : Prop :=
  ∀ x ∈ es.getLast?, letterSpace * 1000000 < x.trueSilence y → d.currentSequence ≠ "" →
    x.duration + 2 * d.interElementSpace < millis (y.now - x.signalTime)

/-- The element `y` takes the decoder from `t` to `t'` after a history of a
session, and no silence of the session overflows an int. -/
structure Follows (d : CwDecoder) (farnsWorth wpm startTime : Int) (as : List DecoderAct)
    (t : CwDecoder) (y : Signal) (t' : CwDecoder) : Prop where
  history : cwDecoder.run (d.start farnsWorth wpm startTime) as = some t
  element : cwDecoder.step t (.runCW y.item y.duration y.now y.signalTime) = some t'
  exact : cwDecoder.Along (fun d a _ => d.Exact a) (d.start farnsWorth wpm startTime)
    (as ++ [.runCW y.item y.duration y.now y.signalTime])

/-! ## What the decoder remembers of the last element -/

/-- Only a flush forgets the duration of the last element, and it leaves
no sequence. -/
structure Latched (es : List Signal) (d : CwDecoder) : Prop where
  time : ∀ e ∈ es.getLast?, d.lastSignalTime = e.signalTime
  duration : d.currentSequence ≠ "" → ∀ e ∈ es.getLast?, d.lastDuration = e.duration

theorem latched_start (d : CwDecoder) (farnsWorth wpm now : Int) :
    Latched [] (d.start farnsWorth wpm now) := ⟨by simp, by simp⟩

theorem Latched.step {as : List DecoderAct} {a : DecoderAct} (h : Latched (signals as) d)
    (hmove : Moves d a d') : Latched (signals (as ++ [a])) d' := by
  have hsnoc : signals (as ++ [a]) = signals as ++ a.signal?.toList := by
    cases ha : a.signal? <;> simp [signals, ha]
  rw [hsnoc]
  cases hmove with
  | idle => simpa [DecoderAct.signal?] using h
  | pause => exact ⟨by simpa [DecoderAct.signal?] using h.time, fun hseq => absurd rfl hseq⟩
  | word | letter | inside => exact ⟨by simp [DecoderAct.signal?, afterElement],
      by simp [DecoderAct.signal?, afterElement]⟩

theorem latched_of_run {farnsWorth wpm startTime : Int} {as : List DecoderAct} {t : CwDecoder}
    (hrun : cwDecoder.run (d.start farnsWorth wpm startTime) as = some t) :
    Live (calculateDuration .interElementSpace farnsWorth)
        (calculateDuration .wordSpace farnsWorth) t
      ∧ Latched (signals as) t := by
  refine cwDecoder.run_rec
    (C := fun as t => Live (calculateDuration .interElementSpace farnsWorth)
        (calculateDuration .wordSpace farnsWorth) t ∧ Latched (signals as) t)
    ⟨d.live_start farnsWorth wpm startTime, d.latched_start farnsWorth wpm startTime⟩ ?_ hrun
  rintro as t a t' ⟨hlive, hlatched⟩ hstep
  have hmove := step_moves hlive hstep
  exact ⟨hmove.live hlive, hlatched.step hmove⟩

/-! ## The effective threshold -/

theorem push_eq_singleton {s : String} {c : Char} : s.push c = String.singleton c ↔ s = "" := by
  constructor
  · intro h
    have := congrArg String.toList h
    exact String.toList_inj.mp (by simpa using this)
  · rintro rfl
    exact String.toList_inj.mp (by simp)

/-- An element starts a new sequence exactly if there was none or the
measured silence is above the inter-element space. -/
theorem starts_sequence_iff (hu : 1 ≤ u) (hlive : Live u (7 * u) d)
    (hmove : Moves d (.runCW y.item y.duration y.now y.signalTime) d') :
    d'.currentSequence = String.singleton (MorseTable.toSymbol y.item)
      ↔ d.currentSequence = "" ∨ u < d.silenceMs y.now := by
  have hunit := hlive.interElementSpace
  have hword := hlive.wordSpace
  cases hmove with
  | word item duration now signalTime hw =>
      exact iff_of_true (push_eq_singleton.mpr rfl) (.inr (by omega))
  | letter item duration now signalTime hw hl =>
      exact iff_of_true (push_eq_singleton.mpr rfl) (.inr (by omega))
  | inside item duration now signalTime hw hl =>
      refine Iff.trans (push_eq_singleton (s := d.currentSequence)) ?_
      exact ⟨.inl, fun h => h.resolve_right (by omega)⟩

theorem sequence_ne_empty {item : KeyerItem} {duration now signalTime : Int}
    (hmove : Moves d (.runCW item duration now signalTime) d') : d'.currentSequence ≠ "" := by
  cases hmove <;> simp [afterElement]

theorem separates_iff_measures (hu : 1 ≤ u) (hlive : Live u (7 * u) d) (h : Latched es d)
    (hexact : d.ExactAt y.now)
    (hmove : Moves d (.runCW y.item y.duration y.now y.signalTime) d') :
    SeparatesLetter letterSpace es y d' ↔ MeasuresLetter letterSpace es y d := by
  refine forall₂_congr fun x hx => imp_congr_right fun _ => ?_
  rw [starts_sequence_iff hu hlive hmove, or_iff_not_imp_left]
  refine imp_congr_right fun hseq => ?_
  rw [silenceMs_eq hexact, h.time x hx, h.duration hseq x hx, hlive.interElementSpace]
  omega

end CwDecoder

/-! ## The two speeds -/

/-- A silence above the letter space is at least the letter space in whole
ms. -/
theorem letterSpace_le_silence {letterSpace : Int} {x y : Signal}
    (h : letterSpace * 1000000 < x.trueSilence y) : letterSpace ≤ x.silence y := by
  have hms : millis ((letterSpace + x.duration) * 1000000) ≤ millis (y.now - x.signalTime) := by
    refine millis_mono ?_
    rw [Signal.trueSilence] at h
    omega
  rw [millis_mul] at hms
  rw [Signal.silence]
  omega

theorem interElementSpace_le (wpm : Int) :
    calculateDuration .interElementSpace wpm ≤ 1200 := by
  show parisTimeBase.tdiv wpm ≤ 1200
  rw [parisTimeBase, Int.tdiv_eq_ediv_of_nonneg (by decide)]
  exact Int.ediv_le_self _ (by decide)

theorem CwDecoder.Follows.separates_iff {farnsWorth wpm startTime : Int} {d t t' : CwDecoder}
    {as : List DecoderAct} {y : Signal} (h : d.Follows farnsWorth wpm startTime as t y t')
    (hlow : 1 ≤ farnsWorth) (hhigh : farnsWorth ≤ 1200) :
    t'.SeparatesLetter (calculateDuration .letterSpace wpm) (signals as) y
      ↔ t.MeasuresLetter (calculateDuration .letterSpace wpm) (signals as) y := by
  have hword : calculateDuration .wordSpace farnsWorth
      = 7 * calculateDuration .interElementSpace farnsWorth := Int.mul_comm _ _
  have hunit := CwDecoder.interElementSpace_pos ⟨hlow, hhigh⟩
  obtain ⟨hlive, hlatched⟩ := CwDecoder.latched_of_run h.history
  rw [hword] at hlive
  have hexact := (h.exact.append h.history t' h.element).1
  exact CwDecoder.separates_iff_measures hunit hlive hlatched hexact
    (CwDecoder.step_moves hlive h.element)

/-- A dit, and a second one that comes the letter space and a nanosecond
after it. -/
theorem letterSpace_long {farnsWorth wpm : Int} (hlow : 1 ≤ farnsWorth) (hle : farnsWorth ≤ wpm)
    (hhigh : wpm ≤ 1200)
    (hall : ∀ d startTime as t y t', CwDecoder.Follows d farnsWorth wpm startTime as t y t' →
      t'.SeparatesLetter (calculateDuration .letterSpace wpm) (signals as) y) :
    2 * calculateDuration .interElementSpace farnsWorth < calculateDuration .letterSpace wpm := by
  have hhigh' := Int.le_trans hle hhigh
  by_contra hshort
  let u := calculateDuration .interElementSpace farnsWorth
  let dit := calculateDuration .interElementSpace wpm
  have hu : 1 ≤ u ∧ u ≤ 1200 :=
    ⟨CwDecoder.interElementSpace_pos ⟨hlow, hhigh'⟩, interElementSpace_le farnsWorth⟩
  have hdit : 1 ≤ dit ∧ dit ≤ 1200 := ⟨CwDecoder.interElementSpace_pos
    ⟨Int.le_trans hlow hle, hhigh⟩, interElementSpace_le wpm⟩
  have hletter : calculateDuration .letterSpace wpm = dit * 3 := rfl
  let now := 4 * dit * 1000000 + 1
  let t := (CwDecoder.start {} farnsWorth wpm 0).runCW .dit dit 0 0
  have hrun : cwDecoder.run (CwDecoder.start {} farnsWorth wpm 0) [.runCW .dit dit 0 0]
      = some t := rfl
  obtain ⟨hlive, hlatched⟩ := CwDecoder.latched_of_run hrun
  have hseq : t.currentSequence ≠ "" := CwDecoder.sequence_ne_empty (CwDecoder.step_moves
    (CwDecoder.live_start {} farnsWorth wpm 0) (Machine.run_singleton _ _ ▸ hrun))
  have htime : t.lastSignalTime = 0 := hlatched.time ⟨.dit, dit, 0, 0⟩ rfl
  have hduration : t.lastDuration = dit := hlatched.duration hseq ⟨.dit, dit, 0, 0⟩ rfl
  have hms : millis (now - 0) = 4 * dit := by
    rw [millis, Int.sub_zero, Int.tdiv_eq_ediv_of_nonneg (by omega)]
    omega
  have hfirst : (CwDecoder.start {} farnsWorth wpm 0).ExactAt 0 :=
    .of_eq (n := 0) (k := 0) (u := u) rfl rfl rfl ⟨by omega, by omega⟩ ⟨by omega, by omega⟩
      ⟨by omega, by omega⟩
  have hsecond : t.ExactAt now :=
    .of_eq (htime ▸ hms) hduration hlive.interElementSpace ⟨by omega, by omega⟩
      ⟨by omega, by omega⟩ ⟨by omega, by omega⟩
  have hfollows : CwDecoder.Follows {} farnsWorth wpm 0 [.runCW .dit dit 0 0] t
      ⟨.dit, dit, now, now⟩ (t.runCW .dit dit now now) := by
    refine ⟨hrun, rfl, fun t₁ h₁ => ⟨hfirst, fun t₂ h₂ => ⟨?_, trivial⟩⟩⟩
    obtain rfl := Option.some.inj h₁
    exact hsecond
  have hmeasures : dit + 2 * t.interElementSpace < millis (now - 0) :=
    (hfollows.separates_iff hlow hhigh').mp (hall _ _ _ _ _ _ hfollows)
      ⟨.dit, dit, 0, 0⟩ rfl (by simp only [Signal.trueSilence]; omega) hseq
  rw [hms, hlive.interElementSpace] at hmeasures
  omega

/-- **The configured letter space.** After any history of a session in which
no silence overflows an int, an element more than the letter space after the
previous one starts a new sequence exactly if, with a sequence pending, more
than two inter-element spaces are measured. It does so after every such
history exactly at the speeds at which two inter-element spaces are shorter
than the letter space. -/
theorem letter_space_separates_iff {farnsWorth wpm : Int} (hlow : 1 ≤ farnsWorth)
    (hle : farnsWorth ≤ wpm) (hhigh : wpm ≤ 1200) :
    (∀ d startTime as t y t', CwDecoder.Follows d farnsWorth wpm startTime as t y t' →
      (t'.SeparatesLetter (calculateDuration .letterSpace wpm) (signals as) y
        ↔ t.MeasuresLetter (calculateDuration .letterSpace wpm) (signals as) y))
    ∧ ((∀ d startTime as t y t', CwDecoder.Follows d farnsWorth wpm startTime as t y t' →
        t'.SeparatesLetter (calculateDuration .letterSpace wpm) (signals as) y)
      ↔ 2 * calculateDuration .interElementSpace farnsWorth
          < calculateDuration .letterSpace wpm) := by
  have hhigh' := Int.le_trans hle hhigh
  refine ⟨fun d startTime as t y t' h => h.separates_iff hlow hhigh',
    letterSpace_long hlow hle hhigh, ?_⟩
  intro hlong d startTime as t y t' h
  rw [h.separates_iff hlow hhigh']
  intro x hx hfar _
  have hsilence := letterSpace_le_silence hfar
  rw [(CwDecoder.latched_of_run h.history).1.interElementSpace]
  rw [Signal.silence] at hsilence
  omega

/-- At 20 wpm a dah 200 ms after a dit starts a new letter. -/
theorem letter_space_separates_20 :
    ∃ t t', CwDecoder.Follows {} 20 20 0 [.runCW .dit 60 0 0] t
        ⟨.dah, 180, 260000000, 260000000⟩ t' ∧ t'.currentSequence = "-" := by
  have hfollows : CwDecoder.Follows {} 20 20 0 [.runCW .dit 60 0 0] _
      ⟨.dah, 180, 260000000, 260000000⟩ _ := ⟨rfl, rfl, by decide⟩
  refine ⟨_, _, hfollows, ?_⟩
  have hspeed := (@letter_space_separates_iff 20 20 (by decide) (by decide) (by decide)).2
  have hseparates := hspeed.mpr (by decide) _ _ _ _ _ _ hfollows
  exact (hseparates ⟨.dit, 60, 0, 0⟩ rfl (by decide)).trans (by decide)

/-- At 25 wpm with a Farnsworth speed of 10 the letter space is 144 ms: a
dah 200 ms after a dit continues its letter. -/
theorem letter_space_ignored :
    ¬ ∀ farnsWorth wpm : Int, 1 ≤ farnsWorth → farnsWorth ≤ wpm → wpm ≤ 1200 →
      ∀ d startTime as t y t', CwDecoder.Follows d farnsWorth wpm startTime as t y t' →
        t'.SeparatesLetter (calculateDuration .letterSpace wpm) (signals as) y := by
  intro h
  have hfollows : CwDecoder.Follows {} 10 25 0 [.runCW .dit 48 0 0] _
      ⟨.dah, 144, 248000000, 248000000⟩ _ := ⟨rfl, rfl, by decide⟩
  have hseparates := h 10 25 (by decide) (by decide) (by decide) _ _ _ _ _ _ hfollows
    ⟨.dit, 48, 0, 0⟩ rfl (by decide)
  revert hseparates
  decide

end CwKeyer
