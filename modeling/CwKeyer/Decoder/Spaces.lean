import CwKeyer.Decoder.Conservation
import Mathlib.Data.List.Chain

/-!
# The spaces of a decoder

A pause is measured twice: by the timeout thread and by the next element.
`timeoutLoop` leaves an empty sequence alone; `runCW` does not look, so it
emits a second ' ' for a pause that a check has spaced, and one before the
first element of a session when that comes late (`one_pause_one_space`).

The elements and the ' ' callbacks of a log, in order, are its beats: the
last one is an element exactly while a sequence is held (`Held`).
-/

namespace CwKeyer

/-! ## Beats -/

/-- `true` for an element, `false` for a ' ' callback. -/
def DecoderEvent.beat? : DecoderEvent → Option Bool
  | .element _ => some true
  | .handed _ => none
  | .text s => if s = " " then some false else none

def beats (log : List DecoderEvent) : List Bool := log.filterMap DecoderEvent.beat?

/-- Between two ' ' callbacks there is an element, and before the first
one too. -/
structure OneSpacePerPause (log : List DecoderEvent) : Prop where
  between : (beats log).IsChain fun b b' => b = true ∨ b' = true
  led : ∀ b ∈ (beats log).head?, b = true

instance : DecidablePred OneSpacePerPause := fun log =>
  decidable_of_iff ((beats log).IsChain (fun b b' => b = true ∨ b' = true) ∧
    ∀ b ∈ (beats log).head?, b = true) ⟨fun ⟨h₁, h₂⟩ => ⟨h₁, h₂⟩, fun ⟨h₁, h₂⟩ => ⟨h₁, h₂⟩⟩

@[simp] theorem beats_nil : beats [] = [] := rfl

@[simp] theorem beats_append (l m : List DecoderEvent) : beats (l ++ m) = beats l ++ beats m :=
  List.filterMap_append

@[simp] theorem beats_element (item : KeyerItem) (log : List DecoderEvent) :
    beats (.element item :: log) = true :: beats log := rfl

@[simp] theorem beats_space (log : List DecoderEvent) :
    beats (.text " " :: log) = false :: beats log := by
  simp [beats, DecoderEvent.beat?]

theorem oneSpacePerPause_snoc_element {log : List DecoderEvent} {item : KeyerItem} :
    OneSpacePerPause (log ++ [.element item]) ↔ OneSpacePerPause log := by
  constructor
  · rintro ⟨hbetween, hled⟩
    rw [beats_append] at hbetween hled
    refine ⟨(List.isChain_append.mp hbetween).1, fun b hb => hled b ?_⟩
    exact List.mem_head?_append_of_mem_head? hb
  · rintro ⟨hbetween, hled⟩
    refine ⟨?_, ?_⟩
    · rw [beats_append]
      exact List.isChain_append.mpr ⟨hbetween, .singleton _, by simp⟩
    · rw [beats_append]
      cases h : beats log with
      | nil => simp
      | cons b bs => simpa [h] using hled

theorem oneSpacePerPause_snoc_space {log : List DecoderEvent} :
    OneSpacePerPause (log ++ [.text " "]) ↔
      OneSpacePerPause log ∧ (beats log).getLast? = some true := by
  constructor
  · rintro ⟨hbetween, hled⟩
    rw [beats_append, beats_space, beats_nil] at hbetween hled
    obtain ⟨hchain, -, hjoin⟩ := List.isChain_append.mp hbetween
    refine ⟨⟨hchain, fun b hb => hled b (List.mem_head?_append_of_mem_head? hb)⟩, ?_⟩
    cases h : (beats log).getLast? with
    | none => simp [List.getLast?_eq_none_iff.mp h] at hled
    | some b => simpa using hjoin b h false (by simp)
  · rintro ⟨⟨hbetween, hled⟩, hlast⟩
    refine ⟨?_, ?_⟩
    · rw [beats_append, beats_space, beats_nil]
      refine List.isChain_append.mpr ⟨hbetween, .singleton _, fun b hb b' _ => .inl ?_⟩
      exact Option.some.inj (Eq.trans (Eq.symm hb) hlast)
    · rw [beats_append]
      cases h : beats log with
      | nil => simp [h] at hlast
      | cons b bs => simpa [h] using hled

namespace CwDecoder

variable {u w : Int} {d d' : CwDecoder} {a : DecoderAct}

theorem table_ne_space : ∀ entry ∈ MorseTable.table, entry.2 ≠ ' ' := by decide

/-- No sequence is decoded to a space. -/
theorem textOf_ne_space (sequence : String) :
    textOf (MorseTable.decode sequence) ≠ some " " := by
  have hspace : ∀ ch, textOf ch = some " " → ch = ' ' := by
    intro ch h
    unfold textOf at h
    split_ifs at h
    · simp at h
    · simp at h
    · simp at h
    · have hlist := congrArg String.toList (Option.some.inj h)
      simpa using hlist
  intro h
  have hch := hspace _ h
  unfold MorseTable.decode at hch
  cases hlook : MorseTable.table.lookup sequence with
  | none => rw [hlook] at hch; revert hch; decide
  | some ch =>
      rw [hlook] at hch
      obtain ⟨k, hmem⟩ : ∃ k, (k, ch) ∈ MorseTable.table := by
        obtain ⟨l, r, htable, -⟩ := List.lookup_eq_some_iff.mp hlook
        exact ⟨sequence, by rw [htable]; simp⟩
      exact table_ne_space _ hmem hch

@[simp] theorem beats_flushed (d : CwDecoder) : beats d.flushed = [] := by
  unfold flushed
  split
  case isTrue => rfl
  case isFalse =>
    have hne := textOf_ne_space d.currentSequence
    cases h : textOf (MorseTable.decode d.currentSequence) with
    | none => rfl
    | some s =>
        rw [h] at hne
        have hs : s ≠ " " := fun hs => hne (hs ▸ rfl)
        simp [beats, DecoderEvent.beat?, hs]

theorem oneSpacePerPause_flushed {log : List DecoderEvent} :
    OneSpacePerPause (log ++ d.flushed) ↔ OneSpacePerPause log := by
  have hbeats : beats (log ++ d.flushed) = beats log := by simp
  constructor
  · rintro ⟨hbetween, hled⟩
    exact ⟨hbeats ▸ hbetween, hbeats ▸ hled⟩
  · rintro ⟨hbetween, hled⟩
    exact ⟨hbeats.symm ▸ hbetween, hbeats.symm ▸ hled⟩

/-- The last beat is an element exactly while a sequence is held. -/
structure Held (d : CwDecoder) : Prop where
  iff : (beats d.log).getLast? = some true ↔ d.currentSequence ≠ ""

theorem held_start (d : CwDecoder) (farnsWorth wpm now : Int) :
    Held (d.start farnsWorth wpm now) := ⟨by simp [start, beats]⟩

theorem Held.step (h : Held d) (hmove : Moves d a d') : Held d' := by
  cases hmove with
  | idle => exact h
  | pause => exact ⟨by simp⟩
  | word => exact ⟨by simp [afterElement]⟩
  | letter => exact ⟨by simp [afterElement]⟩
  | inside => exact ⟨by simp [afterElement]⟩

/-- An element that comes a word space and an inter-element space after the
end of the last one finds a sequence: the pause has not had its ' ' yet.
(From 1201 wpm on both spaces are 0, and any silence is a word space.) -/
def Unspaced (d : CwDecoder) : DecoderAct → Prop
  | .runCW _ _ now _ =>
      d.wordSpace + d.interElementSpace ≤ millis (now - d.lastSignalTime) - d.lastDuration
        ∨ d.wordSpace ≤ d.interElementSpace → d.currentSequence ≠ ""
  | .timeoutCheck _ => True

instance (d : CwDecoder) : DecidablePred d.Unspaced
  | .runCW _ _ now _ =>
      inferInstanceAs (Decidable (_ ≤ millis (now - d.lastSignalTime) - _ ∨ _ → _))
  | .timeoutCheck _ => isTrue trivial

theorem unspaced_iff {item : KeyerItem} {duration now signalTime : Int}
    (hexact : d.Exact (.runCW item duration now signalTime)) :
    d.Unspaced (.runCW item duration now signalTime)
      ↔ (d.wordSpace ≤ d.silenceMs now → d.currentSequence ≠ "") := by
  refine imp_congr_left ?_
  rw [silenceMs_eq hexact, le_max_iff]
  exact or_congr_left le_sub_iff_add_le.symm

/-- The step lemma of `one_pause_one_space`. -/
theorem oneSpacePerPause_step (hexact : d.Exact a) (hheld : Held d)
    (hlog : OneSpacePerPause d.log) (hmove : Moves d a d') :
    OneSpacePerPause d'.log ↔ d.Unspaced a := by
  cases hmove with
  | idle => exact iff_of_true hlog trivial
  | pause now hseq =>
      refine iff_of_true (oneSpacePerPause_snoc_space.mpr ⟨?_, ?_⟩) trivial
      · exact oneSpacePerPause_flushed.mpr hlog
      · simpa using hheld.iff.mpr hseq
  | word item duration now signalTime hw =>
      rw [unspaced_iff hexact]
      simp only [afterElement, hw, true_imp_iff, oneSpacePerPause_snoc_element,
        oneSpacePerPause_snoc_space, oneSpacePerPause_flushed, hlog, true_and, beats_append,
        beats_flushed, List.append_nil]
      exact hheld.iff
  | letter item duration now signalTime hw =>
      rw [unspaced_iff hexact]
      refine iff_of_true ?_ fun h => absurd h (Int.not_le.mpr hw)
      exact oneSpacePerPause_snoc_element.mpr (oneSpacePerPause_flushed.mpr hlog)
  | inside item duration now signalTime hw =>
      rw [unspaced_iff hexact]
      refine iff_of_true ?_ fun h => absurd h (Int.not_le.mpr hw)
      exact oneSpacePerPause_snoc_element.mpr hlog

end CwDecoder

/-- A session whose silences are ints keeps to one ' ' per pause, and makes
none before its first element, exactly if every element that comes a word
space after the last one also finds a sequence in the decoder: no check has
ended the word before it, and it is not the first of the session. -/
theorem one_pause_one_space (d : CwDecoder) (farnsWorth wpm startTime : Int)
    (as : List DecoderAct)
    (hexact : cwDecoder.Along (fun d a _ => d.Exact a) (d.start farnsWorth wpm startTime) as) :
    cwDecoder.Along (fun _ _ d' => OneSpacePerPause d'.log) (d.start farnsWorth wpm startTime) as ↔
      cwDecoder.Along (fun d a _ => d.Unspaced a) (d.start farnsWorth wpm startTime) as := by
  refine Machine.along_congr_of
    (I := fun d => (∃ u w, CwDecoder.Live u w d) ∧ CwDecoder.Held d ∧ OneSpacePerPause d.log)
    ?_ ?_ ⟨⟨_, _, d.live_start farnsWorth wpm startTime⟩,
      d.held_start farnsWorth wpm startTime, ⟨.nil, by simp [CwDecoder.start, beats]⟩⟩ hexact
  · rintro d a d' ⟨⟨u, w, hlive⟩, hheld, hlog⟩ hexact hstep
    exact CwDecoder.oneSpacePerPause_step hexact hheld hlog (CwDecoder.step_moves hlive hstep)
  · rintro d a d' ⟨⟨u, w, hlive⟩, hheld, hlog⟩ hexact hunspaced hstep
    have hmove := CwDecoder.step_moves hlive hstep
    exact ⟨⟨u, w, hmove.live hlive⟩, hheld.step hmove,
      (CwDecoder.oneSpacePerPause_step hexact hheld hlog hmove).mpr hunspaced⟩

/-- At 20 wpm the pause after a first dit is spaced by a second one, and the
pause after this by a check. -/
theorem one_pause_one_space_twoDits :
    let acts := [.runCW .dit 60 0 0, .runCW .dit 60 700000000 700000000, .timeoutCheck 1300000000,
      .timeoutCheck 1330000000]
    (∃ d, cwDecoder.run (CwDecoder.start {} 20 20 0) acts = some d
        ∧ d.texts = ["E", " ", "E", " "])
      ∧ cwDecoder.Along (fun _ _ d' => OneSpacePerPause d'.log) (CwDecoder.start {} 20 20 0)
        acts := by
  exact ⟨⟨_, rfl, by decide⟩, (one_pause_one_space {} 20 20 0 _ (by decide)).mpr (by decide)⟩

/-- At 20 wpm a check at 600 ms spaces the pause after a dit; the next
element spaces it again. -/
theorem pause_spaced_twice : ¬ cwDecoder.Along (fun _ _ d' => OneSpacePerPause d'.log)
    (CwDecoder.start {} 20 20 0)
    [.runCW .dit 60 0 0, .timeoutCheck 600000000, .runCW .dit 60 700000000 700000000] := by
  decide

end CwKeyer
