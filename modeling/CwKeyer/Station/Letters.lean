import CwKeyer.Decoder.StandardText
import CwKeyer.Keyer.Steady

/-!
# Letters played in one go

The keyer and the decoder against a clock. A burst is what the keyer plays
without a rest: each of its elements but the first was queued when the one
before it ended. The decoder compares the pauses with spaces at the Farnsworth
speed, and the pauses inside a burst are spaces at the speed of the keyer, and
longer by as much as the threads are late. So no burst is ever cut if a space
and the lateness fit into two of the decoder's spaces, and some burst is if
they do not (`bursts_whole_iff`).

The setters keep the Farnsworth speed from exceeding the speed, and a lateness
of a whole space fits then (`space_add_le`).
-/

namespace CwKeyer

/-! ## State -/

/-- Where the keyer thread is with an element: before its call of the
decoder, after it, or in its sleep. -/
inductive PlayPc where
  | calling (item : KeyerItem) (duration : Int)
  | called (duration : Int)
  | asleep (wake : Int)
deriving Repr, DecidableEq

/-- The clock is in ns. `joined` says of the next element that it was queued
when the last one ended, and `bursts` are the elements that the decoder has
got. -/
structure DecodedKeyer where
  keyer : KeyerRun
  play : Option PlayPc := none
  decoder : CwDecoder
  now : Int
  joined : Bool := false
  bursts : List (List Signal) := []
deriving Repr, DecidableEq

inductive DecodedAct where
  | pass (ns : Nat)
  | paddle (a : KeyerAct)
  /-- `runCW` of the decoder; `ns` is the time between its two readings. -/
  | decode (ns : Nat)
  | sleep
  | timeoutCheck
deriving Repr, DecidableEq

def KeyerCall.playPc : KeyerCall → Option PlayPc
  | .runCW item duration => some (.calling item duration)
  | _ => none

namespace DecodedKeyer

/-! ## Steps -/

/-- The bursts with one more element. -/
def extended (s : DecodedKeyer) (y : Signal) : List (List Signal) :=
  if s.joined then s.bursts.dropLast ++ [s.bursts.getLast?.getD [] ++ [y]] else s.bursts ++ [[y]]

/-- The keyer thread starts an element. -/
def start (s : DecodedKeyer) : Option DecodedKeyer :=
  (paddleKeyer.step s.keyer .start).map fun keyer =>
    { s with
      keyer := keyer
      play := (s.keyer.keyer.queue.head?.bind s.keyer.keyer.playDitDah).bind KeyerCall.playPc }

/-- The call of the decoder, between those of the other outputs. -/
def decode (s : DecodedKeyer) (ns : Nat) : Option DecodedKeyer :=
  match s.play with
  | some (.calling item duration) =>
      (cwDecoder.step s.decoder (.runCW item duration s.now (s.now + ns))).map fun decoder =>
        { s with
          play := some (.called duration)
          decoder := decoder
          now := s.now + ns
          bursts := s.extended ⟨item, duration, s.now, s.now + ns⟩ }
  | _ => none

/-- `sleepFor`. -/
def sleep (s : DecodedKeyer) : Option DecodedKeyer :=
  match s.play with
  | some (.called duration) =>
      let ms := duration + s.keyer.keyer.spaceTime
      some { s with play := some (.asleep (s.now + ms * 1000000)) }
  | _ => none

/-- The keyer thread is past its sleep. -/
def awake (s : DecodedKeyer) : Bool :=
  match s.play with
  | some (.asleep wake) => wake ≤ s.now
  | some _ => false
  | none => true

def finish (s : DecodedKeyer) : Option DecodedKeyer :=
  if s.awake then
    (paddleKeyer.step s.keyer .finish).map fun keyer =>
      { s with keyer := keyer, play := none, joined := keyer.keyer.queue ≠ [] }
  else none

def step (s : DecodedKeyer) : DecodedAct → Option DecodedKeyer
  | .pass ns => some { s with now := s.now + ns }
  | .paddle .start => s.start
  | .paddle .finish => s.finish
  | .paddle a => (paddleKeyer.step s.keyer a).map fun keyer => { s with keyer := keyer }
  | .decode ns => s.decode ns
  | .sleep => s.sleep
  | .timeoutCheck =>
      (cwDecoder.step s.decoder (.timeoutCheck s.now)).map fun decoder =>
        { s with decoder := decoder }

end DecodedKeyer

def decodedKeyer : Machine DecodedKeyer DecodedAct := ⟨DecodedKeyer.step⟩

/-- What the decoder has handed over, and what it holds. -/
def CwDecoder.letters (d : CwDecoder) : List String :=
  d.handed ++ if d.currentSequence = "" then [] else [d.currentSequence]

namespace DecodedKeyer

/-! ## The property and its condition -/

/-- The keyer has just been set up, and the decoder started. -/
def started (lastPressed lastQueued : KeyerItem) (wpm : Int) (mode : Mode) (d : CwDecoder)
    (farnsWorth startTime : Int) : DecodedKeyer where
  keyer := .init lastPressed lastQueued wpm mode
  decoder := d.start farnsWorth wpm startTime
  now := startTime

/-- When the pause after the last element is over. -/
def due (s : DecodedKeyer) : Int :=
  s.bursts.flatten.getLast?.elim s.now fun x =>
    x.signalTime + (x.duration + s.keyer.keyer.spaceTime) * 1000000

/-- The clock has not run out of an int, and an element that was queued in
time reaches the decoder at most `lateness` ms after it is due. -/
def Prompt (startTime : Int) (lateness : Nat) (s : DecodedKeyer) (a : DecodedAct)
    (_ : DecodedKeyer) : Prop :=
  millis (s.now - startTime) < 2 ^ 31 ∧ match a with
    | .decode _ => s.joined = true → s.now ≤ s.due + lateness * 1000000
    | _ => True

instance (startTime : Int) (lateness : Nat) (s : DecodedKeyer) (a : DecodedAct)
    (s' : DecodedKeyer) : Decidable (Prompt startTime lateness s a s') := by
  unfold Prompt
  cases a <;> infer_instance

/-- The elements of the bursts are those that the keyer has started, but for
one on its way. The letters of the decoder are the bursts, put together across
pauses of up to two spaces and apart across longer ones. -/
structure Whole (u : Int) (s : DecodedKeyer) : Prop where
  elements : ∃ late, s.keyer.started = s.bursts.flatten.map Signal.item ++ late ∧ late.length ≤ 1
  letters : ∃ groups : List (List (List Signal)), groups.flatten = s.bursts
    ∧ s.decoder.letters = groups.map (fun group => Signal.spelling group.flatten)
    ∧ (∀ group ∈ groups, group.IsChain (Joined fun x y => x.silence y ≤ 2 * u))
    ∧ groups.IsChain (Joined (Joined fun x y => 2 * u < x.silence y))

/-- In every run with that lateness. -/
def KeepsBursts (farnsWorth wpm : Int) (lateness : Nat) : Prop :=
  ∀ lastPressed lastQueued mode d startTime as t,
    decodedKeyer.Along (Prompt startTime lateness)
      (started lastPressed lastQueued wpm mode d farnsWorth startTime) as →
    decodedKeyer.run (started lastPressed lastQueued wpm mode d farnsWorth startTime) as = some t →
    t.Whole (calculateDuration .interElementSpace farnsWorth)

/-! ## Bursts -/

variable {s s' t : DecodedKeyer} {u wpm startTime : Int} {lateness : Nat} {y : Signal}

theorem extended_cases (hfirst : s.bursts = [] → s.joined = false) :
    (s.joined = false ∧ s.extended y = s.bursts ++ [[y]])
      ∨ (s.joined = true ∧ ∃ L g, s.bursts = L ++ [g] ∧ s.extended y = L ++ [g ++ [y]]) := by
  cases hjoined : s.joined with
  | false => exact .inl ⟨rfl, by simp [extended, hjoined]⟩
  | true =>
      rcases List.eq_nil_or_concat s.bursts with hnil | ⟨L, g, hL⟩
      · exact absurd (hfirst hnil) (by simp [hjoined])
      · exact .inr ⟨rfl, L, g, by simp [hL], by simp [extended, hjoined, hL]⟩

theorem extended_flatten (hfirst : s.bursts = [] → s.joined = false) :
    (s.extended y).flatten = s.bursts.flatten ++ [y] := by
  rcases extended_cases (y := y) hfirst with ⟨-, h⟩ | ⟨-, L, g, hL, h⟩
  · simp [h]
  · simp [h, hL]

/-- The element whose call of the decoder is still to be made. -/
def pending (s : DecodedKeyer) : List KeyerItem :=
  match s.play with
  | some (.calling item _) => [item]
  | _ => []

/-! ## The invariant -/

structure LetterInv (u wpm startTime : Int) (lateness : Nat) (s : DecodedKeyer) : Prop where
  elements : ElementInv wpm s.keyer
  space : s.keyer.keyer.spaceTime = calculateDuration .interElementSpace wpm
  live : CwDecoder.Live u (7 * u) s.decoder
  segmented : CwDecoder.Segmented u s.bursts.flatten s.now s.decoder
  nonempty : [] ∉ s.bursts
  clock : startTime ≤ s.now
  began : ∀ x ∈ s.bursts.flatten.getLast?, startTime ≤ x.signalTime
  inside : ∀ burst ∈ s.bursts, burst.IsChain fun x y =>
    x.silence y ≤ calculateDuration .interElementSpace wpm + lateness
  playing : s.keyer.playing = none ↔ s.play = none
  first : s.bursts = [] →
    s.joined = false ∧ ∀ pc ∈ s.play, ∃ item duration, pc = .calling item duration
  started : s.keyer.started = s.bursts.flatten.map Signal.item ++ s.pending

theorem letterInv_started (lastPressed lastQueued : KeyerItem) (mode : Mode) (d : CwDecoder)
    {farnsWorth : Int} (hu : u = calculateDuration .interElementSpace farnsWorth) :
    LetterInv u wpm startTime lateness
      (started lastPressed lastQueued wpm mode d farnsWorth startTime) := by
  have hword : calculateDuration .wordSpace farnsWorth = 7 * u := by
    rw [hu]
    exact Int.mul_comm ..
  refine ⟨elementInv_init .., rfl, ?_, d.segmented_start .., List.not_mem_nil, le_rfl, ?_, ?_, ?_,
    ?_, rfl⟩
  · have hlive := d.live_start farnsWorth wpm startTime
    rwa [← hu, hword] at hlive
  · intro x hx
    cases hx
  · intro burst hburst
    cases hburst
  · exact iff_of_true rfl rfl
  · exact fun _ => ⟨rfl, fun pc hpc => by cases hpc⟩

/-- The clock goes on. -/
theorem segmented_later {es : List Signal} {clock clock' : Int} {d : CwDecoder}
    (h : CwDecoder.Segmented u es clock d) (hclock : clock ≤ clock') :
    CwDecoder.Segmented u es clock' d := by
  refine ⟨h.handed, h.time, ?_, h.duration, ?_⟩
  · exact fun x hx => (h.past x hx).trans hclock
  · exact fun hseq x hx y hy => h.paused hseq x hx y (hclock.trans hy)

/-- A step of the keyer. -/
theorem LetterInv.keyer (h : LetterInv u wpm startTime lateness s) {a : KeyerAct} {keyer : KeyerRun}
    {play : Option PlayPc} {joined : Bool} (hkeyer : paddleKeyer.step s.keyer a = some keyer)
    (hplaying : keyer.playing = none ↔ play = none)
    (hfirst : s.bursts = [] →
      joined = false ∧ ∀ pc ∈ play, ∃ item duration, pc = .calling item duration)
    (hstarted : keyer.started
      = s.bursts.flatten.map Signal.item ++ pending { s with play := play }) :
    LetterInv u wpm startTime lateness { s with keyer := keyer, play := play, joined := joined } :=
  ⟨elementInv_step h.elements hkeyer, (spaceTime_step hkeyer).trans h.space, h.live, h.segmented,
    h.nonempty, h.clock, h.began, h.inside, hplaying, hfirst, hstarted⟩

theorem LetterInv.paddle (h : LetterInv u wpm startTime lateness s) {a : KeyerAct}
    {keyer : KeyerRun} (hkeyer : paddleKeyer.step s.keyer a = some keyer) (hplaying : keyer.playing = s.keyer.playing)
    (hstarted : keyer.started = s.keyer.started) :
    LetterInv u wpm startTime lateness { s with keyer := keyer } := by
  refine h.keyer hkeyer ?_ h.first (hstarted.trans h.started)
  rw [hplaying]
  exact h.playing

theorem LetterInv.start (h : LetterInv u wpm startTime lateness s) (hstep : s.start = some s') :
    LetterInv u wpm startTime lateness s' := by
  obtain ⟨keyer, hkeyer, rfl⟩ := Option.map_eq_some_iff.mp hstep
  obtain ⟨item, rest, hplaying, hqueue, hkeyer'⟩ := paddleKeyer_start hkeyer
  have hitem : item.isElement = true := h.elements.queue item (by simp [hqueue])
  have hplay : (s.keyer.keyer.queue.head?.bind s.keyer.keyer.playDitDah).bind KeyerCall.playPc
      = some (.calling item (calculateDuration item wpm)) := by
    simp [hqueue, Keyer.playDitDah_of_isElement hitem h.elements.configured, KeyerCall.playPc]
  have hidle : s.play = none := h.playing.mp hplaying
  refine h.keyer hkeyer ?_ ?_ ?_
  · simp [hkeyer', hplay]
  · rw [hplay]
    rintro hnil
    refine ⟨(h.first hnil).1, ?_⟩
    rintro pc hpc
    obtain rfl := Option.some.inj hpc
    exact ⟨_, _, rfl⟩
  · rw [hplay, hkeyer']
    simp [h.started, pending, hidle]

/-- An element that is past its call of the decoder is in a burst. -/
theorem LetterInv.bursts_ne_nil (h : LetterInv u wpm startTime lateness s) {pc : PlayPc}
    (hplay : s.play = some pc) (hpc : ∀ item duration, pc ≠ .calling item duration) :
    s.bursts ≠ [] := by
  intro hnil
  obtain ⟨item, duration, hcalling⟩ := (h.first hnil).2 pc hplay
  exact hpc item duration hcalling

theorem LetterInv.finish (h : LetterInv u wpm startTime lateness s) (hstep : s.finish = some s') :
    LetterInv u wpm startTime lateness s' := by
  obtain ⟨hawake, hstep⟩ := Option.ite_none_right_eq_some.mp hstep
  obtain ⟨keyer, hkeyer, rfl⟩ := Option.map_eq_some_iff.mp hstep
  obtain ⟨item, squeeze, hplaying, hkeyer'⟩ := paddleKeyer_finish hkeyer
  have hplay : ∃ wake, s.play = some (.asleep wake) := by
    cases hplay : s.play with
    | none =>
        rw [h.playing.mpr hplay] at hplaying
        cases hplaying
    | some pc =>
        cases pc with
        | asleep wake => exact ⟨wake, rfl⟩
        | calling | called => simp [awake, hplay] at hawake
  obtain ⟨wake, hplay⟩ := hplay
  refine h.keyer hkeyer ?_ ?_ ?_
  · simp [hkeyer']
  · exact fun hnil => absurd hnil (h.bursts_ne_nil hplay (by simp))
  · simp [hkeyer', h.started, pending, hplay]

theorem LetterInv.sleep (h : LetterInv u wpm startTime lateness s) (hstep : s.sleep = some s') :
    LetterInv u wpm startTime lateness s' := by
  unfold DecodedKeyer.sleep at hstep
  split at hstep
  case h_1 duration hplay =>
    obtain rfl := Option.some.inj hstep
    refine ⟨h.elements, h.space, h.live, h.segmented, h.nonempty, h.clock, h.began, h.inside,
      ?_, ?_, ?_⟩
    · refine h.playing.trans ?_
      simp [hplay]
    · exact fun hnil => absurd hnil (h.bursts_ne_nil hplay (by simp))
    · simp [h.started, pending, hplay]
  case h_2 => cases hstep

/-- A prompt element is at most `lateness` late. -/
theorem LetterInv.silence_le (h : LetterInv u wpm startTime lateness s) {x : Signal}
    (hx : x ∈ s.bursts.flatten.getLast?) (hprompt : s.now ≤ s.due + lateness * 1000000)
    (hnow : y.now = s.now) :
    x.silence y ≤ calculateDuration .interElementSpace wpm + lateness := by
  have hdue : s.due = x.signalTime
      + (x.duration + calculateDuration .interElementSpace wpm) * 1000000 := by
    rw [due, Option.mem_def.mp hx, h.space]
    rfl
  have hmillis : millis (y.now - x.signalTime)
      ≤ millis ((x.duration + calculateDuration .interElementSpace wpm + lateness) * 1000000) := by
    refine millis_mono ?_
    rw [hnow]
    omega
  rw [millis_mul] at hmillis
  rw [Signal.silence]
  omega

theorem LetterInv.decode (h : LetterInv u wpm startTime lateness s) (hu : 1 ≤ u) {ns : Nat}
    (hprompt : Prompt startTime lateness s (.decode ns) s') (hstep : s.decode ns = some s') :
    LetterInv u wpm startTime lateness s' := by
  obtain ⟨hrange, hprompt⟩ := hprompt
  unfold DecodedKeyer.decode at hstep
  split at hstep
  case h_2 => cases hstep
  case h_1 item duration hplay =>
    obtain ⟨decoder, hdecoder, rfl⟩ := Option.map_eq_some_iff.mp hstep
    have hmove := CwDecoder.step_moves h.live hdecoder
    have hfirst : s.bursts = [] → s.joined = false := fun hnil => (h.first hnil).1
    let y : Signal := ⟨item, duration, s.now, s.now + ns⟩
    have hflatten : (s.extended y).flatten = s.bursts.flatten ++ [y] := extended_flatten hfirst
    have hwithin : ∀ x ∈ s.bursts.flatten.getLast?, x.Within y := by
      intro x hx
      refine lt_of_le_of_lt (millis_mono ?_) hrange
      exact Int.sub_le_sub_left (h.began x hx) _
    have hlater : startTime ≤ s.now + ns := h.clock.trans (by omega)
    refine ⟨h.elements, h.space, hmove.live h.live, ?_, ?_, hlater, ?_, ?_, ?_, ?_, ?_⟩
    · show CwDecoder.Segmented u (s.extended y).flatten _ _
      rw [hflatten]
      exact h.segmented.element hu h.live (y := y) le_rfl hwithin hmove
    · show [] ∉ s.extended y
      rcases extended_cases (y := y) hfirst with ⟨-, heq⟩ | ⟨-, L, g, hL, heq⟩
      · simpa [heq] using h.nonempty
      · have hnonempty := h.nonempty
        rw [hL] at hnonempty
        rw [heq]
        exact List.not_mem_append (fun hmem => hnonempty (List.mem_append_left _ hmem)) (by simp)
    · show ∀ x ∈ (s.extended y).flatten.getLast?, startTime ≤ x.signalTime
      rw [hflatten, List.getLast?_concat]
      rintro x ⟨⟩
      exact hlater
    · show ∀ burst ∈ s.extended y, _
      rcases extended_cases (y := y) hfirst with ⟨-, heq⟩ | ⟨hjoined, L, g, hL, heq⟩
      · rw [heq]
        exact List.forall_mem_append.mpr ⟨h.inside, List.forall_mem_singleton.mpr (.singleton y)⟩
      · have hinside := h.inside
        have hlast : ∀ x ∈ g.getLast?, x ∈ s.bursts.flatten.getLast? := fun x hx => by
          have hg : g ≠ [] := fun hg => by simp [hg] at hx
          simpa [hL, List.getLast?_append_of_ne_nil _ hg] using hx
        rw [hL] at hinside
        obtain ⟨hL', hg⟩ := List.forall_mem_append.mp hinside
        rw [heq]
        refine List.forall_mem_append.mpr ⟨hL', List.forall_mem_singleton.mpr ?_⟩
        refine List.isChain_append.mpr ⟨hg g List.mem_cons_self, .singleton y, ?_⟩
        rintro x hx y' ⟨⟩
        exact h.silence_le (hlast x hx) (hprompt hjoined) rfl
    · refine h.playing.trans ?_
      simp [hplay]
    · intro hnil
      have hnil : (s.extended y).flatten = [] := by
        rw [show s.extended y = [] from hnil, List.flatten_nil]
      simp [hflatten] at hnil
    · show s.keyer.started = (s.extended y).flatten.map Signal.item ++ _
      rw [hflatten, h.started]
      simp [pending, hplay, y]

theorem LetterInv.step (h : LetterInv u wpm startTime lateness s) (hu : 1 ≤ u) {a : DecodedAct}
    (hprompt : Prompt startTime lateness s a s') (hstep : decodedKeyer.step s a = some s') :
    LetterInv u wpm startTime lateness s' := by
  change s.step a = some s' at hstep
  cases a with
  | pass ns =>
      obtain rfl := Option.some.inj hstep
      have hlater : s.now ≤ s.now + ns := by omega
      exact ⟨h.elements, h.space, h.live, segmented_later h.segmented hlater, h.nonempty,
        h.clock.trans hlater, h.began, h.inside, h.playing, h.first, h.started⟩
  | paddle a =>
      cases a with
      | start => exact h.start hstep
      | finish => exact h.finish hstep
      | onDit pressed =>
          obtain rfl := Option.some.inj hstep
          exact h.paddle (a := .onDit pressed) rfl rfl rfl
      | onDah pressed =>
          obtain rfl := Option.some.inj hstep
          exact h.paddle (a := .onDah pressed) rfl rfl rfl
  | decode ns => exact h.decode hu hprompt hstep
  | sleep => exact h.sleep hstep
  | timeoutCheck =>
      obtain ⟨decoder, hdecoder, rfl⟩ := Option.map_eq_some_iff.mp hstep
      have hmove := CwDecoder.step_moves h.live hdecoder
      exact ⟨h.elements, h.space, hmove.live h.live, h.segmented.check hu h.live le_rfl hmove,
        h.nonempty, h.clock, h.began, h.inside, h.playing, h.first, h.started⟩

/-! ## Whole bursts -/

theorem LetterInv.whole (h : LetterInv u wpm startTime lateness s)
    (hfits : calculateDuration .interElementSpace wpm + lateness ≤ 2 * u) : Whole u s := by
  refine ⟨⟨s.pending, h.started, ?_⟩, ?_⟩
  · unfold pending
    split <;> simp
  · have hnear : ∀ burst ∈ s.bursts, burst.IsChain fun x y => Signal.near u x y = true := by
      refine fun burst hburst => (h.inside burst hburst).imp fun x y hxy => ?_
      exact decide_eq_true (hxy.trans hfits)
    obtain ⟨groups, hflatten, hcut, hjoined, hapart⟩ := splitBy_pieces h.nonempty hnear
    refine ⟨groups, hflatten, ?_, ?_, ?_⟩
    · rw [CwDecoder.letters, ← h.segmented.handed, hcut, List.map_map]
      rfl
    · exact fun group hgroup => (hjoined group hgroup).imp fun burst burst' hmeet =>
        hmeet.mono fun x _ y _ hxy => of_decide_eq_true hxy
    · refine hapart.imp fun group group' hmeet => hmeet.mono fun burst _ burst' _ hmeet' => ?_
      exact hmeet'.mono fun x _ y _ hxy => not_le.mp (of_decide_eq_false hxy)

/-! ## A burst that is cut -/

theorem calculateDuration_space_mem (hwpm : 1 ≤ wpm) :
    0 ≤ calculateDuration .interElementSpace wpm
      ∧ calculateDuration .interElementSpace wpm ≤ 1200 := by
  have hdiv : calculateDuration .interElementSpace wpm = 1200 / wpm :=
    Int.tdiv_eq_ediv_of_nonneg (by decide)
  rw [hdiv]
  exact ⟨Int.ediv_nonneg (by decide) (by omega), Int.ediv_le_self wpm (by decide)⟩

/-- A dit is held for two. The keyer wakes up `ns` after the first, and is
`late` ms late with the second. -/
def twoDits (ns late : Nat) : List DecodedAct :=
  [.paddle (.onDit true), .paddle .start, .decode 0, .sleep, .pass ns, .paddle .finish,
    .pass (late * 1000000), .paddle .start, .decode 0]

theorem run_twoDits (farnsWorth : Int) {ns late : Nat}
    (hns : (ns : Int)
      = (calculateDuration .dit wpm + calculateDuration .interElementSpace wpm) * 1000000)
    (hrange : millis (ns + late * 1000000) < 2 ^ 31) (hlate : late ≤ lateness) :
    ∃ t, (decodedKeyer.run (started .dit .dit wpm .iambicB {} farnsWorth 0) (twoDits ns late)
          = some t
        ∧ decodedKeyer.Along (Prompt 0 lateness) (started .dit .dit wpm .iambicB {} farnsWorth 0)
          (twoDits ns late))
      ∧ ∃ x y, t.bursts = [[x, y]] ∧ x.item = .dit ∧ y.item = .dit
        ∧ x.silence y = calculateDuration .interElementSpace wpm + late := by
  have hrange₀ : millis (0 - 0) < 2 ^ 31 := by decide
  have hrange₁ : millis (0 + 0 + (ns : Int) - 0) < 2 ^ 31 := by
    refine lt_of_le_of_lt (millis_mono ?_) hrange
    omega
  have hrange₂ : millis (0 + 0 + (ns : Int) + (late * 1000000 : Nat) - 0) < 2 ^ 31 := by
    refine lt_of_le_of_lt (millis_mono ?_) hrange
    omega
  refine ⟨_, Machine.run_along_cons rfl ⟨hrange₀, trivial⟩ <|
    Machine.run_along_cons rfl ⟨hrange₀, trivial⟩ <|
    Machine.run_along_cons rfl ⟨hrange₀, fun hjoined => absurd hjoined Bool.false_ne_true⟩ <|
    Machine.run_along_cons rfl ⟨hrange₀, trivial⟩ <|
    Machine.run_along_cons rfl ⟨hrange₀, trivial⟩ <|
    Machine.run_along_cons (if_pos ?_) ⟨hrange₁, trivial⟩ <|
    Machine.run_along_cons rfl ⟨hrange₁, trivial⟩ <|
    Machine.run_along_cons rfl ⟨hrange₂, trivial⟩ <|
    Machine.run_along_cons rfl ⟨hrange₂, fun _ => ?_⟩ ⟨rfl, trivial⟩,
    ⟨.dit, calculateDuration .dit wpm, 0, 0 + 0⟩,
    ⟨.dit, calculateDuration .dit wpm, 0 + 0 + ns + (late * 1000000 : Nat),
      0 + 0 + ns + (late * 1000000 : Nat) + 0⟩, rfl, rfl, rfl, ?_⟩
  · -- the keyer wakes up in time
    refine decide_eq_true ?_
    show 0 + 0 + (calculateDuration .dit wpm + calculateDuration .interElementSpace wpm) * 1000000
      ≤ 0 + 0 + (ns : Int)
    omega
  · -- the second dit is not too late
    show 0 + 0 + (ns : Int) + (late * 1000000 : Nat) ≤ 0 + 0
      + (calculateDuration .dit wpm + calculateDuration .interElementSpace wpm) * 1000000
      + lateness * 1000000
    omega
  · have htime : (0 : Int) + 0 + ns + (late * 1000000 : Nat) - (0 + 0)
        = (calculateDuration .dit wpm + calculateDuration .interElementSpace wpm + late)
          * 1000000 := by
      omega
    rw [Signal.silence, htime, millis_mul]
    dsimp only
    omega

/-- A burst of two elements cannot be two letters. -/
theorem not_whole {x y : Signal} (h : LetterInv u wpm startTime lateness s)
    (hbursts : s.bursts = [[x, y]]) (hfar : 2 * u < x.silence y) : ¬Whole u s := by
  rintro ⟨-, groups, hflatten, hletters, -⟩
  have hcut : [x, y].splitBy (Signal.near u) = [[x], [y]] := by
    refine splitBy_snoc_far (l := [x]) fun z hz => ?_
    obtain rfl := Option.some.inj hz
    exact decide_eq_false (not_le.mpr hfar)
  rw [CwDecoder.letters, ← h.segmented.handed, hbursts, List.flatten_singleton, hcut] at hletters
  rw [hbursts] at hflatten
  obtain ⟨a, b, rfl⟩ : ∃ a b, groups = [a, b] := by
    have hlength := congrArg List.length hletters
    simp only [List.length_map, List.length_cons, List.length_nil] at hlength
    exact List.length_eq_two.mp hlength.symm
  have hempty {z : Signal} : Signal.spelling [z] ≠ Signal.spelling [].flatten := by
    rw [Signal.spelling_singleton]
    simp [Signal.spelling]
  simp only [List.map_cons, List.cons.injEq] at hletters
  obtain ⟨hx, hy, -⟩ := hletters
  rcases List.append_eq_singleton_iff.mp (by simpa using hflatten) with ⟨rfl, -⟩ | ⟨-, rfl⟩
  · exact hempty hx
  · exact hempty hy

/-! ## Runs -/

theorem letterInv_of_run {lastPressed lastQueued : KeyerItem} {mode : Mode} {d : CwDecoder}
    {farnsWorth : Int} {as : List DecodedAct} (hu : 1 ≤ u)
    (hspace : u = calculateDuration .interElementSpace farnsWorth)
    (hprompt : decodedKeyer.Along (Prompt startTime lateness)
      (started lastPressed lastQueued wpm mode d farnsWorth startTime) as)
    (hrun : decodedKeyer.run (started lastPressed lastQueued wpm mode d farnsWorth startTime) as
      = some t) : LetterInv u wpm startTime lateness t :=
  Machine.run_invariant (fun _ _ _ h hprompt hstep => h.step hu hprompt hstep)
    (letterInv_started lastPressed lastQueued mode d hspace) hprompt hrun

end DecodedKeyer

open DecodedKeyer in
/-- **Whole bursts.** Whatever the threads do and whenever, as long as the
elements of a burst are at most `lateness` ms late, the decoder cuts no burst:
exactly if a space of the keyer and the lateness fit into two spaces of the
decoder. -/
theorem bursts_whole_iff {farnsWorth wpm : Int} (hfw : 1 ≤ farnsWorth ∧ farnsWorth ≤ 1200)
    (hwpm : 1 ≤ wpm) (lateness : Nat) :
    KeepsBursts farnsWorth wpm lateness ↔ calculateDuration .interElementSpace wpm + lateness
      ≤ 2 * calculateDuration .interElementSpace farnsWorth := by
  have hu := CwDecoder.interElementSpace_pos hfw
  constructor
  · intro hkeeps
    by_contra! hlong
    obtain ⟨hspace, hspace_le⟩ := calculateDuration_space_mem hwpm
    obtain ⟨-, hu_le⟩ := calculateDuration_space_mem hfw.1
    have hdit : calculateDuration .dit wpm = calculateDuration .interElementSpace wpm := rfl
    -- the second dit is late by just too much
    obtain ⟨late, hlate⟩ : ∃ late : Nat,
        late = (2 * calculateDuration .interElementSpace farnsWorth + 1
          - calculateDuration .interElementSpace wpm).toNat := ⟨_, rfl⟩
    obtain ⟨ns, hns⟩ : ∃ ns : Nat, (ns : Int)
        = (calculateDuration .dit wpm + calculateDuration .interElementSpace wpm) * 1000000 :=
      ⟨_, Int.toNat_of_nonneg (by omega)⟩
    have hrange : millis (ns + late * 1000000) < 2 ^ 31 := by
      rw [hns, ← Int.add_mul, millis_mul]
      omega
    obtain ⟨t, ⟨hrun, hprompt⟩, x, y, hbursts, -, -, hsilence⟩ :=
      run_twoDits farnsWorth hns hrange (show late ≤ lateness by omega)
    refine not_whole (letterInv_of_run hu rfl hprompt hrun) hbursts ?_
      (hkeeps .dit .dit .iambicB {} 0 (twoDits ns late) t hprompt hrun)
    omega
  · intro hfits lastPressed lastQueued mode d startTime as t hprompt hrun
    exact (letterInv_of_run hu rfl hprompt hrun).whole hfits

open DecodedKeyer in
/-- The decoder expects 18 wpm, and the keyer sends 25. -/
theorem bursts_whole_iff_slow : KeepsBursts 18 25 84 ∧ ¬KeepsBursts 18 25 85 :=
  ⟨(bursts_whole_iff (by decide) (by decide) 84).mpr (by decide),
    fun h => absurd ((bursts_whole_iff (by decide) (by decide) 85).mp h) (by decide)⟩

/-- With what the setters leave, a lateness of a space always fits. -/
theorem space_add_le {farnsWorth wpm : Int} (hfw : 1 ≤ farnsWorth) (h : farnsWorth ≤ wpm) :
    calculateDuration .interElementSpace wpm + calculateDuration .interElementSpace farnsWorth
      ≤ 2 * calculateDuration .interElementSpace farnsWorth := by
  have hle : calculateDuration .interElementSpace wpm
      ≤ calculateDuration .interElementSpace farnsWorth := calculateDuration_dit_le hfw h
  omega

end CwKeyer
