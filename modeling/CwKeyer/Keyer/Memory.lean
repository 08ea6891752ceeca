import CwKeyer.Keyer.Steady

/-!
# Paddle memory

A press fills the one slot of the queue if the slot is empty, and it is
empty while an element sounds until the first press (`queue_eq_nil_of_first`).
What fills the slot stays in it until the next element takes it: neither a
later press nor the mode processing replaces it (`Remembered`), so the next
element started is the one that was pressed (`next_started_is_pressed`).
-/

namespace CwKeyer

/-- The paddle of a press. -/
def KeyerAct.pressed : KeyerAct → Option KeyerItem
  | .onDit true => some .dit
  | .onDah true => some .dah
  | _ => none

/-- No paddle has been pressed since the last element started. -/
def unpressedSinceStart (history : List KeyerAct) : Bool :=
  (history.reverse.takeWhile fun a => a != .start).all fun a => !a.isPress

theorem unpressedSinceStart_append (history : List KeyerAct) (a : KeyerAct) :
    unpressedSinceStart (history ++ [a])
      = (a == .start || !a.isPress && unpressedSinceStart history) := by
  by_cases ha : a = .start
  · simp [unpressedSinceStart, ha]
  · simp [unpressedSinceStart, ha]

/-! ## The slot -/

/-- A press of `item` with the slot empty. -/
theorem step_pressed {s s' : KeyerRun} {a : KeyerAct} {item : KeyerItem}
    (ha : a.pressed = some item) (hempty : s.keyer.queue = [])
    (hstep : paddleKeyer.step s a = some s') :
    s'.started = s.started ∧ s'.keyer.queue = [item] := by
  cases a with
  | onDit pressed =>
      cases pressed with
      | true =>
          obtain rfl : KeyerItem.dit = item := Option.some.inj ha
          obtain rfl := Option.some.inj hstep
          exact ⟨rfl, by simp [Keyer.onDit, Keyer.enqueue, hempty]⟩
      | false => cases ha
  | onDah pressed =>
      cases pressed with
      | true =>
          obtain rfl : KeyerItem.dah = item := Option.some.inj ha
          obtain rfl := Option.some.inj hstep
          exact ⟨rfl, by simp [Keyer.onDah, Keyer.enqueue, hempty]⟩
      | false => cases ha
  | start => cases ha
  | finish => cases ha

/-- A full slot keeps its item over every step but the start of an element. -/
theorem step_of_queued {s s' : KeyerRun} {a : KeyerAct} {item : KeyerItem}
    (hqueue : s.keyer.queue = [item]) (ha : a ≠ .start)
    (hstep : paddleKeyer.step s a = some s') :
    s'.started = s.started ∧ s'.keyer.queue = [item] := by
  have hfull : ∀ k : Keyer, k.queue = [item] → ∀ x, (k.enqueue x).queue = [item] := by
    intro k hk x
    rw [Keyer.enqueue_of_full (by simp [hk]), hk]
  cases a with
  | onDit pressed =>
      obtain rfl := Option.some.inj hstep
      cases pressed with
      | true => exact ⟨rfl, hfull { s.keyer with ditPressed := true, lastPressed := .dit } hqueue _⟩
      | false => exact ⟨rfl, hqueue⟩
  | onDah pressed =>
      obtain rfl := Option.some.inj hstep
      cases pressed with
      | true => exact ⟨rfl, hfull { s.keyer with dahPressed := true, lastPressed := .dah } hqueue _⟩
      | false => exact ⟨rfl, hqueue⟩
  | start => exact absurd rfl ha
  | finish =>
      obtain ⟨_, squeeze, -, rfl⟩ := paddleKeyer_finish hstep
      refine ⟨rfl, ?_⟩
      simp only [Keyer.processMode]
      split
      · exact hfull _ hqueue _
      · exact hqueue

/-- The slot is empty while an element sounds, up to the first press. -/
theorem queue_eq_nil_of_first {lastPressed lastQueued : KeyerItem} {wpm : Int} {mode : Mode}
    {history : List KeyerAct} {s : KeyerRun}
    (h : paddleKeyer.run (.init lastPressed lastQueued wpm mode) history = some s)
    (hsounds : s.playing ≠ none) (hfirst : unpressedSinceStart history = true) :
    s.keyer.queue = [] := by
  suffices paddleKeyer.Reachable (.init lastPressed lastQueued wpm mode) s
      ∧ (s.playing ≠ none → unpressedSinceStart history = true → s.keyer.queue = []) from
    this.2 hsounds hfirst
  refine Machine.run_rec (C := fun history s =>
    paddleKeyer.Reachable (.init lastPressed lastQueued wpm mode) s
      ∧ (s.playing ≠ none → unpressedSinceStart history = true → s.keyer.queue = []))
    ⟨.refl _, fun hne => absurd rfl hne⟩ ?_ h
  rintro history s a s' ⟨hreach, ih⟩ hstep
  refine ⟨hreach.run ((paddleKeyer.run_singleton s a).trans hstep), ?_⟩
  rw [unpressedSinceStart_append]
  cases a with
  | onDit pressed =>
      obtain rfl := Option.some.inj hstep
      cases pressed with
      | true => simp [KeyerAct.isPress]
      | false => simpa [KeyerAct.isPress, Keyer.onDit] using ih
  | onDah pressed =>
      obtain rfl := Option.some.inj hstep
      cases pressed with
      | true => simp [KeyerAct.isPress]
      | false => simpa [KeyerAct.isPress, Keyer.onDah] using ih
  | start =>
      obtain ⟨item, rest, -, hqueue, rfl⟩ := paddleKeyer_start hstep
      exact fun _ _ => (steadyInv_of_reachable hreach).queue.rest_eq_nil hqueue
  | finish =>
      obtain ⟨item, squeeze, -, rfl⟩ := paddleKeyer_finish hstep
      exact fun hne => absurd rfl hne

/-! ## The next element -/

/-- `item` waits in the slot, or it was the first element started after
`before`. -/
def Remembered (item : KeyerItem) (before : List KeyerItem) (s : KeyerRun) : Prop :=
  s.started = before ∧ s.keyer.queue = [item] ∨ ∃ rest, s.started = before ++ item :: rest

theorem started_step {s s' : KeyerRun} {a : KeyerAct} (hstep : paddleKeyer.step s a = some s') :
    ∃ added, s'.started = s.started ++ added := by
  cases a with
  | onDit pressed =>
      obtain rfl := Option.some.inj hstep
      exact ⟨[], (List.append_nil _).symm⟩
  | onDah pressed =>
      obtain rfl := Option.some.inj hstep
      exact ⟨[], (List.append_nil _).symm⟩
  | start =>
      obtain ⟨item, rest, -, -, rfl⟩ := paddleKeyer_start hstep
      exact ⟨[item], rfl⟩
  | finish =>
      obtain ⟨item, squeeze, -, rfl⟩ := paddleKeyer_finish hstep
      exact ⟨[], (List.append_nil _).symm⟩

theorem Remembered.step {item : KeyerItem} {before : List KeyerItem} {s s' : KeyerRun}
    {a : KeyerAct} (hR : Remembered item before s) (hstep : paddleKeyer.step s a = some s') :
    Remembered item before s' := by
  rcases hR with ⟨hstarted, hqueue⟩ | ⟨rest, hstarted⟩
  · by_cases ha : a = .start
    · subst ha
      obtain ⟨next, rest, -, hnext, rfl⟩ := paddleKeyer_start hstep
      obtain ⟨rfl, -⟩ := List.cons.inj (hnext.symm.trans hqueue)
      exact Or.inr ⟨[], by rw [hstarted]⟩
    · obtain ⟨hsame, hkept⟩ := step_of_queued hqueue ha hstep
      exact Or.inl ⟨hsame.trans hstarted, hkept⟩
  · obtain ⟨added, hadded⟩ := started_step hstep
    exact Or.inr ⟨rest ++ added, by rw [hadded, hstarted, List.append_assoc, List.cons_append]⟩

/-- What waits is started by the very next element, which nothing but an
element in progress holds up. -/
theorem Remembered.starts {item : KeyerItem} {s : KeyerRun} (hR : Remembered item s.started s)
    (hsilent : s.playing = none) :
    ∃ t, paddleKeyer.step s .start = some t ∧ t.started = s.started ++ [item] := by
  rcases hR with ⟨-, hqueue⟩ | ⟨rest, hstarted⟩
  · exact ⟨_, by simp [paddleKeyer, KeyerRun.step, hsilent, hqueue]; rfl, rfl⟩
  · simp at hstarted

/-- **Paddle memory.** In every mode and after every history, a press that
is the first one since the sounding element started, or that comes while
nothing sounds and nothing is queued, decides the next element: whatever
follows, it is the first element started afterwards, and until it has been
started nothing but an element still sounding holds it up. -/
theorem next_started_is_pressed {lastPressed lastQueued : KeyerItem} {wpm : Int} {mode : Mode}
    {history later : List KeyerAct} {press : KeyerAct} {item : KeyerItem} {s t : KeyerRun}
    (h : paddleKeyer.run (.init lastPressed lastQueued wpm mode) history = some s)
    (hpress : press.pressed = some item)
    (hfirst : s.playing ≠ none ∧ unpressedSinceStart history = true ∨ s.Idle)
    (hrun : paddleKeyer.run s (press :: later) = some t) :
    (t.started = s.started ∨ ∃ rest, t.started = s.started ++ item :: rest)
      ∧ (t.started = s.started → t.playing = none →
        ∃ u, paddleKeyer.step t .start = some u ∧ u.started = s.started ++ [item]) := by
  have hempty : s.keyer.queue = [] := by
    rcases hfirst with ⟨hsounds, hfirst⟩ | hidle
    · exact queue_eq_nil_of_first h hsounds hfirst
    · exact hidle.2
  obtain ⟨s₁, hstep, hlater⟩ := Machine.run_cons.mp hrun
  have hR : Remembered item s.started t :=
    Machine.Reachable.invariant ⟨later, hlater⟩ (Or.inl (step_pressed hpress hempty hstep))
      fun _ _ _ hR hstep => hR.step hstep
  refine ⟨hR.imp_left And.left, ?_⟩
  intro hsame hsilent
  rw [← hsame] at hR ⊢
  exact hR.starts hsilent

/-- A dah tapped inside a dit, with the dit paddle held throughout. -/
theorem next_started_is_pressed_tap :
    ∃ s t, paddleKeyer.run (.init .dit .dit 20 .iambicB) [.onDit true, .start] = some s
      ∧ paddleKeyer.run s [.onDah true, .onDah false, .finish] = some t
      ∧ ∃ u, paddleKeyer.step t .start = some u ∧ u.started = [.dit, .dah] := by
  refine ⟨_, _, rfl, rfl, ?_⟩
  exact (@next_started_is_pressed .dit .dit 20 .iambicB [.onDit true, .start]
    [.onDah false, .finish] (.onDah true) .dah _ _ rfl rfl (Or.inl ⟨by simp, rfl⟩) rfl).2 rfl rfl

end CwKeyer
