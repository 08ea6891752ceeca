import CwKeyer.Keyer.Steady

/-!
# Releasing both paddles during an element

The squeeze that decides what follows an element is captured when the
element starts, in every mode: after a squeezed element one more is
played even if both paddles were released while it sounded
(`stops_on_release_iff`). `IAMBIC_A` and `IAMBIC_B` share the branch, so
they cannot be told apart (`iambicA_eq_iambicB`).
-/

namespace CwKeyer

/-! ## One more element -/

/-- Releases during an element leave the element and the queue alone. -/
theorem releases_frame {s t : KeyerRun} {rs : List KeyerAct}
    (hrs : ∀ a ∈ rs, a.isRelease = true) (hrun : paddleKeyer.run s rs = some t) :
    t.playing = s.playing ∧ t.keyer.queue = s.keyer.queue ∧ t.started = s.started := by
  refine Machine.run_invariant
    (I := fun u => u.playing = s.playing ∧ u.keyer.queue = s.keyer.queue ∧ u.started = s.started)
    (P := fun _ a _ => a.isRelease = true) ?_ ⟨rfl, rfl, rfl⟩ (Machine.Along.of_forall hrs) hrun
  intro u a u' hI ha hstep
  cases a with
  | onDit pressed =>
      obtain rfl : pressed = false := by simpa [KeyerAct.isRelease] using ha
      obtain rfl := Option.some.inj hstep
      exact hI
  | onDah pressed =>
      obtain rfl : pressed = false := by simpa [KeyerAct.isRelease] using ha
      obtain rfl := Option.some.inj hstep
      exact hI
  | start => cases ha
  | finish => cases ha

/-- An idle keyer starts nothing before the next press. -/
theorem idle_until_press {s t : KeyerRun} {as : List KeyerAct} (hidle : s.Idle)
    (has : ∀ a ∈ as, a.isPress = false) (hrun : paddleKeyer.run s as = some t) :
    t.Idle ∧ t.started = s.started := by
  refine Machine.run_invariant (I := fun u => u.Idle ∧ u.started = s.started)
    (P := fun _ a _ => a.isPress = false) ?_ ⟨hidle, rfl⟩ (Machine.Along.of_forall has) hrun
  rintro u a u' ⟨hidle, hstarted⟩ ha hstep
  cases a with
  | onDit pressed =>
      obtain rfl : pressed = false := ha
      obtain rfl := Option.some.inj hstep
      exact ⟨hidle, hstarted⟩
  | onDah pressed =>
      obtain rfl : pressed = false := ha
      obtain rfl := Option.some.inj hstep
      exact ⟨hidle, hstarted⟩
  | start => exact absurd hidle (KeyerRun.goesOn_iff.mp ⟨.start, u', rfl, hstep⟩)
  | finish => exact absurd hidle (KeyerRun.goesOn_iff.mp ⟨.finish, u', rfl, hstep⟩)

/-- The end of an element with both paddles up and nothing queued. -/
theorem finish_released {s t : KeyerRun} {item : KeyerItem} {squeeze : Bool}
    (hplaying : s.playing = some (item, squeeze)) (hqueue : s.keyer.queue = [])
    (hstep : paddleKeyer.step s .finish = some t)
    (hup : t.keyer.ditPressed = false ∧ t.keyer.dahPressed = false) :
    t.playing = none ∧ (t.keyer.queue = [] ↔ squeeze = false) := by
  obtain ⟨item', squeeze', hplaying', rfl⟩ := paddleKeyer_finish hstep
  obtain ⟨rfl, rfl⟩ := Prod.mk.inj (Option.some.inj (hplaying.symm.trans hplaying'))
  refine ⟨rfl, ?_⟩
  obtain ⟨last, queue, heq, -⟩ := Keyer.processMode_frame s.keyer squeeze
  have hup' : s.keyer.ditPressed = false ∧ s.keyer.dahPressed = false := by
    simpa [heq] using hup
  cases hitem : s.keyer.modeItem squeeze with
  | none =>
      obtain ⟨rfl, -⟩ := Keyer.modeItem_eq_none hitem
      simp [Keyer.processMode, hitem, hqueue]
  | some next =>
      cases squeeze with
      | true => simp [Keyer.processMode, hitem, Keyer.enqueue_ne_nil]
      | false => simp [Keyer.modeItem, hup'] at hitem

/-- **Stopping on release.** In every mode, for every element after which
both paddles are up with no press since it started: no further element is
started until the next press exactly if the paddles were not both down
when the element started. -/
theorem stops_on_release_iff {lastPressed lastQueued : KeyerItem} {wpm : Int} {mode : Mode}
    {s t : KeyerRun} {rs : List KeyerAct}
    (h : paddleKeyer.Reachable (.init lastPressed lastQueued wpm mode) s)
    (hrs : ∀ a ∈ rs, a.isRelease = true)
    (hrun : paddleKeyer.run s (.start :: rs ++ [.finish]) = some t)
    (hup : t.keyer.ditPressed = false ∧ t.keyer.dahPressed = false) :
    (∀ as u, (∀ a ∈ as, a.isPress = false) → paddleKeyer.run t as = some u →
      u.started = t.started) ↔ s.keyer.squeeze = false := by
  obtain ⟨s₁, hstart, hrest⟩ := Machine.run_cons.mp hrun
  obtain ⟨s₂, hreleases, hlast⟩ := Machine.run_append.mp hrest
  obtain ⟨item, rest, -, hqueue, rfl⟩ := paddleKeyer_start hstart
  obtain rfl := (steadyInv_of_reachable h).queue.rest_eq_nil hqueue
  obtain ⟨hplaying, hempty, -⟩ := releases_frame hrs hreleases
  obtain ⟨hdone, hnext⟩ := finish_released hplaying hempty (by simpa using hlast) hup
  rw [← hnext]
  constructor
  · intro hstops
    by_contra hne
    -- the queued element can be started without a press
    obtain ⟨next, tail, htail⟩ := List.exists_cons_of_ne_nil hne
    obtain ⟨u, hu, hstarted⟩ : ∃ u, paddleKeyer.run t [.start] = some u
        ∧ u.started = t.started ++ [next] :=
      ⟨_, by simp [paddleKeyer, KeyerRun.step, hdone, htail]; rfl, rfl⟩
    have := hstops [.start] u (by simp [KeyerAct.isPress]) hu
    simp [hstarted] at this
  · intro hqueue as u has hu
    exact (idle_until_press ⟨hdone, hqueue⟩ has hu).2

/-- A dit during which the dah paddle stays up. -/
theorem stops_on_release_dit :
    ∃ t, paddleKeyer.run (.init .dit .dit 20 .iambicA) [.onDit true, .start, .onDit false, .finish]
        = some t
      ∧ ∀ as u, (∀ a ∈ as, a.isPress = false) → paddleKeyer.run t as = some u →
        u.started = [.dit] := by
  refine ⟨_, rfl, ?_⟩
  have hiff := @stops_on_release_iff .dit .dit 20 .iambicA _ _ [.onDit false]
    ⟨[.onDit true], rfl⟩ (by decide) rfl ⟨rfl, rfl⟩
  exact hiff.mpr rfl

/-- `IAMBIC_A` does not stop on release: both paddles are released during
the dit, and a dah follows. -/
theorem iambicA_plays_on :
    ¬ ∀ s rs t, paddleKeyer.Reachable (.init .dit .dit 20 .iambicA) s →
      (∀ a ∈ rs, a.isRelease = true) →
      paddleKeyer.run s (.start :: rs ++ [.finish]) = some t →
      t.keyer.ditPressed = false ∧ t.keyer.dahPressed = false →
      ∀ as u, (∀ a ∈ as, a.isPress = false) → paddleKeyer.run t as = some u →
        u.started = t.started := by
  intro h
  have hstarted := h _ [.onDit false, .onDah false] _ ⟨[.onDit true, .onDah true], rfl⟩
    (by decide) rfl ⟨rfl, rfl⟩ [.start] _ (by decide) rfl
  revert hstarted
  decide

/-! ## `IAMBIC_A` and `IAMBIC_B` -/

def KeyerRun.withMode (s : KeyerRun) (mode : Mode) : KeyerRun :=
  { s with keyer := { s.keyer with mode := mode } }

theorem Keyer.enqueue_withMode (k : Keyer) (item : KeyerItem) (mode : Mode) :
    { k with mode := mode }.enqueue item = { k.enqueue item with mode := mode } := by
  unfold enqueue
  split <;> rfl

theorem Keyer.processMode_withMode {k : Keyer} (hmode : k.mode = .iambicA) (squeeze : Bool) :
    { k with mode := .iambicB }.processMode squeeze
      = { k.processMode squeeze with mode := .iambicB } := by
  have hitem : { k with mode := .iambicB }.modeItem squeeze = k.modeItem squeeze := by
    simp [modeItem, hmode]
  rw [processMode, processMode, hitem]
  cases k.modeItem squeeze with
  | none => rfl
  | some item => exact enqueue_withMode k item .iambicB

theorem mode_step {s s' : KeyerRun} {a : KeyerAct} (hstep : paddleKeyer.step s a = some s') :
    s'.keyer.mode = s.keyer.mode := by
  cases a with
  | onDit pressed =>
      obtain rfl := Option.some.inj hstep
      obtain ⟨last, queue, heq, -⟩ := s.keyer.onDit_frame pressed
      rw [heq]
  | onDah pressed =>
      obtain rfl := Option.some.inj hstep
      obtain ⟨last, queue, heq, -⟩ := s.keyer.onDah_frame pressed
      rw [heq]
  | start =>
      obtain ⟨item, rest, -, -, rfl⟩ := paddleKeyer_start hstep
      rfl
  | finish =>
      obtain ⟨item, squeeze, -, rfl⟩ := paddleKeyer_finish hstep
      obtain ⟨last, queue, heq, -⟩ := Keyer.processMode_frame s.keyer squeeze
      rw [heq]

theorem withMode_step {s : KeyerRun} (hmode : s.keyer.mode = .iambicA) (a : KeyerAct) :
    paddleKeyer.step (s.withMode .iambicB) a
      = (paddleKeyer.step s a).map (·.withMode .iambicB) := by
  cases a with
  | onDit pressed =>
      cases pressed with
      | true =>
          have := Keyer.enqueue_withMode
            { s.keyer with ditPressed := true, lastPressed := .dit } .dit .iambicB
          simp only [paddleKeyer, KeyerRun.step, KeyerRun.withMode, Keyer.onDit, if_true,
            Option.map_some, this]
      | false => rfl
  | onDah pressed =>
      cases pressed with
      | true =>
          have := Keyer.enqueue_withMode
            { s.keyer with dahPressed := true, lastPressed := .dah } .dah .iambicB
          simp only [paddleKeyer, KeyerRun.step, KeyerRun.withMode, Keyer.onDah, if_true,
            Option.map_some, this]
      | false => rfl
  | start =>
      cases hplaying : s.playing <;> cases hqueue : s.keyer.queue <;>
        simp only [paddleKeyer, KeyerRun.step, KeyerRun.withMode, hplaying, hqueue] <;> rfl
  | finish =>
      cases hplaying : s.playing with
      | none => simp [paddleKeyer, KeyerRun.step, KeyerRun.withMode, hplaying]
      | some e =>
          simp [paddleKeyer, KeyerRun.step, KeyerRun.withMode, hplaying,
            Keyer.processMode_withMode hmode]

/-- **`IAMBIC_A` is `IAMBIC_B`**: the same events give the same elements. -/
theorem iambicA_eq_iambicB (lastPressed lastQueued : KeyerItem) (wpm : Int)
    (as : List KeyerAct) :
    paddleKeyer.run (.init lastPressed lastQueued wpm .iambicB) as
      = (paddleKeyer.run (.init lastPressed lastQueued wpm .iambicA) as).map
        (·.withMode .iambicB) :=
  Machine.run_map (I := fun s => s.keyer.mode = .iambicA)
    (fun _ _ _ hmode hstep => (mode_step hstep).trans hmode)
    (fun _ a hmode => withMode_step hmode a)
    (s := .init lastPressed lastQueued wpm .iambicA) rfl

end CwKeyer
