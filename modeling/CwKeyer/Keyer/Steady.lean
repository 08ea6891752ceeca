import Mathlib.Data.List.Chain
import CwKeyer.Keyer.Basic

/-!
# The steady state of the keyer

What the keyer thread plays while the paddles do not move. `QueueInv`
and `SteadyInv` tie the one-slot queue, `m_lastQueued`, the element in
progress and the paddles together in every reachable state. From there
on the mode processing after an element only depends on that element
(`Keyer.heldNext`), so the elements of a run without paddle events form
a chain under `heldNext` (`Held.step`), and `steady_state` reads the
chain off for each position of the paddles.
-/

namespace CwKeyer

namespace Keyer

/-! ## The queue -/

theorem enqueue_of_empty {k : Keyer} (h : k.queue = []) (item : KeyerItem) :
    k.enqueue item = { k with lastQueued := item, queue := [item] } := by
  simp [enqueue, h]

theorem enqueue_of_full {k : Keyer} (h : k.queue ≠ []) (item : KeyerItem) :
    k.enqueue item = k := by
  simp [enqueue, h]

theorem enqueue_ne_nil (k : Keyer) (item : KeyerItem) : (k.enqueue item).queue ≠ [] := by
  by_cases h : k.queue = []
  · simp [enqueue_of_empty h]
  · rwa [enqueue_of_full h]

/-- Enqueueing touches the queue and `m_lastQueued` only. -/
theorem enqueue_frame (k : Keyer) (item : KeyerItem) :
    ∃ last queue, k.enqueue item = { k with lastQueued := last, queue := queue }
      ∧ ∀ x ∈ queue, x ∈ k.queue ∨ x = item := by
  by_cases h : k.queue = []
  · exact ⟨item, [item], enqueue_of_empty h item, by simp⟩
  · exact ⟨k.lastQueued, k.queue, enqueue_of_full h item, fun x hx => Or.inl hx⟩

theorem processMode_frame (k : Keyer) (squeeze : Bool) :
    ∃ last queue, k.processMode squeeze = { k with lastQueued := last, queue := queue }
      ∧ ∀ x ∈ queue, x ∈ k.queue ∨ k.modeItem squeeze = some x := by
  unfold processMode
  cases hitem : k.modeItem squeeze with
  | none => exact ⟨k.lastQueued, k.queue, rfl, fun x hx => Or.inl hx⟩
  | some item =>
      obtain ⟨last, queue, heq, hmem⟩ := enqueue_frame k item
      exact ⟨last, queue, heq, fun x hx => (hmem x hx).imp_right fun h => by rw [h]⟩

theorem onDit_frame (k : Keyer) (pressed : Bool) :
    ∃ last queue, k.onDit pressed = { k with
        ditPressed := pressed
        lastPressed := if pressed then .dit else k.lastPressed
        lastQueued := last
        queue := queue }
      ∧ ∀ x ∈ queue, x ∈ k.queue ∨ x = .dit := by
  cases pressed with
  | true => exact enqueue_frame { k with ditPressed := true, lastPressed := .dit } .dit
  | false => exact ⟨k.lastQueued, k.queue, rfl, fun x hx => Or.inl hx⟩

theorem onDah_frame (k : Keyer) (pressed : Bool) :
    ∃ last queue, k.onDah pressed = { k with
        dahPressed := pressed
        lastPressed := if pressed then .dah else k.lastPressed
        lastQueued := last
        queue := queue }
      ∧ ∀ x ∈ queue, x ∈ k.queue ∨ x = .dah := by
  cases pressed with
  | true => exact enqueue_frame { k with dahPressed := true, lastPressed := .dah } .dah
  | false => exact ⟨k.lastQueued, k.queue, rfl, fun x hx => Or.inl hx⟩

/-- What the mode processing reads besides `m_lastQueued`. -/
def controls (k : Keyer) : Bool × Bool × KeyerItem × Mode :=
  (k.ditPressed, k.dahPressed, k.lastPressed, k.mode)

@[simp] theorem controls_processMode (k : Keyer) (squeeze : Bool) :
    (k.processMode squeeze).controls = k.controls := by
  obtain ⟨last, queue, heq, -⟩ := processMode_frame k squeeze
  rw [heq]
  rfl

/-- At most one item is queued, and `m_lastQueued` is that item. -/
structure QueueInv (k : Keyer) : Prop where
  short : k.queue.length ≤ 1
  queued : ∀ item, k.queue = [item] → k.lastQueued = item

theorem QueueInv.enqueue {k : Keyer} (hI : QueueInv k) (item : KeyerItem) :
    QueueInv (k.enqueue item) := by
  by_cases h : k.queue = []
  · rw [enqueue_of_empty h]
    refine ⟨Nat.le_refl 1, ?_⟩
    intro item' heq
    exact List.singleton_inj.mp heq
  · rwa [enqueue_of_full h]

theorem QueueInv.rest_eq_nil {k : Keyer} (hI : QueueInv k) {item : KeyerItem}
    {rest : List KeyerItem} (h : k.queue = item :: rest) : rest = [] := by
  have := hI.short
  rw [h] at this
  exact List.eq_nil_of_length_eq_zero (by simpa using this)

theorem QueueInv.processMode {k : Keyer} (hI : QueueInv k) (squeeze : Bool) :
    QueueInv (k.processMode squeeze) := by
  unfold Keyer.processMode
  split
  · exact hI.enqueue _
  · exact hI

theorem QueueInv.onDit {k : Keyer} (hI : QueueInv k) (pressed : Bool) :
    QueueInv (k.onDit pressed) := by
  cases pressed with
  | true =>
      exact QueueInv.enqueue (k := { k with ditPressed := true, lastPressed := .dit })
        ⟨hI.short, hI.queued⟩ .dit
  | false => exact ⟨hI.short, hI.queued⟩

theorem QueueInv.onDah {k : Keyer} (hI : QueueInv k) (pressed : Bool) :
    QueueInv (k.onDah pressed) := by
  cases pressed with
  | true =>
      exact QueueInv.enqueue (k := { k with dahPressed := true, lastPressed := .dah })
        ⟨hI.short, hI.queued⟩ .dah
  | false => exact ⟨hI.short, hI.queued⟩

theorem modeItem_squeeze (k : Keyer) : (k.modeItem true).isSome = true := by
  simp only [modeItem]
  cases k.mode <;> rfl

/-- Nothing is enqueued after an element only if no paddle is down. -/
theorem modeItem_eq_none {k : Keyer} {squeeze : Bool} (h : k.modeItem squeeze = none) :
    squeeze = false ∧ k.ditPressed = false ∧ k.dahPressed = false := by
  cases squeeze with
  | true =>
      have := modeItem_squeeze k
      simp [h] at this
  | false =>
      simp only [modeItem, Bool.false_eq_true, if_false] at h
      cases hdit : k.ditPressed <;> cases hdah : k.dahPressed <;> simp [hdit, hdah] at h ⊢

end Keyer

/-! ## Steps -/

theorem paddleKeyer_start {s s' : KeyerRun} (h : paddleKeyer.step s .start = some s') :
    ∃ item rest, s.playing = none ∧ s.keyer.queue = item :: rest ∧
      s' = {
        keyer := { s.keyer with queue := rest }
        playing := some (item, s.keyer.squeeze)
        started := s.started ++ [item]
        calls := s.calls ++ (s.keyer.playDitDah item).toList } := by
  simp only [paddleKeyer, KeyerRun.step] at h
  split at h
  · rename_i item rest hplaying hqueue
    exact ⟨item, rest, hplaying, hqueue, (Option.some.inj h).symm⟩
  · cases h

theorem paddleKeyer_finish {s s' : KeyerRun} (h : paddleKeyer.step s .finish = some s') :
    ∃ item squeeze, s.playing = some (item, squeeze) ∧
      s' = { s with keyer := s.keyer.processMode squeeze, playing := none } := by
  simp only [paddleKeyer, KeyerRun.step] at h
  split at h
  · rename_i item squeeze hplaying
    exact ⟨item, squeeze, hplaying, (Option.some.inj h).symm⟩
  · cases h

theorem spaceTime_step {k k' : KeyerRun} {a : KeyerAct} (hstep : paddleKeyer.step k a = some k') :
    k'.keyer.spaceTime = k.keyer.spaceTime := by
  cases a with
  | onDit pressed =>
      obtain rfl := Option.some.inj hstep
      obtain ⟨last, queue, heq, -⟩ := k.keyer.onDit_frame pressed
      show (k.keyer.onDit pressed).spaceTime = _
      rw [heq]
  | onDah pressed =>
      obtain rfl := Option.some.inj hstep
      obtain ⟨last, queue, heq, -⟩ := k.keyer.onDah_frame pressed
      show (k.keyer.onDah pressed).spaceTime = _
      rw [heq]
  | start =>
      obtain ⟨item, rest, -, -, rfl⟩ := paddleKeyer_start hstep
      rfl
  | finish =>
      obtain ⟨item, squeeze, -, rfl⟩ := paddleKeyer_finish hstep
      obtain ⟨last, queue, heq, -⟩ := Keyer.processMode_frame k.keyer squeeze
      show (k.keyer.processMode squeeze).spaceTime = _
      rw [heq]

/-- Some step of the keyer thread is possible. -/
def KeyerRun.GoesOn (s : KeyerRun) : Prop :=
  ∃ a s', a.byThread = true ∧ paddleKeyer.step s a = some s'

theorem KeyerRun.goesOn_iff {s : KeyerRun} : s.GoesOn ↔ ¬s.Idle := by
  constructor
  · rintro ⟨a, s', ha, hstep⟩ ⟨hplaying, hqueue⟩
    cases a with
    | onDit pressed => cases ha
    | onDah pressed => cases ha
    | start =>
        obtain ⟨item, rest, -, hne, -⟩ := paddleKeyer_start hstep
        rw [hqueue] at hne
        cases hne
    | finish =>
        obtain ⟨item, squeeze, hsome, -⟩ := paddleKeyer_finish hstep
        rw [hplaying] at hsome
        cases hsome
  · intro hbusy
    cases hplaying : s.playing with
    | some e => exact ⟨.finish, _, rfl, by simp [paddleKeyer, KeyerRun.step, hplaying]; rfl⟩
    | none =>
        cases hqueue : s.keyer.queue with
        | nil => exact absurd ⟨hplaying, hqueue⟩ hbusy
        | cons item rest =>
            exact ⟨.start, _, rfl, by simp [paddleKeyer, KeyerRun.step, hplaying, hqueue]; rfl⟩

/-! ## The invariant -/

structure SteadyInv (s : KeyerRun) : Prop where
  queue : s.keyer.QueueInv
  /-- An idle keyer has no paddle down. -/
  resting : s.Idle → s.keyer.ditPressed = false ∧ s.keyer.dahPressed = false
  /-- The paddle that completed a squeeze during an element is queued. -/
  squeezed : ∀ item, s.playing = some (item, false) → s.keyer.squeeze = true →
    s.keyer.queue ≠ []

theorem steadyInv_init (lastPressed lastQueued : KeyerItem) (wpm : Int) (mode : Mode) :
    SteadyInv (.init lastPressed lastQueued wpm mode) :=
  ⟨⟨Nat.zero_le 1, by simp [KeyerRun.init, Keyer.configure]⟩, fun _ => ⟨rfl, rfl⟩,
    by simp [KeyerRun.init]⟩

/-- With an item queued there is only the queue to look after. -/
theorem SteadyInv.of_queued {s : KeyerRun} (hQ : s.keyer.QueueInv) (hne : s.keyer.queue ≠ []) :
    SteadyInv s :=
  ⟨hQ, fun h => absurd h.2 hne, fun _ _ _ => hne⟩

theorem steadyInv_step {s s' : KeyerRun} {a : KeyerAct} (hI : SteadyInv s)
    (hstep : paddleKeyer.step s a = some s') : SteadyInv s' := by
  cases a with
  | onDit pressed =>
      obtain rfl := Option.some.inj hstep
      cases pressed with
      | true => exact .of_queued (hI.queue.onDit true) (Keyer.enqueue_ne_nil _ _)
      | false =>
          refine ⟨hI.queue.onDit false, fun hidle => ⟨rfl, (hI.resting hidle).2⟩, ?_⟩
          intro item _ hsqueeze
          cases hsqueeze
  | onDah pressed =>
      obtain rfl := Option.some.inj hstep
      cases pressed with
      | true => exact .of_queued (hI.queue.onDah true) (Keyer.enqueue_ne_nil _ _)
      | false =>
          refine ⟨hI.queue.onDah false, fun hidle => ⟨(hI.resting hidle).1, rfl⟩, ?_⟩
          intro item _ hsqueeze
          simp [Keyer.squeeze, Keyer.onDah] at hsqueeze
  | start =>
      obtain ⟨item, rest, -, hqueue, rfl⟩ := paddleKeyer_start hstep
      obtain rfl : rest = [] := hI.queue.rest_eq_nil hqueue
      refine ⟨⟨Nat.zero_le 1, by simp⟩, fun hidle => by simp [KeyerRun.Idle] at hidle, ?_⟩
      intro item' hplaying hsqueeze
      -- the squeeze captured by this very step
      have hcaptured : s.keyer.squeeze = false := (Prod.mk.inj (Option.some.inj hplaying)).2
      exact absurd (hcaptured.symm.trans hsqueeze) Bool.false_ne_true
  | finish =>
      obtain ⟨item, squeeze, -, rfl⟩ := paddleKeyer_finish hstep
      refine ⟨hI.queue.processMode squeeze, ?_, by simp⟩
      rintro ⟨-, hempty⟩
      cases hitem : s.keyer.modeItem squeeze with
      | none =>
          obtain ⟨-, hup⟩ := Keyer.modeItem_eq_none hitem
          simpa [Keyer.processMode, hitem] using hup
      | some next =>
          have hne := Keyer.enqueue_ne_nil s.keyer next
          simp only [Keyer.processMode, hitem] at hempty
          exact absurd hempty hne

theorem steadyInv_of_reachable {lastPressed lastQueued : KeyerItem} {wpm : Int} {mode : Mode}
    {s : KeyerRun} (h : paddleKeyer.Reachable (.init lastPressed lastQueued wpm mode) s) :
    SteadyInv s :=
  h.invariant (steadyInv_init ..) fun _ _ _ hI hstep => steadyInv_step hI hstep

/-! ## Elements while the paddles are held -/

/-- What is enqueued after an element if the paddles stay as they are. -/
def Keyer.heldNext (k : Keyer) (item : KeyerItem) : Option KeyerItem :=
  { k with lastQueued := item }.modeItem k.squeeze

theorem Keyer.heldNext_congr {k k' : Keyer} (h : k.controls = k'.controls) :
    k.heldNext = k'.heldNext := by
  simp only [controls, Prod.mk.injEq] at h
  obtain ⟨hdit, hdah, hpressed, hmode⟩ := h
  funext item
  simp [heldNext, modeItem, squeeze, hdit, hdah, hpressed, hmode]

theorem Keyer.heldNext_lastQueued (k : Keyer) :
    k.heldNext k.lastQueued = k.modeItem k.squeeze := rfl

/-- A run `as` of the keyer thread from `s` to `t`, and the elements it
started: a chain under `heldNext`, the next link of which is being played
or is queued. -/
structure Held (s : KeyerRun) (as : List KeyerAct) (t : KeyerRun) (added : List KeyerItem) :
    Prop where
  inv : SteadyInv t
  started : t.started = s.started ++ added
  controls : t.keyer.controls = s.keyer.controls
  chain : added.IsChain fun a b => s.keyer.heldNext a = some b
  last : ∀ item ∈ added.getLast?,
    (t.playing = some (item, s.keyer.squeeze) ∧ t.keyer.queue = [] ∧ t.keyer.lastQueued = item)
      ∨ (t.playing = none ∧ t.keyer.queue = (s.keyer.heldNext item).toList)
  pace : as.length ≤ 2 * added.length + if t.playing.isSome then 0 else 1

theorem Held.refl {s : KeyerRun} (hI : SteadyInv s) : Held s [] s [] :=
  ⟨hI, by simp, rfl, .nil, by simp, Nat.zero_le _⟩

theorem squeeze_eq_of_controls {k k' : Keyer} (h : k.controls = k'.controls) :
    k.squeeze = k'.squeeze := by
  simp only [Keyer.controls, Prod.mk.injEq] at h
  simp [Keyer.squeeze, h]

/-- One more element, by the last disjunct of `Held.last`. -/
theorem Held.chain_snoc {s t : KeyerRun} {as : List KeyerAct} {added : List KeyerItem}
    {item : KeyerItem} (h : Held s as t added) (hplaying : t.playing = none)
    (hqueue : t.keyer.queue = [item]) :
    (added ++ [item]).IsChain fun a b => s.keyer.heldNext a = some b := by
  refine List.isChain_append.mpr ⟨h.chain, .singleton item, ?_⟩
  intro last hlast next hnext
  obtain rfl : item = next := by simpa using hnext
  rcases h.last last hlast with ⟨hsome, -⟩ | ⟨-, hnext⟩
  · rw [hplaying] at hsome
    cases hsome
  · rw [hqueue] at hnext
    cases hheld : s.keyer.heldNext last with
    | none => simp [hheld] at hnext
    | some b => simpa [hheld, eq_comm] using hnext

theorem Held.step {s t u : KeyerRun} {as : List KeyerAct} {a : KeyerAct}
    {added : List KeyerItem} (h : Held s as t added) (ha : a.byThread = true)
    (hstep : paddleKeyer.step t a = some u) : ∃ added', Held s (as ++ [a]) u added' := by
  have hinv := steadyInv_step h.inv hstep
  have hsqueeze := squeeze_eq_of_controls h.controls
  cases a with
  | onDit pressed => cases ha
  | onDah pressed => cases ha
  | start =>
      obtain ⟨item, rest, hplaying, hqueue, rfl⟩ := paddleKeyer_start hstep
      obtain rfl : rest = [] := h.inv.queue.rest_eq_nil hqueue
      have hqueued := h.inv.queue.queued item hqueue
      have hpace := h.pace
      refine ⟨added ++ [item], hinv, by simp [h.started], h.controls,
        h.chain_snoc hplaying hqueue, ?_, ?_⟩
      · intro item' hlast
        obtain rfl : item = item' := by simpa using hlast
        exact Or.inl ⟨by rw [hsqueeze], rfl, hqueued⟩
      · simp only [hplaying, List.length_append, List.length_singleton, Option.isSome_some,
          Option.isSome_none, Bool.false_eq_true, if_false, if_true] at hpace ⊢
        omega
  | finish =>
      obtain ⟨item, squeeze, hplaying, rfl⟩ := paddleKeyer_finish hstep
      have hpace := h.pace
      refine ⟨added, hinv, h.started, by simpa using h.controls, h.chain, ?_, ?_⟩
      · intro item' hlast
        rcases h.last item' hlast with ⟨hsome, hempty, hqueued⟩ | ⟨hnone, -⟩
        · -- the element in progress is the last one started, so its end enqueues its successor
          obtain ⟨rfl, rfl⟩ := Prod.mk.inj (Option.some.inj (hplaying.symm.trans hsome))
          refine Or.inr ⟨rfl, ?_⟩
          rw [← Keyer.heldNext_congr h.controls, ← hqueued, Keyer.heldNext_lastQueued, hsqueeze]
          cases hitem : t.keyer.modeItem s.keyer.squeeze with
          | none => simp [Keyer.processMode, hitem, hempty]
          | some next => simp [Keyer.processMode, hitem, Keyer.enqueue_of_empty hempty]
        · rw [hplaying] at hnone
          cases hnone
      · simp only [hplaying, List.length_append, List.length_singleton, Option.isSome_some,
          Option.isSome_none, Bool.false_eq_true, if_false, if_true] at hpace ⊢
        omega

/-- A run of the keyer thread alone. -/
theorem held_of_run {s t : KeyerRun} {as : List KeyerAct} (hI : SteadyInv s)
    (has : ∀ a ∈ as, a.byThread = true) (hrun : paddleKeyer.run s as = some t) :
    ∃ added, Held s as t added := by
  refine Machine.run_rec (C := fun as t => (∀ a ∈ as, a.byThread = true) → ∃ added, Held s as t added)
    (fun _ => ⟨[], .refl hI⟩) ?_ hrun has
  intro as t a u ih hstep has
  obtain ⟨added, h⟩ := ih fun b hb => has b (List.mem_append_left _ hb)
  exact h.step (has a (by simp)) hstep

/-! ## What is played -/

/-- The items that sound. -/
def KeyerItem.isElement (item : KeyerItem) : Bool := item = .dit || item = .dah

theorem isElement_reverse (item : KeyerItem) : (reverse item).isElement = true := by
  unfold reverse
  split <;> rfl

/-- Only dits and dahs are queued and started, and the outputs are called
once for each of them, with the duration configured for it. -/
structure ElementInv (wpm : Int) (s : KeyerRun) : Prop where
  configured : s.keyer.ditTime = calculateDuration .dit wpm
    ∧ s.keyer.dahTime = calculateDuration .dah wpm
  queue : ∀ item ∈ s.keyer.queue, item.isElement = true
  pressed : s.keyer.ditPressed = true ∨ s.keyer.dahPressed = true
    ∨ (∃ item, s.playing = some (item, true)) → s.keyer.lastPressed.isElement = true
  started : ∀ item ∈ s.started, item.isElement = true
  calls : s.calls = s.started.map fun item => .runCW item (calculateDuration item wpm)

theorem elementInv_init (lastPressed lastQueued : KeyerItem) (wpm : Int) (mode : Mode) :
    ElementInv wpm (.init lastPressed lastQueued wpm mode) := by
  constructor <;> simp [KeyerRun.init, Keyer.configure]

theorem Keyer.playDitDah_of_isElement {k : Keyer} {item : KeyerItem} {wpm : Int}
    (hitem : item.isElement = true) (htimes : k.ditTime = calculateDuration .dit wpm
      ∧ k.dahTime = calculateDuration .dah wpm) :
    k.playDitDah item = some (.runCW item (calculateDuration item wpm)) := by
  cases item <;> simp_all [KeyerItem.isElement, playDitDah]

/-- A paddle event, as far as elements are concerned. -/
theorem ElementInv.of_paddle {wpm : Int} {s : KeyerRun} {k : Keyer} (hI : ElementInv wpm s)
    (htimes : k.ditTime = s.keyer.ditTime ∧ k.dahTime = s.keyer.dahTime)
    (hqueue : ∀ item ∈ k.queue, item ∈ s.keyer.queue ∨ item.isElement = true)
    (hpressed : k.lastPressed.isElement = true ∨ k.lastPressed = s.keyer.lastPressed
      ∧ (k.ditPressed = true → s.keyer.ditPressed = true)
      ∧ (k.dahPressed = true → s.keyer.dahPressed = true)) :
    ElementInv wpm { s with keyer := k } := by
  refine ⟨by simpa [htimes] using hI.configured, ?_, ?_, hI.started, hI.calls⟩
  · intro item hitem
    exact (hqueue item hitem).elim (hI.queue item) id
  · intro hsome
    rcases hpressed with helement | ⟨heq, hdit, hdah⟩
    · exact helement
    · show k.lastPressed.isElement = true
      rw [heq]
      exact hI.pressed (hsome.imp hdit (Or.imp_left hdah))

theorem isElement_modeItem {k : Keyer} {squeeze : Bool} {item : KeyerItem}
    (h : k.modeItem squeeze = some item)
    (hpressed : squeeze = true → k.lastPressed.isElement = true) : item.isElement = true := by
  cases squeeze with
  | true =>
      simp only [Keyer.modeItem, if_true] at h
      cases hmode : k.mode <;> simp only [hmode, Option.some.injEq] at h <;> subst h
      · exact hpressed rfl
      · exact isElement_reverse _
      · exact isElement_reverse _
  | false =>
      cases hdit : k.ditPressed <;> cases hdah : k.dahPressed <;>
        simp [Keyer.modeItem, hdit, hdah] at h <;> subst h <;> rfl

theorem elementInv_step {wpm : Int} {s s' : KeyerRun} {a : KeyerAct} (hI : ElementInv wpm s)
    (hstep : paddleKeyer.step s a = some s') : ElementInv wpm s' := by
  cases a with
  | onDit pressed =>
      obtain rfl := Option.some.inj hstep
      obtain ⟨last, queue, heq, hmem⟩ := s.keyer.onDit_frame pressed
      rw [heq]
      refine hI.of_paddle ⟨rfl, rfl⟩
        (fun item hitem => (hmem item hitem).imp_right fun h => by rw [h]; rfl) ?_
      cases pressed with
      | true => exact Or.inl rfl
      | false => exact Or.inr ⟨rfl, by simp, id⟩
  | onDah pressed =>
      obtain rfl := Option.some.inj hstep
      obtain ⟨last, queue, heq, hmem⟩ := s.keyer.onDah_frame pressed
      rw [heq]
      refine hI.of_paddle ⟨rfl, rfl⟩
        (fun item hitem => (hmem item hitem).imp_right fun h => by rw [h]; rfl) ?_
      cases pressed with
      | true => exact Or.inl rfl
      | false => exact Or.inr ⟨rfl, id, by simp⟩
  | start =>
      obtain ⟨item, rest, hplaying, hqueue, rfl⟩ := paddleKeyer_start hstep
      have hitem : item.isElement = true := hI.queue item (by simp [hqueue])
      refine ⟨hI.configured, fun x hx => hI.queue x (by simp [hqueue, hx]), ?_, ?_, ?_⟩
      · intro hpressed
        have hdown : s.keyer.ditPressed = true ∨ s.keyer.dahPressed = true := by
          rcases hpressed with hdit | hdah | ⟨x, hx⟩
          · exact Or.inl hdit
          · exact Or.inr hdah
          · -- a captured squeeze means that both paddles are down
            have hsqueeze : s.keyer.squeeze = true := (Prod.mk.inj (Option.some.inj hx)).2
            exact Or.inl (Bool.and_eq_true_iff.mp hsqueeze).1
        exact hI.pressed (hdown.imp id Or.inl)
      · intro x hx
        rcases List.mem_append.mp hx with hx | hx
        · exact hI.started x hx
        · obtain rfl := List.mem_singleton.mp hx
          exact hitem
      · simp [hI.calls, Keyer.playDitDah_of_isElement hitem hI.configured]
  | finish =>
      obtain ⟨item, squeeze, hplaying, rfl⟩ := paddleKeyer_finish hstep
      obtain ⟨last, queue, heq, hmem⟩ := Keyer.processMode_frame s.keyer squeeze
      rw [heq]
      refine ⟨hI.configured, ?_, ?_, hI.started, hI.calls⟩
      · intro x hx
        rcases hmem x hx with hold | hnew
        · exact hI.queue x hold
        · exact isElement_modeItem hnew fun h => hI.pressed (Or.inr (Or.inr ⟨item, h ▸ hplaying⟩))
      · intro hpressed
        exact hI.pressed (hpressed.imp id (Or.imp_right fun ⟨_, h⟩ => by simp at h))

theorem elementInv_of_reachable {lastPressed lastQueued : KeyerItem} {wpm : Int} {mode : Mode}
    {s : KeyerRun} (h : paddleKeyer.Reachable (.init lastPressed lastQueued wpm mode) s) :
    ElementInv wpm s :=
  h.invariant (elementInv_init ..) fun _ _ _ hI hstep => elementInv_step hI hstep

/-- The outputs are called exactly for the elements started, each with its
PARIS duration. -/
theorem calls_of_reachable {lastPressed lastQueued : KeyerItem} {wpm : Int} {mode : Mode}
    {s : KeyerRun} (h : paddleKeyer.Reachable (.init lastPressed lastQueued wpm mode) s) :
    s.calls = s.started.map fun item => .runCW item (calculateDuration item wpm) :=
  (elementInv_of_reachable h).calls

/-! ## The steady state -/

theorem tail_of_isChain {α : Type} {p : α → Prop} :
    ∀ {l : List α}, l.IsChain (fun _ b => p b) → ∀ b ∈ l.tail, p b
  | [], _, b, hb => by cases hb
  | [_], _, b, hb => by cases hb
  | _ :: b :: l, h, c, hc => by
      obtain ⟨hb, htail⟩ := List.isChain_cons_cons.mp h
      rcases List.mem_cons.mp hc with rfl | hc
      · exact hb
      · exact tail_of_isChain htail c hc

namespace Keyer

variable {k : Keyer}

theorem heldNext_iambic (hdit : k.ditPressed = true) (hdah : k.dahPressed = true)
    (hmode : k.mode ≠ .ultimatic) (item : KeyerItem) :
    k.heldNext item = some (reverse item) := by
  cases hm : k.mode <;> simp_all [heldNext, modeItem, squeeze]

theorem heldNext_ultimatic (hdit : k.ditPressed = true) (hdah : k.dahPressed = true)
    (hmode : k.mode = .ultimatic) (item : KeyerItem) :
    k.heldNext item = some k.lastPressed := by
  simp [heldNext, modeItem, squeeze, hdit, hdah, hmode]

theorem heldNext_dit (hdit : k.ditPressed = true) (hdah : k.dahPressed = false)
    (item : KeyerItem) : k.heldNext item = some .dit := by
  simp [heldNext, modeItem, squeeze, hdit, hdah]

theorem heldNext_dah (hdit : k.ditPressed = false) (hdah : k.dahPressed = true)
    (item : KeyerItem) : k.heldNext item = some .dah := by
  simp [heldNext, modeItem, squeeze, hdit, hdah]

theorem heldNext_up (hdit : k.ditPressed = false) (hdah : k.dahPressed = false)
    (item : KeyerItem) : k.heldNext item = none := by
  simp [heldNext, modeItem, squeeze, hdit, hdah]

end Keyer

/-- With no successor there is at most one more element. -/
theorem Held.length_le_one {s t : KeyerRun} {as : List KeyerAct} {added : List KeyerItem}
    (h : Held s as t added) (hnext : ∀ item, s.keyer.heldNext item = none) :
    added.length ≤ 1 := by
  have hchain := h.chain
  cases added with
  | nil => exact Nat.zero_le 1
  | cons a added =>
      cases added with
      | nil => exact Nat.le_refl 1
      | cons b added =>
          obtain ⟨hb, -⟩ := List.isChain_cons_cons.mp hchain
          rw [hnext] at hb
          cases hb

/-- With no paddle down at most one more element is started. -/
theorem started_le_of_up {s t : KeyerRun} {as : List KeyerAct} (hI : SteadyInv s)
    (hdit : s.keyer.ditPressed = false) (hdah : s.keyer.dahPressed = false)
    (has : ∀ a ∈ as, a.byThread = true) (hrun : paddleKeyer.run s as = some t) :
    t.started.length ≤ s.started.length + 1 := by
  obtain ⟨added, hheld⟩ := held_of_run hI has hrun
  have hlen := hheld.length_le_one (Keyer.heldNext_up hdit hdah)
  rw [hheld.started, List.length_append]
  exact Nat.add_le_add_left hlen _

/-- And the keyer thread comes to rest: its runs have at most three steps. -/
theorem settles {s : KeyerRun} (hI : SteadyInv s)
    (hnext : ∀ item, s.keyer.heldNext item = none) (as : List KeyerAct) (t : KeyerRun)
    (has : ∀ a ∈ as, a.byThread = true) (hrun : paddleKeyer.run s as = some t) :
    ∃ bs u, (∀ b ∈ bs, b.byThread = true) ∧ paddleKeyer.run t bs = some u ∧ u.Idle := by
  by_cases hidle : t.Idle
  · exact ⟨[], t, by simp, rfl, hidle⟩
  · obtain ⟨a, u, ha, hstep⟩ := KeyerRun.goesOn_iff.mpr hidle
    have has' : ∀ b ∈ as ++ [a], b.byThread = true := by
      intro b hb
      rcases List.mem_append.mp hb with hb | hb
      · exact has b hb
      · exact List.mem_singleton.mp hb ▸ ha
    have hrun' : paddleKeyer.run s (as ++ [a]) = some u :=
      Machine.run_append.mpr ⟨t, hrun, by simpa using hstep⟩
    obtain ⟨added, hheld⟩ := held_of_run hI has' hrun'
    have hlen := hheld.length_le_one hnext
    have hpace := hheld.pace
    obtain ⟨bs, v, hbs, hrest, hv⟩ := settles hI hnext (as ++ [a]) u has' hrun'
    refine ⟨a :: bs, v, ?_, Machine.run_cons.mpr ⟨u, hstep, hrest⟩, hv⟩
    intro b hb
    rcases List.mem_cons.mp hb with rfl | hb
    · exact ha
    · exact hbs b hb
termination_by 4 - as.length
decreasing_by
  simp only [List.length_append, List.length_singleton] at hpace ⊢
  split at hpace <;> omega

/-- **Steady state.** From any reachable state, in every run of the keyer
thread alone: the elements started are dits and dahs, and every second
step starts one. With a paddle down the thread can always go on, and the
elements alternate (both down, iambic), or from the second on are those of
the last-pressed paddle (both down, ultimatic) or of the one that is down.
With no paddle down there is at most one more element, and the keyer comes
to rest with an empty queue. -/
theorem steady_state {lastPressed lastQueued : KeyerItem} {wpm : Int} {mode : Mode}
    {s t : KeyerRun} {as : List KeyerAct}
    (h : paddleKeyer.Reachable (.init lastPressed lastQueued wpm mode) s)
    (has : ∀ a ∈ as, a.byThread = true) (hrun : paddleKeyer.run s as = some t) :
    ∃ added, t.started = s.started ++ added
      ∧ (∀ item ∈ added, item = .dit ∨ item = .dah)
      ∧ as.length ≤ 2 * added.length + 1
      ∧ (s.keyer.ditPressed = true → s.keyer.dahPressed = true →
          t.GoesOn
            ∧ (s.keyer.mode ≠ .ultimatic → added.IsChain fun a b => b = reverse a)
            ∧ (s.keyer.mode = .ultimatic → ∀ item ∈ added.tail, item = s.keyer.lastPressed))
      ∧ (s.keyer.ditPressed = true → s.keyer.dahPressed = false →
          t.GoesOn ∧ ∀ item ∈ added.tail, item = .dit)
      ∧ (s.keyer.ditPressed = false → s.keyer.dahPressed = true →
          t.GoesOn ∧ ∀ item ∈ added.tail, item = .dah)
      ∧ (s.keyer.ditPressed = false → s.keyer.dahPressed = false →
          added.length ≤ 1
            ∧ ∃ bs u, (∀ b ∈ bs, b.byThread = true) ∧ paddleKeyer.run t bs = some u
              ∧ u.Idle) := by
  have hI := steadyInv_of_reachable h
  obtain ⟨added, hheld⟩ := held_of_run hI has hrun
  have helements := (elementInv_of_reachable (h.run hrun)).started
  have hpaddles : t.keyer.ditPressed = s.keyer.ditPressed
      ∧ t.keyer.dahPressed = s.keyer.dahPressed := by
    have := hheld.controls
    simp only [Keyer.controls, Prod.mk.injEq] at this
    exact ⟨this.1, this.2.1⟩
  -- an idle keyer has no paddle down
  have hgoes : s.keyer.ditPressed = true ∨ s.keyer.dahPressed = true → t.GoesOn := by
    intro hdown
    refine KeyerRun.goesOn_iff.mpr fun hidle => ?_
    have hup := hheld.inv.resting hidle
    rw [hpaddles.1, hpaddles.2] at hup
    simp [hup] at hdown
  -- the successor of every element is known, so the chain tells all but the first
  have htail : ∀ item, (∀ a, s.keyer.heldNext a = some item) → ∀ b ∈ added.tail, b = item := by
    intro item hnext
    refine tail_of_isChain (hheld.chain.imp fun a b hb => ?_)
    rw [hnext] at hb
    exact (Option.some.inj hb).symm
  refine ⟨added, hheld.started, ?_, ?_, ?_, ?_, ?_, ?_⟩
  · intro item hitem
    have := helements item (by simp [hheld.started, hitem])
    simpa [KeyerItem.isElement] using this
  · have hpace := hheld.pace
    split at hpace <;> omega
  · intro hdit hdah
    refine ⟨hgoes (Or.inl hdit), ?_, ?_⟩
    · intro hmode
      refine hheld.chain.imp fun a b hb => ?_
      rw [Keyer.heldNext_iambic hdit hdah hmode] at hb
      exact (Option.some.inj hb).symm
    · intro hmode
      exact htail _ (Keyer.heldNext_ultimatic hdit hdah hmode)
  · exact fun hdit hdah => ⟨hgoes (Or.inl hdit), htail _ (Keyer.heldNext_dit hdit hdah)⟩
  · exact fun hdit hdah => ⟨hgoes (Or.inr hdah), htail _ (Keyer.heldNext_dah hdit hdah)⟩
  · intro hdit hdah
    have hnext := Keyer.heldNext_up hdit hdah
    exact ⟨hheld.length_le_one hnext, settles hI hnext as t has hrun⟩

/-- A squeeze held from before the first element, in iambic mode. -/
theorem steady_state_squeeze :
    ∃ s t, paddleKeyer.run (.init .dit .dit 20 .iambicB) [.onDit true, .onDah true, .start] = some s
      ∧ paddleKeyer.run s [.finish, .start, .finish, .start] = some t
      ∧ t.started = [.dit, .dah, .dit] ∧ t.GoesOn := by
  refine ⟨_, _, rfl, rfl, rfl, ?_⟩
  have hsteady := @steady_state .dit .dit 20 .iambicB _ _ [.finish, .start, .finish, .start]
    ⟨[.onDit true, .onDah true, .start], rfl⟩ (by decide) rfl
  obtain ⟨added, -, -, -, hboth, -⟩ := hsteady
  exact (hboth rfl rfl).1

end CwKeyer
