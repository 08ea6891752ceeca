import CwKeyer.Edges
import CwKeyer.Keyer.Steady

/-!
# Paddle events

The `onDit` and `onDah` calls of `IDitDah`, logged per listener, and what
a log says about the keyer that received it: whatever its thread did in
between, `m_ditPressed` and `m_dahPressed` are the levels after the log,
and with both low it comes to rest (`keyerStops`).
-/

namespace CwKeyer

/-- The calls of `IDitDah` from a paddle. -/
inductive PaddleEvent where
  | onDit (pressed : Bool)
  | onDah (pressed : Bool)
deriving Repr, DecidableEq

namespace PaddleEvent

def dit? : PaddleEvent → Option Bool
  | .onDit pressed => some pressed
  | .onDah _ => none

def dah? : PaddleEvent → Option Bool
  | .onDit _ => none
  | .onDah pressed => some pressed

end PaddleEvent

def ditEdges (log : List PaddleEvent) : List Bool := log.filterMap PaddleEvent.dit?

def dahEdges (log : List PaddleEvent) : List Bool := log.filterMap PaddleEvent.dah?

@[simp] theorem ditEdges_snoc_onDit (log : List PaddleEvent) (pressed : Bool) :
    ditEdges (log ++ [.onDit pressed]) = ditEdges log ++ [pressed] := by
  simp [ditEdges, PaddleEvent.dit?]

@[simp] theorem ditEdges_snoc_onDah (log : List PaddleEvent) (pressed : Bool) :
    ditEdges (log ++ [.onDah pressed]) = ditEdges log := by
  simp [ditEdges, PaddleEvent.dit?]

@[simp] theorem dahEdges_snoc_onDit (log : List PaddleEvent) (pressed : Bool) :
    dahEdges (log ++ [.onDit pressed]) = dahEdges log := by
  simp [dahEdges, PaddleEvent.dah?]

@[simp] theorem dahEdges_snoc_onDah (log : List PaddleEvent) (pressed : Bool) :
    dahEdges (log ++ [.onDah pressed]) = dahEdges log ++ [pressed] := by
  simp [dahEdges, PaddleEvent.dah?]

/-- Every press of either paddle has been followed by its release. -/
def Released (log : List PaddleEvent) : Prop := Matched (ditEdges log) ∧ Matched (dahEdges log)

/-- A source whose paddles are at `dit` and `dah` has told a listener so. -/
structure Mirrors (dit dah : Bool) (log : List PaddleEvent) : Prop where
  dit : Follows dit (ditEdges log)
  dah : Follows dah (dahEdges log)

theorem mirrors_nil : Mirrors false false [] := ⟨follows_nil, follows_nil⟩

theorem Mirrors.onDit {dit dah : Bool} {log : List PaddleEvent} (h : Mirrors dit dah log) :
    Mirrors (!dit) dah (log ++ [.onDit !dit]) :=
  ⟨by simpa using h.dit.snoc, by simpa using h.dah⟩

theorem Mirrors.onDah {dit dah : Bool} {log : List PaddleEvent} (h : Mirrors dit dah log) :
    Mirrors dit (!dah) (log ++ [.onDah !dah]) :=
  ⟨by simpa using h.dit, by simpa using h.dah.snoc⟩

theorem released_iff {dit dah : Bool} {log : List PaddleEvent} (h : Mirrors dit dah log) :
    Released log ↔ dit = false ∧ dah = false :=
  and_congr (matched_iff h.dit) (matched_iff h.dah)

/-! ## The keyer as a listener -/

/-- The paddle event of a step of the keyer. -/
def KeyerAct.event? : KeyerAct → Option PaddleEvent
  | .onDit pressed => some (.onDit pressed)
  | .onDah pressed => some (.onDah pressed)
  | .start => none
  | .finish => none

/-- The paddle events of a run of the keyer. -/
def paddleEvents (as : List KeyerAct) : List PaddleEvent := as.filterMap KeyerAct.event?

theorem paddleEvents_snoc (as : List KeyerAct) (a : KeyerAct) :
    paddleEvents (as ++ [a]) = paddleEvents as ++ a.event?.toList := by
  cases h : a.event? <;> simp [paddleEvents, h]

/-- The keyer knows the level of each paddle from its events. -/
theorem pressed_of_run {lastPressed lastQueued : KeyerItem} {wpm : Int} {mode : Mode}
    {as : List KeyerAct} {t : KeyerRun}
    (hrun : paddleKeyer.run (.init lastPressed lastQueued wpm mode) as = some t) :
    t.keyer.ditPressed = levelAfter (ditEdges (paddleEvents as))
      ∧ t.keyer.dahPressed = levelAfter (dahEdges (paddleEvents as)) := by
  refine Machine.run_rec
    (C := fun as t => t.keyer.ditPressed = levelAfter (ditEdges (paddleEvents as))
      ∧ t.keyer.dahPressed = levelAfter (dahEdges (paddleEvents as))) ⟨rfl, rfl⟩ ?_ hrun
  rintro as t a u ⟨hdit, hdah⟩ hstep
  rw [paddleEvents_snoc]
  cases a with
  | onDit pressed =>
      obtain rfl := Option.some.inj hstep
      obtain ⟨last, queue, heq, -⟩ := t.keyer.onDit_frame pressed
      simpa [KeyerAct.event?, heq] using hdah
  | onDah pressed =>
      obtain rfl := Option.some.inj hstep
      obtain ⟨last, queue, heq, -⟩ := t.keyer.onDah_frame pressed
      simpa [KeyerAct.event?, heq] using hdit
  | start =>
      obtain ⟨item, rest, -, -, rfl⟩ := paddleKeyer_start hstep
      simpa [KeyerAct.event?] using And.intro hdit hdah
  | finish =>
      obtain ⟨item, squeeze, -, rfl⟩ := paddleKeyer_finish hstep
      obtain ⟨last, queue, heq, -⟩ := Keyer.processMode_frame t.keyer squeeze
      simpa [KeyerAct.event?, heq] using And.intro hdit hdah

/-- A keyer that has received these paddle events and no others, whenever
its thread ran in between: no paddle is down for it, and its thread starts
at most one more element. -/
def KeyerStops (log : List PaddleEvent) : Prop :=
  ∀ lastPressed lastQueued wpm mode as t, paddleEvents as = log →
    paddleKeyer.run (.init lastPressed lastQueued wpm mode) as = some t →
    t.keyer.ditPressed = false ∧ t.keyer.dahPressed = false
      ∧ ∀ bs u, (∀ b ∈ bs, b.byThread = true) → paddleKeyer.run t bs = some u →
        u.started.length ≤ t.started.length + 1

theorem keyerStops {log : List PaddleEvent} (h : Mirrors false false log) : KeyerStops log := by
  rintro lastPressed lastQueued wpm mode as t rfl hrun
  obtain ⟨hdit, hdah⟩ := pressed_of_run hrun
  rw [h.dit.level_eq] at hdit
  rw [h.dah.level_eq] at hdah
  refine ⟨hdit, hdah, ?_⟩
  intro bs u hbs hrest
  exact started_le_of_up (steadyInv_of_reachable ⟨as, hrun⟩) hdit hdah hbs hrest

end CwKeyer
