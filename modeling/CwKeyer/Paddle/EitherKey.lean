import CwKeyer.Paddle.KeyboardListener

/-!
# The two keys of a paddle

A paddle has two keys, and the listener keeps the one it hears first
(`PaddleKeysInv.latched`): from then on it returns early for the other
one. So a press is delivered exactly if no other key of the paddle has
been heard first, ever since the program was started
(`either_key_iff`).
-/

namespace CwKeyer

/-! ## Keys that go down and up -/

/-- The listener, the keys that are down, and the keys of the events it has
heard since the program was started. -/
structure PaddleKeys where
  listener : KeyboardListener := {}
  down : List Nat := []
  heard : List Nat := []
deriving Repr, DecidableEq

namespace PaddleKeys

/-- A key moves whether it is heard or not. It is heard at once, as if its
event were handled when it moves. -/
def moveKey (s : PaddleKeys) (platform : Platform) (pressed : Bool) (key : Nat) : PaddleKeys where
  listener := if s.listener.hooked then s.listener.keyEvent platform pressed key else s.listener
  down := if pressed then key :: s.down else s.down.filter (· != key)
  heard := if s.listener.hooked then s.heard ++ [key] else s.heard

def step (platform : Platform) (s : PaddleKeys) : KeyboardAct → Option PaddleKeys
  | .key pressed key => some (s.moveKey platform pressed key)
  | a => (s.listener.step platform a).map fun l => { s with listener := l }

/-- Both keys of the paddle are up. -/
def BothUp (s : PaddleKeys) (platform : Platform) (p : Paddle) : Prop :=
  ∀ key ∈ platform.paddleKeys p, key ∉ s.down

/-- The first key of the paddle that has been heard. -/
def firstHeard (s : PaddleKeys) (platform : Platform) (p : Paddle) : Option Nat :=
  s.heard.find? (· ∈ platform.paddleKeys p)

end PaddleKeys

def paddleKeys (platform : Platform) : Machine PaddleKeys KeyboardAct :=
  ⟨PaddleKeys.step platform⟩

/-! ## The property and its condition -/

/-- The step presses a key of a paddle that is up, while the listener is
enabled. -/
def PaddleKeys.Presses (platform : Platform) (s : PaddleKeys) (a : KeyboardAct) (p : Paddle)
    (key : Nat) : Prop :=
  a = .key true key ∧ key ∈ platform.paddleKeys p ∧ s.listener.enabled = true ∧ s.BothUp platform p

/-- It is delivered. -/
def PaddleKeys.EitherKeys (platform : Platform) (s : PaddleKeys) (a : KeyboardAct)
    (s' : PaddleKeys) : Prop :=
  ∀ p key, s.Presses platform a p key →
    s'.listener.delivered = s.listener.delivered ++ [p.event true]

/-- No other key of the paddle has been heard first. -/
def PaddleKeys.FirstKeys (platform : Platform) (s : PaddleKeys) (a : KeyboardAct)
    (_ : PaddleKeys) : Prop :=
  ∀ p key, s.Presses platform a p key → ∀ first ∈ s.firstHeard platform p, first = key

/-! ## Steps -/

/-- While events arrive a pressed paddle is held by its latched key, which is
the first one that has been heard. -/
structure PaddleKeysInv (platform : Platform) (s : PaddleKeys) : Prop where
  hooked : s.listener.enabled = true → s.listener.hooked = true
  held : ∀ p, s.listener.hooked = true → (s.listener.latch p).pressed = true →
    (s.listener.latch p).key ∈ platform.paddleKeys p ∧ (s.listener.latch p).key ∈ s.down
  latched : ∀ p, (s.listener.latch p).key = (s.firstHeard platform p).getD 0

theorem paddleKeysInv_init (platform : Platform) (down : List Nat) :
    PaddleKeysInv platform { down := down } :=
  ⟨nofun, nofun, fun p => by cases p <;> rfl⟩

variable {platform : Platform} {s s' : PaddleKeys}

theorem mem_of_firstHeard {p : Paddle} {first : Nat} (h : first ∈ s.firstHeard platform p) :
    first ∈ platform.paddleKeys p := by
  simpa using List.find?_some h

/-- The latch ignores a key if another one has been heard first. -/
theorem not_ignores_iff (h : PaddleKeysInv platform s) {p : Paddle} {key : Nat} :
    ¬(s.listener.latch p).Ignores key ↔ ∀ first ∈ s.firstHeard platform p, first = key := by
  rw [Latch.Ignores, h.latched p]
  cases hfirst : s.firstHeard platform p with
  | none => simp
  | some first =>
      have hne : first ≠ 0 := ne_zero_of_mem (mem_of_firstHeard hfirst)
      simp [hne]

theorem firstHeard_snoc {p : Paddle} {key : Nat} {s' : PaddleKeys}
    (hheard : s'.heard = s.heard ++ [key]) :
    s'.firstHeard platform p
      = (s.firstHeard platform p).or (if key ∈ platform.paddleKeys p then some key else none) := by
  rw [PaddleKeys.firstHeard, hheard, List.find?_append, PaddleKeys.firstHeard]
  congr 1
  by_cases hkey : key ∈ platform.paddleKeys p <;> simp [hkey]

/-- A key that is down stays down while another one moves. -/
theorem mem_down_moveKey {held key : Nat} {pressed : Bool} (h : held ∈ s.down)
    (hother : held ≠ key) : held ∈ (s.moveKey platform pressed key).down := by
  cases pressed with
  | true => exact List.mem_cons_of_mem key h
  | false => exact List.mem_filter.mpr ⟨h, bne_iff_ne.mpr hother⟩

theorem held_moveKey (h : PaddleKeysInv platform s) {pressed : Bool} {key : Nat} {p : Paddle}
    (hhooked : s.listener.hooked = true)
    (hpressed : ((s.listener.keyEvent platform pressed key).latch p).pressed = true) :
    ((s.listener.keyEvent platform pressed key).latch p).key ∈ platform.paddleKeys p
      ∧ ((s.listener.keyEvent platform pressed key).latch p).key
        ∈ (s.moveKey platform pressed key).down := by
  rw [KeyboardListener.latch_keyEvent] at hpressed ⊢
  by_cases hkey : key ∈ platform.paddleKeys p
  · rw [if_pos hkey, Latch.set] at hpressed ⊢
    by_cases hignores : (s.listener.latch p).Ignores key
    · rw [if_pos hignores] at hpressed ⊢
      obtain ⟨hmem, hdown⟩ := h.held p hhooked hpressed
      exact ⟨hmem, mem_down_moveKey hdown hignores.2⟩
    · rw [if_neg hignores] at hpressed ⊢
      obtain rfl : pressed = true := hpressed
      exact ⟨hkey, List.mem_cons_self⟩
  · rw [if_neg hkey] at hpressed ⊢
    obtain ⟨hmem, hdown⟩ := h.held p hhooked hpressed
    refine ⟨hmem, mem_down_moveKey hdown ?_⟩
    rintro rfl
    exact hkey hmem

theorem latched_moveKey (h : PaddleKeysInv platform s) {pressed : Bool} {key : Nat} (p : Paddle)
    (hhooked : s.listener.hooked = true) :
    ((s.listener.keyEvent platform pressed key).latch p).key
      = ((s.moveKey platform pressed key).firstHeard platform p).getD 0 := by
  have hheard : (s.moveKey platform pressed key).heard = s.heard ++ [key] := if_pos hhooked
  rw [KeyboardListener.latch_keyEvent, firstHeard_snoc hheard]
  by_cases hkey : key ∈ platform.paddleKeys p
  · rw [if_pos hkey, if_pos hkey, Latch.set]
    by_cases hignores : (s.listener.latch p).Ignores key
    · rw [if_pos hignores, h.latched p]
      cases hfirst : s.firstHeard platform p with
      | none => exact absurd ((h.latched p).trans (by rw [hfirst]; rfl)) hignores.1
      | some first => rfl
    · rw [if_neg hignores]
      have hfirst := (not_ignores_iff h).mp hignores
      cases hheard : s.firstHeard platform p with
      | none => rfl
      | some first => exact (hfirst first hheard).symm
  · rw [if_neg hkey, if_neg hkey, Option.or_none, h.latched p]

theorem paddleKeysInv_moveKey (h : PaddleKeysInv platform s) (pressed : Bool) (key : Nat) :
    PaddleKeysInv platform (s.moveKey platform pressed key) := by
  cases hhooked : s.listener.hooked with
  | true =>
      have hlistener : (s.moveKey platform pressed key).listener
          = s.listener.keyEvent platform pressed key := if_pos hhooked
      refine ⟨?_, ?_, ?_⟩
      · intro _
        rw [hlistener, KeyboardListener.hooked_keyEvent, hhooked]
      · intro p _ hpressed
        rw [hlistener] at hpressed ⊢
        exact held_moveKey h hhooked hpressed
      · intro p
        rw [hlistener]
        exact latched_moveKey h p hhooked
  | false =>
      have hoff : ¬s.listener.hooked = true := Bool.not_eq_true _ ▸ hhooked
      have hlistener : (s.moveKey platform pressed key).listener = s.listener := if_neg hoff
      have hheard : (s.moveKey platform pressed key).heard = s.heard := if_neg hoff
      refine ⟨?_, ?_, ?_⟩
      · rw [hlistener]
        exact h.hooked
      · intro p hon
        rw [hlistener] at hon
        exact absurd hon hoff
      · intro p
        rw [hlistener, PaddleKeys.firstHeard, hheard]
        exact h.latched p

theorem paddleKeysInv_setEnabled (h : PaddleKeysInv platform s) (enabled : Bool) :
    PaddleKeysInv platform { s with listener := s.listener.setEnabled enabled } := by
  unfold KeyboardListener.setEnabled
  split
  · exact h
  · cases enabled with
    | false => exact ⟨nofun, h.held, h.latched⟩
    | true =>
        refine ⟨fun _ => rfl, ?_, ?_⟩
        · intro p _ hpressed
          cases p <;> cases hpressed
        · intro p
          cases p
          · exact h.latched .dit
          · exact h.latched .dah

theorem paddleKeysInv_startThread (h : PaddleKeysInv platform s) (host : Platform) :
    PaddleKeysInv platform { s with listener := s.listener.startThread host } := by
  cases host with
  | linux => exact ⟨h.hooked, h.held, h.latched⟩
  | windows => exact h

theorem paddleKeysInv_step {a : KeyboardAct} (h : PaddleKeysInv platform s)
    (hstep : (paddleKeys platform).step s a = some s') : PaddleKeysInv platform s' := by
  cases a with
  | key pressed key =>
      obtain rfl := Option.some.inj hstep
      exact paddleKeysInv_moveKey h pressed key
  | unhooked =>
      obtain ⟨l, hl, rfl⟩ := Option.map_eq_some_iff.mp hstep
      obtain ⟨hoff, ⟨⟩⟩ := Option.ite_none_right_eq_some.mp hl
      refine ⟨?_, nofun, h.latched⟩
      intro henabled
      have hdisabled : s.listener.enabled = false := by
        simpa using (Bool.and_eq_true_iff.mp hoff).1
      exact absurd (henabled.symm.trans hdisabled) nofun
  | setEnabled enabled =>
      obtain ⟨l, hl, rfl⟩ := Option.map_eq_some_iff.mp hstep
      obtain ⟨-, hl⟩ := Option.ite_none_left_eq_some.mp hl
      split at hl
      · obtain rfl := Option.some.inj hl
        exact paddleKeysInv_startThread (paddleKeysInv_setEnabled h true) platform
      · obtain rfl := Option.some.inj hl
        exact paddleKeysInv_setEnabled h enabled
  | test =>
      obtain ⟨l, hl, rfl⟩ := Option.map_eq_some_iff.mp hstep
      obtain ⟨-, ⟨⟩⟩ := Option.ite_none_left_eq_some.mp hl
      exact ⟨h.hooked, h.held, h.latched⟩
  | replied =>
      obtain ⟨l, hl, rfl⟩ := Option.map_eq_some_iff.mp hstep
      obtain ⟨-, ⟨⟩⟩ := Option.ite_none_left_eq_some.mp hl
      exact ⟨h.hooked, h.held, h.latched⟩

/-- A press while both keys are up. -/
theorem delivered_iff {a : KeyboardAct} {p : Paddle} {key : Nat} (h : PaddleKeysInv platform s)
    (hpresses : s.Presses platform a p key) (hstep : (paddleKeys platform).step s a = some s') :
    s'.listener.delivered = s.listener.delivered ++ [p.event true]
      ↔ ∀ first ∈ s.firstHeard platform p, first = key := by
  obtain ⟨rfl, hkey, henabled, hup⟩ := hpresses
  obtain rfl := Option.some.inj hstep
  have hhooked := h.hooked henabled
  have hfree : (s.listener.latch p).pressed = false := by
    by_contra hpressed
    obtain ⟨hmem, hdown⟩ := h.held p hhooked (by simpa using hpressed)
    exact hup _ hmem hdown
  have hlistener : (s.moveKey platform true key).listener = s.listener.keyEvent platform true key :=
    if_pos hhooked
  rw [hlistener, KeyboardListener.delivered_keyEvent _ _ _ hkey, Latch.tells, hfree,
    ← not_ignores_iff h]
  by_cases hignores : (s.listener.latch p).Ignores key
  · simp [hignores]
  · simp [hignores]

/-- **Either key keys.** Pressing either key of a paddle that is up is
delivered whenever the listener is enabled, in exactly the runs in which no
other key of the paddle has been heard first. -/
theorem either_key_iff (platform : Platform) (down : List Nat) (as : List KeyboardAct) :
    (paddleKeys platform).Along (PaddleKeys.EitherKeys platform) { down := down } as
      ↔ (paddleKeys platform).Along (PaddleKeys.FirstKeys platform) { down := down } as := by
  refine Machine.along_congr (I := PaddleKeysInv platform) ?_ ?_ (paddleKeysInv_init platform down)
  · intro s a s' h hstep
    exact forall₃_congr fun p key hpresses => delivered_iff h hpresses hstep
  · exact fun s a s' h _ hstep => paddleKeysInv_step h hstep

/-- The left control key has been used, then `;` is pressed. -/
def otherKey : List KeyboardAct :=
  [.setEnabled true, .key true 0xA2, .key false 0xA2, .key true 0xBA]

theorem otherKey_ignored : ¬∀ platform down as,
    (paddleKeys platform).Along (PaddleKeys.EitherKeys platform) { down := down } as := by
  intro h
  let s : PaddleKeys :=
    { listener := {
        enabled := true
        hooked := true
        ditKey := 0xA2
        delivered := [.onDit true, .onDit false] }
      heard := [0xA2, 0xA2] }
  have hrun : (paddleKeys .windows).run {} (otherKey.take 3) = some s := by decide
  have hlast : (paddleKeys .windows).Along (PaddleKeys.EitherKeys .windows) s (otherKey.drop 3) :=
    (h .windows [] otherKey).append hrun
  have hdelivered := (hlast _ rfl).1 .dit 0xBA ⟨rfl, by decide, rfl, nofun⟩
  revert hdelivered
  decide

end CwKeyer
