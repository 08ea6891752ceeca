import Mathlib.Data.List.Induction

/-!
# Labelled machines

A machine is a partial step function: `step s a = some s'` when action
`a` is enabled in `s` and leads to `s'`. Whatever is nondeterministic
(a scheduler, a clock, the outcome of a system call) is read off the
action, so a run is a list of actions and can be evaluated.

Properties of runs come in two shapes. `Along P s as` says that every
step `(s, a, s')` of the run of `as` from `s` meets `P`: it serves both
as an assumption on runs and as a conclusion about them. A property of
the last state is proved with `run_invariant`, a property of every step
with `along_of_invariant`: both take one step lemma. `along_congr` shows
that two such properties hold of the same runs.

`Refines` is a forward simulation in which one concrete step may be any
number of abstract steps; `run_map` is the lockstep case.
-/

namespace CwKeyer

/-- A machine with states `σ` and actions `α`. -/
structure Machine (σ α : Type) where
  step : σ → α → Option σ

namespace Machine

variable {σ α τ β : Type} {M : Machine σ α} {N : Machine τ β}

/-! ## Runs -/

/-- The state after the actions of a list, in order; `none` when one of
them is not enabled. -/
def run (M : Machine σ α) : σ → List α → Option σ
  | s, [] => some s
  | s, a :: as => (M.step s a).bind fun s' => M.run s' as

@[simp] theorem run_nil (s : σ) : M.run s [] = some s := rfl

theorem run_cons {s t : σ} {a : α} {as : List α} :
    M.run s (a :: as) = some t ↔ ∃ s', M.step s a = some s' ∧ M.run s' as = some t :=
  Option.bind_eq_some_iff

@[simp] theorem run_singleton (s : σ) (a : α) : M.run s [a] = M.step s a := by
  cases h : M.step s a <;> simp [run, h]

theorem run_append {s t : σ} {as bs : List α} :
    M.run s (as ++ bs) = some t ↔ ∃ u, M.run s as = some u ∧ M.run u bs = some t := by
  induction as generalizing s with
  | nil => simp
  | cons a as ih =>
      simp only [List.cons_append, run_cons, ih]
      constructor
      · rintro ⟨s', hs, u, hu, ht⟩
        exact ⟨u, ⟨s', hs, hu⟩, ht⟩
      · rintro ⟨u, ⟨s', hs, hu⟩, ht⟩
        exact ⟨s', hs, u, hu, ht⟩

/-- The induction over a run, action by action at its end. -/
theorem run_rec {C : List α → σ → Prop} {s : σ} (nil : C [] s)
    (snoc : ∀ as t a u, C as t → M.step t a = some u → C (as ++ [a]) u)
    {as : List α} {t : σ} (h : M.run s as = some t) : C as t := by
  induction as using List.reverseRecOn generalizing t with
  | nil => exact Option.some.inj h ▸ nil
  | append_singleton as a ih =>
      obtain ⟨u, hu, ht⟩ := run_append.mp h
      exact snoc as u a t (ih hu) (by simpa using ht)

/-- `t` is the last state of some run from `s`. -/
def Reachable (M : Machine σ α) (s t : σ) : Prop := ∃ as, M.run s as = some t

theorem Reachable.refl (s : σ) : M.Reachable s s := ⟨[], rfl⟩

theorem Reachable.run {s t u : σ} {as : List α} (h : M.Reachable s t)
    (ht : M.run t as = some u) : M.Reachable s u := by
  obtain ⟨bs, hbs⟩ := h
  exact ⟨bs ++ as, run_append.mpr ⟨t, hbs, ht⟩⟩

/-! ## Properties of every step of a run -/

/-- Every step of the run of `as` from `s` meets `P`. Only the enabled
prefix of `as` counts: past an action that is not enabled there is no
step. -/
def Along (M : Machine σ α) (P : σ → α → σ → Prop) : σ → List α → Prop
  | _, [] => True
  | s, a :: as => ∀ s', M.step s a = some s' → P s a s' ∧ M.Along P s' as

instance Along.decidable (M : Machine σ α) (P : σ → α → σ → Prop)
    [∀ s a s', Decidable (P s a s')] : ∀ s as, Decidable (M.Along P s as)
  | _, [] => isTrue trivial
  | s, a :: as =>
      match h : M.step s a with
      | none => isTrue fun s' hs => by rw [h] at hs; cases hs
      | some t =>
          have := Along.decidable M P t as
          decidable_of_iff (P s a t ∧ M.Along P t as)
            ⟨fun ht s' hs => by obtain rfl := Option.some.inj (h.symm.trans hs); exact ht,
              fun ht => ht t h⟩

theorem Along.mono {P Q : σ → α → σ → Prop} (h : ∀ s a s', P s a s' → Q s a s') :
    ∀ {s : σ} {as : List α}, M.Along P s as → M.Along Q s as
  | _, [], _ => trivial
  | _, _ :: _, hP => fun s' hs => ⟨h _ _ _ (hP s' hs).1, ((hP s' hs).2).mono h⟩

/-- A property of the actions alone. -/
theorem Along.of_forall {p : α → Prop} :
    ∀ {s : σ} {as : List α}, (∀ a ∈ as, p a) → M.Along (fun _ a _ => p a) s as
  | _, [], _ => trivial
  | _, _ :: _, h => fun _ _ =>
      ⟨h _ List.mem_cons_self, Along.of_forall fun b hb => h b (List.mem_cons_of_mem _ hb)⟩

theorem Along.and {P Q : σ → α → σ → Prop} :
    ∀ {s : σ} {as : List α}, M.Along P s as → M.Along Q s as →
      M.Along (fun s a s' => P s a s' ∧ Q s a s') s as
  | _, [], _, _ => trivial
  | _, _ :: _, hP, hQ => fun s' hs =>
      ⟨⟨(hP s' hs).1, (hQ s' hs).1⟩, (hP s' hs).2.and (hQ s' hs).2⟩

theorem Along.append {P : σ → α → σ → Prop} {as bs : List α} {s t : σ}
    (h : M.Along P s (as ++ bs)) (ht : M.run s as = some t) : M.Along P t bs := by
  induction as generalizing s with
  | nil =>
      obtain rfl := Option.some.inj ht
      exact h
  | cons a as ih =>
      obtain ⟨s', hs, hrun⟩ := run_cons.mp ht
      exact ih (h s' hs).2 hrun

/-- A run whose steps meet a property, made from its end on. -/
theorem run_along_cons {P : σ → α → σ → Prop} {s s' t : σ} {a : α} {as : List α}
    (hs : M.step s a = some s') (hP : P s a s') (h : M.run s' as = some t ∧ M.Along P s' as) :
    M.run s (a :: as) = some t ∧ M.Along P s (a :: as) := by
  refine ⟨run_cons.mpr ⟨s', hs, h.1⟩, fun u hu => ?_⟩
  obtain rfl := Option.some.inj (hs.symm.trans hu)
  exact ⟨hP, h.2⟩

theorem run_along_append {P : σ → α → σ → Prop} {s t u : σ} {as bs : List α}
    (h : M.run s as = some t ∧ M.Along P s as) (h' : M.run t bs = some u ∧ M.Along P t bs) :
    M.run s (as ++ bs) = some u ∧ M.Along P s (as ++ bs) := by
  obtain ⟨hrun, hP⟩ := h
  induction as generalizing s with
  | nil =>
      obtain rfl := Option.some.inj hrun
      exact h'
  | cons a as ih =>
      obtain ⟨s', hs, hrest⟩ := run_cons.mp hrun
      exact run_along_cons hs (hP s' hs).1 (ih hrest (hP s' hs).2)

/-- Step by step: every action of the run, in the state that the actions
before it lead to. -/
theorem along_iff_forall {P : σ → α → σ → Prop} {s : σ} {as : List α} :
    M.Along P s as ↔ ∀ pre a post t t', as = pre ++ a :: post → M.run s pre = some t →
      M.step t a = some t' → P t a t' := by
  constructor
  · rintro h pre a post t t' rfl ht hstep
    exact (h.append ht t' hstep).1
  · intro h
    induction as generalizing s with
    | nil => trivial
    | cons a as ih =>
        intro s' hs
        refine ⟨h [] a as s s' rfl rfl hs, ih ?_⟩
        rintro pre b post t t' rfl ht hstep
        exact h (a :: pre) b post t t' rfl (run_cons.mpr ⟨s', hs, ht⟩) hstep

/-- The induction over a run: an invariant that every step keeps, under
what is assumed of the steps, holds of the last state. -/
theorem run_invariant {P : σ → α → σ → Prop} {I : σ → Prop}
    (hstep : ∀ s a s', I s → P s a s' → M.step s a = some s' → I s') :
    ∀ {s t : σ} {as : List α}, I s → M.Along P s as → M.run s as = some t → I t
  | _, _, [], hI, _, h => Option.some.inj h ▸ hI
  | s, _, a :: _, hI, hP, h => by
      obtain ⟨s', hs, hrun⟩ := run_cons.mp h
      exact run_invariant hstep (hstep s a s' hI (hP s' hs).1 hs) (hP s' hs).2 hrun

/-- The same induction with nothing assumed of the steps. -/
theorem Reachable.invariant {I : σ → Prop} {s t : σ} (h : M.Reachable s t) (hI : I s)
    (hstep : ∀ s a s', I s → M.step s a = some s' → I s') : I t := by
  obtain ⟨as, hrun⟩ := h
  induction as generalizing s with
  | nil => exact Option.some.inj hrun ▸ hI
  | cons a as ih =>
      obtain ⟨s', hs, hrun'⟩ := run_cons.mp hrun
      exact ih (hstep s a s' hI hs) hrun'

/-- Steps that use up a measure, which no other step restores, are as few as
it says. -/
theorem run_countP {P : σ → α → σ → Prop} {I : σ → Prop} {c : α → Bool} {m : σ → Nat}
    (hstep : ∀ s a s', I s → P s a s' → M.step s a = some s' →
      I s' ∧ (if c a then 1 else 0) + m s' ≤ m s) :
    ∀ {s t : σ} {as : List α}, I s → M.Along P s as → M.run s as = some t →
      I t ∧ as.countP c + m t ≤ m s
  | _, _, [], hI, _, h => by
      obtain rfl := Option.some.inj h
      exact ⟨hI, by simp⟩
  | s, _, a :: as, hI, hP, h => by
      obtain ⟨s', hs, hrun⟩ := run_cons.mp h
      obtain ⟨hI', hle⟩ := hstep s a s' hI (hP s' hs).1 hs
      obtain ⟨ht, hrest⟩ := run_countP hstep hI' (hP s' hs).2 hrun
      refine ⟨ht, ?_⟩
      rw [List.countP_cons]
      omega

/-- A property of every step, from an invariant of the states. -/
theorem along_of_invariant {P Q : σ → α → σ → Prop} {I : σ → Prop}
    (hstep : ∀ s a s', I s → P s a s' → M.step s a = some s' → I s' ∧ Q s a s') :
    ∀ {s : σ} {as : List α}, I s → M.Along P s as → M.Along Q s as
  | _, [], _, _ => trivial
  | s, a :: _, hI, hP => fun s' hs =>
      have h := hstep s a s' hI (hP s' hs).1 hs
      ⟨h.2, along_of_invariant hstep h.1 (hP s' hs).2⟩

/-- Under what is assumed of the steps, two properties that agree while an
invariant holds, which the second keeps, hold of every step of the same
runs. -/
theorem along_congr_of {A P Q : σ → α → σ → Prop} {I : σ → Prop}
    (hiff : ∀ s a s', I s → A s a s' → M.step s a = some s' → (P s a s' ↔ Q s a s'))
    (hstep : ∀ s a s', I s → A s a s' → Q s a s' → M.step s a = some s' → I s') {s : σ}
    {as : List α} (hI : I s) (hA : M.Along A s as) : M.Along P s as ↔ M.Along Q s as := by
  induction as generalizing s with
  | nil => exact Iff.rfl
  | cons a as ih =>
      refine forall_congr' fun s' => imp_congr_right fun hs => ?_
      obtain ⟨ha, hA⟩ := hA s' hs
      rw [hiff s a s' hI ha hs]
      exact and_congr_right fun hQ => ih (hstep s a s' hI ha hQ hs) hA

/-- The same with nothing assumed of the steps. -/
theorem along_congr {P Q : σ → α → σ → Prop} {I : σ → Prop}
    (hiff : ∀ s a s', I s → M.step s a = some s' → (P s a s' ↔ Q s a s'))
    (hstep : ∀ s a s', I s → Q s a s' → M.step s a = some s' → I s') {s : σ} {as : List α}
    (hI : I s) : M.Along P s as ↔ M.Along Q s as :=
  along_congr_of (fun s a s' hI _ hs => hiff s a s' hI hs)
    (fun s a s' hI _ hQ hs => hstep s a s' hI hQ hs) hI
    (Along.of_forall (p := fun _ => True) fun _ _ => trivial)

/-- A step that misses `Q` leads into a trap: a run that ends outside of it
has met `Q` all along. -/
theorem along_of_trap {Q : σ → α → σ → Prop} {I D : σ → Prop}
    (hstep : ∀ s a s', I s → Q s a s' → M.step s a = some s' → I s')
    (htrap : ∀ s a s', I s → ¬Q s a s' → M.step s a = some s' → D s')
    (hstay : ∀ s a s', D s → M.step s a = some s' → D s') {s t : σ} {as : List α}
    (hI : I s) (hrun : M.run s as = some t) (hend : ¬D t) : M.Along Q s as := by
  induction as generalizing s with
  | nil => trivial
  | cons a as ih =>
      obtain ⟨s', hs, hrest⟩ := run_cons.mp hrun
      have hQ : Q s a s' := by
        by_contra hmiss
        exact hend (Reachable.invariant ⟨as, hrest⟩ (htrap s a s' hI hmiss hs) hstay)
      intro u hu
      obtain rfl := Option.some.inj (hs.symm.trans hu)
      exact ⟨hQ, ih (hstep s a s' hI hQ hs) hrest⟩

/-! ## Fewer actions -/

/-- The machine with only the actions that meet `p`. -/
def restrict (M : Machine σ α) (p : α → Bool) : Machine σ α :=
  ⟨fun s a => if p a then M.step s a else none⟩

theorem restrict_step {p : α → Bool} {s s' : σ} {a : α} :
    (M.restrict p).step s a = some s' ↔ p a = true ∧ M.step s a = some s' := by
  simp only [restrict]
  split <;> simp_all

/-! ## Simulation -/

/-- Every concrete step that keeps the invariant `I` is a run of the
abstract machine under `abs`. -/
def Refines (M : Machine σ α) (N : Machine τ β) (I : σ → Prop) (abs : σ → τ) : Prop :=
  ∀ s a s', I s → M.step s a = some s' → I s' ∧ N.Reachable (abs s) (abs s')

theorem Refines.reachable {I : σ → Prop} {abs : σ → τ} (h : Refines M N I abs) {s t : σ}
    (hI : I s) (hrun : M.Reachable s t) : I t ∧ N.Reachable (abs s) (abs t) := by
  refine hrun.invariant (I := fun u => I u ∧ N.Reachable (abs s) (abs u))
    ⟨hI, .refl _⟩ ?_
  rintro u a u' ⟨hu, hreach⟩ hstep
  obtain ⟨hI', as, has⟩ := h u a u' hu hstep
  exact ⟨hI', hreach.run has⟩

/-- A map that commutes with the steps commutes with the runs. -/
theorem run_map {N : Machine τ α} {I : σ → Prop} {f : σ → τ}
    (hinv : ∀ s a s', I s → M.step s a = some s' → I s')
    (hstep : ∀ s a, I s → N.step (f s) a = (M.step s a).map f) {s : σ} {as : List α}
    (hI : I s) : N.run (f s) as = (M.run s as).map f := by
  induction as generalizing s with
  | nil => rfl
  | cons a as ih =>
      rw [run, run, hstep s a hI]
      cases h : M.step s a with
      | none => rfl
      | some s' => exact ih (hinv s a s' hI h)

end Machine

end CwKeyer
