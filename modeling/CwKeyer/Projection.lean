import Mathlib.Data.List.Basic
import CwKeyer.Machine

/-!
# Projections of a machine

What the actions of a machine `M` are for another one: `M.trace f s as`
collects, along the run of `as` from `s`, the actions `f` of every step.

`Projects` says that the states of `M` follow those of `N` when the
collected actions are performed there, and `Projects.run` carries this to
whole runs. It serves for a refinement whose abstract actions are named,
and for the part of a system that one of its components sees; `Serves`
tells there the calls that the component gets from the steps of its own.
-/

namespace CwKeyer

namespace Machine

variable {σ α τ β : Type} {M : Machine σ α} {N : Machine τ β}

/-- The actions `f` of the steps of a run, in order. -/
def trace (M : Machine σ α) (f : σ → α → List β) : σ → List α → List β
  | _, [] => []
  | s, a :: as => f s a ++ (M.step s a).elim [] fun s' => M.trace f s' as

@[simp] theorem trace_nil (f : σ → α → List β) (s : σ) : M.trace f s [] = [] := rfl

theorem trace_cons {f : σ → α → List β} {s s' : σ} {a : α} (h : M.step s a = some s')
    (as : List α) : M.trace f s (a :: as) = f s a ++ M.trace f s' as := by
  rw [trace, h]
  rfl

theorem trace_flatMap {γ : Type} {f : σ → α → List β} {g : β → List γ} {s : σ} {as : List α} :
    M.trace (fun s a => (f s a).flatMap g) s as = (M.trace f s as).flatMap g := by
  induction as generalizing s with
  | nil => rfl
  | cons a as ih =>
      cases hs : M.step s a with
      | none => simp [trace, hs]
      | some s' => rw [trace_cons hs, trace_cons hs, List.flatMap_append, ih]

theorem trace_filterMap {γ : Type} {f : σ → α → List β} {g : β → Option γ} {s : σ} {as : List α} :
    M.trace (fun s a => (f s a).filterMap g) s as = (M.trace f s as).filterMap g := by
  simp only [List.filterMap_eq_flatMap_toList, trace_flatMap]

theorem trace_map {γ : Type} {f : σ → α → List β} {g : β → γ} {s : σ} {as : List α} :
    M.trace (fun s a => (f s a).map g) s as = (M.trace f s as).map g := by
  simp only [List.map_eq_flatMap, trace_flatMap]

theorem trace_filter {f : σ → α → List β} {p : β → Bool} {s : σ} {as : List α} :
    M.trace (fun s a => (f s a).filter p) s as = (M.trace f s as).filter p := by
  simp only [← List.filterMap_eq_filter, trace_filterMap]

theorem forall_mem_trace {f : σ → α → List β} {p : β → Prop} {s : σ} {as : List α}
    (h : ∀ s, ∀ a ∈ as, ∀ b ∈ f s a, p b) : ∀ b ∈ M.trace f s as, p b := by
  induction as generalizing s with
  | nil => simp
  | cons a as ih =>
      rw [trace]
      intro b hb
      rcases List.mem_append.mp hb with hb | hb
      · exact h s a List.mem_cons_self b hb
      · cases hs : M.step s a with
        | none => simp [hs] at hb
        | some s' =>
            rw [hs] at hb
            exact ih (fun s a ha => h s a (List.mem_cons_of_mem _ ha)) b hb

/-- What is put into a queue and not taken from it is still there, in order. -/
theorem trace_queue {I : σ → Prop} {q : σ → List β} {put take : σ → α → List β}
    (hstep : ∀ s a s', I s → M.step s a = some s' → I s' ∧ q s ++ put s a = take s a ++ q s')
    {s t : σ} {as : List α} (hI : I s) (h : M.run s as = some t) :
    q s ++ M.trace put s as = M.trace take s as ++ q t := by
  induction as generalizing s with
  | nil =>
      obtain rfl := Option.some.inj h
      exact List.append_nil _
  | cons a as ih =>
      obtain ⟨s', hs, hrun⟩ := run_cons.mp h
      obtain ⟨hI', hqueue⟩ := hstep s a s' hI hs
      rw [trace_cons hs, trace_cons hs, ← List.append_assoc, hqueue, List.append_assoc, ih hI' hrun,
        List.append_assoc]

/-- Under an invariant, two readings of the steps are one. -/
theorem trace_congr {I : σ → Prop} {f g : σ → α → List β}
    (hstep : ∀ s a s', I s → M.step s a = some s' → I s' ∧ f s a = g s a)
    {s t : σ} {as : List α} (hI : I s) (h : M.run s as = some t) :
    M.trace f s as = M.trace g s as := by
  induction as generalizing s with
  | nil => rfl
  | cons a as ih =>
      obtain ⟨s', hs, hrun⟩ := run_cons.mp h
      obtain ⟨hI', heq⟩ := hstep s a s' hI hs
      rw [trace_cons hs, trace_cons hs, heq, ih hI' hrun]

/-- What a step is does not depend on the state. -/
theorem trace_eq_filterMap {f : σ → α → List β} {g : α → Option β}
    (hstep : ∀ s a s', M.step s a = some s' → f s a = (g a).toList)
    {s t : σ} {as : List α} (h : M.run s as = some t) : M.trace f s as = as.filterMap g := by
  induction as generalizing s with
  | nil => rfl
  | cons a as ih =>
      obtain ⟨s', hs, hrun⟩ := run_cons.mp h
      rw [trace_cons hs, hstep s a s' hs, ih hrun, List.filterMap_cons]
      cases g a <;> rfl

/-- A log that every step extends. -/
theorem trace_log {l : σ → List β} {f : σ → α → List β}
    (hstep : ∀ s a s', M.step s a = some s' → l s' = l s ++ f s a)
    {s t : σ} {as : List α} (h : M.run s as = some t) : l t = l s ++ M.trace f s as := by
  induction as generalizing s with
  | nil =>
      obtain rfl := Option.some.inj h
      exact (List.append_nil _).symm
  | cons a as ih =>
      obtain ⟨s', hs, hrun⟩ := run_cons.mp h
      rw [ih hrun, trace_cons hs, hstep s a s' hs, List.append_assoc]

/-- Every step of `M` that keeps `I` performs the actions `f` in `N`. -/
def Projects (M : Machine σ α) (N : Machine τ β) (I : σ → Prop) (abs : σ → τ)
    (f : σ → α → List β) : Prop :=
  ∀ s a s', I s → M.step s a = some s' → I s' ∧ N.run (abs s) (f s a) = some (abs s')

theorem Projects.run {I : σ → Prop} {abs : σ → τ} {f : σ → α → List β} (h : Projects M N I abs f)
    {s t : σ} {as : List α} (hI : I s) (hrun : M.run s as = some t) :
    I t ∧ N.run (abs s) (M.trace f s as) = some (abs t) := by
  induction as generalizing s with
  | nil =>
      obtain rfl := Option.some.inj hrun
      exact ⟨hI, rfl⟩
  | cons a as ih =>
      obtain ⟨s', hs, hrest⟩ := run_cons.mp hrun
      obtain ⟨hI', hstep⟩ := h s a s' hI hs
      obtain ⟨ht, hpath⟩ := ih hI' hrest
      refine ⟨ht, ?_⟩
      rw [trace_cons hs]
      exact run_append.mpr ⟨abs s', hstep, hpath⟩

/-- `N` gets the calls `calls` in a run, and `own` are the steps that it takes
besides. -/
def Serves {γ : Type} (N : Machine τ β) (call? : β → Option γ) (u : τ) (calls : List γ)
    (own : List β) (v : τ) : Prop :=
  ∃ bs, N.run u bs = some v ∧ bs.filterMap call? = calls ∧
    bs.filter (fun b => (call? b).isNone) = own

theorem Projects.serves {γ : Type} {I : σ → Prop} {abs : σ → τ} {f : σ → α → List β}
    (h : Projects M N I abs f) {call? : β → Option γ} {calls : σ → α → List γ} {own : α → Option β}
    (hstep : ∀ s a s', M.step s a = some s' → (f s a).filterMap call? = calls s a ∧
      (f s a).filter (fun b => (call? b).isNone) = (own a).toList)
    {s t : σ} {as : List α} (hI : I s) (hrun : M.run s as = some t) :
    N.Serves call? (abs s) (M.trace calls s as) (as.filterMap own) (abs t) := by
  refine ⟨M.trace f s as, (h.run hI hrun).2, ?_, ?_⟩
  · rw [← trace_filterMap]
    exact trace_congr (I := fun _ => True)
      (fun s a s' _ hs => ⟨trivial, (hstep s a s' hs).1⟩) trivial hrun
  · rw [← trace_filter]
    exact trace_eq_filterMap (fun s a s' hs => (hstep s a s' hs).2) hrun

end Machine

end CwKeyer
