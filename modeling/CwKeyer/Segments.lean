import Mathlib.Data.List.SplitBy

/-!
# Segments of a growing list

`List.splitBy near` cuts a list wherever two neighbours are not near. A
list that grows at its end either starts a new segment or extends the
last one; a list given as segments is cut back into them, and one given as
smaller pieces into groups of them. `Joined` is the relation between two
segments that holds of the elements that meet.
-/

namespace CwKeyer

variable {α : Type}

/-- The last of `xs` and the first of `ys` are related. -/
def Joined (R : α → α → Prop) (xs ys : List α) : Prop :=
  ∀ x ∈ xs.getLast?, ∀ y ∈ ys.head?, R x y

instance Joined.decidable (R : α → α → Prop) [DecidableRel R] (xs ys : List α) :
    Decidable (Joined R xs ys) :=
  inferInstanceAs (Decidable (∀ x ∈ xs.getLast?, ∀ y ∈ ys.head?, R x y))

theorem Joined.mono {R S : α → α → Prop} {xs ys : List α} (h : Joined R xs ys)
    (hRS : ∀ x ∈ xs, ∀ y ∈ ys, R x y → S x y) : Joined S xs ys := fun x hx y hy =>
  hRS x (List.mem_of_mem_getLast? hx) y (List.mem_of_mem_head? hy) (h x hx y hy)

variable {near : α → α → Bool}

/-- A list given as segments is cut back into them. -/
theorem splitBy_segments {segments : List (List α)} (hne : [] ∉ segments)
    (hnear : ∀ g ∈ segments, g.IsChain fun x y => near x y = true)
    (hfar : segments.IsChain (Joined fun x y => near x y = false)) :
    segments.flatten.splitBy near = segments := by
  refine List.splitBy_flatten hne hnear ?_
  refine hfar.imp_of_mem_imp fun g g' hg hg' hjoin => ?_
  have hg₀ : g ≠ [] := fun h => hne (h ▸ hg)
  have hg₀' : g' ≠ [] := fun h => hne (h ▸ hg')
  exact ⟨hg₀, hg₀', hjoin _ (List.getLast_mem_getLast? hg₀) _ (List.head_mem_head? hg₀')⟩

/-- An element that is not near the last one starts a segment. -/
theorem splitBy_snoc_far {l : List α} {y : α} (hfar : ∀ x ∈ l.getLast?, near x y = false) :
    (l ++ [y]).splitBy near = l.splitBy near ++ [[y]] :=
  List.splitBy_append_cons [] hfar

/-- An element near the last one extends the last segment. -/
theorem splitBy_snoc_near {l : List α} {x y : α} {L : List (List α)} {g : List α}
    (hl : l.splitBy near = L ++ [g]) (hx : l.getLast? = some x) (hnear : near x y = true) :
    (l ++ [y]).splitBy near = L ++ [g ++ [y]] := by
  obtain ⟨rfl, hne, hchain, hjoin⟩ := List.splitBy_eq_iff.mp hl
  have hg : g ≠ [] := fun h => hne (by simp [h])
  have hlast : g.getLast? = some x := by
    obtain ⟨z, hz⟩ := Option.ne_none_iff_exists'.mp (mt List.getLast?_eq_none_iff.mp hg)
    simpa [hz] using hx
  refine List.splitBy_eq_iff.mpr ⟨by simp, ?_, fun m hm => ?_, ?_⟩
  · exact List.not_mem_append (fun h => hne (List.mem_append_left _ h)) (by simp)
  · rcases List.mem_append.mp hm with hm | hm
    · exact hchain m (List.mem_append_left _ hm)
    · obtain rfl := List.mem_singleton.mp hm
      refine List.isChain_append.mpr ⟨hchain g (by simp), .singleton _, fun a ha b hb => ?_⟩
      obtain rfl : x = a := Option.some.inj (hlast.symm.trans ha)
      obtain rfl : y = b := by simpa using hb
      exact hnear
  · rw [List.isChain_append] at hjoin ⊢
    refine ⟨hjoin.1, .singleton _, ?_⟩
    intro a ha b hb
    obtain rfl : g ++ [y] = b := by simpa using hb
    obtain ⟨h₁, h₂, hcut⟩ := hjoin.2.2 a ha g (by simp)
    exact ⟨h₁, by simp, by rwa [List.head_append_of_ne_nil h₂]⟩

/-! ## Segments of segments -/

theorem Joined.flatten {R : α → α → Prop} {g g' : List (List α)} (hne : [] ∉ g) (hne' : [] ∉ g')
    (h : Joined (Joined R) g g') : Joined R g.flatten g'.flatten := by
  intro x hx y hy
  rcases List.eq_nil_or_concat g with rfl | ⟨L, l, rfl⟩
  · cases hx
  · have hl : l ≠ [] := fun hl => hne (by simp [hl])
    cases g' with
    | nil => cases hy
    | cons m M =>
        have hm : m ≠ [] := fun hm => hne' (by simp [hm])
        have hx : x ∈ l.getLast? := by simpa [List.getLast?_append_of_ne_nil _ hl] using hx
        have hy : y ∈ m.head? := by simpa [List.head?_append_of_ne_nil _ hm] using hy
        exact h l (by simp) m (by simp) x hx y hy

/-- A list given as pieces with no cut inside is cut between pieces only. -/
theorem splitBy_pieces {pieces : List (List α)} (hne : [] ∉ pieces)
    (hnear : ∀ g ∈ pieces, g.IsChain fun x y => near x y = true) :
    ∃ groups : List (List (List α)), groups.flatten = pieces
      ∧ pieces.flatten.splitBy near = groups.map List.flatten
      ∧ (∀ g ∈ groups, g.IsChain (Joined fun x y => near x y = true))
      ∧ groups.IsChain (Joined (Joined fun x y => near x y = false)) := by
  let meets (g g' : List α) : Bool := decide (Joined (fun x y => near x y = true) g g')
  obtain ⟨hflatten, hnil, hchain, hjoin⟩ := List.splitBy_eq_iff.mp (rfl : pieces.splitBy meets = _)
  have hmem : ∀ g ∈ pieces.splitBy meets, ∀ l ∈ g, l ∈ pieces := fun g hg l hl => by
    rw [hflatten]
    exact List.mem_flatten.mpr ⟨g, hg, hl⟩
  have hgroup : ∀ g ∈ pieces.splitBy meets, [] ∉ g := fun g hg hmem' => hne (hmem g hg [] hmem')
  have hinside : ∀ g ∈ pieces.splitBy meets, g.IsChain (Joined fun x y => near x y = true) :=
    fun g hg => (hchain g hg).imp fun _ _ h => of_decide_eq_true h
  have hbetween : (pieces.splitBy meets).IsChain (Joined (Joined fun x y => near x y = false)) := by
    refine hjoin.imp ?_
    rintro g g' ⟨hg, hg', hcut⟩ l hl m hm x hx y hy
    obtain rfl := List.getLast_eq_iff_getLast?_eq_some hg |>.mpr hl
    obtain rfl := List.head_eq_iff_head?_eq_some hg' |>.mpr hm
    have hfar := of_decide_eq_false hcut
    by_contra hxy
    refine hfar fun x' hx' y' hy' => ?_
    obtain rfl := Option.some.inj (hx.symm.trans hx')
    obtain rfl := Option.some.inj (hy.symm.trans hy')
    simpa using hxy
  refine ⟨pieces.splitBy meets, hflatten.symm, ?_, hinside, hbetween⟩
  rw [show pieces.flatten = ((pieces.splitBy meets).map List.flatten).flatten by
    rw [← List.flatten_flatten, ← hflatten]]
  refine splitBy_segments ?_ ?_ ?_
  · intro hmem'
    obtain ⟨g, hg, hempty⟩ := List.mem_map.mp hmem'
    cases g with
    | nil => exact hnil hg
    | cons l g =>
        obtain rfl := (List.append_eq_nil_iff.mp hempty).1
        exact hgroup _ hg List.mem_cons_self
  · intro letter hletter
    obtain ⟨g, hg, rfl⟩ := List.mem_map.mp hletter
    exact (List.isChain_flatten (hgroup g hg)).mpr
      ⟨fun l hl => hnear l (hmem g hg l hl), hinside g hg⟩
  · refine (List.isChain_map _).mpr (hbetween.imp_of_mem_imp fun g g' hg hg' hjoin => ?_)
    exact hjoin.flatten (hgroup g hg) (hgroup g' hg')

end CwKeyer
