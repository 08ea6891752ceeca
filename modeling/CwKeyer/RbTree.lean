import Mathlib.Data.List.Basic

/-!
# Red-black trees

Insertion as a library's ordered set does it. The way down compares the new
key with the key of each node and ends at a leaf; what is passed on it is
the list of its frames, the last one first. The key is not inserted if the
one before the leaf is not less than it. Otherwise a red node takes the
place of the leaf, and on the way up nodes are recoloured until a rotation
or a black node ends the repair.

Nothing is assumed of the comparison. Rebalancing keeps the order of the
keys whatever it is (`toList_rebalance`). The way down goes to the left as
long as the new key is less than the keys on the left edge (`spine`): so a
key that is less than all of these goes in front of all the others
(`insert_of_spine`).
-/

namespace CwKeyer

inductive RbTree.Color where
  | red
  | black
deriving Repr, DecidableEq

inductive RbTree.Side where
  | left
  | right
deriving Repr, DecidableEq

inductive RbTree (α : Type) where
  | nil
  | node (color : RbTree.Color) (left : RbTree α) (key : α) (right : RbTree α)
deriving Repr, DecidableEq

namespace RbTree

/-- A node on the way down: the side that the way takes, and the subtree on
the other side. -/
structure Frame (α : Type) where
  side : Side
  color : Color
  key : α
  other : RbTree α
deriving Repr, DecidableEq

variable {α : Type}

def toList : RbTree α → List α
  | .nil => []
  | .node _ left key right => left.toList ++ key :: right.toList

/-- The keys on the left edge, from the root down. -/
def spine : RbTree α → List α
  | .nil => []
  | .node _ left key _ => key :: left.spine

def blacken : RbTree α → RbTree α
  | .nil => .nil
  | .node _ left key right => .node .black left key right

/-! ## Ways through a tree -/

def Frame.plug (f : Frame α) (t : RbTree α) : RbTree α :=
  match f.side with
  | .left => .node f.color t f.key f.other
  | .right => .node f.color f.other f.key t

/-- The tree with `t` at the end of the way. -/
def zip (t : RbTree α) (path : List (Frame α)) : RbTree α :=
  path.foldl (fun t f => f.plug t) t

/-- The keys of the frame that come before what is plugged in. -/
def Frame.before (f : Frame α) : List α :=
  match f.side with
  | .left => []
  | .right => f.other.toList ++ [f.key]

def Frame.after (f : Frame α) : List α :=
  match f.side with
  | .left => f.key :: f.other.toList
  | .right => []

/-- The keys before the end of the way. -/
def before : List (Frame α) → List α
  | [] => []
  | f :: path => before path ++ f.before

def after : List (Frame α) → List α
  | [] => []
  | f :: path => f.after ++ after path

/-- The key before the end of the way. -/
def predecessor (path : List (Frame α)) : Option α := (before path).getLast?

/-! ## Insertion -/

/-- The way to the leaf for `k`, below `path`. -/
def descend (lt : α → α → Bool) (k : α) : RbTree α → List (Frame α) → List (Frame α)
  | .nil, path => path
  | .node color left key right, path =>
      if lt k key then descend lt k left (⟨.left, color, key, right⟩ :: path)
      else descend lt k right (⟨.right, color, key, left⟩ :: path)

/-- A red node below a red node `p`, whose sibling is black: one rotation,
or two if the sides differ. -/
def rotate (l : RbTree α) (k : α) (r : RbTree α) (p g : Frame α) : RbTree α :=
  match g.side, p.side with
  | .left, .left => .node .black (.node .red l k r) p.key (.node .red p.other g.key g.other)
  | .left, .right => .node .black (.node .red p.other p.key l) k (.node .red r g.key g.other)
  | .right, .right => .node .black (.node .red g.other g.key p.other) p.key (.node .red l k r)
  | .right, .left => .node .black (.node .red g.other g.key l) k (.node .red r p.key p.other)

/-- The way up from a red node. -/
def rebalance : RbTree α → α → RbTree α → List (Frame α) → RbTree α
  | l, k, r, [] => .node .black l k r
  | l, k, r, [p] => (p.plug (.node .red l k r)).blacken
  | l, k, r, p :: g :: path =>
      match p.color, g.other with
      | .black, _ => zip (p.plug (.node .red l k r)) (g :: path)
      | .red, .node .red ul uk ur =>
          let parent := { p with color := .black }.plug (.node .red l k r)
          match g.side with
          | .left => rebalance parent g.key (.node .black ul uk ur) path
          | .right => rebalance (.node .black ul uk ur) g.key parent path
      | .red, _ => zip (rotate l k r p g) path

def grow (k : α) (path : List (Frame α)) : RbTree α := rebalance .nil k .nil path

def insert (lt : α → α → Bool) (k : α) (t : RbTree α) : RbTree α :=
  let path := descend lt k t []
  match predecessor path with
  | none => grow k path
  | some j => if lt j k then grow k path else t

/-- Insertion before all other keys. -/
def pushFront (k : α) (t : RbTree α) : RbTree α := grow k (descend (fun _ _ => true) k t [])

/-! ## The order of the keys -/

variable {lt : α → α → Bool} {k : α} {t l r : RbTree α} {path : List (Frame α)}

@[simp] theorem toList_plug {f : Frame α} :
    (f.plug t).toList = f.before ++ t.toList ++ f.after := by
  unfold Frame.plug Frame.before Frame.after
  cases f.side <;> simp [toList]

@[simp] theorem toList_blacken : t.blacken.toList = t.toList := by
  cases t <;> rfl

@[simp] theorem toList_zip : (zip t path).toList = before path ++ t.toList ++ after path := by
  induction path generalizing t with
  | nil => simp [zip, before, after]
  | cons f path ih =>
      rw [zip, List.foldl_cons]
      refine ih.trans ?_
      simp [before, after]

theorem toList_rotate {p g : Frame α} : (rotate l k r p g).toList =
    g.before ++ p.before ++ (l.toList ++ k :: r.toList) ++ (p.after ++ g.after) := by
  unfold rotate Frame.before Frame.after
  cases g.side <;> cases p.side <;> simp [toList]

/-- Rebalancing moves no key. -/
theorem toList_rebalance :
    (rebalance l k r path).toList = before path ++ (l.toList ++ k :: r.toList) ++ after path := by
  induction l, k, r, path using rebalance.induct with
  | case1 l k r => simp [rebalance, toList, before, after]
  | case2 l k r p => simp [rebalance, toList, before, after]
  | case3 l k r p g path hblack => simp [rebalance, hblack, toList, before, after]
  | case4 l k r p g path ul uk ur huncle hred parent hleft ih =>
      have hparent : parent.toList = p.before ++ (l.toList ++ k :: r.toList) ++ p.after :=
        toList_plug
      simp only [rebalance, hred, huncle, hleft]
      rw [ih, hparent]
      simp [before, after, Frame.before, Frame.after, hleft, huncle, toList]
  | case5 l k r p g path ul uk ur huncle hred parent hright ih =>
      have hparent : parent.toList = p.before ++ (l.toList ++ k :: r.toList) ++ p.after :=
        toList_plug
      simp only [rebalance, hred, huncle, hright]
      rw [ih, hparent]
      simp [before, after, Frame.before, Frame.after, hright, huncle, toList]
  | case6 l k r p g path hred =>
      simp [rebalance, hred, toList_rotate, before, after]

/-! ## The left edge -/

theorem before_descend_true {path : List (Frame α)} :
    before (descend (fun _ _ => true) k t path) = before path := by
  induction t generalizing path with
  | nil => rfl
  | node color left key right ihl =>
      rw [descend, if_pos rfl, ihl]
      simp [before, Frame.before]

theorem toList_descend :
    before (descend lt k t path) ++ after (descend lt k t path) =
      before path ++ t.toList ++ after path := by
  induction t generalizing path with
  | nil => simp [descend, toList]
  | node color left key right ihl ihr =>
      unfold descend
      split
      · simp [ihl, before, after, Frame.before, Frame.after, toList]
      · simp [ihr, before, after, Frame.before, Frame.after, toList]

theorem toList_pushFront : (pushFront k t).toList = k :: t.toList := by
  have hkeys := @toList_descend α (fun _ _ => true) k t []
  rw [before_descend_true] at hkeys
  rw [pushFront, grow, toList_rebalance, before_descend_true]
  simpa [toList, before, after] using hkeys

theorem descend_of_spine (h : ∀ x ∈ t.spine, lt k x = true) :
    descend lt k t path = descend (fun _ _ => true) k t path := by
  induction t generalizing path with
  | nil => rfl
  | node color left key right ihl =>
      obtain ⟨hkey, hleft⟩ := List.forall_mem_cons.mp h
      rw [descend, descend, if_pos hkey, if_pos rfl, ihl hleft]

/-- A key that is less than those on the left edge goes in front. -/
theorem insert_of_spine (h : ∀ x ∈ t.spine, lt k x = true) : t.insert lt k = t.pushFront k := by
  simp only [insert, descend_of_spine h, predecessor, before_descend_true, before,
    List.getLast?_nil, pushFront]

/-- Otherwise the way ends after a key that the new one is not less than. -/
theorem predecessor_descend (h : ∃ x ∈ t.spine, lt k x = false) :
    ∃ j ∈ t.toList, lt k j = false ∧ predecessor (descend lt k t path) = some j := by
  induction t generalizing path with
  | nil =>
      obtain ⟨x, hx, -⟩ := h
      cases hx
  | node color left key right ihl ihr =>
      obtain ⟨x, hx, hstuck⟩ := h
      by_cases hkey : lt k key = true
      · have hleft : x ∈ left.spine := by
          rcases List.mem_cons.mp hx with rfl | hleft
          · rw [hkey] at hstuck
            cases hstuck
          · exact hleft
        obtain ⟨j, hj, hless, hlast⟩ :=
          @ihl (⟨.left, color, key, right⟩ :: path) ⟨x, hleft, hstuck⟩
        refine ⟨j, List.mem_append_left _ hj, hless, ?_⟩
        rw [descend, if_pos hkey, hlast]
      · have hnot : lt k key = false := by simpa using hkey
        rw [descend, if_neg hkey]
        by_cases hright : ∃ x ∈ right.spine, lt k x = false
        · obtain ⟨j, hj, hless, hlast⟩ := @ihr (⟨.right, color, key, left⟩ :: path) hright
          exact ⟨j, List.mem_append_right _ (List.mem_cons_of_mem _ hj), hless, hlast⟩
        · have hspine : ∀ x ∈ right.spine, lt k x = true := by simpa using hright
          refine ⟨key, by simp [toList], hnot, ?_⟩
          rw [descend_of_spine hspine, predecessor, before_descend_true]
          simp [before, Frame.before]

theorem insert_of_stuck (h : ∃ x ∈ t.spine, lt k x = false)
    (hsymm : ∀ j, lt k j = false → lt j k = false) :
    t.insert lt k = t ∧ ∃ j ∈ t.toList, lt k j = false := by
  obtain ⟨j, hj, hless, hlast⟩ := @predecessor_descend α lt k t [] h
  refine ⟨?_, j, hj, hless⟩
  simp only [insert, hlast, hsymm j hless, Bool.false_eq_true, if_false]

/-! ## Keys that went in front -/

/-- The tree that has grown by insertions in front. -/
def ofList (l : List α) : RbTree α := l.foldr pushFront .nil

@[simp] theorem toList_ofList {l : List α} : (ofList l).toList = l := by
  induction l with
  | nil => rfl
  | cons k l ih =>
      rw [ofList, List.foldr_cons, toList_pushFront]
      exact congrArg _ ih

section LeftEdge

variable {a b c : α}

@[simp] theorem spine_ofList_nil : (ofList ([] : List α)).spine = [] := rfl

@[simp] theorem spine_ofList_one : (ofList [a]).spine = [a] := rfl

@[simp] theorem spine_ofList_two : (ofList [b, a]).spine = [a, b] := rfl

/-- The third key makes the second one the root. -/
@[simp] theorem spine_ofList_three : (ofList [c, b, a]).spine = [b, c] := rfl

/-- Two keys are both on the left edge. -/
theorem mem_spine_ofList {l : List α} (hlength : l.length ≤ 2) {x : α} (hx : x ∈ l) :
    x ∈ (ofList l).spine := by
  match l, hlength with
  | [a], _ => exact hx
  | [b, a], _ =>
      rw [spine_ofList_two]
      exact (List.Perm.swap a b []).mem_iff.mp hx

end LeftEdge

end RbTree

end CwKeyer
