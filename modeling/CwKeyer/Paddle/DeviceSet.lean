import CwKeyer.Paddle.Detection
import CwKeyer.RbTree

/-!
# The set of attached devices

`operator<` of `usb/Device.cpp` holds of any two different devices, in both
directions, so it is no order as soon as there are two (`ordersOn_iff`).
`std::set` is a red-black tree here, as in the library that GCC comes with.
A device goes to the left of all that differ from it: it is found again only
on the left edge, and goes in front of the others if it is not there. The
tree has everything on its left edge while it has at most two nodes, and
then the first rotation takes one away. So `manageDevices` can give a set
with a pair in it twice as soon as a pair is attached twice among at least
three pairs (`device_set_iff`).
-/

namespace CwKeyer

/-- `operator<`. -/
def Device.lt (left right : Device) : Bool :=
  !(left.vendorId == right.vendorId && left.productId == right.productId)

namespace UsbDevice

/-- `manageDevices`, with the `std::set` itself. -/
def manageDeviceSet (tryToRead : Device → DeviceInterface → Bool)
    (stale : DeviceInterface → DeviceInterface) (deviceToTry : Option Device)
    (list : List LibusbDevice) : RbTree Device :=
  list.foldl (fun devicesLocal usbDevice =>
    match candidate tryToRead stale deviceToTry usbDevice with
    | some vp => devicesLocal.insert Device.lt vp
    | none => devicesLocal) .nil

end UsbDevice

/-! ## The property and its condition -/

/-- The laws of a strict weak ordering whose classes are those of
`operator==`, among the devices of `S`. -/
structure OrdersOn (S : Device → Prop) : Prop where
  irrefl : ∀ a, S a → a.lt a = false
  asymm : ∀ a b, S a → S b → a.lt b = true → b.lt a = false
  trans : ∀ a b c, S a → S b → S c → a.lt b = true → b.lt c = true → a.lt c = true
  incomp_trans : ∀ a b c, S a → S b → S c → (a.lt b = false ∧ b.lt a = false) →
    (b.lt c = false ∧ c.lt b = false) → a.lt c = false ∧ c.lt a = false
  same_iff : ∀ a b, S a → S b → (a.lt b = false ∧ b.lt a = false ↔ a.same b = true)

/-- Each attached pair is there exactly once. -/
def HoldsEachOnce (devices : List Device) (list : List LibusbDevice) : Prop :=
  ∀ usbDevice ∈ list, devices.countP (fun d => d.same usbDevice.device) = 1

/-- No pair is attached twice. -/
def NoneTwice (list : List LibusbDevice) : Prop :=
  list.Pairwise fun usbDevice usbDevice' => usbDevice.device.same usbDevice'.device = false

/-- At most two different pairs are attached. -/
def AtMostTwo (list : List LibusbDevice) : Prop :=
  ∃ p q : Device, ∀ usbDevice ∈ list,
    usbDevice.device.same p = true ∨ usbDevice.device.same q = true

/-! ## The order -/

variable {a b d : Device}

theorem Device.lt_eq : a.lt b = !a.same b := rfl

theorem Device.lt_false_iff : a.lt b = false ↔ a.same b = true := by
  rw [Device.lt_eq, Bool.not_eq_false']

theorem Device.same_self : a.same a = true := Device.same_iff.mpr ⟨rfl, rfl⟩

theorem Device.same_eq_comm : a.same b = b.same a := by
  rw [Bool.eq_iff_iff]
  exact ⟨Device.same_comm, Device.same_comm⟩

theorem Device.same_of_pair {pair : Device} (h : a.same pair = true) (h' : b.same pair = true) :
    a.same b = true :=
  Device.same_trans h (Device.same_comm h')

/-- A device of one pair differs from those that are not of it. -/
theorem Device.same_eq_false {pair : Device} (h : a.same pair = true) (hne : b.same pair = false) :
    a.same b = false := by
  by_contra hab
  have hsame : a.same b = true := by simpa using hab
  rw [Device.same_trans (Device.same_comm hsame) h] at hne
  cases hne

/-- The laws hold among the devices of one pair, and fail as soon as there
are two. -/
theorem ordersOn_iff {S : Device → Prop} :
    OrdersOn S ↔ ∀ a b, S a → S b → a.same b = true := by
  constructor
  · intro h a b ha hb
    by_contra hne
    have hlt : a.lt b = true := by
      rw [Device.lt_eq]
      simpa using hne
    have hlt' := h.asymm a b ha hb hlt
    exact hne (Device.same_comm (Device.lt_false_iff.mp hlt'))
  · intro h
    have hnone (a b : Device) (ha : S a) (hb : S b) : a.lt b = false :=
      Device.lt_false_iff.mpr (h a b ha hb)
    refine ⟨?_, ?_, ?_, ?_, ?_⟩
    · intro a ha
      exact hnone a a ha ha
    · intro a b ha hb _
      exact hnone b a hb ha
    · intro a b c ha hb _ hlt _
      rw [hnone a b ha hb] at hlt
      cases hlt
    · intro a b c ha _ hc _ _
      exact ⟨hnone a c ha hc, hnone c a hc ha⟩
    · intro a b ha hb
      exact iff_of_true ⟨hnone a b ha hb, hnone b a hb ha⟩ (h a b ha hb)

/-! ## Insertion -/

namespace UsbDevice

open RbTree

variable {t : RbTree Device}

/-- A device that is not on the left edge goes in front. -/
theorem insert_of_new (h : ∀ x ∈ t.spine, d.same x = false) :
    t.insert Device.lt d = t.pushFront d := by
  refine insert_of_spine fun x hx => ?_
  rw [Device.lt_eq, h x hx]
  rfl

theorem insert_of_found (h : ∃ x ∈ t.spine, d.same x = true) :
    t.insert Device.lt d = t ∧ ∃ x ∈ t.toList, x.same d = true := by
  obtain ⟨x, hx, hsame⟩ := h
  have hstuck : ∃ x ∈ t.spine, d.lt x = false := ⟨x, hx, Device.lt_false_iff.mpr hsame⟩
  have hsymm (j : Device) (hless : d.lt j = false) : j.lt d = false :=
    Device.lt_false_iff.mpr (Device.same_comm (Device.lt_false_iff.mp hless))
  obtain ⟨hinsert, j, hj, hless⟩ := insert_of_stuck hstuck hsymm
  exact ⟨hinsert, j, hj, Device.same_comm (Device.lt_false_iff.mp hless)⟩

/-- Insertion into the set with these devices. -/
def setInsert (d : Device) (l : List Device) : List Device :=
  ((ofList l).insert Device.lt d).toList

theorem setInsert_of_new {l : List Device} (h : ∀ x ∈ (ofList l).spine, d.same x = false) :
    setInsert d l = d :: l := by
  rw [setInsert, insert_of_new h, toList_pushFront, toList_ofList]

/-- The set has the pair already, or the device goes in front and differs
from those on the left edge. -/
theorem setInsert_cases (d : Device) (l : List Device) :
    (setInsert d l = l ∧ ∃ x ∈ l, x.same d = true) ∨
      (setInsert d l = d :: l ∧ ∀ x ∈ (ofList l).spine, d.same x = false) := by
  by_cases hfound : ∃ x ∈ (ofList l).spine, d.same x = true
  · obtain ⟨hsame, x, hx, hpair⟩ := insert_of_found hfound
    rw [toList_ofList] at hx
    rw [setInsert, hsame, toList_ofList]
    exact .inl ⟨rfl, x, hx, hpair⟩
  · have hnew : ∀ x ∈ (ofList l).spine, d.same x = false := by simpa using hfound
    exact .inr ⟨setInsert_of_new hnew, hnew⟩

theorem insert_ofList (d : Device) (l : List Device) :
    (ofList l).insert Device.lt d = ofList (setInsert d l) := by
  unfold setInsert
  by_cases hfound : ∃ x ∈ (ofList l).spine, d.same x = true
  · rw [(insert_of_found hfound).1, toList_ofList]
  · rw [insert_of_new (by simpa using hfound), toList_pushFront, toList_ofList]
    rfl

theorem setInsert_spec : SetInsert setInsert where
  sub x l y hy := by
    rcases setInsert_cases x l with ⟨hsame, -⟩ | ⟨hfront, -⟩
    · rw [hsame] at hy
      exact .inr hy
    · rw [hfront] at hy
      exact List.mem_cons.mp hy
  keeps x l y hy := by
    rcases setInsert_cases x l with ⟨hsame, -⟩ | ⟨hfront, -⟩
    · rwa [hsame]
    · rw [hfront]
      exact List.mem_cons_of_mem _ hy
  has x l := by
    rcases setInsert_cases x l with ⟨hsame, y, hy, hpair⟩ | ⟨hfront, -⟩
    · exact ⟨y, by rwa [hsame], hpair⟩
    · exact ⟨x, by rw [hfront]; exact List.mem_cons_self, Device.same_self⟩

variable {tryToRead : Device → DeviceInterface → Bool} {stale : DeviceInterface → DeviceInterface}
  {deviceToTry : Option Device} {list : List LibusbDevice} {usbDevice : LibusbDevice}

/-- The scan with `setInsert` gives the keys of the tree. -/
theorem manageDeviceSet_eq :
    manageDeviceSet tryToRead stale deviceToTry list =
      ofList (manageDevices setInsert tryToRead stale deviceToTry list) := by
  induction list using List.reverseRecOn with
  | nil => rfl
  | append_singleton list usbDevice ih =>
      unfold manageDeviceSet manageDevices at ih ⊢
      rw [List.foldl_append, List.foldl_append, ih, List.foldl_cons, List.foldl_nil,
        List.foldl_cons, List.foldl_nil]
      cases candidate tryToRead stale deviceToTry usbDevice with
      | some vp => exact insert_ofList _ _
      | none => rfl

theorem toList_manageDeviceSet :
    (manageDeviceSet tryToRead stale deviceToTry list).toList =
      manageDevices setInsert tryToRead stale deviceToTry list := by
  rw [manageDeviceSet_eq, toList_ofList]

theorem scan_snoc {insert : Device → List Device → List Device} :
    manageDevices insert tryToRead stale none (list ++ [usbDevice]) =
      insert usbDevice.device (manageDevices insert tryToRead stale none list) := by
  rw [manageDevices, List.foldl_append]
  rfl

/-! ## Pairs that are there once -/

/-- No pair is there twice. -/
def Distinct (l : List Device) : Prop := l.Pairwise fun a b => a.same b = false

/-- A device that none of the others equals is there once. -/
theorem Distinct.countP_eq_one {l : List Device} (h : Distinct l)
    (hmem : ∃ x ∈ l, x.same d = true) :
    l.countP (fun x => x.same d) = 1 := by
  obtain ⟨x, hx, hpair⟩ := hmem
  obtain ⟨xs, ys, rfl⟩ := List.append_of_mem hx
  obtain ⟨-, hrest, hacross⟩ := List.pairwise_append.mp h
  have hother {y : Device} (hne : y.same x = false) : ¬ y.same d = true := by
    intro hy
    rw [Device.same_of_pair hy hpair] at hne
    cases hne
  have hxs : xs.countP (fun x => x.same d) = 0 :=
    List.countP_eq_zero.mpr fun y hy => hother (hacross y hy x List.mem_cons_self)
  have hys : ys.countP (fun x => x.same d) = 0 := by
    refine List.countP_eq_zero.mpr fun y hy => hother ?_
    rw [Device.same_eq_comm]
    exact (List.pairwise_cons.mp hrest).1 y hy
  rw [List.countP_append, List.countP_cons, hxs, hys, if_pos hpair]

theorem Distinct.countP_le_one {l : List Device} (h : Distinct l) (d : Device) :
    l.countP (fun x => x.same d) ≤ 1 := by
  by_cases hmem : ∃ x ∈ l, x.same d = true
  · exact Nat.le_of_eq (h.countP_eq_one hmem)
  · have hzero : l.countP (fun x => x.same d) = 0 :=
      List.countP_eq_zero.mpr fun x hx hsame => hmem ⟨x, hx, hsame⟩
    omega

theorem holdsEachOnce_of_distinct
    (h : Distinct (manageDevices setInsert tryToRead stale none list)) :
    HoldsEachOnce (manageDevices setInsert tryToRead stale none list) list := by
  intro usbDevice hmem
  exact h.countP_eq_one (exists_manageDevices tryToRead stale setInsert_spec hmem rfl)

/-- Without a pair that is attached twice every device goes in front. -/
theorem distinct_of_noneTwice (h : NoneTwice list) :
    Distinct (manageDevices setInsert tryToRead stale none list) := by
  induction list using List.reverseRecOn with
  | nil => exact List.Pairwise.nil
  | append_singleton list usbDevice ih =>
      obtain ⟨hlist, -, hlast⟩ := List.pairwise_append.mp h
      rw [scan_snoc]
      rcases setInsert_cases usbDevice.device (manageDevices setInsert tryToRead stale none list)
        with ⟨hsame, -⟩ | ⟨hfront, -⟩
      · rw [hsame]
        exact ih hlist
      · rw [hfront]
        refine List.Pairwise.cons ?_ (ih hlist)
        intro x hx
        obtain ⟨usbDevice', hmem, rfl⟩ := mem_scan setInsert_spec hx
        rw [Device.same_eq_comm]
        exact hlast usbDevice' hmem usbDevice (List.mem_singleton_self _)

/-! ## Two pairs -/

/-- Of two pairs there are at most two different devices. -/
theorem Distinct.length_le_two {l : List Device} {p q : Device} (h : Distinct l)
    (hpairs : ∀ x ∈ l, x.same p = true ∨ x.same q = true) : l.length ≤ 2 := by
  have hsplit : l.length = l.countP (fun x => x.same p) + l.countP (fun x => ¬ x.same p) :=
    List.length_eq_countP_add_countP _
  have hrest : l.countP (fun x => ¬ x.same p) ≤ l.countP (fun x => x.same q) := by
    refine List.countP_mono_left fun x hx hnot => ?_
    exact (hpairs x hx).resolve_left (by simpa using hnot)
  have hp := h.countP_le_one p
  have hq := h.countP_le_one q
  omega

/-- A set of two pairs has all of its devices on the left edge, so that none
is overlooked. -/
theorem Distinct.setInsert {l : List Device} {p q : Device} (h : Distinct l)
    (hpairs : ∀ x ∈ l, x.same p = true ∨ x.same q = true) : Distinct (setInsert d l) := by
  rcases setInsert_cases d l with ⟨hsame, -⟩ | ⟨hfront, hspine⟩
  · rwa [hsame]
  · rw [hfront]
    refine List.Pairwise.cons ?_ h
    intro x hx
    exact hspine x (mem_spine_ofList (h.length_le_two hpairs) hx)

theorem distinct_of_pairs {p q : Device} (hpairs : ∀ usbDevice ∈ list, ∀ vp,
    candidate tryToRead stale deviceToTry usbDevice = some vp →
      vp.same p = true ∨ vp.same q = true) :
    Distinct (manageDevices UsbDevice.setInsert tryToRead stale deviceToTry list) := by
  induction list using List.reverseRecOn with
  | nil => exact List.Pairwise.nil
  | append_singleton list usbDevice ih =>
      have hold (usbDevice' : LibusbDevice) (hmem : usbDevice' ∈ list) :=
        hpairs usbDevice' (List.mem_append_left [usbDevice] hmem)
      rw [manageDevices, List.foldl_append, List.foldl_cons, List.foldl_nil]
      cases candidate tryToRead stale deviceToTry usbDevice with
      | none => exact ih hold
      | some vp =>
          refine (ih hold).setInsert (p := p) (q := q) ?_
          intro x hx
          obtain ⟨usbDevice', hmem, hcandidate⟩ := mem_manageDevices setInsert_spec hx
          exact hold usbDevice' hmem x hcandidate

theorem distinct_of_atMostTwo (h : AtMostTwo list) :
    Distinct (manageDevices UsbDevice.setInsert tryToRead stale none list) := by
  obtain ⟨p, q, hpairs⟩ := h
  refine distinct_of_pairs (p := p) (q := q) ?_
  intro usbDevice hmem vp hcandidate
  obtain rfl := Option.some.inj hcandidate
  exact hpairs usbDevice hmem

/-- With a device to try the set holds at most that one. -/
theorem length_manageDeviceSet_le_one {deviceToTry : Device} :
    (manageDeviceSet tryToRead stale (some deviceToTry) list).toList.length ≤ 1 := by
  rw [toList_manageDeviceSet]
  have hdistinct : Distinct
      (manageDevices UsbDevice.setInsert tryToRead stale (some deviceToTry) list) :=
    distinct_of_pairs (p := deviceToTry) (q := deviceToTry) fun _ _ _ hcandidate =>
      .inl (same_of_candidate hcandidate)
  have hsame (x : Device)
      (hx : x ∈ manageDevices UsbDevice.setInsert tryToRead stale (some deviceToTry) list) :
      x.same deviceToTry = true := by
    obtain ⟨usbDevice, -, hcandidate⟩ := mem_manageDevices setInsert_spec hx
    exact same_of_candidate hcandidate
  rw [← List.countP_eq_length.mpr hsame]
  exact hdistinct.countP_le_one deviceToTry

/-! ## Three pairs -/

/-- A device that is in the set stays there, with its repetitions. -/
theorem sublist_setInsert (d : Device) (l : List Device) : l.Sublist (setInsert d l) := by
  rcases setInsert_cases d l with ⟨hsame, -⟩ | ⟨hfront, -⟩
  · rw [hsame]
  · rw [hfront]
    exact List.sublist_cons_self d l

theorem sublist_scan (rest : List LibusbDevice) :
    (manageDevices setInsert tryToRead stale none list).Sublist
      (manageDevices setInsert tryToRead stale none (list ++ rest)) := by
  induction rest using List.reverseRecOn with
  | nil => rw [List.append_nil]
  | append_singleton rest usbDevice ih =>
      rw [← List.append_assoc, scan_snoc]
      exact ih.trans (sublist_setInsert _ _)

theorem scan_new {l : List Device} (h : manageDevices setInsert tryToRead stale none list = l)
    (hnew : ∀ x ∈ (ofList l).spine, usbDevice.device.same x = false) :
    manageDevices setInsert tryToRead stale none (list ++ [usbDevice]) = usbDevice.device :: l := by
  rw [scan_snoc, h]
  exact setInsert_of_new hnew

/-- The first of three pairs is overlooked when it comes again. -/
theorem scan_overlooks {first second third again : LibusbDevice}
    (hsecond : second.device.same first.device = false)
    (hthird : third.device.same first.device = false)
    (hdiffer : third.device.same second.device = false)
    (hagain : again.device.same first.device = true) :
    manageDevices setInsert tryToRead stale none [first, second, third, again] =
      [again.device, third.device, second.device, first.device] := by
  have hback : again.device.same second.device = false := Device.same_eq_false hagain hsecond
  have hback' : again.device.same third.device = false := Device.same_eq_false hagain hthird
  have h₁ : manageDevices setInsert tryToRead stale none ([] ++ [first]) = [first.device] :=
    scan_new rfl (by simp)
  have h₂ : manageDevices setInsert tryToRead stale none ([first] ++ [second]) =
      [second.device, first.device] := scan_new h₁ (by simp [hsecond])
  have h₃ : manageDevices setInsert tryToRead stale none ([first, second] ++ [third]) =
      [third.device, second.device, first.device] := scan_new h₂ (by simp [hthird, hdiffer])
  have h₄ : manageDevices setInsert tryToRead stale none ([first, second, third] ++ [again]) =
      [again.device, third.device, second.device, first.device] :=
    scan_new h₃ (by simp [hback, hback'])
  exact h₄

end UsbDevice

/-! ## Orders of the list -/

variable {list order : List LibusbDevice}

theorem HoldsEachOnce.of_perm {devices : List Device} (h : HoldsEachOnce devices order)
    (hperm : order.Perm list) : HoldsEachOnce devices list :=
  fun usbDevice hmem => h usbDevice (hperm.mem_iff.mpr hmem)

theorem NoneTwice.of_perm (h : NoneTwice list) (hperm : order.Perm list) : NoneTwice order := by
  refine (hperm.pairwise_iff ?_).mpr h
  intro usbDevice usbDevice' hne
  rwa [Device.same_eq_comm]

theorem AtMostTwo.of_perm (h : AtMostTwo list) (hperm : order.Perm list) : AtMostTwo order := by
  obtain ⟨p, q, hpairs⟩ := h
  exact ⟨p, q, fun usbDevice hmem => hpairs usbDevice (hperm.mem_iff.mp hmem)⟩

/-- A pair that is attached twice can be listed first. -/
theorem exists_twice (h : ¬ NoneTwice list) : ∃ first again rest,
    (first :: again :: rest).Perm list ∧ again.device.same first.device = true := by
  induction list with
  | nil => exact absurd List.Pairwise.nil h
  | cons usbDevice list ih =>
      by_cases hlist : NoneTwice list
      · have hagain : ∃ again ∈ list, usbDevice.device.same again.device = true := by
          by_contra hnone
          refine h (List.Pairwise.cons ?_ hlist)
          simpa using hnone
        obtain ⟨again, hmem, hsame⟩ := hagain
        refine ⟨usbDevice, again, list.erase again, ?_, Device.same_comm hsame⟩
        exact (List.perm_cons_erase hmem).symm.cons usbDevice
      · obtain ⟨first, again, rest, hperm, hsame⟩ := ih hlist
        refine ⟨first, again, usbDevice :: rest, ?_, hsame⟩
        have hmiddle : ([first, again] ++ usbDevice :: rest).Perm
            (usbDevice :: ([first, again] ++ rest)) := List.perm_middle
        exact hmiddle.trans (hperm.cons usbDevice)

/-- With two other pairs besides, they can be listed between the two. -/
theorem exists_order (hnone : ¬ NoneTwice list) (htwo : ¬ AtMostTwo list) :
    ∃ first second third again rest, ([first, second, third, again] ++ rest).Perm list ∧
      second.device.same first.device = false ∧ third.device.same first.device = false ∧
      third.device.same second.device = false ∧ again.device.same first.device = true := by
  obtain ⟨first, again, rest, hperm, hagain⟩ := exists_twice hnone
  -- a device of another pair is none of the two
  have hother {usbDevice : LibusbDevice} (hmem : usbDevice ∈ list)
      (hne : usbDevice.device.same first.device = false) : usbDevice ∈ rest := by
    rcases List.mem_cons.mp (hperm.mem_iff.mpr hmem) with rfl | hmem'
    · rw [Device.same_self] at hne
      cases hne
    · rcases List.mem_cons.mp hmem' with rfl | hrest
      · rw [hagain] at hne
        cases hne
      · exact hrest
  have hthree (p q : Device) : ∃ usbDevice ∈ list,
      usbDevice.device.same p = false ∧ usbDevice.device.same q = false := by
    by_contra hall
    refine htwo ⟨p, q, fun usbDevice hmem => ?_⟩
    by_contra hne
    refine hall ⟨usbDevice, hmem, ?_⟩
    simpa using hne
  obtain ⟨second, hsecond, hne, -⟩ := hthree first.device first.device
  obtain ⟨third, hthird, hne', hdiffer⟩ := hthree first.device second.device
  have hthird' : third ∈ rest.erase second := by
    refine (List.mem_erase_of_ne ?_).mpr (hother hthird hne')
    rintro rfl
    rw [Device.same_self] at hdiffer
    cases hdiffer
  refine ⟨first, second, third, again, (rest.erase second).erase third, ?_, hne, hne', hdiffer,
    hagain⟩
  have hrest : (second :: third :: (rest.erase second).erase third).Perm rest :=
    ((List.perm_cons_erase hthird').symm.cons second).trans
      (List.perm_cons_erase (hother hsecond hne)).symm
  have hmiddle : ([second, third] ++ again :: (rest.erase second).erase third).Perm
      (again :: ([second, third] ++ (rest.erase second).erase third)) := List.perm_middle
  exact ((hmiddle.trans (hrest.cons again)).cons first).trans hperm

/-- In some order a pair is in the set twice. -/
theorem exists_twice_in_set (tryToRead : Device → DeviceInterface → Bool)
    (stale : DeviceInterface → DeviceInterface) (hnone : ¬ NoneTwice list)
    (htwo : ¬ AtMostTwo list) : ∃ order : List LibusbDevice, order.Perm list ∧
      ¬ HoldsEachOnce (UsbDevice.manageDeviceSet tryToRead stale none order).toList list := by
  obtain ⟨first, second, third, again, rest, hperm, hsecond, hthird, hdiffer, hagain⟩ :=
    exists_order hnone htwo
  refine ⟨_, hperm, fun h => ?_⟩
  have hscan : List.Sublist [again.device, third.device, second.device, first.device]
      (UsbDevice.manageDeviceSet tryToRead stale none
        ([first, second, third, again] ++ rest)).toList := by
    rw [UsbDevice.toList_manageDeviceSet]
    have hfour := @UsbDevice.scan_overlooks tryToRead stale first second third again hsecond hthird
      hdiffer hagain
    exact hfour ▸ UsbDevice.sublist_scan rest
  have hcount := hscan.countP_le (p := fun d => d.same first.device)
  rw [h first (hperm.mem_iff.mp List.mem_cons_self)] at hcount
  simp [hagain, Device.same_self] at hcount

/-- The laws hold among the devices of one pair only. In every order of
enumeration the set holds each attached pair exactly once if and only if no
pair is attached twice or there are at most two. -/
theorem device_order_iff (S : Device → Prop) (tryToRead : Device → DeviceInterface → Bool)
    (stale : DeviceInterface → DeviceInterface) (list : List LibusbDevice) :
    (OrdersOn S ↔ ∀ a b, S a → S b → a.same b = true) ∧
    ((∀ order : List LibusbDevice, order.Perm list →
        HoldsEachOnce (UsbDevice.manageDeviceSet tryToRead stale none order).toList list) ↔
      NoneTwice list ∨ AtMostTwo list) := by
  refine ⟨ordersOn_iff, ?_, ?_⟩
  · intro h
    by_contra hboth
    obtain ⟨hnone, htwo⟩ := not_or.mp hboth
    obtain ⟨order, hperm, hmissed⟩ := exists_twice_in_set tryToRead stale hnone htwo
    exact hmissed (h order hperm)
  · rintro hcondition order hperm
    rw [UsbDevice.toList_manageDeviceSet]
    refine (UsbDevice.holdsEachOnce_of_distinct ?_).of_perm hperm
    rcases hcondition with hnone | htwo
    · exact UsbDevice.distinct_of_noneTwice (hnone.of_perm hperm)
    · exact UsbDevice.distinct_of_atMostTwo (htwo.of_perm hperm)

/-- Two root hubs of the same kind, with another device and another hub
between them. -/
def attachedHubs : List LibusbDevice :=
  [⟨0x1d6b, 0x0002, []⟩, ⟨0x1d6b, 0x0003, []⟩, ⟨0x413d, 0x2107, []⟩, ⟨0x1d6b, 0x0002, []⟩]

theorem device_order_unfit :
    ¬ OrdersOn (fun _ => True) ∧
    ¬ HoldsEachOnce
      (UsbDevice.manageDeviceSet (fun _ _ => false) id none attachedHubs).toList attachedHubs := by
  constructor
  · intro h
    have hlt := h.asymm ⟨0x1d6b, 2, none⟩ ⟨0x413d, 0x2107, none⟩ trivial trivial (by decide)
    exact absurd hlt (by decide)
  · intro h
    have hcount := h ⟨0x1d6b, 0x0002, []⟩ List.mem_cons_self
    exact absurd hcount (by decide)

end CwKeyer
