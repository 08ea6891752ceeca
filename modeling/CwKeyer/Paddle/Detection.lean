import Mathlib.Data.List.Induction

/-!
# Detecting a new adapter

`UsbDevice::detectDevice`, with `usb/Device.h` and `usb/DeviceInterface.h`:
what is attached is compared with what was attached first, ten times over.
Each time the first device of the new set that was not in the old one is
tried, and the scan breaks off. So a readable adapter is found exactly if
the device that comes first among the new ones is readable, in the order of
the set (`detects_readable_iff`).

The sets are `std::set` with an `operator<` that is no order: all that is
assumed of them is that they contain what is inserted (`SetInsert`). The
answers of the devices are a parameter, and so is what is read through
the pointer that `searchDeviceInterfaceAvailable` returns, to a variable
that is out of scope by then. The assertions are not part of a release
build.
-/

namespace CwKeyer

/-! ## Devices -/

structure DeviceInterface where
  interfaceNum : Int
  endpoint : Int
  packetSize : Int
deriving Repr, DecidableEq

structure Device where
  vendorId : Int
  productId : Int
  interface : Option DeviceInterface := none
deriving Repr, DecidableEq

/-- `operator==`; `operator<` is its negation. -/
def Device.same (left right : Device) : Bool :=
  left.vendorId == right.vendorId && left.productId == right.productId

structure EndpointDescriptor where
  bEndpointAddress : UInt8
  wMaxPacketSize : UInt16
deriving Repr, DecidableEq

structure InterfaceDescriptor where
  bInterfaceNumber : UInt8
  endpoint : List EndpointDescriptor
deriving Repr, DecidableEq

/-- The descriptors of an attached device; an interface is the list of its
alternate settings. -/
structure LibusbDevice where
  idVendor : UInt16
  idProduct : UInt16
  interface : List (List InterfaceDescriptor)
deriving Repr, DecidableEq

/-- `vp` in `manageDevices`. -/
def LibusbDevice.device (usbDevice : LibusbDevice) : Device where
  vendorId := usbDevice.idVendor.toNat
  productId := usbDevice.idProduct.toNat

/-- `iface` in `searchDeviceInterfaceAvailable`. -/
def InterfaceDescriptor.iface (altSetting : InterfaceDescriptor) (endpoint : EndpointDescriptor) :
    DeviceInterface where
  interfaceNum := altSetting.bInterfaceNumber.toNat
  endpoint := endpoint.bEndpointAddress.toNat
  packetSize := endpoint.wMaxPacketSize.toNat

namespace UsbDevice

/-! ## The scan -/

/-- The three loops end with the first interface that can be read. -/
def searchDeviceInterfaceAvailable (tryToRead : Device → DeviceInterface → Bool)
    (libusbDevice : LibusbDevice) (deviceToTry : Device) : Option DeviceInterface :=
  libusbDevice.interface.findSome? fun usbIface =>
    usbIface.findSome? fun altSetting =>
      altSetting.endpoint.findSome? fun endpoint =>
        let iface := altSetting.iface endpoint
        if tryToRead deviceToTry iface then some iface else none

variable (insert : Device → List Device → List Device)
  (tryToRead : Device → DeviceInterface → Bool) (stale : DeviceInterface → DeviceInterface)

/-- What an attached device adds to the set. -/
def candidate (deviceToTry : Option Device) (usbDevice : LibusbDevice) : Option Device :=
  let vp := usbDevice.device
  match deviceToTry with
  | none => some vp
  | some device =>
      if vp.same device then
        (searchDeviceInterfaceAvailable tryToRead usbDevice device).map fun iface =>
          { vp with interface := some (stale iface) }
      else none

/-- `list` is what libusb lists. -/
def manageDevices (deviceToTry : Option Device) (list : List LibusbDevice) : List Device :=
  list.foldl (fun devicesLocal usbDevice =>
    match candidate tryToRead stale deviceToTry usbDevice with
    | some vp => insert vp devicesLocal
    | none => devicesLocal) []

/-- The first device of the set that was not there before. -/
def firstNew (devices devicesNow : List Device) : Option Device :=
  devicesNow.find? fun dn => !devices.any fun d => d.same dn

/-- The body of the loop in `detectDevice`. -/
def rescan (devices : List Device) (list : List LibusbDevice) : Option Device :=
  match firstNew devices (manageDevices insert tryToRead stale none list) with
  | none => none
  | some dn => (manageDevices insert tryToRead stale (some dn) list).getLast?

/-- The loop, over what is attached each time. -/
def rescans (devices : List Device) : List (List LibusbDevice) → Option Device
  | [] => none
  | list :: lists =>
      match rescan insert tryToRead stale devices list with
      | some d => some d
      | none => rescans devices lists

/-- What `detectDevice` returns, and the device whose object it hands to
`Configuration::putObject`. -/
structure Detection where
  detected : Option Device
  stored : Option Device
deriving Repr, DecidableEq

/-- `initial` is attached at first, and `now` from the first rescan on. -/
def detectDevice (initial now : List LibusbDevice) : Detection :=
  let devices := manageDevices insert tryToRead stale none initial
  let detected := rescans insert tryToRead stale devices (List.replicate 10 now)
  ⟨detected, detected⟩

end UsbDevice

/-! ## The property and its condition -/

/-- It answers on some endpoint. -/
def LibusbDevice.Answers (tryToRead : Device → DeviceInterface → Bool) (usbDevice : LibusbDevice) :
    Prop :=
  ∃ usbIface ∈ usbDevice.interface, ∃ altSetting ∈ usbIface, ∃ endpoint ∈ altSetting.endpoint,
    tryToRead usbDevice.device (altSetting.iface endpoint) = true

/-- The pair of the device is absent from the list. -/
def Device.Absent (d : Device) (list : List LibusbDevice) : Prop :=
  ∀ usbDevice ∈ list, usbDevice.device.same d = false

/-- A device with the pair answers. -/
def Device.Readable (tryToRead : Device → DeviceInterface → Bool) (d : Device)
    (list : List LibusbDevice) : Prop :=
  ∃ usbDevice ∈ list, usbDevice.device.same d = true ∧ usbDevice.Answers tryToRead

/-- Some attached device is new and answers. -/
def NewReadable (tryToRead : Device → DeviceInterface → Bool) (initial now : List LibusbDevice) :
    Prop :=
  ∃ usbDevice ∈ now, usbDevice.device.Absent initial ∧ usbDevice.Answers tryToRead

/-- A new device that answers is returned and stored, if there is one. -/
def Detects (tryToRead : Device → DeviceInterface → Bool) (initial now : List LibusbDevice)
    (r : UsbDevice.Detection) : Prop :=
  (NewReadable tryToRead initial now → ∃ d, r.detected = some d ∧ r.stored = some d
    ∧ d.Absent initial ∧ d.Readable tryToRead now)
  ∧ (¬NewReadable tryToRead initial now → r.detected = none)

/-- If a new device answers, the new device that comes first in the set
does. -/
def FirstReadable (insert : Device → List Device → List Device)
    (tryToRead : Device → DeviceInterface → Bool) (stale : DeviceInterface → DeviceInterface)
    (initial now : List LibusbDevice) : Prop :=
  NewReadable tryToRead initial now →
    ∀ first ∈ UsbDevice.firstNew (UsbDevice.manageDevices insert tryToRead stale none initial)
        (UsbDevice.manageDevices insert tryToRead stale none now),
      first.Readable tryToRead now

/-! ## Sets -/

/-- The set has been given an element, and has another one besides only if
it had it before. -/
structure SetInsert (insert : Device → List Device → List Device) : Prop where
  sub : ∀ x l y, y ∈ insert x l → y = x ∨ y ∈ l
  keeps : ∀ x l y, y ∈ l → y ∈ insert x l
  has : ∀ x l, ∃ y ∈ insert x l, y.same x = true

variable {insert : Device → List Device → List Device}
  {tryToRead : Device → DeviceInterface → Bool} {stale : DeviceInterface → DeviceInterface}
  {list : List LibusbDevice} {usbDevice : LibusbDevice} {d dn vp : Device}

theorem Device.same_iff {left right : Device} : left.same right = true ↔
    left.vendorId = right.vendorId ∧ left.productId = right.productId := by
  simp [Device.same]

theorem Device.same_comm {left right : Device} (h : left.same right = true) :
    right.same left = true := by
  obtain ⟨hvendor, hproduct⟩ := Device.same_iff.mp h
  exact Device.same_iff.mpr ⟨hvendor.symm, hproduct.symm⟩

theorem Device.same_trans {left middle right : Device} (h : left.same middle = true)
    (h' : middle.same right = true) : left.same right = true := by
  obtain ⟨hvendor, hproduct⟩ := Device.same_iff.mp h
  obtain ⟨hvendor', hproduct'⟩ := Device.same_iff.mp h'
  exact Device.same_iff.mpr ⟨hvendor.trans hvendor', hproduct.trans hproduct'⟩

theorem Device.Absent.of_same (h : d.Absent list) (hsame : d.same dn = true) : dn.Absent list := by
  intro usbDevice hmem
  by_contra hpair
  have hother : usbDevice.device.same dn = true := by simpa using hpair
  have hsame' := Device.same_trans hother (Device.same_comm hsame)
  rw [h usbDevice hmem] at hsame'
  cases hsame'

theorem Device.Readable.of_same (h : d.Readable tryToRead list) (hsame : d.same dn = true) :
    dn.Readable tryToRead list := by
  obtain ⟨usbDevice, hmem, hpair, hanswers⟩ := h
  exact ⟨usbDevice, hmem, Device.same_trans hpair hsame, hanswers⟩

namespace UsbDevice

theorem mem_manageDevices (hinsert : SetInsert insert) {deviceToTry : Option Device}
    (h : d ∈ manageDevices insert tryToRead stale deviceToTry list) :
    ∃ usbDevice ∈ list, candidate tryToRead stale deviceToTry usbDevice = some d := by
  induction list using List.reverseRecOn with
  | nil => cases h
  | append_singleton list usbDevice ih =>
      rw [manageDevices, List.foldl_append] at h
      have hold (hmem : d ∈ manageDevices insert tryToRead stale deviceToTry list) :
          ∃ usbDevice' ∈ list ++ [usbDevice],
            candidate tryToRead stale deviceToTry usbDevice' = some d := by
        obtain ⟨usbDevice', hmem', hcandidate⟩ := ih hmem
        exact ⟨usbDevice', List.mem_append_left _ hmem', hcandidate⟩
      cases hcandidate : candidate tryToRead stale deviceToTry usbDevice with
      | none =>
          rw [List.foldl_cons, List.foldl_nil, hcandidate] at h
          exact hold h
      | some vp =>
          rw [List.foldl_cons, List.foldl_nil, hcandidate] at h
          rcases hinsert.sub _ _ _ h with rfl | hmem
          · exact ⟨usbDevice, List.mem_append_right _ List.mem_cons_self, hcandidate⟩
          · exact hold hmem

variable (tryToRead stale) in
theorem exists_manageDevices (hinsert : SetInsert insert) {deviceToTry : Option Device}
    (hmem : usbDevice ∈ list)
    (hcandidate : candidate tryToRead stale deviceToTry usbDevice = some vp) :
    ∃ d ∈ manageDevices insert tryToRead stale deviceToTry list, d.same vp = true := by
  induction list using List.reverseRecOn with
  | nil => cases hmem
  | append_singleton list last ih =>
      rw [manageDevices, List.foldl_append, List.foldl_cons, List.foldl_nil]
      rcases List.mem_append.mp hmem with hold | hlast
      · obtain ⟨d, hd, hsame⟩ := ih hold
        refine ⟨d, ?_, hsame⟩
        split
        · exact hinsert.keeps _ _ _ hd
        · exact hd
      · obtain rfl := List.mem_singleton.mp hlast
        rw [hcandidate]
        exact hinsert.has _ _

/-! ## Candidates -/

theorem isSome_search : (searchDeviceInterfaceAvailable tryToRead usbDevice
    usbDevice.device).isSome = true ↔ usbDevice.Answers tryToRead := by
  simp [searchDeviceInterfaceAvailable, LibusbDevice.Answers, List.findSome?_isSome_iff]

variable (stale) in
/-- A device of the scan is tried as it was listed. -/
theorem candidate_some_iff (hplain : dn.interface = none) :
    (∃ vp, candidate tryToRead stale (some dn) usbDevice = some vp)
      ↔ usbDevice.device.same dn = true ∧ usbDevice.Answers tryToRead := by
  have hcandidate : candidate tryToRead stale (some dn) usbDevice =
      if usbDevice.device.same dn then
        (searchDeviceInterfaceAvailable tryToRead usbDevice dn).map fun iface =>
          { usbDevice.device with interface := some (stale iface) }
      else none := rfl
  rw [hcandidate]
  by_cases hsame : usbDevice.device.same dn = true
  · have hdn : dn = usbDevice.device := by
      obtain ⟨hvendor, hproduct⟩ := Device.same_iff.mp hsame
      obtain ⟨vendorId, productId, interface⟩ := dn
      obtain rfl : interface = none := hplain
      obtain rfl : usbDevice.device.vendorId = vendorId := hvendor
      obtain rfl : usbDevice.device.productId = productId := hproduct
      rfl
    rw [if_pos hsame, and_iff_right hsame, ← isSome_search, ← hdn, ← Option.isSome_iff_exists,
      Option.isSome_map]
  · rw [if_neg hsame]
    exact iff_of_false nofun fun h => hsame h.1

theorem same_of_candidate (h : candidate tryToRead stale (some dn) usbDevice = some vp) :
    vp.same dn = true := by
  obtain ⟨hsame, h⟩ := Option.ite_none_right_eq_some.mp h
  obtain ⟨iface, -, rfl⟩ := Option.map_eq_some_iff.mp h
  exact hsame

variable (stale) in
/-- The second scan of a round finds the device if it can be read. -/
theorem getLast?_manageDevices (hinsert : SetInsert insert) (hplain : dn.interface = none) :
    (∃ d, (manageDevices insert tryToRead stale (some dn) list).getLast? = some d)
      ↔ dn.Readable tryToRead list := by
  constructor
  · rintro ⟨d, hd⟩
    obtain ⟨usbDevice, hmem, hcandidate⟩ := mem_manageDevices hinsert (List.mem_of_getLast? hd)
    obtain ⟨hsame, hanswers⟩ := (candidate_some_iff stale hplain).mp ⟨d, hcandidate⟩
    exact ⟨usbDevice, hmem, hsame, hanswers⟩
  · rintro ⟨usbDevice, hmem, hsame, hanswers⟩
    obtain ⟨vp, hvp⟩ := (candidate_some_iff stale hplain).mpr ⟨hsame, hanswers⟩
    obtain ⟨d, hd, -⟩ := exists_manageDevices tryToRead stale hinsert hmem hvp
    exact ⟨_, List.getLast?_eq_some_getLast (List.ne_nil_of_mem hd)⟩

theorem same_of_getLast? (hinsert : SetInsert insert)
    (h : (manageDevices insert tryToRead stale (some dn) list).getLast? = some d) :
    d.same dn = true := by
  obtain ⟨usbDevice, -, hcandidate⟩ := mem_manageDevices hinsert (List.mem_of_getLast? h)
  exact same_of_candidate hcandidate

/-! ## The new devices -/

variable {initial now : List LibusbDevice} {first : Device}

theorem mem_scan (hinsert : SetInsert insert)
    (h : d ∈ manageDevices insert tryToRead stale none list) :
    ∃ usbDevice ∈ list, d = usbDevice.device := by
  obtain ⟨usbDevice, hmem, hcandidate⟩ := mem_manageDevices hinsert h
  exact ⟨usbDevice, hmem, (Option.some.inj hcandidate).symm⟩

variable (tryToRead stale) in
theorem any_same_iff (hinsert : SetInsert insert) :
    (manageDevices insert tryToRead stale none list).any (fun d => d.same dn) = false
      ↔ dn.Absent list := by
  rw [List.any_eq_false]
  constructor
  · intro h usbDevice hmem
    obtain ⟨d, hd, hsame⟩ :=
      @exists_manageDevices insert tryToRead stale list usbDevice _ hinsert none hmem rfl
    by_contra hpair
    exact h d hd (Device.same_trans hsame (by simpa using hpair))
  · intro h d hd hsame
    obtain ⟨usbDevice, hmem, rfl⟩ := mem_scan hinsert hd
    rw [h usbDevice hmem] at hsame
    cases hsame

/-- The first new device is one. -/
theorem firstNew_spec (hinsert : SetInsert insert)
    (h : firstNew (manageDevices insert tryToRead stale none initial)
      (manageDevices insert tryToRead stale none now) = some first) :
    first.interface = none ∧ first.Absent initial := by
  obtain ⟨usbDevice, -, rfl⟩ := mem_scan hinsert (List.mem_of_find?_eq_some h)
  have hnew := List.find?_some h
  refine ⟨rfl, (any_same_iff tryToRead stale hinsert).mp ?_⟩
  simpa using hnew

variable (tryToRead stale) in
theorem exists_firstNew (hinsert : SetInsert insert) (hmem : usbDevice ∈ now)
    (habsent : usbDevice.device.Absent initial) :
    ∃ first, firstNew (manageDevices insert tryToRead stale none initial)
      (manageDevices insert tryToRead stale none now) = some first := by
  obtain ⟨d, hd, hsame⟩ :=
    @exists_manageDevices insert tryToRead stale now usbDevice _ hinsert none hmem rfl
  refine Option.isSome_iff_exists.mp (List.find?_isSome.mpr ⟨d, hd, ?_⟩)
  have hnone := (any_same_iff tryToRead stale hinsert).mpr
    (habsent.of_same (Device.same_comm hsame))
  rw [hnone]
  rfl

/-! ## Rounds -/

/-- Every round scans the same and fails in the same way. -/
theorem rescans_replicate (devices : List Device) (n : Nat) :
    rescans insert tryToRead stale devices (List.replicate (n + 1) list)
      = rescan insert tryToRead stale devices list := by
  induction n with
  | zero =>
      rw [List.replicate_one, rescans]
      cases rescan insert tryToRead stale devices list <;> rfl
  | succ n ih =>
      rw [List.replicate_succ, rescans, ih]
      cases rescan insert tryToRead stale devices list <;> rfl

theorem detected_eq : (detectDevice insert tryToRead stale initial now).detected
    = (firstNew (manageDevices insert tryToRead stale none initial)
        (manageDevices insert tryToRead stale none now)).bind fun dn =>
      (manageDevices insert tryToRead stale (some dn) now).getLast? := by
  rw [detectDevice, rescans_replicate _ 9, rescan]
  cases firstNew (manageDevices insert tryToRead stale none initial)
    (manageDevices insert tryToRead stale none now) <;> rfl

end UsbDevice

open UsbDevice

/-- **Detecting a readable adapter.** A new device that answers is returned
and stored whenever there is one, and none otherwise, exactly if the new
device that comes first in the order of the set answers whenever one does. -/
theorem detects_readable_iff (stale : DeviceInterface → DeviceInterface)
    (tryToRead : Device → DeviceInterface → Bool) (initial now : List LibusbDevice)
    (hinsert : SetInsert insert) :
    Detects tryToRead initial now (detectDevice insert tryToRead stale initial now)
      ↔ FirstReadable insert tryToRead stale initial now := by
  have hdetected := @detected_eq insert tryToRead stale initial now
  constructor
  · rintro ⟨hdetects, -⟩ hreadable first hfirst
    obtain ⟨d, hd, -⟩ := hdetects hreadable
    rw [hfirst, Option.bind_some] at hdetected
    exact (getLast?_manageDevices stale hinsert (firstNew_spec hinsert hfirst).1).mp
      ⟨d, hdetected.symm.trans hd⟩
  · intro hreadableFirst
    constructor
    · intro hreadable
      obtain ⟨usbDevice, hmem, habsent, -⟩ := id hreadable
      obtain ⟨first, hfirst⟩ := exists_firstNew tryToRead stale hinsert hmem habsent
      obtain ⟨hplain, hnew⟩ := firstNew_spec hinsert hfirst
      have hanswers := hreadableFirst hreadable first hfirst
      obtain ⟨d, hd⟩ := (getLast?_manageDevices stale hinsert hplain).mpr hanswers
      have hsame := Device.same_comm (same_of_getLast? hinsert hd)
      rw [hfirst, Option.bind_some, hd] at hdetected
      exact ⟨d, hdetected, hdetected, hnew.of_same hsame, hanswers.of_same hsame⟩
    · intro hnone
      rw [hdetected, Option.bind_eq_none_iff]
      intro first hfirst
      obtain ⟨hplain, hnew⟩ := firstNew_spec hinsert hfirst
      rw [Option.eq_none_iff_forall_ne_some]
      intro d hd
      obtain ⟨usbDevice, hmem, hsame, hanswers⟩ :=
        (getLast?_manageDevices stale hinsert hplain).mp ⟨d, hd⟩
      exact hnone ⟨usbDevice, hmem, hnew.of_same (Device.same_comm hsame), hanswers⟩

/-- A set that puts a new element first. -/
def insertFirst (x : Device) (l : List Device) : List Device :=
  if l.any fun y => y.same x then l else x :: l

theorem setInsert_insertFirst : SetInsert insertFirst := by
  refine ⟨?_, ?_, ?_⟩
  · intro x l y hy
    unfold insertFirst at hy
    split at hy
    · exact .inr hy
    · exact List.mem_cons.mp hy
  · intro x l y hy
    unfold insertFirst
    split
    · exact hy
    · exact List.mem_cons_of_mem x hy
  · intro x l
    by_cases hany : (l.any fun y => y.same x) = true
    · rw [insertFirst, if_pos hany]
      exact List.any_eq_true.mp hany
    · rw [insertFirst, if_neg hany]
      exact ⟨x, List.mem_cons_self, Device.same_iff.mpr ⟨rfl, rfl⟩⟩

/-- A root hub, the adapter and a mouse. -/
def rootHub : LibusbDevice := ⟨0x1D6B, 0x0002, [[⟨0, [⟨0x81, 4⟩]⟩]]⟩

def vail : LibusbDevice := ⟨0x413D, 0x2107, [[⟨0, [⟨0x81, 8⟩]⟩]]⟩

def mouse : LibusbDevice := ⟨0x046D, 0xC077, [[⟨0, [⟨0x81, 4⟩]⟩]]⟩

/-- Only the adapter answers. -/
def vailAnswers (d : Device) (_ : DeviceInterface) : Bool := d.same vail.device

theorem vail_answers : vail.Answers vailAnswers :=
  ⟨_, List.mem_cons_self, _, List.mem_cons_self, _, List.mem_cons_self, by decide⟩

theorem detects_readable_vail :
    Detects vailAnswers [rootHub] [rootHub, vail]
        (detectDevice insertFirst vailAnswers id [rootHub] [rootHub, vail])
      ∧ (detectDevice insertFirst vailAnswers id [rootHub] [rootHub, vail]).detected.isSome
        = true := by
  refine ⟨(detects_readable_iff id vailAnswers [rootHub] [rootHub, vail]
    setInsert_insertFirst).mpr fun _ first hfirst => ?_, by decide⟩
  have hvail : firstNew (manageDevices insertFirst vailAnswers id none [rootHub])
      (manageDevices insertFirst vailAnswers id none [rootHub, vail]) = some vail.device := by
    decide
  obtain rfl : vail.device = first := Option.some.inj (hvail.symm.trans hfirst)
  exact ⟨vail, by decide, by decide, vail_answers⟩

/-- A mouse that is plugged in with the adapter is tried in its place. -/
theorem mouse_hides_vail : ¬∀ insert tryToRead stale initial now, SetInsert insert →
    Detects tryToRead initial now (detectDevice insert tryToRead stale initial now) := by
  intro h
  have hdetects := h insertFirst vailAnswers id [rootHub] [rootHub, vail, mouse]
    setInsert_insertFirst
  have hreadable : NewReadable vailAnswers [rootHub] [rootHub, vail, mouse] := by
    refine ⟨vail, by decide, fun usbDevice hmem => ?_, vail_answers⟩
    obtain rfl := List.mem_singleton.mp hmem
    decide
  obtain ⟨d, hd, -⟩ := hdetects.1 hreadable
  have hnone : (detectDevice insertFirst vailAnswers id [rootHub]
      [rootHub, vail, mouse]).detected = none := by decide
  rw [hnone] at hd
  cases hd

end CwKeyer
