import CwKeyer.Gui.Configuration
import CwKeyer.Paddle.Detection
import CwKeyer.Paddle.UsbDevice

/-!
# Transfers and their buffers

The packet size of an endpoint on its way from the descriptor to the two
places that allocate a buffer of that size, and what `cbInterrupt` reads of
a buffer. `tryToRead` asks for as many bytes as a pointer has, and
`cbInterrupt` does not ask how many bytes have come. So both stay inside
exactly if the packets have at least 8 bytes and the bytes that come cover
the bytes that are looked at (`transfers_inside_iff`).
-/

namespace CwKeyer

/-! ## Storage -/

namespace DeviceInterface

def toJson (iface : DeviceInterface) : JsonObject :=
  ((JsonObject.insert [] "interface" (.number iface.interfaceNum)).insert "endpoint"
    (.number iface.endpoint)).insert "packetSize" (.number iface.packetSize)

/-- `toInt` of the value of a key, which may be absent. -/
def fromJson (jsonObject : JsonObject) : DeviceInterface where
  interfaceNum := ((jsonObject.value "interface").getD .null).toInt
  endpoint := ((jsonObject.value "endpoint").getD .null).toInt
  packetSize := ((jsonObject.value "packetSize").getD .null).toInt

end DeviceInterface

/-- What a descriptor carries is stored and read without change. -/
theorem fromJson_toJson_iface (altSetting : InterfaceDescriptor) (endpoint : EndpointDescriptor) :
    DeviceInterface.fromJson (altSetting.iface endpoint).toJson = altSetting.iface endpoint := by
  have hinterfaceNum := altSetting.bInterfaceNumber.toNat_lt
  have hendpoint := endpoint.bEndpointAddress.toNat_lt
  have hpacketSize := endpoint.wMaxPacketSize.toNat_lt
  have hvalue (n : Nat) (h : n < 2 ^ 16) : JsonValue.toInt (.number (n : Int)) = n :=
    JsonValue.toInt_number (by omega) (by omega)
  refine congr (congr (congrArg DeviceInterface.mk ?_) ?_) ?_
  · rw [DeviceInterface.toJson, JsonObject.value_insert_ne (by decide),
      JsonObject.value_insert_ne (by decide), JsonObject.value_insert_self]
    exact hvalue _ (by omega)
  · rw [DeviceInterface.toJson, JsonObject.value_insert_ne (by decide),
      JsonObject.value_insert_self]
    exact hvalue _ (by omega)
  · rw [DeviceInterface.toJson, JsonObject.value_insert_self]
    exact hvalue _ (by omega)

/-! ## Requests -/

/-- The size of a buffer and the number of bytes requested. -/
structure Transfer where
  buffer : Nat
  length : Int
deriving Repr, DecidableEq

def Transfer.Fits (transfer : Transfer) : Prop := transfer.length ≤ transfer.buffer

instance (transfer : Transfer) : Decidable transfer.Fits := inferInstanceAs (Decidable (_ ≤ _))

namespace UsbDevice

/-- `sizeof(data)`, of a pointer in a 64-bit build. -/
def sizeofData : Int := 8

/-- The transfer in `tryToRead`. -/
def probe (iface : DeviceInterface) : Transfer := ⟨iface.packetSize.toNat, sizeofData⟩

/-- The loop in `tryToRead`, while `counter` is less than 5 by `left`:
`outcome k` is the result of transfer `k` and the bytes it has read. -/
def probes (iface : DeviceInterface) (outcome : Nat → Int × Int) :
    Nat → Nat → Bool → Bool × List Transfer
  | 0, _, readData => (readData, [probe iface])
  | left + 1, k, readData =>
      if (outcome k).1 = 0 ∧ readData = false then
        let (result, transfers) := probes iface outcome left (k + 1) (0 < (outcome k).2)
        (result, probe iface :: transfers)
      else (readData, [probe iface])

/-- Whether the interface can be read, and the transfers. -/
def tryToRead (claimed : Bool) (outcome : Nat → Int × Int) (iface : DeviceInterface) :
    Bool × List Transfer :=
  if claimed then probes iface outcome 5 0 false else (false, [])

/-- The transfer that is submitted over and over. -/
def taskRunnable (claimed : Bool) (iface : DeviceInterface) : Option Transfer :=
  if claimed then some ⟨iface.packetSize.toNat, iface.packetSize⟩ else none

/-! ## Reads -/

/-- A byte of the buffer; the state is the indices that have been read. -/
def read (buffer : Nat → UInt8) (i : Nat) : StateM (List Nat) UInt8 :=
  fun reads => (buffer i, reads ++ [i])

/-- The decoding in `cbInterrupt`. -/
def decode (buffer : Nat → UInt8) : StateM (List Nat) (Bool × Bool) := do
  let is (value : UInt8) : StateM (List Nat) Bool := do return (← read buffer 0) == value
  let isSet (i : Nat) : StateM (List Nat) Bool := do return 0 < (← read buffer i)
  if ← is clickBoth <||> (isSet 2 <&&> isSet 3) then return (true, true)
  else if ← is clickLeft <||> isSet 2 then return (true, false)
  else if ← is clickRight <||> isSet 3 then return (false, true)
  else return (false, false)

/-- The indices that `cbInterrupt` reads. -/
def reads (buffer : Nat → UInt8) : List Nat := (decode buffer []).2

/-- The buffer after a transfer that has delivered `bytes`. -/
def received (bytes : List UInt8) (before : Nat → UInt8) (i : Nat) : UInt8 :=
  bytes[i]?.getD (before i)

end UsbDevice

open UsbDevice

/-! ## The property and its condition -/

/-- No request is longer than its buffer, and no index is read beyond the
bytes that have been delivered. -/
structure StaysInside (claimed : Bool) (outcome : Nat → Int × Int) (iface : DeviceInterface)
    (bytes : List UInt8) (before : Nat → UInt8) : Prop where
  tryToRead : ∀ transfer ∈ (tryToRead claimed outcome iface).2, transfer.Fits
  taskRunnable : ∀ transfer ∈ taskRunnable claimed iface, transfer.Fits
  cbInterrupt : ∀ i ∈ reads (received bytes before), i < bytes.length

/-- Four bytes; or three, if the last is 0 and the first one click; or any
number, if the first is both clicks. -/
def Covers (bytes : List UInt8) : Prop :=
  4 ≤ bytes.length
    ∨ (bytes.length = 3 ∧ bytes[2]? = some 0
      ∧ (bytes[0]? = some clickLeft ∨ bytes[0]? = some clickRight))
    ∨ bytes[0]? = some clickBoth

/-! ## Inside the buffers -/

theorem mem_probes {iface : DeviceInterface} {outcome : Nat → Int × Int} :
    ∀ {left k : Nat} {readData : Bool} {transfer : Transfer},
      transfer ∈ (probes iface outcome left k readData).2 → transfer = probe iface
  | 0, _, _, _, h => List.mem_singleton.mp h
  | left + 1, k, readData, transfer, h => by
      rw [probes] at h
      split at h
      · rcases List.mem_cons.mp h with rfl | h
        · rfl
        · exact mem_probes h
      · exact List.mem_singleton.mp h

theorem probe_mem_probes (iface : DeviceInterface) (outcome : Nat → Int × Int) :
    ∀ (left k : Nat) (readData : Bool), probe iface ∈ (probes iface outcome left k readData).2
  | 0, _, _ => List.mem_singleton_self _
  | left + 1, k, readData => by
      rw [probes]
      split
      · exact List.mem_cons_self
      · exact List.mem_singleton_self _

theorem probe_fits (iface : DeviceInterface) : (probe iface).Fits ↔ 8 ≤ iface.packetSize := by
  show (8 : Int) ≤ (iface.packetSize.toNat : Int) ↔ 8 ≤ iface.packetSize
  omega

/-- All requests of the probe are one, and there is one if the interface
has been claimed. -/
theorem tryToRead_fits (claimed : Bool) (outcome : Nat → Int × Int) (iface : DeviceInterface) :
    (∀ transfer ∈ (tryToRead claimed outcome iface).2, transfer.Fits)
      ↔ (claimed = true → 8 ≤ iface.packetSize) := by
  cases claimed with
  | false =>
      refine ⟨fun _ hclaimed => absurd hclaimed Bool.false_ne_true, ?_⟩
      intro _ transfer htransfer
      exact absurd htransfer List.not_mem_nil
  | true =>
      refine ⟨?_, ?_⟩
      · intro h _
        exact (probe_fits iface).mp (h _ (probe_mem_probes iface outcome 5 0 false))
      · intro h transfer htransfer
        obtain rfl := mem_probes htransfer
        exact (probe_fits iface).mpr (h rfl)

theorem taskRunnable_fits (claimed : Bool) (iface : DeviceInterface) :
    ∀ transfer ∈ taskRunnable claimed iface, transfer.Fits := by
  intro transfer htransfer
  obtain ⟨-, ⟨⟩⟩ := Option.ite_none_right_eq_some.mp htransfer
  exact Int.self_le_toNat iface.packetSize

/-! ## Inside the bytes -/

section Reads

variable {σ : Type} (x y : StateM σ Bool) (s : σ)

/-- The second one runs only if the first is false. -/
theorem or_run : (x <||> y) s = if (x s).1 then (true, (x s).2) else y (x s).2 := by
  show (match x s with
    | (b, s') => (match b with | true => pure b | false => y : StateM σ Bool) s') = _
  obtain ⟨b, s'⟩ := x s
  cases b <;> rfl

theorem and_run : (x <&&> y) s = if (x s).1 then y (x s).2 else (false, (x s).2) := by
  show (match x s with
    | (b, s') => (match b with | true => y | false => pure b : StateM σ Bool) s') = _
  obtain ⟨b, s'⟩ := x s
  cases b <;> rfl

theorem ite_run {β : Type} (t e : StateM σ β) :
    (x >>= fun b => if b then t else e) s = if (x s).1 then t (x s).2 else e (x s).2 := by
  show (match x s with | (b, s') => (if b then t else e) s') = _
  obtain ⟨b, s'⟩ := x s
  cases b <;> rfl

end Reads

theorem decode_eq (buffer : Nat → UInt8) :
    decode buffer [] =
      if buffer 0 = clickBoth then ((true, true), [0])
      else if 0 < buffer 2 then
        if 0 < buffer 3 then ((true, true), [0, 2, 3])
        else ((true, false), if buffer 0 = clickLeft then [0, 2, 3, 0] else [0, 2, 3, 0, 2])
      else if buffer 0 = clickLeft then ((true, false), [0, 2, 0])
      else if buffer 0 = clickRight then ((false, true), [0, 2, 0, 2, 0])
      else ((false, 0 < buffer 3), [0, 2, 0, 2, 0, 3]) := by
  have his (value : UInt8) (reads : List Nat) :
      (do return (← UsbDevice.read buffer 0) == value : StateM (List Nat) Bool) reads
        = (buffer 0 == value, reads ++ [0]) := rfl
  have hisSet (i : Nat) (reads : List Nat) :
      (do return 0 < (← UsbDevice.read buffer i) : StateM (List Nat) Bool) reads
        = (decide (0 < buffer i), reads ++ [i]) := rfl
  have hpure (v : Bool × Bool) (reads : List Nat) :
      (pure v : StateM (List Nat) (Bool × Bool)) reads = (v, reads) := rfl
  simp only [decode, ite_run, or_run, and_run, his, hisSet, hpure, beq_iff_eq, decide_eq_true_eq,
    List.nil_append, List.cons_append]
  by_cases hboth : buffer 0 = clickBoth
  · simp only [if_pos hboth, if_true]
  by_cases hdit : 0 < buffer 2
  · by_cases hdah : 0 < buffer 3
    · simp [if_neg hboth, hdit, hdah]
    · by_cases hleft : buffer 0 = clickLeft
      · simp [if_neg hboth, if_pos hleft, hdit, hdah]
      · simp [if_neg hboth, if_neg hleft, hdit, hdah]
  · by_cases hleft : buffer 0 = clickLeft
    · simp [if_neg hboth, if_pos hleft, hdit]
    · by_cases hright : buffer 0 = clickRight
      · simp [if_neg hboth, if_neg hleft, if_pos hright, hdit]
      · by_cases hdah : 0 < buffer 3 <;>
          simp [if_neg hboth, if_neg hleft, if_neg hright, hdit, hdah]

/-- The value is the decoding of `cbInterrupt` in `UsbDevice`. -/
theorem decode_value (buffer : Nat → UInt8) :
    (decode buffer []).1 = reported (buffer 0) (buffer 2) (buffer 3) := by
  rw [decode_eq, reported]
  split_ifs <;> simp_all

theorem mem_reads (buffer : Nat → UInt8) (i : Nat) :
    i ∈ reads buffer ↔
      i = 0 ∨ (buffer 0 ≠ clickBoth
        ∧ (i = 2 ∨ (i = 3 ∧ (0 < buffer 2 ∨ (buffer 0 ≠ clickLeft ∧ buffer 0 ≠ clickRight))))) := by
  rw [reads, decode_eq]
  split_ifs <;> simp_all <;> omega

theorem received_eq {bytes : List UInt8} {i : Nat} {b : UInt8} (h : i < bytes.length)
    (before : Nat → UInt8) : received bytes before i = b ↔ bytes[i]? = some b := by
  simp [received, List.getElem?_eq_getElem h]

theorem reads_inside (bytes : List UInt8) (before : Nat → UInt8) :
    (∀ i ∈ reads (received bytes before), i < bytes.length) ↔ Covers bytes := by
  simp only [mem_reads]
  constructor
  · intro h
    have hfirst : 0 < bytes.length := h 0 (.inl rfl)
    by_cases hboth : received bytes before 0 = clickBoth
    · exact .inr (.inr ((received_eq hfirst before).mp hboth))
    have hthird : 2 < bytes.length := h 2 (.inr ⟨hboth, .inl rfl⟩)
    by_cases hfour : 4 ≤ bytes.length
    · exact .inl hfour
    -- the fourth byte is not there, so it is not read either
    have hunread : ¬(0 < received bytes before 2
        ∨ (received bytes before 0 ≠ clickLeft ∧ received bytes before 0 ≠ clickRight)) :=
      fun hread => hfour (h 3 (.inr ⟨hboth, .inr ⟨rfl, hread⟩⟩))
    obtain ⟨hzero, hclick⟩ := not_or.mp hunread
    have hzero : received bytes before 2 = 0 := UInt8.le_zero_iff.mp (UInt8.not_lt.mp hzero)
    refine .inr (.inl ⟨by omega, (received_eq hthird before).mp hzero, ?_⟩)
    rw [← received_eq hfirst before, ← received_eq hfirst before]
    exact or_iff_not_and_not.mpr hclick
  · intro hcovers i hread
    rcases hcovers with hfour | ⟨hthree, hzero, hclick⟩ | hboth
    · omega
    · have hzero := (received_eq (by omega) before).mpr hzero
      rw [← received_eq (by omega) before, ← received_eq (by omega) before] at hclick
      rcases hread with rfl | ⟨-, rfl | ⟨rfl, hdit | hneither⟩⟩
      · omega
      · omega
      · exact absurd (hzero ▸ hdit) UInt8.not_lt_zero
      · exact absurd hclick (not_or.mpr hneither)
    · have hfirst : 0 < bytes.length := (List.getElem?_eq_some_iff.mp hboth).1
      rcases hread with rfl | ⟨hneither, -⟩
      · exact hfirst
      · exact absurd ((received_eq hfirst before).mpr hboth) hneither

/-- The requests and the reads stay inside exactly if a pointer fits into a
packet that the probe can claim and the bytes cover the reads. -/
theorem transfers_inside_iff (claimed : Bool) (outcome : Nat → Int × Int) (iface : DeviceInterface)
    (bytes : List UInt8) (before : Nat → UInt8) :
    StaysInside claimed outcome iface bytes before
      ↔ (claimed = true → 8 ≤ iface.packetSize) ∧ Covers bytes := by
  constructor
  · intro h
    exact ⟨(tryToRead_fits claimed outcome iface).mp h.tryToRead,
      (reads_inside bytes before).mp h.cbInterrupt⟩
  · rintro ⟨hpacketSize, hcovers⟩
    exact {
      tryToRead := (tryToRead_fits claimed outcome iface).mpr hpacketSize
      taskRunnable := taskRunnable_fits claimed iface
      cbInterrupt := (reads_inside bytes before).mpr hcovers }

/-- The click adapter in `Device.h` has packets of 4 bytes, and the probe
asks for 8. -/
theorem smallPackets_overrun :
    ¬∀ (altSetting : InterfaceDescriptor) (endpoint : EndpointDescriptor),
      1 ≤ endpoint.wMaxPacketSize → ∀ claimed outcome bytes before,
        StaysInside claimed outcome (altSetting.iface endpoint) bytes before := by
  intro h
  have hinside := h ⟨1, [⟨0x82, 4⟩]⟩ ⟨0x82, 4⟩ (by decide) true (fun _ => (-7, 0)) [0, 0, 0, 0]
    (fun _ => 0)
  exact absurd ((tryToRead_fits _ _ _).mp hinside.tryToRead rfl) (by decide)

end CwKeyer
