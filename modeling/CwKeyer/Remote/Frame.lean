import CwKeyer.WebSocket

/-!
# The frames of `RemoteClient::sendLine`

`sendLine` encodes a line as one masked text frame. Its length field has
three forms; in each the server reads back the line, whatever follows
(`frames_frame`).
-/

namespace CwKeyer

open WebSocket

namespace RemoteClient

/-- The payload length with the mask bit set, in 7, 16 or 64 bits. -/
def lengthField (size : Nat) : List UInt8 :=
  if size ≤ 125 then [UInt8.ofNat (0x80 ||| size)]
  else if size ≤ 0xFFFF then
    [UInt8.ofNat (0x80 ||| 126), UInt8.ofNat ((size >>> 8) &&& 0xFF), UInt8.ofNat (size &&& 0xFF)]
  else
    UInt8.ofNat (0x80 ||| 127) ::
      [7, 6, 5, 4, 3, 2, 1, 0].map fun i => UInt8.ofNat ((size >>> (8 * i)) &&& 0xFF)

/-- The frame of a line, for the mask key that `rand` gave. -/
def frame (line : List UInt8) (maskKey : Vector UInt8 4) : List UInt8 :=
  0x81 :: lengthField line.length ++ maskKey.toList ++
    line.mapIdx fun i byte => byte ^^^ maskKey.get ⟨i % 4, WebSocket.mod_four_lt i⟩

end RemoteClient

/-! ## The server reads them back -/

namespace WebSocket

theorem maskKey_cases (key : Vector UInt8 4) : ∃ k₀ k₁ k₂ k₃, key = #v[k₀, k₁, k₂, k₃] := by
  obtain ⟨⟨bytes⟩, hsize⟩ := key
  match bytes, hsize with
  | [k₀, k₁, k₂, k₃], _ => exact ⟨k₀, k₁, k₂, k₃, rfl⟩

theorem parsePayload_masked (line rest : List UInt8) (maskKey : Vector UInt8 4) :
    parsePayload line.length (maskKey.toList ++ applyMask maskKey line ++ rest) =
      some (line, rest) := by
  obtain ⟨k₀, k₁, k₂, k₃, rfl⟩ := maskKey_cases maskKey
  have hlen := applyMask_length #v[k₀, k₁, k₂, k₃] line
  show parsePayload line.length (k₀ :: k₁ :: k₂ :: k₃ ::
    (applyMask #v[k₀, k₁, k₂, k₃] line ++ rest)) = _
  rw [parsePayload, if_pos (by simp), List.take_left' hlen, List.drop_left' hlen,
    applyMask_applyMask]

/-- The 7-bit length of a short line, under the mask bit. -/
theorem shortLength : ∀ size ≤ 127, UInt8.ofNat (0x80 ||| size) &&& 0x80 ≠ 0 ∧
    (UInt8.ofNat (0x80 ||| size) &&& 0x7f).toNat = size := by
  decide

theorem parseFrame_cons {length : UInt8} {bytes : List UInt8} (hmask : length &&& 0x80 ≠ 0) :
    parseFrame (0x81 :: length :: bytes) =
      (payloadLength (length &&& 0x7f).toNat bytes).bind fun r => parsePayload r.1 r.2 := by
  rw [parseFrame, if_pos ⟨rfl, hmask⟩]

theorem payloadLength_16 {size : Nat} (h : 125 < size) (hmax : size ≤ 0xFFFF)
    (rest : List UInt8) :
    payloadLength 126 (UInt8.ofNat ((size >>> 8) &&& 0xFF) :: UInt8.ofNat (size &&& 0xFF) :: rest) =
      some (size, rest) := by
  have hsize : bigEndian [lowByte (size >>> 8), lowByte size] = size := by
    have := bigEndian_bytes size 2
    rw [Nat.mod_eq_of_lt (by norm_num; omega)] at this
    exact this
  show payloadLength 126 (lowByte (size >>> 8) :: lowByte size :: rest) = _
  rw [payloadLength, if_neg (by decide), if_pos rfl]
  simp only [List.take_succ_cons, List.take_zero, List.drop_succ_cons, List.drop_zero, hsize]
  rw [if_pos ⟨by simp, by omega⟩]

theorem payloadLength_64 {size : Nat} (h : 0xFFFF < size) (hmax : size < 2 ^ 63)
    (rest : List UInt8) :
    payloadLength 127 (([7, 6, 5, 4, 3, 2, 1, 0].map fun i =>
      UInt8.ofNat ((size >>> (8 * i)) &&& 0xFF)) ++ rest) = some (size, rest) := by
  have hsize : bigEndian ([7, 6, 5, 4, 3, 2, 1, 0].map fun i => lowByte (size >>> (8 * i))) =
      size := by
    have := bigEndian_bytes size 8
    rw [Nat.mod_eq_of_lt (by norm_num; omega)] at this
    exact this
  show payloadLength 127 (([7, 6, 5, 4, 3, 2, 1, 0].map fun i => lowByte (size >>> (8 * i))) ++
    rest) = _
  rw [payloadLength, if_neg (by decide), if_neg (by decide), List.take_left' (by simp),
    List.drop_left' (by simp), hsize, if_pos ⟨by simp, by omega, hmax⟩]

/-- The frame of a line is a frame of it. -/
theorem frames_frame {line : List UInt8} (hsize : line.length < 2 ^ 63)
    (maskKey : Vector UInt8 4) : Frames (RemoteClient.frame line maskKey) line := by
  intro rest
  have hpayload := parsePayload_masked line rest maskKey
  rw [List.append_assoc] at hpayload
  rw [RemoteClient.frame, RemoteClient.lengthField]
  rcases Nat.lt_or_ge 125 line.length with hlong | hshort
  · rcases Nat.lt_or_ge 0xFFFF line.length with hhuge | hmedium
    · rw [if_neg (by omega), if_neg (by omega)]
      simp only [List.cons_append, List.append_assoc]
      rw [parseFrame_cons (shortLength 127 (by decide)).1, (shortLength 127 (by decide)).2,
        payloadLength_64 hhuge hsize, Option.bind_some]
      exact hpayload
    · rw [if_neg (by omega), if_pos hmedium]
      simp only [List.cons_append, List.append_assoc, List.nil_append]
      rw [parseFrame_cons (shortLength 126 (by decide)).1, (shortLength 126 (by decide)).2,
        payloadLength_16 hlong hmedium, Option.bind_some]
      exact hpayload
  · rw [if_pos hshort]
    simp only [List.cons_append, List.append_assoc, List.nil_append]
    obtain ⟨hmask, hlength⟩ := shortLength line.length (by omega)
    rw [parseFrame_cons hmask, hlength, payloadLength, if_pos (by omega), Option.bind_some]
    exact hpayload

end WebSocket

end CwKeyer
