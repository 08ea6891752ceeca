import Mathlib.Data.Nat.Bitwise
import Mathlib.Tactic.Ring

/-!
# WebSocket text frames, as a server reads them

The receiving side of RFC 6455 for unfragmented text messages from a
client: FIN and opcode byte, mask bit and 7-bit length, extended length of
16 or 64 bits in network order (the shortest one that fits, the top bit of
a 64-bit one clear), masking key, masked payload. `parse` splits a byte
stream into the messages of its complete frames and what is left over.

`Frames f line` says that the bytes `f` are one complete frame of `line`,
whatever follows them. From that alone: a stream of such frames parses to
its lines (`parse_frames`), and a frame cut short is left over
(`parseFrame_cut`).
-/

namespace CwKeyer.WebSocket

/-- An unsigned number in network byte order. -/
def bigEndian (bytes : List UInt8) : Nat := bytes.foldl (fun n b => 256 * n + b.toNat) 0

theorem mod_four_lt (i : Nat) : i % 4 < 4 := Nat.mod_lt i (by decide)

/-- Masks or unmasks a payload: byte `i` with byte `i % 4` of the key. -/
def applyMask (key : Vector UInt8 4) (payload : List UInt8) : List UInt8 :=
  payload.mapIdx fun i b => b ^^^ key.get ⟨i % 4, mod_four_lt i⟩

/-- The payload length, from the 7-bit length and the bytes after it, and
the bytes after the extended length. -/
def payloadLength (length7 : Nat) (bytes : List UInt8) : Option (Nat × List UInt8) :=
  if length7 < 126 then some (length7, bytes)
  else if length7 = 126 then
    if 2 ≤ bytes.length ∧ 126 ≤ bigEndian (bytes.take 2) then
      some (bigEndian (bytes.take 2), bytes.drop 2)
    else none
  else if 8 ≤ bytes.length ∧ 2 ^ 16 ≤ bigEndian (bytes.take 8) ∧
      bigEndian (bytes.take 8) < 2 ^ 63 then
    some (bigEndian (bytes.take 8), bytes.drop 8)
  else none

/-- The payload of the given length after its masking key, and the rest. -/
def parsePayload (length : Nat) : List UInt8 → Option (List UInt8 × List UInt8)
  | k₀ :: k₁ :: k₂ :: k₃ :: bytes =>
      if length ≤ bytes.length then
        some (applyMask #v[k₀, k₁, k₂, k₃] (bytes.take length), bytes.drop length)
      else none
  | _ => none

/-- The first frame of a stream, and the rest. -/
def parseFrame : List UInt8 → Option (List UInt8 × List UInt8)
  | opcode :: length :: bytes =>
      if opcode = 0x81 ∧ length &&& 0x80 ≠ 0 then
        (payloadLength (length &&& 0x7f).toNat bytes).bind fun r => parsePayload r.1 r.2
      else none
  | _ => none

def parseFrames : Nat → List UInt8 → List (List UInt8) × List UInt8
  | 0, bytes => ([], bytes)
  | fuel + 1, bytes =>
      match parseFrame bytes with
      | none => ([], bytes)
      | some (line, rest) =>
          let (lines, leftover) := parseFrames fuel rest
          (line :: lines, leftover)

/-- The messages of a stream and the bytes that are no complete frame. A
frame takes a byte at least, so the length is fuel enough. -/
def parse (bytes : List UInt8) : List (List UInt8) × List UInt8 :=
  parseFrames bytes.length bytes

/-! ## Numbers and masks -/

theorem bigEndian_cons (b : UInt8) (bytes : List UInt8) :
    bigEndian (b :: bytes) = b.toNat * 256 ^ bytes.length + bigEndian bytes := by
  have hfold : ∀ (bytes : List UInt8) (n : Nat),
      bytes.foldl (fun n b => 256 * n + b.toNat) n = n * 256 ^ bytes.length + bigEndian bytes := by
    intro bytes
    induction bytes with
    | nil => intro n; simp [bigEndian]
    | cons b bytes ih =>
        intro n
        rw [bigEndian, List.foldl_cons, List.foldl_cons, ih, ih (256 * 0 + b.toNat)]
        simp only [List.length_cons, pow_succ]
        ring
  simpa [bigEndian] using hfold bytes b.toNat

/-- The low byte of a number. -/
def lowByte (n : Nat) : UInt8 := UInt8.ofNat (n &&& 0xFF)

theorem lowByte_toNat (n : Nat) : (lowByte n).toNat = n % 256 := by
  rw [lowByte, show (0xFF : Nat) = 2 ^ 8 - 1 from rfl, Nat.and_two_pow_sub_one_eq_mod]
  simp

/-- The last `width` bytes of a number, written out. -/
theorem bigEndian_bytes (n width : Nat) :
    bigEndian ((List.range width).reverse.map fun i => lowByte (n >>> (8 * i))) =
      n % 256 ^ width := by
  induction width with
  | zero => simp [bigEndian, Nat.mod_one]
  | succ width ih =>
      rw [List.range_succ, List.reverse_append, List.reverse_singleton, List.singleton_append,
        List.map_cons, bigEndian_cons, ih, lowByte_toNat, Nat.shiftRight_eq_div_pow,
        Nat.mod_pow_succ]
      simp only [List.length_map, List.length_reverse, List.length_range, pow_mul]
      norm_num
      ring

@[simp] theorem applyMask_length (key : Vector UInt8 4) (payload : List UInt8) :
    (applyMask key payload).length = payload.length := by
  simp [applyMask]

/-- Unmasking is masking again. -/
@[simp] theorem applyMask_applyMask (key : Vector UInt8 4) (payload : List UInt8) :
    applyMask key (applyMask key payload) = payload := by
  apply List.ext_getElem (by simp)
  intro i h _
  simp only [applyMask, List.getElem_mapIdx]
  rw [UInt8.xor_assoc, UInt8.xor_self, UInt8.xor_zero]

/-! ## Frames in a stream -/

/-- The bytes `f` are a complete frame of `line`. -/
def Frames (f line : List UInt8) : Prop := ∀ rest, parseFrame (f ++ rest) = some (line, rest)

theorem Frames.ne_nil {f line : List UInt8} (h : Frames f line) : f ≠ [] := by
  rintro rfl
  cases h []

theorem payloadLength_append {length7 : Nat} {bytes more : List UInt8} {r : Nat × List UInt8}
    (h : payloadLength length7 bytes = some r) :
    payloadLength length7 (bytes ++ more) = some (r.1, r.2 ++ more) := by
  unfold payloadLength at h ⊢
  split_ifs at h with h₁ h₂ h₃ h₄
  · obtain rfl := Option.some.inj h
    rw [if_pos h₁]
  · obtain rfl := Option.some.inj h
    rw [if_neg h₁, if_pos h₂, List.take_append_of_le_length h₃.1,
      List.drop_append_of_le_length h₃.1, if_pos ⟨by simp; omega, h₃.2⟩]
  · obtain rfl := Option.some.inj h
    rw [if_neg h₁, if_neg h₂, List.take_append_of_le_length h₄.1,
      List.drop_append_of_le_length h₄.1, if_pos ⟨by simp; omega, h₄.2⟩]

theorem parsePayload_append {length : Nat} {bytes more : List UInt8}
    {r : List UInt8 × List UInt8} (h : parsePayload length bytes = some r) :
    parsePayload length (bytes ++ more) = some (r.1, r.2 ++ more) := by
  unfold parsePayload at h
  split at h
  case h_1 k₀ k₁ k₂ k₃ bytes =>
    obtain ⟨hle, hr⟩ := Option.ite_none_right_eq_some.mp h
    obtain rfl := Option.some.inj hr
    simp only [List.cons_append, parsePayload]
    rw [if_pos (by simp; omega), List.take_append_of_le_length hle,
      List.drop_append_of_le_length hle]
  case h_2 => cases h

/-- What follows a complete frame does not change how it is read. -/
theorem parseFrame_append {bytes more line rest : List UInt8}
    (h : parseFrame bytes = some (line, rest)) :
    parseFrame (bytes ++ more) = some (line, rest ++ more) := by
  unfold parseFrame at h
  split at h
  case h_1 opcode length bytes =>
    obtain ⟨hhead, h⟩ := Option.ite_none_right_eq_some.mp h
    obtain ⟨r, hlength, hpayload⟩ := Option.bind_eq_some_iff.mp h
    simp only [List.cons_append, parseFrame, if_pos hhead, payloadLength_append hlength,
      Option.bind_some]
    exact parsePayload_append hpayload
  case h_2 => cases h

/-- A frame that is cut short is not read. -/
theorem parseFrame_cut {f line cut : List UInt8} (h : Frames f line) (hcut : cut <+: f)
    (hne : cut ≠ f) : parseFrame cut = none := by
  obtain ⟨more, rfl⟩ := hcut
  cases hparse : parseFrame cut with
  | none => rfl
  | some r =>
      obtain ⟨line', rest⟩ := r
      have hwhole := h []
      rw [List.append_nil, parseFrame_append hparse] at hwhole
      have hrest : rest ++ more = [] := congrArg Prod.snd (Option.some.inj hwhole)
      exact absurd (by simp [(List.append_eq_nil_iff.mp hrest).2]) hne

theorem parseFrames_frames {frames : List (List UInt8 × List UInt8)}
    (h : ∀ fl ∈ frames, Frames fl.1 fl.2) {leftover : List UInt8}
    (hleft : parseFrame leftover = none) :
    ∀ fuel, frames.length ≤ fuel →
      parseFrames fuel ((frames.map Prod.fst).flatten ++ leftover) =
        (frames.map Prod.snd, leftover) := by
  induction frames with
  | nil =>
      intro fuel _
      cases fuel with
      | zero => rfl
      | succ fuel => simp [parseFrames, hleft]
  | cons fl frames ih =>
      intro fuel hfuel
      obtain ⟨fuel, rfl⟩ : ∃ k, fuel = k + 1 := ⟨fuel - 1, by simp at hfuel; omega⟩
      have hhead : Frames fl.1 fl.2 := h fl (by simp)
      have htail := ih (fun fl' hfl => h fl' (by simp [hfl])) fuel (by simpa using hfuel)
      simp only [List.map_cons, List.flatten_cons, List.append_assoc, parseFrames, hhead _, htail]

theorem length_le_flatten {frames : List (List UInt8 × List UInt8)}
    (h : ∀ fl ∈ frames, Frames fl.1 fl.2) :
    frames.length ≤ ((frames.map Prod.fst).flatten).length := by
  induction frames with
  | nil => simp
  | cons fl frames ih =>
      have hne : fl.1.length ≠ 0 := by
        simpa using (h fl (by simp)).ne_nil
      have := ih fun fl' hfl => h fl' (by simp [hfl])
      simp only [List.map_cons, List.flatten_cons, List.length_append, List.length_cons]
      omega

/-- A stream of frames parses to their lines; what is no frame is left
over. -/
theorem parse_frames {frames : List (List UInt8 × List UInt8)}
    (h : ∀ fl ∈ frames, Frames fl.1 fl.2) {leftover : List UInt8}
    (hleft : parseFrame leftover = none) :
    parse ((frames.map Prod.fst).flatten ++ leftover) = (frames.map Prod.snd, leftover) := by
  refine parseFrames_frames h hleft _ ?_
  rw [List.length_append]
  exact Nat.le_add_right_of_le (length_le_flatten h)

end CwKeyer.WebSocket
