import Mathlib.Data.List.Nodup

/-!
# Base 64

The encoding of RFC 4648 over any alphabet of 64 characters. Three bytes
are four digits of six bits each. One or two bytes at the end are filled up
with zero bits, and with padding to four characters.

The decoder takes the characters in groups of four. It rejects characters
outside of the alphabet, padding elsewhere than at the end, and a digit
before the padding with bits that no byte has: so it accepts the encodings
and nothing else (`decode_eq_some_iff`).
-/

namespace CwKeyer

/-- The characters in the order of their values, and the padding. -/
structure Alphabet (γ : Type) where
  chars : List γ
  pad : γ
  length_chars : chars.length = 64
  nodup : chars.Nodup
  pad_notMem : pad ∉ chars

namespace Alphabet

variable {γ : Type} (A : Alphabet γ)

/-! ## Digits -/

/-- The character of a value below 64. -/
def digit (v : Nat) : γ := A.chars.getD v A.pad

/-- The value of a character of the alphabet. -/
def value [DecidableEq γ] (c : γ) : Option Nat :=
  if c ∈ A.chars then some (A.chars.idxOf c) else none

section Digits

variable {A} {v : Nat}

theorem digit_eq_getElem (hv : v < A.chars.length) : A.digit v = A.chars[v] :=
  (List.getElem_eq_getD A.pad).symm

theorem digit_mem (hv : v < 64) : A.digit v ∈ A.chars := by
  rw [← A.length_chars] at hv
  rw [digit_eq_getElem hv]
  exact List.getElem_mem hv

theorem digit_ne_pad (hv : v < 64) : A.digit v ≠ A.pad := by
  intro heq
  exact A.pad_notMem (heq ▸ digit_mem hv)

variable [DecidableEq γ]

theorem value_digit (hv : v < 64) : A.value (A.digit v) = some v := by
  rw [value, if_pos (digit_mem hv)]
  rw [← A.length_chars] at hv
  rw [digit_eq_getElem hv]
  exact congrArg some (List.Nodup.idxOf_getElem A.nodup v hv)

theorem value_eq_some {c : γ} (h : A.value c = some v) : v < 64 ∧ A.digit v = c := by
  unfold value at h
  split at h
  case isTrue hmem =>
    obtain rfl := Option.some.inj h
    have hlt := List.idxOf_lt_length_of_mem hmem
    refine ⟨Nat.lt_of_lt_of_eq hlt A.length_chars, ?_⟩
    rw [digit_eq_getElem hlt]
    exact List.getElem_idxOf hlt
  case isFalse => cases h

end Digits

/-! ## Encoding and decoding -/

/-- The six bits from the bytes before and after. -/
def sextet₁ (a : UInt8) : Nat := a.toNat / 4
def sextet₂ (a b : UInt8) : Nat := a.toNat % 4 * 16 + b.toNat / 16
def sextet₃ (b c : UInt8) : Nat := b.toNat % 16 * 4 + c.toNat / 64
def sextet₄ (c : UInt8) : Nat := c.toNat % 64

def encode : List UInt8 → List γ
  | [] => []
  | [a] => [A.digit (sextet₁ a), A.digit (sextet₂ a 0), A.pad, A.pad]
  | [a, b] => [A.digit (sextet₁ a), A.digit (sextet₂ a b), A.digit (sextet₃ b 0), A.pad]
  | a :: b :: c :: data =>
      A.digit (sextet₁ a) :: A.digit (sextet₂ a b) :: A.digit (sextet₃ b c) ::
        A.digit (sextet₄ c) :: encode data

/-- The byte that two neighbouring digits share. -/
def byte₁ (x y : Nat) : UInt8 := .ofNat (x * 4 + y / 16)
def byte₂ (y z : Nat) : UInt8 := .ofNat (y % 16 * 16 + z / 4)
def byte₃ (z w : Nat) : UInt8 := .ofNat (z % 4 * 64 + w)

/-- The last group, which ends with the padding. -/
def decodePadded [DecidableEq γ] (a b c : γ) : Option (List UInt8) := do
  let x ← A.value a
  let y ← A.value b
  if c = A.pad then
    if y % 16 = 0 then return [byte₁ x y] else none
  else
    let z ← A.value c
    if z % 4 = 0 then return [byte₁ x y, byte₂ y z] else none

def decode [DecidableEq γ] : List γ → Option (List UInt8)
  | [] => some []
  | a :: b :: c :: d :: text =>
      if d = A.pad then if text = [] then A.decodePadded a b c else none
      else do
        let x ← A.value a
        let y ← A.value b
        let z ← A.value c
        let w ← A.value d
        let data ← decode text
        return byte₁ x y :: byte₂ y z :: byte₃ z w :: data
  | _ => none

/-! ### Bits -/

section Bits

variable {a b c : UInt8} {x y z w : Nat}

@[simp] theorem sextet₁_lt : sextet₁ a < 64 := by
  have := a.toNat_lt
  unfold sextet₁
  omega

@[simp] theorem sextet₂_lt : sextet₂ a b < 64 := by
  have := b.toNat_lt
  unfold sextet₂
  omega

@[simp] theorem sextet₃_lt : sextet₃ b c < 64 := by
  have := c.toNat_lt
  unfold sextet₃
  omega

@[simp] theorem sextet₄_lt : sextet₄ c < 64 := Nat.mod_lt _ (by decide)

@[simp] theorem byte₁_sextet : byte₁ (sextet₁ a) (sextet₂ a b) = a := by
  have := b.toNat_lt
  have hbits : sextet₁ a * 4 + sextet₂ a b / 16 = a.toNat := by
    unfold sextet₁ sextet₂
    omega
  rw [byte₁, hbits, UInt8.ofNat_toNat]

@[simp] theorem byte₂_sextet : byte₂ (sextet₂ a b) (sextet₃ b c) = b := by
  have := b.toNat_lt
  have := c.toNat_lt
  have hbits : sextet₂ a b % 16 * 16 + sextet₃ b c / 4 = b.toNat := by
    unfold sextet₂ sextet₃
    omega
  rw [byte₂, hbits, UInt8.ofNat_toNat]

@[simp] theorem byte₃_sextet : byte₃ (sextet₃ b c) (sextet₄ c) = c := by
  have := c.toNat_lt
  have hbits : sextet₃ b c % 4 * 64 + sextet₄ c = c.toNat := by
    unfold sextet₃ sextet₄
    omega
  rw [byte₃, hbits, UInt8.ofNat_toNat]

/-- The bits that were filled up. -/
@[simp] theorem sextet₂_fill : sextet₂ a 0 % 16 = 0 := Nat.mul_mod_left _ _

@[simp] theorem sextet₃_fill : sextet₃ b 0 % 4 = 0 := Nat.mul_mod_left _ _

theorem toNat_byte₁ (hx : x < 64) (hy : y < 64) : (byte₁ x y).toNat = x * 4 + y / 16 :=
  UInt8.toNat_ofNat_of_lt' (show _ < 256 by omega)

theorem toNat_byte₂ (hz : z < 64) : (byte₂ y z).toNat = y % 16 * 16 + z / 4 :=
  UInt8.toNat_ofNat_of_lt' (show _ < 256 by omega)

theorem toNat_byte₃ (hw : w < 64) : (byte₃ z w).toNat = z % 4 * 64 + w :=
  UInt8.toNat_ofNat_of_lt' (show _ < 256 by omega)

theorem sextet₁_byte (hx : x < 64) (hy : y < 64) : sextet₁ (byte₁ x y) = x := by
  rw [sextet₁, toNat_byte₁ hx hy]
  omega

theorem sextet₂_byte (hx : x < 64) (hy : y < 64) (hz : z < 64) :
    sextet₂ (byte₁ x y) (byte₂ y z) = y := by
  rw [sextet₂, toNat_byte₁ hx hy, toNat_byte₂ hz]
  omega

theorem sextet₃_byte (hz : z < 64) (hw : w < 64) : sextet₃ (byte₂ y z) (byte₃ z w) = z := by
  rw [sextet₃, toNat_byte₂ hz, toNat_byte₃ hw]
  omega

theorem sextet₄_byte (hw : w < 64) : sextet₄ (byte₃ z w) = w := by
  rw [sextet₄, toNat_byte₃ hw]
  omega

theorem sextet₂_last (hx : x < 64) (hy : y < 64) (hfill : y % 16 = 0) :
    sextet₂ (byte₁ x y) 0 = y := by
  rw [sextet₂, toNat_byte₁ hx hy]
  show (x * 4 + y / 16) % 4 * 16 + 0 = y
  omega

theorem sextet₃_last (hz : z < 64) (hfill : z % 4 = 0) : sextet₃ (byte₂ y z) 0 = z := by
  rw [sextet₃, toNat_byte₂ hz]
  show (y % 16 * 16 + z / 4) % 16 * 4 + 0 = z
  omega

end Bits

/-! ### The round trip -/

section RoundTrip

variable {A} [DecidableEq γ]

theorem decode_encode (data : List UInt8) : A.decode (A.encode data) = some data := by
  induction data using encode.induct with
  | case1 => rfl
  | case2 a => simp [encode, decode, decodePadded, value_digit]
  | case3 a b => simp [encode, decode, decodePadded, value_digit, digit_ne_pad]
  | case4 a b c data ih => simp [encode, decode, value_digit, digit_ne_pad, ih]

theorem encode_injective : Function.Injective A.encode := by
  intro data data' heq
  have hdecode := congrArg A.decode heq
  rw [decode_encode, decode_encode] at hdecode
  exact Option.some.inj hdecode

theorem encode_of_decodePadded {a b c : γ} {data : List UInt8}
    (h : A.decodePadded a b c = some data) : A.encode data = [a, b, c, A.pad] := by
  obtain ⟨x, hx, hrest⟩ := Option.bind_eq_some_iff.mp h
  obtain ⟨y, hy, hlast⟩ := Option.bind_eq_some_iff.mp hrest
  obtain ⟨hx', rfl⟩ := value_eq_some hx
  obtain ⟨hy', rfl⟩ := value_eq_some hy
  by_cases hpad : c = A.pad
  · rw [if_pos hpad] at hlast
    obtain ⟨hfill, hdata⟩ := Option.ite_none_right_eq_some.mp hlast
    obtain rfl := Option.some.inj hdata
    rw [encode, sextet₁_byte hx' hy', sextet₂_last hx' hy' hfill, hpad]
  · rw [if_neg hpad] at hlast
    obtain ⟨z, hz, hdigits⟩ := Option.bind_eq_some_iff.mp hlast
    obtain ⟨hz', rfl⟩ := value_eq_some hz
    obtain ⟨hfill, hdata⟩ := Option.ite_none_right_eq_some.mp hdigits
    obtain rfl := Option.some.inj hdata
    rw [encode, sextet₁_byte hx' hy', sextet₂_byte hx' hy' hz', sextet₃_last hz' hfill]

theorem encode_of_decode : ∀ {text : List γ} {data : List UInt8},
    A.decode text = some data → A.encode data = text
  | [], data, h => by
      obtain rfl := Option.some.inj h
      rfl
  | a :: b :: c :: d :: text, data, h => by
      unfold decode at h
      by_cases hpad : d = A.pad
      · rw [if_pos hpad] at h
        obtain ⟨hend, hlast⟩ := Option.ite_none_right_eq_some.mp h
        rw [encode_of_decodePadded hlast, hend, hpad]
      · rw [if_neg hpad] at h
        simp only [Option.bind_eq_bind, Option.bind_eq_some_iff] at h
        obtain ⟨x, hx, y, hy, z, hz, w, hw, data', htext, hdata⟩ := h
        obtain ⟨hx', rfl⟩ := value_eq_some hx
        obtain ⟨hy', rfl⟩ := value_eq_some hy
        obtain ⟨hz', rfl⟩ := value_eq_some hz
        obtain ⟨hw', rfl⟩ := value_eq_some hw
        obtain rfl := Option.some.inj hdata
        rw [encode, sextet₁_byte hx' hy', sextet₂_byte hx' hy' hz', sextet₃_byte hz' hw',
          sextet₄_byte hw', encode_of_decode htext]

/-- The decoder accepts the encodings and nothing else. -/
theorem decode_eq_some_iff {text : List γ} {data : List UInt8} :
    A.decode text = some data ↔ A.encode data = text := by
  constructor
  · exact encode_of_decode
  · rintro rfl
    exact decode_encode data

end RoundTrip

/-! ### The text -/

theorem length_encode (data : List UInt8) :
    (A.encode data).length = 4 * ((data.length + 2) / 3) := by
  induction data using encode.induct with
  | case1 => rfl
  | case2 a => simp [encode]
  | case3 a b => simp [encode]
  | case4 a b c data ih =>
      simp only [encode, List.length_cons, ih]
      omega

/-- How many characters of padding end the encoding of `n` bytes. -/
def padding (n : Nat) : Nat := (3 - n % 3) % 3

/-- Digits, and padding at the end. -/
theorem encode_eq_append (data : List UInt8) :
    ∃ digits, A.encode data = digits ++ List.replicate (padding data.length) A.pad ∧
      ∀ c ∈ digits, c ∈ A.chars := by
  induction data using encode.induct with
  | case1 => exact ⟨[], rfl, fun c hc => absurd hc List.not_mem_nil⟩
  | case2 a =>
      refine ⟨[A.digit (sextet₁ a), A.digit (sextet₂ a 0)], by simp [encode, padding], ?_⟩
      simp [digit_mem]
  | case3 a b =>
      refine ⟨[A.digit (sextet₁ a), A.digit (sextet₂ a b), A.digit (sextet₃ b 0)],
        by simp [encode, padding], ?_⟩
      simp [digit_mem]
  | case4 a b c data ih =>
      obtain ⟨digits, hencode, hdigits⟩ := ih
      have hpadding : padding (data.length + 3) = padding data.length := by
        rw [padding, Nat.add_mod_right, padding]
      refine ⟨A.digit (sextet₁ a) :: A.digit (sextet₂ a b) :: A.digit (sextet₃ b c) ::
        A.digit (sextet₄ c) :: digits, ?_, ?_⟩
      · rw [encode, hencode, ← hpadding]
        rfl
      · simpa [digit_mem] using hdigits

/-! ## The standard alphabet -/

/-- `n` characters from `first` on. -/
def consecutive (first : Char) (n : Nat) : List Char :=
  (List.range n).map fun i => .ofNat (first.toNat + i)

def standard : Alphabet Char where
  chars := consecutive 'A' 26 ++ consecutive 'a' 26 ++ consecutive '0' 10 ++ ['+', '/']
  pad := '='
  length_chars := by decide
  nodup := by decide
  pad_notMem := by decide

example : standard.decode "Zm9vYg==".toList = some [102, 111, 111, 98] := by decide

end Alphabet

end CwKeyer
