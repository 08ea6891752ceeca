import CwKeyer.Base64
import CwKeyer.Remote.Handshake

/-!
# The key of the handshake

`base64Encode` goes through the bytes by index, and the last group reads
zeros past the end. It is the encoding with the standard alphabet
(`base64Encode_eq`): `table` lists the 64 characters, and the shifts cut a
triple into its four digits. So a decoder returns the bytes
(`base64Encode_inverted`).
-/

namespace CwKeyer

namespace RemoteClient

open Alphabet

/-- The loop of `base64Encode` from index `i` on. -/
def base64Loop (data : List UInt8) (i : Nat) : List Char :=
  if i < data.length then
    let octetA := data.getD i 0
    let octetB := if i + 1 < data.length then data.getD (i + 1) 0 else 0
    let octetC := if i + 2 < data.length then data.getD (i + 2) 0 else 0
    let triple := triple octetA octetB octetC
    sextet triple 18 :: sextet triple 12 ::
      (if i + 1 < data.length then sextet triple 6 else '=') ::
      (if i + 2 < data.length then sextet triple 0 else '=') ::
      base64Loop data (i + 3)
  else []
termination_by data.length - i

/-! ## The loop -/

/-- From index `i` on the loop encodes what is left there. -/
theorem base64Loop_eq (data : List UInt8) (i : Nat) :
    base64Loop data i = base64Encode (data.drop i) := by
  induction i using base64Loop.induct data with
  | case1 i hi ih =>
      have hlt (k : Nat) : i + k < data.length ↔ k < (data.drop i).length := by
        rw [List.length_drop]
        omega
      have hget (k : Nat) : data.getD (i + k) 0 = (data.drop i).getD k 0 := by
        simp [List.getD_eq_getElem?_getD]
      rw [← List.drop_drop] at ih
      rw [base64Loop, ih, if_pos hi]
      simp only [hlt 1, hlt 2, hget 1, hget 2, show data.getD i 0 = _ from hget 0]
      have hleft : 0 < (data.drop i).length := (hlt 0).mp hi
      revert hleft
      generalize data.drop i = left
      intro hleft
      match left, hleft with
      | [a], _ => rfl
      | [a, b], _ => rfl
      | a :: b :: c :: rest, _ => simp [base64Encode]
  | case2 i hi =>
      rw [base64Loop, if_neg hi, List.drop_eq_nil_of_le (Nat.le_of_not_lt hi)]
      rfl

/-! ## The digits of a triple -/

section Digits

variable {a b c : UInt8}

/-- The shifted octets do not overlap. -/
theorem triple_eq : triple a b c = a.toNat * 65536 + b.toNat * 256 + c.toNat := by
  have hb := b.toNat_lt
  have hc := c.toNat_lt
  have hlow : b.toNat <<< 8 ||| c.toNat = b.toNat * 256 + c.toNat := by
    rw [← Nat.shiftLeft_add_eq_or_of_lt hc, Nat.shiftLeft_eq]
  have hlt : b.toNat * 256 + c.toNat < 2 ^ 16 := by omega
  rw [triple, Nat.or_assoc, hlow, ← Nat.shiftLeft_add_eq_or_of_lt hlt, Nat.shiftLeft_eq,
    Nat.add_assoc]

theorem sextet_eq {t shift : Nat} : sextet t shift = standard.digit (t / 2 ^ shift % 64) := by
  have hmask : (t >>> shift) &&& 0x3F = t / 2 ^ shift % 64 := by
    rw [Nat.shiftRight_eq_div_pow]
    exact Nat.and_two_pow_sub_one_eq_mod _ 6
  rw [sextet, hmask]
  rfl

theorem sextet_triple₁ : sextet (triple a b c) 18 = standard.digit (sextet₁ a) := by
  have ha := a.toNat_lt
  have hb := b.toNat_lt
  have hc := c.toNat_lt
  rw [sextet_eq, triple_eq, sextet₁]
  congr 1
  omega

theorem sextet_triple₂ : sextet (triple a b c) 12 = standard.digit (sextet₂ a b) := by
  have hb := b.toNat_lt
  have hc := c.toNat_lt
  rw [sextet_eq, triple_eq, sextet₂]
  congr 1
  omega

theorem sextet_triple₃ : sextet (triple a b c) 6 = standard.digit (sextet₃ b c) := by
  have hc := c.toNat_lt
  rw [sextet_eq, triple_eq, sextet₃]
  congr 1
  omega

theorem sextet_triple₄ : sextet (triple a b c) 0 = standard.digit (sextet₄ c) := by
  rw [sextet_eq, triple_eq, sextet₄]
  congr 1
  omega

end Digits

theorem base64Encode_eq (data : List UInt8) : base64Encode data = standard.encode data := by
  induction data using base64Encode.induct with
  | case1 => rfl
  | case2 a =>
      rw [base64Encode, encode, sextet_triple₁, sextet_triple₂]
      rfl
  | case3 a b =>
      rw [base64Encode, encode, sextet_triple₁, sextet_triple₂, sextet_triple₃]
      rfl
  | case4 a b c data ih =>
      rw [base64Encode, encode, sextet_triple₁, sextet_triple₂, sextet_triple₃, sextet_triple₄, ih]

/-- The length, the padding at the end, and a decoder returns the bytes. -/
theorem base64Encode_inverted :
    (∀ data, base64Encode data = base64Loop data 0 ∧
      (base64Encode data).length = 4 * ((data.length + 2) / 3) ∧
      (∃ digits, base64Encode data = digits ++ List.replicate (padding data.length) '=' ∧
        ∀ c ∈ digits, c ∈ standard.chars) ∧
      standard.decode (base64Encode data) = some data) ∧
    Function.Injective base64Encode := by
  rw [show base64Encode = standard.encode from funext base64Encode_eq]
  refine ⟨fun data => ⟨?_, ?_, ?_, ?_⟩, encode_injective⟩
  · rw [← base64Encode_eq]
    exact (base64Loop_eq data 0).symm
  · exact standard.length_encode data
  · exact standard.encode_eq_append data
  · exact decode_encode data

end RemoteClient

end CwKeyer
