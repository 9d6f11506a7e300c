import Mathlib.Algebra.GroupWithZero.Nat
import Mathlib.Tactic.Common

/-!
# Base64

The standard alphabet with padding, over byte strings.  `decode` reads one letter
at a time into a bit buffer and stops at the first padding, so it also accepts a
text without padding whose last group is incomplete; `encode` never produces one.
-/

namespace Base64

/-- The padding letter `=`. -/
def pad : UInt8 := 61

/-- The letter of a six-bit number. -/
def letter (sextet : ℕ) : UInt8 :=
  UInt8.ofNat <|
    if sextet < 26 then 65 + sextet
    else if sextet < 52 then 71 + sextet
    else if sextet < 62 then sextet - 4
    else if sextet = 62 then 43
    else 47

/-- The six-bit number of a letter. -/
def sextet (letter : UInt8) : Option ℕ :=
  let code := letter.toNat
  if 65 ≤ code ∧ code ≤ 90 then some (code - 65)
  else if 97 ≤ code ∧ code ≤ 122 then some (code - 71)
  else if 48 ≤ code ∧ code ≤ 57 then some (code + 4)
  else if code = 43 then some 62
  else if code = 47 then some 63
  else none

def encode : List UInt8 → List UInt8
  | [] => []
  | [a] => [letter (a.toNat / 4), letter (a.toNat % 4 * 16), pad, pad]
  | [a, b] =>
      [letter (a.toNat / 4), letter (a.toNat % 4 * 16 + b.toNat / 16), letter (b.toNat % 16 * 4),
        pad]
  | a :: b :: c :: rest =>
      letter (a.toNat / 4) :: letter (a.toNat % 4 * 16 + b.toNat / 16) ::
        letter (b.toNat % 16 * 4 + c.toNat / 64) :: letter (c.toNat % 64) :: encode rest

/-- The rest of a text of `length` letters, read with `bits` bits in the buffer. -/
def decodeFrom (length : ℕ) : ℕ → ℕ → List UInt8 → Option (List UInt8)
  | _, _, [] => some []
  | buffer, bits, code :: rest =>
      match sextet code with
      | some value =>
          let buffer := buffer * 64 + value
          if bits + 6 < 8 then decodeFrom length buffer (bits + 6) rest
          else
            (decodeFrom length (buffer % 2 ^ (bits - 2)) (bits - 2) rest).map
              (UInt8.ofNat (buffer / 2 ^ (bits - 2)) :: ·)
      | none =>
          if code = pad ∧ length % 4 = 0 ∧ (rest = [] ∨ rest = [pad]) then some [] else none

/-- The bytes a text stands for, or nothing when it is not Base64. -/
def decode (text : List UInt8) : Option (List UInt8) := decodeFrom text.length 0 0 text

/-! ## Letters -/

@[simp] theorem sextet_letter {n : ℕ} (h : n < 64) : sextet (letter n) = some n := by
  have hall : ∀ n < 64, sextet (letter n) = some n := by decide
  exact hall n h

@[simp] theorem sextet_pad : sextet pad = none := rfl

/-- The letters an encoding is made of. -/
def alphabet : List UInt8 := pad :: (List.range 64).map letter

theorem letter_mem {n : ℕ} (h : n < 64) : letter n ∈ alphabet :=
  List.mem_cons_of_mem _ (List.mem_map_of_mem (List.mem_range.2 h))

theorem pad_mem : pad ∈ alphabet := List.mem_cons_self

theorem encode_length (bytes : List UInt8) :
    (encode bytes).length = (bytes.length + 2) / 3 * 4 := by
  induction bytes using encode.induct with
  | case1 => rfl
  | case2 => simp [encode]
  | case3 => simp [encode]
  | case4 a b c rest ih =>
      simp only [encode, List.length_cons, ih]
      omega

section
variable {length : ℕ} (a b c : UInt8) (rest : List UInt8)

/-- Four letters bring three bytes and leave the buffer empty. -/
private theorem decodeFrom_group : decodeFrom length 0 0
    (letter (a.toNat / 4) :: letter (a.toNat % 4 * 16 + b.toNat / 16) ::
      letter (b.toNat % 16 * 4 + c.toNat / 64) :: letter (c.toNat % 64) :: rest) =
    (decodeFrom length 0 0 rest).map ([a, b, c] ++ ·) := by
  have ha := a.toNat_lt
  have hb := b.toNat_lt
  have hc := c.toNat_lt
  have hfirst : (a.toNat / 4 * 64 + (a.toNat % 4 * 16 + b.toNat / 16)) / 2 ^ 4 = a.toNat := by omega
  have hkept : (a.toNat / 4 * 64 + (a.toNat % 4 * 16 + b.toNat / 16)) % 2 ^ 4 = b.toNat / 16 := by
    omega
  have hsecond : (b.toNat / 16 * 64 + (b.toNat % 16 * 4 + c.toNat / 64)) / 2 ^ 2 =
      b.toNat := by omega
  have hlast : (b.toNat / 16 * 64 + (b.toNat % 16 * 4 + c.toNat / 64)) % 2 ^ 2 = c.toNat / 64 := by
    omega
  have hthird : c.toNat / 64 * 64 + c.toNat % 64 = c.toNat := by omega
  rw [decodeFrom, sextet_letter (by omega)]
  simp only [Nat.zero_mul, Nat.zero_add, Nat.reduceLT, if_true]
  rw [decodeFrom, sextet_letter (by omega)]
  simp only [Nat.reduceAdd, Nat.reduceLT, if_false, Nat.reduceSub]
  rw [hfirst, hkept, decodeFrom, sextet_letter (by omega)]
  simp only [Nat.reduceAdd, Nat.reduceLT, if_false, Nat.reduceSub]
  rw [hsecond, hlast, decodeFrom, sextet_letter (by omega)]
  simp only [Nat.reduceAdd, Nat.reduceLT, if_false, Nat.reduceSub]
  rw [hthird]
  simp [Option.map_map, Function.comp_def, Nat.mod_one]

end

/-! ## The round trip -/

private theorem decodeFrom_encode {length : ℕ} (hlength : length % 4 = 0) (bytes : List UInt8) :
    decodeFrom length 0 0 (encode bytes) = some bytes := by
  induction bytes using encode.induct with
  | case1 => rfl
  | case2 a =>
      have ha := a.toNat_lt
      -- the second sextet carries the last two bits of the byte and four zeros
      have hbyte : (a.toNat / 4 * 64 + a.toNat % 4 * 16) / 2 ^ 4 = a.toNat := by omega
      rw [encode, decodeFrom, sextet_letter (by omega)]
      simp only [Nat.zero_mul, Nat.zero_add, Nat.reduceLT, if_true]
      rw [decodeFrom, sextet_letter (by omega)]
      simp only [Nat.reduceAdd, Nat.reduceLT, if_false, Nat.reduceSub]
      rw [hbyte, decodeFrom, sextet_pad]
      simp [hlength]
  | case3 a b =>
      have ha := a.toNat_lt
      have hb := b.toNat_lt
      -- the first byte is complete after two sextets, and four bits are left over
      have hfirst : (a.toNat / 4 * 64 + (a.toNat % 4 * 16 + b.toNat / 16)) / 2 ^ 4 = a.toNat := by
        omega
      have hkept : (a.toNat / 4 * 64 + (a.toNat % 4 * 16 + b.toNat / 16)) % 2 ^ 4 =
          b.toNat / 16 := by omega
      have hsecond : (b.toNat / 16 * 64 + b.toNat % 16 * 4) / 2 ^ 2 = b.toNat := by omega
      rw [encode, decodeFrom, sextet_letter (by omega)]
      simp only [Nat.zero_mul, Nat.zero_add, Nat.reduceLT, if_true]
      rw [decodeFrom, sextet_letter (by omega)]
      simp only [Nat.reduceAdd, Nat.reduceLT, if_false, Nat.reduceSub]
      rw [hfirst, hkept, decodeFrom, sextet_letter (by omega)]
      simp only [Nat.reduceAdd, Nat.reduceLT, if_false, Nat.reduceSub]
      rw [hsecond, decodeFrom, sextet_pad]
      simp [hlength]
  | case4 a b c rest ih =>
      rw [encode, decodeFrom_group, ih]
      rfl

/-- **Decoding undoes encoding.** -/
theorem decode_encode (bytes : List UInt8) : decode (encode bytes) = some bytes := by
  refine decodeFrom_encode ?_ bytes
  rw [encode_length]
  omega

theorem mem_alphabet_of_mem_encode {bytes : List UInt8} {code : UInt8} (h : code ∈ encode bytes) :
    code ∈ alphabet := by
  induction bytes using encode.induct with
  | case1 => simp [encode] at h
  | case2 a =>
      have ha := a.toNat_lt
      simp only [encode, List.mem_cons, List.not_mem_nil, or_false] at h
      rcases h with rfl | rfl | rfl | rfl
      · exact letter_mem (by omega)
      · exact letter_mem (by omega)
      · exact pad_mem
      · exact pad_mem
  | case3 a b =>
      have ha := a.toNat_lt
      have hb := b.toNat_lt
      simp only [encode, List.mem_cons, List.not_mem_nil, or_false] at h
      rcases h with rfl | rfl | rfl | rfl
      · exact letter_mem (by omega)
      · exact letter_mem (by omega)
      · exact letter_mem (by omega)
      · exact pad_mem
  | case4 a b c rest ih =>
      have ha := a.toNat_lt
      have hb := b.toNat_lt
      have hc := c.toNat_lt
      simp only [encode, List.mem_cons] at h
      rcases h with rfl | rfl | rfl | rfl | hrest
      · exact letter_mem (by omega)
      · exact letter_mem (by omega)
      · exact letter_mem (by omega)
      · exact letter_mem (by omega)
      · exact ih hrest

end Base64
