import Mathlib.Algebra.GroupWithZero.Nat
import Mathlib.Data.List.Basic
import Mathlib.Data.Nat.Notation

/-!
# Percent-encoded queries

A text is percent-encoded character by character: the unreserved ones stand for
themselves, and the UTF-8 bytes of the others are written in hexadecimal behind percent
signs.  A query joins names and values with `=`, and the pairs with `&`.

* `decode_encode`: decoding gives the bytes of the text back.
* `decode_append`: pieces that are encoded are decoded one after the other.
* `split_join`: a query is taken apart where it was put together.
-/

namespace Percent

/-! ## Characters -/

/-- The UTF-8 bytes of some characters. -/
def bytesOf (text : List Char) : List UInt8 := text.flatMap String.utf8EncodeChar

/-- The text with these bytes, empty when they are no UTF-8. -/
def textOf (bytes : List UInt8) : String := (String.fromUTF8? bytes.toByteArray).getD ""

/-- The characters that are never encoded. -/
def unreserved (c : Char) : Bool := c.isAlphanum || c = '-' || c = '.' || c = '_' || c = '~'

def hexDigit (n : ℕ) : Char := if n < 10 then Char.ofNat (48 + n) else Char.ofNat (55 + n)

def hexValue (c : Char) : Option ℕ :=
  if c.isDigit then some (c.toNat - 48)
  else if 'A' ≤ c ∧ c ≤ 'F' then some (c.toNat - 55)
  else if 'a' ≤ c ∧ c ≤ 'f' then some (c.toNat - 87)
  else none

/-- A byte behind a percent sign. -/
def escape (byte : UInt8) : List Char :=
  ['%', hexDigit (byte.toNat / 16), hexDigit (byte.toNat % 16)]

def encodeChar (c : Char) : List Char :=
  if unreserved c then [c] else (String.utf8EncodeChar c).flatMap escape

def encode (text : List Char) : List Char := text.flatMap encodeChar

/-- The bytes an encoded text stands for; a percent sign without two digits stands for
itself. -/
def decode : List Char → List UInt8
  | [] => []
  | '%' :: high :: low :: rest =>
      match hexValue high, hexValue low with
      | some first, some second => UInt8.ofNat (16 * first + second) :: decode rest
      | _, _ => String.utf8EncodeChar '%' ++ decode (high :: low :: rest)
  | c :: rest => String.utf8EncodeChar c ++ decode rest

/-- The encoded text. -/
def encodeText (text : String) : String := String.ofList (encode text.toList)

/-- The text an encoded text stands for. -/
def decodeText (text : String) : String := textOf (decode text.toList)

@[simp] theorem textOf_bytesOf (text : List Char) : textOf (bytesOf text) = String.ofList text := by
  have hbytes : (bytesOf text).toByteArray = text.utf8Encode := rfl
  rw [textOf, hbytes, String.fromUTF8?, dif_pos ByteArray.isValidUTF8_utf8Encode]
  rfl

theorem hexValue_hexDigit : ∀ n < 16, hexValue (hexDigit n) = some n := by decide

theorem unreserved_hexDigit : ∀ n < 16, unreserved (hexDigit n) = true := by decide

theorem decode_escape (byte : UInt8) (rest : List Char) :
    decode (escape byte ++ rest) = byte :: decode rest := by
  have hlt := byte.toNat_lt
  have hdecode : decode (escape byte ++ rest) =
      match hexValue (hexDigit (byte.toNat / 16)), hexValue (hexDigit (byte.toNat % 16)) with
      | some first, some second => UInt8.ofNat (16 * first + second) :: decode rest
      | _, _ => String.utf8EncodeChar '%' ++
          decode (hexDigit (byte.toNat / 16) :: hexDigit (byte.toNat % 16) :: rest) := rfl
  rw [hdecode, hexValue_hexDigit _ (by omega), hexValue_hexDigit _ (by omega)]
  dsimp only
  rw [Nat.div_add_mod, UInt8.ofNat_toNat]

theorem decode_cons {c : Char} (h : c ≠ '%') (rest : List Char) :
    decode (c :: rest) = String.utf8EncodeChar c ++ decode rest :=
  decode.eq_3 c rest fun _ _ _ hc _ => h hc

/-! ## Encoded texts -/

/-- Only these characters and escapes of bytes. -/
inductive Encoded (allowed : Char → Bool) : List Char → Prop
  | nil : Encoded allowed []
  | plain {c : Char} {rest : List Char} : allowed c = true → Encoded allowed rest →
      Encoded allowed (c :: rest)
  | escape {byte : UInt8} {rest : List Char} : Encoded allowed rest →
      Encoded allowed (Percent.escape byte ++ rest)

section
variable {allowed : Char → Bool} {first second text : List Char}

theorem Encoded.append (h : Encoded allowed first) (h' : Encoded allowed second) :
    Encoded allowed (first ++ second) := by
  induction h with
  | nil => exact h'
  | plain hc _ ih => exact .plain hc ih
  | escape _ ih =>
      rw [List.append_assoc]
      exact .escape ih

theorem Encoded.mono {other : Char → Bool} (h : Encoded allowed text)
    (hmono : ∀ c, allowed c = true → other c = true) : Encoded other text := by
  induction h with
  | nil => exact .nil
  | plain hc _ ih => exact .plain (hmono _ hc) ih
  | escape _ ih => exact .escape ih

theorem encoded_of_forall (h : ∀ c ∈ text, allowed c = true) : Encoded allowed text := by
  induction text with
  | nil => exact .nil
  | cons c rest ih =>
      exact .plain (h c List.mem_cons_self) (ih fun d hd => h d (List.mem_cons_of_mem _ hd))

theorem encoded_escapes (bytes : List UInt8) : Encoded allowed (bytes.flatMap Percent.escape) := by
  induction bytes with
  | nil => exact .nil
  | cons byte rest ih => exact .escape ih

/-- What is encoded is made of unreserved characters and escapes. -/
theorem encoded_encode (text : List Char) : Encoded unreserved (encode text) := by
  induction text with
  | nil => exact .nil
  | cons c rest ih =>
      refine Encoded.append ?_ ih
      unfold encodeChar
      split
      · next hc => exact .plain hc .nil
      · exact encoded_escapes _

/-- The characters of an encoded text. -/
theorem Encoded.mem (h : Encoded allowed text) {c : Char} (hc : c ∈ text) :
    allowed c = true ∨ c = '%' ∨ unreserved c = true := by
  induction h with
  | nil => cases hc
  | plain hallowed _ ih =>
      rcases List.mem_cons.1 hc with rfl | hrest
      · exact .inl hallowed
      · exact ih hrest
  | @escape byte rest _ ih =>
      have hlt := byte.toNat_lt
      rcases List.mem_append.1 hc with hescape | hrest
      · simp only [Percent.escape, List.mem_cons, List.not_mem_nil, or_false] at hescape
        rcases hescape with rfl | rfl | rfl
        · exact .inr (.inl rfl)
        · exact .inr (.inr (unreserved_hexDigit _ (by omega)))
        · exact .inr (.inr (unreserved_hexDigit _ (by omega)))
      · exact ih hrest

/-! ## Decoding -/

theorem decode_escapes (bytes : List UInt8) (rest : List Char) :
    decode (bytes.flatMap Percent.escape ++ rest) = bytes ++ decode rest := by
  induction bytes with
  | nil => rfl
  | cons byte others ih =>
      rw [List.flatMap_cons, List.append_assoc, decode_escape, ih, List.cons_append]

/-- **An encoded text is decoded to its bytes**, whatever follows it. -/
theorem decode_encode_append (text rest : List Char) :
    decode (encode text ++ rest) = bytesOf text ++ decode rest := by
  induction text with
  | nil => rfl
  | cons c others ih =>
      have hcons : encode (c :: others) ++ rest = encodeChar c ++ (encode others ++ rest) :=
        List.append_assoc _ _ _
      have hbytes : bytesOf (c :: others) = String.utf8EncodeChar c ++ bytesOf others := rfl
      rw [hcons, hbytes, List.append_assoc]
      unfold encodeChar
      split
      · next hc =>
          have hne : c ≠ '%' := by
            rintro rfl
            exact absurd hc (by decide)
          rw [List.singleton_append, decode_cons hne, ih]
      · rw [decode_escapes, ih]

theorem decode_encode (text : List Char) : decode (encode text) = bytesOf text := by
  have h := decode_encode_append text []
  rwa [List.append_nil, decode, List.append_nil] at h

/-- **Encoding loses nothing.** -/
@[simp] theorem decodeText_encodeText (text : String) : decodeText (encodeText text) = text := by
  rw [decodeText, encodeText, String.toList_ofList, decode_encode, textOf_bytesOf,
    String.ofList_toList]

/-- A text without percent signs stands for itself. -/
theorem decode_plain (h : '%' ∉ text) : decode text = bytesOf text := by
  induction text with
  | nil => rfl
  | cons c rest ih =>
      rw [List.mem_cons, not_or] at h
      rw [decode_cons (Ne.symm h.1), ih h.2]
      rfl

theorem decodeText_plain {text : String} (h : '%' ∉ text.toList) : decodeText text = text := by
  rw [decodeText, decode_plain h, textOf_bytesOf, String.ofList_toList]

end

/-! ## The length of an encoded text -/

theorem length_escapes (bytes : List UInt8) :
    (bytes.flatMap Percent.escape).length = 3 * bytes.length := by
  induction bytes with
  | nil => rfl
  | cons byte rest ih =>
      rw [List.flatMap_cons, List.length_append, ih, List.length_cons, Nat.mul_succ, Nat.add_comm]
      rfl

/-- Nine characters for each UTF-16 unit at most. -/
theorem length_encodeChar_le (c : Char) :
    (encodeChar c).length ≤ 9 * (if c.val < 0x10000 then 1 else 2) := by
  have hsize : c.utf8Size ≤ 3 * (if c.val < 0x10000 then 1 else 2) := by
    split
    · next hsmall =>
        have hle : c.val ≤ 0xffff := by
          rw [UInt32.lt_iff_toNat_lt] at hsmall
          rw [UInt32.le_iff_toNat_le]
          exact Nat.le_of_lt_succ hsmall
        unfold Char.utf8Size
        dsimp only
        split_ifs with h1 h2 h3
        · decide
        · decide
        · decide
        · exact absurd hle h3
    · exact Nat.le_trans (Char.utf8Size_le_four c) (by decide)
  have hpos := c.utf8Size_pos
  unfold encodeChar
  split
  · rw [List.length_singleton]
    omega
  · rw [length_escapes, String.length_utf8EncodeChar]
    omega

/-! ## Queries -/

/-- Pairs of names and values, as they are written. -/
def join (items : List (List Char × List Char)) : List Char :=
  ['&'].intercalate (items.map fun item => item.1 ++ '=' :: item.2)

/-- The pairs between the `&`, each up to its first `=` and behind it. -/
def split (query : List Char) : List (List Char × List Char) :=
  (query.splitOn '&').map fun piece =>
    (piece.takeWhile fun c => c ≠ '=', (piece.dropWhile fun c => c ≠ '=').tail)

/-- **A query is taken apart where it was put together.** -/
theorem split_join {items : List (List Char × List Char)} (hne : items ≠ [])
    (hnames : ∀ item ∈ items, '=' ∉ item.1 ∧ '&' ∉ item.1 ∧ '&' ∉ item.2) :
    split (join items) = items := by
  have hpieces : ∀ piece ∈ items.map (fun item => item.1 ++ '=' :: item.2), '&' ∉ piece := by
    intro piece hpiece
    obtain ⟨item, hitem, rfl⟩ := List.mem_map.1 hpiece
    obtain ⟨-, hname, hvalue⟩ := hnames item hitem
    rw [List.mem_append, List.mem_cons, not_or, not_or]
    exact ⟨hname, by decide, hvalue⟩
  rw [split, join, List.splitOn_intercalate '&' hpieces (by simpa using hne), List.map_map]
  conv_rhs => rw [← List.map_id items]
  refine List.map_congr_left fun item hitem => ?_
  have hall : ∀ c ∈ item.1, (decide (c ≠ '=')) = true := by
    intro c hc
    refine decide_eq_true ?_
    rintro rfl
    exact (hnames item hitem).1 hc
  simp only [Function.comp_apply, id_eq]
  rw [List.takeWhile_append_of_pos hall, List.dropWhile_append_of_pos hall,
    List.takeWhile_cons_of_neg (by simp), List.dropWhile_cons_of_neg (by simp), List.append_nil]
  rfl

theorem encoded_join {allowed : Char → Bool} {items : List (List Char × List Char)}
    (hamp : allowed '&' = true) (heq : allowed '=' = true)
    (hitems : ∀ item ∈ items, Encoded allowed item.1 ∧ Encoded allowed item.2) :
    Encoded allowed (join items) := by
  have hpiece : ∀ item ∈ items, Encoded allowed (item.1 ++ '=' :: item.2) := fun item hitem =>
    (hitems item hitem).1.append (.plain heq (hitems item hitem).2)
  unfold join
  induction items with
  | nil => exact .nil
  | cons item rest ih =>
      have hfirst := hpiece item List.mem_cons_self
      have hrest := ih (fun other hother => hitems other (List.mem_cons_of_mem _ hother))
        fun other hother => hpiece other (List.mem_cons_of_mem _ hother)
      cases rest with
      | nil => simpa [List.intercalate] using hfirst
      | cons next others =>
          rw [List.map_cons, List.map_cons, List.intercalate_cons_cons]
          rw [List.map_cons] at hrest
          exact (hfirst.append (.plain hamp .nil)).append hrest

theorem length_join {items : List (List Char × List Char)} (hne : items ≠ []) :
    (join items).length + 1 =
      (items.map fun item => item.1.length + item.2.length + 2).sum := by
  unfold join
  induction items with
  | nil => exact absurd rfl hne
  | cons item rest ih =>
      cases rest with
      | nil =>
          rw [List.map_singleton, List.map_singleton, List.intercalate_singleton,
            List.length_append, List.length_cons, List.sum_singleton]
          omega
      | cons next others =>
          have hrest := ih (List.cons_ne_nil _ _)
          rw [List.map_cons, List.map_cons, List.intercalate_cons_cons]
          rw [List.map_cons] at hrest
          rw [List.map_cons, List.sum_cons, ← hrest]
          simp only [List.length_append, List.length_cons, List.length_nil]
          omega

end Percent
