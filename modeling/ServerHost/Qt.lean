import Mathlib.Data.Rat.Init
import Mathlib.Algebra.GroupWithZero.Nat
import Mathlib.Algebra.Order.Monoid.WithTop
import Mathlib.Algebra.Order.Group.Int
import Mathlib.Data.Int.Order.Basic
import ServerHost.Library.Table

/-!
# The Qt values the program computes with

`QJsonValue` and `QJsonObject`, `QDateTime` and the few `QString` operations the
sources use.  A point in time is a number of milliseconds; the invalid
`QDateTime` is `⊥`, which Qt orders before every valid one.
-/

namespace ServerHost

/-! ## Time -/

/-- `QDateTime`, in milliseconds; `⊥` is the invalid one. -/
abbrev DateTime := WithBot ℤ

/-- The order of dates is computed from that of the integers. -/
instance : Preorder DateTime :=
  @WithBot.instPreorder ℤ (@PartialOrder.toPreorder ℤ
    (@SemilatticeInf.toPartialOrder ℤ (@Lattice.toSemilatticeInf ℤ instLatticeInt)))

namespace DateTime

/-- `QDateTime::addMSecs`. -/
def addMSecs (time : DateTime) (ms : ℤ) : DateTime := time.map (· + ms)

/-- `QDateTime::addSecs`. -/
def addSecs (time : DateTime) (secs : ℤ) : DateTime := time.addMSecs (secs * 1000)

/-- `QDateTime::toMSecsSinceEpoch`. -/
def toMSecs (time : DateTime) : ℤ := time.unbotD 0

/-- `QDateTime::msecsTo`, zero when either side is invalid. -/
def msecsTo (first second : DateTime) : ℤ :=
  match first, second with
  | some a, some b => b - a
  | _, _ => 0

@[simp] theorem addMSecs_coe (time ms : ℤ) :
    addMSecs (time : DateTime) ms = ((time + ms : ℤ) : DateTime) := rfl

@[simp] theorem addSecs_coe (time secs : ℤ) :
    addSecs (time : DateTime) secs = ((time + secs * 1000 : ℤ) : DateTime) := rfl

@[simp] theorem toMSecs_coe (time : ℤ) : toMSecs (time : DateTime) = time := rfl

end DateTime

/-! ## Strings -/

/-- `QString::size`: the number of UTF-16 units. -/
def size (text : String) : ℕ :=
  (text.toList.map fun c => if c.val < 0x10000 then 1 else 2).sum

/-- `QString::startsWith`. -/
def startsWith (text start : String) : Bool := start.toList.isPrefixOf text.toList

/-- `QString::toLatin1`: one byte for each UTF-16 unit, a question mark for
those Latin-1 does not have. -/
def toLatin1 (text : String) : List ℕ :=
  text.toList.flatMap fun c =>
    if c.val < 0x100 then [c.val.toNat] else if c.val < 0x10000 then [0x3f] else [0x3f, 0x3f]

/-- `QString::toUtf8`. -/
def toUtf8 (text : String) : List ℕ := text.toUTF8.toList.map UInt8.toNat

/-- `QByteArray`. -/
abbrev Bytes := List UInt8

/-- The bytes of `QString::toLatin1`. -/
def latin1Bytes (text : String) : Bytes := (toLatin1 text).map UInt8.ofNat

/-- `QString::fromLatin1`. -/
def fromLatin1 (bytes : Bytes) : String :=
  String.ofList (bytes.map fun byte => Char.ofNat byte.toNat)

@[simp] theorem latin1Bytes_fromLatin1 (bytes : Bytes) :
    latin1Bytes (fromLatin1 bytes) = bytes := by
  have hcode : ∀ byte : UInt8, (Char.ofNat byte.toNat).val.toNat = byte.toNat := by
    intro byte
    have hlt := byte.toNat_lt
    have hvalid : byte.toNat.isValidChar := .inl (by omega)
    rw [Char.ofNat, dif_pos hvalid]
    rfl
  have hsmall : ∀ byte : UInt8, (Char.ofNat byte.toNat).val < 0x100 := by
    intro byte
    have hlt := byte.toNat_lt
    rw [UInt32.lt_iff_toNat_lt, hcode]
    exact hlt
  induction bytes with
  | nil => rfl
  | cons byte rest ih =>
      simp only [latin1Bytes, toLatin1, fromLatin1, String.toList_ofList] at ih ⊢
      rw [List.map_cons, List.flatMap_cons, if_pos (hsmall byte), List.map_append, ih, hcode]
      simp

/-- A text without question marks, in bytes and back. -/
theorem fromLatin1_latin1Bytes {text : String} (h : 63 ∉ latin1Bytes text) :
    fromLatin1 (latin1Bytes text) = text := by
  have hchars : ∀ chars : List Char,
      63 ∉ (chars.flatMap fun c => if c.val < 0x100 then [c.val.toNat]
      else if c.val < 0x10000 then [0x3f] else [0x3f, 0x3f]).map UInt8.ofNat →
      ((chars.flatMap fun c => if c.val < 0x100 then [c.val.toNat]
        else if c.val < 0x10000 then [0x3f] else [0x3f, 0x3f]).map UInt8.ofNat).map
          (fun byte => Char.ofNat byte.toNat) = chars := by
    intro chars hmark
    induction chars with
    | nil => rfl
    | cons c rest ih =>
        rw [List.flatMap_cons, List.map_append, List.mem_append, not_or] at hmark
        have hrest := ih hmark.2
        rw [List.flatMap_cons, List.map_append, List.map_append, hrest]
        replace hmark := hmark.1
        split_ifs at hmark ⊢ with hsmall hwide
        · have hlt : c.val.toNat < 256 := by
            rw [UInt32.lt_iff_toNat_lt] at hsmall
            exact hsmall
          have hback : Char.ofNat (UInt8.ofNat c.val.toNat).toNat = c := by
            rw [UInt8.toNat_ofNat', Nat.mod_eq_of_lt hlt]
            exact Char.ofNat_toNat c
          rw [List.map_singleton, List.map_singleton, hback, List.singleton_append]
        · simp at hmark
        · simp at hmark
  refine String.toList_inj.1 ?_
  rw [fromLatin1, String.toList_ofList]
  exact hchars text.toList h

/-- `QString::number` for a 64-bit integer. -/
def number (value : ℤ) : String := value.repr

private def digitsValue (digits : List Char) : ℕ :=
  if digits ≠ [] ∧ digits.all Char.isDigit then Nat.ofDigitChars 10 digits 0 else 0

private def trimmed (text : List Char) : List Char :=
  ((text.dropWhile Char.isWhitespace).reverse.dropWhile Char.isWhitespace).reverse

/-- `QString::toLongLong`: zero for what is not a 64-bit decimal number. -/
def toLongLong (text : String) : ℤ :=
  let value : ℤ := match trimmed text.toList with
    | '-' :: digits => -digitsValue digits
    | '+' :: digits => digitsValue digits
    | digits => digitsValue digits
  if -2 ^ 63 ≤ value ∧ value < 2 ^ 63 then value else 0

private def digitsNumber (digits : List Char) : Option ℕ :=
  if digits ≠ [] ∧ digits.all Char.isDigit then some (Nat.ofDigitChars 10 digits 0) else none

private def fits (value : ℤ) : Bool := -2 ^ 63 ≤ value ∧ value < 2 ^ 63

/-- `QString::toLongLong` with the flag it sets. -/
def longLong (text : String) : Option ℤ :=
  let value : Option ℤ := match trimmed text.toList with
    | '-' :: digits => (digitsNumber digits).map fun n : ℕ => -(n : ℤ)
    | '+' :: digits => (digitsNumber digits).map Int.ofNat
    | digits => (digitsNumber digits).map Int.ofNat
  value.filter fits

/-- `QString::toUShort` with the flag it sets. -/
def uShort (text : String) : Option ℕ :=
  let value : Option ℕ := match trimmed text.toList with
    | '-' :: _ => none
    | '+' :: digits => digitsNumber digits
    | digits => digitsNumber digits
  value.filter fun n => n < 2 ^ 16

private theorem trimmed_of_digits {text : List Char} (h : ∀ c ∈ text, c.isWhitespace = false) :
    trimmed text = text := by
  have hdrop : ∀ list : List Char, (∀ c ∈ list, c.isWhitespace = false) →
      list.dropWhile Char.isWhitespace = list := by
    intro list hlist
    cases list with
    | nil => rfl
    | cons c rest => simp [hlist c (by simp)]
  rw [trimmed, hdrop text h, hdrop text.reverse (by simpa using h), List.reverse_reverse]

private theorem isWhitespace_of_isDigit {c : Char} (h : c.isDigit) : c.isWhitespace = false := by
  simp only [Char.isDigit, ge_iff_le, Bool.and_eq_true, decide_eq_true_eq] at h
  have hlow : '0'.val ≤ c.val := h.1
  simp only [Char.isWhitespace, Bool.or_eq_false_iff, decide_eq_false_iff_not]
  refine ⟨⟨⟨?_, ?_⟩, ?_⟩, ?_⟩ <;> rintro rfl <;> exact absurd hlow (by decide)

private theorem isDigit_of_mem {n : ℕ} {c : Char} (hc : c ∈ Nat.toDigits 10 n) : c.isDigit :=
  Nat.isDigit_of_mem_toDigits (by decide : 0 < 10) (by decide) hc

/-- The text of an integer: its digits, after a sign when it is negative. -/
theorem number_toList (value : ℤ) : (number value).toList =
    if value < 0 then '-' :: Nat.toDigits 10 (-value).toNat else Nat.toDigits 10 value.toNat := by
  rw [number, Int.repr_eq_if]
  split_ifs with hpos hneg hneg
  · omega
  · exact Nat.toList_repr
  · simp [Nat.toList_repr]
  · omega

private theorem trimmed_number (value : ℤ) :
    trimmed (number value).toList = (number value).toList := by
  refine trimmed_of_digits fun c hc => ?_
  rw [number_toList] at hc
  split_ifs at hc
  · rcases List.mem_cons.1 hc with rfl | hc
    · rfl
    · exact isWhitespace_of_isDigit (isDigit_of_mem hc)
  · exact isWhitespace_of_isDigit (isDigit_of_mem hc)

/-- What is not a number reads as zero. -/
theorem toLongLong_eq (text : String) : toLongLong text = (longLong text).getD 0 := by
  have hvalue : ∀ digits, digitsValue digits = (digitsNumber digits).getD 0 := by
    intro digits
    simp only [digitsValue, digitsNumber]
    split <;> rfl
  have hrange : ∀ value : ℤ, (if -2 ^ 63 ≤ value ∧ value < 2 ^ 63 then value else 0) =
      ((some value).filter fits).getD 0 := by
    intro value
    by_cases h : -2 ^ 63 ≤ value ∧ value < 2 ^ 63
    · rw [if_pos h, Option.filter_some, if_pos (by simpa [fits] using h), Option.getD_some]
    · rw [if_neg h, Option.filter_some, if_neg (by simpa [fits] using h), Option.getD_none]
  simp only [toLongLong, longLong, hvalue, hrange]
  split <;> cases digitsNumber _ <;> rfl

private theorem digitsNumber_toDigits (n : ℕ) : digitsNumber (Nat.toDigits 10 n) = some n := by
  have hdigits : (Nat.toDigits 10 n).all Char.isDigit = true := by
    rw [List.all_eq_true]
    exact fun c hc => isDigit_of_mem hc
  rw [digitsNumber, if_pos ⟨Nat.toDigits_ne_nil, hdigits⟩, Nat.ofDigitChars_ten_toDigits]

/-- The digits of a number start with no sign. -/
private theorem sign_ne {n : ℕ} {c : Char} {rest : List Char} (h : Nat.toDigits 10 n = c :: rest) :
    c ≠ '-' ∧ c ≠ '+' := by
  have hdigit : c.isDigit := isDigit_of_mem (n := n) (by simp [h])
  constructor <;> rintro rfl <;> exact absurd hdigit (by decide)

/-- Printing an integer and reading it back: the 64-bit ones survive. -/
theorem longLong_number (value : ℤ) : longLong (number value) =
    if -2 ^ 63 ≤ value ∧ value < 2 ^ 63 then some value else none := by
  have hparsed : (match trimmed (number value).toList with
      | '-' :: digits => (digitsNumber digits).map fun n : ℕ => -(n : ℤ)
      | '+' :: digits => (digitsNumber digits).map Int.ofNat
      | digits => (digitsNumber digits).map Int.ofNat) = some value := by
    rw [trimmed_number, number_toList]
    split_ifs with hneg
    · have habs : -((-value).toNat : ℤ) = value := by omega
      simp only [digitsNumber_toDigits, Option.map_some, habs]
    · have habs : (value.toNat : ℤ) = value := by omega
      split
      · next digits h => exact absurd rfl (sign_ne h).1
      · next digits h => exact absurd rfl (sign_ne h).2
      · rw [digitsNumber_toDigits, Option.map_some, Int.ofNat_eq_natCast, habs]
  rw [longLong, hparsed, Option.filter_some]
  simp only [fits, decide_eq_true_eq]

/-- Printing a 16-bit number and reading it back loses nothing. -/
theorem uShort_number {value : ℕ} (h : value < 2 ^ 16) : uShort (number value) = some value := by
  have hlist : (number value).toList = Nat.toDigits 10 value := by
    rw [number_toList, if_neg (by omega), Int.toNat_natCast]
  have hparsed : (match trimmed (number value).toList with
      | '-' :: _ => none
      | '+' :: digits => digitsNumber digits
      | digits => digitsNumber digits) = some value := by
    rw [trimmed_number, hlist]
    split
    · next digits h => exact absurd rfl (sign_ne h).1
    · next digits h => exact absurd rfl (sign_ne h).2
    · exact digitsNumber_toDigits value
  rw [uShort, hparsed, Option.filter_some, if_pos (decide_eq_true h)]

theorem isDigit_of_mem_number {value : ℕ} {c : Char} (hc : c ∈ (number value).toList) :
    c.isDigit = true := by
  rw [number_toList, if_neg (by omega), Int.toNat_natCast] at hc
  exact isDigit_of_mem hc

/-- A 64-bit integer has a sign and nineteen digits at most. -/
theorem number_chars {value : ℤ} (hlow : -2 ^ 63 ≤ value) (hhigh : value < 2 ^ 63) :
    (number value).toList.length ≤ 20 ∧
      ∀ c ∈ (number value).toList, c.isDigit = true ∨ c = '-' := by
  have hlength : ∀ n : ℕ, n < 10 ^ 19 → (Nat.toDigits 10 n).length ≤ 19 := fun n hn =>
    (Nat.length_toDigits_le_iff (by decide) (by decide)).2 hn
  rw [number_toList]
  split_ifs with hneg
  · refine ⟨Nat.succ_le_succ (hlength _ (by omega)), fun c hc => ?_⟩
    rcases List.mem_cons.1 hc with rfl | hc
    · exact .inr rfl
    · exact .inl (isDigit_of_mem hc)
  · exact ⟨(hlength _ (by omega)).trans (by decide), fun c hc => .inl (isDigit_of_mem hc)⟩

theorem number_length_le {value bound : ℕ} (hbound : 0 < bound) (h : value < 10 ^ bound) :
    (number value).toList.length ≤ bound := by
  rw [number_toList, if_neg (by omega), Int.toNat_natCast]
  exact (Nat.length_toDigits_le_iff (by decide) hbound).2 h

/-- Printing a 64-bit integer and reading it back loses nothing. -/
theorem toLongLong_number {value : ℤ} (hlow : -2 ^ 63 ≤ value) (hhigh : value < 2 ^ 63) :
    toLongLong (number value) = value := by
  rw [toLongLong_eq, longLong_number, if_pos ⟨hlow, hhigh⟩]
  rfl

/-- A date that is still to come when it is read back is the one that was printed. -/
theorem lt_of_lt_toLongLong {now : ℤ} {date : DateTime} (hnow : 0 ≤ now)
    (h : (now : DateTime) < (toLongLong (number date.toMSecs) : ℤ)) : (now : DateTime) < date := by
  rw [WithBot.coe_lt_coe] at h
  by_cases hrange : -2 ^ 63 ≤ date.toMSecs ∧ date.toMSecs < 2 ^ 63
  · rw [toLongLong_number hrange.1 hrange.2] at h
    cases date using WithBot.recBotCoe with
    | bot => exact absurd h hnow.not_gt
    | coe time => exact WithBot.coe_lt_coe.2 h
  · rw [toLongLong_eq, longLong_number, if_neg hrange] at h
    exact absurd h hnow.not_gt

/-! ## JSON -/

/-- `QJsonValue`. -/
inductive Json where
  | undefined
  | null
  | bool (value : Bool)
  | double (value : ℚ)
  | string (text : String)
  | array (items : List Json)
  | object (fields : List (String × Json))
  deriving Inhabited

/-- `QJsonObject`. -/
structure JsonObject where
  fields : List (String × Json)
  deriving Inhabited

namespace Json

/-- `QJsonValue::toString` with its default. -/
def toString : Json → (fallback : String := "") → String
  | string text, _ => text
  | _, fallback => fallback

/-- `QJsonValue::toBool`. -/
def toBool : Json → Bool
  | bool value => value
  | _ => false

/-- `QJsonValue::toObject`. -/
def toObject : Json → JsonObject
  | object fields => ⟨fields⟩
  | _ => ⟨[]⟩

/-- `QJsonValue::toArray`. -/
def toArray : Json → List Json
  | array items => items
  | _ => []

/-- `QJsonValue::isObject`. -/
def isObject : Json → Bool
  | object _ => true
  | _ => false

/-- `QJsonValue::isString`. -/
def isString : Json → Bool
  | string _ => true
  | _ => false

/-- `QJsonValue::isArray`. -/
def isArray : Json → Bool
  | array _ => true
  | _ => false

/-- `QJsonValue::isUndefined`. -/
def isUndefined : Json → Bool
  | undefined => true
  | _ => false

/-- `value == text`, which holds only of a string. -/
def equals (value : Json) (text : String) : Bool :=
  match value with
  | string own => own = text
  | _ => false

/-- `value == 1`. -/
def isOne : Json → Bool
  | double value => value = 1
  | _ => false

theorem eq_bool_of_toBool {json : Json} (h : json.toBool = true) : json = .bool true := by
  cases json with
  | bool value => exact congrArg bool h
  | _ => cases h

theorem eq_string_of_isString {json : Json} (h : json.isString = true) :
    json = .string json.toString := by
  cases json with
  | string text => rfl
  | _ => cases h

end Json

namespace JsonObject

/-- The object written as an initialiser list; Qt drops a key whose value is
undefined. -/
def ofList (fields : List (String × Json)) : JsonObject :=
  ⟨fields.filter fun field => !field.2.isUndefined⟩

/-- `QJsonObject::value`. -/
def value (object : JsonObject) (key : String) : Json :=
  (object.fields.lookup key).getD .undefined

/-- `QJsonObject::contains`. -/
def contains (object : JsonObject) (key : String) : Bool := (object.fields.lookup key).isSome

/-- `QJsonObject::isEmpty`. -/
def isEmpty (object : JsonObject) : Bool := object.fields.isEmpty

/-- The object as a value. -/
def json (object : JsonObject) : Json := .object object.fields

@[simp] theorem json_toObject (object : JsonObject) : object.json.toObject = object := rfl

@[simp] theorem json_isObject (object : JsonObject) : object.json.isObject = true := rfl

end JsonObject

end ServerHost
