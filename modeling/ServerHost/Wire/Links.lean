import Mathlib.Algebra.Order.BigOperators.Group.List
import Mathlib.Algebra.Order.Ring.Nat
import ServerHost.Lan.Link
import ServerHost.Library.Percent

/-!
# Pairing links

The texts of the two QR codes: `LanLink::encode` with its decoder, and `PairingLink.cpp`.
A text is a `QUrl` whose query has one item for each field.  The name of a device and the
URL of a relay are percent-encoded before they become items, so they go through two
layers of encoding and come back through one layer of decoding and the query's own.

What is asked of `QUrl` and `QUrlQuery` is in `Lossless`, and only of the lists of items
that the encoders write: there is at least one item, its name needs no encoding, and its
value is the encoding of a text.  An item may be written in another encoding of the same
bytes that is no longer, and such a query is read by splitting it at `&` and the first `=`.
-/

namespace ServerHost

/-! ## The links of a relay -/

/-- What is reported about a text, with the names of the fully decoded `queryItems`. -/
structure PairingQuery extends LanLink.Query where
  decodedKeys : List String

/-- `QUrl`: what it reports, how it is read in strict mode, and its fully encoded text. -/
structure UrlType where
  Value : Type
  report : Value → Url
  strict : String → Value
  encoded : Value → String

variable {urls : UrlType}

structure PairingLink (urls : UrlType) where
  relayUrl : urls.Value
  hostId : String
  code : String

namespace PairingLink

variable (platform : Platform)

/-- `valid`. -/
def valid (link : PairingLink urls) : Bool :=
  endpoint platform (urls.report link.relayUrl) "wss" "ws" && identifier link.hostId &&
    hexToken link.code

/-- The items of the query. -/
def items (link : PairingLink urls) : List (String × String) :=
  [("v", "1"), ("relay", platform.percentEncoded (urls.encoded link.relayUrl)),
    ("host", link.hostId), ("code", link.code)]

/-- `PairingLink::encode`. -/
def encode (link : PairingLink urls) : String :=
  if link.valid platform then
    let text := platform.queryUrl "society://pair" (link.items platform)
    if size text ≤ 2048 then text else ""
  else ""

/-- The names a link has, each once. -/
def keys : List String := ["v", "relay", "host", "code"]

/-- `PairingLink::decode`. -/
def decode (read : String → PairingQuery) (text : String) : Option (PairingLink urls) :=
  if size text > 2048 then none
  else
    let url := read text
    if ¬ url.valid ∨ url.scheme ≠ "society" ∨ url.host ≠ "pair" ∨ url.path ≠ "" ∨
        url.userInfo ≠ "" ∨ url.port ≠ -1 ∨ url.hasFragment then none
    else if url.decodedKeys.length ≠ 4 ∨ ¬ (url.decodedKeys ⊆ keys ∧ keys ⊆ url.decodedKeys) ∨
        url.item "v" ≠ "1" then none
    else
      let candidate : PairingLink urls :=
        ⟨urls.strict (url.value "relay"), url.value "host", url.value "code"⟩
      if candidate.valid platform then some candidate else none

end PairingLink

/-! ## Lossless queries -/

/-- The characters an item may have besides escapes. -/
def itemChar (c : Char) : Bool := Percent.unreserved c || "!$'()*+,;:@/?".toList.contains c

/-- The characters of a query besides escapes. -/
def queryChar (c : Char) : Bool := itemChar c || c = '&' || c = '='

/-- The query of these items. -/
def queryOf (items : List (String × String)) : List Char :=
  Percent.join (items.map fun item => (item.1.toList, item.2.toList))

/-- A value of item characters and escapes whose bytes are those of a text. -/
def Encodes (value : String) : Prop :=
  Percent.Encoded itemChar value.toList ∧
    ∃ text, Percent.decode value.toList = Percent.bytesOf text

/-- Names without anything to encode, and values that encode texts. -/
def Writable (items : List (String × String)) : Prop :=
  ∀ item ∈ items, (item.1 ≠ "" ∧ ∀ c ∈ item.1.toList, Percent.unreserved c = true) ∧
    Encodes item.2

/-- What is reported about the text of a pairing with this query. -/
structure Parsed (query : List Char) (url : PairingQuery) : Prop where
  valid : url.valid = true
  scheme : url.scheme = "society"
  host : url.host = "pair"
  path : url.path = ""
  userInfo : url.userInfo = ""
  port : url.port = -1
  hasFragment : url.hasFragment = false
  keys : (∀ item ∈ Percent.split query, ∀ c ∈ item.1, Percent.unreserved c = true) →
    url.keys = (Percent.split query).map fun item => String.ofList item.1
  decodedKeys : (∀ item ∈ Percent.split query, ∀ c ∈ item.1, Percent.unreserved c = true) →
    url.decodedKeys = (Percent.split query).map fun item => String.ofList item.1
  item : ∀ key raw, (Percent.split query).lookup key.toList = some raw →
    (∀ c ∈ raw, Percent.unreserved c = true) → url.item key = String.ofList raw
  value : ∀ key raw, (Percent.split query).lookup key.toList = some raw →
    url.value key = Percent.textOf (Percent.decode raw)

/-- The items with their values written by `recode`. -/
def recoded (recode : String → String) (items : List (String × String)) :
    List (String × String) := items.map fun item => (item.1, recode item.2)

/-- Nothing is lost in a `QUrl` and its `QUrlQuery`; `recode` is how the text of an item is
written.  Nothing is asked about a query without items, or about escapes that are no
UTF-8. -/
structure Lossless (platform : Platform) (read : String → PairingQuery)
    (recode : String → String) : Prop where
  percentEncoded : ∀ text, platform.percentEncoded text = Percent.encodeText text
  recode_encoded : ∀ value, Encodes value → Percent.Encoded itemChar (recode value).toList
  recode_decode : ∀ value, Encodes value →
    Percent.decode (recode value).toList = Percent.decode value.toList
  recode_length : ∀ value, Encodes value → (recode value).toList.length ≤ value.toList.length
  recode_plain : ∀ value, (∀ c ∈ value.toList, Percent.unreserved c = true) → recode value = value
  written : ∀ items, items ≠ [] → Writable items → platform.queryUrl "society://pair" items =
    "society://pair?" ++ String.ofList (queryOf (recoded recode items))
  parsed : ∀ items, items ≠ [] → Writable items →
    Parsed (queryOf items) (read ("society://pair?" ++ String.ofList (queryOf items)))

section
variable {c : Char}

theorem toNat_lt_of_unreserved (h : Percent.unreserved c = true) : c.val.toNat < 0x80 := by
  simp only [Percent.unreserved, Char.isAlphanum, isAlpha_eq, isUpper_eq, isLower_eq,
    Char.isDigit, Bool.or_eq_true, Bool.and_eq_true, decide_eq_true_eq, UInt32.le_iff_toNat_le,
    ge_iff_le] at h
  have hZ : ('Z' : Char).val.toNat = 90 := rfl
  have hz : ('z' : Char).val.toNat = 122 := rfl
  have h9 : ('9' : Char).val.toNat = 57 := rfl
  rcases h with (((((h | h) | h) | rfl) | rfl) | rfl) | rfl
  · omega
  · omega
  · omega
  all_goals decide

theorem unreserved_ne (h : Percent.unreserved c = true) : c ≠ '=' ∧ c ≠ '&' ∧ c ≠ '%' := by
  refine ⟨?_, ?_, ?_⟩ <;> rintro rfl <;> exact absurd h (by decide)

theorem itemChar_of_unreserved (h : Percent.unreserved c = true) : itemChar c = true := by
  rw [itemChar, h]
  rfl

theorem itemChar_ne (h : itemChar c = true) : c ≠ '&' ∧ c ≠ '%' := by
  refine ⟨?_, ?_⟩ <;> rintro rfl <;> exact absurd h (by decide)

theorem toNat_lt_of_queryChar (h : queryChar c = true) : c.val.toNat < 0x80 := by
  simp only [queryChar, itemChar, Bool.or_eq_true, decide_eq_true_eq] at h
  rcases h with ((h | h) | rfl) | rfl
  · exact toNat_lt_of_unreserved h
  · have hall : "!$'()*+,;:@/?".toList.all (fun d => d.val.toNat < 0x80) = true := by decide
    exact of_decide_eq_true (List.all_eq_true.1 hall c (List.contains_iff_mem.1 h))
  all_goals decide

end

/-- What is reported about the text of these items. -/
structure ReadBack (items : List (String × String)) (url : PairingQuery) : Prop where
  valid : url.valid = true
  scheme : url.scheme = "society"
  host : url.host = "pair"
  path : url.path = ""
  userInfo : url.userInfo = ""
  port : url.port = -1
  hasFragment : url.hasFragment = false
  keys : url.keys = items.map Prod.fst
  decodedKeys : url.decodedKeys = items.map Prod.fst
  item : ∀ item ∈ items, (∀ c ∈ item.2.toList, Percent.unreserved c = true) →
    url.item item.1 = item.2
  value : ∀ item ∈ items, url.value item.1 = Percent.decodeText item.2

section
variable {platform : Platform} {read : String → PairingQuery} {recode : String → String}
  {items : List (String × String)}

/-- The items as they are written. -/
def rawItems (recode : String → String) (items : List (String × String)) :
    List (List Char × List Char) := items.map fun item => (item.1.toList, (recode item.2).toList)

theorem lookup_rawItems (recode : String → String) (hnodup : (items.map Prod.fst).Nodup)
    {item : String × String}
    (hitem : item ∈ items) :
    (rawItems recode items).lookup item.1.toList = some (recode item.2).toList := by
  induction items with
  | nil => cases hitem
  | cons first rest ih =>
      rw [List.map_cons, List.nodup_cons] at hnodup
      rw [rawItems, List.map_cons, List.lookup_cons]
      rcases List.mem_cons.1 hitem with rfl | hrest
      · rw [beq_self_eq_true]
      · have hne : (item.1.toList == first.1.toList) = false := by
          rw [beq_eq_false_iff_ne]
          intro hsame
          exact hnodup.1 (String.toList_inj.1 hsame ▸ List.mem_map_of_mem hrest)
        rw [hne]
        exact ih hnodup.2 hrest

variable (h : Lossless platform read recode) (hwritable : Writable items)
include h hwritable

/-- What is written may be written again. -/
theorem writable_recoded : Writable (recoded recode items) := by
  intro item hitem
  obtain ⟨source, hsource, rfl⟩ := List.mem_map.1 hitem
  obtain ⟨hname, hvalue⟩ := hwritable source hsource
  obtain ⟨text, htext⟩ := hvalue.2
  refine ⟨hname, h.recode_encoded source.2 hvalue, text, ?_⟩
  exact (h.recode_decode source.2 hvalue).trans htext

theorem encoded_rawItems : Percent.Encoded queryChar (Percent.join (rawItems recode items)) := by
  have hquery : ∀ c, itemChar c = true → queryChar c = true := by
    intro c hc
    rw [queryChar, hc]
    rfl
  refine Percent.encoded_join rfl rfl fun raw hraw => ?_
  obtain ⟨item, hitem, rfl⟩ := List.mem_map.1 hraw
  obtain ⟨hname, hvalue⟩ := hwritable item hitem
  refine ⟨Percent.encoded_of_forall fun c hc =>
    hquery c (itemChar_of_unreserved (hname.2 c hc)), ?_⟩
  exact (h.recode_encoded item.2 hvalue).mono hquery

omit h hwritable in
theorem queryOf_recoded :
    queryOf (recoded recode items) = Percent.join (rawItems recode items) := by
  rw [queryOf, recoded, List.map_map]
  rfl

theorem queryUrl_eq (hne : items ≠ []) : platform.queryUrl "society://pair" items =
    "society://pair?" ++ String.ofList (Percent.join (rawItems recode items)) := by
  rw [h.written items hne hwritable, queryOf_recoded]

/-- The text of a link is no longer than its items. -/
theorem size_queryUrl_le (hne : items ≠ []) : size (platform.queryUrl "society://pair" items) ≤
    14 + (items.map fun item => item.1.toList.length + item.2.toList.length + 2).sum := by
  have hunits : ∀ text : List Char, (∀ c ∈ text, c.val.toNat < 0x80) →
      (text.map fun c => if c.val < 0x10000 then 1 else 2).sum = text.length := by
    intro text hall
    induction text with
    | nil => rfl
    | cons c rest ih =>
        have hsmall : c.val < 0x10000 := by
          rw [UInt32.lt_iff_toNat_lt]
          exact (hall c List.mem_cons_self).trans (by decide)
        rw [List.map_cons, List.sum_cons, if_pos hsmall, List.length_cons,
          ih fun d hd => hall d (List.mem_cons_of_mem _ hd), Nat.add_comm]
  have hsmall : ∀ c ∈ Percent.join (rawItems recode items), c.val.toNat < 0x80 := by
    intro c hc
    rcases (encoded_rawItems h hwritable).mem hc with hquery | rfl | hplain
    · exact toNat_lt_of_queryChar hquery
    · decide
    · exact toNat_lt_of_unreserved hplain
  have hstart : ("society://pair?".toList.map fun c => if c.val < 0x10000 then 1 else 2).sum =
      15 := by
    decide
  have hlength : (Percent.join (rawItems recode items)).length + 1 = _ :=
    Percent.length_join (by simpa [rawItems] using hne)
  have hraw : ((rawItems recode items).map fun item => item.1.length + item.2.length + 2).sum ≤
      (items.map fun item => item.1.toList.length + item.2.toList.length + 2).sum := by
    rw [rawItems, List.map_map]
    refine List.sum_le_sum fun item hitem => ?_
    have hvalue := h.recode_length item.2 (hwritable item hitem).2
    simp only [Function.comp_apply]
    omega
  have htext : (platform.queryUrl "society://pair" items).toList =
      "society://pair?".toList ++ Percent.join (rawItems recode items) := by
    rw [queryUrl_eq h hwritable hne]
    exact String.toList_append.trans (congrArg _ String.toList_ofList)
  rw [size, htext, List.map_append, List.sum_append, hstart, hunits _ hsmall]
  omega

/-- **The items are read back.** -/
theorem read_queryUrl (hne : items ≠ []) (hnodup : (items.map Prod.fst).Nodup) :
    ReadBack items (read (platform.queryUrl "society://pair" items)) := by
  have hsplit : Percent.split (Percent.join (rawItems recode items)) = rawItems recode items := by
    refine Percent.split_join (by simpa [rawItems] using hne) fun raw hraw => ?_
    obtain ⟨item, hitem, rfl⟩ := List.mem_map.1 hraw
    obtain ⟨hname, hvalue⟩ := hwritable item hitem
    refine ⟨fun hc => (unreserved_ne (hname.2 _ hc)).1 rfl,
      fun hc => (unreserved_ne (hname.2 _ hc)).2.1 rfl, fun hc => ?_⟩
    rcases (h.recode_encoded item.2 hvalue).mem hc with hplain | hpercent | hplain
    · exact (itemChar_ne hplain).1 rfl
    · exact absurd hpercent (by decide)
    · exact (unreserved_ne hplain).2.1 rfl
  have hparsed := h.parsed (recoded recode items) (by simpa [recoded] using hne)
    (writable_recoded h hwritable)
  rw [queryOf_recoded, ← queryUrl_eq h hwritable hne] at hparsed
  have hnames : ∀ raw ∈ Percent.split (Percent.join (rawItems recode items)), ∀ c ∈ raw.1,
      Percent.unreserved c = true := by
    rw [hsplit]
    intro raw hraw c hc
    obtain ⟨item, hitem, rfl⟩ := List.mem_map.1 hraw
    exact (hwritable item hitem).1.2 c hc
  have hkeys : (rawItems recode items).map (fun item => String.ofList item.1) =
      items.map Prod.fst := by
    rw [rawItems, List.map_map]
    exact List.map_congr_left fun item _ => String.ofList_toList
  refine ⟨hparsed.valid, hparsed.scheme, hparsed.host, hparsed.path, hparsed.userInfo, hparsed.port,
    hparsed.hasFragment, ?_, ?_, fun item hitem hplain => ?_, fun item hitem => ?_⟩
  · rw [hparsed.keys hnames, hsplit, hkeys]
  · rw [hparsed.decodedKeys hnames, hsplit, hkeys]
  · have hlookup := lookup_rawItems recode hnodup hitem
    rw [h.recode_plain item.2 hplain] at hlookup
    rw [← hsplit] at hlookup
    rw [hparsed.item item.1 _ hlookup hplain, String.ofList_toList]
  · have hlookup := lookup_rawItems recode hnodup hitem
    rw [← hsplit] at hlookup
    rw [hparsed.value item.1 _ hlookup]
    rw [h.recode_decode item.2 (hwritable item hitem).2]
    rfl

end

/-! ## Values -/

theorem itemChar_of_isAlphanum {c : Char} (h : c.isAlphanum = true) : itemChar c = true := by
  rw [itemChar, Percent.unreserved, h]
  rfl

theorem itemChar_of_isDigit {c : Char} (h : c.isDigit = true) : itemChar c = true :=
  itemChar_of_isAlphanum (by rw [Char.isAlphanum, h, Bool.or_true])

/-- A value of item characters stands for itself. -/
theorem decodeText_of_itemChar {text : String} (h : ∀ c ∈ text.toList, itemChar c = true) :
    Percent.decodeText text = text :=
  Percent.decodeText_plain fun hmem => (itemChar_ne (h _ hmem)).2 rfl

theorem identifier_itemChar {text : String} (h : identifier text = true) :
    ∀ c ∈ text.toList, itemChar c = true := by
  intro c hc
  rcases identifier_chars h hc with halnum | rfl | rfl | rfl | rfl
  · exact itemChar_of_isAlphanum halnum
  all_goals decide

theorem hexToken_itemChar {text : String} (h : hexToken text = true) :
    ∀ c ∈ text.toList, itemChar c = true := fun c hc =>
  itemChar_of_isAlphanum ((hexToken_chars h).2 c hc)

/-- A value of item characters may be written. -/
theorem encodes_of_forall {value : String} (h : ∀ c ∈ value.toList, itemChar c = true) :
    Encodes value :=
  ⟨Percent.encoded_of_forall h, value.toList,
    Percent.decode_plain fun hmem => (itemChar_ne (h _ hmem)).2 rfl⟩

/-- A percent-encoded value may be written, and stands for the text. -/
theorem encodes_encodeText (text : String) : Encodes (Percent.encodeText text) := by
  rw [Encodes, Percent.encodeText, String.toList_ofList]
  exact ⟨(Percent.encoded_encode text.toList).mono fun c => itemChar_of_unreserved,
    text.toList, Percent.decode_encode text.toList⟩

/-- The names of a link may be written. -/
theorem nameable {names : List String}
    (h : names.all (fun name => name ≠ "" && name.toList.all Percent.unreserved) = true) :
    ∀ name ∈ names, name ≠ "" ∧ ∀ c ∈ name.toList, Percent.unreserved c = true := by
  intro name hname
  have hboth := List.all_eq_true.1 h name hname
  rw [Bool.and_eq_true, decide_eq_true_eq] at hboth
  exact ⟨hboth.1, List.all_eq_true.1 hboth.2⟩

theorem length_encodeText_le (text : String) :
    (Percent.encodeText text).toList.length ≤ 9 * size text := by
  have hchars : ∀ chars : List Char, (Percent.encode chars).length ≤
      9 * (chars.map fun c => if c.val < 0x10000 then 1 else 2).sum := by
    intro chars
    induction chars with
    | nil => exact Nat.le_refl 0
    | cons c rest ih =>
        have hfirst := Percent.length_encodeChar_le c
        rw [Percent.encode, List.flatMap_cons, List.length_append, List.map_cons, List.sum_cons,
          Nat.mul_add]
        exact Nat.add_le_add hfirst ih
  rw [Percent.encodeText, String.toList_ofList]
  exact hchars text.toList

/-- The characters of some texts with separators between them, and how many they are. -/
theorem intercalate_spec (sep : Char) {texts : List (List Char)} {bound : ℕ}
    (h : ∀ text ∈ texts, text.length ≤ bound) :
    (∀ c ∈ [sep].intercalate texts, c = sep ∨ ∃ text ∈ texts, c ∈ text) ∧
      ([sep].intercalate texts).length ≤ texts.length * (bound + 1) := by
  induction texts with
  | nil => exact ⟨fun c hc => (List.not_mem_nil hc).elim, Nat.zero_le _⟩
  | cons text rest ih =>
      have htext := h text List.mem_cons_self
      obtain ⟨hchars, hlength⟩ := ih fun other hother => h other (List.mem_cons_of_mem _ hother)
      cases rest with
      | nil =>
          rw [List.intercalate_singleton, List.length_singleton]
          exact ⟨fun c hc => .inr ⟨text, List.mem_cons_self, hc⟩, by omega⟩
      | cons next others =>
          rw [List.intercalate_cons_cons]
          constructor
          · intro c hc
            rw [List.mem_append, List.mem_append, List.mem_singleton] at hc
            rcases hc with (hfirst | rfl) | hrest
            · exact .inr ⟨text, List.mem_cons_self, hfirst⟩
            · exact .inl rfl
            · refine (hchars c hrest).imp_right ?_
              rintro ⟨other, hother, hmem⟩
              exact ⟨other, List.mem_cons_of_mem _ hother, hmem⟩
          · rw [List.length_append, List.length_append, List.length_singleton, List.length_cons,
              Nat.succ_mul]
            omega

/-! ## The links of a LAN host -/

/-- `IpAddress::string` of an IPv4 address. -/
def DottedQuads (platform : Platform) : Prop :=
  ∀ text address, platform.address text = some address → address.ipv4 = true →
    address.text.toList.length ≤ 15 ∧ ∀ c ∈ address.text.toList, c.isDigit = true ∨ c = '.'

namespace LanLink

variable {platform : Platform} {read : String → PairingQuery} {recode : String → String}
  {link : LanLink}

/-- The port is a `quint16`, and the time a `qint64`. -/
def Representable (link : LanLink) : Prop :=
  link.port < 2 ^ 16 ∧ -2 ^ 63 ≤ link.expiresAt.toMSecs ∧ link.expiresAt.toMSecs < 2 ^ 63

/-- The items of the query. -/
def items (platform : Platform) (link : LanLink) : List (String × String) :=
  [("v", "2"), ("addresses", String.intercalate "," link.addresses), ("port", number link.port),
    ("host", link.hostId), ("name", platform.percentEncoded link.name),
    ("fingerprint", link.fingerprint), ("code", link.code),
    ("expires", number link.expiresAt.toMSecs)]

theorem encode_eq (h : link.valid platform = true) :
    link.encode platform = platform.queryUrl "society://pair" (link.items platform) := by
  rw [encode, if_pos h]
  rfl

/-- What `validLink` checks. -/
structure Checked (platform : Platform) (link : LanLink) : Prop where
  addresses : link.addresses ≠ [] ∧ link.addresses.length ≤ 8 ∧
    ∀ text ∈ link.addresses, localAddress platform text = true
  host : identifier link.hostId = true
  name : size link.name ≤ 128
  fingerprint : hexToken link.fingerprint = true
  code : hexToken link.code = true
  expires : link.expiresAt ≠ ⊥

theorem checked_of_valid (h : link.valid platform = true) : link.Checked platform := by
  simp only [valid, Bool.and_eq_true, decide_eq_true_eq, Bool.not_eq_true', ne_eq] at h
  obtain ⟨⟨⟨⟨⟨⟨⟨⟨⟨hnone, hcount⟩, -⟩, hhost⟩, -⟩, hname⟩, hfingerprint⟩, hcode⟩, hexpires⟩, hall⟩ :=
    h
  refine ⟨⟨?_, hcount, List.all_eq_true.1 hall⟩, hhost, hname, hfingerprint, hcode, hexpires⟩
  rintro hnil
  rw [hnil] at hnone
  cases hnone

/-- The addresses as one value. -/
theorem toList_addresses (link : LanLink) : (String.intercalate "," link.addresses).toList =
    [','].intercalate (link.addresses.map String.toList) := String.toList_intercalate

theorem localAddress_chars (hquads : DottedQuads platform) {text : String}
    (h : localAddress platform text = true) :
    text.toList.length ≤ 15 ∧ ∀ c ∈ text.toList, c.isDigit = true ∨ c = '.' := by
  unfold localAddress at h
  cases haddress : platform.address text with
  | none => simp [haddress] at h
  | some address =>
      simp only [haddress, Bool.and_eq_true, decide_eq_true_eq] at h
      obtain ⟨⟨hipv4, htext⟩, -⟩ := h
      rw [htext]
      exact hquads text address haddress hipv4

section
variable (hquads : DottedQuads platform) (h : link.Checked platform)
include hquads h

theorem addresses_spec : (∀ c ∈ (String.intercalate "," link.addresses).toList, itemChar c = true) ∧
    (String.intercalate "," link.addresses).toList.length ≤ 128 ∧
    ((String.intercalate "," link.addresses).toList.splitOn ',').map String.ofList =
      link.addresses := by
  obtain ⟨hne, hcount, hlocal⟩ := h.addresses
  have hchars : ∀ text ∈ link.addresses.map String.toList,
      text.length ≤ 15 ∧ ∀ c ∈ text, c.isDigit = true ∨ c = '.' := by
    intro text htext
    obtain ⟨address, haddress, rfl⟩ := List.mem_map.1 htext
    exact localAddress_chars hquads (hlocal address haddress)
  obtain ⟨hmem, hlength⟩ := intercalate_spec ',' fun text htext => (hchars text htext).1
  rw [toList_addresses]
  refine ⟨fun c hc => ?_, ?_, ?_⟩
  · rcases hmem c hc with rfl | ⟨text, htext, hc⟩
    · decide
    · rcases (hchars text htext).2 c hc with hdigit | rfl
      · exact itemChar_of_isDigit hdigit
      · decide
  · rw [List.length_map] at hlength
    omega
  · have hcomma : ∀ text ∈ link.addresses.map String.toList, ',' ∉ text := by
      intro text htext hmem
      rcases (hchars text htext).2 ',' hmem with hdigit | hdot
      · exact absurd hdigit (by decide)
      · exact absurd hdot (by decide)
    rw [List.splitOn_intercalate ',' hcomma (by simpa using hne), List.map_map]
    conv_rhs => rw [← List.map_id link.addresses]
    exact List.map_congr_left fun text _ => String.ofList_toList

variable (hlossless : Lossless platform read recode) (hrange : link.Representable)
include hlossless hrange

theorem writable_items : Writable (link.items platform) := by
  have hnames : ∀ name ∈ keys, name ≠ "" ∧ ∀ c ∈ name.toList, Percent.unreserved c = true :=
    nameable (by decide)
  have hvalue : ∀ item ∈ link.items platform, Encodes item.2 := by
    obtain ⟨-, hlow, hhigh⟩ := hrange
    simp only [items, List.forall_mem_cons]
    refine ⟨encodes_of_forall (List.all_eq_true.1 (by decide)),
      encodes_of_forall (addresses_spec hquads h).1, ?_,
      encodes_of_forall (identifier_itemChar h.host), ?_,
      encodes_of_forall (hexToken_itemChar h.fingerprint),
      encodes_of_forall (hexToken_itemChar h.code), ?_, by simp⟩
    · exact encodes_of_forall fun c hc => itemChar_of_isDigit (isDigit_of_mem_number hc)
    · rw [hlossless.percentEncoded]
      exact encodes_encodeText link.name
    · refine encodes_of_forall fun c hc => ?_
      rcases (number_chars hlow hhigh).2 c hc with hdigit | rfl
      · exact itemChar_of_isDigit hdigit
      · decide
  exact fun item hitem => ⟨hnames item.1 (List.mem_map_of_mem hitem), hvalue item hitem⟩

/-- The text fits a QR code: eight addresses, a name of 128 units, each of them nine
characters, and the rest make 1636 characters at most. -/
theorem size_items_le : size (platform.queryUrl "society://pair" (link.items platform)) ≤ 1636 := by
  have hsize := size_queryUrl_le hlossless (writable_items hquads h hlossless hrange)
    (List.cons_ne_nil _ _)
  obtain ⟨hport, hlow, hhigh⟩ := hrange
  have haddresses := (addresses_spec hquads h).2.1
  have hports : (number link.port).toList.length ≤ 5 :=
    number_length_le (by decide) (hport.trans (by decide))
  have hhost := (identifier_spec h.host).1
  have hname := length_encodeText_le link.name
  have hunits := h.name
  have hfingerprint := (hexToken_chars h.fingerprint).1
  have hcode := (hexToken_chars h.code).1
  have hexpires := (number_chars hlow hhigh).1
  have hkeys : "v".toList.length = 1 ∧ "2".toList.length = 1 ∧ "addresses".toList.length = 9 ∧
      "port".toList.length = 4 ∧ "host".toList.length = 4 ∧ "name".toList.length = 4 ∧
      "fingerprint".toList.length = 11 ∧ "code".toList.length = 4 ∧
      "expires".toList.length = 7 := by decide
  obtain ⟨hv, htwo, ha, hp, hh, hn, hf, hc, he⟩ := hkeys
  refine hsize.trans ?_
  simp only [items, List.map_cons, List.map_nil, List.sum_cons, List.sum_nil,
    hlossless.percentEncoded, hv, htwo, ha, hp, hh, hn, hf, hc, he]
  omega

end

/-- **The link a host shows is the link a client reads.** -/
theorem decode_encode (hquads : DottedQuads platform) (hlossless : Lossless platform read recode)
    (hvalid : link.valid platform = true) (hrange : link.Representable) :
    link.encode platform ≠ "" ∧ size (link.encode platform) ≤ 2048 ∧
      decode platform (fun text => (read text).toQuery) (link.encode platform) = some link := by
  have h := checked_of_valid hvalid
  -- What is encoded is what `Lossless` speaks of: items that can be written.
  have hwritable := writable_items hquads h hlossless hrange
  have hsize := size_items_le hquads h hlossless hrange
  have hnames : (link.items platform).map Prod.fst = keys := rfl
  have hback := read_queryUrl hlossless hwritable (List.cons_ne_nil _ _)
    (hnames ▸ (by decide : keys.Nodup))
  rw [encode_eq hvalid]
  refine ⟨fun hempty => ?_, hsize.trans (by decide), ?_⟩
  · have hlist := congrArg String.toList (queryUrl_eq hlossless hwritable (List.cons_ne_nil _ _))
    rw [hempty, String.toList_append] at hlist
    exact absurd (List.append_eq_nil_iff.1 hlist.symm).1 (by decide)
  generalize platform.queryUrl "society://pair" (link.items platform) = text at hsize hback
  -- The reader finds the keys in order, and each value as it was written.
  have hkeys : (read text).keys = keys := hback.keys
  have hversion : (read text).item "v" = "2" := by
    refine hback.item ("v", "2") ?_ (List.all_eq_true.1 (by decide))
    exact List.mem_cons_self
  have hvalue : ∀ key value, (key, value) ∈ link.items platform →
      (∀ c ∈ value.toList, itemChar c = true) → (read text).value key = value :=
    fun key value hitem hchars => (hback.value _ hitem).trans (decodeText_of_itemChar hchars)
  have haddresses := addresses_spec hquads h
  have hname : (read text).value "name" = link.name := by
    rw [hback.value ("name", platform.percentEncoded link.name) (by simp [items]),
      hlossless.percentEncoded, Percent.decodeText_encodeText]
  obtain ⟨hport, hlow, hhigh⟩ := hrange
  have hports : (read text).value "port" = number link.port :=
    hvalue _ _ (by simp [items]) fun c hc => itemChar_of_isDigit (isDigit_of_mem_number hc)
  have hexpires : (read text).value "expires" = number link.expiresAt.toMSecs := by
    refine hvalue _ _ (by simp [items]) fun c hc => ?_
    rcases (number_chars hlow hhigh).2 c hc with hdigit | rfl
    · exact itemChar_of_isDigit hdigit
    · decide
  have htime : ((link.expiresAt.toMSecs : ℤ) : DateTime) = link.expiresAt := by
    cases htime : link.expiresAt using WithBot.recBotCoe with
    | bot => exact absurd htime h.expires
    | coe ms => rfl
  have hlink : ({
      addresses := ((String.intercalate "," link.addresses).toList.splitOn ',').map String.ofList
      port := link.port
      hostId := link.hostId
      name := link.name
      fingerprint := link.fingerprint
      code := link.code
      expiresAt := (link.expiresAt.toMSecs : DateTime) } : LanLink) = link := by
    rw [haddresses.2.2, htime]
  unfold decode
  rw [if_neg (by omega)]
  dsimp only
  rw [if_neg, if_neg, hports, hexpires, uShort_number hport, longLong_number, if_pos ⟨hlow, hhigh⟩]
  · dsimp only
    rw [hvalue "addresses" _ (by simp [items]) haddresses.1,
      hvalue "host" _ (by simp [items]) (identifier_itemChar h.host), hname,
      hvalue "fingerprint" _ (by simp [items]) (hexToken_itemChar h.fingerprint),
      hvalue "code" _ (by simp [items]) (hexToken_itemChar h.code), hlink, if_pos hvalid]
  · rw [hkeys, hversion]
    decide
  · rw [hback.valid, hback.scheme, hback.host, hback.path, hback.userInfo, hback.port,
      hback.hasFragment]
    decide

/-- **An accepted text has the eight names, each once**, and is of version 2. -/
theorem keys_of_decode {read : String → Query} {text : String}
    (h : decode platform read text = some link) :
    (read text).keys.Perm keys ∧ (read text).item "v" = "2" := by
  unfold decode at h
  split at h
  · cases h
  dsimp only at h
  split at h
  · cases h
  split at h
  · cases h
  next hnames =>
  simp only [not_or, not_not] at hnames
  obtain ⟨hlength, ⟨-, hall⟩, hversion⟩ := hnames
  have hnodup : keys.Nodup := by decide
  have height : (read text).keys.length ≤ keys.length := hlength.le
  exact ⟨((List.subperm_of_subset hnodup hall).perm_of_length_le height).symm, hversion⟩

end LanLink

namespace PairingLink

variable {platform : Platform} {read : String → PairingQuery} {recode : String → String}
  {link : PairingLink urls}

theorem writable_items (hlossless : Lossless platform read recode)
    (hhost : identifier link.hostId = true) (hcode : hexToken link.code = true) :
    Writable (link.items platform) := by
  have hnames : ∀ name ∈ keys, name ≠ "" ∧ ∀ c ∈ name.toList, Percent.unreserved c = true :=
    nameable (by decide)
  have hvalue : ∀ item ∈ link.items platform, Encodes item.2 := by
    simp only [items, List.forall_mem_cons, hlossless.percentEncoded]
    exact ⟨encodes_of_forall (List.all_eq_true.1 (by decide)), encodes_encodeText _,
      encodes_of_forall (identifier_itemChar hhost),
      encodes_of_forall (hexToken_itemChar hcode), by simp⟩
  exact fun item hitem => ⟨hnames item.1 (List.mem_map_of_mem hitem), hvalue item hitem⟩

/-- **The link of an offer is read back**, whatever escapes its URL has. -/
theorem decode_encode (hlossless : Lossless platform read recode)
    (hurls : ∀ url, endpoint platform (urls.report url) "wss" "ws" = true →
      urls.strict (urls.encoded url) = url)
    (hne : link.encode platform ≠ "") :
    decode platform read (link.encode platform) = some link := by
  have hvalid : link.valid platform = true := by
    by_contra hinvalid
    exact hne (if_neg hinvalid)
  have hchecks := hvalid
  simp only [valid, Bool.and_eq_true] at hchecks
  obtain ⟨⟨hendpoint, hhost⟩, hcode⟩ := hchecks
  have hwritable := writable_items hlossless hhost hcode
  have hnames : (link.items platform).map Prod.fst = keys := rfl
  have hback := read_queryUrl hlossless hwritable (List.cons_ne_nil _ _)
    (hnames ▸ (by decide : keys.Nodup))
  have htext : link.encode platform = platform.queryUrl "society://pair" (link.items platform) ∧
      size (platform.queryUrl "society://pair" (link.items platform)) ≤ 2048 := by
    rw [encode, if_pos hvalid] at hne ⊢
    by_cases hsize : size (platform.queryUrl "society://pair" (link.items platform)) ≤ 2048
    · exact ⟨if_pos hsize, hsize⟩
    · exact absurd (if_neg hsize) hne
  obtain ⟨hencode, hsize⟩ := htext
  rw [hencode]
  generalize platform.queryUrl "society://pair" (link.items platform) = text at hsize hback
  have hkeys : (read text).decodedKeys = keys := hback.decodedKeys
  have hversion : (read text).item "v" = "1" := by
    refine hback.item ("v", "1") ?_ (List.all_eq_true.1 (by decide))
    exact List.mem_cons_self
  have hrelay : (read text).value "relay" = urls.encoded link.relayUrl := by
    rw [hback.value ("relay", platform.percentEncoded (urls.encoded link.relayUrl))
      (by simp [items]),
      hlossless.percentEncoded, Percent.decodeText_encodeText]
  have hhostValue : (read text).value "host" = link.hostId :=
    (hback.value ("host", link.hostId) (by simp [items])).trans
      (decodeText_of_itemChar (identifier_itemChar hhost))
  have hcodeValue : (read text).value "code" = link.code :=
    (hback.value ("code", link.code) (by simp [items])).trans
      (decodeText_of_itemChar (hexToken_itemChar hcode))
  unfold decode
  rw [if_neg (by omega)]
  dsimp only
  rw [if_neg, if_neg, hrelay, hhostValue, hcodeValue, hurls _ hendpoint, if_pos hvalid]
  · rw [hkeys, hversion]
    decide
  · rw [hback.valid, hback.scheme, hback.host, hback.path, hback.userInfo, hback.port,
      hback.hasFragment]
    decide

/-- **An accepted text has the four names, each once**, and is of version 1. -/
theorem keys_of_decode {text : String} (h : decode platform read text = some link) :
    (read text).decodedKeys.Perm keys ∧ (read text).item "v" = "1" := by
  unfold decode at h
  split at h
  · cases h
  dsimp only at h
  split at h
  · cases h
  split at h
  · cases h
  next hnames =>
  simp only [not_or, not_not] at hnames
  obtain ⟨hlength, ⟨-, hall⟩, hversion⟩ := hnames
  have hnodup : keys.Nodup := by decide
  have hfour : (read text).decodedKeys.length ≤ keys.length := hlength.le
  exact ⟨((List.subperm_of_subset hnodup hall).perm_of_length_le hfour).symm, hversion⟩

end PairingLink

/-- **Pairing links survive encoding**: the text of a valid `LanLink` is at most 2048
characters and is read back; so is the text of a `PairingLink`, where there is one; what
either decoder accepts has each of its names once and no others; and no text is accepted by
both.  Only the first two parts rest on the query, the last two hold of any reader. -/
theorem links_survive (platform : Platform) (read : String → PairingQuery) :
    (∀ recode, Lossless platform read recode → DottedQuads platform →
      ∀ link : LanLink, link.Representable → link.valid platform = true →
        link.encode platform ≠ "" ∧ size (link.encode platform) ≤ 2048 ∧
          LanLink.decode platform (fun text => (read text).toQuery) (link.encode platform) =
            some link) ∧
    (∀ recode, Lossless platform read recode →
      (∀ url, endpoint platform (urls.report url) "wss" "ws" = true →
        urls.strict (urls.encoded url) = url) →
      ∀ link : PairingLink urls, link.encode platform ≠ "" →
        PairingLink.decode platform read (link.encode platform) = some link) ∧
    ∀ text,
      (∀ link, LanLink.decode platform (fun text => (read text).toQuery) text = some link →
        (read text).keys.Perm LanLink.keys) ∧
      (∀ link : PairingLink urls, PairingLink.decode platform read text = some link →
        (read text).decodedKeys.Perm PairingLink.keys) ∧
      ∀ (first : LanLink) (second : PairingLink urls),
        LanLink.decode platform (fun text => (read text).toQuery) text = some first →
          PairingLink.decode platform read text ≠ some second := by
  refine ⟨fun recode hlossless hquads link hrange hvalid => ?_,
    fun recode hlossless hurls link hne => ?_, fun text =>
    ⟨fun link h => (LanLink.keys_of_decode h).1, fun link h => (PairingLink.keys_of_decode h).1,
      fun first second hfirst hsecond => ?_⟩⟩
  · exact LanLink.decode_encode hquads hlossless hvalid hrange
  · exact PairingLink.decode_encode hlossless hurls hne
  · have hlan := (LanLink.keys_of_decode hfirst).2
    have hrelay := (PairingLink.keys_of_decode hsecond).2
    rw [hlan] at hrelay
    exact absurd hrelay (by decide)

/-- A platform whose queries are written as they are, and that knows one address. -/
def Platform.written : Platform := { Platform.sample with
  address text := if text = "127.0.0.1" then some
    { text := text, ipv4 := true, bytes := [127, 0, 0, 1], loopback := true } else none
  percentEncoded := Percent.encodeText
  queryUrl base items := base ++ "?" ++ String.ofList (queryOf items) }

/-- The texts of this platform, read. -/
def readWritten (text : String) : PairingQuery :=
  let query := Percent.split (text.toList.drop 15)
  { valid := startsWith text "society://pair?"
    scheme := "society"
    host := "pair"
    keys := query.map fun item => String.ofList item.1
    decodedKeys := query.map fun item => Percent.textOf (Percent.decode item.1)
    item := fun key => ((query.lookup key.toList).map String.ofList).getD ""
    value := fun key => ((query.lookup key.toList).map fun raw =>
      Percent.textOf (Percent.decode raw)).getD "" }

theorem parsed_written (query : List Char) :
    Parsed query (readWritten ("society://pair?" ++ String.ofList query)) := by
  have htext : ("society://pair?" ++ String.ofList query).toList =
      "society://pair?".toList ++ query :=
    String.toList_append.trans (congrArg _ String.toList_ofList)
  have hdrop : ("society://pair?" ++ String.ofList query).toList.drop 15 = query := by
    rw [htext]
    exact List.drop_left' (by decide)
  refine ⟨?_, rfl, rfl, rfl, rfl, rfl, rfl, fun _ => ?_, fun hplain => ?_,
    fun key raw hlookup _ => ?_,
    fun key raw hlookup => ?_⟩
  · rw [readWritten]
    dsimp only
    rw [startsWith, htext, List.isPrefixOf_iff_prefix]
    exact List.prefix_append _ _
  · rw [readWritten, hdrop]
  · rw [readWritten, hdrop]
    refine List.map_congr_left fun item hitem => ?_
    rw [Percent.decode_plain fun hc => (unreserved_ne (hplain item hitem _ hc)).2.2 rfl,
      Percent.textOf_bytesOf]
  · rw [readWritten, hdrop]
    dsimp only
    rw [hlookup]
    rfl
  · rw [readWritten, hdrop]
    dsimp only
    rw [hlookup]
    rfl

theorem lossless_written : Lossless .written readWritten id where
  percentEncoded _ := rfl
  recode_encoded _ h := h.1
  recode_decode _ _ := rfl
  recode_length _ _ := Nat.le_refl _
  recode_plain _ _ := rfl
  written items _ _ := by
    have hbase : "society://pair" ++ "?" = "society://pair?" := by decide
    have hurl : Platform.written.queryUrl "society://pair" items =
        "society://pair" ++ "?" ++ String.ofList (queryOf items) := rfl
    rw [hurl, hbase]
    simp [recoded]
  parsed items _ _ := parsed_written (queryOf items)

/-- URLs that are their texts. -/
def textUrls : UrlType where
  Value := String
  report text := { valid := true, scheme := "wss", host := "h", port := -1, text := text }
  strict := id
  encoded := id

def shownLink : LanLink where
  addresses := ["127.0.0.1"]
  port := 8080
  hostId := "host:1"
  name := "Büro & Küche"
  fingerprint := String.ofList (List.replicate 64 'f')
  code := String.ofList (List.replicate 64 '0')
  expiresAt := ((1700000000000 : ℤ) : DateTime)

def offeredLink : PairingLink textUrls where
  relayUrl := "wss://h/relay%2Fsegment/%25encoded"
  hostId := "host:1"
  code := String.ofList (List.replicate 64 '0')

theorem links_survive_written :
    LanLink.decode .written (fun text => (readWritten text).toQuery)
        (shownLink.encode .written) = some shownLink ∧
      PairingLink.decode .written readWritten (offeredLink.encode .written) =
        some offeredLink ∧
      (readWritten (offeredLink.encode .written)).decodedKeys.Perm PairingLink.keys ∧
      LanLink.decode .written (fun text => (readWritten text).toQuery)
        (offeredLink.encode .written) = none := by
  have hquads : DottedQuads .written := by
    intro text address haddress _
    have hone : (if text = "127.0.0.1" then some
        { text := text, ipv4 := true, bytes := [127, 0, 0, 1], loopback := true } else none :
          Option Address) = some address := haddress
    split at hone
    · next htext =>
        obtain rfl := Option.some.inj hone
        subst htext
        have hall : "127.0.0.1".toList.all (fun c => c.isDigit || c = '.') = true := by decide
        refine ⟨by decide, fun c hc => ?_⟩
        simpa using List.all_eq_true.1 hall c hc
    · cases hone
  have hvalid : shownLink.valid .written = true := by decide +kernel
  have hrange : shownLink.Representable := by
    refine ⟨by decide, ?_, ?_⟩ <;> decide
  have hne : offeredLink.encode .written ≠ "" := by decide +kernel
  obtain ⟨hlan, hrelay, htexts⟩ := links_survive .written readWritten
  have hshown := (hlan id lossless_written hquads shownLink hrange hvalid).2.2
  have hoffered := hrelay id lossless_written (fun (url : textUrls.Value) _ => rfl) offeredLink hne
  obtain ⟨-, hnames, hboth⟩ := htexts (offeredLink.encode .written)
  refine ⟨hshown, hoffered, hnames offeredLink hoffered, ?_⟩
  -- the text of the relay's link is no link of the LAN
  exact Option.eq_none_iff_forall_ne_some.2 fun link hlink => hboth link offeredLink hlink hoffered

end ServerHost
