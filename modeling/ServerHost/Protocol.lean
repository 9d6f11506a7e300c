import ServerHost.Qt

/-!
# What every party of the protocol shares

`Protocol.h`: identifiers, endpoints, principals and error objects.  `Platform`
collects what the sources take from Qt and iiNetwork without defining it.
-/

namespace ServerHost

/-- A socket object.  Numbers are never reused. -/
abbrev Socket := ℕ

/-! ## Identifiers and tokens -/

private def identifierChar (c : Char) : Bool :=
  c.isAlphanum || c = '_' || c = '.' || c = ':' || c = '-'

/-- `identifier`: the pattern `\A[a-zA-Z0-9_.:-]\x7b1,128\x7d\z`. -/
def identifier (text : String) : Bool :=
  1 ≤ text.toList.length && text.toList.length ≤ 128 && text.toList.all identifierChar

private def hexChar (c : Char) : Bool := c.isDigit || ('a' ≤ c && c ≤ 'f')

/-- `hexToken`: the pattern `\A[a-f0-9]\x7b64\x7d\z`. -/
def hexToken (text : String) : Bool :=
  text.toList.length = 64 && text.toList.all hexChar

/-- Thirty-two random bytes in hexadecimal. -/
structure Token where
  text : String
  hex : hexToken text = true

theorem identifier_ne_empty {text : String} (h : identifier text = true) : text ≠ "" := by
  rintro rfl
  simp [identifier] at h

theorem isUpper_eq (c : Char) : c.isUpper = decide (c.val ≥ 'A'.val ∧ c.val ≤ 'Z'.val) := rfl

theorem isLower_eq (c : Char) : c.isLower = (c.val ≥ 'a'.val && c.val ≤ 'z'.val) := rfl

theorem isAlpha_eq (c : Char) : c.isAlpha = (c.isUpper || c.isLower) := rfl

private theorem identifierChar_val {c : Char} (h : identifierChar c = true) :
    0x2d ≤ c.val.toNat ∧ c.val.toNat < 0x80 ∧ c.val.toNat ≠ 0x5c := by
  simp only [identifierChar, Char.isAlphanum, isAlpha_eq, isUpper_eq, isLower_eq,
    Char.isDigit, Bool.or_eq_true, Bool.and_eq_true, decide_eq_true_eq, UInt32.le_iff_toNat_le,
    ge_iff_le] at h
  have hA : ('A' : Char).val.toNat = 65 := rfl
  have hZ : ('Z' : Char).val.toNat = 90 := rfl
  have ha : ('a' : Char).val.toNat = 97 := rfl
  have hz : ('z' : Char).val.toNat = 122 := rfl
  have h0 : ('0' : Char).val.toNat = 48 := rfl
  have h9 : ('9' : Char).val.toNat = 57 := rfl
  rcases h with (((hletter | rfl) | rfl) | rfl) | rfl
  · omega
  all_goals decide

/-- An identifier is short, and its characters are printed as they are. -/
theorem identifier_spec {text : String} (h : identifier text = true) :
    text.toList.length ≤ 128 ∧ ∀ c ∈ text.toList,
      0x2d ≤ c.val.toNat ∧ c.val.toNat < 0x80 ∧ c.val.toNat ≠ 0x5c := by
  simp only [identifier, Bool.and_eq_true, decide_eq_true_eq, List.all_eq_true] at h
  exact ⟨h.1.2, fun c hc => identifierChar_val (h.2 c hc)⟩

/-- The characters of identifiers and tokens. -/
theorem identifier_chars {text : String} (h : identifier text = true) {c : Char}
    (hc : c ∈ text.toList) : c.isAlphanum = true ∨ c = '_' ∨ c = '.' ∨ c = ':' ∨ c = '-' := by
  simp only [identifier, Bool.and_eq_true, List.all_eq_true] at h
  simpa only [identifierChar, Bool.or_eq_true, decide_eq_true_eq, or_assoc] using h.2 c hc

theorem hexToken_chars {text : String} (h : hexToken text = true) : text.toList.length = 64 ∧
    ∀ c ∈ text.toList, c.isAlphanum = true := by
  simp only [hexToken, Bool.and_eq_true, decide_eq_true_eq, List.all_eq_true] at h
  refine ⟨h.1, fun c hc => ?_⟩
  have hchar := h.2 c hc
  simp only [hexChar, Bool.or_eq_true, Bool.and_eq_true, decide_eq_true_eq] at hchar
  rw [Char.isAlphanum, Bool.or_eq_true]
  refine hchar.symm.imp_left fun hletter => ?_
  rw [isAlpha_eq, Bool.or_eq_true]
  refine .inr ?_
  have hf : ('f' : Char).val.toNat = 102 := rfl
  have hz : ('z' : Char).val.toNat = 122 := rfl
  simp only [isLower_eq, ge_iff_le, Bool.and_eq_true, decide_eq_true_eq, Char.le_def,
    UInt32.le_iff_toNat_le] at hletter ⊢
  omega

private theorem hexChar_val {c : Char} (h : hexChar c = true) :
    c.val.toNat < 0x100 ∧ c.val.toNat ≠ 0x3f := by
  simp only [hexChar, Char.isDigit, Bool.or_eq_true, Bool.and_eq_true, decide_eq_true_eq,
    Char.le_def, UInt32.le_iff_toNat_le, ge_iff_le] at h
  have h0 : ('0' : Char).val.toNat = 48 := rfl
  have h9 : ('9' : Char).val.toNat = 57 := rfl
  have ha : ('a' : Char).val.toNat = 97 := rfl
  have hf : ('f' : Char).val.toNat = 102 := rfl
  omega

/-- A hexadecimal text has one spelling in Latin-1. -/
private theorem eq_of_latin1_hex {first second : List Char} (hhex : second.all hexChar = true)
    (h : first.flatMap (fun c => if c.val < 0x100 then [c.val.toNat]
        else if c.val < 0x10000 then [0x3f] else [0x3f, 0x3f]) =
      second.flatMap (fun c => if c.val < 0x100 then [c.val.toNat]
        else if c.val < 0x10000 then [0x3f] else [0x3f, 0x3f])) : first = second := by
  induction second generalizing first with
  | nil =>
      cases first with
      | nil => rfl
      | cons c rest =>
          exfalso
          simp only [List.flatMap_cons, List.flatMap_nil, List.append_eq_nil_iff] at h
          obtain ⟨hhead, -⟩ := h
          split_ifs at hhead
  | cons d others ih =>
      simp only [List.all_cons, Bool.and_eq_true] at hhex
      obtain ⟨hsmall, hmark⟩ := hexChar_val hhex.1
      have hd : d.val < 0x100 := by rw [UInt32.lt_iff_toNat_lt]; exact hsmall
      rw [List.flatMap_cons, if_pos hd] at h
      cases first with
      | nil => simp at h
      | cons c rest =>
          rw [List.flatMap_cons] at h
          -- a character out of Latin-1 becomes `?`, which no digit is
          split_ifs at h with hc hwide
          · simp only [List.cons_append, List.nil_append, List.cons.injEq] at h
            have hcd : c = d := Char.ext (UInt32.toNat_inj.1 h.1)
            rw [hcd, ih hhex.2 h.2]
          · simp only [List.cons_append, List.nil_append, List.cons.injEq] at h
            exact absurd h.1.symm hmark
          · simp only [List.cons_append, List.nil_append, List.cons.injEq] at h
            exact absurd h.1.symm hmark

/-- A token has one spelling in Latin-1. -/
theorem Token.eq_of_toLatin1 {text : String} {token : Token}
    (h : toLatin1 text = toLatin1 token.text) : text = token.text := by
  have hhex := token.hex
  simp only [hexToken, Bool.and_eq_true] at hhex
  exact String.toList_inj.1 (eq_of_latin1_hex hhex.2 h)

/-! ## Addresses, URLs and the platform -/

/-- What `ii::network::IpAddress` reports about an address. -/
structure Address where
  text : String
  ipv4 : Bool
  bytes : List ℕ
  loopback : Bool
  multicast : Bool := false
  unspecified : Bool := false

/-- An entry of `ii::network::interfaces`. -/
structure Interface where
  address : String
  prefixLength : ℕ
  loopback : Bool := false
  ipv4 : Bool := true

/-- What `QUrl` reports about a parsed URL; `port` is `-1` when there is none. -/
structure Url where
  valid : Bool
  scheme : String
  host : String
  port : ℤ
  userInfo : String := ""
  hasQuery : Bool := false
  hasFragment : Bool := false
  /-- `toString`. -/
  text : String

/-- The parts of Qt and iiNetwork that the program calls: parsing, digests,
random values and the printed size of JSON. -/
structure Platform where
  /-- The values `uuid` returns, in order.  They never repeat. -/
  uuid : ℕ → String
  uuid_injective : Function.Injective uuid
  /-- The values read from `QRandomGenerator::system`, in order. -/
  random : ℕ → Token
  /-- SHA-256 of some bytes, in hexadecimal. -/
  sha256 : List ℕ → String
  url : String → Url
  address : String → Option Address
  /-- `IpSubnet::contains`, of the subnet of an address with a prefix length. -/
  inSubnet : Address → ℕ → Address → Bool
  /-- The text of a `QUrl` with this scheme, host and port. -/
  linkUrl : String → String → ℕ → String
  /-- `QJsonDocument::toJson().size()`. -/
  jsonSize : JsonObject → ℕ
  /-- `QJsonDocument::toJson(Compact)`. -/
  compact : Json → String
  /-- `QUrl::toPercentEncoding`. -/
  percentEncoded : String → String
  /-- The text of a `QUrl` with these query items. -/
  queryUrl : String → List (String × String) → String

/-- A platform to run small examples on. -/
def Platform.sample : Platform where
  uuid := Nat.repr
  uuid_injective m n h := by
    have hdigits := congrArg String.toList h
    rw [Nat.toList_repr, Nat.toList_repr] at hdigits
    rw [← Nat.ofDigitChars_ten_toDigits (n := m), hdigits, Nat.ofDigitChars_ten_toDigits]
  random _ := ⟨String.ofList (List.replicate 64 '0'), by decide⟩
  sha256 bytes := String.ofList (bytes.map Char.ofNat)
  url text := { valid := true, scheme := "ws", host := "127.0.0.1", port := 80, text := text }
  address text := some { text := text, ipv4 := true, bytes := [127, 0, 0, 1], loopback := true }
  inSubnet _ _ _ := true
  linkUrl scheme host _ := scheme ++ host
  jsonSize _ := 0
  compact _ := ""
  percentEncoded text := text
  queryUrl url _ := url

/-- `loopback`. -/
def loopback (platform : Platform) (host : String) : Bool :=
  match platform.address host with
  | some address => address.loopback
  | none => false

/-- `endpoint`. -/
def endpoint (platform : Platform) (url : Url) (secure plain : String) : Bool :=
  url.valid && url.host ≠ "" && url.port ≠ 0 && !url.hasFragment && !url.hasQuery &&
    url.userInfo = "" &&
    (url.scheme = secure || (url.scheme = plain && loopback platform url.host))

/-! ## Principals and messages -/

/-- The largest message on the wire. -/
def wireLimit : ℕ := 1024 * 1024

structure Principal where
  accountId : String := ""
  expiresAt : DateTime := ⊥
  deriving Inhabited

/-- `live`. -/
def live (now : ℤ) (principal : Principal) : Bool :=
  principal.accountId ≠ "" && size principal.accountId ≤ 256 &&
    (now : DateTime) < principal.expiresAt

theorem live_accountId {now : ℤ} {principal : Principal} (h : live now principal = true) :
    principal.accountId ≠ "" := by
  simp only [live, Bool.and_eq_true, decide_eq_true_eq] at h
  exact h.1.1

theorem live_expiresAt {now : ℤ} {principal : Principal} (h : live now principal = true) :
    (now : DateTime) < principal.expiresAt := by
  simp only [live, Bool.and_eq_true, decide_eq_true_eq] at h
  exact h.2

@[simp] theorem live_default (now : ℤ) : live now {} = false := by
  simp [live]

/-- `error`. -/
def errorObject (code : String) : JsonObject :=
  ⟨[("ok", .bool false), ("error", .string code)]⟩

/-- The type a message carries. -/
def messageType (message : JsonObject) : String := (message.value "type").toString

end ServerHost
