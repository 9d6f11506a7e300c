import Mathlib.Data.List.Forall2
import Mathlib.Data.Nat.Bitwise
import ServerHost.Protocol

/-!
# The link a LAN host shows

`LanLink` and the functions of `LanPeer.cpp` that compute from a link: the text
of the QR code, the comparison of codes, the context an account proof signs and
the code two people compare.
-/

namespace ServerHost

/-! ## The link -/

structure LanLink where
  addresses : List String := []
  port : ℕ := 0
  hostId : String := ""
  name : String := ""
  fingerprint : String := ""
  code : String := ""
  expiresAt : DateTime := ⊥

namespace LanLink

variable (platform : Platform)

/-- `LanLink::localAddress`. -/
def localAddress (text : String) : Bool :=
  match platform.address text with
  | none => false
  | some address =>
      address.ipv4 && text = address.text &&
        (address.loopback || address.bytes.getD 0 0 = 10 ||
          (address.bytes.getD 0 0 = 172 && 16 ≤ address.bytes.getD 1 0 &&
            address.bytes.getD 1 0 ≤ 31) ||
          (address.bytes.getD 0 0 = 192 && address.bytes.getD 1 0 = 168))

/-- `validLink`. -/
def valid (link : LanLink) : Bool :=
  !link.addresses.isEmpty && link.addresses.length ≤ 8 && link.port ≠ 0 &&
    identifier link.hostId && link.name ≠ "" && size link.name ≤ 128 &&
    hexToken link.fingerprint && hexToken link.code && link.expiresAt ≠ ⊥ &&
    link.addresses.all (localAddress platform)

/-- `LanLink::encode`. -/
def encode (link : LanLink) : String :=
  if link.valid platform then
    platform.queryUrl "society://pair" [("v", "2"),
      ("addresses", String.intercalate "," link.addresses),
      ("port", number link.port), ("host", link.hostId),
      ("name", platform.percentEncoded link.name), ("fingerprint", link.fingerprint),
      ("code", link.code), ("expires", number link.expiresAt.toMSecs)]
  else ""

/-- What `QUrl` in strict mode and `QUrlQuery` report about a text. -/
structure Query where
  valid : Bool
  scheme : String
  host : String
  path : String := ""
  userInfo : String := ""
  port : ℤ := -1
  hasFragment : Bool := false
  /-- The names of `queryItems`, in order. -/
  keys : List String
  /-- `queryItemValue`. -/
  item : String → String
  /-- `queryItemValue`, fully decoded. -/
  value : String → String

/-- The names a link has, each once. -/
def keys : List String :=
  ["v", "addresses", "port", "host", "name", "fingerprint", "code", "expires"]

/-! ## Reading a link -/

/-- `LanLink::decode`. -/
def decode (read : String → Query) (text : String) : Option LanLink :=
  if size text > 2048 then none
  else
    let url := read text
    if ¬ url.valid ∨ url.scheme ≠ "society" ∨ url.host ≠ "pair" ∨ url.path ≠ "" ∨
        url.userInfo ≠ "" ∨ url.port ≠ -1 ∨ url.hasFragment then none
    else if url.keys.length ≠ 8 ∨ ¬ (url.keys ⊆ keys ∧ keys ⊆ url.keys) ∨
        url.item "v" ≠ "2" then none
    else match uShort (url.value "port"), longLong (url.value "expires") with
      | some port, some expires =>
          let link : LanLink := {
            addresses := ((url.value "addresses").toList.splitOn ',').map String.ofList
            port := port
            hostId := url.value "host"
            name := url.value "name"
            fingerprint := url.value "fingerprint"
            code := url.value "code"
            expiresAt := expires }
          if link.valid platform then some link else none
      | _, _ => none

/-! ## What is signed -/

/-- `authenticationContext`. -/
def authenticationContext (link : LanLink) (peer nonce : String) : String :=
  platform.compact (.array [.string link.hostId, .string peer, .string link.fingerprint,
    .string link.code, .string nonce])

/-- `verification`. -/
def verification (link : LanLink) (peerId nonce : String) : String :=
  let text := link.fingerprint ++ ":" ++ link.code ++ ":" ++ peerId ++ ":" ++ nonce
  let digest := ((platform.sha256 (toUtf8 text)).toList.take 12).map Char.toUpper
  String.ofList (digest.take 4 ++ '-' :: (digest.drop 4).take 4 ++ '-' :: (digest.drop 8).take 4)

end LanLink

/-- `sameCode`: the bytes are compared without an early exit. -/
def sameCode (a b : String) : Bool :=
  let first := toLatin1 a
  let second := toLatin1 b
  first.length = 64 && second.length = 64 &&
    (List.zipWith (· ^^^ ·) first second).foldl (· ||| ·) 0 = 0

/-! ## What `sameCode` accepts -/

private theorem foldl_or_eq_zero {list : List ℕ} {start : ℕ} :
    list.foldl (· ||| ·) start = 0 ↔ start = 0 ∧ ∀ byte ∈ list, byte = 0 := by
  induction list generalizing start with
  | nil => simp
  | cons byte rest ih => simp [ih, and_assoc]

private theorem zipWith_xor_eq_zero {first second : List ℕ} (h : first.length = second.length) :
    (∀ byte ∈ List.zipWith (· ^^^ ·) first second, byte = 0) ↔ first = second := by
  induction first generalizing second with
  | nil =>
      cases second with
      | nil => simp
      | cons _ _ => simp at h
  | cons byte rest ih =>
      cases second with
      | nil => simp at h
      | cons other others =>
          simp only [List.length_cons, Nat.add_right_cancel_iff] at h
          simp [ih h]

theorem sameCode_iff {a b : String} :
    sameCode a b = true ↔ (toLatin1 a).length = 64 ∧ toLatin1 a = toLatin1 b := by
  simp only [sameCode, Bool.and_eq_true, decide_eq_true_eq, foldl_or_eq_zero, true_and]
  constructor
  · rintro ⟨⟨hfirst, hsecond⟩, hzero⟩
    exact ⟨hfirst, (zipWith_xor_eq_zero (hfirst.trans hsecond.symm)).1 hzero⟩
  · rintro ⟨hfirst, hsame⟩
    have hsecond : (toLatin1 b).length = 64 := hsame ▸ hfirst
    exact ⟨⟨hfirst, hsecond⟩, (zipWith_xor_eq_zero (hfirst.trans hsecond.symm)).2 hsame⟩

/-- Only the code itself is the same as a generated code. -/
theorem eq_of_sameCode {text : String} {token : Token} (h : sameCode text token.text = true) :
    text = token.text :=
  Token.eq_of_toLatin1 (sameCode_iff.1 h).2

end ServerHost
