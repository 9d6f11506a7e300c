import ServerHost.Storage.Server

/-!
# The requests of a `FileTransfer`

`TransferRequest`, the protocols that the linked libcurl leaves, and `validate`, which
returns the empty text for a request that may be performed.
-/

namespace ServerHost

namespace Transfer

open Storage

/-! ## The data -/

inductive TransferOperation where
  | download | upload | list
  deriving DecidableEq

structure TransferProtocol where
  scheme : String
  download : Bool
  upload : Bool
  list : Bool
  encrypted : Bool

/-- What `QUrl` reports about the URL of a request, next to `Url`. -/
structure TransferUrl extends Url where
  relative : Bool := false
  /-- The size of `toEncoded`. -/
  encodedSize : ℕ
  localFile : String := ""

structure TransferRequest where
  url : TransferUrl
  operation : TransferOperation := .download
  localPath : String
  username : String := ""
  password : Bytes := []
  bearerToken : Bytes := []
  sshKnownHosts : String := ""
  keyPassword : Bytes := []
  awsSigV4 : String := ""
  httpVersion : String := ""
  allowCleartext : Bool := false
  maximumBytes : ℤ := 0
  /-- The limit is a `qint64`. -/
  maximumRange : -2 ^ 63 ≤ maximumBytes ∧ maximumBytes < 2 ^ 63 := by decide
  expectedSha256 : String := ""
  connectTimeoutMs : ℤ := 10000
  timeoutMs : ℤ := 300000

/-- What `curl_version_info` and `curl_global_init` report. -/
structure Curl where
  ready : Bool
  protocols : List String
  ssl : Bool
  http2 : Bool
  http3 : Bool

/-! ## What curl can do -/

/-- `wireScheme`. -/
def wireScheme (scheme : String) : String :=
  if scheme = "webdav" then "http"
  else if scheme = "webdavs" then "https"
  else if scheme = "ftpes" then "ftp"
  else scheme

/-- The protocols of the module. -/
def candidates : List TransferProtocol :=
  [⟨"file", true, true, false, false⟩, ⟨"http", true, true, false, false⟩,
    ⟨"https", true, true, false, true⟩, ⟨"webdav", true, true, true, false⟩,
    ⟨"webdavs", true, true, true, true⟩, ⟨"ftp", true, true, true, false⟩,
    ⟨"ftps", true, true, true, true⟩, ⟨"ftpes", true, true, true, true⟩,
    ⟨"sftp", true, true, true, true⟩, ⟨"scp", true, true, false, true⟩,
    ⟨"tftp", true, true, false, false⟩, ⟨"smb", true, true, false, false⟩,
    ⟨"smbs", true, true, false, true⟩, ⟨"gopher", true, false, false, false⟩,
    ⟨"gophers", true, false, false, true⟩]

/-- `FileTransfer::protocols`. -/
def Curl.available (curl : Curl) : List TransferProtocol :=
  if ¬ curl.ready then []
  else candidates.filter fun candidate =>
    wireScheme candidate.scheme ∈ curl.protocols && (candidate.scheme ≠ "ftpes" || curl.ssl)

/-- `FileTransfer::httpVersions`. -/
def Curl.httpVersions (curl : Curl) : List String :=
  if ¬ curl.ready then []
  else if ¬ curl.available.any fun p => p.scheme = "http" || p.scheme = "https" then []
  else ["1.0", "1.1"] ++ (if curl.http2 then ["2"] else []) ++ (if curl.http3 then ["3"] else [])

/-! ## The texts of a request -/

private def hexDigit (c : Char) : Bool :=
  c.isDigit || ('a' ≤ c && c ≤ 'f') || ('A' ≤ c && c ≤ 'F')

/-- A text without a last line feed, as `$` ends a pattern. -/
private def line (text : String) : List Char :=
  if text.toList.getLast? = some '\n' then text.toList.dropLast else text.toList

/-- The pattern `^[a-fA-F0-9]\x7b64\x7d$`. -/
def validChecksum (text : String) : Bool :=
  let chars := line text
  chars.length = 64 && chars.all hexDigit

private def regionChar (c : Char) : Bool := c.isAlphanum || c = '_' || c = '-'

/-- Four nonempty words between colons, as the pattern of `awsSigV4` has them. -/
def validSigV4 (text : String) : Bool :=
  let words := (line text).splitOn ':'
  words.length = 4 && words.all fun word => word ≠ [] && word.all regionChar

section
variable {text : String}

private theorem regionChar_or_colon (h : validSigV4 text = true) {c : Char} (hc : c ∈ line text) :
    c = ':' ∨ regionChar c = true := by
  obtain ⟨-, hwords⟩ := Bool.and_eq_true_iff.1 h
  refine (Words.eq_or_mem_splitOn hc).imp_right ?_
  rintro ⟨word, hword, hmem⟩
  have hchars := List.all_eq_true.1 hwords word hword
  exact List.all_eq_true.1 (Bool.and_eq_true_iff.1 hchars).2 c hmem

private theorem mem_line {c : Char} (hc : c ∈ text.toList) :
    c ∈ line text ∨ c = '\n' ∧ text.toList.getLast? = some '\n' := by
  unfold line
  split
  · next hlast =>
      obtain ⟨start, hstart⟩ := List.getLast?_eq_some_iff.1 hlast
      rw [hstart, List.dropLast_concat]
      rw [hstart, List.mem_append, List.mem_singleton] at hc
      exact hc.imp_right fun hsame => ⟨hsame, by simp⟩
  · exact .inl hc

/-- What the pattern of `awsSigV4` lets through: a line feed at the end, and no other
character that ends a line or a text. -/
theorem validSigV4_chars (h : validSigV4 text = true) : '\r' ∉ text.toList ∧
    '\x00' ∉ text.toList ∧ ('\n' ∈ text.toList ↔ text.toList.getLast? = some '\n') := by
  have hout : ∀ c : Char, c ≠ ':' → regionChar c = false → c ∉ line text := by
    intro c hcolon hregion hc
    rcases regionChar_or_colon h hc with hsame | htrue
    · exact hcolon hsame
    · rw [hregion] at htrue
      cases htrue
  refine ⟨fun hc => ?_, fun hc => ?_, fun hc => ?_, fun hlast => List.mem_of_getLast? hlast⟩
  · rcases mem_line hc with hline | ⟨hsame, -⟩
    · exact hout '\r' (by decide) (by decide) hline
    · exact absurd hsame (by decide)
  · rcases mem_line hc with hline | ⟨hsame, -⟩
    · exact hout '\x00' (by decide) (by decide) hline
    · exact absurd hsame (by decide)
  · rcases mem_line hc with hline | ⟨-, hlast⟩
    · exact absurd hline (hout '\n' (by decide) (by decide))
    · exact hlast

end

variable (platform : Platform) (disk : Disk) (curl : Curl)

/-! ## The checks -/

/-- A file that may be read, by its absolute path. -/
def readableFile (path : String) : Bool := absoluteFile disk path && (disk.info path).isReadable

/-- The checks of `validate` that depend on the URL. -/
def validateUrl (r : TransferRequest) (p : TransferProtocol) : String :=
  if r.url.scheme = "file" then
    if r.url.host ≠ "" ∨ r.url.hasQuery ∨ ¬ isAbsolutePath r.url.localFile then "invalid_url"
    else ""
  else if r.url.host = "" then "invalid_url"
  else if ¬ p.encrypted ∧ ¬ r.allowCleartext ∧ ¬ loopback platform r.url.host then
    "cleartext_disabled"
  else ""

/-- `validate`. -/
def validate (r : TransferRequest) : String :=
  let scheme := r.url.scheme
  let web : Prop := wireScheme scheme = "http" ∨ wireScheme scheme = "https"
  if ¬ r.url.valid ∨ r.url.relative ∨ r.url.userInfo ≠ "" ∨ r.url.hasFragment ∨ r.url.port = 0 ∨
      r.url.encodedSize > 16384 then "invalid_url"
  else if r.httpVersion ≠ "" ∧ (r.httpVersion ∉ curl.httpVersions ∨ ¬ web) then
    "unsupported_http_version"
  else if r.httpVersion = "3" ∧ wireScheme scheme ≠ "https" then "unsupported_http_version"
  else match curl.available.find? fun p => p.scheme = scheme with
    | none => "unsupported_protocol"
    | some p =>
        let misplaced := validateUrl platform r p
        if (r.operation = .upload ∧ ¬ p.upload) ∨ (r.operation = .list ∧ ¬ p.list) then
          "unsupported_operation"
        else if misplaced ≠ "" then misplaced
        else if r.expectedSha256 ≠ "" ∧ ¬ validChecksum r.expectedSha256 then "invalid_checksum"
        else if r.timeoutMs ≤ 0 ∨ r.connectTimeoutMs ≤ 0 ∨ r.maximumBytes < 0 then "invalid_limits"
        else if (scheme = "sftp" ∨ scheme = "scp") ∧ ¬ readableFile disk r.sshKnownHosts then
          "ssh_known_hosts_required"
        else if ¬ isAbsolutePath r.localPath ∨ '\x00' ∈ r.localPath.toList then "invalid_local_path"
        else if '\x00' ∈ r.username.toList ∨ 0 ∈ r.password ∨ 0 ∈ r.keyPassword ∨
            0 ∈ r.bearerToken ∨ 13 ∈ r.bearerToken ∨ 10 ∈ r.bearerToken then "invalid_credentials"
        else if (r.bearerToken ≠ [] ∨ r.awsSigV4 ≠ "") ∧ ¬ web then "unsupported_authentication"
        else if r.awsSigV4 ≠ "" ∧ (r.bearerToken ≠ [] ∨ ¬ validSigV4 r.awsSigV4) then
          "invalid_authentication"
        else ""

end Transfer

end ServerHost
