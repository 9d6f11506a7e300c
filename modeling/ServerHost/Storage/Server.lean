import ServerHost.Library.Words
import ServerHost.Protocol

/-!
# The checks of a file server

`validateServer`, with `validateBackend`, `validateLocation` and `privatePath` below it,
as they are compiled for Unix.  What `QFileInfo` reports about a path is a parameter.
An accepted configuration has the empty error.
-/

namespace ServerHost

namespace Storage

/-! ## Paths and files -/

/-- `QDir::isAbsolutePath` and `QFileInfo::isAbsolute`. -/
def isAbsolutePath (path : String) : Bool := startsWith path "/"

/-- One part of a path, on the parts before it, the last of them first.  An absolute path
keeps the `..` that lead above its first part. -/
def cleanPart (parts : List (List Char)) (part : List Char) : List (List Char) :=
  if part = ['.'] then parts
  else if part ≠ ['.', '.'] then part :: parts
  else match parts with
    | [] => [part]
    | last :: rest => if last = ['.', '.'] then part :: parts else rest

/-- `QDir::cleanPath`. -/
def cleanPath (path : String) : String :=
  let parts := ((Words.words '/' path.toList).foldl cleanPart []).reverse
  if path = "" then ""
  else if isAbsolutePath path then String.ofList (Words.spell '/' parts)
  else if parts = [] then "."
  else String.ofList (['/'].intercalate parts)

/-- What `QFileInfo` reports about a path. -/
structure FileInfo where
  isDir : Bool := false
  isFile : Bool := false
  isSymLink : Bool := false
  isReadable : Bool := false
  isExecutable : Bool := false
  /-- The permissions have a bit for the group or for others. -/
  shared : Bool := false
  /-- Empty for a path that does not exist. -/
  canonicalFilePath : String := ""

/-- The file system of the process. -/
structure Disk where
  info : String → FileInfo
  currentPath : String
  absolute : isAbsolutePath currentPath = true
  /-- `QStandardPaths::findExecutable`. -/
  findExecutable : String → String

/-- `QFileInfo::absoluteFilePath`. -/
def Disk.absoluteFilePath (disk : Disk) (path : String) : String :=
  if isAbsolutePath path then path
  else if path = "" then ""
  else disk.currentPath ++ "/" ++ path

/-- A file system with some directories, two of them private, and one program. -/
def Disk.sample : Disk where
  info path :=
    { isDir := path = "/" || path = "/srv" || path = "/run"
      isFile := path = "/rclone"
      isReadable := true
      isExecutable := path = "/rclone"
      shared := path = "/"
      canonicalFilePath := path }
  currentPath := "/"
  absolute := rfl
  findExecutable _ := "/rclone"

/-- `inside`. -/
def inside (path root : String) : Bool :=
  let clean := cleanPath path
  clean = root || startsWith clean (root ++ "/")

/-! ## Options -/

structure StorageBridgeOptions where
  executable : String := ""
  configFile : String := ""
  configPassword : Bytes := []
  runtimeDirectory : String
  ftpPythonExecutable : String := ""
  ftpServerScript : String := ""

inductive FileServerProtocol where
  | http | https | webDav | webDavs | ftp | ftps | ftpES | sftp | s3 | s3Tls | restic
  | resticTls | nfs
  deriving DecidableEq

structure FileServerOptions where
  protocol : FileServerProtocol := .webDavs
  root : String
  address : Address := ⟨"127.0.0.1", true, [127, 0, 0, 1], true, false, false⟩
  port : ℕ
  username : String := ""
  password : Bytes := []
  certificate : String := ""
  privateKey : String := ""
  authorizedKeys : String := ""
  readOnly : Bool := true
  allowCleartext : Bool := false
  passivePorts : String := "30000-32000"
  publicAddress : String := ""

structure ServerSpec where
  command : String
  tls : Bool
  auth : Bool
  experimental : Bool

/-- `serverSpec`. -/
def serverSpec : FileServerProtocol → ServerSpec
  | .http => ⟨"http", false, true, false⟩
  | .https => ⟨"http", true, true, false⟩
  | .webDav => ⟨"webdav", false, true, false⟩
  | .webDavs => ⟨"webdav", true, true, false⟩
  | .ftp => ⟨"ftp", false, true, false⟩
  | .ftps => ⟨"ftps", true, true, false⟩
  | .ftpES => ⟨"ftpes", true, true, false⟩
  | .sftp => ⟨"sftp", false, true, false⟩
  | .s3 => ⟨"s3", false, true, true⟩
  | .s3Tls => ⟨"s3", true, true, true⟩
  | .restic => ⟨"restic", false, true, false⟩
  | .resticTls => ⟨"restic", true, true, false⟩
  | .nfs => ⟨"nfs", false, false, false⟩

/-! ## The checks -/

section
variable (disk : Disk)

/-- `privatePath`. -/
def privatePath (path : String) (directory : Bool) : Bool :=
  let f := disk.info path
  isAbsolutePath path && !f.isSymLink && f.canonicalFilePath = cleanPath path &&
    (if directory then f.isDir else f.isFile) && !f.shared && f.isReadable

/-- `executable`. -/
def executable (o : StorageBridgeOptions) : String :=
  if o.executable = "" then disk.findExecutable "rclone"
  else
    let f := disk.info o.executable
    if isAbsolutePath o.executable && f.isFile && f.isExecutable then
      disk.absoluteFilePath o.executable
    else ""

/-- `validateBackend`. -/
def validateBackend (o : StorageBridgeOptions) (requireRclone : Bool := true) : String :=
  if requireRclone ∧ executable disk o = "" then "backend_unavailable"
  else if ¬ privatePath disk o.runtimeDirectory true then "private_runtime_directory_required"
  else if o.configFile ≠ "" ∧ ¬ privatePath disk o.configFile false then "private_config_required"
  else if 0 ∈ o.configPassword then "invalid_config_password"
  else ""

end

/-- `remoteLocation`. -/
def remoteLocation (path : String) : Bool := startsWith path ":" || !isAbsolutePath path

private def remoteChar (c : Char) : Bool := c.isAlphanum || c = '_'

/-- A named remote: the pattern of `validateLocation`, for a text of one line. -/
def namedRemote (path : String) : Bool :=
  let name := path.toList.takeWhile (· ≠ ':')
  let rest := path.toList.dropWhile (· ≠ ':')
  (name.head?.any remoteChar) && name.all (fun c => remoteChar c || c = '-') && rest ≠ [] &&
    rest.all fun c => 0x1f < c.val

/-- `validateLocation`. -/
def validateLocation (path : String) (o : StorageBridgeOptions) : String :=
  if path = "" ∨ size path > 8192 ∨ '\x00' ∈ path.toList ∨ '\n' ∈ path.toList ∨
      '\r' ∈ path.toList then
    "invalid_location"
  else if ¬ remoteLocation path then ""
  else if ¬ namedRemote path then "invalid_location"
  else if o.configFile = "" then "explicit_config_required"
  else ""

/-- The two numbers of `passivePorts`: the pattern `^([0-9]\x7b1,5\x7d)-([0-9]\x7b1,5\x7d)$`,
whose end may stand before a last line feed. -/
def portRange (text : String) : Option (ℕ × ℕ) :=
  let chars := text.toList
  let line := if chars.getLast? = some '\n' then chars.dropLast else chars
  let number (digits : List Char) : Bool :=
    1 ≤ digits.length && digits.length ≤ 5 && digits.all Char.isDigit
  match line.splitOn '-' with
  | [low, high] =>
      if number low && number high then
        some (Nat.ofDigitChars 10 low 0, Nat.ofDigitChars 10 high 0)
      else none
  | _ => none

/-- The ports are in order and within sixteen bits. -/
def validRange (text : String) : Bool :=
  match portRange text with
  | some (low, high) => 1 ≤ low && high ≤ 65535 && low ≤ high
  | none => false

variable (platform : Platform) (disk : Disk)

/-- An absolute path of a file. -/
def absoluteFile (path : String) : Bool := isAbsolutePath path && (disk.info path).isFile

/-- `validateServer`. -/
def validateServer (o : FileServerOptions) (backend : StorageBridgeOptions) : String :=
  let spec := serverSpec o.protocol
  let pythonFtp := spec.command = "ftps" ∨ spec.command = "ftpes"
  let unbacked := validateBackend disk backend (¬ pythonFtp)
  let unlocated := validateLocation o.root backend
  let root := disk.info o.root
  let exported := root.canonicalFilePath
  if unbacked ≠ "" then unbacked
  else if unlocated ≠ "" then unlocated
  else if ¬ remoteLocation o.root ∧
      (¬ root.isDir ∨ root.isSymLink ∨ exported ≠ cleanPath o.root) then "invalid_root"
  else if ¬ remoteLocation o.root ∧ (inside backend.runtimeDirectory exported ∨
      (backend.configFile ≠ "" ∧ inside backend.configFile exported) ∨
      (o.privateKey ≠ "" ∧ inside o.privateKey exported)) then "secrets_inside_exported_root"
  else if o.port = 0 ∨ o.address.multicast then "invalid_listen_address"
  else if spec.command = "" then "unsupported_protocol"
  else if spec.auth ∧ (o.username = "" ∨
      (o.password = [] ∧ ¬ (spec.command = "sftp" ∧ o.authorizedKeys ≠ ""))) then
    "authentication_required"
  else if ':' ∈ o.username.toList ∨ ',' ∈ o.username.toList ∨ '"' ∈ o.username.toList ∨
      '\x00' ∈ o.username.toList ∨ 0 ∈ o.password ∨ '\n' ∈ o.username.toList ∨
      '\r' ∈ o.username.toList then "invalid_credentials"
  else if ¬ spec.tls ∧ spec.command ≠ "sftp" ∧ ¬ o.address.loopback ∧ ¬ o.allowCleartext then
    "cleartext_disabled"
  else if spec.tls ∧ (¬ absoluteFile disk o.certificate ∨ ¬ (disk.info o.certificate).isReadable ∨
      ¬ privatePath disk o.privateKey false) then "tls_identity_required"
  else if spec.command = "sftp" ∧ ¬ privatePath disk o.privateKey false then "ssh_host_key_required"
  else if spec.command = "sftp" ∧ o.authorizedKeys ≠ "" ∧ (¬ absoluteFile disk o.authorizedKeys ∨
      ¬ (disk.info o.authorizedKeys).isReadable) then "invalid_authorized_keys"
  else if spec.command = "restic" ∧ o.readOnly then "readonly_not_supported_by_restic"
  else if (spec.command = "ftp" ∨ pythonFtp) ∧ ¬ validRange o.passivePorts then
    "invalid_passive_ports"
  else if (spec.command = "ftp" ∨ pythonFtp) ∧ o.publicAddress ≠ "" ∧
      (platform.address o.publicAddress).isNone then "invalid_public_address"
  else if pythonFtp ∧ (¬ absoluteFile disk backend.ftpPythonExecutable ∨
      ¬ (disk.info backend.ftpPythonExecutable).isExecutable ∨
      ¬ absoluteFile disk backend.ftpServerScript) then "ftp_tls_backend_unavailable"
  else if pythonFtp ∧ remoteLocation o.root then "ftp_tls_requires_local_root"
  else if pythonFtp ∧ inside (disk.absoluteFilePath backend.ftpServerScript) exported then
    "server_script_inside_exported_root"
  else ""

/-- One check of a cascade. -/
theorem accepted_ite {c : Prop} [Decidable c] {error rest : String} (herror : error ≠ "")
    (h : (if c then error else rest) = "") : ¬ c ∧ rest = "" := by
  by_cases hc : c
  · rw [if_pos hc] at h
    exact absurd h herror
  · rw [if_neg hc] at h
    exact ⟨hc, h⟩

end Storage

end ServerHost
