import ServerHost.Files.System
import ServerHost.Library.Base64
import ServerHost.Protocol

/-!
# A file share

`FileShare.cpp`, as it is built on Unix.  Each function is a program that makes
the system calls of its source in their order.
-/

namespace ServerHost

open Files Program

/-- What the sources take from iiFileProvider. -/
structure FileProvider where
  /-- `FileDevice::encodeName`.  Slashes, zero bytes and dots come from the text. -/
  encodeName : String → Name
  encodeName_ordinary : ∀ text, text ≠ "" → text ≠ "." → text ≠ ".." → '/' ∉ text.toList →
    Char.ofNat 0 ∉ text.toList → Ordinary (encodeName text)
  /-- `FileDevice::decodeName`, when it is valid UTF-16. -/
  decodeName : Name → Option String
  /-- `Presentation::isControlFile`. -/
  isControlFile : String → Bool
  /-- `QDir::cleanPath`. -/
  cleanPath : String → String

private def sampleByte (c : Char) : UInt8 := if c.toNat < 128 then UInt8.ofNat c.toNat else 255

private theorem eq_of_sampleByte {c : Char} {n : ℕ} (h : sampleByte c = UInt8.ofNat n)
    (hn : n < 128) : c = Char.ofNat n := by
  unfold sampleByte at h
  split at h
  · next hc =>
      have hcode := congrArg UInt8.toNat h
      simp only [UInt8.toNat_ofNat'] at hcode
      have hsame : c.toNat = n := by omega
      rw [← hsame, Char.ofNat_toNat]
  · have hcode := congrArg UInt8.toNat h
    simp only [UInt8.toNat_ofNat', UInt8.reduceToNat] at hcode
    omega

/-- A provider to run small examples on. -/
def FileProvider.sample : FileProvider where
  encodeName text := text.toList.map sampleByte
  encodeName_ordinary text hempty hdot hdots hslash hzero := by
    have hback : ∀ codes : List ℕ, (∀ n ∈ codes, n < 128) →
        text.toList.map sampleByte = codes.map UInt8.ofNat →
          text.toList = codes.map Char.ofNat := by
      intro codes hcodes hsame
      generalize text.toList = list at hsame
      induction codes generalizing list with
      | nil => simpa using hsame
      | cons n rest ih =>
          cases list with
          | nil => simp at hsame
          | cons c others =>
              simp only [List.map_cons, List.cons.injEq] at hsame ⊢
              exact ⟨eq_of_sampleByte hsame.1 (hcodes n (by simp)),
                ih (fun m hm => hcodes m (by simp [hm])) _ hsame.2⟩
    have hnone : ∀ n < 128, Char.ofNat n ∉ text.toList →
        UInt8.ofNat n ∉ text.toList.map sampleByte := by
      intro n hn hout hmem
      obtain ⟨c, hc, hsame⟩ := List.mem_map.1 hmem
      exact hout (eq_of_sampleByte hsame hn ▸ hc)
    refine ⟨?_, ?_, hnone 47 (by decide) hslash, hnone 0 (by decide) hzero⟩
    · intro h
      exact hempty (String.toList_inj.1 (hback [] (by simp) h))
    · intro h
      simp only [dots, List.mem_cons, List.not_mem_nil, or_false] at h
      rcases h with h | h
      · exact hdot (String.toList_inj.1 (hback [46] (by simp) h))
      · exact hdots (String.toList_inj.1 (hback [46, 46] (by simp) h))
  decodeName name := some (fromLatin1 name)
  isControlFile _ := false
  cleanPath path := path

structure FileShare where
  root : String := ""
  device : ℕ := 0
  inode : ℕ := 0
  /-- Whether there is a guard. -/
  guarded : Bool := false

namespace FileShare

def chunkBytes : ℕ := 256 * 1024

variable (provider : FileProvider)

/-! ## Paths -/

/-- `path.split('/')`. -/
def split (path : String) : List String := (path.toList.splitOn '/').map String.ofList

/-- The components of a path; the empty path has none. -/
def components (path : String) : List String := if path = "" then [] else split path

/-- A part has no slash, and no character of its own. -/
theorem mem_of_mem_splitOn {list part : List Char} (h : part ∈ list.splitOn '/') :
    '/' ∉ part ∧ ∀ c ∈ part, c ∈ list := by
  induction list generalizing part with
  | nil =>
      obtain rfl : part = [] := by simpa using h
      simp
  | cons c rest ih =>
      rw [List.splitOn_cons_eq_if_modifyHead] at h
      split at h
      · rcases List.mem_cons.1 h with rfl | hmem
        · simp
        · exact ⟨(ih hmem).1, fun d hd => List.mem_cons_of_mem _ ((ih hmem).2 d hd)⟩
      · next hslash =>
          obtain ⟨first, others, hsplit⟩ :=
            List.exists_cons_of_ne_nil (List.splitOn_ne_nil '/' rest)
          rw [hsplit, List.modifyHead_cons] at h
          rcases List.mem_cons.1 h with rfl | hmem
          · obtain ⟨hnone, hall⟩ := ih (hsplit ▸ List.mem_cons_self)
            refine ⟨?_, ?_⟩
            · simp only [List.mem_cons, not_or]
              exact ⟨fun hsame => hslash (beq_iff_eq.2 hsame.symm), hnone⟩
            · intro d hd
              rcases List.mem_cons.1 hd with rfl | hd
              · exact List.mem_cons_self
              · exact List.mem_cons_of_mem _ (hall d hd)
          · obtain ⟨hnone, hall⟩ := ih (hsplit ▸ List.mem_cons_of_mem _ hmem)
            exact ⟨hnone, fun d hd => List.mem_cons_of_mem _ (hall d hd)⟩

/-- The text before the last slash; nothing when there is none. -/
def parentPath (path : String) : String :=
  String.ofList (path.toList.reverse.dropWhile (· ≠ '/')).tail.reverse

/-- `path.section('/', -1)`. -/
def lastSection (path : String) : String :=
  String.ofList (path.toList.reverse.takeWhile (· ≠ '/')).reverse

/-- A component that names a child of its directory. -/
def plain (part : String) : Bool :=
  part ≠ "" && part ≠ "." && part ≠ ".." && !startsWith part ".iiwebserver-" &&
    !provider.isControlFile part

/-- `relative`. -/
def relative (path : String) : Bool :=
  if size path > 4096 ∨ startsWith path "/" ∨ '\\' ∈ path.toList ∨ ':' ∈ path.toList ∨
      Char.ofNat 0 ∈ path.toList then false
  else path = "" || (split path).all (plain provider)

/-- `QDir(directory).filePath(name)`. -/
def filePath (directory name : String) : String :=
  if directory.toList.getLast? = some '/' then directory ++ name else directory ++ "/" ++ name

/-! ## Opening -/

/-- The loop of `confined`. -/
def descend (onlyDirectory : Bool) : NodeId → List String → Prog (Option NodeId)
  | fd, [] => .done (some fd)
  | fd, part :: rest =>
      .call (.openAt fd (provider.encodeName part) (onlyDirectory || !rest.isEmpty)) fun next =>
        match next with
        | none => .done none
        | some fd => descend onlyDirectory fd rest

/-- `confined`. -/
def confined (share : FileShare) (path : String) (onlyDirectory : Bool) : Prog (Option NodeId) :=
  .call (.openRoot (provider.encodeName share.root)) fun fd =>
    match fd with
    | none => .done none
    | some fd => .call (.fstat fd) fun stat =>
        match stat with
        | none => .done none
        | some stat =>
            if stat.device ≠ share.device ∨ stat.inode ≠ share.inode then .done none
            else descend provider onlyDirectory fd (components path)

/-- The loop of `resolve`. -/
def resolveParts (allowMissing : Bool) : String → List String → Prog String
  | current, [] => .done current
  | current, part :: rest =>
      .call (.info (filePath current part)) fun info =>
        if info.isSymLink ∨ (info.exists_ ∧ info.canonicalFilePath ≠ filePath current part) ∨
            (¬ info.exists_ ∧ ¬ (allowMissing ∧ rest = [])) then .done ""
        else resolveParts allowMissing (filePath current part) rest

/-- The last check of `resolve` before its loop, and the loop. -/
def resolveRoot (share : FileShare) (path : String) (allowMissing : Bool) : Prog String :=
  .call (.info share.root) fun info =>
    if info.canonicalFilePath ≠ share.root then .done ""
    else resolveParts allowMissing share.root (components path)

/-- `resolve`. -/
def resolve (share : FileShare) (path : String) (allowMissing : Bool) : Prog String :=
  if share.root = "" ∨ ¬ relative provider path then .done ""
  else if share.guarded then
    .call .guard fun open_ =>
      if open_ then share.resolveRoot path allowMissing else .done ""
  else share.resolveRoot path allowMissing

/-- The constructor. -/
def construct (root : String) (guarded : Bool) : Prog FileShare :=
  .call (.info root) fun info =>
    if startsWith root "/" ∧ info.isDir ∧ ¬ info.isSymLink ∧
        info.canonicalFilePath = provider.cleanPath root then
      if info.canonicalFilePath = "" then .done { guarded := guarded }
      else .call (.lstat (provider.encodeName info.canonicalFilePath)) fun stat =>
        match stat with
        | none => .done { root := info.canonicalFilePath, guarded := guarded }
        | some stat => .done {
            root := info.canonicalFilePath
            device := stat.device
            inode := stat.inode
            guarded := guarded }
    else .done { guarded := guarded }

/-! ## Listing -/

/-- `version`. -/
def version (stat : Stat) : String :=
  number stat.device ++ ":" ++ number stat.inode ++ ":" ++ number stat.size ++ ":" ++
    number stat.seconds ++ ":" ++ number stat.nanoseconds

/-- The name under which an entry may be listed. -/
def shareableName (name : Name) : Option String :=
  if name ∈ dots then none else (provider.decodeName name).filter (relative provider)

/-- Whether what an entry is may be listed. -/
def shareableKind (stat : Stat) : Bool := stat.kind = .regular || stat.kind = .directory

/-- An entry as it is listed. -/
def entryJson (text : String) (stat : Stat) : Json :=
  .object [("name", .string text), ("directory", .bool (stat.kind = .directory)),
    ("size", .string (number stat.size)), ("version", .string (version stat))]

/-- The loop of `list`, with the entries of the page and whether there are more. -/
def listNames (fd : NodeId) (offset : ℤ) : ℤ → List Json → List Name → Prog (List Json × Bool)
  | _, entries, [] => .done (entries, false)
  | index, entries, name :: rest =>
      match shareableName provider name with
      | none => listNames fd offset index entries rest
      | some text => .call (.fstatAt fd name) fun stat =>
          match stat with
          | none => listNames fd offset index entries rest
          | some stat =>
              if ¬ shareableKind stat then listNames fd offset index entries rest
              else if index < offset then listNames fd offset (index + 1) entries rest
              else if entries.length = 256 then .done (entries, true)
              else listNames fd offset (index + 1) (entries ++ [entryJson text stat]) rest

/-- A number that a request carries as a text, zero when it has none. -/
def numberOf (request : JsonObject) (key : String) : Option ℤ :=
  if request.contains key then longLong (request.value key).toString else some 0

/-- The page of a listing. -/
def pageReply (offset : ℤ) (entries : List Json) (more : Bool) : JsonObject :=
  ⟨[("ok", .bool true), ("entries", .array entries),
    ("nextCursor", .string (if more then number (offset + entries.length) else ""))]⟩

/-- The branch of `handle` for `list`. -/
def list (share : FileShare) (path : String) (request : JsonObject) : Prog JsonObject :=
  match (numberOf request "cursor").filter fun offset => 0 ≤ offset ∧ offset ≤ 1000000 with
  | none => .done (errorObject "invalid_cursor")
  | some offset => (share.confined provider path true).bind fun fd =>
      match fd with
      | none => .done (errorObject "not_directory")
      | some fd => .call (.readDirectory fd) fun names =>
          match names with
          | none => .done (errorObject "not_directory")
          | some names => (listNames provider fd offset 0 [] names).bind fun page =>
              .done (pageReply offset page.1 page.2)

/-! ## Reading -/

/-- The reply to `stat`. -/
def statReply (stat : Stat) : JsonObject :=
  ⟨[("ok", .bool true), ("size", .string (number stat.size)), ("version", .string (version stat))]⟩

/-- The reply to `read`. -/
def readReply (stat : Stat) (offset : ℤ) (bytes : Bytes) : JsonObject :=
  ⟨[("ok", .bool true), ("data", .string (fromLatin1 (Base64.encode bytes))),
    ("offset", .string (number offset)), ("size", .string (number stat.size)),
    ("version", .string (version stat)), ("eof", .bool (offset + bytes.length = stat.size))]⟩

/-- The last part of the branch for `read`. -/
def readChunk (fd : NodeId) (stat : Stat) (offset : ℤ) : Prog JsonObject :=
  .call (.pread fd (min (chunkBytes : ℤ) (stat.size - offset)).toNat offset.toNat) fun bytes =>
    match bytes with
    | none => .done (errorObject "read_failed")
    | some bytes => .call (.fstat fd) fun after =>
        match after with
        | none => .done (errorObject "read_failed")
        | some after =>
            if version after ≠ version stat then .done (errorObject "file_changed")
            else .done (readReply stat offset bytes)

/-- The branch of `handle` for `read` and `stat`. -/
def read (share : FileShare) (op path : String) (request : JsonObject) : Prog JsonObject :=
  (share.confined provider path false).bind fun fd =>
    match fd with
    | none => .done (errorObject "not_file")
    | some fd => .call (.fstat fd) fun stat =>
        match stat with
        | none => .done (errorObject "not_file")
        | some stat =>
            if stat.kind ≠ .regular then .done (errorObject "not_file")
            else if request.contains "version" ∧
              (request.value "version").toString ≠ version stat then
              .done (errorObject "file_changed")
            else if op = "stat" then .done (statReply stat)
            else match (numberOf request "offset").filter fun offset =>
                0 ≤ offset ∧ offset ≤ stat.size with
              | none => .done (errorObject "invalid_offset")
              | some offset => readChunk fd stat offset

/-! ## Writing -/

/-- The loop that writes the data, with the number of bytes written. -/
def writeAll (fd : NodeId) (data : Bytes) (written : ℕ) : Prog ℕ :=
  if written < data.length then
    .call (.write fd (data.drop written)) fun (count : ℤ) =>
      if 0 < count then writeAll fd data (written + count.toNat) else .done written
  else .done written
termination_by data.length - written

/-- The prefix of every temporary name. -/
def temporaryPrefix : Name := latin1Bytes ".iiwebserver-"

/-- The file is written under a temporary name and linked to its own. -/
def publish (directory : NodeId) (temporary name : Name) (fd : NodeId) (data : Bytes)
    (absolute : String) : Prog JsonObject :=
  (writeAll fd data 0).bind fun written =>
    (if written = data.length then ask (.fsync fd) else .done false).bind fun stored =>
      (if stored then ask (.linkAt directory temporary name) else .done false).bind fun ok =>
        .call (.unlinkAt directory temporary) fun _ =>
          if ok then .call (.enqueue absolute) fun _ =>
            .done ⟨[("ok", .bool true), ("size", .string (number written))]⟩
          else .done (errorObject "write_failed_or_exists")

/-- The data of a request, or the error it gets. -/
def decodeData (request : JsonObject) : Except String Bytes :=
  let encoded := latin1Bytes (request.value "data").toString
  if encoded.length > (chunkBytes + 2) / 3 * 4 then .error "write_too_large"
  else match Base64.decode encoded with
    | none => .error "invalid_data"
    | some decoded =>
        if ¬ (request.value "data").isString ∨ decoded.length > chunkBytes then
          .error "invalid_data"
        else .ok decoded

/-- The branch of `handle` for `write` and `mkdir`. -/
def create (share : FileShare) (op path absolute : String) (request : JsonObject) :
    Prog JsonObject :=
  if path = "" then .done (errorObject "invalid_path")
  else
    let name := provider.encodeName (lastSection path)
    (share.confined provider (parentPath path) true).bind fun directory =>
      match directory with
      | none => .done (errorObject "not_directory")
      | some directory =>
          if op = "mkdir" then .call (.makeDirectoryAt directory name) fun made =>
            .done (if made then ⟨[("ok", .bool true)]⟩ else errorObject "create_failed_or_exists")
          else match decodeData request with
            | .error error => .done (errorObject error)
            | .ok data => .call .uuid fun uuid =>
                let temporary := temporaryPrefix ++ latin1Bytes uuid
                .call (.createAt directory temporary) fun fd =>
                  match fd with
                  | none => .done (errorObject "write_failed")
                  | some fd => publish directory temporary name fd data absolute

/-- `handle`. -/
def handle (share : FileShare) (request : JsonObject) : Prog JsonObject :=
  let op := (request.value "op").toString
  let path := (request.value "path").toString
  if request.contains "path" ∧ ¬ (request.value "path").isString then
    .done (errorObject "invalid_path")
  else (share.resolve provider path (op = "write" ∨ op = "mkdir")).bind fun absolute =>
    if absolute = "" then .done (errorObject "invalid_or_unavailable_path")
    else if op = "list" then share.list provider path request
    else if op = "read" ∨ op = "stat" then share.read provider op path request
    else if op = "write" ∨ op = "mkdir" then share.create provider op path absolute request
    else .done (errorObject "unsupported_operation")

end FileShare

end ServerHost
