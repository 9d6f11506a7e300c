import ServerHost.Library.Program
import ServerHost.Qt

/-!
# The file system under a file share

`FileSystem` is what the kernel keeps: nodes named by device and inode number,
with their content or entries.  `Call` lists the calls of the sources, and `Does`
says what the kernel may answer to a call in a state and which state it leaves;
every call may also fail.  Descriptors are identified with the nodes they keep
open.

Other programs use the same file system.  A call is recorded with the states the
file system goes through while it is made, and takes effect between two of them;
only `pread` may collect its bytes at different moments.
-/

namespace ServerHost

namespace Files

/-- A name as the kernel has it. -/
abbrev Name := Bytes

/-- The names `.` and `..`. -/
def dots : List Name := [[46], [46, 46]]

/-- The name of an entry: the kernel walks along a name with a slash, cuts it at a
zero byte, and gives the dots a meaning of their own. -/
structure Ordinary (name : Name) : Prop where
  nonempty : name ≠ []
  dots : name ∉ dots
  slash : 47 ∉ name
  zero : 0 ∉ name

/-- The identity of a node: `st_dev` and `st_ino`. -/
structure NodeId where
  device : ℕ
  inode : ℕ
  deriving DecidableEq, Inhabited

/-- The file types that `st_mode` tells apart here. -/
inductive Kind where
  | regular | directory | link | other
  deriving DecidableEq

/-- `struct stat`. -/
structure Stat where
  device : ℕ
  inode : ℕ
  kind : Kind
  size : ℤ
  seconds : ℤ
  nanoseconds : ℤ
  deriving DecidableEq

inductive Body where
  | regular (content : Bytes)
  | directory (entries : Table Name NodeId)
  | link
  | other

/-- A node; `extent` is the `st_size` of what is not a regular file. -/
structure Node where
  body : Body
  extent : ℤ := 0
  seconds : ℤ := 0
  nanoseconds : ℤ := 0

def Body.kind : Body → Kind
  | .regular _ => .regular
  | .directory _ => .directory
  | .link => .link
  | .other => .other

/-- The content of a regular file. -/
def Body.content : Body → Option Bytes
  | .regular content => some content
  | _ => none

/-- The entries of a directory. -/
def Body.entries : Body → Option (Table Name NodeId)
  | .directory entries => some entries
  | _ => none

def Node.stat (id : NodeId) (node : Node) : Stat where
  device := id.device
  inode := id.inode
  kind := node.body.kind
  size := match node.body with
    | .regular content => content.length
    | _ => node.extent
  seconds := node.seconds
  nanoseconds := node.nanoseconds

/-- The nodes, and where an absolute path leads. -/
structure FileSystem where
  nodes : Table NodeId Node := ∅
  absolute : Name → Option NodeId := fun _ => none

namespace FileSystem

def stat (fs : FileSystem) (id : NodeId) : Option Stat := (fs.nodes.lookup id).map (Node.stat id)

def kind (fs : FileSystem) (id : NodeId) : Option Kind :=
  (fs.nodes.lookup id).map fun node => node.body.kind

def content (fs : FileSystem) (id : NodeId) : Option Bytes :=
  (fs.nodes.lookup id).bind fun node => node.body.content

def entries (fs : FileSystem) (id : NodeId) : Option (Table Name NodeId) :=
  (fs.nodes.lookup id).bind fun node => node.body.entries

/-- What a directory has under a name. -/
def entry (fs : FileSystem) (directory : NodeId) (name : Name) : Option NodeId :=
  (fs.entries directory).bind fun entries => entries.lookup name

/-- An inode number that is not in use. -/
def Free (fs : FileSystem) (id : NodeId) : Prop :=
  id ∉ fs.nodes ∧ ∀ directory name, fs.entry directory name ≠ some id

/-- The node gets another body. -/
def rewrite (id : NodeId) (body : Body) (fs : FileSystem) : FileSystem :=
  { fs with nodes := Table.modify id (fun node => { node with body := body }) fs.nodes }

/-- A new node. -/
def create (id : NodeId) (body : Body) (fs : FileSystem) : FileSystem :=
  { fs with nodes := fs.nodes.insert id { body := body } }

/-- A directory gets an entry. -/
def add (directory : NodeId) (name : Name) (id : NodeId) (fs : FileSystem) : FileSystem :=
  match fs.entries directory with
  | some entries => fs.rewrite directory (.directory (entries.insert name id))
  | none => fs

/-- A directory loses an entry. -/
def remove (directory : NodeId) (name : Name) (fs : FileSystem) : FileSystem :=
  match fs.entries directory with
  | some entries => fs.rewrite directory (.directory (entries.erase name))
  | none => fs

/-- A file gets more content. -/
def append (id : NodeId) (bytes : Bytes) (fs : FileSystem) : FileSystem :=
  match fs.content id with
  | some content => fs.rewrite id (.regular (content ++ bytes))
  | none => fs

/-! ### What an update leaves -/

variable (fs : FileSystem) (id other directory : NodeId) (name : Name)

theorem content_rewrite (body : Body) : (fs.rewrite id body).content other =
    if other = id then (fs.nodes.lookup id).bind fun _ => body.content else fs.content other := by
  unfold rewrite content
  simp only [Table.lookup_modify]
  split
  · cases fs.nodes.lookup id <;> rfl
  · rfl

theorem entries_rewrite (body : Body) : (fs.rewrite id body).entries other =
    if other = id then (fs.nodes.lookup id).bind fun _ => body.entries else fs.entries other := by
  unfold rewrite entries
  simp only [Table.lookup_modify]
  split
  · cases fs.nodes.lookup id <;> rfl
  · rfl

theorem content_create (body : Body) : (fs.create id body).content other =
    if other = id then body.content else fs.content other := by
  unfold create content
  by_cases h : other = id
  · subst h
    simp
  · simp [AList.lookup_insert_ne h, h]

theorem entries_create (body : Body) : (fs.create id body).entries other =
    if other = id then body.entries else fs.entries other := by
  unfold create entries
  by_cases h : other = id
  · subst h
    simp
  · simp [AList.lookup_insert_ne h, h]

variable {fs id directory}

/-- A node with entries is a directory. -/
theorem lookup_of_entries {table : Table Name NodeId} (h : fs.entries id = some table) :
    ∃ node, fs.nodes.lookup id = some node ∧ node.body = .directory table := by
  obtain ⟨node, hnode, hbody⟩ := Option.bind_eq_some_iff.1 h
  refine ⟨node, hnode, ?_⟩
  unfold Body.entries at hbody
  split at hbody
  · next hdirectory => rw [hdirectory, Option.some.inj hbody]
  · cases hbody

/-- A node with content is a regular file. -/
theorem lookup_of_content {bytes : Bytes} (h : fs.content id = some bytes) :
    ∃ node, fs.nodes.lookup id = some node ∧ node.body = .regular bytes := by
  obtain ⟨node, hnode, hbody⟩ := Option.bind_eq_some_iff.1 h
  refine ⟨node, hnode, ?_⟩
  unfold Body.content at hbody
  split at hbody
  · next hregular => rw [hregular, Option.some.inj hbody]
  · cases hbody

theorem entries_none_of_content {bytes : Bytes} (h : fs.content id = some bytes) :
    fs.entries id = none := by
  obtain ⟨node, hnode, hbody⟩ := lookup_of_content h
  simp [entries, hnode, hbody, Body.entries]

theorem content_none_of_entries {table : Table Name NodeId} (h : fs.entries id = some table) :
    fs.content id = none := by
  obtain ⟨node, hnode, hbody⟩ := lookup_of_entries h
  simp [content, hnode, hbody, Body.content]

variable (fs id directory)

theorem entries_add : (fs.add directory name id).entries other =
    if other = directory then (fs.entries directory).map fun table => table.insert name id
    else fs.entries other := by
  unfold add
  split
  · next table h =>
      obtain ⟨node, hnode, -⟩ := lookup_of_entries h
      simp [entries_rewrite, hnode, h, Body.entries]
  · next h =>
      split
      · next hsame => rw [hsame, h, Option.map_none]
      · rfl

@[simp] theorem content_add : (fs.add directory name id).content other = fs.content other := by
  unfold add
  split
  · next table h =>
      rw [content_rewrite]
      split
      · next hsame =>
          obtain ⟨node, hnode, -⟩ := lookup_of_entries h
          rw [hsame, content_none_of_entries h, hnode]
          rfl
      · rfl
  · rfl

theorem entries_remove : (fs.remove directory name).entries other =
    if other = directory then (fs.entries directory).map fun table => table.erase name
    else fs.entries other := by
  unfold remove
  split
  · next table h =>
      obtain ⟨node, hnode, -⟩ := lookup_of_entries h
      simp [entries_rewrite, hnode, h, Body.entries]
  · next h =>
      split
      · next hsame => rw [hsame, h, Option.map_none]
      · rfl

@[simp] theorem content_remove : (fs.remove directory name).content other = fs.content other := by
  unfold remove
  split
  · next table h =>
      rw [content_rewrite]
      split
      · next hsame =>
          obtain ⟨node, hnode, -⟩ := lookup_of_entries h
          rw [hsame, content_none_of_entries h, hnode]
          rfl
      · rfl
  · rfl

theorem content_append (bytes : Bytes) : (fs.append id bytes).content other =
    if other = id then (fs.content id).map fun old => old ++ bytes else fs.content other := by
  unfold append
  split
  · next old h =>
      obtain ⟨node, hnode, -⟩ := lookup_of_content h
      simp [content_rewrite, hnode, h, Body.content]
  · next h =>
      split
      · next hsame => rw [hsame, h, Option.map_none]
      · rfl

@[simp] theorem entries_append (bytes : Bytes) :
    (fs.append id bytes).entries other = fs.entries other := by
  unfold append
  split
  · next old h =>
      rw [entries_rewrite]
      split
      · next hsame =>
          obtain ⟨node, hnode, -⟩ := lookup_of_content h
          rw [hsame, entries_none_of_content h, hnode]
          rfl
      · rfl
  · rfl

/-! ### Entries after an update -/

variable (other : NodeId) (name' : Name)

theorem kind_directory_iff : fs.kind id = some .directory ↔ (fs.entries id).isSome := by
  unfold kind entries
  cases fs.nodes.lookup id with
  | none => simp
  | some node => cases hbody : node.body <;> simp [hbody, Body.kind, Body.entries]

theorem isSome_entries_of_entry {child : NodeId} (h : fs.entry directory name = some child) :
    (fs.entries directory).isSome :=
  Option.isSome_iff_exists.2 ((Option.bind_eq_some_iff.1 h).imp fun _ => And.left)

theorem entry_add (h : (fs.entries directory).isSome) :
    (fs.add directory name id).entry other name' =
      if other = directory ∧ name' = name then some id else fs.entry other name' := by
  obtain ⟨table, htable⟩ := Option.isSome_iff_exists.1 h
  by_cases hdirectory : other = directory
  · subst hdirectory
    by_cases hname : name' = name
    · subst hname
      simp [entry, entries_add, htable]
    · simp [entry, entries_add, htable, hname, AList.lookup_insert_ne hname]
  · simp [entry, entries_add, hdirectory]

/-- A new entry is found under its name. -/
theorem entry_add_self (h : (fs.entries directory).isSome) :
    (fs.add directory name id).entry directory name = some id := by
  rw [entry_add _ _ _ _ _ _ h, if_pos ⟨rfl, rfl⟩]

theorem entry_remove : (fs.remove directory name).entry other name' =
    if other = directory ∧ name' = name then none else fs.entry other name' := by
  by_cases hdirectory : other = directory
  · subst hdirectory
    cases htable : fs.entries other with
    | none => simp [entry, entries_remove, htable]
    | some table =>
        by_cases hname : name' = name
        · subst hname
          simp [entry, entries_remove, htable]
        · simp [entry, entries_remove, htable, hname, AList.lookup_erase_ne hname]
  · simp [entry, entries_remove, hdirectory]

@[simp] theorem entry_append (bytes : Bytes) :
    (fs.append id bytes).entry other name' = fs.entry other name' := by
  simp [entry]

/-- A new node that is no directory changes no entry. -/
theorem entries_create_of_not_mem {body : Body} (hbody : body.entries = none) (h : id ∉ fs.nodes) :
    (fs.create id body).entries other = fs.entries other := by
  rw [entries_create]
  split
  · next hsame =>
      rw [hsame, hbody, entries, AList.lookup_eq_none.2 h]
      rfl
  · rfl

theorem entry_create_of_not_mem {body : Body} (hbody : body.entries = none) (h : id ∉ fs.nodes) :
    (fs.create id body).entry other name' = fs.entry other name' := by
  rw [entry, entries_create_of_not_mem _ _ _ hbody h, entry]

/-! ### Directories stay directories -/

variable {fs id}

theorem kind_add {child : NodeId} (h : fs.kind id = some .directory) :
    (fs.add directory name child).kind id = some .directory := by
  rw [kind_directory_iff] at h ⊢
  rw [entries_add]
  split
  · next hsame => simpa [hsame] using h
  · exact h

theorem kind_remove (h : fs.kind id = some .directory) :
    (fs.remove directory name).kind id = some .directory := by
  rw [kind_directory_iff] at h ⊢
  rw [entries_remove]
  split
  · next hsame => simpa [hsame] using h
  · exact h

theorem kind_append {node : NodeId} {bytes : Bytes} (h : fs.kind id = some .directory) :
    (fs.append node bytes).kind id = some .directory := by
  rw [kind_directory_iff] at h ⊢
  rwa [entries_append]

theorem kind_create {node : NodeId} {body : Body} (hbody : body.entries = none)
    (hnode : node ∉ fs.nodes) (h : fs.kind id = some .directory) :
    (fs.create node body).kind id = some .directory := by
  rw [kind_directory_iff] at h ⊢
  rwa [entries_create_of_not_mem _ _ _ hbody hnode]

theorem content_of_not_mem (h : id ∉ fs.nodes) : fs.content id = none := by
  rw [content, AList.lookup_eq_none.2 h, Option.bind_none]

end FileSystem

/-- What `QFileInfo` reports of a path. -/
structure Info where
  isSymLink : Bool := false
  isDir : Bool := true
  exists_ : Bool := true
  canonicalFilePath : String

/-- The calls the sources make. -/
inductive Call where
  | info (path : String)
  | guard
  | uuid
  | lstat (path : Name)
  /-- `openFile` of a directory, without following a link. -/
  | openRoot (path : Name)
  /-- `openFileAt` for reading, without following a link. -/
  | openAt (directory : NodeId) (name : Name) (onlyDirectory : Bool)
  | fstat (node : NodeId)
  /-- `fdopendir`, and the names that `readdir` returns one after the other. -/
  | readDirectory (node : NodeId)
  /-- `fstatat`, without following a link. -/
  | fstatAt (directory : NodeId) (name : Name)
  | pread (node : NodeId) (size offset : ℕ)
  | makeDirectoryAt (directory : NodeId) (name : Name)
  /-- `openFileAt` for writing a file that must not exist. -/
  | createAt (directory : NodeId) (name : Name)
  | write (node : NodeId) (bytes : Bytes)
  | fsync (node : NodeId)
  | linkAt (directory : NodeId) (source target : Name)
  | unlinkAt (directory : NodeId) (name : Name)
  /-- `Presentation::enqueue`. -/
  | enqueue (path : String)

/-- The type of the answer to a call; `none` and `false` are failures. -/
abbrev Call.Answer : Call → Type
  | .info _ => Info
  | .guard => Bool
  | .uuid => String
  | .lstat _ => Option Stat
  | .openRoot _ => Option NodeId
  | .openAt .. => Option NodeId
  | .fstat _ => Option Stat
  | .readDirectory _ => Option (List Name)
  | .fstatAt .. => Option Stat
  | .pread .. => Option Bytes
  | .makeDirectoryAt .. => Bool
  | .createAt .. => Option NodeId
  | .write .. => ℤ
  | .fsync _ => Bool
  | .linkAt .. => Bool
  | .unlinkAt .. => Bool
  | .enqueue _ => Unit

/-- A program that makes these calls. -/
abbrev Prog := Program Call Call.Answer

/-- The names of entries that a call mentions. -/
def Call.names : Call → List Name
  | .openAt _ name _ | .fstatAt _ name | .makeDirectoryAt _ name | .createAt _ name
  | .unlinkAt _ name => [name]
  | .linkAt _ source target => [source, target]
  | _ => []

/-- What the kernel may answer to a call about ordinary names, and the state it leaves. -/
def Effect (fs : FileSystem) : (call : Call) → call.Answer → FileSystem → Prop
  | .lstat path, answer, fs' => fs' = fs ∧ ∀ stat, answer = some stat →
      ∃ id, fs.absolute path = some id ∧ fs.stat id = some stat
  | .openRoot path, answer, fs' => fs' = fs ∧ ∀ id, answer = some id →
      fs.absolute path = some id ∧ fs.kind id = some .directory
  | .openAt directory name onlyDirectory, answer, fs' => fs' = fs ∧ ∀ id, answer = some id →
      fs.entry directory name = some id ∧ ∃ kind, fs.kind id = some kind ∧ kind ≠ .link ∧
        (onlyDirectory = true → kind = .directory)
  | .fstat node, answer, fs' => fs' = fs ∧ ∀ stat, answer = some stat → fs.stat node = some stat
  | .readDirectory node, answer, fs' => fs' = fs ∧ ∀ names, answer = some names →
      fs.kind node = some .directory ∧ ∀ name ∈ names, name ∈ dots ∨ Ordinary name
  | .fstatAt directory name, answer, fs' => fs' = fs ∧ ∀ stat, answer = some stat →
      ∃ id, fs.entry directory name = some id ∧ fs.stat id = some stat
  | .pread node size offset, answer, fs' => fs' = fs ∧ ∀ bytes, answer = some bytes →
      ∃ content, fs.content node = some content ∧ bytes <+: (content.drop offset).take size ∧
        (bytes = [] → (content.drop offset).take size = [])
  | .makeDirectoryAt directory name, answer, fs' =>
      if answer = true then (fs.entries directory).isSome ∧ fs.entry directory name = none ∧
        ∃ id, fs.Free id ∧ fs' = (fs.create id (.directory ∅)).add directory name id
      else fs' = fs
  | .createAt directory name, answer, fs' =>
      match answer with
      | some id => (fs.entries directory).isSome ∧ fs.entry directory name = none ∧
          fs.Free id ∧ fs' = (fs.create id (.regular [])).add directory name id
      | none => fs' = fs
  | .write node bytes, count, fs' =>
      count ≤ bytes.length ∧
        fs' = if 0 < count then fs.append node (bytes.take count.toNat) else fs
  | .linkAt directory source target, answer, fs' =>
      if answer = true then ∃ id, fs.entry directory source = some id ∧
        fs.entry directory target = none ∧ fs' = fs.add directory target id
      else fs' = fs
  | .unlinkAt directory name, answer, fs' =>
      if answer = true then fs' = fs.remove directory name else fs' = fs
  | .uuid, answer, fs' => fs' = fs ∧ Ordinary (latin1Bytes answer)
  | .info _, _, fs' | .guard, _, fs' | .fsync _, _, fs' | .enqueue _, _, fs' => fs' = fs

/-- What the kernel may answer to a call, and the state it leaves.  Nothing is said
about a name that is not ordinary. -/
def Does (fs : FileSystem) (call : Call) (answer : call.Answer) (fs' : FileSystem) : Prop :=
  (∀ name ∈ call.names, Ordinary name) → Effect fs call answer fs'

/-! ## Calls among other programs -/

/-- Bytes that `pread` may return when the file changes while it reads. -/
structure Torn (moments : List FileSystem) (node : NodeId) (size offset : ℕ) (bytes : Bytes) :
    Prop where
  length : bytes.length ≤ size
  byte : ∀ i byte, bytes[i]? = some byte → ∃ fs ∈ moments, ∃ content,
    fs.content node = some content ∧ content[offset + i]? = some byte
  positive : bytes = [] → size = 0 ∨ ∃ fs ∈ moments, ∃ content,
    fs.content node = some content ∧ content.length ≤ offset

theorem Torn.mono {moments more : List FileSystem} {node : NodeId} {size offset : ℕ} {bytes : Bytes}
    (h : Torn moments node size offset bytes) (hmore : ∀ fs ∈ moments, fs ∈ more) :
    Torn more node size offset bytes where
  length := h.length
  byte i byte hbyte := by
    obtain ⟨fs, hfs, hcontent⟩ := h.byte i byte hbyte
    exact ⟨fs, hmore fs hfs, hcontent⟩
  positive hempty := (h.positive hempty).imp_right fun ⟨fs, hfs, hshort⟩ =>
    ⟨fs, hmore fs hfs, hshort⟩

/-- The call is answered while the file system goes through these states. -/
def Took (moments : List FileSystem) : (call : Call) → call.Answer → Prop
  | .pread node size offset, answer => ∀ bytes, answer = some bytes →
      Torn moments node size offset bytes
  | call, answer => ∃ fs fs', [fs, fs'] <:+: moments ∧ Does fs call answer fs'

/-- A call that was made, with the states the file system went through. -/
structure Event where
  call : Call
  answer : call.Answer
  moments : List FileSystem

/-- The event is this call with this answer. -/
def Makes (call : Call) (answer : call.Answer) (event : Event) : Prop :=
  event = ⟨call, answer, event.moments⟩ ∧ Took event.moments call answer

/-- A run of a program among others. -/
abbrev Runs {α : Type} : Prog α → List Event → α → Prop := Program.Runs Makes

/-- The states of a history, in the order of time. -/
def moments (events : List Event) : List FileSystem := events.flatMap Event.moments

theorem moments_append (first second : List Event) :
    moments (first ++ second) = moments first ++ moments second := List.flatMap_append

/-! ## A system at rest -/

/-- Answers of a kernel while nobody changes the file system; what would change it fails. -/
def FileSystem.answer (fs : FileSystem) : (call : Call) → call.Answer
  | .info path => { canonicalFilePath := path }
  | .guard => true
  | .uuid => "0"
  | .lstat path => (fs.absolute path).bind fs.stat
  | .openRoot path => (fs.absolute path).filter fun id => fs.kind id = some .directory
  | .openAt directory name onlyDirectory => (fs.entry directory name).filter fun id =>
      fs.kind id = some .directory || fs.kind id = some .regular && !onlyDirectory
  | .fstat node => fs.stat node
  | .readDirectory _ => none
  | .fstatAt directory name => (fs.entry directory name).bind fs.stat
  | .pread node size offset => (fs.content node).map fun content => (content.drop offset).take size
  | .makeDirectoryAt .. => false
  | .createAt .. => none
  | .write .. => -1
  | .fsync _ => false
  | .linkAt .. => false
  | .unlinkAt .. => false
  | .enqueue _ => ()

/-- Nothing changes while these answers are given. -/
theorem FileSystem.took_answer (fs : FileSystem) (call : Call) :
    Took [fs, fs] call (fs.answer call) := by
  have still : ∀ answer : call.Answer, Effect fs call answer fs →
      ∃ fs₁ fs₂, [fs₁, fs₂] <:+: [fs, fs] ∧ Does fs₁ call answer fs₂ :=
    fun _ heffect => ⟨fs, fs, List.infix_rfl, fun _ => heffect⟩
  cases call with
  | pread node size offset =>
      -- The one call that may be torn: here every byte is read at the same moment.
      intro bytes hbytes
      obtain ⟨content, hcontent, rfl⟩ := Option.map_eq_some_iff.1 hbytes
      refine ⟨by simp, fun i byte hbyte => ⟨fs, by simp, content, hcontent, ?_⟩, fun hempty => ?_⟩
      · rw [List.getElem?_take] at hbyte
        split at hbyte
        · rwa [List.getElem?_drop] at hbyte
        · cases hbyte
      · rcases List.take_eq_nil_iff.1 hempty with hsize | hshort
        · exact .inl hsize
        · exact .inr ⟨fs, by simp, content, hcontent, List.drop_eq_nil_iff.1 hshort⟩
  | lstat path => exact still _ ⟨rfl, fun stat h => Option.bind_eq_some_iff.1 h⟩
  | openRoot path => exact still _ ⟨rfl, fun id h => by simpa [answer] using h⟩
  | openAt directory name onlyDirectory =>
      -- A link is neither a directory nor a regular file, so it is not opened.
      refine still _ ⟨rfl, fun id h => ?_⟩
      obtain ⟨hentry, hkind⟩ := Option.filter_eq_some_iff.1 h
      refine ⟨hentry, ?_⟩
      rcases Bool.or_eq_true_iff.1 hkind with hdirectory | hregular
      · exact ⟨_, of_decide_eq_true hdirectory, by decide, fun _ => rfl⟩
      · obtain ⟨hregular, honly⟩ := Bool.and_eq_true_iff.1 hregular
        refine ⟨_, of_decide_eq_true hregular, by decide, fun hdirectory => ?_⟩
        simp [hdirectory] at honly
  | fstat node => exact still _ ⟨rfl, fun stat h => h⟩
  | readDirectory node => exact still _ ⟨rfl, fun names h => by cases h⟩
  | fstatAt directory name => exact still _ ⟨rfl, fun stat h => Option.bind_eq_some_iff.1 h⟩
  | uuid =>
      have hname : Ordinary (latin1Bytes "0") := ⟨by decide, by decide, by decide, by decide⟩
      exact still _ ⟨rfl, hname⟩
  | write node bytes =>
      have hcount : (-1 : ℤ) ≤ bytes.length := by omega
      exact still _ ⟨hcount, by simp [answer]⟩
  | makeDirectoryAt directory name => exact still _ (by simp [Effect, answer])
  | createAt directory name => exact still _ (by simp [Effect, answer])
  | linkAt directory source target => exact still _ (by simp [Effect, answer])
  | unlinkAt directory name => exact still _ (by simp [Effect, answer])
  | info path => exact still _ rfl
  | guard => exact still _ rfl
  | fsync node => exact still _ rfl
  | enqueue path => exact still _ rfl

theorem FileSystem.does_answer (fs : FileSystem) (call : Call)
    (h : ∀ node size offset, call ≠ .pread node size offset) :
    Does fs call (fs.answer call) fs := by
  have htook := fs.took_answer call
  have hdoes : ∃ fs₁ fs₂, [fs₁, fs₂] <:+: [fs, fs] ∧ Does fs₁ call (fs.answer call) fs₂ := by
    cases call with
    | pread node size offset => exact absurd rfl (h node size offset)
    | _ => exact htook
  obtain ⟨fs₁, fs₂, hmiddle, hdoes⟩ := hdoes
  obtain rfl : fs₁ = fs := by simpa using hmiddle.subset (List.mem_cons_self)
  obtain rfl : fs₂ = fs₁ := by
    simpa using hmiddle.subset (List.mem_cons_of_mem _ List.mem_cons_self)
  exact hdoes

end Files

end ServerHost
