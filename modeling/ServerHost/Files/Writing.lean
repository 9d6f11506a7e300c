import ServerHost.Files.Confinement

/-!
# The protocol of a writer

`writing` says which calls a `write` request makes one after the other, and what
it has between them.  `obeys_handle` shows that the program of a request keeps to
it for every answer.  Nothing is said here about other writers; they come in
`ServerHost.Files.Writers`.
-/

namespace ServerHost

open Files Program

/-! ## Directories -/

namespace Files.FileSystem

/-- The directory that these names lead to. -/
def walk (fs : FileSystem) (root : NodeId) : List Name → Option NodeId
  | [] => some root
  | name :: rest => (fs.entry root name).bind fun next =>
      if fs.kind next = some .directory then fs.walk next rest else none

theorem walk_append {fs : FileSystem} {root node next : NodeId} {names : List Name} {name : Name}
    (h : fs.walk root names = some node) (hentry : fs.entry node name = some next)
    (hkind : fs.kind next = some .directory) : fs.walk root (names ++ [name]) = some next := by
  induction names generalizing root with
  | nil =>
      obtain rfl := Option.some.inj h
      simp [walk, hentry, hkind]
  | cons first rest ih =>
      obtain ⟨child, hchild, hrest⟩ := Option.bind_eq_some_iff.1 h
      split at hrest
      · next hdirectory =>
          simp only [List.cons_append, walk, hchild, Option.bind_some, if_pos hdirectory]
          exact ih hrest
      · cases hrest

/-- A walk depends on the entries that lead to directories only. -/
theorem walk_mono {fs fs' : FileSystem} {root node : NodeId} {names : List Name}
    (hkeep : ∀ directory name id, fs.entry directory name = some id →
      fs.kind id = some .directory →
      fs'.entry directory name = some id ∧ fs'.kind id = some .directory)
    (h : fs.walk root names = some node) : fs'.walk root names = some node := by
  induction names generalizing root with
  | nil => exact h
  | cons first rest ih =>
      obtain ⟨child, hchild, hrest⟩ := Option.bind_eq_some_iff.1 h
      split at hrest
      · next hdirectory =>
          obtain ⟨hentry, hkind⟩ := hkeep _ _ _ hchild hdirectory
          simp only [walk, hentry, Option.bind_some, if_pos hkind]
          exact ih hrest
      · cases hrest

end Files.FileSystem

namespace FileShare

/-! ## The protocol of a writer -/

/-- What a request asks for. -/
structure Order where
  root : NodeId
  parents : List Name
  name : Name
  data : Except String Bytes

/-- Where a writer is, with what it owns. -/
inductive Phase where
  /-- On its way to the directory, at a node. -/
  | seeking (names : List Name) (node : NodeId)
  /-- It has a temporary file with a content. -/
  | holding (directory : NodeId) (temporary : Name) (node : NodeId) (content : Bytes)
  /-- The file has its own name too. -/
  | published (directory : NodeId) (temporary : Name) (node : NodeId)
  /-- The temporary name was given up; the directory has the file if there is one. -/
  | finished (directory : Option NodeId)

variable (order : Order)

/-- The calls of a writer in each phase. -/
def allows : Phase → Call → Prop
  | .seeking _ node, .openAt directory name onlyDirectory =>
      directory = node ∧ onlyDirectory = true ∧ Ordinary name
  | .seeking names node, .createAt directory temporary =>
      directory = node ∧ names = order.parents ∧ Ordinary temporary ∧ temporaryPrefix <+: temporary
  | .holding _ _ node _, .write target _ => target = node
  | .holding directory temporary _ content, .linkAt target source name =>
      target = directory ∧ source = temporary ∧ name = order.name ∧ Ordinary source ∧
        Ordinary name ∧ order.data = .ok content
  | .holding directory temporary _ _, .unlinkAt target name =>
      target = directory ∧ name = temporary ∧ Ordinary name
  | .published directory temporary _, .unlinkAt target name =>
      target = directory ∧ name = temporary ∧ Ordinary name
  | _, .info _ | _, .guard | _, .uuid | _, .openRoot _ | _, .fstat _ | _, .fsync _
  | _, .enqueue _ => True
  | _, _ => False

/-- The phase after a call. -/
def advance : Phase → (call : Call) → call.Answer → Phase
  | .seeking names _, .openAt _ name _, some next => .seeking (names ++ [name]) next
  | .seeking _ _, .createAt directory temporary, some node => .holding directory temporary node []
  | .holding directory temporary node content, .write _ bytes, count =>
      .holding directory temporary node
        (if 0 < count then content ++ bytes.take count.toNat else content)
  | .holding directory temporary node _, .linkAt .., true => .published directory temporary node
  | .holding .., .unlinkAt .., _ => .finished none
  | .published directory _ _, .unlinkAt .., _ => .finished (some directory)
  | phase, _, _ => phase

/-- What a writer may do, whatever the file system is. -/
def writing : Protocol Call Call.Answer Phase where
  allows := allows order
  possible call answer := ∃ fs fs', Does fs call answer fs'
  next := advance

/-- What the reply says about the last phase. -/
def Final : Phase → JsonObject → Prop
  | .seeking _ _, reply => reply.value "ok" = .bool false
  | .finished directory, reply => reply.value "ok" = .bool directory.isSome
  | _, _ => False

/-! ## The program of a request keeps to the protocol -/

/-- The calls that are allowed in every phase and leave it. -/
def neutral : Call → Bool
  | .info _ | .guard | .uuid | .openRoot _ | .fstat _ | .fsync _ | .enqueue _ => true
  | _ => false

theorem advance_neutral {call : Call} (h : neutral call = true) (phase : Phase)
    (answer : call.Answer) : advance phase call answer = phase := by
  cases call <;> first | (cases phase <;> rfl) | simp [neutral] at h

variable {order : Order}

theorem obeys_neutral {α : Type} {post : Phase → α → Prop} {phase : Phase} {call : Call}
    {next : call.Answer → Prog α} (h : neutral call = true)
    (hnext : ∀ answer, (∃ fs fs', Does fs call answer fs') →
      Obeys (writing order) post phase (next answer)) :
    Obeys (writing order) post phase (.call call next) := by
  refine ⟨?_, fun answer hanswer => ?_⟩
  · cases call <;> cases phase <;> trivial
  · simp only [writing, advance_neutral h]
    exact hnext answer hanswer

variable {provider : FileProvider} {share : FileShare} {path : String}

theorem obeys_resolveParts {phase : Phase} {allowMissing : Bool} {current : String}
    {parts : List String} : Obeys (writing order) (fun last _ => last = phase) phase
      (resolveParts allowMissing current parts) := by
  induction parts generalizing current with
  | nil => rfl
  | cons part rest ih =>
      refine obeys_neutral rfl fun info _ => ?_
      split
      · rfl
      · exact ih

theorem obeys_resolve {phase : Phase} {allowMissing : Bool} :
    Obeys (writing order) (fun last absolute => last = phase ∧
      (absolute ≠ "" → relative provider path = true)) phase
      (share.resolve provider path allowMissing) := by
  unfold resolve
  split
  · exact ⟨rfl, fun h => absurd rfl h⟩
  next hchecks =>
  push Not at hchecks
  have hroot : Obeys (writing order) (fun last absolute => last = phase ∧
      (absolute ≠ "" → relative provider path = true)) phase
      (share.resolveRoot path allowMissing) := by
    refine obeys_neutral rfl fun info _ => ?_
    split
    · exact ⟨rfl, fun h => absurd rfl h⟩
    · exact obeys_resolveParts.mono fun last _ hlast => ⟨hlast, fun _ => hchecks.2⟩
  split
  · refine obeys_neutral rfl fun open_ _ => ?_
    split
    · exact hroot
    · exact ⟨rfl, fun h => absurd rfl h⟩
  · exact hroot

/-- The descent ended at a node along these names, or somewhere on the way. -/
def Arrived (names : List Name) (last : Phase) : Option NodeId → Prop
  | none => ∃ names node, last = .seeking names node
  | some node => last = .seeking names node

/-- The descent walks along the encoded components. -/
theorem obeys_descend {names : List Name} {fd : NodeId} {parts : List String}
    (hparts : ∀ part ∈ parts, Ordinary (provider.encodeName part)) :
    Obeys (writing order) (Arrived (names ++ parts.map provider.encodeName))
      (.seeking names fd) (descend provider true fd parts) := by
  induction parts generalizing names fd with
  | nil => simp [descend, Arrived]
  | cons part rest ih =>
      refine ⟨⟨rfl, rfl, hparts part (by simp)⟩, fun answer _ => ?_⟩
      cases answer with
      | none => exact ⟨names, fd, rfl⟩
      | some next =>
          rw [List.map_cons, List.append_cons]
          exact ih fun other hother => hparts other (by simp [hother])

theorem obeys_confined
    (hparts : ∀ part ∈ components path, Ordinary (provider.encodeName part)) :
    Obeys (writing order) (Arrived ((components path).map provider.encodeName))
      (.seeking [] ⟨share.device, share.inode⟩) (share.confined provider path true) := by
  refine obeys_neutral rfl fun root _ => ?_
  cases root with
  | none => exact ⟨_, _, rfl⟩
  | some root =>
      refine obeys_neutral rfl fun stat hstat => ?_
      cases stat with
      | none => exact ⟨_, _, rfl⟩
      | some stat =>
          dsimp only
          split
          · exact ⟨_, _, rfl⟩
          · next hsame =>
              push Not at hsame
              obtain ⟨fs, _, hdoes⟩ := hstat
              obtain ⟨-, hanswer⟩ := hdoes (by simp [Call.names])
              obtain ⟨inner, -, rfl⟩ := Option.map_eq_some_iff.1 (hanswer stat rfl)
              obtain rfl : root = ⟨share.device, share.inode⟩ := by
                rw [← hsame.1, ← hsame.2]
                rfl
              have hdescend : Obeys (writing order)
                  (Arrived ([] ++ (components path).map provider.encodeName))
                  (.seeking [] ⟨share.device, share.inode⟩)
                  (descend provider true ⟨share.device, share.inode⟩ (components path)) :=
                obeys_descend hparts
              rwa [List.nil_append] at hdescend

/-- The loop appends the data up to some length. -/
theorem obeys_writeAll {directory node : NodeId} {temporary : Name} {data : Bytes} (written : ℕ)
    (hwritten : written ≤ data.length) :
    Obeys (writing order) (fun last (count : ℕ) => count ≤ data.length ∧
        last = .holding directory temporary node (data.take count))
      (.holding directory temporary node (data.take written)) (writeAll node data written) := by
  induction written using writeAll.induct data with
  | case1 written hmore ih =>
      rw [writeAll, if_pos hmore]
      refine ⟨rfl, fun (count : ℤ) hcount => ?_⟩
      obtain ⟨fs, fs', hdoes⟩ := hcount
      have hbound : count ≤ (data.drop written).length := (hdoes (by simp [Call.names])).1
      rw [List.length_drop] at hbound
      dsimp only [writing, advance]
      split
      · next hpositive =>
          rw [← List.take_add]
          exact ih count hpositive (by omega)
      · exact ⟨hwritten, rfl⟩
  | case2 written hdone =>
      rw [writeAll, if_neg hdone]
      exact ⟨hwritten, rfl⟩

theorem obeys_publish {directory node : NodeId} {temporary : Name} {data : Bytes}
    {absolute : String} (htemporary : Ordinary temporary) (hname : Ordinary order.name)
    (hdata : order.data = .ok data) :
    Obeys (writing order) Final (.holding directory temporary node [])
      (publish directory temporary order.name node data absolute) := by
  refine (obeys_writeAll 0 (Nat.zero_le _)).bind fun last written hlast => ?_
  obtain ⟨hwritten, rfl⟩ := hlast
  -- What is stored is synchronised only when every byte was written,
  have hsync : Obeys (writing order) (fun last (stored : Bool) =>
      last = .holding directory temporary node (data.take written) ∧
        (stored = true → written = data.length))
      (.holding directory temporary node (data.take written))
      (if written = data.length then ask (Call.fsync node) else .done false) := by
    split
    · next hall => exact obeys_neutral rfl fun _ _ => ⟨rfl, fun _ => hall⟩
    · exact ⟨rfl, fun h => by cases h⟩
  refine hsync.bind fun last stored hlast => ?_
  obtain ⟨rfl, hstored⟩ := hlast
  -- and linked under its name only when that succeeded.
  have hlink : Obeys (writing order) (fun last (ok : Bool) => last = if ok = true
      then .published directory temporary node
      else .holding directory temporary node (data.take written))
      (.holding directory temporary node (data.take written))
      (if stored = true then ask (Call.linkAt directory temporary order.name)
        else .done false) := by
    split
    · next hall =>
        refine ⟨⟨rfl, rfl, rfl, htemporary, hname, ?_⟩, fun (ok : Bool) _ => ?_⟩
        · rw [hdata, hstored hall, List.take_length]
        · cases ok <;> rfl
    · rfl
  refine hlink.bind fun last ok hlast => ?_
  subst hlast
  cases ok with
  | false => exact ⟨⟨rfl, rfl, htemporary⟩, fun _ _ => rfl⟩
  | true =>
      refine ⟨⟨rfl, rfl, htemporary⟩, fun _ _ => ?_⟩
      exact obeys_neutral rfl fun _ _ => rfl

/-- The order of a request. -/
def orderOf (provider : FileProvider) (share : FileShare) (request : JsonObject) : Order where
  root := ⟨share.device, share.inode⟩
  parents := (components (parentPath (request.value "path").toString)).map provider.encodeName
  name := provider.encodeName (lastSection (request.value "path").toString)
  data := decodeData request

/-- The program of a `write` request keeps to the protocol. -/
theorem obeys_handle {request : JsonObject} (hop : (request.value "op").toString = "write") :
    Obeys (writing (orderOf provider share request)) Final (.seeking [] ⟨share.device, share.inode⟩)
      (share.handle provider request) := by
  have herror : ∀ names node code, Obeys (writing (orderOf provider share request)) Final
      (.seeking names node) (.done (errorObject code)) := fun _ _ _ => rfl
  unfold handle
  dsimp only
  split
  · exact herror _ _ _
  refine obeys_resolve.bind fun last absolute hlast => ?_
  obtain ⟨rfl, hrelative⟩ := hlast
  split
  · exact herror _ _ _
  next habsolute =>
  rw [if_neg (by simp [hop]), if_neg (by simp [hop]), if_pos (.inl hop), create]
  split
  · exact herror _ _ _
  next hne =>
  have hparts := components_eq (hrelative habsolute) hne
  have hordinary : ∀ part ∈ components (request.value "path").toString,
      Ordinary (provider.encodeName part) := fun part => ordinary_of_relative (hrelative habsolute)
  rw [hparts] at hordinary
  refine (obeys_confined fun part hpart => hordinary part (by simp [hpart])).bind
    fun last directory hlast => ?_
  cases directory with
  | none =>
      obtain ⟨names, node, rfl⟩ := hlast
      exact herror _ _ _
  | some directory =>
      obtain rfl := hlast
      dsimp only
      rw [if_neg (by simp [hop])]
      split
      · exact herror _ _ _
      next data hdata =>
      -- The name of the temporary file is drawn, and hidden.
      refine obeys_neutral rfl fun uuid huuid => ?_
      obtain ⟨fs, _, hdoes⟩ := huuid
      obtain ⟨-, huuid⟩ := hdoes (by simp [Call.names])
      have htemporary := ordinary_temporary huuid
      refine ⟨⟨rfl, rfl, htemporary, List.prefix_append _ _⟩, fun fd _ => ?_⟩
      cases fd with
      | none => exact herror _ _ _
      | some node => exact obeys_publish htemporary (hordinary _ (by simp)) hdata

end FileShare

end ServerHost
