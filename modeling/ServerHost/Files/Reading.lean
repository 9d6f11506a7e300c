import ServerHost.Files.Confinement

/-!
# Reading one revision of a file

A client takes a version from `stat` and reads the file chunk by chunk with this
version.  `FileShare` asks for the version before and after each `pread`.  Two
assumptions on the file system turn this into one revision:

* `Distinct`: two contents never have the same version;
* `Settled`: while a request is handled, a version that a file has left does not come
  back to it.

The first alone is not enough.  When a file is rewritten between the first
`fstat` and the `pread`, and put back with its old modification time before the
second `fstat`, the reply has the old version and the bytes of the other content
(`not_revision_sample`).
-/

namespace ServerHost

open Files Program

namespace FileShare

/-! ## Versions at a moment -/

/-- At this moment a file has this version and this content. -/
def Shows (fs : FileSystem) (v : String) (content : Bytes) : Prop :=
  ∃ node stat, fs.stat node = some stat ∧ version stat = v ∧ fs.content node = some content

/-- Distinct contents have distinct versions. -/
def Distinct (history : List FileSystem) : Prop :=
  ∀ fs ∈ history, ∀ fs' ∈ history, ∀ v content content',
    Shows fs v content → Shows fs' v content' → content = content'

/-- A node that has a version at two moments has it at all moments between them. -/
def Settled (history : List FileSystem) : Prop :=
  ∀ before fs between fs' after, history = before ++ fs :: between ++ fs' :: after →
    ∀ node v, (fs.stat node).map version = some v → (fs'.stat node).map version = some v →
      ∀ moment ∈ between, (moment.stat node).map version = some v

theorem Distinct.sublist {history part : List FileSystem} (h : Distinct history)
    (hpart : part <:+: history) : Distinct part :=
  fun fs hfs fs' hfs' => h fs (hpart.subset hfs) fs' (hpart.subset hfs')

/-- A regular file has a content of the size that is reported. -/
theorem content_of_stat {fs : FileSystem} {node : NodeId} {stat : Stat}
    (h : fs.stat node = some stat) (hregular : stat.kind = .regular) :
    ∃ content, fs.content node = some content ∧ stat.size = content.length := by
  obtain ⟨inner, hinner, rfl⟩ := Option.map_eq_some_iff.1 h
  obtain ⟨body, extent, seconds, nanoseconds⟩ := inner
  cases body with
  | regular content => exact ⟨content, by simp [FileSystem.content, hinner, Body.content], rfl⟩
  | directory entries => cases hregular
  | link => cases hregular
  | other => cases hregular

/-! ## One read -/

/-- The request for the chunk of a version at an offset. -/
def readRequest (path v : String) (offset : ℕ) : JsonObject :=
  ⟨[("op", .string "read"), ("path", .string path), ("version", .string v),
    ("offset", .string (number offset))]⟩

section
variable (path v : String) (offset : ℕ)

@[simp] theorem readRequest_op : ((readRequest path v offset).value "op").toString = "read" := by
  simp [readRequest, JsonObject.value, Json.toString]

@[simp] theorem readRequest_version :
    ((readRequest path v offset).value "version").toString = v := by
  simp [readRequest, JsonObject.value, List.lookup_cons, Json.toString]

@[simp] theorem readRequest_contains :
    (readRequest path v offset).contains "version" = true := by
  simp [readRequest, JsonObject.contains, List.lookup_cons]

@[simp] theorem readRequest_offset :
    numberOf (readRequest path v offset) "offset" = longLong (number offset) := by
  simp [readRequest, numberOf, JsonObject.contains, JsonObject.value, List.lookup_cons,
    Json.toString]

end

def statRequest (path : String) : JsonObject :=
  ⟨[("op", .string "stat"), ("path", .string path)]⟩

/-- What the client takes from a reply. -/
def chunk (reply : JsonObject) : Option Bytes :=
  Base64.decode (latin1Bytes (reply.value "data").toString)

/-- The node had the version before and after its bytes were read. -/
structure Bracketed (v : String) (offset : ℕ) (events : List Event) (node : NodeId) (stat : Stat)
    (bytes : Bytes) : Prop where
  regular : stat.kind = .regular
  revision : version stat = v
  bounded : (offset : ℤ) ≤ stat.size
  calls : ∃ before first second third, events = before ++ [first, second, third] ∧
    (∃ fs ∈ first.moments, fs.stat node = some stat) ∧
    Torn second.moments node (min (chunkBytes : ℤ) (stat.size - offset)).toNat offset bytes ∧
    ∃ fs ∈ third.moments, (fs.stat node).map version = some v

variable {provider : FileProvider} {share : FileShare} {path v : String} {offset : ℕ}
  {events : List Event} {reply : JsonObject}

theorem runs_readChunk {node : NodeId} {stat : Stat}
    (h : Runs (readChunk node stat offset) events reply) (hok : reply.value "ok" = .bool true) :
    ∃ bytes second third, events = [second, third] ∧ reply = readReply stat offset bytes ∧
      Torn second.moments node (min (chunkBytes : ℤ) (stat.size - offset)).toNat offset bytes ∧
      ∃ fs ∈ third.moments, (fs.stat node).map version = some (version stat) := by
  obtain ⟨bytes, second, rest, rfl, ⟨-, htorn⟩, hrest⟩ := runs_call_iff.1 h
  cases bytes with
  | none => exact absurd hok (not_ok_of_error rfl hrest)
  | some bytes =>
      obtain ⟨after, third, rest, rfl, ⟨-, htook⟩, hrest⟩ := runs_call_iff.1 hrest
      cases after with
      | none => exact absurd hok (not_ok_of_error rfl hrest)
      | some after =>
          obtain ⟨fs, hfs, _, -, hdoes⟩ := mem_of_took htook
          obtain ⟨-, hanswer⟩ := hdoes (by simp [Call.names])
          have hstat := hanswer after rfl
          dsimp only at hrest
          split at hrest
          · exact absurd hok (not_ok_of_error rfl hrest)
          next hsame =>
          rw [ne_eq, not_not] at hsame
          obtain ⟨rfl, rfl⟩ := runs_done_iff.1 hrest
          exact ⟨bytes, second, third, rfl, rfl, htorn bytes rfl, fs, hfs,
            by rw [hstat, Option.map_some, hsame]⟩

theorem runs_read_version
    (h : Runs (share.handle provider (readRequest path v offset)) events reply)
    (hok : reply.value "ok" = .bool true) :
    ∃ node stat bytes, Bracketed v offset events node stat bytes ∧
      reply = readReply stat offset bytes := by
  unfold handle at h
  dsimp only at h
  split at h
  · exact absurd hok (not_ok_of_error rfl h)
  obtain ⟨resolving, rest, absolute, rfl, -, hrest⟩ := runs_bind_iff.1 h
  split at hrest
  · exact absurd hok (not_ok_of_error rfl hrest)
  rw [readRequest_op, if_neg (by decide), if_pos (.inl rfl)] at hrest
  obtain ⟨opening, rest, node, rfl, -, hrest⟩ := runs_bind_iff.1 hrest
  cases node with
  | none => exact absurd hok (not_ok_of_error rfl hrest)
  | some node =>
      -- The bracket opens with the revision that the request asks for,
      obtain ⟨stat, first, rest, rfl, ⟨-, htook⟩, hrest⟩ := runs_call_iff.1 hrest
      cases stat with
      | none => exact absurd hok (not_ok_of_error rfl hrest)
      | some stat =>
          obtain ⟨fs, hfs, _, -, hdoes⟩ := mem_of_took htook
          obtain ⟨-, hanswer⟩ := hdoes (by simp [Call.names])
          dsimp only at hrest
          split at hrest
          · exact absurd hok (not_ok_of_error rfl hrest)
          next hregular =>
          rw [ne_eq, not_not] at hregular
          split at hrest
          · exact absurd hok (not_ok_of_error rfl hrest)
          next hversion =>
          rw [readRequest_version, readRequest_contains] at hversion
          push Not at hversion
          have hv : version stat = v := (hversion rfl).symm
          rw [if_neg (by decide)] at hrest
          split at hrest
          · exact absurd hok (not_ok_of_error rfl hrest)
          next asked hoffset =>
          rw [readRequest_offset, longLong_number] at hoffset
          obtain ⟨hread, hbounds⟩ := Option.filter_eq_some_iff.1 hoffset
          split at hread
          · obtain rfl := Option.some.inj hread
            -- and closes with the one that the reply names.
            obtain ⟨bytes, second, third, rfl, rfl, htorn, hlast⟩ := runs_readChunk hrest hok
            rw [hv] at hlast
            exact ⟨node, stat, bytes,
              { regular := hregular
                revision := hv
                bounded := (of_decide_eq_true hbounds).2
                calls := ⟨resolving ++ opening, first, second, third, by simp,
                  ⟨fs, hfs, hanswer stat rfl⟩, htorn, hlast⟩ }, rfl⟩
          · cases hread

/-- Between the two versions the file had one content, and the bytes are from there. -/
theorem Bracketed.bytes_eq {node : NodeId} {stat : Stat} {bytes : Bytes}
    (h : Bracketed v offset events node stat bytes) (hdistinct : Distinct (moments events))
    (hsettled : Settled (moments events)) : ∃ content, (∃ fs ∈ moments events, Shows fs v content) ∧
      stat.size = content.length ∧ bytes = (content.drop offset).take bytes.length ∧
      bytes.length ≤ chunkBytes ∧ (bytes = [] → (offset : ℤ) = content.length) := by
  obtain ⟨before, first, second, third, rfl, ⟨fs, hfs, hstat⟩, htorn, fs', hfs', hlast⟩ := h.calls
  obtain ⟨content, hcontent, hsize⟩ := content_of_stat hstat h.regular
  have hshows : Shows fs v content := ⟨node, stat, hstat, h.revision, hcontent⟩
  -- The moments of the `pread` lie between those of the two `fstat`s.
  obtain ⟨front, back, hfront⟩ := List.append_of_mem hfs
  obtain ⟨front', back', hback⟩ := List.append_of_mem hfs'
  have hsplit : moments (before ++ [first, second, third]) =
      (moments before ++ front) ++ fs :: (back ++ second.moments ++ front') ++ fs' :: back' := by
    simp [moments, hfront, hback]
  have hfirst : (fs.stat node).map version = some v := by rw [hstat, Option.map_some, h.revision]
  have hduring : ∀ moment ∈ second.moments, ∀ other, moment.content node = some other →
      other = content := by
    intro moment hmoment other hother
    have hversion := hsettled _ _ _ _ _ hsplit node v hfirst hlast moment (by simp [hmoment])
    obtain ⟨stat', hstat', hversion'⟩ := Option.map_eq_some_iff.1 hversion
    refine hdistinct moment ?_ fs ?_ v _ _ ⟨node, stat', hstat', hversion', hother⟩ hshows
    · simp [hsplit, hmoment]
    · simp [hsplit]
  have hbytes : ∀ i byte, bytes[i]? = some byte → content[offset + i]? = some byte := by
    intro i byte hbyte
    obtain ⟨moment, hmoment, other, hother, hread⟩ := htorn.byte i byte hbyte
    rwa [hduring moment hmoment other hother] at hread
  refine ⟨content, ⟨fs, by simp [hsplit], hshows⟩, hsize, ?_, ?_, ?_⟩
  · refine List.ext_getElem? fun i => ?_
    rcases lt_or_ge i bytes.length with hi | hi
    · rw [List.getElem?_take_of_lt hi, List.getElem?_drop, List.getElem?_eq_getElem hi]
      exact (hbytes i _ (List.getElem?_eq_getElem hi)).symm
    · rw [List.getElem?_eq_none hi, List.getElem?_eq_none]
      rw [List.length_take]
      omega
  · have hlength := htorn.length
    omega
  · intro hempty
    have hbounded := h.bounded
    rcases htorn.positive hempty with hnone | ⟨moment, hmoment, other, hother, hshort⟩
    · unfold chunkBytes at hnone
      omega
    · rw [hduring moment hmoment other hother] at hshort
      omega

/-! ## The whole file -/

theorem chunk_readReply (stat : Stat) (offset : ℤ) (bytes : Bytes) :
    chunk (readReply stat offset bytes) = some bytes := by
  have hdata : ((readReply stat offset bytes).value "data").toString =
      fromLatin1 (Base64.encode bytes) := by
    simp [readReply, JsonObject.value, List.lookup_cons, Json.toString]
  rw [chunk, hdata, latin1Bytes_fromLatin1, Base64.decode_encode]

theorem readReply_eof (stat : Stat) (offset : ℤ) (bytes : Bytes) :
    (readReply stat offset bytes).value "eof" =
      .bool (decide (offset + bytes.length = stat.size)) := by
  simp [readReply, JsonObject.value, List.lookup_cons]

/-- The client reads from an offset on until a reply says that this was the end.  The calls of
each request are a list of their own. -/
inductive Reads (provider : FileProvider) (share : FileShare) (path v : String) :
    ℕ → List (List Event) → List Bytes → Prop
  | last {offset : ℕ} {events : List Event} {reply : JsonObject} {bytes : Bytes} :
      Runs (share.handle provider (readRequest path v offset)) events reply →
      reply.value "ok" = .bool true → chunk reply = some bytes → reply.value "eof" = .bool true →
      Reads provider share path v offset [events] [bytes]
  | more {offset : ℕ} {events : List Event} {rest : List (List Event)} {reply : JsonObject}
      {bytes : Bytes} {others : List Bytes} :
      Runs (share.handle provider (readRequest path v offset)) events reply →
      reply.value "ok" = .bool true → chunk reply = some bytes → reply.value "eof" = .bool false →
      Reads provider share path v (offset + bytes.length) rest others →
      Reads provider share path v offset (events :: rest) (bytes :: others)

theorem Reads.ne_nil {parts : List (List Event)} {chunks : List Bytes}
    (h : Reads provider share path v offset parts chunks) :
    chunks ≠ [] := by
  cases h <;> simp

/-- What one reply says about the content that has the version. -/
theorem runs_read_chunk {bytes content : Bytes}
    (h : Runs (share.handle provider (readRequest path v offset)) events reply)
    (hok : reply.value "ok" = .bool true) (hbytes : chunk reply = some bytes)
    (hdistinct : Distinct (moments events)) (hsettled : Settled (moments events))
    (hcontent : ∀ fs ∈ moments events, ∀ other, Shows fs v other → other = content) :
    bytes = (content.drop offset).take bytes.length ∧ bytes.length ≤ chunkBytes ∧
      reply.value "eof" = .bool (decide (offset + bytes.length = content.length)) ∧
      (bytes = [] → offset = content.length) := by
  obtain ⟨node, stat, own, hbracketed, rfl⟩ := runs_read_version h hok
  obtain rfl : own = bytes := Option.some.inj ((chunk_readReply _ _ _).symm.trans hbytes)
  obtain ⟨other, ⟨fs, hfs, hshows⟩, hsize, hread, hlength, hempty⟩ :=
    hbracketed.bytes_eq hdistinct hsettled
  obtain rfl := hcontent fs hfs other hshows
  refine ⟨hread, hlength, ?_, fun hnone => by exact_mod_cast hempty hnone⟩
  rw [readReply_eof, hsize]
  norm_cast

theorem runs_stat (h : Runs (share.handle provider (statRequest path)) events reply)
    (hok : reply.value "ok" = .bool true) (hversion : reply.value "version" = .string v) :
    ∃ fs ∈ moments events, ∃ content, Shows fs v content := by
  obtain ⟨-, -, -, parts, onlyDirectory, node, before, opening, after, -, rfl, -, hacted⟩ :=
    runs_handle h hok
  have hop : ((statRequest path).value "op").toString = "stat" := by
    simp [statRequest, JsonObject.value, Json.toString]
  generalize ((statRequest path).value "op").toString = op at hop hacted
  cases hacted with
  | list => exact absurd hop (by decide)
  | read => exact absurd hop (by decide)
  | create hwrong => rcases hwrong with rfl | rfl <;> exact absurd hop (by decide)
  | @stat fs stat hfs hstat hregular =>
      obtain ⟨content, hcontent, -⟩ := content_of_stat hstat hregular
      have hsame : version stat = v := by
        simpa [statReply, JsonObject.value, List.lookup_cons] using hversion
      refine ⟨fs, ?_, content, node, stat, hstat, hsame, hcontent⟩
      rw [moments_append]
      exact List.mem_append_right _ hfs

/-- The chunks from an offset on are the rest of the content. -/
theorem Reads.flatten {parts : List (List Event)} {chunks : List Bytes} {content : Bytes}
    (h : Reads provider share path v offset parts chunks)
    (hdistinct : Distinct (moments parts.flatten))
    (hsettled : ∀ part ∈ parts, Settled (moments part))
    (hcontent : ∀ fs ∈ moments parts.flatten, ∀ other, Shows fs v other → other = content) :
    chunks.flatten = content.drop offset ∧ (∀ chunk ∈ chunks, chunk.length ≤ chunkBytes) ∧
      ∀ chunk ∈ chunks.dropLast, chunk ≠ [] := by
  induction h with
  | @last offset events reply bytes hruns hok hbytes hend =>
      -- The chunk that ends the file takes everything from its offset on.
      rw [List.flatten_cons, List.flatten_nil, List.append_nil] at hdistinct hcontent
      obtain ⟨hread, hlength, heof, -⟩ := runs_read_chunk hruns hok hbytes hdistinct
        (hsettled events List.mem_cons_self) hcontent
      rw [hend, Json.bool.injEq] at heof
      have hcount := of_decide_eq_true heof.symm
      refine ⟨?_, by simpa using hlength, by simp⟩
      rw [List.flatten_cons, List.flatten_nil, List.append_nil, hread, List.take_of_length_le]
      rw [List.length_drop]
      omega
  | @more offset events rest reply bytes others hruns hok hbytes hend hrest ih =>
      -- A chunk before the end is not empty, since an empty one would have ended the file.
      have hleft : moments events <:+: moments (events :: rest).flatten :=
        ⟨[], moments rest.flatten, by simp [moments_append]⟩
      have hright : moments rest.flatten <:+: moments (events :: rest).flatten :=
        ⟨moments events, [], by simp [moments_append]⟩
      obtain ⟨hread, hlength, heof, hempty⟩ := runs_read_chunk hruns hok hbytes
        (hdistinct.sublist hleft) (hsettled events List.mem_cons_self)
        (fun fs hfs => hcontent fs (hleft.subset hfs))
      obtain ⟨hflatten, hlengths, hnonempty⟩ := ih (hdistinct.sublist hright)
        (fun part hpart => hsettled part (List.mem_cons_of_mem _ hpart))
        (fun fs hfs => hcontent fs (hright.subset hfs))
      rw [hend, Json.bool.injEq] at heof
      have hmore : offset + bytes.length ≠ content.length := of_decide_eq_false heof.symm
      refine ⟨?_, ?_, ?_⟩
      · calc (bytes :: others).flatten
            = (content.drop offset).take bytes.length ++
                (content.drop offset).drop bytes.length := by
              rw [List.flatten_cons, hflatten, ← List.drop_drop, ← hread]
          _ = content.drop offset := List.take_append_drop _ _
      · intro chunk hchunk
        rcases List.mem_cons.1 hchunk with rfl | hother
        · exact hlength
        · exact hlengths chunk hother
      · intro chunk hchunk
        rw [List.dropLast_cons_of_ne_nil hrest.ne_nil] at hchunk
        rcases List.mem_cons.1 hchunk with rfl | hother
        · rintro rfl
          exact hmore (by rw [List.length_nil, Nat.add_zero, hempty rfl])
        · exact hnonempty chunk hother

/-- The chunks are the one content that has the version. -/
structure OneRevision (v : String) (first history : List FileSystem) (chunks : List Bytes) :
    Prop where
  revision : ∃ content, (∃ fs ∈ first, Shows fs v content) ∧
    (∀ fs ∈ history, ∀ other, Shows fs v other → other = content) ∧ chunks.flatten = content
  bounded : ∀ chunk ∈ chunks, chunk.length ≤ chunkBytes
  positive : ∀ chunk ∈ chunks.dropLast, chunk ≠ []

/-- **A file that is read with its version is the revision that has this version.** -/
theorem read_revision {first : List Event} {parts : List (List Event)} {chunks : List Bytes}
    (hfirst : Runs (share.handle provider (statRequest path)) first reply)
    (hok : reply.value "ok" = .bool true) (hversion : reply.value "version" = .string v)
    (hreads : Reads provider share path v 0 parts chunks)
    (hdistinct : Distinct (moments (first ++ parts.flatten)))
    (hsettled : ∀ part ∈ parts, Settled (moments part)) :
    OneRevision v (moments first) (moments (first ++ parts.flatten)) chunks := by
  obtain ⟨fs, hfs, content, hshows⟩ := runs_stat hfirst hok hversion
  have hsame : ∀ moment ∈ moments (first ++ parts.flatten), ∀ other, Shows moment v other →
      other = content :=
    fun moment hmoment other hother =>
      hdistinct moment hmoment fs (by simp [moments_append, hfs]) v other content hother hshows
  have hmiddle : moments parts.flatten <:+: moments (first ++ parts.flatten) :=
    ⟨moments first, [], by simp [moments_append]⟩
  obtain ⟨hflatten, hlengths, hnonempty⟩ := hreads.flatten (hdistinct.sublist hmiddle)
    hsettled (fun moment hmoment => hsame moment (hmiddle.subset hmoment))
  exact ⟨⟨content, ⟨fs, hfs, hshows⟩, hsame, hflatten⟩, hlengths, hnonempty⟩

/-! ### A small file -/

/-- A root with one file. -/
def sampleRevision (content : Bytes) (seconds : ℤ) : FileSystem where
  nodes := Table.ofList [
    (⟨1, 1⟩, { body := .directory (Table.ofList [(latin1Bytes "f", ⟨1, 2⟩)]) }),
    (⟨1, 2⟩, { body := .regular content, seconds := seconds })]
  absolute path := if path = latin1Bytes "/" then some ⟨1, 1⟩ else none

theorem shows_sampleRevision {content other : Bytes} {seconds : ℤ}
    (h : Shows (sampleRevision content seconds) v other) :
    other = content ∧ v = version ⟨1, 2, .regular, content.length, seconds, 0⟩ := by
  obtain ⟨node, stat, hstat, rfl, hcontent⟩ := h
  obtain ⟨inner, hinner, hbody⟩ := FileSystem.lookup_of_content hcontent
  simp only [FileSystem.stat, hinner, Option.map_some, Option.some.injEq] at hstat
  simp only [sampleRevision, Table.ofList, List.foldr_cons, List.foldr_nil,
    Table.lookup_insert_eq_some, AList.lookup_empty, reduceCtorEq, and_false, or_false] at hinner
  rcases hinner with ⟨rfl, rfl⟩ | ⟨-, rfl, rfl⟩
  · cases hbody
  · cases hbody
    exact ⟨rfl, by rw [← hstat]; rfl⟩

/-- While the bytes are read, the other file system is there. -/
def interruptedAnswer (resting during : FileSystem) : (call : Call) → call.Answer
  | .pread node size offset => during.answer (.pread node size offset)
  | other => resting.answer other

def interrupted (resting during : FileSystem) (call : Call) : Event where
  call := call
  answer := interruptedAnswer resting during call
  moments := match call with
    | .pread .. => [resting, during, resting]
    | _ => [resting, resting]

theorem makes_interrupted (resting during : FileSystem) (call : Call) :
    Makes call (interruptedAnswer resting during call) (interrupted resting during call) := by
  refine ⟨rfl, ?_⟩
  cases call with
  | pread node size offset =>
      intro bytes hbytes
      refine (during.took_answer (.pread node size offset) bytes hbytes).mono fun fs hfs => ?_
      simp only [List.mem_cons, List.not_mem_nil, or_false, or_self] at hfs
      simp [interrupted, hfs]
  | _ => exact resting.took_answer _

/-- A request for the file, with what the share did and replied. -/
def sampleRun (during : FileSystem) (request : JsonObject) : List Event × JsonObject :=
  let resting := sampleRevision [1, 2, 3] 0
  let program := handle .sample ⟨"/", 1, 1, false⟩ request
  (program.trace (interruptedAnswer resting during) (interrupted resting during),
    program.run (interruptedAnswer resting during))

theorem runs_sampleRun (during : FileSystem) (request : JsonObject) :
    Runs (handle .sample ⟨"/", 1, 1, false⟩ request) (sampleRun during request).1
      (sampleRun during request).2 :=
  runs_run (makes_interrupted _ during) _

/-- The history of a client that asks for the version and reads the file. -/
def sampleHistory (during : FileSystem) : List FileSystem :=
  moments ((sampleRun during (statRequest "f")).1 ++
    [(sampleRun during (readRequest "f" "1:2:3:0:0" 0)).1].flatten)

theorem mem_sampleHistory {during fs : FileSystem} (h : fs ∈ sampleHistory during) :
    fs = sampleRevision [1, 2, 3] 0 ∨ fs = during := by
  have hevent : ∀ event : Event,
      (∃ call, event = interrupted (sampleRevision [1, 2, 3] 0) during call) →
      fs ∈ event.moments → fs = sampleRevision [1, 2, 3] 0 ∨ fs = during := by
    rintro _ ⟨call, rfl⟩ hfs
    simp only [interrupted] at hfs
    split at hfs <;> simp at hfs <;> tauto
  obtain ⟨event, hmem, hfs⟩ := List.mem_flatMap.1 h
  rcases List.mem_append.1 hmem with hmem | hmem
  · exact hevent event (mem_trace hmem) hfs
  · rw [List.flatten_cons, List.flatten_nil, List.append_nil] at hmem
    exact hevent event (mem_trace hmem) hfs

theorem distinct_sampleHistory : Distinct (sampleHistory (sampleRevision [4, 5, 6] 1)) := by
  intro fs hfs fs' hfs' v content content' hshows hshows'
  rcases mem_sampleHistory hfs with rfl | rfl <;> rcases mem_sampleHistory hfs' with rfl | rfl <;>
    obtain ⟨rfl, hversion⟩ := shows_sampleRevision hshows <;>
    obtain ⟨rfl, hversion'⟩ := shows_sampleRevision hshows'
  · rfl
  · exact absurd (hversion.symm.trans hversion') (by decide)
  · exact absurd (hversion.symm.trans hversion') (by decide)
  · rfl

section
variable {during : FileSystem}

/-- What the share says about the version of the file while it is at rest. -/
def Reports (during : FileSystem) (bytes : Bytes) : Prop :=
  ((sampleRun during (statRequest "f")).2.value "ok").toBool = true ∧
    ((sampleRun during (statRequest "f")).2.value "version").isString = true ∧
    ((sampleRun during (statRequest "f")).2.value "version").toString = "1:2:3:0:0" ∧
    ((sampleRun during (readRequest "f" "1:2:3:0:0" 0)).2.value "ok").toBool = true ∧
    ((sampleRun during (readRequest "f" "1:2:3:0:0" 0)).2.value "eof").toBool = true ∧
    chunk (sampleRun during (readRequest "f" "1:2:3:0:0" 0)).2 = some bytes

instance (during : FileSystem) (bytes : Bytes) : Decidable (Reports during bytes) :=
  inferInstanceAs (Decidable (_ ∧ _))

theorem Reports.version_eq {bytes : Bytes} (h : Reports during bytes) :
    (sampleRun during (statRequest "f")).2.value "version" = .string "1:2:3:0:0" := by
  rw [Json.eq_string_of_isString h.2.1, h.2.2.1]

theorem Reports.reads {bytes : Bytes} (h : Reports during bytes) :
    Reads .sample ⟨"/", 1, 1, false⟩ "f" "1:2:3:0:0" 0
      [(sampleRun during (readRequest "f" "1:2:3:0:0" 0)).1] [bytes] :=
  .last (runs_sampleRun during _) (Json.eq_bool_of_toBool h.2.2.2.1) h.2.2.2.2.2
    (Json.eq_bool_of_toBool h.2.2.2.2.1)

end

/-- The root after another file came. -/
def sampleGrown : FileSystem where
  nodes := Table.ofList [
    (⟨1, 1⟩, { body := .directory (Table.ofList [(latin1Bytes "f", ⟨1, 2⟩),
      (latin1Bytes "g", ⟨1, 3⟩)]) }),
    (⟨1, 2⟩, { body := .regular [1, 2, 3] }),
    (⟨1, 3⟩, { body := .regular [9], seconds := 7 })]
  absolute path := if path = latin1Bytes "/" then some ⟨1, 1⟩ else none

theorem shows_sampleGrown {other : Bytes} (h : Shows sampleGrown v other) :
    (other = [1, 2, 3] ∧ v = version ⟨1, 2, .regular, 3, 0, 0⟩) ∨
      (other = [9] ∧ v = version ⟨1, 3, .regular, 1, 7, 0⟩) := by
  obtain ⟨node, stat, hstat, rfl, hcontent⟩ := h
  obtain ⟨inner, hinner, hbody⟩ := FileSystem.lookup_of_content hcontent
  simp only [FileSystem.stat, hinner, Option.map_some, Option.some.injEq] at hstat
  simp only [sampleGrown, Table.ofList, List.foldr_cons, List.foldr_nil,
    Table.lookup_insert_eq_some, AList.lookup_empty, reduceCtorEq, and_false, or_false] at hinner
  rcases hinner with ⟨rfl, rfl⟩ | ⟨-, ⟨rfl, rfl⟩ | ⟨-, rfl, rfl⟩⟩
  · cases hbody
  · cases hbody
    exact .inl ⟨rfl, by rw [← hstat]; rfl⟩
  · cases hbody
    exact .inr ⟨rfl, by rw [← hstat]; rfl⟩

/-- A kernel at rest whose `pread` returns two bytes at most. -/
def shortAnswer (fs : FileSystem) : (call : Call) → call.Answer
  | .pread node size offset => fs.answer (.pread node (min size 2) offset)
  | other => fs.answer other

theorem makes_short (fs : FileSystem) (call : Call) :
    Makes call (shortAnswer fs call) ⟨call, shortAnswer fs call, [fs, fs]⟩ := by
  refine ⟨rfl, ?_⟩
  cases call with
  | pread node size offset =>
      intro bytes hbytes
      have htorn := fs.took_answer (.pread node (min size 2) offset) bytes hbytes
      refine ⟨htorn.length.trans (min_le_left _ _), htorn.byte, fun hempty => ?_⟩
      refine (htorn.positive hempty).imp_left fun hnone => ?_
      omega
  | _ => exact fs.took_answer _

/-- A request for the file, with what the share did and replied. -/
def shortRun (fs : FileSystem) (request : JsonObject) : List Event × JsonObject :=
  let program := handle .sample ⟨"/", 1, 1, false⟩ request
  (program.trace (shortAnswer fs) fun call => ⟨call, shortAnswer fs call, [fs, fs]⟩,
    program.run (shortAnswer fs))

theorem runs_shortRun (fs : FileSystem) (request : JsonObject) :
    Runs (handle .sample ⟨"/", 1, 1, false⟩ request) (shortRun fs request).1
      (shortRun fs request).2 :=
  runs_run (makes_short fs) _

theorem mem_shortRun {fs moment : FileSystem} {request : JsonObject}
    (h : moment ∈ moments (shortRun fs request).1) : moment = fs := by
  obtain ⟨event, hmem, hmoment⟩ := List.mem_flatMap.1 h
  obtain ⟨call, rfl⟩ := mem_trace hmem
  simpa using hmoment

/-- The file is read in two requests, and the other one comes between them. -/
def growing : List (List Event) :=
  [(shortRun (sampleRevision [1, 2, 3] 0) (readRequest "f" "1:2:3:0:0" 0)).1,
    (shortRun sampleGrown (readRequest "f" "1:2:3:0:0" 2)).1]

theorem distinct_growing : Distinct (moments
    ((shortRun (sampleRevision [1, 2, 3] 0) (statRequest "f")).1 ++ growing.flatten)) := by
  have hmem : ∀ fs ∈ moments ((shortRun (sampleRevision [1, 2, 3] 0) (statRequest "f")).1 ++
      growing.flatten), fs = sampleRevision [1, 2, 3] 0 ∨ fs = sampleGrown := by
    intro fs hfs
    simp only [growing, List.flatten_cons, List.flatten_nil, List.append_nil, moments_append,
      List.mem_append] at hfs
    rcases hfs with hfs | hfs | hfs
    · exact .inl (mem_shortRun hfs)
    · exact .inl (mem_shortRun hfs)
    · exact .inr (mem_shortRun hfs)
  -- One of the two versions goes with one of the two contents, at every moment.
  have hshown : ∀ fs ∈ moments ((shortRun (sampleRevision [1, 2, 3] 0) (statRequest "f")).1 ++
      growing.flatten), ∀ v content, Shows fs v content →
        (content = [1, 2, 3] ∧ v = "1:2:3:0:0") ∨ (content = [9] ∧ v = "1:3:1:7:0") := by
    intro fs hfs v content hshows
    rcases hmem fs hfs with rfl | rfl
    · obtain ⟨rfl, rfl⟩ := shows_sampleRevision hshows
      exact .inl ⟨rfl, by decide⟩
    · rcases shows_sampleGrown hshows with ⟨rfl, rfl⟩ | ⟨rfl, rfl⟩
      · exact .inl ⟨rfl, by decide⟩
      · exact .inr ⟨rfl, by decide⟩
  intro fs hfs fs' hfs' v content content' hshows hshows'
  rcases hshown fs hfs v content hshows with ⟨rfl, rfl⟩ | ⟨rfl, rfl⟩ <;>
    rcases hshown fs' hfs' _ content' hshows' with ⟨rfl, hv⟩ | ⟨rfl, hv⟩
  · rfl
  · exact absurd hv (by decide)
  · exact absurd hv (by decide)
  · rfl

/-- A client reads the file in two requests, of which the second finds another file there. -/
theorem read_revision_growing : OneRevision "1:2:3:0:0"
    (moments (shortRun (sampleRevision [1, 2, 3] 0) (statRequest "f")).1)
    (moments ((shortRun (sampleRevision [1, 2, 3] 0) (statRequest "f")).1 ++ growing.flatten))
    [[1, 2], [3]] := by
  have hstat : ((shortRun (sampleRevision [1, 2, 3] 0) (statRequest "f")).2.value "ok").toBool =
        true ∧
      ((shortRun (sampleRevision [1, 2, 3] 0) (statRequest "f")).2.value "version").isString =
        true ∧
      ((shortRun (sampleRevision [1, 2, 3] 0) (statRequest "f")).2.value "version").toString =
        "1:2:3:0:0" := by decide +kernel
  have hmore : ((shortRun (sampleRevision [1, 2, 3] 0)
        (readRequest "f" "1:2:3:0:0" 0)).2.value "ok").toBool = true ∧
      chunk (shortRun (sampleRevision [1, 2, 3] 0) (readRequest "f" "1:2:3:0:0" 0)).2 =
        some [1, 2] := by decide +kernel
  have hlast : ((shortRun sampleGrown (readRequest "f" "1:2:3:0:0" 2)).2.value "ok").toBool =
        true ∧
      chunk (shortRun sampleGrown (readRequest "f" "1:2:3:0:0" 2)).2 = some [3] ∧
      ((shortRun sampleGrown (readRequest "f" "1:2:3:0:0" 2)).2.value "eof").toBool = true := by
    decide +kernel
  -- the file grows between its two chunks, and its metadata stay as they were
  have hreads : Reads .sample ⟨"/", 1, 1, false⟩ "f" "1:2:3:0:0" 0 growing [[1, 2], [3]] := by
    refine .more (runs_shortRun _ _) (Json.eq_bool_of_toBool hmore.1) hmore.2 rfl ?_
    exact .last (runs_shortRun _ _) (Json.eq_bool_of_toBool hlast.1) hlast.2.1
      (Json.eq_bool_of_toBool hlast.2.2)
  refine read_revision (runs_shortRun _ _) (Json.eq_bool_of_toBool hstat.1) ?_ hreads
    distinct_growing fun part hpart => ?_
  · rw [Json.eq_string_of_isString hstat.2.1, hstat.2.2]
  · -- Nothing changes while a request is handled.
    obtain ⟨resting, hresting⟩ : ∃ resting, ∀ fs ∈ moments part, fs = resting := by
      rcases List.mem_cons.1 hpart with rfl | hpart
      · exact ⟨_, fun fs => mem_shortRun⟩
      · obtain rfl := List.mem_singleton.1 hpart
        exact ⟨_, fun fs => mem_shortRun⟩
    intro before fs between fs' after hsplit node v hfirst _ moment hmoment
    rw [hresting moment (by simp [hsplit, hmoment]), ← hresting fs (by simp [hsplit])]
    exact hfirst

/-- The file is rewritten before its bytes are read and put back after. -/
theorem not_revision_sample : ¬ ∀ (provider : FileProvider) (share : FileShare) (path v : String)
    (first : List Event) (parts : List (List Event)) (reply : JsonObject) (chunks : List Bytes),
    Runs (share.handle provider (statRequest path)) first reply →
    reply.value "ok" = .bool true → reply.value "version" = .string v →
    Reads provider share path v 0 parts chunks → Distinct (moments (first ++ parts.flatten)) →
    OneRevision v (moments first) (moments (first ++ parts.flatten)) chunks := by
  intro h
  have hreports : Reports (sampleRevision [4, 5, 6] 1) [4, 5, 6] := by decide +kernel
  obtain ⟨content, ⟨fs, hfs, hshows⟩, -, hflatten⟩ := (h _ _ _ _ _ _ _ _ (runs_sampleRun _ _)
    (Json.eq_bool_of_toBool hreports.1) hreports.version_eq hreports.reads
    distinct_sampleHistory).revision
  have hmem : fs ∈ sampleHistory (sampleRevision [4, 5, 6] 1) := by
    rw [sampleHistory, moments_append]
    exact List.mem_append_left _ hfs
  rcases mem_sampleHistory hmem with rfl | rfl
  · obtain ⟨rfl, -⟩ := shows_sampleRevision hshows
    simp at hflatten
  · exact absurd (shows_sampleRevision hshows).2 (by decide)

end FileShare

end ServerHost
