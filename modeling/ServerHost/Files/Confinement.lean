import ServerHost.Files.Share

/-!
# A file share is confined to its root

A request that is answered with success acted on the node that the components of
its path lead to, one entry after the other, from the directory that the
constructor recorded, and none of these entries is a link.  Other programs may
change the file system between any two calls.
-/

namespace ServerHost

open Files Program

/-! ## Paths -/

namespace FileShare

variable {provider : FileProvider}

/-- What is checked of every component of a relative path. -/
theorem plain_of_relative {path part : String} (h : relative provider path = true)
    (hpart : part ∈ components path) : plain provider part = true := by
  unfold relative at h
  split at h
  · cases h
  · unfold components at hpart
    split at hpart
    · simp at hpart
    · next hne =>
        simp only [hne, decide_false, Bool.false_or, List.all_eq_true] at h
        exact h part hpart

/-- The components of a relative path are encoded as ordinary names. -/
theorem ordinary_of_relative {path part : String} (h : relative provider path = true)
    (hpart : part ∈ components path) : Ordinary (provider.encodeName part) := by
  have hplain := plain_of_relative h hpart
  simp only [plain, Bool.and_eq_true, decide_eq_true_eq, ne_eq] at hplain
  obtain ⟨⟨⟨⟨hempty, hdot⟩, hdots⟩, -⟩, -⟩ := hplain
  have hsplit : part ∈ split path := by
    unfold components at hpart
    split at hpart
    · simp at hpart
    · exact hpart
  obtain ⟨chars, hchars, rfl⟩ := List.mem_map.1 hsplit
  obtain ⟨hslash, hall⟩ := mem_of_mem_splitOn hchars
  refine provider.encodeName_ordinary _ hempty hdot hdots ?_ ?_
  · rwa [String.toList_ofList]
  · rw [String.toList_ofList]
    intro hzero
    unfold relative at h
    split at h
    · cases h
    · next hchecks =>
        simp only [not_or] at hchecks
        exact hchecks.2.2.2.2 (hall _ hzero)

/-- The components of a path are those of its parent and its last section. -/
theorem components_eq {path : String} (h : relative provider path = true) (hne : path ≠ "") :
    components path = components (parentPath path) ++ [lastSection path] := by
  -- The path read from its end: what stands behind the last slash, and the rest.
  have hsplit : path.toList = (path.toList.reverse.dropWhile (· ≠ '/')).reverse ++
      (path.toList.reverse.takeWhile (· ≠ '/')).reverse := by
    rw [← List.reverse_append, List.takeWhile_append_dropWhile, List.reverse_reverse]
  have hlast : '/' ∉ (path.toList.reverse.takeWhile (· ≠ '/')).reverse := by
    intro hmem
    have hall : (path.toList.reverse.takeWhile (· ≠ '/')).all (· ≠ '/') = true := List.all_takeWhile
    have hslash := List.all_eq_true.1 hall '/' (List.mem_reverse.1 hmem)
    simp at hslash
  cases hrest : path.toList.reverse.dropWhile (· ≠ '/') with
  -- Without a slash the path is one component, in the root.
  | nil =>
      rw [hrest, List.reverse_nil, List.nil_append] at hsplit
      have hparent : parentPath path = "" := by
        rw [parentPath, hrest]
        rfl
      have hsection : lastSection path = path := by
        rw [lastSection, ← hsplit, String.ofList_toList]
      rw [hparent, hsection, components, if_neg hne, split,
        List.splitOn_eq_singleton (by rw [hsplit]; exact hlast), components, if_pos rfl]
      simp
  -- The rest ends with that slash.  A path that starts with one is not relative.
  | cons c before =>
      obtain rfl : c = '/' := by
        have hhead := List.head?_dropWhile_not (· ≠ '/') path.toList.reverse
        rw [hrest] at hhead
        simpa using hhead
      rw [hrest, List.reverse_cons, List.append_assoc, List.singleton_append] at hsplit
      have hparent : parentPath path = String.ofList before.reverse := by
        rw [parentPath, hrest, List.tail_cons]
      have hparentNe : parentPath path ≠ "" := by
        intro hempty
        have hnil : before.reverse = [] := by
          have hlist := congrArg String.toList hempty
          rwa [hparent, String.toList_ofList] at hlist
        unfold relative at h
        split at h
        · cases h
        · next hchecks =>
            simp only [not_or] at hchecks
            refine hchecks.2.1 ?_
            rw [startsWith, hsplit, hnil]
            rfl
      rw [components, if_neg hne, components, if_neg hparentNe, split, split, hsplit,
        List.splitOn_append_cons_self, List.map_append, List.splitOn_eq_singleton hlast, hparent,
        String.toList_ofList]
      rfl

/-! ## The way to a node -/

/-- Each event opens the next component: at a moment of it the directory has that
name for a node which is no link, and a directory when another component follows. -/
inductive Reaches (provider : FileProvider) (onlyDirectory : Bool) :
    List Event → NodeId → List String → NodeId → Prop
  | here (node : NodeId) : Reaches provider onlyDirectory [] node [] node
  | child {event : Event} {events : List Event} {directory next node : NodeId} {part : String}
      {parts : List String} {fs : FileSystem} {kind : Kind} : fs ∈ event.moments →
      fs.entry directory (provider.encodeName part) = some next → fs.kind next = some kind →
      kind ≠ .link → (onlyDirectory = true ∨ parts ≠ [] → kind = .directory) →
      Reaches provider onlyDirectory events next parts node →
      Reaches provider onlyDirectory (event :: events) directory (part :: parts) node

/-- The root path leads to the recorded directory, and the parts from there to the node. -/
structure Opened (provider : FileProvider) (share : FileShare) (onlyDirectory : Bool)
    (parts : List String) (events : List Event) (node : NodeId) : Prop where
  way : ∃ first second opening, events = first :: second :: opening ∧
    (∃ fs ∈ first.moments,
      fs.absolute (provider.encodeName share.root) = some ⟨share.device, share.inode⟩) ∧
    Reaches provider onlyDirectory opening ⟨share.device, share.inode⟩ parts node

theorem mem_of_took {call : Call} {answer : call.Answer} {moments : List FileSystem}
    (h : ∃ fs fs', [fs, fs'] <:+: moments ∧ Does fs call answer fs') :
    ∃ fs ∈ moments, ∃ fs' ∈ moments, Does fs call answer fs' := by
  obtain ⟨fs, fs', hmiddle, hdoes⟩ := h
  exact ⟨fs, hmiddle.subset (by simp), fs', hmiddle.subset (by simp), hdoes⟩

variable {share : FileShare} {events : List Event}

theorem runs_descend {onlyDirectory : Bool} {fd node : NodeId} {parts : List String}
    (hparts : ∀ part ∈ parts, Ordinary (provider.encodeName part))
    (h : Runs (descend provider onlyDirectory fd parts) events (some node)) :
    Reaches provider onlyDirectory events fd parts node := by
  induction parts generalizing fd events with
  | nil =>
      obtain ⟨rfl, hnode⟩ := runs_done_iff.1 h
      obtain rfl := Option.some.inj hnode
      exact .here _
  | cons part rest ih =>
      obtain ⟨answer, event, others, rfl, ⟨-, htook⟩, hrest⟩ := runs_call_iff.1 h
      cases answer with
      | none =>
          obtain ⟨-, hnode⟩ := runs_done_iff.1 hrest
          cases hnode
      | some next =>
          obtain ⟨fs, hfs, _, -, hdoes⟩ := mem_of_took htook
          obtain ⟨-, hanswer⟩ := hdoes (by simpa [Call.names] using hparts part (by simp))
          obtain ⟨hentry, kind, hkind, hlink, hdirectory⟩ := hanswer next rfl
          refine .child hfs hentry hkind hlink ?_ (ih (fun p hp => hparts p (by simp [hp])) hrest)
          rintro (honly | hmore)
          · exact hdirectory (by simp [honly])
          · exact hdirectory (by simpa [List.isEmpty_iff] using .inr hmore)

theorem runs_confined {onlyDirectory : Bool} {path : String} {node : NodeId}
    (hparts : ∀ part ∈ components path, Ordinary (provider.encodeName part))
    (h : Runs (share.confined provider path onlyDirectory) events (some node)) :
    Opened provider share onlyDirectory (components path) events node := by
  obtain ⟨root, first, others, rfl, ⟨-, htook⟩, hrest⟩ := runs_call_iff.1 h
  cases root with
  | none =>
      obtain ⟨-, hnode⟩ := runs_done_iff.1 hrest
      cases hnode
  | some root =>
      obtain ⟨fs, hfs, _, -, hdoes⟩ := mem_of_took htook
      obtain ⟨-, hanswer⟩ := hdoes (by simp [Call.names])
      obtain ⟨habsolute, -⟩ := hanswer root rfl
      -- The root is opened again for every request, and compared with the one at start.
      obtain ⟨stat, second, opening, rfl, ⟨-, htook⟩, hrest⟩ := runs_call_iff.1 hrest
      cases stat with
      | none =>
          obtain ⟨-, hnode⟩ := runs_done_iff.1 hrest
          cases hnode
      | some stat =>
          obtain ⟨fs', -, _, -, hdoes⟩ := mem_of_took htook
          obtain ⟨-, hanswer⟩ := hdoes (by simp [Call.names])
          have hstat := hanswer stat rfl
          simp only at hrest
          split at hrest
          · obtain ⟨-, hnode⟩ := runs_done_iff.1 hrest
            cases hnode
          · next hsame =>
              push Not at hsame
              obtain ⟨inner, -, rfl⟩ := Option.map_eq_some_iff.1 hstat
              obtain rfl : root = ⟨share.device, share.inode⟩ := by
                rw [← hsame.1, ← hsame.2]
                rfl
              exact ⟨first, second, opening, rfl, ⟨fs, hfs, habsolute⟩, runs_descend hparts hrest⟩

theorem runs_resolve {path absolute : String} {allowMissing : Bool}
    (h : Runs (share.resolve provider path allowMissing) events absolute) (hne : absolute ≠ "") :
    relative provider path = true := by
  unfold resolve at h
  split at h
  · obtain ⟨-, hnone⟩ := runs_done_iff.1 h
    exact absurd hnone hne
  · next hchecks =>
      push Not at hchecks
      exact hchecks.2

/-! ## The operations -/

/-- The entry was listed as a child of the directory. -/
def Listed (provider : FileProvider) (node : NodeId) (history : List FileSystem) (json : Json) :
    Prop :=
  ∃ fs ∈ history, ∃ name text child stat, shareableName provider name = some text ∧
    fs.entry node name = some child ∧ fs.stat child = some stat ∧ json = entryJson text stat

/-- The name was free in the directory, and has a new entry at the next moment. -/
def Created (node : NodeId) (name : Name) (history : List FileSystem) : Prop :=
  ∃ fs fs' child, [fs, fs'] <:+: history ∧ fs.entry node name = none ∧
    fs'.entry node name = some child

theorem Created.mono {node : NodeId} {name : Name} {history more : List FileSystem}
    (h : Created node name history) (hmore : history <:+: more) : Created node name more := by
  obtain ⟨fs, fs', child, hmiddle, hfree, hnew⟩ := h
  exact ⟨fs, fs', child, hmiddle.trans hmore, hfree, hnew⟩

/-- What the operation did with the node, as its reply says. -/
inductive Acted (provider : FileProvider) (node : NodeId) (path : String)
    (history : List FileSystem) : String → JsonObject → Prop
  | list (offset : ℤ) {entries : List Json} (more : Bool) :
      (∃ fs ∈ history, fs.kind node = some .directory) →
      (∀ json ∈ entries, Listed provider node history json) →
      Acted provider node path history "list" (pageReply offset entries more)
  | stat {fs : FileSystem} {stat : Stat} : fs ∈ history → fs.stat node = some stat →
      stat.kind = .regular → Acted provider node path history "stat" (statReply stat)
  | read {fs : FileSystem} {stat : Stat} {offset : ℤ} {size : ℕ} {bytes : Bytes} : fs ∈ history →
      fs.stat node = some stat → stat.kind = .regular →
      Torn history node size offset.toNat bytes →
      Acted provider node path history "read" (readReply stat offset bytes)
  | create {op : String} {reply : JsonObject} : op = "write" ∨ op = "mkdir" →
      Created node (provider.encodeName (lastSection path)) history →
      Acted provider node path history op reply

@[simp] theorem errorObject_ok (code : String) : (errorObject code).value "ok" = .bool false := rfl

theorem not_ok_of_error {code : String} {reply : JsonObject} {request : Prog JsonObject}
    (hrequest : request = .done (errorObject code)) (h : Runs request events reply) :
    reply.value "ok" ≠ .bool true := by
  subst hrequest
  obtain ⟨-, rfl⟩ := runs_done_iff.1 h
  simp

theorem mem_moments_cons {event : Event} {fs : FileSystem} :
    fs ∈ moments (event :: events) ↔ fs ∈ event.moments ∨ fs ∈ moments events := by
  simp [moments]

theorem infix_moments {event : Event} (h : event ∈ events) : event.moments <:+: moments events := by
  obtain ⟨before, after, rfl⟩ := List.append_of_mem h
  exact ⟨moments before, moments after, by simp [moments]⟩

theorem runs_listNames {fd : NodeId} {offset index : ℤ} {entries : List Json} {names : List Name}
    {page : List Json × Bool} {history : List FileSystem}
    (hhistory : ∀ fs ∈ moments events, fs ∈ history)
    (hnames : ∀ name ∈ names, name ∈ dots ∨ Ordinary name)
    (hentries : ∀ json ∈ entries, Listed provider fd history json)
    (h : Runs (listNames provider fd offset index entries names) events page) :
    ∀ json ∈ page.1, Listed provider fd history json := by
  induction names generalizing index entries events with
  | nil =>
      -- What was collected is the page.
      obtain ⟨-, rfl⟩ := runs_done_iff.1 h
      exact hentries
  | cons name rest ih =>
      have hrest : ∀ name ∈ rest, name ∈ dots ∨ Ordinary name :=
        fun other hother => hnames other (by simp [hother])
      rw [listNames] at h
      cases hname : shareableName provider name with
      | none =>
          rw [hname] at h
          exact ih hhistory hrest hentries h
      | some text =>
          have hordinary : Ordinary name := by
            refine (hnames name (by simp)).resolve_left fun hdots => ?_
            rw [shareableName, if_pos hdots] at hname
            cases hname
          rw [hname] at h
          obtain ⟨stat, event, others, rfl, ⟨-, htook⟩, hnext⟩ := runs_call_iff.1 h
          have hothers : ∀ fs ∈ moments others, fs ∈ history :=
            fun fs hfs => hhistory fs (mem_moments_cons.2 (.inr hfs))
          cases stat with
          | none => exact ih hothers hrest hentries hnext
          | some stat =>
              -- The entry is what the directory held at the moment of the call.
              obtain ⟨fs, hfs, _, -, hdoes⟩ := mem_of_took htook
              obtain ⟨-, hanswer⟩ := hdoes (by simpa [Call.names] using hordinary)
              obtain ⟨child, hentry, hstat⟩ := hanswer stat rfl
              have hlisted : Listed provider fd history (entryJson text stat) :=
                ⟨fs, hhistory fs (mem_moments_cons.2 (.inl hfs)), name, text, child, stat, hname,
                  hentry, hstat, rfl⟩
              dsimp only at hnext
              -- Dropped for its kind, or before the offset, or one too many: nothing is added.
              split at hnext
              · exact ih hothers hrest hentries hnext
              split at hnext
              · exact ih hothers hrest hentries hnext
              split at hnext
              · obtain ⟨-, rfl⟩ := runs_done_iff.1 hnext
                exact hentries
              refine ih hothers hrest ?_ hnext
              intro json hjson
              rcases List.mem_append.1 hjson with hold | hnew
              · exact hentries json hold
              · rw [List.mem_singleton.1 hnew]
                exact hlisted

theorem temporaryPrefix_eq :
    temporaryPrefix = [46, 105, 105, 119, 101, 98, 115, 101, 114, 118, 101, 114, 45] := rfl

/-- The name of a temporary file is ordinary. -/
theorem ordinary_temporary {text : Name} (h : Ordinary text) :
    Ordinary (temporaryPrefix ++ text) where
  nonempty := by simp [temporaryPrefix_eq]
  dots := by simp [temporaryPrefix_eq, Files.dots]
  slash := by simp [temporaryPrefix_eq, h.slash]
  zero := by simp [temporaryPrefix_eq, h.zero]

theorem runs_publish {directory fd : NodeId} {temporary name : Name} {data : Bytes}
    {absolute : String} {reply : JsonObject} (htemporary : Ordinary temporary)
    (hname : Ordinary name) (hok : reply.value "ok" = .bool true)
    (h : Runs (publish directory temporary name fd data absolute) events reply) :
    Created directory name (moments events) := by
  obtain ⟨writing, rest, written, rfl, -, hrest⟩ := runs_bind_iff.1 h
  obtain ⟨syncing, rest, stored, rfl, -, hrest⟩ := runs_bind_iff.1 hrest
  obtain ⟨linking, rest, ok, rfl, hlinking, hrest⟩ := runs_bind_iff.1 hrest
  obtain ⟨_, unlinking, rest, rfl, -, hrest⟩ := runs_call_iff.1 hrest
  split at hrest
  · next hlinked =>
      subst hlinked
      split at hlinking
      · obtain ⟨linked, event, others, rfl, ⟨-, fs, fs', hmiddle, hdoes⟩, hvalue⟩ :=
          runs_call_iff.1 hlinking
        obtain ⟨rfl, rfl⟩ := runs_done_iff.1 hvalue
        have heffect := hdoes (by simp [Call.names, htemporary, hname])
        simp only [Effect, if_true] at heffect
        obtain ⟨id, hentry, hfree, rfl⟩ := heffect
        exact ⟨fs, _, id, hmiddle.trans (infix_moments (by simp)), hfree,
          FileSystem.entry_add_self _ _ _ _ (FileSystem.isSome_entries_of_entry _ _ _ hentry)⟩
      · obtain ⟨-, hvalue⟩ := runs_done_iff.1 hlinking
        cases hvalue
  · exact absurd hok (not_ok_of_error rfl hrest)

section
variable {path : String} {request reply : JsonObject}
  (hrelative : relative provider path = true) (hok : reply.value "ok" = .bool true)
include hrelative hok

theorem runs_list (h : Runs (share.list provider path request) events reply) :
    ∃ node opening after, events = opening ++ after ∧
      Opened provider share true (components path) opening node ∧
      Acted provider node path (moments after) "list" reply := by
  unfold list at h
  split at h
  · exact absurd hok (not_ok_of_error rfl h)
  obtain ⟨opening, after, fd, rfl, hopening, hafter⟩ := runs_bind_iff.1 h
  cases fd with
  | none => exact absurd hok (not_ok_of_error rfl hafter)
  | some node =>
      refine ⟨node, opening, after, rfl,
        runs_confined (fun part => ordinary_of_relative hrelative) hopening, ?_⟩
      obtain ⟨names, event, others, rfl, ⟨-, htook⟩, hrest⟩ := runs_call_iff.1 hafter
      cases names with
      | none => exact absurd hok (not_ok_of_error rfl hrest)
      | some names =>
          obtain ⟨fs, hfs, _, -, hdoes⟩ := mem_of_took htook
          obtain ⟨-, hanswer⟩ := hdoes (by simp [Call.names])
          obtain ⟨hkind, hnames⟩ := hanswer names rfl
          obtain ⟨scan, last, page, rfl, hscan, hlast⟩ := runs_bind_iff.1 hrest
          obtain ⟨rfl, rfl⟩ := runs_done_iff.1 hlast
          refine .list _ _ ⟨fs, mem_moments_cons.2 (.inl hfs), hkind⟩ ?_
          refine runs_listNames (fun fs hfs => ?_) hnames (by simp) hscan
          rw [List.append_nil]
          exact mem_moments_cons.2 (.inr hfs)

theorem runs_read {op : String} (hop : op = "read" ∨ op = "stat")
    (h : Runs (share.read provider op path request) events reply) :
    ∃ node opening after, events = opening ++ after ∧
      Opened provider share false (components path) opening node ∧
      Acted provider node path (moments after) op reply := by
  obtain ⟨opening, after, fd, rfl, hopening, hafter⟩ := runs_bind_iff.1 h
  -- Every refusal is an error, and no error says `ok`.
  cases fd with
  | none => exact absurd hok (not_ok_of_error rfl hafter)
  | some node =>
      refine ⟨node, opening, after, rfl,
        runs_confined (fun part => ordinary_of_relative hrelative) hopening, ?_⟩
      obtain ⟨stat, event, others, rfl, ⟨-, htook⟩, hrest⟩ := runs_call_iff.1 hafter
      cases stat with
      | none => exact absurd hok (not_ok_of_error rfl hrest)
      | some stat =>
          -- The first `fstat` is the moment at which the node was measured.
          obtain ⟨fs, hfs, _, -, hdoes⟩ := mem_of_took htook
          obtain ⟨-, hanswer⟩ := hdoes (by simp [Call.names])
          have hstat := hanswer stat rfl
          have hmoment : fs ∈ moments (event :: others) := mem_moments_cons.2 (.inl hfs)
          dsimp only at hrest
          split at hrest
          · exact absurd hok (not_ok_of_error rfl hrest)
          next hregular =>
          rw [ne_eq, not_not] at hregular
          split at hrest
          · exact absurd hok (not_ok_of_error rfl hrest)
          split at hrest
          · next hsame =>
              obtain ⟨-, rfl⟩ := runs_done_iff.1 hrest
              subst hsame
              exact .stat hmoment hstat hregular
          next hread =>
          obtain rfl := hop.resolve_right hread
          split at hrest
          · exact absurd hok (not_ok_of_error rfl hrest)
          next offset _ =>
          obtain ⟨bytes, reading, others, rfl, ⟨-, htorn⟩, hrest⟩ := runs_call_iff.1 hrest
          cases bytes with
          | none => exact absurd hok (not_ok_of_error rfl hrest)
          | some bytes =>
              obtain ⟨after, again, others, rfl, -, hrest⟩ := runs_call_iff.1 hrest
              -- The second `fstat` decides whether the bytes are sent, not what they are.
              cases after with
              | none => exact absurd hok (not_ok_of_error rfl hrest)
              | some after =>
                  dsimp only at hrest
                  split at hrest
                  · exact absurd hok (not_ok_of_error rfl hrest)
                  obtain ⟨-, rfl⟩ := runs_done_iff.1 hrest
                  refine .read hmoment hstat hregular ((htorn bytes rfl).mono fun fs hfs => ?_)
                  exact mem_moments_cons.2 (.inr (mem_moments_cons.2 (.inl hfs)))

theorem runs_create {op absolute : String} (hop : op = "write" ∨ op = "mkdir")
    (h : Runs (share.create provider op path absolute request) events reply) :
    ∃ node opening after, path ≠ "" ∧ events = opening ++ after ∧
      Opened provider share true (components (parentPath path)) opening node ∧
      Acted provider node path (moments after) op reply := by
  unfold create at h
  split at h
  · exact absurd hok (not_ok_of_error rfl h)
  next hne =>
  have hparts := components_eq hrelative hne
  have hname : Ordinary (provider.encodeName (lastSection path)) :=
    ordinary_of_relative hrelative (by rw [hparts]; simp)
  obtain ⟨opening, after, directory, rfl, hopening, hafter⟩ := runs_bind_iff.1 h
  cases directory with
  | none => exact absurd hok (not_ok_of_error rfl hafter)
  | some directory =>
      refine ⟨directory, opening, after, hne, rfl, runs_confined (fun part hpart => ?_) hopening,
        .create hop ?_⟩
      · exact ordinary_of_relative hrelative (by rw [hparts]; simp [hpart])
      dsimp only at hafter
      split at hafter
      -- `mkdirat` makes the directory under its own name.
      · obtain ⟨made, event, rest, rfl, ⟨-, fs, fs', hmiddle, hdoes⟩, hrest⟩ :=
          runs_call_iff.1 hafter
        obtain ⟨rfl, rfl⟩ := runs_done_iff.1 hrest
        cases made with
        | false => exact absurd hok (by simp)
        | true =>
            have heffect := hdoes (by simpa [Call.names] using hname)
            simp only [Effect, if_true] at heffect
            obtain ⟨hentries, hfree, id, hid, rfl⟩ := heffect
            refine ⟨fs, _, id, hmiddle.trans (infix_moments (by simp)), hfree,
              FileSystem.entry_add_self _ _ _ _ ?_⟩
            rw [FileSystem.entries_create]
            split
            · rfl
            · exact hentries
      · split at hafter
        · exact absurd hok (not_ok_of_error rfl hafter)
        -- A file is written under a hidden name first, and published by a link.
        obtain ⟨uuid, event, rest, rfl, ⟨-, htook⟩, hrest⟩ := runs_call_iff.1 hafter
        obtain ⟨fs, -, _, -, hdoes⟩ := mem_of_took htook
        obtain ⟨-, huuid⟩ := hdoes (by simp [Call.names])
        obtain ⟨fd, creating, rest, rfl, -, hrest⟩ := runs_call_iff.1 hrest
        cases fd with
        | none => exact absurd hok (not_ok_of_error rfl hrest)
        | some fd =>
            have hcreated := runs_publish (ordinary_temporary huuid) hname hok hrest
            refine hcreated.mono ?_
            exact ⟨event.moments ++ creating.moments, [], by simp [moments]⟩

end

/-! ## The whole request -/

/-- The operations that a share has. -/
def operations : List String := ["list", "read", "stat", "write", "mkdir"]

/-- What success of a request means: the operation, a relative path, and the node that its
components lead to. -/
structure Confined (provider : FileProvider) (share : FileShare) (op path : String)
    (events : List Event) (reply : JsonObject) : Prop where
  operation : op ∈ operations
  relative : relative provider path = true
  plain : ∀ part ∈ components path, plain provider part = true
  acted : ∃ parts onlyDirectory node before opening after,
    components path = parts ++ (if op = "write" ∨ op = "mkdir" then [lastSection path] else []) ∧
      events = before ++ opening ++ after ∧
      Opened provider share onlyDirectory parts opening node ∧
      Acted provider node path (moments after) op reply

/-- A request with success opened the node that its path names. -/
theorem runs_handle {request reply : JsonObject}
    (h : Runs (share.handle provider request) events reply)
    (hok : reply.value "ok" = .bool true) :
    Confined provider share (request.value "op").toString (request.value "path").toString events
      reply := by
  unfold handle at h
  dsimp only at h
  split at h
  · exact absurd hok (not_ok_of_error rfl h)
  obtain ⟨before, rest, absolute, rfl, hresolve, hrest⟩ := runs_bind_iff.1 h
  split at hrest
  · exact absurd hok (not_ok_of_error rfl hrest)
  next habsolute =>
  -- Only a path that is relative gets past `resolve`.
  have hrelative := runs_resolve hresolve habsolute
  generalize (request.value "path").toString = path at hrelative hrest
  generalize (request.value "op").toString = op at hrest
  have hplain : ∀ part ∈ components path, plain provider part = true :=
    fun part hpart => plain_of_relative hrelative hpart
  split at hrest
  · next hlist =>
      obtain ⟨node, opening, after, rfl, hopened, hacted⟩ := runs_list hrelative hok hrest
      subst hlist
      exact ⟨by simp [operations], hrelative, hplain, _, _, node, before, opening, after, by simp,
        by simp, hopened, hacted⟩
  split at hrest
  · next hread =>
      obtain ⟨node, opening, after, rfl, hopened, hacted⟩ := runs_read hrelative hok hread hrest
      refine ⟨?_, hrelative, hplain, _, _, node, before, opening, after, ?_, by simp, hopened,
        hacted⟩
      · rcases hread with rfl | rfl <;> simp [operations]
      · rcases hread with rfl | rfl <;> simp
  split at hrest
  · next hcreate =>
      obtain ⟨node, opening, after, hne, rfl, hopened, hacted⟩ :=
        runs_create hrelative hok hcreate hrest
      refine ⟨?_, hrelative, hplain, _, _, node, before, opening, after, ?_, by simp, hopened,
        hacted⟩
      · rcases hcreate with rfl | rfl <;> simp [operations]
      · rw [if_pos hcreate]
        exact components_eq hrelative hne
  · exact absurd hok (not_ok_of_error rfl hrest)

/-- The constructor recorded the directory that the root path led to, when it could. -/
def Recorded (provider : FileProvider) (share : FileShare) (history : List FileSystem) : Prop :=
  share.root = "" ∨ share.device = 0 ∧ share.inode = 0 ∨ ∃ fs ∈ history,
    fs.absolute (provider.encodeName share.root) = some ⟨share.device, share.inode⟩

theorem runs_construct {root : String} {guarded : Bool}
    (h : Runs (construct provider root guarded) events share) :
    Recorded provider share (moments events) := by
  obtain ⟨info, event, rest, rfl, -, hrest⟩ := runs_call_iff.1 h
  split at hrest
  · split at hrest
    · obtain ⟨-, rfl⟩ := runs_done_iff.1 hrest
      exact .inl rfl
    obtain ⟨stat, second, rest, rfl, ⟨-, htook⟩, hrest⟩ := runs_call_iff.1 hrest
    cases stat with
    | none =>
        obtain ⟨-, rfl⟩ := runs_done_iff.1 hrest
        exact .inr (.inl ⟨rfl, rfl⟩)
    | some stat =>
        obtain ⟨fs, hfs, _, -, hdoes⟩ := mem_of_took htook
        obtain ⟨-, hanswer⟩ := hdoes (by simp [Call.names])
        obtain ⟨id, habsolute, hstat⟩ := hanswer stat rfl
        obtain ⟨node, -, rfl⟩ := Option.map_eq_some_iff.1 hstat
        obtain ⟨-, rfl⟩ := runs_done_iff.1 hrest
        refine .inr (.inr ⟨fs, ?_, habsolute⟩)
        exact mem_moments_cons.2 (.inr (mem_moments_cons.2 (.inl hfs)))
  · obtain ⟨-, rfl⟩ := runs_done_iff.1 hrest
    exact .inl rfl

/-- **A request that succeeds is confined to the root**: it acted on the node that the
components of its path lead to from the directory that the constructor recorded, and while
the root path leads to another directory no request succeeds. -/
theorem handle_confined (provider : FileProvider) {root : String} {guarded : Bool}
    {share : FileShare} {building events : List Event} {request reply : JsonObject}
    (hshare : Runs (construct provider root guarded) building share)
    (h : Runs (share.handle provider request) events reply) :
    Recorded provider share (moments building) ∧
      (reply.value "ok" = .bool true → Confined provider share (request.value "op").toString
        (request.value "path").toString events reply) ∧
      ((∀ fs ∈ moments events,
          fs.absolute (provider.encodeName share.root) ≠ some ⟨share.device, share.inode⟩) →
        reply.value "ok" ≠ .bool true) := by
  refine ⟨runs_construct hshare, runs_handle h, fun hreplaced hok => ?_⟩
  obtain ⟨parts, onlyDirectory, node, before, opening, after, -, rfl, hopened, -⟩ :=
    (runs_handle h hok).acted
  obtain ⟨first, second, rest, rfl, ⟨fs, hfs, habsolute⟩, -⟩ := hopened.way
  exact hreplaced fs (by simp [moments, hfs]) habsolute

/-- A root with a directory and a link, and a file in the directory. -/
def sampleTree : FileSystem where
  nodes := Table.ofList [
    (⟨1, 1⟩,
      { body := .directory (Table.ofList [(latin1Bytes "d", ⟨1, 2⟩), (latin1Bytes "l", ⟨1, 3⟩)]) }),
    (⟨1, 2⟩, { body := .directory (Table.ofList [(latin1Bytes "f", ⟨1, 4⟩)]) }),
    (⟨1, 3⟩, { body := .link }),
    (⟨1, 4⟩, { body := .regular [1, 2, 3] })]
  absolute path := if path = latin1Bytes "/" then some ⟨1, 1⟩ else none

def sampleEvent (call : Call) : Event := ⟨call, sampleTree.answer call, [sampleTree, sampleTree]⟩

/-- The share of this root is asked about the file. -/
def sampleProgram : Prog JsonObject :=
  handle .sample ⟨"/", 1, 1, false⟩ ⟨[("op", .string "stat"), ("path", .string "d/f")]⟩

theorem handle_confined_sample : Confined .sample ⟨"/", 1, 1, false⟩ "stat" "d/f"
    (sampleProgram.trace sampleTree.answer sampleEvent) (sampleProgram.run sampleTree.answer) := by
  have hmakes : ∀ call, Makes call (sampleTree.answer call) (sampleEvent call) :=
    fun call => ⟨rfl, sampleTree.took_answer call⟩
  have hshare := runs_run hmakes (construct .sample "/" false)
  have hroot : (construct .sample "/" false).run sampleTree.answer = ⟨"/", 1, 1, false⟩ := by rfl
  rw [hroot] at hshare
  have hok : (sampleProgram.run sampleTree.answer).value "ok" = .bool true := by rfl
  exact (handle_confined .sample hshare (runs_run hmakes sampleProgram)).2.1 hok

end FileShare

end ServerHost
