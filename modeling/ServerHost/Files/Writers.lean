import Mathlib.Algebra.Order.BigOperators.Group.List
import Mathlib.Algebra.Order.Ring.Nat
import ServerHost.Files.Writing
import ServerHost.Library.Machine

/-!
# Concurrent writers

Any number of `write` requests run at the same time, each at any point of its
program or stopped there for good, and every call may fail.  An entry that a
listing can show appears whole, with the data of the request, or not at all.

`obeys_handle` reduces the programs to phases.  A writer owns the temporary entry
it has created and the entry it has published; no two own the same entry
(`Ledger`), and what a writer knows of the file system survives every call of the
others (`Knows.stable`).

The system has only these writers.  A node that is gone does not lend its inode
number to a later one.
-/

namespace ServerHost

open Files Program

namespace FileShare

/-! ## What a writer owns and knows -/

/-- A listing does not show this name. -/
def Hidden (name : Name) : Prop := temporaryPrefix <+: name

variable (order : Order)

/-- The entries that a writer has made. -/
def Phase.Owns : Phase → NodeId → Name → Prop
  | .holding directory temporary _ _, place, name => place = directory ∧ name = temporary
  | .published directory temporary _, place, name =>
      place = directory ∧ (name = temporary ∨ name = order.name)
  | .finished (some directory), place, name => place = directory ∧ name = order.name
  | _, _, _ => False

/-- The directory has the file of the order, with its data. -/
def Stored (fs : FileSystem) (directory : NodeId) : Prop :=
  ∃ node data, order.data = .ok data ∧ fs.entry directory order.name = some node ∧
    fs.content node = some data

/-- The content of the file that is being written. -/
structure Holding (fs : FileSystem) (directory : NodeId) (temporary : Name) (node : NodeId)
    (content : Bytes) : Prop where
  walk : fs.walk order.root order.parents = some directory
  hidden : Hidden temporary
  entry : fs.entry directory temporary = some node
  content : fs.content node = some content
  only : ∀ place name, fs.entry place name = some node → place = directory ∧ name = temporary

/-- What holds of the file system in each phase. -/
def Knows (fs : FileSystem) : Phase → Prop
  | .seeking names node => fs.walk order.root names = some node
  | .holding directory temporary node content => Holding order fs directory temporary node content
  | .published directory temporary node => fs.walk order.root order.parents = some directory ∧
      Hidden temporary ∧ temporary ≠ order.name ∧ fs.entry directory temporary = some node ∧
      (fs.content node).isSome ∧ Stored order fs directory
  | .finished (some directory) => fs.walk order.root order.parents = some directory ∧
      Stored order fs directory
  | .finished none => True

/-- The writer changes this file. -/
def Phase.Changes : Phase → NodeId → Prop
  | .holding _ _ node _, id => id = node
  | _, _ => False

/-- What a call of one writer does to the others. -/
structure Spares (phase phase' : Phase) (fs fs' : FileSystem) : Prop where
  entries : ∀ place name id, fs.entry place name = some id → ¬ phase.Owns order place name →
    fs'.entry place name = some id
  contents : ∀ id content, fs.content id = some content → ¬ phase.Changes id →
    fs'.content id = some content
  directories : ∀ id, fs.kind id = some .directory → fs'.kind id = some .directory
  fresh : ∀ place name id, fs'.entry place name = some id → fs.entry place name = some id ∨
    fs.content id = none ∨ phase.Changes id
  claims : ∀ place name, phase'.Owns order place name → phase.Owns order place name ∨
    fs.entry place name = none

/-! ## One call of a writer -/

/-- What a writer did to the file system by a call, phase by phase. -/
inductive Act (fs : FileSystem) : Phase → Phase → FileSystem → Prop
  | rest (phase : Phase) : Act fs phase phase fs
  | enter {names : List Name} {node next : NodeId} {name : Name} :
      fs.entry node name = some next → fs.kind next = some .directory →
      Act fs (.seeking names node) (.seeking (names ++ [name]) next) fs
  | create {directory node : NodeId} {temporary : Name} : (fs.entries directory).isSome →
      fs.entry directory temporary = none → fs.Free node → Hidden temporary →
      Act fs (.seeking order.parents directory) (.holding directory temporary node [])
        ((fs.create node (.regular [])).add directory temporary node)
  | append {directory node : NodeId} {temporary : Name} {content : Bytes} (bytes : Bytes) :
      Act fs (.holding directory temporary node content)
        (.holding directory temporary node (content ++ bytes)) (fs.append node bytes)
  | link {directory node source : NodeId} {temporary : Name} {content : Bytes} :
      order.data = .ok content → fs.entry directory temporary = some source →
      fs.entry directory order.name = none →
      Act fs (.holding directory temporary node content) (.published directory temporary node)
        (fs.add directory order.name source)
  | discard {directory node : NodeId} {temporary : Name} {content : Bytes} (removed : Bool) :
      Act fs (.holding directory temporary node content) (.finished none)
        (if removed then fs.remove directory temporary else fs)
  | settle {directory node : NodeId} {temporary : Name} (removed : Bool) :
      Act fs (.published directory temporary node) (.finished (some directory))
        (if removed then fs.remove directory temporary else fs)

variable {order} {fs fs' : FileSystem} {phase phase' : Phase}

theorem does_neutral {call : Call} {answer : call.Answer} (h : neutral call = true)
    (hdoes : Does fs call answer fs') : fs' = fs := by
  cases call with
  | info _ | guard | fsync _ | enqueue _ => exact hdoes (by simp [Call.names])
  | uuid | openRoot _ | fstat _ => exact (hdoes (by simp [Call.names])).1
  | _ => cases h

/-- A call that the protocol allows is one of these acts. -/
theorem act_of_does {call : Call} {answer : call.Answer} (hallowed : allows order phase call)
    (hdoes : Does fs call answer fs') : Act order fs phase (advance phase call answer) fs' := by
  -- Calls that only look leave the phase and the files alone.
  by_cases hneutral : neutral call = true
  · rw [advance_neutral hneutral, does_neutral hneutral hdoes]
    exact .rest phase
  cases phase with
  | seeking names node =>
      cases call with
      | openAt directory name onlyDirectory =>
          obtain ⟨rfl, rfl, hname⟩ := hallowed
          obtain ⟨rfl, hanswer⟩ := hdoes (by simpa [Call.names] using hname)
          cases answer with
          | none => exact .rest _
          | some next =>
              obtain ⟨hentry, kind, hkind, -, hdirectory⟩ := hanswer next rfl
              exact .enter hentry (hkind.trans (congrArg some (hdirectory rfl)))
      -- The hidden name is new, so nothing is overwritten.
      | createAt directory temporary =>
          obtain ⟨rfl, rfl, hname, hhidden⟩ := hallowed
          have heffect := hdoes (by simpa [Call.names] using hname)
          cases answer with
          | none =>
              obtain rfl : fs' = fs := heffect
              exact .rest _
          | some node =>
              obtain ⟨hentries, habsent, hfree, rfl⟩ := heffect
              exact .create hentries habsent hfree hhidden
      | _ => first | exact hallowed.elim | exact absurd rfl hneutral
  | holding directory temporary node content =>
      cases call with
      | write target bytes =>
          obtain rfl : target = node := hallowed
          obtain ⟨-, rfl⟩ := hdoes (by simp [Call.names])
          simp only [advance]
          split
          · exact .append _
          · exact .rest _
      -- This is the call that publishes: it fails when the name is taken.
      | linkAt target source name =>
          obtain ⟨rfl, rfl, rfl, hsource, hname, hdata⟩ := hallowed
          have heffect := hdoes (by simp [Call.names, hsource, hname])
          cases answer with
          | false =>
              obtain rfl : fs' = fs := by simpa [Effect] using heffect
              exact .rest _
          | true =>
              simp only [Effect, if_true] at heffect
              obtain ⟨id, hentry, habsent, rfl⟩ := heffect
              exact .link hdata hentry habsent
      | unlinkAt target name =>
          obtain ⟨rfl, rfl, hname⟩ := hallowed
          have heffect := hdoes (by simpa [Call.names] using hname)
          obtain rfl : fs' = if answer then fs.remove target name else fs := by
            cases answer <;> simpa [Effect] using heffect
          exact .discard answer
      | _ => first | exact hallowed.elim | exact absurd rfl hneutral
  | published directory temporary node =>
      cases call with
      | unlinkAt target name =>
          obtain ⟨rfl, rfl, hname⟩ := hallowed
          have heffect := hdoes (by simpa [Call.names] using hname)
          obtain rfl : fs' = if answer then fs.remove target name else fs := by
            cases answer <;> simpa [Effect] using heffect
          exact .settle answer
      | _ => first | exact hallowed.elim | exact absurd rfl hneutral
  | finished directory =>
      cases call with
      | _ => first | exact hallowed.elim | exact absurd rfl hneutral

/-! ## What an act leaves -/

theorem Spares.refl (hclaims : ∀ place name, phase'.Owns order place name →
    phase.Owns order place name) : Spares order phase phase' fs fs where
  entries _ _ _ h _ := h
  contents _ _ h _ := h
  directories _ h := h
  fresh _ _ _ h := .inl h
  claims place name h := .inl (hclaims place name h)

theorem spares_remove {directory : NodeId} {temporary : Name}
    (howns : phase.Owns order directory temporary) (removed : Bool)
    (hclaims : ∀ place name, phase'.Owns order place name → phase.Owns order place name) :
    Spares order phase phase' fs (if removed then fs.remove directory temporary else fs) := by
  cases removed with
  | false => exact .refl hclaims
  | true =>
      refine ⟨fun place name id hentry hnot => ?_, fun id content hcontent _ => ?_,
        fun id hkind => FileSystem.kind_remove _ _ hkind, fun place name id hentry => .inl ?_,
        fun place name h => .inl (hclaims place name h)⟩
      · rw [if_pos rfl, FileSystem.entry_remove, if_neg ?_]
        · exact hentry
        · rintro ⟨rfl, rfl⟩
          exact hnot howns
      · rwa [if_pos rfl, FileSystem.content_remove]
      · rw [if_pos rfl, FileSystem.entry_remove] at hentry
        split at hentry
        · cases hentry
        · exact hentry

theorem spares_create {directory node : NodeId} {temporary : Name}
    (hentries : (fs.entries directory).isSome) (habsent : fs.entry directory temporary = none)
    (hfree : fs.Free node) : Spares order (.seeking order.parents directory)
      (.holding directory temporary node []) fs
      ((fs.create node (.regular [])).add directory temporary node) := by
  have hentry : ∀ place name, ((fs.create node (.regular [])).add directory temporary node).entry
      place name = if place = directory ∧ name = temporary then some node
        else fs.entry place name := by
    intro place name
    rw [FileSystem.entry_add, FileSystem.entry_create_of_not_mem _ _ _ _ rfl hfree.1]
    rwa [FileSystem.entries_create_of_not_mem _ _ _ rfl hfree.1]
  refine ⟨fun place name id hold _ => ?_, fun id content hcontent _ => ?_, fun id hkind => ?_,
    fun place name id hnew => ?_, fun place name howns => .inr ?_⟩
  · rw [hentry, if_neg ?_]
    · exact hold
    · rintro ⟨rfl, rfl⟩
      simp [habsent] at hold
  · rw [FileSystem.content_add, FileSystem.content_create, if_neg ?_]
    · exact hcontent
    · rintro rfl
      simp [FileSystem.content_of_not_mem hfree.1] at hcontent
  · exact FileSystem.kind_add _ _ (FileSystem.kind_create rfl hfree.1 hkind)
  · rw [hentry] at hnew
    split at hnew
    · obtain rfl := Option.some.inj hnew
      exact .inr (.inl (FileSystem.content_of_not_mem hfree.1))
    · exact .inl hnew
  · obtain ⟨rfl, rfl⟩ := howns
    exact habsent

theorem spares_append {directory node : NodeId} {temporary : Name} {content : Bytes}
    (bytes : Bytes) : Spares order (.holding directory temporary node content)
      (.holding directory temporary node (content ++ bytes)) fs (fs.append node bytes) where
  entries place name id hentry _ := by rwa [FileSystem.entry_append]
  contents id old hold hnot := by
    have hne : id ≠ node := hnot
    rwa [FileSystem.content_append, if_neg hne]
  directories id hkind := FileSystem.kind_append hkind
  fresh place name id hnew := by
    rw [FileSystem.entry_append] at hnew
    exact .inl hnew
  claims place name howns := .inl howns

theorem spares_link {directory node : NodeId} {temporary : Name} {content : Bytes}
    (hentry : fs.entry directory temporary = some node)
    (habsent : fs.entry directory order.name = none) :
    Spares order (.holding directory temporary node content) (.published directory temporary node)
      fs (fs.add directory order.name node) := by
  have hadd : ∀ place name, (fs.add directory order.name node).entry place name =
      if place = directory ∧ name = order.name then some node else fs.entry place name :=
    fun place name => FileSystem.entry_add _ _ _ _ _ _ (fs.isSome_entries_of_entry _ _ hentry)
  refine ⟨fun place name id hold _ => ?_, fun id old hold _ => ?_,
    fun id hkind => FileSystem.kind_add _ _ hkind, fun place name id hnew => ?_,
    fun place name howns => ?_⟩
  · rw [hadd, if_neg ?_]
    · exact hold
    · rintro ⟨rfl, rfl⟩
      simp [habsent] at hold
  · rwa [FileSystem.content_add]
  · rw [hadd] at hnew
    split at hnew
    · obtain rfl := Option.some.inj hnew
      exact .inr (.inr rfl)
    · exact .inl hnew
  · obtain ⟨rfl, rfl | rfl⟩ := howns
    · exact .inl ⟨rfl, rfl⟩
    · exact .inr habsent

/-- Whatever a writer does, the others keep what they have. -/
theorem Act.spares (hact : Act order fs phase phase' fs') (hknows : Knows order fs phase) :
    Spares order phase phase' fs fs' := by
  cases hact with
  | rest => exact .refl fun _ _ h => h
  | enter => exact .refl fun _ _ h => h
  | create hentries habsent hfree => exact spares_create hentries habsent hfree
  | append bytes => exact spares_append bytes
  | link _ hentry habsent =>
      obtain rfl := Option.some.inj (hknows.entry.symm.trans hentry)
      exact spares_link hentry habsent
  | discard removed =>
      refine spares_remove ?_ removed ?_
      · exact ⟨rfl, rfl⟩
      · exact fun _ _ h => h.elim
  | settle removed =>
      refine spares_remove ?_ removed ?_
      · exact ⟨rfl, .inl rfl⟩
      · exact fun _ _ h => ⟨h.1, .inr h.2⟩

/-- What a writer owns are regular files. -/
theorem Knows.owned {place : NodeId} {name : Name} (hknows : Knows order fs phase)
    (howns : phase.Owns order place name) :
    ∃ node content, fs.entry place name = some node ∧ fs.content node = some content := by
  cases phase with
  | seeking names node => exact howns.elim
  | holding directory temporary node content =>
      obtain ⟨rfl, rfl⟩ := howns
      exact ⟨node, content, hknows.entry, hknows.content⟩
  | published directory temporary node =>
      obtain ⟨-, -, -, hentry, hcontent, stored, data, -, hstored, hdata⟩ := hknows
      obtain ⟨rfl, rfl | rfl⟩ := howns
      · obtain ⟨content, hcontent⟩ := Option.isSome_iff_exists.1 hcontent
        exact ⟨node, content, hentry, hcontent⟩
      · exact ⟨stored, data, hstored, hdata⟩
  | finished directory =>
      cases directory with
      | none => exact howns.elim
      | some directory =>
          obtain ⟨-, node, data, -, hentry, hcontent⟩ := hknows
          obtain ⟨rfl, rfl⟩ := howns
          exact ⟨node, data, hentry, hcontent⟩

/-- The way to a directory stays. -/
theorem Spares.walk {root node : NodeId} {names : List Name}
    (hspares : Spares order phase phase' fs fs') (hknows : Knows order fs phase)
    (h : fs.walk root names = some node) : fs'.walk root names = some node := by
  refine FileSystem.walk_mono (fun place name id hentry hkind => ?_) h
  refine ⟨hspares.entries place name id hentry fun howns => ?_, hspares.directories id hkind⟩
  obtain ⟨file, content, hfile, hcontent⟩ := hknows.owned howns
  obtain rfl := Option.some.inj (hfile.symm.trans hentry)
  rw [FileSystem.kind_directory_iff, FileSystem.entries_none_of_content hcontent] at hkind
  cases hkind

/-- A writer knows the new file system after its own act. -/
theorem Act.knows (hact : Act order fs phase phase' fs') (hknows : Knows order fs phase) :
    Knows order fs' phase' := by
  have hspares := hact.spares hknows
  cases hact with
  | rest => exact hknows
  | enter hentry hkind => exact FileSystem.walk_append hknows hentry hkind
  | @create directory node temporary hentries habsent hfree hhidden =>
      -- The new file is empty, and named by the temporary entry only.
      have hdirectory : ((fs.create node (.regular [])).entries directory).isSome := by
        rwa [FileSystem.entries_create_of_not_mem _ _ _ rfl hfree.1]
      refine ⟨hspares.walk hknows hknows, hhidden, ?_, ?_, fun place name hentry => ?_⟩
      · exact FileSystem.entry_add_self _ _ _ _ hdirectory
      · rw [FileSystem.content_add, FileSystem.content_create, if_pos rfl]
        rfl
      · rw [FileSystem.entry_add _ _ _ _ _ _ hdirectory,
          FileSystem.entry_create_of_not_mem _ _ _ _ rfl hfree.1] at hentry
        split at hentry
        · assumption
        · exact absurd hentry (hfree.2 place name)
  | @append directory node temporary content bytes =>
      refine ⟨hspares.walk hknows hknows.walk, hknows.hidden, ?_, ?_, fun place name hentry => ?_⟩
      · rw [FileSystem.entry_append]
        exact hknows.entry
      · rw [FileSystem.content_append, if_pos rfl, hknows.content, Option.map_some]
      · rw [FileSystem.entry_append] at hentry
        exact hknows.only place name hentry
  | @link directory node source temporary content hdata hentry habsent =>
      -- The name now stands for the node that holds the whole content.
      obtain rfl := Option.some.inj (hknows.entry.symm.trans hentry)
      have hne : temporary ≠ order.name := by
        rintro rfl
        simp [hentry] at habsent
      have hdirectory := fs.isSome_entries_of_entry _ _ hentry
      have hcontent : (fs.add directory order.name node).content node = some content := by
        rw [FileSystem.content_add]
        exact hknows.content
      refine ⟨hspares.walk hknows hknows.walk, hknows.hidden, hne, ?_, by simp [hcontent], node,
        content, hdata, FileSystem.entry_add_self _ _ _ _ hdirectory, hcontent⟩
      rw [FileSystem.entry_add _ _ _ _ _ _ hdirectory, if_neg fun h => hne h.2]
      exact hentry
  | discard removed => trivial
  | @settle directory node temporary removed =>
      -- Taking the temporary name away leaves the published one.
      obtain ⟨hwalk, -, hne, -, -, stored, data, hdata, hentry, hcontent⟩ := id hknows
      refine ⟨hspares.walk hknows hwalk, stored, data, hdata, ?_, ?_⟩
      · cases removed with
        | false => exact hentry
        | true =>
            rw [if_pos rfl, FileSystem.entry_remove, if_neg fun h => hne h.2.symm]
            exact hentry
      · exact hspares.contents _ _ hcontent fun h => h

/-! ## Others -/

variable {other : Order} {phase₂ : Phase}

/-- A writer changes the file of its own entry only. -/
theorem Knows.owns_of_changes {place node : NodeId} {name : Name} (hknows : Knows order fs phase)
    (hchanges : phase.Changes node) (hentry : fs.entry place name = some node) :
    phase.Owns order place name := by
  cases phase with
  | holding directory temporary file content =>
      obtain rfl : node = file := hchanges
      exact hknows.only place name hentry
  | _ => exact hchanges.elim

/-- An entry that a writer does not own stays, with its content. -/
theorem Act.keeps {place node : NodeId} {name : Name} {content : Bytes}
    (hact : Act order fs phase phase' fs') (hknows : Knows order fs phase)
    (hnot : ¬ phase.Owns order place name) (hentry : fs.entry place name = some node)
    (hcontent : fs.content node = some content) :
    fs'.entry place name = some node ∧ fs'.content node = some content :=
  ⟨(hact.spares hknows).entries place name node hentry hnot,
    (hact.spares hknows).contents node content hcontent fun hchanges =>
      hnot (hknows.owns_of_changes hchanges hentry)⟩

/-- What a writer knows survives an act of another one, when they own different entries. -/
theorem Knows.stable (hknows : Knows other fs phase₂) (hact : Act order fs phase phase' fs')
    (hown : Knows order fs phase)
    (hdisjoint : ∀ place name, phase₂.Owns other place name → ¬ phase.Owns order place name) :
    Knows other fs' phase₂ := by
  have hspares := hact.spares hown
  have hstored : ∀ directory, Stored other fs directory →
      ¬ phase.Owns order directory other.name → Stored other fs' directory := by
    rintro directory ⟨node, data, hdata, hentry, hcontent⟩ hnot
    obtain ⟨hentry', hcontent'⟩ := hact.keeps hown hnot hentry hcontent
    exact ⟨node, data, hdata, hentry', hcontent'⟩
  cases phase₂ with
  -- Another writer moves nothing on the way to the directory.
  | seeking names node => exact hspares.walk hown hknows
  | holding directory temporary node content =>
      -- The temporary file is this writer's own, and no name is added to it.
      have hnot := hdisjoint directory temporary ⟨rfl, rfl⟩
      obtain ⟨hentry, hcontent⟩ := hact.keeps hown hnot hknows.entry hknows.content
      refine ⟨hspares.walk hown hknows.walk, hknows.hidden, hentry, hcontent,
        fun place name hnew => ?_⟩
      rcases hspares.fresh place name node hnew with hold | hnone | hchanges
      · exact hknows.only place name hold
      · simp [hknows.content] at hnone
      · exact absurd (hown.owns_of_changes hchanges hknows.entry) hnot
  | published directory temporary node =>
      obtain ⟨hwalk, hhidden, hne, hentry, hcontent, hdata⟩ := hknows
      obtain ⟨content, hcontent⟩ := Option.isSome_iff_exists.1 hcontent
      obtain ⟨hentry', hcontent'⟩ :=
        hact.keeps hown (hdisjoint directory temporary ⟨rfl, .inl rfl⟩) hentry hcontent
      exact ⟨hspares.walk hown hwalk, hhidden, hne, hentry', by simp [hcontent'],
        hstored directory hdata (hdisjoint directory other.name ⟨rfl, .inr rfl⟩)⟩
  | finished directory =>
      cases directory with
      | none => trivial
      | some directory =>
          obtain ⟨hwalk, hdata⟩ := hknows
          exact ⟨hspares.walk hown hwalk,
            hstored directory hdata (hdisjoint directory other.name ⟨rfl, rfl⟩)⟩

/-! ## What a listing shows -/

/-- Entries that a listing can show stay, and their files keep their content. -/
def Unaltered (fs fs' : FileSystem) : Prop :=
  ∀ place name node, ¬ Hidden name → fs.entry place name = some node →
    fs'.entry place name = some node ∧
      ∀ content, fs.content node = some content → fs'.content node = some content

/-- Nothing appears and nothing disappears in a listing. -/
def Unseen (fs fs' : FileSystem) : Prop :=
  ∀ place name, ¬ Hidden name → fs'.entry place name = fs.entry place name

/-- The one new entry is that of the order, with all its data. -/
def Appears (order : Order) (fs fs' : FileSystem) : Prop :=
  ∃ directory, fs.walk order.root order.parents = some directory ∧
    fs.entry directory order.name = none ∧ Stored order fs' directory ∧
    ∀ place name, ¬ (place = directory ∧ name = order.name) →
      fs'.entry place name = fs.entry place name

/-- Whether the file has got its own name. -/
def Phase.isPublished : Phase → Bool
  | .published .. => true
  | .finished directory => directory.isSome
  | _ => false

/-- A temporary entry is hidden. -/
theorem Knows.visible {place : NodeId} {name : Name} (hknows : Knows order fs phase)
    (howns : phase.Owns order place name) (hname : ¬ Hidden name) :
    phase.isPublished = true ∧ name = order.name := by
  cases phase with
  | seeking names node => exact howns.elim
  | holding directory temporary node content =>
      obtain ⟨-, rfl⟩ := howns
      exact absurd hknows.hidden hname
  | published directory temporary node =>
      obtain ⟨-, rfl | rfl⟩ := howns
      · exact absurd hknows.2.1 hname
      · exact ⟨rfl, rfl⟩
  | finished directory =>
      cases directory with
      | none => exact howns.elim
      | some directory => exact ⟨rfl, howns.2⟩

theorem Act.unaltered (hact : Act order fs phase phase' fs') (hknows : Knows order fs phase) :
    Unaltered fs fs' := by
  intro place name node hname hentry
  by_cases howns : phase.Owns order place name
  · obtain ⟨hpublished, rfl⟩ := hknows.visible howns hname
    cases hact with
    | rest => exact ⟨hentry, fun _ h => h⟩
    | @settle directory temporary node removed =>
        cases removed with
        | false => exact ⟨hentry, fun _ h => h⟩
        | true =>
            refine ⟨?_, fun content hcontent => by rwa [if_pos rfl, FileSystem.content_remove]⟩
            rw [if_pos rfl, FileSystem.entry_remove, if_neg fun h => hknows.2.2.1 h.2.symm]
            exact hentry
    | _ => cases hpublished
  · exact ⟨(hact.spares hknows).entries _ _ _ hentry howns, fun content hcontent =>
      (hact.keeps hknows howns hentry hcontent).2⟩

/-- The only act that a listing can show is the one that publishes. -/
theorem Act.shown (hact : Act order fs phase phase' fs') (hknows : Knows order fs phase) :
    phase'.isPublished = phase.isPublished ∧ Unseen fs fs' ∨
      phase.isPublished = false ∧ phase'.isPublished = true ∧ Appears order fs fs' := by
  have hremove : ∀ (directory : NodeId) (temporary : Name) (removed : Bool), Hidden temporary →
      Unseen fs (if removed then fs.remove directory temporary else fs) := by
    intro directory temporary removed hhidden place name hname
    cases removed with
    | false => rfl
    | true =>
        rw [if_pos rfl, FileSystem.entry_remove, if_neg]
        rintro ⟨-, rfl⟩
        exact hname hhidden
  have hafter := hact.knows hknows
  cases hact with
  | rest => exact .inl ⟨rfl, fun _ _ _ => rfl⟩
  | enter => exact .inl ⟨rfl, fun _ _ _ => rfl⟩
  | @create directory node temporary hentries habsent hfree hhidden =>
      refine .inl ⟨rfl, fun place name hname => ?_⟩
      rw [FileSystem.entry_add, FileSystem.entry_create_of_not_mem _ _ _ _ rfl hfree.1, if_neg]
      · rintro ⟨-, rfl⟩
        exact hname hhidden
      · rwa [FileSystem.entries_create_of_not_mem _ _ _ rfl hfree.1]
  | append bytes => exact .inl ⟨rfl, fun _ _ _ => FileSystem.entry_append _ _ _ _ _⟩
  | link hdata hentry habsent =>
      refine .inr ⟨rfl, rfl, _, hknows.walk, habsent, hafter.2.2.2.2.2, fun place name hnot => ?_⟩
      rw [FileSystem.entry_add _ _ _ _ _ _ (fs.isSome_entries_of_entry _ _ hentry), if_neg hnot]
  | discard removed => exact .inl ⟨rfl, hremove _ _ removed hknows.hidden⟩
  | settle removed => exact .inl ⟨rfl, hremove _ _ removed hknows.2.1⟩

/-! ## Many writers -/

/-- A file system with the writers that use it; each has the rest of its program. -/
structure Writers (ι : Type*) where
  fs : FileSystem
  program : ι → Prog JsonObject

variable {ι : Type*} [DecidableEq ι]

/-- One writer makes its next call. -/
def Writers.Step (before : Writers ι) (i : ι) (after : Writers ι) : Prop :=
  ∃ call next answer, before.program i = .call call next ∧ Does before.fs call answer after.fs ∧
    after.program = Function.update before.program i (next answer)

/-- All requests start from the same file system; each input is the next call of a writer. -/
def writers (provider : FileProvider) (share : ι → FileShare) (request : ι → JsonObject)
    (start : FileSystem) : Machine (Writers ι) (ι × Writers ι) where
  init state := state = ⟨start, fun i => (share i).handle provider (request i)⟩
  next _ input := input.2

/-- The invariant: every writer is in a phase that it keeps to, what it owns is there and its
own, and it has shown nothing before it published. -/
structure Ledger (orders : ι → Order) (start : FileSystem) (phases : ι → Phase)
    (trace : List (Writers ι × ι × Writers ι)) (state : Writers ι) : Prop where
  obeys : ∀ i, Obeys (writing (orders i)) Final (phases i) (state.program i)
  knows : ∀ i, Knows (orders i) state.fs (phases i)
  disjoint : ∀ i j, i ≠ j → ∀ place name, (phases i).Owns (orders i) place name →
    ¬ (phases j).Owns (orders j) place name
  kept : ∀ place name node, start.entry place name = some node →
    state.fs.entry place name = some node
  new : ∀ i place name, (phases i).Owns (orders i) place name → start.entry place name = none
  steps : ∀ before i after, (before, i, after) ∈ trace → Unaltered before.fs after.fs ∧
    (Unseen before.fs after.fs ∨ Appears (orders i) before.fs after.fs)
  unseen : ∀ i, (phases i).isPublished = false → ∀ before after, (before, i, after) ∈ trace →
    Unseen before.fs after.fs

variable {orders : ι → Order} {start : FileSystem} {phases : ι → Phase}
  {trace : List (Writers ι × ι × Writers ι)} {state after : Writers ι}

theorem Ledger.step {i : ι} (h : Ledger orders start phases trace state)
    (hstep : state.Step i after) :
    ∃ phases', Ledger orders start phases' ((state, i, after) :: trace) after := by
  obtain ⟨call, next, answer, hprogram, hdoes, hafter⟩ := hstep
  have hobeys := h.obeys i
  rw [hprogram] at hobeys
  obtain ⟨hallowed, hnext⟩ := hobeys
  have hact := act_of_does hallowed hdoes
  have hknows := h.knows i
  have hspares := hact.spares hknows
  -- A new entry was free, so nobody has it yet.
  have hfresh : ∀ j, i ≠ j → ∀ place name,
      (advance (phases i) call answer).Owns (orders i) place name →
      ¬ (phases j).Owns (orders j) place name := by
    intro j hne place name howns hother
    rcases hspares.claims place name howns with hold | hnone
    · exact h.disjoint i j hne place name hold hother
    · obtain ⟨node, content, hentry, -⟩ := (h.knows j).owned hother
      simp [hnone] at hentry
  refine ⟨Function.update phases i (advance (phases i) call answer), ?_, ?_, ?_, ?_, ?_, ?_, ?_⟩
  · intro j
    by_cases hj : j = i
    · subst hj
      rw [hafter, Function.update_self, Function.update_self]
      exact hnext answer ⟨_, _, hdoes⟩
    · simpa [hafter, hj] using h.obeys j
  · intro j
    by_cases hj : j = i
    · subst hj
      simpa using hact.knows hknows
    · simpa [hj] using (h.knows j).stable hact hknows (h.disjoint j i hj)
  · intro j k hne place name
    by_cases hj : j = i
    · subst hj
      simpa [hne.symm] using hfresh k hne place name
    · by_cases hk : k = i
      · subst hk
        simpa [hj] using fun howns hother => hfresh j hne.symm place name hother howns
      · simpa [hj, hk] using h.disjoint j k hne place name
  · intro place name node hentry
    refine hspares.entries place name node (h.kept place name node hentry) fun howns => ?_
    simp [h.new i place name howns] at hentry
  · intro j place name howns
    by_cases hj : j = i
    · subst hj
      rw [Function.update_self] at howns
      rcases hspares.claims place name howns with hold | hnone
      · exact h.new j place name hold
      · cases hstart : start.entry place name with
        | none => rfl
        | some node => simp [h.kept place name node hstart] at hnone
    · rw [Function.update_of_ne hj] at howns
      exact h.new j place name howns
  · intro before j later hmem
    rcases List.mem_cons.1 hmem with hnew | hold
    · obtain ⟨rfl, rfl, rfl⟩ : before = state ∧ j = i ∧ later = after := by simpa using hnew
      refine ⟨hact.unaltered hknows, ?_⟩
      exact (hact.shown hknows).imp And.right fun hshown => hshown.2.2
    · exact h.steps before j later hold
  · intro j hpublished before later hmem
    rcases List.mem_cons.1 hmem with hnew | hold
    · obtain ⟨rfl, rfl, rfl⟩ : before = state ∧ j = i ∧ later = after := by simpa using hnew
      rw [Function.update_self] at hpublished
      rcases hact.shown hknows with ⟨-, hunseen⟩ | ⟨-, hshown, -⟩
      · exact hunseen
      · simp [hpublished] at hshown
    · refine h.unseen j ?_ before later hold
      by_cases hj : j = i
      · subst hj
        rw [Function.update_self] at hpublished
        rcases hact.shown hknows with ⟨hsame, -⟩ | ⟨hnone, -, -⟩
        · rw [← hsame, hpublished]
        · exact hnone
      · rwa [Function.update_of_ne hj] at hpublished

variable {provider : FileProvider} {share : ι → FileShare} {request : ι → JsonObject}

/-- The invariant holds along every run. -/
theorem run_ledger (hop : ∀ i, ((request i).value "op").toString = "write")
    (run : (writers provider share request start).Run
      (fun before input => before.Step input.1 input.2) trace state) :
    ∃ phases, Ledger (fun i => orderOf provider (share i) (request i)) start phases trace
      state := by
  induction run with
  | start hinit =>
      subst hinit
      refine ⟨fun i => .seeking [] ⟨(share i).device, (share i).inode⟩,
        fun i => obeys_handle (hop i),
        fun i => rfl, fun _ _ _ _ _ h => h.elim, fun _ _ _ h => h, fun _ _ _ h => h.elim, ?_, ?_⟩
      · simp
      · simp
  | @step trace before input run hstep ih =>
      obtain ⟨phases, hledger⟩ := ih
      exact hledger.step hstep

theorem Final.finished {reply : JsonObject} (h : Final phase reply)
    (hok : reply.value "ok" = .bool true) : ∃ directory, phase = .finished (some directory) := by
  cases phase with
  | seeking names node => simp [Final, hok] at h
  | finished directory =>
      obtain ⟨directory, rfl⟩ : ∃ found, directory = some found := by
        simpa [Final, hok, Option.isSome_iff_exists] using h.symm
      exact ⟨directory, rfl⟩
  | _ => exact h.elim

/-- What concurrent `write` requests guarantee. -/
structure Atomic (provider : FileProvider) (share : ι → FileShare) (request : ι → JsonObject)
    (start : FileSystem) (trace : List (Writers ι × ι × Writers ι)) (state : Writers ι) : Prop where
  /-- No call alters what a listing can show, but for one new entry with all its data. -/
  steps : ∀ before i after, (before, i, after) ∈ trace → Unaltered before.fs after.fs ∧
    (Unseen before.fs after.fs ∨
      Appears (orderOf provider (share i) (request i)) before.fs after.fs)
  /-- After success the name, which was free, has the data. -/
  ok : ∀ i reply, state.program i = .done reply → reply.value "ok" = .bool true →
    ∃ directory, state.fs.walk (orderOf provider (share i) (request i)).root
        (orderOf provider (share i) (request i)).parents = some directory ∧
      start.entry directory (orderOf provider (share i) (request i)).name = none ∧
      Stored (orderOf provider (share i) (request i)) state.fs directory
  /-- After an error no call of the request has shown anything. -/
  error : ∀ i reply, state.program i = .done reply → reply.value "ok" ≠ .bool true →
    ∀ before after, (before, i, after) ∈ trace → Unseen before.fs after.fs
  /-- Of the requests for one path at most one succeeds. -/
  once : ∀ i j first second, i ≠ j → share i = share j →
    ((request i).value "path").toString = ((request j).value "path").toString →
    state.program i = .done first → state.program j = .done second →
    first.value "ok" = .bool true → second.value "ok" ≠ .bool true

/-- The inode numbers that a file system mentions. -/
def numbersInUse (fs : FileSystem) : List ℕ :=
  fs.nodes.keys.map NodeId.inode ++ fs.nodes.entries.flatMap fun node =>
    ((node.2.body.entries.getD ∅).entries.map fun entry => entry.2.inode)

/-- A number that is not in use. -/
def freshNode (fs : FileSystem) : NodeId := ⟨1, (numbersInUse fs).sum + 1⟩

theorem free_freshNode (fs : FileSystem) : fs.Free (freshNode fs) := by
  have hnot : (freshNode fs).inode ∉ numbersInUse fs := fun hmem =>
    absurd (List.single_le_sum (fun n _ => Nat.zero_le n) _ hmem) (Nat.not_succ_le_self _)
  refine ⟨fun hmem => hnot ?_, fun directory name hentry => hnot ?_⟩
  · exact List.mem_append_left _ (List.mem_map_of_mem (AList.mem_keys.1 hmem))
  · obtain ⟨table, htable, hlookup⟩ := Option.bind_eq_some_iff.1 hentry
    obtain ⟨node, hnode, hbody⟩ := FileSystem.lookup_of_entries htable
    refine List.mem_append_right _
      (List.mem_flatMap.2 ⟨⟨directory, node⟩, AList.mem_lookup_iff.1 hnode, ?_⟩)
    refine List.mem_map.2 ⟨⟨name, freshNode fs⟩, ?_, rfl⟩
    simpa [hbody, Body.entries] using AList.mem_lookup_iff.1 hlookup

/-- A kernel on which every call succeeds that can. -/
def perform (fs : FileSystem) : (call : Call) → call.Answer × FileSystem
  | .createAt directory name =>
      if (fs.entries directory).isSome ∧ fs.entry directory name = none then
        (some (freshNode fs),
          (fs.create (freshNode fs) (.regular [])).add directory name (freshNode fs))
      else (none, fs)
  | .write node bytes => (bytes.length, if bytes = [] then fs else fs.append node bytes)
  | .fsync _ => (true, fs)
  | .linkAt directory source target => match fs.entry directory source with
      | some id => if fs.entry directory target = none then (true, fs.add directory target id)
          else (false, fs)
      | none => (false, fs)
  | .unlinkAt directory name => (true, fs.remove directory name)
  | .pread .. => (none, fs)
  | other => (fs.answer other, fs)

theorem does_perform (fs : FileSystem) (call : Call) :
    Does fs call (perform fs call).1 (perform fs call).2 := by
  cases call with
  | createAt directory name =>
      intro _
      simp only [perform]
      split
      · next hfree => exact ⟨hfree.1, hfree.2, free_freshNode fs, rfl⟩
      · exact rfl
  | write node bytes =>
      refine fun _ => ⟨le_refl _, ?_⟩
      cases bytes with
      | nil => simp [perform]
      | cons byte rest =>
          have hcount : (perform fs (.write node (byte :: rest))).1 = ((byte :: rest).length : ℤ) :=
            rfl
          rw [hcount, if_pos (by simp), Int.toNat_natCast, List.take_length]
          rfl
  | fsync node => exact fun _ => rfl
  | linkAt directory source target =>
      intro _
      simp only [perform]
      split
      · next id hentry =>
          split
          · next hfree => exact ⟨id, hentry, hfree, rfl⟩
          · exact rfl
      · exact rfl
  | unlinkAt directory name => exact fun _ => rfl
  | pread node size offset => exact fun _ => ⟨rfl, fun _ h => by cases h⟩
  | _ => exact fs.does_answer _ (by simp)

/-- The writers after these turns. -/
def turn {ι : Type*} [DecidableEq ι] (state : Writers ι) (i : ι) : Writers ι :=
  match state.program i with
  | .done _ => state
  | .call made next => ⟨(perform state.fs made).2,
      Function.update state.program i (next (perform state.fs made).1)⟩

theorem run_turns {trace : List (Writers ι × ι × Writers ι)} {state : Writers ι}
    (run : (writers provider share request start).Run
      (fun before input => before.Step input.1 input.2) trace state) (turns : List ι) :
    ∃ trace, (writers provider share request start).Run
      (fun before input => before.Step input.1 input.2) trace (turns.foldl turn state) := by
  induction turns generalizing trace state with
  | nil => exact ⟨trace, run⟩
  | cons i rest ih =>
      rw [List.foldl_cons]
      unfold turn
      split
      · exact ih run
      · next made next hprogram =>
          let after : Writers ι := ⟨(perform state.fs made).2,
            Function.update state.program i (next (perform state.fs made).1)⟩
          have hstep : state.Step i after :=
            ⟨made, next, _, hprogram, does_perform _ made, rfl⟩
          have hrun : (writers provider share request start).Run
              (fun before input => before.Step input.1 input.2)
                ((state, i, after) :: trace) after :=
            .step run hstep
          exact ih hrun

/-- Whether a request has ended, with its success. -/
def outcome : Prog JsonObject → Option Bool
  | .done reply => some (reply.value "ok").toBool
  | .call .. => none

/-- Two requests for one path, with other data. -/
def sampleRequests (second : Bool) : JsonObject :=
  ⟨[("op", .string "write"), ("path", .string "d/n"),
    ("data", .string (if second then "BAUG" else "AQID"))]⟩

/-- The first stops while it has a temporary file, and goes on after the second has ended. -/
def sampleTurns : List Bool :=
  List.replicate 10 false ++ List.replicate 20 true ++ List.replicate 10 false

end FileShare

end ServerHost
