import ServerHost.Storage.Server

/-!
# Secrets and the exported root

`inside` compares texts: it appends a separator to the root and looks for the result at
the start of a path.  For clean paths that is a comparison of their components, except
that the root of the file system has no component and already ends in a separator.  So
everything is below it, and `inside` finds nothing there but the root itself.
-/

namespace ServerHost

namespace Storage

/-- The components of a path. -/
def components (path : String) : List (List Char) := Words.words '/' path.toList

/-- The path is the root, or lies below it in the directory tree. -/
def Under (root path : String) : Prop :=
  path = root ∨ ∃ part rest, components path = components root ++ part :: rest

/-- The files that must not be exported: the runtime directory, the configuration and the
private key when they are set, and the script of a server that runs one. -/
def secrets (o : FileServerOptions) (backend : StorageBridgeOptions) : List String :=
  let command := (serverSpec o.protocol).command
  [backend.runtimeDirectory] ++ (if backend.configFile ≠ "" then [backend.configFile] else []) ++
    (if o.privateKey ≠ "" then [o.privateKey] else []) ++
    (if command = "ftps" ∨ command = "ftpes" then [backend.ftpServerScript] else [])

variable {platform : Platform} {disk : Disk} {o : FileServerOptions}
  {backend : StorageBridgeOptions}
variable {path root : String}

/-! ## Clean paths -/

theorem cleanPart_proper {parts : List (List Char)} {part : List Char}
    (hparts : Words.Proper '/' parts) (hpart : part ≠ [] ∧ '/' ∉ part) :
    Words.Proper '/' (cleanPart parts part) := by
  have hpush : Words.Proper '/' (part :: parts) := by
    intro word hword
    rcases List.mem_cons.1 hword with rfl | hold
    · exact hpart
    · exact hparts word hold
  unfold cleanPart
  split
  · exact hparts
  split
  · exact hpush
  cases parts with
  | nil => exact hpush
  | cons last rest =>
      dsimp only
      split
      · exact hpush
      · exact hparts.tail

/-- An absolute path is clean when it spells components. -/
theorem cleanPath_absolute (h : isAbsolutePath path = true) : ∃ parts, Words.Proper '/' parts ∧
    (cleanPath path).toList = Words.spell '/' parts := by
  have hne : path ≠ "" := by
    rintro rfl
    cases h
  have hproper : Words.Proper '/' ((Words.words '/' path.toList).foldl cleanPart []) := by
    refine (Words.words '/' path.toList).foldlRecOn cleanPart (motive := Words.Proper '/')
      (fun word hword => absurd hword List.not_mem_nil) ?_
    exact fun parts hparts part hpart => cleanPart_proper hparts (Words.words_proper _ part hpart)
  refine ⟨((Words.words '/' path.toList).foldl cleanPart []).reverse,
    fun word hword => hproper word (List.mem_reverse.1 hword), ?_⟩
  rw [cleanPath, if_neg hne, if_pos h, String.toList_ofList]

/-- **What `inside` decides.**  Of two absolute paths it finds that one lies under the
other, unless the other is the root of the file system. -/
theorem inside_iff (hpath : isAbsolutePath path = true) (hroot : isAbsolutePath root = true) :
    inside path (cleanPath root) = true ↔ cleanPath path = cleanPath root ∨
      (cleanPath root ≠ "/" ∧ Under (cleanPath root) (cleanPath path)) := by
  obtain ⟨parts, hparts, htext⟩ := cleanPath_absolute hpath
  obtain ⟨own, hown, hrootText⟩ := cleanPath_absolute hroot
  have hcomponents : components (cleanPath path) = parts := by
    rw [components, htext, Words.words_spell hparts]
  have hrootComponents : components (cleanPath root) = own := by
    rw [components, hrootText, Words.words_spell hown]
  have hslash : cleanPath root ≠ "/" ↔ own ≠ [] := by
    refine not_congr ?_
    have hnil : Words.Proper '/' ([] : List (List Char)) := fun word hword =>
      absurd hword List.not_mem_nil
    rw [← String.toList_inj, hrootText]
    exact Words.spell_inj hnil hown
  have hstarts : startsWith (cleanPath path) (cleanPath root ++ "/") = true ↔
      own ≠ [] ∧ ∃ part rest, parts = own ++ part :: rest := by
    rw [startsWith, List.isPrefixOf_iff_prefix, String.toList_append, htext, hrootText]
    exact Words.spell_append_prefix_iff hown hparts
  rw [inside, Bool.or_eq_true, decide_eq_true_eq, hstarts, Under, hcomponents, hrootComponents,
    hslash]
  by_cases heq : cleanPath path = cleanPath root
  · simp [heq]
  · simp [heq]

/-- Everything lies under the root of the file system. -/
theorem under_slash (hpath : isAbsolutePath path = true) : Under "/" (cleanPath path) := by
  obtain ⟨parts, hparts, htext⟩ := cleanPath_absolute hpath
  cases parts with
  | nil => exact .inl (String.toList_inj.1 htext)
  | cons part rest =>
      refine .inr ⟨part, rest, ?_⟩
      rw [components, htext, Words.words_spell hparts]
      rfl

theorem absoluteFilePath_absolute (disk : Disk) (hne : path ≠ "") :
    isAbsolutePath (disk.absoluteFilePath path) = true := by
  unfold Disk.absoluteFilePath
  split
  · next h => exact h
  · have hcurrent := disk.absolute
    rw [isAbsolutePath, startsWith, List.isPrefixOf_iff_prefix] at hcurrent ⊢
    rw [String.toList_append, String.toList_append, List.append_assoc]
    exact hcurrent.trans (List.prefix_append ..)

/-! ## What is accepted -/

/-- What the checks of an accepted server say about its secrets. -/
structure Guarded (disk : Disk) (o : FileServerOptions) (backend : StorageBridgeOptions) :
    Prop where
  runtime : isAbsolutePath backend.runtimeDirectory = true
  config : backend.configFile ≠ "" → isAbsolutePath backend.configFile = true
  canonical : (disk.info o.root).canonicalFilePath = cleanPath o.root
  outside : inside backend.runtimeDirectory (cleanPath o.root) = false ∧
    (backend.configFile ≠ "" → inside backend.configFile (cleanPath o.root) = false) ∧
    (o.privateKey ≠ "" → inside o.privateKey (cleanPath o.root) = false)
  script : (serverSpec o.protocol).command = "ftps" ∨ (serverSpec o.protocol).command = "ftpes" →
    isAbsolutePath backend.ftpServerScript = true ∧
      inside backend.ftpServerScript (cleanPath o.root) = false

theorem privatePath_absolute {directory : Bool} (h : privatePath disk path directory = true) :
    isAbsolutePath path = true := by
  simp only [privatePath, Bool.and_eq_true] at h
  exact h.1.1.1.1.1

theorem validateServer_guarded (h : validateServer platform disk o backend = "")
    (hlocal : remoteLocation o.root = false) : Guarded disk o backend := by
  unfold validateServer at h
  dsimp only at h
  -- The checks of the source in their order; each one passed, since the text is empty.
  by_cases hbackend : validateBackend disk backend
      (¬ ((serverSpec o.protocol).command = "ftps" ∨
        (serverSpec o.protocol).command = "ftpes")) = ""
  swap
  · rw [if_pos hbackend] at h
    exact absurd h hbackend
  rw [if_neg (not_not.2 hbackend)] at h
  by_cases hlocation : validateLocation o.root backend = ""
  swap
  · rw [if_pos hlocation] at h
    exact absurd h hlocation
  rw [if_neg (not_not.2 hlocation)] at h
  obtain ⟨hroot, h⟩ := accepted_ite (by decide) h
  obtain ⟨hsecret, h⟩ := accepted_ite (by decide) h
  -- Eleven checks say nothing about where the secrets lie.
  iterate 11 replace h := (accepted_ite (by decide) h).2
  obtain ⟨hpython, h⟩ := accepted_ite (by decide) h
  obtain ⟨-, h⟩ := accepted_ite (by decide) h
  obtain ⟨hscript, -⟩ := accepted_ite (by decide) h
  unfold validateBackend at hbackend
  obtain ⟨-, hbackend⟩ := accepted_ite (by decide) hbackend
  obtain ⟨hruntime, hbackend⟩ := accepted_ite (by decide) hbackend
  obtain ⟨hconfig, -⟩ := accepted_ite (by decide) hbackend
  simp only [hlocal, Bool.false_eq_true, not_false_eq_true, true_and] at hroot hsecret
  push Not at hroot hruntime hconfig hsecret hpython hscript
  rw [hroot.2.2] at hsecret hscript
  refine ⟨privatePath_absolute hruntime, fun hset => privatePath_absolute (hconfig hset),
    hroot.2.2, ?_, fun hcommand => ?_⟩
  · refine ⟨by simpa using hsecret.1, fun hset => ?_, fun hset => ?_⟩
    · simpa using hsecret.2.1 hset
    · simpa using hsecret.2.2 hset
  · have habsolute : isAbsolutePath backend.ftpServerScript = true := by
      have hfile := (hpython hcommand).2.2
      rw [absoluteFile, Bool.and_eq_true] at hfile
      exact hfile.1
    refine ⟨habsolute, ?_⟩
    have houtside := hscript hcommand
    rw [Disk.absoluteFilePath, if_pos habsolute] at houtside
    simpa using houtside

/-- **Secrets and the exported root.**  For an accepted server of a local root, no secret lies
under the root exactly when the root is not that of the file system, and a private key that
is given as a relative path, which only a server without TLS accepts, is found outside by
`inside` when it is made absolute. -/
theorem validateServer_secrets_iff (h : validateServer platform disk o backend = "")
    (hlocal : remoteLocation o.root = false) :
    (∀ path ∈ secrets o backend,
      ¬ Under (disk.info o.root).canonicalFilePath (cleanPath (disk.absoluteFilePath path))) ↔
    (disk.info o.root).canonicalFilePath ≠ "/" ∧
      (o.privateKey ≠ "" → isAbsolutePath o.privateKey = false →
        inside (disk.absoluteFilePath o.privateKey)
          (disk.info o.root).canonicalFilePath = false) := by
  have hguarded := validateServer_guarded h hlocal
  have hroot : isAbsolutePath o.root = true := by
    have hboth := Bool.or_eq_false_iff.1 hlocal
    simpa using hboth.2
  rw [hguarded.canonical]
  have hkept : ∀ {path : String}, isAbsolutePath path = true → disk.absoluteFilePath path = path :=
    fun habsolute => if_pos habsolute
  constructor
  · intro hnone
    refine ⟨fun hslash => ?_, fun hset _ => ?_⟩
    · -- The runtime directory lies under everything.
      refine hnone backend.runtimeDirectory (by simp [secrets]) ?_
      rw [hslash, hkept hguarded.runtime]
      exact under_slash hguarded.runtime
    · have hkey := hnone o.privateKey (by simp [secrets, hset])
      rw [← Bool.not_eq_true, inside_iff (absoluteFilePath_absolute disk hset) hroot]
      rintro (heq | ⟨-, hunder⟩)
      · exact hkey (.inl heq)
      · exact hkey hunder
  · rintro ⟨hslash, hkey⟩ path hpath hunder
    -- Below another root than `/`, `inside` finds what lies under it.
    have houtside : isAbsolutePath path = true →
        inside path (cleanPath o.root) = false → False := by
      intro habsolute hinside
      rw [hkept habsolute] at hunder
      have hfound := (inside_iff habsolute hroot).2 (.inr ⟨hslash, hunder⟩)
      rw [hinside] at hfound
      cases hfound
    rw [secrets, List.mem_append, List.mem_append, List.mem_append] at hpath
    rcases hpath with ((hpath | hpath) | hpath) | hpath
    -- The runtime directory, the configuration, the key and the script, in turn.
    · obtain rfl := List.mem_singleton.1 hpath
      exact houtside hguarded.runtime hguarded.outside.1
    · split at hpath
      · next hset =>
          obtain rfl := List.mem_singleton.1 hpath
          exact houtside (hguarded.config hset) (hguarded.outside.2.1 hset)
      · exact absurd hpath List.not_mem_nil
    · split at hpath
      · next hset =>
          obtain rfl := List.mem_singleton.1 hpath
          cases habsolute : isAbsolutePath o.privateKey with
          | true => exact houtside habsolute (hguarded.outside.2.2 hset)
          | false =>
              have hfound := (inside_iff (absoluteFilePath_absolute disk hset) hroot).2
                (.inr ⟨hslash, hunder⟩)
              rw [hkey hset habsolute] at hfound
              cases hfound
      · exact absurd hpath List.not_mem_nil
    · split at hpath
      · next hcommand =>
          obtain rfl := List.mem_singleton.1 hpath
          exact houtside (hguarded.script hcommand).1 (hguarded.script hcommand).2
      · exact absurd hpath List.not_mem_nil

/-- A WebDAV server on the loopback interface. -/
def served (root : String) : FileServerOptions :=
  { protocol := .webDav, root := root, port := 80, username := "u", password := [1] }

/-- With a directory of its own, the server is accepted and exports no secret. -/
theorem validateServer_secrets_served :
    validateServer .sample .sample (served "/srv") { runtimeDirectory := "/run" } = "" ∧
      ∀ path ∈ secrets (served "/srv") { runtimeDirectory := "/run" },
        ¬ Under (Disk.sample.info "/srv").canonicalFilePath
          (cleanPath (Disk.sample.absoluteFilePath path)) := by
  have haccepted : validateServer .sample .sample (served "/srv") { runtimeDirectory := "/run" } =
      "" := by decide +kernel
  exact ⟨haccepted,
    (validateServer_secrets_iff haccepted (by decide)).2 ⟨by decide, fun hset => absurd rfl hset⟩⟩

/-- A server that exports the root of the file system is accepted, with its runtime
directory inside. -/
theorem under_served : ∃ o backend, validateServer .sample .sample o backend = "" ∧
    remoteLocation o.root = false ∧ ∃ path ∈ secrets o backend,
      Under (Disk.sample.info o.root).canonicalFilePath
        (cleanPath (Disk.sample.absoluteFilePath path)) := by
  refine ⟨served "/", { runtimeDirectory := "/run" }, by decide +kernel, by decide, "/run",
    by decide, ?_⟩
  have hrun : isAbsolutePath "/run" = true := by decide
  exact under_slash hrun

end Storage

end ServerHost
