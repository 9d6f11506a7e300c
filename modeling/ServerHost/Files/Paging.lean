import ServerHost.Files.Share

/-!
# Directory paging

A client lists a directory page by page: it starts without a cursor and passes
each cursor it gets to the next call.  While the directory does not change, every
call of the system gets the same answer each time, so the calls are answered by
one function.

## Strategy

What a client is to see of a scan is `Presents`, a relation between the names and items
that does not mention the checks of the source.  `relative_iff` and `shareable_eq_some`
show that the checks decide it, `run_listNames` that the loop of `list` fills a page from
an offset on, and `follows_from` is the induction over the pages that are left.
-/

namespace ServerHost

open Files Program

/-! ## Following the cursors -/

/-- The client reads these pages when it follows the cursors from here on. -/
inductive Follows (reply : Option String → JsonObject) : Option String → List (List Json) → Prop
  | last {cursor : Option String} {entries : List Json} :
      (reply cursor).value "ok" = .bool true → (reply cursor).value "entries" = .array entries →
      (reply cursor).value "nextCursor" = .string "" → Follows reply cursor [entries]
  | more {cursor : Option String} {entries : List Json} {next : String} {pages : List (List Json)} :
      (reply cursor).value "ok" = .bool true → (reply cursor).value "entries" = .array entries →
      (reply cursor).value "nextCursor" = .string next → next ≠ "" →
      Follows reply (some next) pages → Follows reply cursor (entries :: pages)

/-- There is one way to follow the cursors. -/
theorem Follows.unique {reply : Option String → JsonObject} {cursor : Option String}
    {pages others : List (List Json)} (h : Follows reply cursor pages)
    (h' : Follows reply cursor others) : others = pages := by
  induction h generalizing others with
  | last hok hentries hend =>
      cases h' with
      | last _ hentries' _ =>
          rw [hentries] at hentries'
          rw [Json.array.inj hentries']
      | more _ _ hnext hne _ =>
          rw [hend] at hnext
          exact absurd (Json.string.inj hnext).symm hne
  | more hok hentries hnext hne _ ih =>
      cases h' with
      | last _ _ hend =>
          rw [hnext] at hend
          exact absurd (Json.string.inj hend) hne
      | more _ hentries' hnext' _ hrest =>
          rw [hentries] at hentries'
          rw [hnext] at hnext'
          obtain rfl := Json.string.inj hnext'
          rw [Json.array.inj hentries', ih hrest]

theorem number_ne_empty (value : ℤ) : number value ≠ "" := by
  intro h
  have hlist := congrArg String.toList h
  rw [number_toList] at hlist
  split at hlist
  · simp at hlist
  · exact Nat.toDigits_ne_nil hlist

/-- A page is the last one, or its cursor leads to the others. -/
theorem follows_iff {reply : Option String → JsonObject} {cursor : Option String} {offset : ℤ}
    {entries : List Json} {more : Bool} {pages : List (List Json)}
    (h : reply cursor = FileShare.pageReply offset entries more) :
    Follows reply cursor pages ↔ (more = false ∧ pages = [entries]) ∨
      (more = true ∧ ∃ rest, pages = entries :: rest ∧
        Follows reply (some (number (offset + entries.length))) rest) := by
  have hok : (reply cursor).value "ok" = .bool true := by rw [h]; rfl
  have hentries : (reply cursor).value "entries" = .array entries := by rw [h]; rfl
  have hnext : (reply cursor).value "nextCursor" =
      .string (if more then number (offset + entries.length) else "") := by rw [h]; rfl
  constructor
  · intro hfollows
    cases hfollows with
    | last _ hlisted hend =>
        rw [hentries] at hlisted
        rw [hnext] at hend
        cases more with
        | false => exact .inl ⟨rfl, by rw [Json.array.inj hlisted]⟩
        -- A page with more after it ends with a number, which is no empty text.
        | true => exact absurd (Json.string.inj hend) (number_ne_empty _)
    | more _ hlisted hcursor hne hrest =>
        rw [hentries] at hlisted
        rw [hnext] at hcursor
        cases more with
        | false => exact absurd (Json.string.inj hcursor).symm hne
        | true =>
            obtain rfl := Json.string.inj hcursor
            exact .inr ⟨rfl, _, by rw [Json.array.inj hlisted], hrest⟩
  · rintro (⟨rfl, rfl⟩ | ⟨rfl, rest, rfl, hrest⟩)
    · exact .last hok hentries hnext
    · exact .more hok hentries hnext (number_ne_empty _) hrest

/-- A request for the page at a cursor. -/
def listRequest (path : String) (cursor : Option String) : JsonObject :=
  ⟨[("op", .string "list"), ("path", .string path)] ++
    (cursor.map fun cursor => ("cursor", .string cursor)).toList⟩

theorem listRequest_op (path : String) (cursor : Option String) :
    (listRequest path cursor).value "op" = .string "list" := rfl

theorem listRequest_path (path : String) (cursor : Option String) :
    (listRequest path cursor).value "path" = .string path := rfl

/-- The cursor a request carries, as the server reads it. -/
theorem numberOf_listRequest (path : String) (cursor : Option String) :
    FileShare.numberOf (listRequest path cursor) "cursor" =
      match cursor with
      | none => some 0
      | some cursor => longLong cursor := by
  cases cursor <;> rfl

namespace FileShare

/-! ## Items

The entries of a directory are shown as a sequence of items. -/

/-- What a client sees of an entry. -/
structure Item where
  name : String
  directory : Bool
  size : String
  version : String
deriving DecidableEq

/-- What a client reads in an element of `entries`. -/
def Item.read (entry : Json) : Option Item :=
  match entry.toObject.value "name", entry.toObject.value "directory",
    entry.toObject.value "size", entry.toObject.value "version" with
  | .string name, .bool directory, .string size, .string version =>
      some ⟨name, directory, size, version⟩
  | _, _, _, _ => none

/-- The element of `entries` for an item. -/
def Item.json (item : Item) : Json :=
  .object [("name", .string item.name), ("directory", .bool item.directory),
    ("size", .string item.size), ("version", .string item.version)]

@[simp] theorem Item.read_json (item : Item) : Item.read item.json = some item := rfl

/-- What is listed is read back. -/
theorem map_read (items : List Item) : (items.map Item.json).map Item.read = items.map some := by
  rw [List.map_map]
  exact List.map_congr_left fun item _ => Item.read_json item

/-- The items of a scan, in its order, each once; `holds` says which item is there under an
entry, and an entry without one is not shown. -/
inductive Presents {α : Type} (holds : α → Item → Prop) : List α → List Item → Prop
  | nil : Presents holds [] []
  | skip {entry : α} {entries : List α} {items : List Item} :
      (∀ item, ¬ holds entry item) → Presents holds entries items →
      Presents holds (entry :: entries) items
  | item {entry : α} {item : Item} {entries : List α} {items : List Item} :
      holds entry item → Presents holds entries items →
      Presents holds (entry :: entries) (item :: items)

section
variable {α : Type} {holds : α → Item → Prop} {shown : α → Option Json} {entries : List α}
  {items : List Item} (h : ∀ entry json, shown entry = some json ↔
    ∃ item, holds entry item ∧ json = item.json)
include h

/-- The items of a scan are what is shown. -/
theorem presents_iff : Presents holds entries items ↔
    entries.filterMap shown = items.map Item.json := by
  constructor
  -- Entry by entry, an entry is either shown as one item or not at all.
  · intro hpresents
    induction hpresents with
    | nil => rfl
    | @skip entry _ _ hnone _ ih =>
        have hskip : shown entry = none := by
          refine Option.eq_none_iff_forall_ne_some.2 fun json hjson => ?_
          obtain ⟨item, hholds, -⟩ := (h entry json).1 hjson
          exact hnone item hholds
        exact (List.filterMap_cons_none hskip).trans ih
    | @item entry item _ _ hholds _ ih =>
        rw [List.map_cons, ← ih]
        exact List.filterMap_cons_some ((h entry _).2 ⟨item, hholds, rfl⟩)
  · intro hlisted
    induction entries generalizing items with
    | nil =>
        obtain rfl := List.map_eq_nil_iff.1 hlisted.symm
        exact .nil
    | cons entry rest ih =>
        cases hshown : shown entry with
        | none =>
            refine .skip (fun item hholds => ?_) (ih ?_)
            · have hsome := (h entry _).2 ⟨item, hholds, rfl⟩
              rw [hshown] at hsome
              cases hsome
            · exact (List.filterMap_cons_none hshown).symm.trans hlisted
        | some json =>
            obtain ⟨item, hholds, rfl⟩ := (h entry json).1 hshown
            rw [List.filterMap_cons_some hshown] at hlisted
            cases items with
            | nil => cases hlisted
            | cons first others =>
                rw [List.map_cons, List.cons.injEq] at hlisted
                -- Two items with one JSON are one item.
                have hfirst := congrArg Item.read hlisted.1
                rw [Item.read_json, Item.read_json] at hfirst
                obtain rfl := Option.some.inj hfirst
                exact .item hholds (ih hlisted.2)

/-- Every scan has one sequence of items. -/
theorem exists_presents (entries : List α) : ∃ items,
    (∀ others, Presents holds entries others ↔ others = items) ∧
      entries.filterMap shown = items.map Item.json := by
  -- every entry that is shown holds an item, so the items are read off one by one
  have hall : ∃ items : List Item, entries.filterMap shown = items.map Item.json := by
    induction entries with
    | nil => exact ⟨[], rfl⟩
    | cons entry rest ih =>
        obtain ⟨items, hitems⟩ := ih
        cases hshown : shown entry with
        | none => exact ⟨items, (List.filterMap_cons_none hshown).trans hitems⟩
        | some json =>
            obtain ⟨item, -, rfl⟩ := (h entry json).1 hshown
            refine ⟨item :: items, ?_⟩
            rw [List.filterMap_cons_some hshown, hitems, List.map_cons]
  obtain ⟨items, hitems⟩ := hall
  refine ⟨items, fun others => ⟨fun hothers => ?_, ?_⟩, hitems⟩
  · -- both sequences are what is shown
    have hsame := congrArg (List.map Item.read) (((presents_iff h).1 hothers).symm.trans hitems)
    rw [map_read, map_read] at hsame
    exact List.map_injective_iff.2 (Option.some_injective _) hsame
  · rintro rfl
    exact (presents_iff h).2 hitems

end

variable (provider : FileProvider) (answer : (call : Call) → call.Answer)

/-! ## What a client is to see

A client is to see the regular files and the directories under names that it may use in a
path.  This is said here without the checks of the source. -/

/-- A word of a path: it names one entry, and is not kept for the server. -/
structure Word (word : String) : Prop where
  nonempty : word ≠ ""
  slash : '/' ∉ word.toList
  dots : word ≠ "." ∧ word ≠ ".."
  temporary : ¬ ".iiwebserver-".toList <+: word.toList
  control : provider.isControlFile word = false

/-- A text that a client may use: words behind each other, none of them with a character
that other systems give a meaning to. -/
structure Usable (text : String) : Prop where
  short : size text ≤ 4096
  chars : ∀ c ∈ text.toList, c ≠ '\\' ∧ c ≠ ':' ∧ c ≠ Char.ofNat 0
  words : ∃ words, text = String.intercalate "/" words ∧ ∀ word ∈ words, Word provider word

/-- The directory has this item under the name: a regular file or a directory, and no link. -/
structure Holds (fd : NodeId) (name : Name) (item : Item) : Prop where
  proper : name ≠ latin1Bytes "." ∧ name ≠ latin1Bytes ".."
  decoded : provider.decodeName name = some item.name
  usable : Usable provider item.name
  kind : ∃ stat, answer (.fstatAt fd name) = some stat ∧
    (stat.kind = .regular ∧ item.directory = false ∨
      stat.kind = .directory ∧ item.directory = true) ∧
    item.size = number stat.size ∧ item.version = version stat

/-! ## What the server lists -/

/-- The entry as it is listed, when it is shareable: its name is neither a dot nor
reserved nor invalid, and it is a regular file or a directory. -/
def shareable (fd : NodeId) (name : Name) : Option Json :=
  (shareableName provider name).bind fun text =>
    match answer (.fstatAt fd name) with
    | none => none
    | some stat => if shareableKind stat then some (entryJson text stat) else none

/-- The shareable entries of a scan. -/
def listing (fd : NodeId) (names : List Name) : List Json :=
  names.filterMap (shareable provider answer fd)

/-- The directory of the path can be opened, and its scan yields the names. -/
structure Scans (share : FileShare) (path : String) (fd : NodeId) (names : List Name) : Prop where
  resolved : (share.resolve provider path false).run answer ≠ ""
  opened : (share.confined provider path true).run answer = some fd
  scanned : answer (.readDirectory fd) = some names

variable {provider answer}

theorem plain_iff {word : String} (hslash : '/' ∉ word.toList) :
    plain provider word = true ↔ Word provider word := by
  simp only [plain, Bool.and_eq_true, decide_eq_true_eq, Bool.not_eq_true', startsWith]
  constructor
  · rintro ⟨⟨⟨⟨hne, hdot⟩, hdots⟩, htemporary⟩, hcontrol⟩
    refine ⟨hne, hslash, ⟨hdot, hdots⟩, fun hprefix => ?_, hcontrol⟩
    rw [List.isPrefixOf_iff_prefix.2 hprefix] at htemporary
    cases htemporary
  · rintro ⟨hne, -, ⟨hdot, hdots⟩, htemporary, hcontrol⟩
    refine ⟨⟨⟨⟨hne, hdot⟩, hdots⟩, ?_⟩, hcontrol⟩
    rw [← Bool.not_eq_true, List.isPrefixOf_iff_prefix]
    exact htemporary

/-- A text of words does not start with a slash, and is split into its words. -/
theorem split_intercalate {words : List String} (hne : words ≠ [])
    (hwords : ∀ word ∈ words, Word provider word) :
    ¬ startsWith (String.intercalate "/" words) "/" = true ∧
      split (String.intercalate "/" words) = words := by
  have htext : (String.intercalate "/" words).toList =
      ['/'].intercalate (words.map String.toList) := String.toList_intercalate
  have hslash : ∀ word ∈ words.map String.toList, '/' ∉ word := by
    intro word hword
    obtain ⟨own, hown, rfl⟩ := List.mem_map.1 hword
    exact (hwords own hown).slash
  constructor
  · rw [startsWith, htext]
    cases words with
    | nil => exact absurd rfl hne
    | cons word rest =>
        have hword := hwords word List.mem_cons_self
        -- The text starts with the first character of its first word.
        cases hchars : word.toList with
        | nil => exact absurd (String.toList_inj.1 hchars) hword.nonempty
        | cons c chars =>
            have hc : c ≠ '/' := by
              rintro rfl
              exact hword.slash (hchars ▸ List.mem_cons_self)
            cases rest with
            | nil => simpa [hchars] using hc.symm
            | cons next others => simpa [hchars, List.intercalate_cons_cons] using hc.symm
  · rw [split, htext, List.splitOn_intercalate '/' hslash (by simpa using hne), List.map_map]
    conv_rhs => rw [← List.map_id words]
    exact List.map_congr_left fun word _ => String.ofList_toList

/-- The checks of the source accept the texts that a client may use. -/
theorem relative_iff {text : String} : relative provider text = true ↔ Usable provider text := by
  unfold relative
  constructor
  · intro h
    split at h
    · cases h
    next hchecks =>
    push Not at hchecks
    obtain ⟨hshort, -, hbackslash, hcolon, hzero⟩ := hchecks
    refine ⟨hshort, fun c hc => ⟨?_, ?_, ?_⟩, ?_⟩
    · rintro rfl
      exact hbackslash hc
    · rintro rfl
      exact hcolon hc
    · rintro rfl
      exact hzero hc
    · rw [Bool.or_eq_true, decide_eq_true_eq] at h
      rcases h with rfl | hall
      · exact ⟨[], rfl, by simp⟩
      · refine ⟨split text, ?_, fun word hword => ?_⟩
        -- Splitting and joining at the slash are inverse to each other.
        · rw [← String.toList_inj, String.toList_intercalate, split, List.map_map]
          have hback : (String.toList ∘ String.ofList) = id := by
            funext chars
            exact String.toList_ofList
          rw [hback, List.map_id]
          exact (List.intercalate_splitOn '/').symm
        · obtain ⟨chars, hchars, rfl⟩ := List.mem_map.1 hword
          refine (plain_iff ?_).1 (List.all_eq_true.1 hall _ hword)
          rw [String.toList_ofList]
          exact (mem_of_mem_splitOn hchars).1
  · rintro ⟨hshort, hchars, words, rfl, hwords⟩
    -- The empty text is the root.
    by_cases hne : words = []
    · subst hne
      rw [if_neg]
      · rfl
      · decide
    · obtain ⟨hstart, hsplit⟩ := split_intercalate hne hwords
      have hnone : ∀ c, (c = '\\' ∨ c = ':' ∨ c = Char.ofNat 0) →
          c ∉ (String.intercalate "/" words).toList := by
        rintro c hc hmem
        obtain ⟨hbackslash, hcolon, hzero⟩ := hchars c hmem
        rcases hc with hc | hc | hc
        · exact hbackslash hc
        · exact hcolon hc
        · exact hzero hc
      rw [if_neg]
      · rw [hsplit, Bool.or_eq_true]
        exact .inr (List.all_eq_true.2 fun word hword =>
          (plain_iff (hwords word hword).slash).2 (hwords word hword))
      · push Not
        exact ⟨hshort, hstart, hnone _ (.inl rfl), hnone _ (.inr (.inl rfl)),
          hnone _ (.inr (.inr rfl))⟩

/-- What is listed is what the directory holds. -/
theorem shareable_eq_some (fd : NodeId) (name : Name) (json : Json) :
    shareable provider answer fd name = some json ↔
      ∃ item, Holds provider answer fd name item ∧ json = item.json := by
  constructor
  -- What the checks of the source let through is an item of the specification,
  · intro h
    obtain ⟨text, htext, h⟩ := Option.bind_eq_some_iff.1 h
    unfold shareableName at htext
    split at htext
    · cases htext
    next hdots =>
    obtain ⟨hdecoded, hrelative⟩ := Option.filter_eq_some_iff.1 htext
    cases hstat : answer (.fstatAt fd name) with
    | none => simp [hstat] at h
    | some stat =>
        rw [hstat] at h
        dsimp only at h
        split at h
        swap
        · cases h
        next hkind =>
        simp only [dots, List.mem_cons, List.not_mem_nil, or_false, not_or] at hdots
        refine ⟨⟨text, stat.kind = .directory, number stat.size, version stat⟩,
          ⟨⟨hdots.1, hdots.2⟩, hdecoded, relative_iff.1 hrelative, stat, hstat, ?_, rfl, rfl⟩,
          (Option.some.inj h).symm⟩
        simp only [shareableKind, Bool.or_eq_true, decide_eq_true_eq] at hkind
        rcases hkind with hregular | hdirectory
        · exact .inl ⟨hregular, by rw [hregular]; rfl⟩
        · exact .inr ⟨hdirectory, by rw [hdirectory]; rfl⟩
  -- and an item of the specification passes them.
  · rintro ⟨⟨text, directory, bytes, revision⟩, ⟨hproper, hdecoded, husable, stat, hstat, hkind,
      rfl, rfl⟩, rfl⟩
    have hname : shareableName provider name = some text := by
      unfold shareableName
      rw [if_neg, hdecoded, Option.filter_some, if_pos (relative_iff.2 husable)]
      simp only [dots, List.mem_cons, List.not_mem_nil, or_false, not_or]
      exact hproper
    rw [shareable, hname, Option.bind_some, hstat]
    rcases hkind with ⟨hregular, rfl⟩ | ⟨hdirectory, rfl⟩
    · simp [shareableKind, entryJson, Item.json, hregular]
    · simp [shareableKind, entryJson, Item.json, hdirectory]

/-- The loop of `list` fills the page with the shareable entries from the offset on. -/
theorem run_listNames (fd : NodeId) (offset : ℤ) (names : List Name) (index : ℤ)
    (entries : List Json) (hentries : entries.length ≤ 256)
    (hindex : entries = [] ∨ offset ≤ index) :
    (listNames provider fd offset index entries names).run answer =
      (entries ++ ((listing provider answer fd names).drop (offset - index).toNat).take
          (256 - entries.length),
        decide (256 - entries.length <
          ((listing provider answer fd names).drop (offset - index).toNat).length)) := by
  -- The induction is over the scan; index counts the shareable entries before `names`.
  induction names generalizing index entries with
  | nil => simp [listNames, listing]
  | cons name rest ih =>
      have hskip : shareable provider answer fd name = none →
          listing provider answer fd (name :: rest) = listing provider answer fd rest :=
        List.filterMap_cons_none
      simp only [listNames]
      cases hname : shareableName provider name with
      | none =>
          rw [hskip (by rw [shareable, hname, Option.bind_none])]
          exact ih index entries hentries hindex
      | some text =>
          simp only [run_call]
          cases hstat : answer (.fstatAt fd name) with
          | none =>
              rw [hskip (by simp [shareable, hname, hstat])]
              exact ih index entries hentries hindex
          | some stat =>
              dsimp only
              split
              · next hkind =>
                  rw [hskip (by simpa [shareable, hname, hstat] using hkind)]
                  exact ih index entries hentries hindex
              next hkind =>
              have hlisted : listing provider answer fd (name :: rest) =
                  entryJson text stat :: listing provider answer fd rest := by
                refine List.filterMap_cons_some ?_
                simpa [shareable, hname, hstat] using hkind
              rw [hlisted]
              split
              -- Before the offset nothing is collected yet, so one item less is to be dropped.
              · next hbefore =>
                  have hnone : entries = [] := hindex.resolve_right (by omega)
                  have hdrop : (offset - index).toNat = (offset - (index + 1)).toNat + 1 := by omega
                  rw [hdrop, List.drop_succ_cons]
                  exact ih (index + 1) entries hentries (.inl hnone)
              next hafter =>
              have hstart : (offset - index).toNat = 0 := by omega
              rw [hstart, List.drop_zero]
              split
              -- There is one item more than a page holds.
              · next hfull => simp [hfull]
              next hroom =>
              have hlength : (entries ++ [entryJson text stat]).length ≤ 256 := by
                simp only [List.length_append, List.length_singleton]
                omega
              have hnext : (offset - (index + 1)).toNat = 0 := by omega
              -- From here on the page takes what comes.
              rw [ih (index + 1) _ hlength (.inr (by omega)), hnext, List.drop_zero]
              obtain ⟨room, hspace⟩ : ∃ room, 256 - entries.length = room + 1 :=
                ⟨255 - entries.length, by omega⟩
              have hleft : 256 - (entries ++ [entryJson text stat]).length = room := by
                simp only [List.length_append, List.length_singleton]
                omega
              rw [hleft, hspace, List.take_succ_cons, List.append_assoc, List.singleton_append,
                List.length_cons]
              simp

variable {share : FileShare} {path : String} {fd : NodeId} {names : List Name}

/-- A request to list reaches the branch for `list`. -/
theorem handle_of_list {request : JsonObject} (hop : request.value "op" = .string "list")
    (hpath : request.value "path" = .string path) :
    share.handle provider request = (share.resolve provider path false).bind fun absolute =>
      if absolute = "" then .done (errorObject "invalid_or_unavailable_path")
      else share.list provider path request := by
  have hop' : (request.value "op").toString = "list" := by rw [hop]; rfl
  have hpath' : (request.value "path").toString = path := by rw [hpath]; rfl
  have hstring : (request.value "path").isString = true := by rw [hpath]; rfl
  rw [handle, hop', hpath']
  rw [if_neg (by simp [hstring]), decide_eq_false (by decide)]
  simp only [if_true]

/-- A call with a cursor in bounds answers with the page at that offset. -/
theorem run_handle_list (h : Scans provider answer share path fd names) {cursor : Option String}
    {offset : ℕ} (hcursor : numberOf (listRequest path cursor) "cursor" = some (offset : ℤ))
    (hbound : offset ≤ 1000000) :
    (share.handle provider (listRequest path cursor)).run answer =
      pageReply offset (((listing provider answer fd names).drop offset).take 256)
        (decide (256 < ((listing provider answer fd names).drop offset).length)) := by
  have hpage : (listNames provider fd offset 0 [] names).run answer =
      (((listing provider answer fd names).drop offset).take 256,
        decide (256 < ((listing provider answer fd names).drop offset).length)) := by
    rw [run_listNames fd offset names 0 [] (by simp) (.inl rfl)]
    simp
  have hrange : (some (offset : ℤ)).filter (fun offset => 0 ≤ offset ∧ offset ≤ 1000000) =
      some (offset : ℤ) := by
    rw [Option.filter_some, if_pos]
    simp only [decide_eq_true_eq]
    omega
  rw [handle_of_list (listRequest_op path cursor) (listRequest_path path cursor), run_bind,
    if_neg h.resolved, list, hcursor, hrange]
  simp only [run_bind, h.opened, run_call, h.scanned, hpage, run_done]

/-- From an offset on, the cursors lead through the rest of the listing. -/
theorem follows_from (h : Scans provider answer share path fd names)
    (hcount : (listing provider answer fd names).length ≤ 1000000) (cursor : Option String)
    (offset : ℕ) (hcursor : numberOf (listRequest path cursor) "cursor" = some (offset : ℤ))
    (hoffset : offset ≤ (listing provider answer fd names).length) :
    ∃ pages, Follows (fun cursor => (share.handle provider (listRequest path cursor)).run answer)
        cursor pages ∧ (∀ page ∈ pages, page.length ≤ 256) ∧
      pages.flatten = (listing provider answer fd names).drop offset := by
  have hreply := run_handle_list h hcursor (hoffset.trans hcount)
  -- Each page but the last shows 256 items, so what is left gets shorter.
  induction hleft : (listing provider answer fd names).length - offset using Nat.strong_induction_on
    generalizing cursor offset with
  | _ left ih =>
      set items := listing provider answer fd names with hitems
      by_cases hmore : 256 < (items.drop offset).length
      · have hlength : ((items.drop offset).take 256).length = 256 := by
          rw [List.length_take]
          omega
        have hnext : offset + 256 < items.length := by
          rw [List.length_drop] at hmore
          omega
        have hnumber : numberOf (listRequest path (some (number (offset + 256)))) "cursor" =
            some ((offset + 256 : ℕ) : ℤ) := by
          rw [numberOf_listRequest]
          dsimp only
          rw [longLong_number, if_pos (by omega)]
          rfl
        obtain ⟨pages, hfollows, hsizes, hflatten⟩ := ih (items.length - (offset + 256)) (by omega)
          (some (number (offset + 256))) (offset + 256) hnumber (by omega)
          (run_handle_list h hnumber (by omega)) rfl
        refine ⟨(items.drop offset).take 256 :: pages, ?_, ?_, ?_⟩
        · refine (follows_iff hreply).2 (.inr ⟨decide_eq_true hmore, pages, rfl, ?_⟩)
          rw [hlength]
          exact hfollows
        · intro page hpage
          rcases List.mem_cons.1 hpage with rfl | hrest
          · exact hlength.le
          · exact hsizes page hrest
        · rw [List.flatten_cons, hflatten, ← List.drop_drop, List.take_append_drop]
      -- The last page shows all that is left, and its reply has no cursor.
      · have hall : (items.drop offset).take 256 = items.drop offset :=
          List.take_of_length_le (by omega)
        refine ⟨[items.drop offset], ?_, ?_, by simp⟩
        · exact (follows_iff hreply).2 (.inl ⟨decide_eq_false hmore, by rw [hall]⟩)
        · intro page hpage
          rw [List.mem_singleton.1 hpage]
          omega

/-- **Following the cursors lists every shareable entry once, in scan order**: a scan has one
sequence of items, and the pages show exactly this sequence. -/
theorem list_complete (h : Scans provider answer share path fd names) :
    ∃ items, (∀ others, Presents (Holds provider answer fd) names others ↔ others = items) ∧
      (items.length ≤ 1000000 → ∃ pages,
        (∀ others, Follows
          (fun cursor => (share.handle provider (listRequest path cursor)).run answer) none others ↔
            others = pages) ∧
        (∀ page ∈ pages, page.length ≤ 256) ∧
        pages.flatten.map Item.read = items.map some) := by
  obtain ⟨items, hitems, hlisting⟩ := exists_presents (shareable_eq_some fd) names
  change listing provider answer fd names = _ at hlisting
  refine ⟨items, hitems, fun hcount => ?_⟩
  have hlength : (listing provider answer fd names).length ≤ 1000000 := by
    rw [hlisting, List.length_map]
    exact hcount
  obtain ⟨pages, hfollows, hsizes, hflatten⟩ :=
    follows_from h hlength none 0 (numberOf_listRequest path none) (Nat.zero_le _)
  refine ⟨pages, fun others => ⟨hfollows.unique, ?_⟩, hsizes, ?_⟩
  · rintro rfl
    exact hfollows
  · rw [hflatten, List.drop_zero, hlisting, map_read]

/-- A root with the two dots, a link, a pipe, a reserved and an invalid name, a directory and
three hundred files. -/
def sampleNames : List Name :=
  dots ++ ["link", "pipe", ".iiwebserver-1", "a:b", "sub"].map latin1Bytes ++
    (List.range 300).map fun n : ℕ => latin1Bytes (number n)

/-- What a client is to see of it. -/
def sampleItems : List Item :=
  ⟨"sub", true, "5", "1:2:5:0:0"⟩ ::
    (List.range 300).map fun n : ℕ => ⟨number n, false, "5", "1:2:5:0:0"⟩

/-- The answers of a system that has only this directory. -/
def sampleAnswer : (call : Call) → call.Answer
  | .info path => { canonicalFilePath := path }
  | .openRoot _ => some ⟨1, 1⟩
  | .fstat id => some ⟨id.device, id.inode, .directory, 0, 0, 0⟩
  | .readDirectory _ => some sampleNames
  | .fstatAt _ name =>
      some ⟨1, 2, if name = latin1Bytes "link" then .link
        else if name = latin1Bytes "pipe" then .other
        else if name = latin1Bytes "sub" then .directory else .regular, 5, 0, 0⟩
  | .guard => true
  | .uuid => ""
  | .lstat _ => none
  | .openAt .. => none
  | .pread .. => none
  | .makeDirectoryAt .. => false
  | .createAt .. => none
  | .write .. => 0
  | .fsync _ => false
  | .linkAt .. => false
  | .unlinkAt .. => false
  | .enqueue _ => ()

/-- A text of digits is read back from its bytes. -/
theorem fromLatin1_digits {text : String} (h : ∀ c ∈ text.toList, c.isDigit = true) :
    fromLatin1 (latin1Bytes text) = text := by
  refine fromLatin1_latin1Bytes fun hmark => ?_
  simp only [latin1Bytes, toLatin1, List.mem_map, List.mem_flatMap] at hmark
  obtain ⟨code, ⟨c, hc, hcode⟩, hmark⟩ := hmark
  have hdigit := h c hc
  simp only [Char.isDigit, Bool.and_eq_true, decide_eq_true_eq, UInt32.le_iff_toNat_le,
    ge_iff_le] at hdigit
  have h0 : ('0' : Char).val.toNat = 48 := rfl
  have h9 : ('9' : Char).val.toNat = 57 := rfl
  have hsmall : c.val < 0x100 := by
    rw [UInt32.lt_iff_toNat_lt]
    exact hdigit.2.trans_lt (by decide)
  rw [if_pos hsmall, List.mem_singleton] at hcode
  have hvalue := congrArg UInt8.toNat hmark
  simp only [UInt8.toNat_ofNat', UInt8.reduceToNat] at hvalue
  omega

/-- A number is a name that clients may use. -/
theorem usable_number {n : ℕ} (h : n < 1000) : Usable .sample (number n) := by
  have hnot : ∀ c : Char, c.isDigit = false → c ∉ (number n).toList := by
    intro c hc hmem
    rw [isDigit_of_mem_number hmem] at hc
    cases hc
  have hunits : ∀ chars : List Char,
      (chars.map fun c => if c.val < 0x10000 then 1 else 2).sum ≤ 2 * chars.length := by
    intro chars
    induction chars with
    | nil => exact le_rfl
    | cons c rest ih =>
        rw [List.map_cons, List.sum_cons, List.length_cons]
        split <;> omega
  have hlength : (number n).toList.length ≤ 3 := number_length_le (by decide) h
  refine ⟨(hunits _).trans (by omega), fun c hc => ⟨?_, ?_, ?_⟩,
    [number n], String.intercalate_singleton.symm, fun word hword => ?_⟩
  · rintro rfl
    exact hnot _ (by decide) hc
  · rintro rfl
    exact hnot _ (by decide) hc
  · rintro rfl
    exact hnot _ (by decide) hc
  · obtain rfl := List.mem_singleton.1 hword
    refine ⟨number_ne_empty _, hnot _ (by decide), ⟨fun hdot => ?_, fun hdots => ?_⟩, ?_, rfl⟩
    · exact hnot '.' (by decide) (hdot ▸ by decide)
    · exact hnot '.' (by decide) (hdots ▸ by decide)
    · rintro ⟨rest, hrest⟩
      exact hnot '.' (by decide) (hrest ▸ List.mem_append_left _ (by decide))

/-- A numbered file of the sample. -/
theorem holds_number {n : ℕ} (h : n < 1000) : Holds .sample sampleAnswer ⟨1, 1⟩
    (latin1Bytes (number n)) ⟨number n, false, "5", "1:2:5:0:0"⟩ := by
  have hback : fromLatin1 (latin1Bytes (number n)) = number n :=
    fromLatin1_digits fun c hc => isDigit_of_mem_number hc
  -- No other name of the sample is made of digits.
  have hother : ∀ text : String, fromLatin1 (latin1Bytes text) = text →
      (text.toList.any fun c => !c.isDigit) = true → latin1Bytes (number n) ≠ latin1Bytes text := by
    intro text htext hany hsame
    obtain ⟨c, hc, hdigit⟩ := List.any_eq_true.1 hany
    have hnumber : number n = text := by
      rw [← hback, hsame, htext]
    rw [← hnumber] at hc
    rw [isDigit_of_mem_number hc] at hdigit
    exact absurd hdigit (by decide)
  have hversion : ∀ kind, version ⟨1, 2, kind, 5, 0, 0⟩ = "1:2:5:0:0" := by
    intro kind
    cases kind <;> decide
  refine ⟨⟨hother _ (by decide) (by decide), hother _ (by decide) (by decide)⟩, congrArg some hback,
    usable_number h, _, rfl, .inl ⟨?_, rfl⟩, rfl, (hversion _).symm⟩
  dsimp only
  rw [if_neg (hother _ (by decide) (by decide)), if_neg (hother _ (by decide) (by decide)),
    if_neg (hother _ (by decide) (by decide))]

/-- The sample is shown as its directory and its files. -/
theorem presents_sample : Presents (Holds .sample sampleAnswer ⟨1, 1⟩) sampleNames sampleItems := by
  -- what is no file, no directory or has no portable name holds nothing
  have hnone : ∀ name ∈ dots ++ ["link", "pipe", ".iiwebserver-1", "a:b"].map latin1Bytes,
      ∀ item, ¬ Holds .sample sampleAnswer ⟨1, 1⟩ name item := by
    have hall : ∀ name ∈ dots ++ ["link", "pipe", ".iiwebserver-1", "a:b"].map latin1Bytes,
        (shareable .sample sampleAnswer ⟨1, 1⟩ name).isNone = true := by decide +kernel
    intro name hname item hholds
    have hsome := (shareable_eq_some ⟨1, 1⟩ name _).2 ⟨item, hholds, rfl⟩
    have hnone := hall name hname
    rw [hsome] at hnone
    cases hnone
  have hsub : Holds .sample sampleAnswer ⟨1, 1⟩ (latin1Bytes "sub")
      ⟨"sub", true, "5", "1:2:5:0:0"⟩ :=
    ⟨by decide, by decide, relative_iff.1 (by decide), _, rfl, .inr ⟨by decide, rfl⟩, rfl, rfl⟩
  -- the numbered files are all alike
  have hfiles : ∀ numbers : List ℕ, (∀ n ∈ numbers, n < 1000) →
      Presents (Holds .sample sampleAnswer ⟨1, 1⟩)
        (numbers.map fun n : ℕ => latin1Bytes (number n))
        (numbers.map fun n : ℕ => ⟨number n, false, "5", "1:2:5:0:0"⟩) := by
    intro numbers hnumbers
    induction numbers with
    | nil => exact .nil
    | cons n rest ih =>
        exact .item (holds_number (hnumbers n List.mem_cons_self))
          (ih fun m hm => hnumbers m (List.mem_cons_of_mem _ hm))
  have hskip : ∀ {names others : List Name} {items : List Item},
      (∀ name ∈ names, ∀ item, ¬ Holds .sample sampleAnswer ⟨1, 1⟩ name item) →
      Presents (Holds .sample sampleAnswer ⟨1, 1⟩) others items →
      Presents (Holds .sample sampleAnswer ⟨1, 1⟩) (names ++ others) items := by
    intro names others items hnames hothers
    induction names with
    | nil => exact hothers
    | cons name rest ih =>
        exact .skip (hnames name List.mem_cons_self)
          (ih fun other hother => hnames other (List.mem_cons_of_mem _ hother))
  have hshown := hskip hnone (.item hsub (hfiles (List.range 300) fun n hn =>
    (List.mem_range.1 hn).trans (by decide)))
  exact hshown
/-- Two pages show the directory and the three hundred files, and nothing else. -/
theorem list_complete_sample : ∃ pages, (∀ others, Follows (fun cursor =>
        (handle .sample ⟨"/", 1, 1, false⟩ (listRequest "" cursor)).run sampleAnswer) none others ↔
          others = pages) ∧
      (∀ page ∈ pages, page.length ≤ 256) ∧
      pages.flatten.map Item.read = sampleItems.map some := by
  have hscans : Scans .sample sampleAnswer ⟨"/", 1, 1, false⟩ "" ⟨1, 1⟩ sampleNames :=
    ⟨by decide, by rfl, rfl⟩
  obtain ⟨items, hitems, hpages⟩ := list_complete hscans
  obtain rfl := (hitems sampleItems).1 presents_sample
  refine hpages ?_
  rw [sampleItems, List.length_cons, List.length_map, List.length_range]
  omega

end FileShare

end ServerHost
