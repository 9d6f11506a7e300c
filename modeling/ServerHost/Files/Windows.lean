import Mathlib.Data.List.ReduceOption
import ServerHost.Files.Paging

/-!
# Directory paging on Windows

`WindowsFileShare.h`: the branch of `handle` for `list`.  An entry is counted
before it is opened, and the cursor counts the entries that were listed, so a
page that skips an entry makes the next one start too early.
-/

namespace ServerHost

namespace WindowsFiles

open Program FileShare

/-! ## The calls -/

/-- `HANDLE`. -/
abbrev Handle := ℕ

/-- What the sources use of `BY_HANDLE_FILE_INFORMATION`; the index, the size and
the time are the numbers made of their two halves. -/
structure FileInformation where
  volume : ℕ
  index : ℕ
  size : ℕ
  ticks : ℕ
  directory : Bool
  reparsePoint : Bool

/-- What the sources use of `WIN32_FIND_DATAW`. -/
structure FindData where
  name : String
  directory : Bool
  reparsePoint : Bool

/-- What `FindFirstFileW` and `FindNextFileW` return, one after the other. -/
inductive Found where
  | entries (all : List FindData)
  | fileNotFound
  | failed

inductive Access where
  | listDirectory
  | readAttributes
  deriving DecidableEq

inductive Call where
  | createFile (path : String) (access : Access) (directory : Bool)
  | information (handle : Handle)
  | find (pattern : String)

abbrev Call.Answer : Call → Type
  | .createFile .. => Option Handle
  | .information _ => Option FileInformation
  | .find _ => Found

abbrev Prog := Program Call Call.Answer

/-! ## The functions -/

variable (provider : FileProvider)

/-- `safeEntry`. -/
def safeEntry (name : String) : Bool :=
  name ≠ "" && name ≠ "." && name ≠ ".." && !startsWith name ".iiwebserver-" &&
    !provider.isControlFile name && '/' ∉ name.toList && '\\' ∉ name.toList &&
    ':' ∉ name.toList && Char.ofNat 0 ∉ name.toList

/-- `open`. -/
def openHandle (path : String) (access : Access) (directory : Bool) : Prog (Option Handle) :=
  .call (.createFile path access directory) fun handle =>
    match handle with
    | none => .done none
    | some handle => .call (.information handle) fun info =>
        match info with
        | none => .done none
        | some info =>
            if info.reparsePoint ∨ info.directory ≠ directory then .done none
            else .done (some handle)

/-- `version`. -/
def version (info : FileInformation) : String :=
  number info.volume ++ ":" ++ number info.index ++ ":" ++ number info.size ++ ":" ++
    number info.ticks

/-- The loop of `pin` over the components of the path. -/
def pinParts : String → List String → Prog Bool
  | _, [] => .done true
  | absolute, part :: rest =>
      (openHandle (filePath absolute part) .listDirectory true).bind fun parent =>
        if parent.isNone then .done false else pinParts (filePath absolute part) rest

/-- `pin`. -/
def pin (share : FileShare) (path : String) : Prog Bool :=
  (openHandle share.root .listDirectory true).bind fun first =>
    match first with
    | none => .done false
    | some first => .call (.information first) fun info =>
        match info with
        | none => .done false
        | some info =>
            if info.volume ≠ share.device ∨ info.index ≠ share.inode then .done false
            else pinParts share.root (components path)

/-- The path of an entry of a directory. -/
def absolutePath (share : FileShare) (path : String) : String :=
  if path = "" then share.root else filePath share.root path

/-- An entry as it is listed. -/
def entryJson (entry : FindData) (info : FileInformation) : Json :=
  .object [("name", .string entry.name), ("directory", .bool entry.directory),
    ("size", .string (number info.size)), ("version", .string (version info))]

/-- The entry, opened and with its information. -/
def openEntry (absolute : String) (entry : FindData) : Prog (Option Json) :=
  (openHandle (filePath absolute entry.name) .readAttributes entry.directory).bind fun child =>
    match child with
    | none => .done none
    | some child => .call (.information child) fun info =>
        .done (info.map (entryJson entry))

/-- The loop of `list`, with the entries of the page and whether there are more. -/
def listEntries (absolute : String) (offset : ℤ) :
    ℤ → List Json → List FindData → Prog (List Json × Bool)
  | _, entries, [] => .done (entries, false)
  | index, entries, entry :: rest =>
      if ¬ safeEntry provider entry.name ∨ entry.reparsePoint then
        listEntries absolute offset index entries rest
      else if index < offset then listEntries absolute offset (index + 1) entries rest
      else if entries.length = 256 then .done (entries, true)
      else (openEntry absolute entry).bind fun json =>
        match json with
        | none => listEntries absolute offset (index + 1) entries rest
        | some json => listEntries absolute offset (index + 1) (entries ++ [json]) rest

/-- The branch of `handle` for `list`. -/
def list (share : FileShare) (path : String) (request : JsonObject) : Prog JsonObject :=
  (pin share path).bind fun pinned =>
    if ¬ pinned then .done (errorObject "not_directory")
    else match (numberOf request "cursor").filter fun offset => 0 ≤ offset ∧ offset ≤ 1000000 with
      | none => .done (errorObject "invalid_cursor")
      | some offset => .call (.find (absolutePath share path ++ "/*")) fun found =>
          match found with
          | .fileNotFound => .done (pageReply offset [] false)
          | .failed => .done (errorObject "list_failed")
          | .entries all =>
              (listEntries provider (absolutePath share path) offset 0 [] all).bind fun page =>
                .done (pageReply offset page.1 page.2)

/-! ## Candidates -/

/-- The page that starts with these candidates, and whether there are more: it
skips the candidates that fail, and is full with `room` entries. -/
def fill {α : Type*} : ℕ → List (Option α) → List α × Bool
  | _, [] => ([], false)
  | 0, _ :: _ => ([], true)
  | room + 1, none :: rest => fill (room + 1) rest
  | room + 1, some entry :: rest => (entry :: (fill room rest).1, (fill room rest).2)

/-- How many of the candidates do not fail. -/
abbrev opened {α : Type*} (candidates : List (Option α)) : ℕ := candidates.countP Option.isSome

section
variable {α : Type*} {candidates : List (Option α)}

theorem reduceOption_length (candidates : List (Option α)) :
    candidates.reduceOption.length = opened candidates := by
  rw [List.reduceOption_length_eq, opened, List.countP_eq_length_filter]

/-- There are more when enough candidates open before the last one. -/
theorem fill_more {room : ℕ} : (fill room candidates).2 = true ↔
    candidates ≠ [] ∧ room ≤ opened candidates.dropLast := by
  induction candidates generalizing room with
  | nil => cases room <;> simp [fill]
  | cons candidate rest ih =>
      cases room with
      | zero => simp [fill]
      | succ room =>
          cases rest with
          | nil => cases candidate <;> simp [fill]
          | cons next rest =>
              rw [List.dropLast_cons_cons]
              cases candidate with
              | none =>
                  rw [fill, ih]
                  simp
              | some entry =>
                  rw [fill, ih]
                  simp

/-- A page that is the last one has all that is left. -/
theorem fill_last {room : ℕ} (h : (fill room candidates).2 = false) :
    (fill room candidates).1 = candidates.reduceOption := by
  induction candidates generalizing room with
  | nil => cases room <;> rfl
  | cons candidate rest ih =>
      cases room with
      | zero => simp [fill] at h
      | succ room =>
          cases candidate with
          | none => exact ih h
          | some entry =>
              rw [fill] at h ⊢
              rw [ih h, List.reduceOption_cons_of_some]

/-- A page that is not the last one is full, and begins the rest of the listing. -/
theorem fill_full {room : ℕ} (h : (fill room candidates).2 = true) :
    (fill room candidates).1 = candidates.reduceOption.take room ∧
      (fill room candidates).1.length = room := by
  induction candidates generalizing room with
  | nil => cases room <;> simp [fill] at h
  | cons candidate rest ih =>
      cases room with
      | zero => simp [fill]
      | succ room =>
          cases candidate with
          | none => exact ih h
          | some entry =>
              rw [fill] at h ⊢
              obtain ⟨htake, hlength⟩ := ih h
              exact ⟨by rw [htake]; rfl, by rw [List.length_cons, hlength]⟩

/-- The position of the first candidate that fails, or their number. -/
abbrev firstFailure {α : Type*} (candidates : List (Option α)) : ℕ :=
  candidates.findIdx Option.isNone

/-- The pages list every candidate that opens, once: the first page that skips a
candidate, or the last one whose cursor is in bounds, is the last page. -/
def Pageable {α : Type*} (candidates : List (Option α)) : Prop :=
  opened candidates.dropLast < 256 * (min (firstFailure candidates / 256) (1000000 / 256) + 1)

instance {α : Type*} (candidates : List (Option α)) : Decidable (Pageable candidates) :=
  inferInstanceAs (Decidable (_ < _))

theorem opened_split (candidates : List (Option α)) (n : ℕ) :
    opened candidates = opened (candidates.take n) + opened (candidates.drop n) := by
  rw [opened, opened, opened, ← List.countP_append, List.take_append_drop]

theorem opened_take_le (candidates : List (Option α)) (n : ℕ) :
    opened (candidates.take n) ≤ n :=
  List.countP_le_length.trans (List.length_take_le n candidates)

/-- Nothing fails before the first failure. -/
theorem opened_take {n : ℕ} (h : n ≤ firstFailure candidates) : opened (candidates.take n) = n := by
  have hlength : firstFailure candidates ≤ candidates.length := List.findIdx_le_length
  have hall : ∀ candidate ∈ candidates.take n, candidate.isSome = true := by
    intro candidate hmem
    obtain ⟨i, hi, rfl⟩ := List.mem_take_iff_getElem.1 hmem
    have hbefore := List.not_of_lt_findIdx (show i < firstFailure candidates by omega)
    simpa using hbefore
  rw [opened, List.countP_eq_length.2 hall, List.length_take]
  omega

/-- A page without failures is a segment of the candidates. -/
theorem opened_page {n : ℕ} (h : n + 256 ≤ firstFailure candidates) :
    opened ((candidates.drop n).take 256) = 256 := by
  have hsplit := opened_split (candidates.take (n + 256)) n
  rw [opened_take h, List.take_take, min_eq_left (by omega), opened_take (by omega),
    List.drop_take, Nat.add_sub_cancel_left] at hsplit
  omega

/-- A page with the first failure in it is not. -/
theorem opened_page_lt {n : ℕ} (hfirst : n ≤ firstFailure candidates)
    (hlast : firstFailure candidates < n + 256)
    (hfails : firstFailure candidates < candidates.length) :
    opened ((candidates.drop n).take 256) < 256 := by
  have hlength : ((candidates.drop n).take 256).length ≤ 256 := List.length_take_le ..
  have hle : opened ((candidates.drop n).take 256) ≤ ((candidates.drop n).take 256).length :=
    List.countP_le_length
  by_contra hfull
  have hall := List.countP_eq_length.1 (le_antisymm hle (hlength.trans (Nat.le_of_not_lt hfull)))
  have hmem : candidates[firstFailure candidates] ∈ (candidates.drop n).take 256 := by
    rw [List.mem_take_iff_getElem]
    refine ⟨firstFailure candidates - n, ?_, ?_⟩
    · rw [List.length_drop]
      omega
    · rw [List.getElem_drop]
      congr 1
      omega
  have hnone : candidates[firstFailure candidates].isNone = true := List.findIdx_getElem
  have hsome := hall _ hmem
  simp_all

theorem reduceOption_split (h : opened (candidates.take 256) = 256) :
    candidates.reduceOption.take 256 ++ (candidates.drop 256).reduceOption =
      candidates.reduceOption := by
  have hpage : (candidates.take 256).reduceOption.length = 256 := by rw [reduceOption_length, h]
  have hwhole : candidates.reduceOption =
      (candidates.take 256).reduceOption ++ (candidates.drop 256).reduceOption := by
    rw [← List.reduceOption_append, List.take_append_drop]
  rw [hwhole, List.take_left' hpage]

/-- Up to the first failure, whether a page is the last one depends on how many
candidates open. -/
theorem fill_drop_more {n : ℕ} (h : n ≤ firstFailure candidates) :
    (fill 256 (candidates.drop n)).2 = true ↔ n + 256 ≤ opened candidates.dropLast := by
  have hlength : firstFailure candidates ≤ candidates.length := List.findIdx_le_length
  have hbound : opened candidates.dropLast ≤ candidates.length - 1 :=
    List.countP_le_length.trans List.length_dropLast.le
  rw [fill_more]
  by_cases hnone : candidates.drop n = []
  · rw [List.drop_eq_nil_iff] at hnone
    simp only [List.drop_eq_nil_of_le hnone, ne_eq, not_true_eq_false, false_and, false_iff]
    omega
  · have hdrop : candidates.dropLast.drop n = (candidates.drop n).dropLast := by
      rw [List.dropLast_eq_take, List.dropLast_eq_take, List.drop_take, List.length_drop]
      congr 1
      omega
    have htake : candidates.dropLast.take n = candidates.take n := by
      rw [List.drop_eq_nil_iff] at hnone
      rw [List.dropLast_eq_take, List.take_take]
      congr 1
      omega
    rw [opened_split candidates.dropLast n, hdrop, htake, opened_take h]
    simp only [hnone, ne_eq, not_false_eq_true, true_and]
    omega

end

/-! ## One page -/

variable {provider : FileProvider} {answer : (call : Call) → call.Answer}

/-- The entries that are counted, opened where that does not fail. -/
def candidates (provider : FileProvider) (answer : (call : Call) → call.Answer)
    (absolute : String) (all : List FindData) : List (Option Json) :=
  (all.filter fun entry => safeEntry provider entry.name && !entry.reparsePoint).map fun entry =>
    (openEntry absolute entry).run answer

/-- The entries of a search. -/
def Found.all : Found → Option (List FindData)
  | .entries all => some all
  | .fileNotFound => some []
  | .failed => none

/-- The directory of the path can be opened, and its search yields the entries. -/
structure Scans (answer : (call : Call) → call.Answer) (share : FileShare) (path : String)
    (all : List FindData) : Prop where
  pinned : (pin share path).run answer = true
  found : (answer (.find (absolutePath share path ++ "/*"))).all = some all

/-- The loop of `list` fills the page with the candidates from the offset on. -/
theorem run_listEntries (absolute : String) (offset : ℤ) (all : List FindData) (index : ℤ)
    (entries : List Json) (hentries : entries.length ≤ 256)
    (hindex : entries = [] ∨ offset ≤ index) :
    (listEntries provider absolute offset index entries all).run answer =
      (entries ++ (fill (256 - entries.length)
          ((candidates provider answer absolute all).drop (offset - index).toNat)).1,
        (fill (256 - entries.length)
          ((candidates provider answer absolute all).drop (offset - index).toNat)).2) := by
  -- The induction is over the scan; index counts the candidates before `all`.
  induction all generalizing index entries with
  | nil => simp [listEntries, candidates, fill]
  | cons entry rest ih =>
      rw [listEntries]
      split
      · next hskip =>
          have hcandidates : candidates provider answer absolute (entry :: rest) =
              candidates provider answer absolute rest := by
            rw [candidates, List.filter_cons_of_neg]
            · rfl
            · simpa [imp_iff_not_or] using hskip
          rw [hcandidates]
          exact ih index entries hentries hindex
      next hsafe =>
      have hcandidates : candidates provider answer absolute (entry :: rest) =
          (openEntry absolute entry).run answer :: candidates provider answer absolute rest := by
        rw [candidates, List.filter_cons_of_pos]
        · rfl
        · simpa [not_or] using hsafe
      rw [hcandidates]
      split
      · next hbefore =>
          have hnone : entries = [] := hindex.resolve_right (by omega)
          have hdrop : (offset - index).toNat = (offset - (index + 1)).toNat + 1 := by omega
          rw [hdrop, List.drop_succ_cons]
          exact ih (index + 1) entries hentries (.inl hnone)
      next hafter =>
      have hstart : (offset - index).toNat = 0 := by omega
      rw [hstart, List.drop_zero]
      split
      · next hfull => simp [hfull, fill]
      next hroom =>
      obtain ⟨room, hspace⟩ : ∃ room, 256 - entries.length = room + 1 :=
        ⟨255 - entries.length, by omega⟩
      have hnext : (offset - (index + 1)).toNat = 0 := by omega
      rw [run_bind, hspace]
      -- A candidate that does not open takes its place in the count, but no place in the page.
      cases (openEntry absolute entry).run answer with
      | none =>
          dsimp only
          rw [ih (index + 1) entries hentries (.inr (by omega)), hnext, List.drop_zero, hspace,
            fill]
      | some json =>
          have hlength : (entries ++ [json]).length ≤ 256 := by
            simp only [List.length_append, List.length_singleton]
            omega
          have hleft : 256 - (entries ++ [json]).length = room := by
            simp only [List.length_append, List.length_singleton]
            omega
          dsimp only
          rw [ih (index + 1) _ hlength (.inr (by omega)), hnext, List.drop_zero, hleft, fill,
            List.append_assoc, List.singleton_append]

variable {share : FileShare} {path : String} {all : List FindData}

/-- The reply to a request for the page at a cursor. -/
def reply (provider : FileProvider) (answer : (call : Call) → call.Answer) (share : FileShare)
    (path : String) (cursor : Option String) : JsonObject :=
  (list provider share path (listRequest path cursor)).run answer

/-- A call with a cursor in bounds answers with the page at that offset. -/
theorem reply_page (h : Scans answer share path all) {cursor : Option String} {offset : ℕ}
    (hcursor : numberOf (listRequest path cursor) "cursor" = some (offset : ℤ))
    (hbound : offset ≤ 1000000) :
    reply provider answer share path cursor = pageReply offset
      (fill 256 ((candidates provider answer (absolutePath share path) all).drop offset)).1
      (fill 256 ((candidates provider answer (absolutePath share path) all).drop offset)).2 := by
  have hpage : (listEntries provider (absolutePath share path) offset 0 [] all).run answer =
      ((fill 256 ((candidates provider answer (absolutePath share path) all).drop offset)).1,
        (fill 256 ((candidates provider answer (absolutePath share path) all).drop offset)).2) := by
    rw [run_listEntries (absolutePath share path) offset all 0 [] (by simp) (.inl rfl)]
    simp
  have hrange : (some (offset : ℤ)).filter (fun offset => 0 ≤ offset ∧ offset ≤ 1000000) =
      some (offset : ℤ) := by
    rw [Option.filter_some, if_pos]
    simp only [decide_eq_true_eq]
    omega
  have hfound := h.found
  rw [reply, list, run_bind, h.pinned, if_neg (by simp), hcursor, hrange]
  simp only [run_call]
  cases hanswer : answer (.find (absolutePath share path ++ "/*")) with
  | failed => simp [hanswer, Found.all] at hfound
  | fileNotFound =>
      obtain rfl : [] = all := by simpa [hanswer, Found.all] using hfound
      simp [candidates, fill]
  | entries found =>
      obtain rfl : found = all := by simpa [hanswer, Found.all] using hfound
      simp only [run_bind, hpage, run_done]

/-- A cursor past the bound is refused. -/
theorem reply_refused (h : Scans answer share path all) {cursor : Option String} {offset : ℕ}
    (hcursor : numberOf (listRequest path cursor) "cursor" = some (offset : ℤ))
    (hbound : 1000000 < offset) :
    reply provider answer share path cursor = errorObject "invalid_cursor" := by
  have hrange : (some (offset : ℤ)).filter (fun offset => 0 ≤ offset ∧ offset ≤ 1000000) =
      none := by
    rw [Option.filter_some, if_neg]
    simp only [decide_eq_true_eq]
    omega
  rw [reply, list, run_bind, h.pinned, if_neg (by simp), hcursor, hrange, run_done]

/-! ## The pages together -/

/-- The candidates of a directory of a share. -/
abbrev candidatesOf (provider : FileProvider) (answer : (call : Call) → call.Answer)
    (share : FileShare) (path : String) (all : List FindData) : List (Option Json) :=
  candidates provider answer (absolutePath share path) all

/-- The cursor after a page in bounds is read as the next offset. -/
theorem numberOf_next {offset : ℕ} (hbound : offset ≤ 1000000) :
    numberOf (listRequest path (some (number (offset + (256 : ℕ))))) "cursor" =
      some ((offset + 256 : ℕ) : ℤ) := by
  rw [numberOf_listRequest]
  dsimp only
  rw [longLong_number, if_pos (by omega)]
  rfl

section
variable (h : Scans answer share path all) {cursor : Option String} {offset : ℕ}
  (hcursor : numberOf (listRequest path cursor) "cursor" = some (offset : ℤ))
  {pages : List (List Json)}
include h hcursor

theorem bound_of_follows (hfollows : Follows (reply provider answer share path) cursor pages) :
    offset ≤ 1000000 := by
  by_contra hpast
  have hrefused : reply provider answer share path cursor = errorObject "invalid_cursor" :=
    reply_refused h hcursor (by omega)
  cases hfollows with
  | last hok | more hok =>
      rw [hrefused] at hok
      simp [errorObject, JsonObject.value] at hok

/-- A page in bounds lists what is left, or 256 entries of it and the pages from the
next offset on. -/
theorem follows_page_iff (hbound : offset ≤ 1000000) :
    Follows (reply provider answer share path) cursor pages ↔
      ((fill 256 ((candidatesOf provider answer share path all).drop offset)).2 = false ∧
          pages = [((candidatesOf provider answer share path all).drop offset).reduceOption]) ∨
        ((fill 256 ((candidatesOf provider answer share path all).drop offset)).2 = true ∧
          ∃ rest, pages = (((candidatesOf provider answer share path all).drop
              offset).reduceOption.take 256) :: rest ∧
            Follows (reply provider answer share path)
              (some (number (offset + (256 : ℕ)))) rest) := by
  rw [follows_iff (reply_page h hcursor hbound)]
  refine or_congr (and_congr_right fun hlast => ?_) (and_congr_right fun hmore => ?_)
  · rw [fill_last hlast]
  · obtain ⟨htake, hlength⟩ := fill_full hmore
    rw [hlength, htake]

/-- Whoever gets to the end lists at least what opens from the cursor on. -/
theorem opened_le_of_follows
    (hfollows : Follows (reply provider answer share path) cursor pages) :
    opened ((candidatesOf provider answer share path all).drop offset) ≤ pages.flatten.length := by
  induction pages generalizing cursor offset with
  | nil => cases hfollows
  | cons page rest ih =>
      have hbound := bound_of_follows h hcursor hfollows
      rcases (follows_page_iff h hcursor hbound).1 hfollows with
        ⟨-, hpages⟩ | ⟨hmore, others, hpages, hothers⟩
      · rw [hpages, List.flatten_singleton, reduceOption_length]
      · obtain ⟨rfl, rfl⟩ := List.cons.inj hpages
        have hrest := ih (numberOf_next hbound) hothers
        have hfull := (fill_full hmore).2
        rw [(fill_full hmore).1] at hfull
        have hsplit := opened_split ((candidatesOf provider answer share path all).drop offset) 256
        have hpage := opened_take_le ((candidatesOf provider answer share path all).drop offset) 256
        rw [List.drop_drop] at hsplit
        rw [List.flatten_cons, List.length_append, hfull]
        omega

end

section
variable (h : Scans answer share path all)
include h

/-- When the pages fit, the cursors lead through what opens. -/
theorem follows_of_pageable (hpageable : Pageable (candidatesOf provider answer share path all))
    {page : ℕ} (hpage : page ≤
      min (firstFailure (candidatesOf provider answer share path all) / 256)
      (1000000 / 256)) {cursor : Option String}
    (hcursor : numberOf (listRequest path cursor) "cursor" = some ((256 * page : ℕ) : ℤ)) :
    ∃ pages, Follows (reply provider answer share path) cursor pages ∧
      pages.flatten =
        ((candidatesOf provider answer share path all).drop (256 * page)).reduceOption := by
  set items := candidatesOf provider answer share path all with hitems
  have hbound : 256 * page ≤ 1000000 := by omega
  have hfailure : 256 * page ≤ firstFailure items := by omega
  unfold Pageable at hpageable
  -- The pages before the one with the first failure are full segments.
  induction hleft : min (firstFailure items / 256) (1000000 / 256) - page
    generalizing page cursor with
  | zero =>
      have hlast : (fill 256 (items.drop (256 * page))).2 = false := by
        rw [← Bool.not_eq_true, fill_drop_more hfailure]
        omega
      exact ⟨_, (follows_page_iff h hcursor hbound).2 (.inl ⟨hlast, rfl⟩), List.flatten_singleton⟩
  | succ left ih =>
      cases hmore : (fill 256 (items.drop (256 * page))).2 with
      | false =>
          exact ⟨_, (follows_page_iff h hcursor hbound).2 (.inl ⟨hmore, rfl⟩),
            List.flatten_singleton⟩
      | true =>
          have hnext : numberOf (listRequest path (some (number ((256 * page : ℕ) + (256 : ℕ)))))
              "cursor" = some ((256 * (page + 1) : ℕ) : ℤ) := by
            rw [numberOf_next hbound]
            rfl
          obtain ⟨pages, hfollows, hflatten⟩ := ih hnext (by omega) (by omega) (by omega) (by omega)
          refine ⟨_, (follows_page_iff h hcursor hbound).2 (.inr ⟨hmore, pages, rfl, hfollows⟩), ?_⟩
          have hsegment : opened ((items.drop (256 * page)).take 256) = 256 :=
            opened_page (by omega)
          have hwhole := reduceOption_split hsegment
          rw [List.drop_drop] at hwhole
          rw [List.flatten_cons, hflatten]
          exact hwhole

/-- When they do not fit, whoever gets to the end lists something twice. -/
theorem lt_of_follows (hpageable : ¬ Pageable (candidatesOf provider answer share path all))
    {page : ℕ} (hpage : page ≤
      min (firstFailure (candidatesOf provider answer share path all) / 256)
      (1000000 / 256)) {cursor : Option String}
    (hcursor : numberOf (listRequest path cursor) "cursor" = some ((256 * page : ℕ) : ℤ))
    {pages : List (List Json)}
    (hfollows : Follows (reply provider answer share path) cursor pages) :
    opened ((candidatesOf provider answer share path all).drop (256 * page)) <
      pages.flatten.length := by
  set items := candidatesOf provider answer share path all with hitems
  have hlength : firstFailure items ≤ items.length := List.findIdx_le_length
  have hcount : opened items.dropLast ≤ items.length - 1 :=
    List.countP_le_length.trans List.length_dropLast.le
  unfold Pageable at hpageable
  induction pages generalizing page cursor with
  | nil => cases hfollows
  | cons first rest ih =>
      -- The page is full and not the last one, so the next one starts 256 candidates later.
      have hmore : (fill 256 (items.drop (256 * page))).2 = true :=
        (fill_drop_more (by omega)).2 (by omega)
      obtain ⟨rfl, hrest⟩ : first = (items.drop (256 * page)).reduceOption.take 256 ∧
          Follows (reply provider answer share path)
            (some (number ((256 * page : ℕ) + (256 : ℕ)))) rest := by
        rcases (follows_page_iff h hcursor (by omega)).1 hfollows with
          ⟨hlast, -⟩ | ⟨-, others, hpages, hothers⟩
        · rw [hmore] at hlast
          cases hlast
        · obtain ⟨hfirst, rfl⟩ := List.cons.inj hpages
          exact ⟨hfirst, hothers⟩
      have hnext : numberOf (listRequest path (some (number ((256 * page : ℕ) + (256 : ℕ)))))
          "cursor" = some ((256 * (page + 1) : ℕ) : ℤ) := by
        rw [numberOf_next (by omega)]
        rfl
      have hfull := (fill_full hmore).2
      rw [(fill_full hmore).1] at hfull
      have hsplit := opened_split (items.drop (256 * page)) 256
      rw [List.drop_drop] at hsplit
      rw [List.flatten_cons, List.length_append, hfull, hsplit]
      by_cases hlast : page = min (firstFailure items / 256) (1000000 / 256)
      · have hbound := bound_of_follows h hnext hrest
        have hothers : opened (items.drop (256 * page + 256)) ≤ rest.flatten.length :=
          opened_le_of_follows h hnext hrest
        have hshort : opened ((items.drop (256 * page)).take 256) < 256 :=
          opened_page_lt (by omega) (by omega) (by omega)
        omega
      · have hothers : opened (items.drop (256 * page + 256)) < rest.flatten.length :=
          ih hnext hrest (by omega)
        have hsegment := opened_take_le (items.drop (256 * page)) 256
        omega

end

/-! ## What the candidates are

Which entries open is said here without the checks of the source. -/

/-- The directory has this item under the entry: it is no reparse point, its name is a word,
and it opens as what it is. -/
structure Shows (provider : FileProvider) (answer : (call : Call) → call.Answer)
    (absolute : String) (entry : FindData) (item : Item) : Prop where
  word : Word provider entry.name
  chars : ∀ c ∈ entry.name.toList, c ≠ '\\' ∧ c ≠ ':' ∧ c ≠ Char.ofNat 0
  plain : entry.reparsePoint = false
  opens : ∃ handle info,
    answer (.createFile (filePath absolute entry.name) .readAttributes entry.directory) =
      some handle ∧
    answer (.information handle) = some info ∧ info.reparsePoint = false ∧
    info.directory = entry.directory ∧
    item = ⟨entry.name, entry.directory, number info.size, version info⟩

/-- The names that are accepted are words. -/
theorem safeEntry_iff {name : String} : safeEntry provider name = true ↔
    Word provider name ∧ ∀ c ∈ name.toList, c ≠ '\\' ∧ c ≠ ':' ∧ c ≠ Char.ofNat 0 := by
  have hplain : safeEntry provider name = (plain provider name &&
      '/' ∉ name.toList && '\\' ∉ name.toList && ':' ∉ name.toList &&
        Char.ofNat 0 ∉ name.toList) := rfl
  rw [hplain]
  simp only [Bool.and_eq_true, decide_eq_true_eq]
  constructor
  · rintro ⟨⟨⟨⟨hname, hslash⟩, hbackslash⟩, hcolon⟩, hzero⟩
    refine ⟨(plain_iff hslash).1 hname, fun c hc => ⟨?_, ?_, ?_⟩⟩
    · rintro rfl
      exact hbackslash hc
    · rintro rfl
      exact hcolon hc
    · rintro rfl
      exact hzero hc
  · rintro ⟨hword, hchars⟩
    exact ⟨⟨⟨⟨(plain_iff hword.slash).2 hword, hword.slash⟩, fun hc => (hchars _ hc).1 rfl⟩,
      fun hc => (hchars _ hc).2.1 rfl⟩, fun hc => (hchars _ hc).2.2 rfl⟩

/-- The entry as it is listed, when it is counted and opens. -/
def shown (provider : FileProvider) (answer : (call : Call) → call.Answer) (absolute : String)
    (entry : FindData) : Option Json :=
  if safeEntry provider entry.name && !entry.reparsePoint then
    (openEntry absolute entry).run answer
  else none

theorem shown_eq_some (absolute : String) (entry : FindData) (json : Json) :
    shown provider answer absolute entry = some json ↔
      ∃ item, Shows provider answer absolute entry item ∧ json = item.json := by
  -- An entry is opened for its attributes, and asked what it is now.
  have hopen : (openEntry absolute entry).run answer =
      match answer (.createFile (filePath absolute entry.name) .readAttributes entry.directory) with
      | none => none
      | some handle => match answer (.information handle) with
          | none => none
          | some info => if info.reparsePoint ∨ info.directory ≠ entry.directory then none
              else some (entryJson entry info) := by
    rw [openEntry, openHandle, call_bind, run_call]
    cases answer (.createFile (filePath absolute entry.name) .readAttributes entry.directory) with
    | none => rfl
    | some handle =>
        simp only [call_bind, run_call]
        cases hinfo : answer (.information handle) with
        | none => rfl
        | some info =>
            dsimp only
            split
            · rfl
            · simp [hinfo]
  unfold shown
  constructor
  · intro h
    split at h
    swap
    · cases h
    next hcounted =>
    rw [Bool.and_eq_true, safeEntry_iff, Bool.not_eq_true'] at hcounted
    obtain ⟨⟨hword, hchars⟩, hplain⟩ := hcounted
    rw [hopen] at h
    split at h
    · cases h
    next handle hhandle =>
    split at h
    · cases h
    next info hinfo =>
    split at h
    · cases h
    next hsame =>
    rw [not_or, not_not, Bool.not_eq_true] at hsame
    obtain rfl := Option.some.inj h
    exact ⟨⟨entry.name, entry.directory, number info.size, version info⟩,
      ⟨hword, hchars, hplain, handle, info, hhandle, hinfo, hsame.1, hsame.2, rfl⟩, rfl⟩
  · rintro ⟨item, ⟨hword, hchars, hplain, handle, info, hhandle, hinfo, hreparse, hsame, rfl⟩, rfl⟩
    rw [if_pos, hopen, hhandle]
    · dsimp only
      rw [hinfo]
      dsimp only
      rw [if_neg (by simp [hreparse, hsame])]
      rfl
    · rw [Bool.and_eq_true, safeEntry_iff, Bool.not_eq_true']
      exact ⟨⟨hword, hchars⟩, hplain⟩

/-- The candidates that open are the entries that are shown. -/
theorem reduceOption_candidates (absolute : String) (all : List FindData) :
    (candidates provider answer absolute all).reduceOption =
      all.filterMap (shown provider answer absolute) := by
  unfold candidates
  induction all with
  | nil => rfl
  | cons entry rest ih =>
      rw [List.filter_cons]
      cases hcounted : safeEntry provider entry.name && !entry.reparsePoint with
      | false =>
          rw [if_neg Bool.false_ne_true, ih, List.filterMap_cons_none]
          rw [shown, hcounted, if_neg Bool.false_ne_true]
      | true =>
          have hshown : shown provider answer absolute entry =
              (openEntry absolute entry).run answer := by
            rw [shown, hcounted, if_pos rfl]
          rw [if_pos rfl, List.map_cons]
          cases hopen : (openEntry absolute entry).run answer with
          | none =>
              rw [List.reduceOption_cons_of_none, ih, List.filterMap_cons_none]
              rw [hshown, hopen]
          | some json =>
              rw [List.reduceOption_cons_of_some, ih]
              exact (List.filterMap_cons_some (hshown.trans hopen)).symm

/-- **The cursors list every entry that opens once exactly when the pages fit**; the entries
that open are the items of the directory. -/
theorem list_complete_iff (h : Scans answer share path all) :
    ((∃ pages, Follows (reply provider answer share path) none pages ∧
      pages.flatten.Perm (candidatesOf provider answer share path all).reduceOption) ↔
      Pageable (candidatesOf provider answer share path all)) ∧
    ∃ items, (∀ others, Presents (Shows provider answer (absolutePath share path)) all others ↔
        others = items) ∧
      (candidatesOf provider answer share path all).reduceOption = items.map Item.json := by
  have hstart : numberOf (listRequest path none) "cursor" = some ((256 * 0 : ℕ) : ℤ) := rfl
  refine ⟨⟨?_, fun hpageable => ?_⟩, ?_⟩
  · rintro ⟨pages, hfollows, hperm⟩
    by_contra hpageable
    have hlt := lt_of_follows h hpageable (Nat.zero_le _) hstart hfollows
    rw [hperm.length_eq, reduceOption_length] at hlt
    exact lt_irrefl _ hlt
  · obtain ⟨pages, hfollows, hflatten⟩ := follows_of_pageable h hpageable (Nat.zero_le _) hstart
    exact ⟨pages, hfollows, .of_eq hflatten⟩
  · obtain ⟨items, hitems, hlisted⟩ := exists_presents
      (@shown_eq_some provider answer (absolutePath share path)) all
    exact ⟨items, hitems, (reduceOption_candidates _ all).trans hlisted⟩

/-- A root whose entries all open, apart from the one with the name `0`. -/
def sampleAnswer (all : List FindData) : (call : Call) → call.Answer
  | .createFile path _ directory => if path = "/0" then none else some (if directory then 1 else 2)
  | .information handle => some ⟨1, handle, 0, 0, handle = 1, false⟩
  | .find _ => .entries all

def sampleEntries (count : ℕ) : List FindData :=
  (List.range count).map fun n : ℕ => ⟨number n, false, false⟩

theorem scans_sample (all : List FindData) : Scans (sampleAnswer all) ⟨"/", 1, 1, false⟩ "" all :=
  ⟨rfl, rfl⟩

theorem not_complete_sample : ¬ ∃ pages, Follows (reply .sample (sampleAnswer (sampleEntries 258))
      ⟨"/", 1, 1, false⟩ "") none pages ∧
    pages.flatten.Perm (candidatesOf .sample (sampleAnswer (sampleEntries 258))
      ⟨"/", 1, 1, false⟩ "" (sampleEntries 258)).reduceOption := by
  rintro ⟨pages, hfollows, hperm⟩
  have hpageable : ¬ Pageable (candidatesOf .sample (sampleAnswer (sampleEntries 258))
      ⟨"/", 1, 1, false⟩ "" (sampleEntries 258)) := by decide +kernel
  have hlt := lt_of_follows (scans_sample _) hpageable (Nat.zero_le _) rfl hfollows
  rw [hperm.length_eq, reduceOption_length] at hlt
  exact lt_irrefl _ hlt

/-- Where the page with the failure is the last one, all other entries are listed under their
names. -/
theorem list_complete_iff_sample : (∃ pages, Follows (reply .sample
      (sampleAnswer (sampleEntries 257)) ⟨"/", 1, 1, false⟩ "") none pages ∧
    pages.flatten.Perm (candidatesOf .sample (sampleAnswer (sampleEntries 257))
      ⟨"/", 1, 1, false⟩ "" (sampleEntries 257)).reduceOption) ∧
    ∃ items, (∀ others, Presents (Shows .sample (sampleAnswer (sampleEntries 3)) "/")
        (sampleEntries 3) others ↔ others = items) ∧
      items = [⟨"1", false, "0", "1:2:0:0"⟩, ⟨"2", false, "0", "1:2:0:0"⟩] := by
  have hpageable : Pageable (candidatesOf .sample (sampleAnswer (sampleEntries 257))
      ⟨"/", 1, 1, false⟩ "" (sampleEntries 257)) := by decide +kernel
  obtain ⟨-, items, hitems, hlisted⟩ :=
    @list_complete_iff .sample _ _ _ _ (scans_sample (sampleEntries 3))
  refine ⟨(list_complete_iff (scans_sample _)).1.2 hpageable, items, hitems, ?_⟩
  have hread := map_read items
  rw [← hlisted] at hread
  refine List.map_injective_iff.2 (Option.some_injective _) (hread.symm.trans ?_)
  decide +kernel

end WindowsFiles

end ServerHost
