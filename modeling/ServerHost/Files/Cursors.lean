import ServerHost.Files.Windows

/-!
# Cursors that are issued and cursors that are accepted

A listing refuses cursors above a million, and issues the offset of the next page
without looking at that bound.  So the last page that can be reached leaves a cursor
that is refused when the directory goes on behind it.  Both systems do this; how many
entries are left is counted as each of them counts.
-/

namespace ServerHost

open Files Program

/-- The cursor a page comes with, if there is one, is accepted. -/
def Continues (reply : Option String → JsonObject) (cursor : Option String) : Prop :=
  ∀ next, (reply cursor).value "nextCursor" = .string next → next ≠ "" →
    reply (some next) ≠ errorObject "invalid_cursor"

/-! ## What one page says -/

theorem errorObject_nextCursor (code : String) :
    (errorObject code).value "nextCursor" = .undefined := rfl

theorem pageReply_ne_errorObject (offset : ℤ) (entries : List Json) (more : Bool) (code : String) :
    FileShare.pageReply offset entries more ≠ errorObject code := by
  intro h
  have hok : (FileShare.pageReply offset entries more).value "ok" = (errorObject code).value "ok" :=
    congrArg (JsonObject.value · "ok") h
  have hbool : Json.bool true = Json.bool false := hok
  cases hbool

/-- A cursor the server issues is read as the offset it stands for. -/
theorem numberOf_issued (path : String) {offset : ℕ} (hbound : offset ≤ 2000000) :
    FileShare.numberOf (listRequest path (some (number offset))) "cursor" = some (offset : ℤ) := by
  rw [numberOf_listRequest]
  dsimp only
  rw [longLong_number, if_pos (by omega)]

/-- **A page continues when it is the last one or the next offset is in bounds.** -/
theorem continues_iff {reply : Option String → JsonObject} {cursor : Option String} {offset : ℕ}
    {entries : List Json} {more : Bool}
    (hpage : reply cursor = FileShare.pageReply offset entries more)
    (hfull : more = true → entries.length = 256)
    (hnext : more = true →
      (reply (some (number (offset + 256 : ℕ))) = errorObject "invalid_cursor" ↔
        1000000 < offset + 256)) :
    Continues reply cursor ↔ (more = true → offset + 256 ≤ 1000000) := by
  have hcursor : (reply cursor).value "nextCursor" =
      .string (if more then number (offset + entries.length) else "") := by
    rw [hpage]
    rfl
  constructor
  · intro h hmore
    by_contra hpast
    -- A full page that ends past the bound issues a cursor that is refused.
    have hissued : (reply cursor).value "nextCursor" = .string (number (offset + 256 : ℕ)) := by
      rw [hcursor, if_pos hmore, hfull hmore]
      rfl
    exact h _ hissued (number_ne_empty _) ((hnext hmore).2 (not_le.1 hpast))
  · intro h next hissued hne
    rw [hcursor] at hissued
    obtain rfl := Json.string.inj hissued
    have hmore : more = true := by
      by_contra hlast
      rw [if_neg hlast] at hne
      exact hne rfl
    have hbound := h hmore
    rw [if_pos hmore, hfull hmore]
    intro hrefused
    exact absurd ((hnext hmore).1 hrefused) (by omega)

/-! ## Cursors past the bound

Both platforms take a `cursor` that is a number between 0 and 1000000, and no other. -/

/-- A number in bounds is an offset. -/
theorem offset_of_filter {number : Option ℤ} {value : ℤ}
    (h : number.filter (fun offset => 0 ≤ offset ∧ offset ≤ 1000000) = some value) :
    ∃ offset : ℕ, number = some (offset : ℤ) ∧ value = offset ∧ offset ≤ 1000000 := by
  obtain ⟨hnumber, hrange⟩ := Option.filter_eq_some_iff.1 h
  simp only [decide_eq_true_eq] at hrange
  refine ⟨value.toNat, ?_, by omega, by omega⟩
  rw [hnumber, Int.toNat_of_nonneg hrange.1]

theorem filter_past {offset : ℕ} (h : 1000000 < offset) :
    (some (offset : ℤ)).filter (fun offset => 0 ≤ offset ∧ offset ≤ 1000000) = none := by
  rw [Option.filter_some, if_neg]
  simp only [decide_eq_true_eq]
  omega

namespace FileShare

variable {provider : FileProvider} {answer : (call : Call) → call.Answer} {share : FileShare}
  {path : String} {fd : NodeId} {names : List Name} {cursor : Option String}

/-- The reply to a request for the page at a cursor. -/
abbrev listReply (provider : FileProvider) (answer : (call : Call) → call.Answer)
    (share : FileShare) (path : String) (cursor : Option String) : JsonObject :=
  (share.handle provider (listRequest path cursor)).run answer

/-- Only a scan of the directory from an offset in bounds issues a cursor. -/
theorem scans_of_issued (h : (listReply provider answer share path cursor).value "nextCursor" ≠
    .undefined) : ∃ fd names, ∃ offset : ℕ, Scans provider answer share path fd names ∧
      numberOf (listRequest path cursor) "cursor" = some (offset : ℤ) ∧ offset ≤ 1000000 := by
  rw [listReply, handle_of_list (listRequest_op path cursor) (listRequest_path path cursor),
    run_bind] at h
  by_cases hresolved : (share.resolve provider path false).run answer = ""
  · rw [if_pos hresolved] at h
    exact absurd (errorObject_nextCursor _) h
  rw [if_neg hresolved, list] at h
  split at h
  · exact absurd (errorObject_nextCursor _) h
  next value hvalue =>
  obtain ⟨offset, hnumber, rfl, hbound⟩ := offset_of_filter hvalue
  rw [run_bind] at h
  cases hopened : (share.confined provider path true).run answer with
  | none =>
      rw [hopened] at h
      exact absurd (errorObject_nextCursor _) h
  | some fd =>
      rw [hopened, run_call] at h
      cases hscanned : answer (.readDirectory fd) with
      | none =>
          rw [hscanned] at h
          exact absurd (errorObject_nextCursor _) h
      | some names => exact ⟨fd, names, offset, ⟨hresolved, hopened, hscanned⟩, hnumber, hbound⟩

theorem listReply_past (h : Scans provider answer share path fd names) {offset : ℕ}
    (hcursor : numberOf (listRequest path cursor) "cursor" = some (offset : ℤ))
    (hbound : 1000000 < offset) :
    listReply provider answer share path cursor = errorObject "invalid_cursor" := by
  rw [listReply, handle_of_list (listRequest_op path cursor) (listRequest_path path cursor),
    run_bind, if_neg h.resolved, list, hcursor, filter_past hbound, run_done]

/-- A page of a scan continues when it is the last one or the next offset is in bounds. -/
theorem listReply_continues_iff (h : Scans provider answer share path fd names) {offset : ℕ}
    (hcursor : numberOf (listRequest path cursor) "cursor" = some (offset : ℤ))
    (hbound : offset ≤ 1000000) :
    Continues (listReply provider answer share path) cursor ↔
      (256 < ((listing provider answer fd names).drop offset).length →
        offset + 256 ≤ 1000000) := by
  have hissued := numberOf_issued path (show offset + 256 ≤ 2000000 by omega)
  rw [continues_iff (run_handle_list h hcursor hbound), decide_eq_true_iff]
  · intro hmore
    rw [List.length_take]
    exact min_eq_left (of_decide_eq_true hmore).le
  · intro _
    constructor
    · intro hrefused
      by_contra hin
      have hpage := run_handle_list h hissued (not_lt.1 hin)
      exact pageReply_ne_errorObject _ _ _ _ (hpage.symm.trans hrefused)
    · exact listReply_past h hissued

end FileShare

namespace WindowsFiles

open FileShare

variable {provider : FileProvider} {answer : (call : Call) → call.Answer} {share : FileShare}
  {path : String} {all : List FindData} {cursor : Option String}

/-- Only a search of the directory from an offset in bounds issues a cursor. -/
theorem scans_of_issued (h : (reply provider answer share path cursor).value "nextCursor" ≠
    .undefined) : ∃ all, ∃ offset : ℕ, Scans answer share path all ∧
      numberOf (listRequest path cursor) "cursor" = some (offset : ℤ) ∧ offset ≤ 1000000 := by
  rw [reply, list, run_bind] at h
  by_cases hpinned : (pin share path).run answer = true
  swap
  · rw [if_pos hpinned] at h
    exact absurd (errorObject_nextCursor _) h
  rw [if_neg (not_not.2 hpinned)] at h
  split at h
  · exact absurd (errorObject_nextCursor _) h
  next value hvalue =>
  obtain ⟨offset, hnumber, rfl, hbound⟩ := offset_of_filter hvalue
  rw [run_call] at h
  cases hfound : answer (.find (absolutePath share path ++ "/*")) with
  | failed =>
      rw [hfound] at h
      exact absurd (errorObject_nextCursor _) h
  | fileNotFound =>
      refine ⟨[], offset, ⟨hpinned, ?_⟩, hnumber, hbound⟩
      rw [hfound]
      rfl
  | entries all =>
      refine ⟨all, offset, ⟨hpinned, ?_⟩, hnumber, hbound⟩
      rw [hfound]
      rfl

/-- A page of a search continues when it is the last one or the next offset is in bounds. -/
theorem reply_continues_iff (h : Scans answer share path all) {offset : ℕ}
    (hcursor : numberOf (listRequest path cursor) "cursor" = some (offset : ℤ))
    (hbound : offset ≤ 1000000) :
    Continues (reply provider answer share path) cursor ↔
      ((candidatesOf provider answer share path all).drop offset ≠ [] ∧
        256 ≤ opened ((candidatesOf provider answer share path all).drop offset).dropLast →
          offset + 256 ≤ 1000000) := by
  have hissued := numberOf_issued path (show offset + 256 ≤ 2000000 by omega)
  rw [continues_iff (reply_page h hcursor hbound), fill_more]
  · exact fun hmore => (fill_full hmore).2
  · intro _
    constructor
    · intro hrefused
      by_contra hin
      rw [reply_page h hissued (not_lt.1 hin)] at hrefused
      exact pageReply_ne_errorObject _ _ _ _ hrefused
    · exact reply_refused h hissued

end WindowsFiles

/-- **When a cursor that is issued is accepted**: on Unix, exactly when at most 256
entries are left from the offset on or the next offset is in bounds; on Windows, exactly
when nothing comes after 256 entries that open or the next offset is in bounds. -/
theorem list_continues_iff (provider : FileProvider) (share : FileShare) (path : String)
    (cursor : Option String) :
    (∀ answer : (call : Call) → call.Answer,
      Continues (FileShare.listReply provider answer share path) cursor ↔
        ∀ (fd : NodeId) (names : List Name) (offset : ℕ),
          FileShare.Scans provider answer share path fd names →
          FileShare.numberOf (listRequest path cursor) "cursor" = some (offset : ℤ) →
          offset ≤ 1000000 →
          256 < ((FileShare.listing provider answer fd names).drop offset).length →
            offset + 256 ≤ 1000000) ∧
    ∀ answer : (call : WindowsFiles.Call) → call.Answer,
      Continues (WindowsFiles.reply provider answer share path) cursor ↔
        ∀ (all : List WindowsFiles.FindData) (offset : ℕ),
          WindowsFiles.Scans answer share path all →
          FileShare.numberOf (listRequest path cursor) "cursor" = some (offset : ℤ) →
          offset ≤ 1000000 →
          (WindowsFiles.candidatesOf provider answer share path all).drop offset ≠ [] ∧
            256 ≤ WindowsFiles.opened
              ((WindowsFiles.candidatesOf provider answer share path all).drop offset).dropLast →
            offset + 256 ≤ 1000000 := by
  refine ⟨fun answer => ⟨fun h fd names offset hscans hcursor hbound => ?_, fun h => ?_⟩,
    fun answer => ⟨fun h all offset hscans hcursor hbound => ?_, fun h => ?_⟩⟩
  · exact (FileShare.listReply_continues_iff hscans hcursor hbound).1 h
  -- A reply that issues a cursor listed a directory, so the condition speaks of it.
  · intro next hissued hne
    have hdefined : (FileShare.listReply provider answer share path cursor).value "nextCursor" ≠
        .undefined := by
      rw [hissued]
      simp
    obtain ⟨fd, names, offset, hscans, hcursor, hbound⟩ := FileShare.scans_of_issued hdefined
    exact (FileShare.listReply_continues_iff hscans hcursor hbound).2
      (h fd names offset hscans hcursor hbound) next hissued hne
  · exact (WindowsFiles.reply_continues_iff hscans hcursor hbound).1 h
  · intro next hissued hne
    have hdefined : (WindowsFiles.reply provider answer share path cursor).value "nextCursor" ≠
        .undefined := by
      rw [hissued]
      simp
    obtain ⟨all, offset, hscans, hcursor, hbound⟩ := WindowsFiles.scans_of_issued hdefined
    exact (WindowsFiles.reply_continues_iff hscans hcursor hbound).2
      (h all offset hscans hcursor hbound) next hissued hne

namespace WindowsFiles

open FileShare

/-! ## A directory that is too long -/

theorem safeEntry_number (n : ℕ) : safeEntry .sample (number n) = true := by
  have hout : ∀ c : Char, c.isDigit = false → c ∉ (number n).toList := by
    intro c hc hmem
    rw [isDigit_of_mem_number hmem] at hc
    cases hc
  have hother : ∀ text : String, (∃ c ∈ text.toList, c.isDigit = false) → number n ≠ text := by
    rintro text ⟨c, hmem, hc⟩ rfl
    exact hout c hc hmem
  have hstart : startsWith (number n) ".iiwebserver-" = false := by
    rw [startsWith, Bool.eq_false_iff, ne_eq, List.isPrefixOf_iff_prefix]
    exact fun h => hout '.' (by decide) (h.subset (by decide))
  simp only [safeEntry, Bool.and_eq_true, decide_eq_true_eq, Bool.not_eq_true']
  exact ⟨⟨⟨⟨⟨⟨⟨⟨number_ne_empty n, hother _ ⟨'.', by decide⟩⟩, hother _ ⟨'.', by decide⟩⟩, hstart⟩,
    rfl⟩, hout _ (by decide)⟩, hout _ (by decide)⟩, hout _ (by decide)⟩, hout _ (by decide)⟩

theorem openEntry_sample {all : List FindData} {n : ℕ} (hne : n ≠ 0) (hbound : n ≤ 2000000) :
    ((openEntry "/" ⟨number n, false, false⟩).run (sampleAnswer all)).isSome = true := by
  have hpath : filePath "/" (number n) ≠ "/0" := by
    intro hsame
    have hcat : (filePath "/" (number n)).toList = '/' :: (number n).toList := by
      rw [filePath, if_pos (by decide), String.toList_append]
      rfl
    rw [hsame] at hcat
    have hzero : number n = number 0 := String.toList_inj.1 (List.cons.inj hcat).2.symm
    have hread := congrArg toLongLong hzero
    rw [toLongLong_number (by omega) (by omega), toLongLong_number (by omega) (by omega)] at hread
    omega
  have hhandle : sampleAnswer all (.createFile (filePath "/" (number n)) .readAttributes false) =
      some 2 := if_neg hpath
  rw [openEntry, openHandle, call_bind, run_call, hhandle]
  rfl

theorem fill_of_all {α : Type*} {room : ℕ} {candidates : List (Option α)}
    (h : ∀ candidate ∈ candidates, candidate.isSome = true) (hlength : room < candidates.length) :
    (fill room candidates).2 = true := by
  have hopened : opened candidates.dropLast = candidates.dropLast.length :=
    List.countP_eq_length.2 fun candidate hmem => h candidate (List.dropLast_subset _ hmem)
  refine fill_more.2 ⟨List.ne_nil_of_length_pos (by omega), ?_⟩
  rw [hopened, List.length_dropLast]
  omega

/-- **The defect**: with 257 files or more behind offset 999936, which paging from the
start comes to, the page issues the cursor 1000192, which is refused. -/
theorem not_continues_sample : ¬ Continues (reply .sample (sampleAnswer (sampleEntries 1000193))
    ⟨"/", 1, 1, false⟩ "") (some (number (999936 : ℕ))) := by
  set all := sampleEntries 1000193 with hall
  have hcandidates : (candidatesOf .sample (sampleAnswer all) ⟨"/", 1, 1, false⟩ "" all) =
      (List.range 1000193).map fun n : ℕ =>
        (openEntry "/" ⟨number n, false, false⟩).run (sampleAnswer all) := by
    have hfilter : all.filter (fun entry => safeEntry .sample entry.name && !entry.reparsePoint) =
        all := by
      refine List.filter_eq_self.2 fun entry hentry => ?_
      obtain ⟨n, -, rfl⟩ := List.mem_map.1 hentry
      exact Bool.and_eq_true_iff.2 ⟨safeEntry_number n, rfl⟩
    rw [candidatesOf, candidates, hfilter, hall, sampleEntries, List.map_map]
    rfl
  have hmore : (fill 256 ((candidatesOf .sample (sampleAnswer all) ⟨"/", 1, 1, false⟩ "" all).drop
      999936)).2 = true := by
    rw [hcandidates, ← List.map_drop, List.range_eq_range', List.drop_range']
    refine fill_of_all (fun candidate hmem => ?_) ?_
    · obtain ⟨n, hn, rfl⟩ := List.mem_map.1 hmem
      rw [List.mem_range'] at hn
      obtain ⟨i, hi, rfl⟩ := hn
      exact openEntry_sample (by omega) (by omega)
    · rw [List.length_map, List.length_range']
      omega
  have hcursor := numberOf_issued "" (show 999936 ≤ 2000000 by omega)
  intro h
  have hbound := (reply_continues_iff (scans_sample all) hcursor (by omega)).1 h (fill_more.1 hmore)
  omega

end WindowsFiles

end ServerHost
