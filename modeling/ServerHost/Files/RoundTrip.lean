import ServerHost.Files.Reading
import ServerHost.Files.Writers

/-!
# What was written is what is read

A client that wrote a file reads it back while any number of other writers go on.  Its calls
fall between theirs in any way, and a `pread` may take its bytes at several moments.

## Strategy

Once a request has succeeded, the node it published keeps its entry and its content
(`run_lasting`), because the other writers spare what they do not own; and a walk that
succeeded once goes the same way at every later moment.  So a reader is led to this node
(`Lasting.reaches`), and every byte it gets is of the data that was written.  Nothing is
assumed of versions here.
-/

namespace ServerHost

open Files Program

/-! ## Walks -/

namespace Files.FileSystem

theorem walk_concat (fs : FileSystem) (root : NodeId) (names more : List Name) :
    fs.walk root (names ++ more) = (fs.walk root names).bind fun node => fs.walk node more := by
  induction names generalizing root with
  | nil => rfl
  | cons name rest ih =>
      simp only [List.cons_append, walk]
      cases fs.entry root name with
      | none => rfl
      | some next =>
          simp only [Option.bind_some]
          split
          · exact ih next
          · rfl

/-- A step along an entry that leads to a directory. -/
theorem walk_singleton {fs : FileSystem} {node next : NodeId} {name : Name}
    (hentry : fs.entry node name = some next) (hkind : fs.kind next = some .directory) :
    fs.walk node [name] = some next := by
  simp [walk, hentry, hkind]

end Files.FileSystem

namespace FileShare

variable {ι : Type*} {provider : FileProvider} {share : ι → FileShare}
  {request : ι → JsonObject} {start : FileSystem} {trace : List (Writers ι × ι × Writers ι)}
  {state after : Writers ι} {i j : ι}

/-! ## After a request has succeeded -/

/-- The request has succeeded. -/
def Succeeded (i : ι) (state : Writers ι) : Prop :=
  ∃ reply, state.program i = .done reply ∧ reply.value "ok" = .bool true

/-- A moment of the run at which the request has succeeded. -/
def Later (i : ι) (trace : List (Writers ι × ι × Writers ι)) (state : Writers ι)
    (fs : FileSystem) : Prop :=
  ∃ moment ∈ state :: trace.map Prod.fst, Succeeded i moment ∧ fs = moment.fs

/-- Where the file is at all moments since, and where one gets on the way there. -/
structure Lasting (order : Order) (moment : FileSystem → Prop) (first : FileSystem)
    (directory node : NodeId) (data : Bytes) : Prop where
  written : order.data = .ok data
  walk : first.walk order.root order.parents = some directory
  ways : ∀ fs, moment fs → ∀ names found, first.walk order.root names = some found →
    fs.walk order.root names = some found
  entry : ∀ fs, moment fs → fs.entry directory order.name = some node
  content : ∀ fs, moment fs → fs.content node = some data

/-- What a writer that has succeeded knows. -/
theorem Ledger.stored {orders : ι → Order} {phases : ι → Phase}
    (h : Ledger orders start phases trace state) (hdone : Succeeded i state) :
    ∃ directory, phases i = .finished (some directory) ∧
      state.fs.walk (orders i).root (orders i).parents = some directory ∧
      Stored (orders i) state.fs directory := by
  obtain ⟨reply, hprogram, hok⟩ := hdone
  have hobeys := h.obeys i
  rw [hprogram] at hobeys
  obtain ⟨directory, hphase⟩ := Final.finished hobeys hok
  have hknows := h.knows i
  rw [hphase] at hknows
  exact ⟨directory, hphase, hknows⟩

/-- The moment of the success. -/
theorem Ledger.begins (hledger : ∃ phases,
      Ledger (fun i => orderOf provider (share i) (request i)) start phases trace state)
    (hdone : Succeeded i state) (hbefore : ∀ moment ∈ trace.map Prod.fst, ¬ Succeeded i moment) :
    ∃ first directory node data, Lasting (orderOf provider (share i) (request i))
      (Later i trace state) first directory node data := by
  obtain ⟨phases, hledger⟩ := hledger
  obtain ⟨directory, -, hwalk, node, data, hdata, hentry, hcontent⟩ := hledger.stored hdone
  have honly : ∀ fs, Later i trace state fs → fs = state.fs := by
    rintro fs ⟨moment, hmoment, hsucceeded, rfl⟩
    rcases List.mem_cons.1 hmoment with rfl | hold
    · rfl
    · exact absurd hsucceeded (hbefore moment hold)
  refine ⟨state.fs, directory, node, data, hdata, hwalk, fun fs hfs names found hfound => ?_,
    fun fs hfs => ?_, fun fs hfs => ?_⟩
  · rwa [honly fs hfs]
  · rwa [honly fs hfs]
  · rwa [honly fs hfs]

variable [DecidableEq ι]

/-- A request that has ended makes no call. -/
theorem Succeeded.other (h : Succeeded i state) (hstep : state.Step j after) : j ≠ i := by
  rintro rfl
  obtain ⟨reply, hdone, -⟩ := h
  obtain ⟨call, next, answer, hcall, -⟩ := hstep
  rw [hdone] at hcall
  cases hcall

theorem Succeeded.step (h : Succeeded i state) (hstep : state.Step j after) :
    Succeeded i after := by
  have hne := h.other hstep
  obtain ⟨reply, hdone, hok⟩ := h
  obtain ⟨call, next, answer, -, -, hafter⟩ := hstep
  exact ⟨reply, by rw [hafter, Function.update_of_ne hne.symm, hdone], hok⟩

/-- The moments only begin with the success. -/
theorem run_unfinished
    (run : (writers provider share request start).Run
      (fun before input => before.Step input.1 input.2) trace state)
    (h : ¬ Succeeded i state) : ∀ moment ∈ trace.map Prod.fst, ¬ Succeeded i moment := by
  induction run with
  | start => simp
  | @step trace before input run hstep ih =>
      have hbefore : ¬ Succeeded i before := fun hdone => h (hdone.step hstep)
      simpa using And.intro hbefore (by simpa using ih hbefore)

/-- What a call of another writer leaves. -/
theorem Ledger.keeps {orders : ι → Order} {phases : ι → Phase}
    (h : Ledger orders start phases trace state) (hstep : state.Step j after) {place node : NodeId}
    {name : Name} {content : Bytes} (howns : (phases i).Owns (orders i) place name) (hne : j ≠ i)
    (hentry : state.fs.entry place name = some node)
    (hcontent : state.fs.content node = some content) :
    (after.fs.entry place name = some node ∧ after.fs.content node = some content) ∧
      ∀ root names found, state.fs.walk root names = some found →
        after.fs.walk root names = some found := by
  obtain ⟨call, next, answer, hprogram, hdoes, -⟩ := hstep
  have hobeys := h.obeys j
  rw [hprogram] at hobeys
  have hact := act_of_does hobeys.1 hdoes
  have hknows := h.knows j
  exact ⟨hact.keeps hknows (h.disjoint i j hne.symm place name howns) hentry hcontent,
    fun _ _ _ hfound => (hact.spares hknows).walk hknows hfound⟩

/-- **A file that was written stays where it is, with its data.** -/
theorem run_lasting (hop : ∀ i, ((request i).value "op").toString = "write")
    (run : (writers provider share request start).Run
      (fun before input => before.Step input.1 input.2) trace state) (hdone : Succeeded i state) :
    ∃ first directory node data, Lasting (orderOf provider (share i) (request i))
      (Later i trace state) first directory node data := by
  induction run with
  | start hinit => exact Ledger.begins (run_ledger hop (.start hinit)) hdone (by simp)
  | @step trace before input run hstep ih =>
      by_cases hbefore : Succeeded i before
      · obtain ⟨first, directory, node, data, hlasting⟩ := ih hbefore
        obtain ⟨phases, hledger⟩ := run_ledger hop run
        obtain ⟨own, hphase, hwalk, -⟩ := hledger.stored hbefore
        have hnow : Later i trace before before.fs := ⟨before, List.mem_cons_self, hbefore, rfl⟩
        obtain rfl : own = directory :=
          Option.some.inj (hwalk.symm.trans (hlasting.ways _ hnow _ _ hlasting.walk))
        have howns : (phases i).Owns (orderOf provider (share i) (request i)) own
            (orderOf provider (share i) (request i)).name := by
          rw [hphase]
          exact ⟨rfl, rfl⟩
        obtain ⟨⟨hentry, hcontent⟩, hways⟩ := hledger.keeps hstep howns (hbefore.other hstep)
          (hlasting.entry _ hnow) (hlasting.content _ hnow)
        -- The new moment is like the last one, and the others are there already.
        have hlater : ∀ fs, Later i ((before, input) :: trace) input.2 fs →
            fs = input.2.fs ∨ Later i trace before fs := by
          rintro fs ⟨moment, hmoment, hsucceeded, rfl⟩
          rcases List.mem_cons.1 hmoment with rfl | hold
          · exact .inl rfl
          · exact .inr ⟨moment, hold, hsucceeded, rfl⟩
        refine ⟨first, own, node, data, hlasting.written, hlasting.walk,
          fun fs hfs names found hfound => ?_, fun fs hfs => ?_, fun fs hfs => ?_⟩
        · rcases hlater fs hfs with rfl | hold
          · exact hways _ _ _ (hlasting.ways _ hnow _ _ hfound)
          · exact hlasting.ways fs hold names found hfound
        · rcases hlater fs hfs with rfl | hold
          · exact hentry
          · exact hlasting.entry fs hold
        · rcases hlater fs hfs with rfl | hold
          · exact hcontent
          · exact hlasting.content fs hold
      · have hrun : (writers provider share request start).Run
            (fun before input => before.Step input.1 input.2) ((before, input) :: trace) input.2 :=
          .step run hstep
        refine Ledger.begins (run_ledger hop hrun) hdone fun moment hmoment => ?_
        rcases List.mem_cons.1 hmoment with rfl | hold
        · exact hbefore
        · exact run_unfinished run hbefore moment hold

/-! ## A reader among the writers -/

/-- A read opened a node and got bytes that the file had there, at some moments. -/
structure Fetched (provider : FileProvider) (share : FileShare) (path : String) (offset : ℕ)
    (events : List Event) (node : NodeId) (stat : Stat) (bytes : Bytes) : Prop where
  relative : relative provider path = true
  opened : ∃ opening after, events = opening ++ after ∧
    Opened provider share false (components path) opening node
  measured : ∃ fs ∈ moments events, fs.stat node = some stat
  regular : stat.kind = .regular
  torn : Torn (moments events) node (min (chunkBytes : ℤ) (stat.size - offset)).toNat offset bytes

theorem runs_read_fetched {reader : FileShare} {path : String} {asked : JsonObject}
    {events : List Event} {reply : JsonObject} {offset : ℕ}
    (hrelative : FileShare.relative provider path = true)
    (h : Runs (reader.read provider "read" path asked) events reply)
    (hoffset : ∀ value, numberOf asked "offset" = some value → value = offset)
    (hok : reply.value "ok" = .bool true) :
    ∃ node stat bytes, Fetched provider reader path offset events node stat bytes ∧
      reply = readReply stat offset bytes := by
  -- each refusal answers without `ok`, which leaves the run through to the chunk
  obtain ⟨opening, after, fd, rfl, hopening, hafter⟩ := runs_bind_iff.1 h
  cases fd with
  | none => exact absurd hok (not_ok_of_error rfl hafter)
  | some node =>
      have hopened := runs_confined (fun part => ordinary_of_relative hrelative) hopening
      obtain ⟨stat, event, others, rfl, ⟨-, htook⟩, hrest⟩ := runs_call_iff.1 hafter
      cases stat with
      | none => exact absurd hok (not_ok_of_error rfl hrest)
      | some stat =>
          obtain ⟨fs, hfs, _, -, hdoes⟩ := mem_of_took htook
          obtain ⟨-, hanswer⟩ := hdoes (by simp [Call.names])
          dsimp only at hrest
          split at hrest
          · exact absurd hok (not_ok_of_error rfl hrest)
          next hregular =>
          split at hrest
          · exact absurd hok (not_ok_of_error rfl hrest)
          rw [if_neg (by decide)] at hrest
          split at hrest
          · exact absurd hok (not_ok_of_error rfl hrest)
          next found hfound =>
          rw [hoffset found (Option.filter_eq_some_iff.1 hfound).1] at hrest
          obtain ⟨bytes, second, third, rfl, rfl, htorn, -⟩ := runs_readChunk hrest hok
          refine ⟨node, stat, bytes, ⟨hrelative, ⟨opening, _, rfl, hopened⟩,
            ⟨fs, ?_, hanswer stat rfl⟩, not_not.1 hregular, htorn.mono fun fs hfs => ?_⟩, rfl⟩
          · simp [moments, hfs]
          · simp [moments, hfs]

/-- The way along the directories and the last name leads to the node. -/
theorem Lasting.reaches {order : Order} {moment : FileSystem → Prop} {first : FileSystem}
    {directory node found here : NodeId} {data : Bytes}
    (h : Lasting order moment first directory node data) {events : List Event}
    {names : List Name} {parts : List String} {last : String}
    (hevents : ∀ fs ∈ moments events, moment fs)
    (hnames : names ++ parts.map provider.encodeName = order.parents)
    (hlast : provider.encodeName last = order.name)
    (hhere : first.walk order.root names = some here)
    {onlyDirectory : Bool}
    (hreaches : Reaches provider onlyDirectory events here (parts ++ [last]) found) :
    found = node := by
  induction parts generalizing names here events with
  | nil =>
      rw [List.map_nil, List.append_nil] at hnames
      cases hreaches with
      | @child event _ _ next _ _ _ fs kind hfs hentry hkind hlink hdirectory hrest =>
          cases hrest with
          | here =>
              have hmoment : moment fs := hevents fs (by simp [moments, hfs])
              obtain rfl : here = directory := by
                rw [hnames, h.walk] at hhere
                exact (Option.some.inj hhere).symm
              rw [hlast, h.entry fs hmoment] at hentry
              exact (Option.some.inj hentry).symm
  | cons part rest ih =>
      cases hreaches with
      | @child event others _ next _ _ _ fs kind hfs hentry hkind hlink hdirectory hrest =>
          have hmoment : moment fs := hevents fs (by simp [moments, hfs])
          obtain rfl : kind = .directory := hdirectory (.inr (by simp))
          -- The first moment has a way along this name too, and it is the same.
          have hwalk : first.walk order.root (names ++ [provider.encodeName part]) = some next := by
            have hwhole := h.walk
            rw [← hnames, List.map_cons, List.append_cons, FileSystem.walk_concat] at hwhole
            obtain ⟨other, hother, -⟩ := Option.bind_eq_some_iff.1 hwhole
            have hthere := h.ways fs hmoment _ _ hother
            rw [FileSystem.walk_concat, h.ways fs hmoment _ _ hhere, Option.bind_some,
              FileSystem.walk_singleton hentry hkind] at hthere
            rw [hother, ← hthere]
          refine ih (fun fs hfs => hevents fs ?_) ?_ hwalk hrest
          · simp only [moments, List.flatMap_cons]
            exact List.mem_append_right _ hfs
          · rw [← hnames, List.map_cons, List.append_assoc, List.singleton_append]

/-- A reader of the path is led to the file, and its bytes are of the data. -/
theorem Lasting.fetched {asked : JsonObject} {writer reader : FileShare}
    {moment : FileSystem → Prop} {first : FileSystem} {directory node found : NodeId} {data : Bytes}
    (h : Lasting (orderOf provider writer asked) moment first directory node data)
    (hroot : (⟨writer.device, writer.inode⟩ : NodeId) = ⟨reader.device, reader.inode⟩)
    {events : List Event} (hevents : ∀ fs ∈ moments events, moment fs) {offset : ℕ} {stat : Stat}
    {bytes : Bytes} (hfetched : Fetched provider reader (asked.value "path").toString offset events
      found stat bytes) :
    stat.size = data.length ∧ bytes = (data.drop offset).take bytes.length ∧
      (bytes = [] → data.length ≤ offset) := by
  obtain ⟨opening, rest, hsplit, hopened⟩ := hfetched.opened
  obtain ⟨before, second, others, rfl, -, hreaches⟩ := hopened.way
  obtain ⟨fs, hfs, hstat⟩ := hfetched.measured
  -- What was opened is a regular file, whose content is the one that was written.
  obtain ⟨content, hcontent, hsize⟩ := content_of_stat hstat hfetched.regular
  have hothers : ∀ fs ∈ moments others, moment fs := fun fs hfs => hevents fs (by
    rw [hsplit]
    simp only [moments, List.cons_append, List.flatMap_cons, List.flatMap_append] at hfs ⊢
    simp [hfs])
  rw [← hroot] at hreaches
  obtain rfl : found = node := by
    by_cases hempty : (asked.value "path").toString = ""
    · -- The root is a directory and has no content.
      rw [hempty] at hreaches
      cases hreaches
      have hdirectory : first.walk (orderOf provider writer asked).root [] = some directory := by
        have hwalk := h.walk
        simpa [orderOf, hempty, parentPath, components] using hwalk
      obtain rfl := Option.some.inj hdirectory
      have hentries := FileSystem.isSome_entries_of_entry fs _ _ (h.entry fs (hevents fs hfs))
      have hnone := FileSystem.entries_none_of_content hcontent
      simp [orderOf, hnone] at hentries
    · rw [components_eq hfetched.relative hempty] at hreaches
      exact h.reaches hothers (List.nil_append _) rfl rfl hreaches
  obtain rfl : content = data :=
    Option.some.inj (hcontent.symm.trans (h.content fs (hevents fs hfs)))
  refine ⟨hsize, ?_, fun hnone => ?_⟩
  · refine List.ext_getElem? fun k => ?_
    -- Each byte was read at some moment, and at all of them the content is the same.
    rcases lt_or_ge k bytes.length with hk | hk
    · obtain ⟨at_, hat, other, hother, hread⟩ :=
        hfetched.torn.byte k _ (List.getElem?_eq_getElem hk)
      obtain rfl := Option.some.inj (hother.symm.trans (h.content at_ (hevents at_ hat)))
      rw [List.getElem?_take_of_lt hk, List.getElem?_drop, List.getElem?_eq_getElem hk]
      exact hread.symm
    · rw [List.getElem?_eq_none hk, List.getElem?_eq_none]
      rw [List.length_take]
      omega
  · rcases hfetched.torn.positive hnone with hzero | ⟨at_, hat, other, hother, hshort⟩
    · unfold chunkBytes at hzero
      omega
    · obtain rfl := Option.some.inj (hother.symm.trans (h.content at_ (hevents at_ hat)))
      simpa using hshort

/-- What one reply says about the data. -/
theorem Lasting.chunk {asked : JsonObject} {writer reader : FileShare}
    {moment : FileSystem → Prop} {first : FileSystem} {directory node : NodeId} {data : Bytes}
    (h : Lasting (orderOf provider writer asked) moment first directory node data)
    (hroot : (⟨writer.device, writer.inode⟩ : NodeId) = ⟨reader.device, reader.inode⟩)
    {v : String} {offset : ℕ} {events : List Event} {reply : JsonObject} {bytes : Bytes}
    (hruns : Runs (reader.handle provider (readRequest (asked.value "path").toString v offset))
      events reply)
    (hok : reply.value "ok" = .bool true) (hbytes : FileShare.chunk reply = some bytes)
    (hevents : ∀ fs ∈ moments events, moment fs) :
    bytes = (data.drop offset).take bytes.length ∧
      reply.value "eof" = .bool (decide (offset + bytes.length = data.length)) ∧
      (bytes = [] → data.length ≤ offset) := by
  unfold handle at hruns
  dsimp only at hruns
  split at hruns
  · exact absurd hok (not_ok_of_error rfl hruns)
  obtain ⟨resolving, rest, absolute, rfl, hresolving, hrest⟩ := runs_bind_iff.1 hruns
  split at hrest
  · exact absurd hok (not_ok_of_error rfl hrest)
  next habsolute =>
  rw [readRequest_op, if_neg (by decide), if_pos (.inl rfl)] at hrest
  have hpath : ((readRequest (asked.value "path").toString v offset).value "path").toString =
      (asked.value "path").toString := by
    simp [readRequest, JsonObject.value, List.lookup_cons, Json.toString]
  rw [hpath] at hresolving hrest
  have hoffset : ∀ value, numberOf (readRequest (asked.value "path").toString v offset) "offset" =
      some value → value = offset := by
    intro value hvalue
    rw [readRequest_offset, longLong_number] at hvalue
    split at hvalue
    · exact (Option.some.inj hvalue).symm
    · cases hvalue
  -- what the reader fetched lies in the file that lasts, whose size it reports as well
  obtain ⟨found, stat, own, hfetched, rfl⟩ :=
    runs_read_fetched (runs_resolve hresolving habsolute) hrest hoffset hok
  obtain rfl : own = bytes := Option.some.inj ((chunk_readReply _ _ _).symm.trans hbytes)
  obtain ⟨hsize, hread, hempty⟩ := h.fetched hroot
    (fun fs hfs => hevents fs (by simp [moments_append, hfs])) hfetched
  refine ⟨hread, ?_, hempty⟩
  rw [readReply_eof, hsize]
  norm_cast

/-- The chunks from an offset on are the rest of the data. -/
theorem Lasting.flatten {asked : JsonObject} {writer reader : FileShare}
    {moment : FileSystem → Prop} {first : FileSystem} {directory node : NodeId} {data : Bytes}
    (h : Lasting (orderOf provider writer asked) moment first directory node data)
    (hroot : (⟨writer.device, writer.inode⟩ : NodeId) = ⟨reader.device, reader.inode⟩)
    {v : String} {offset : ℕ} {parts : List (List Event)} {chunks : List Bytes}
    (hreads : Reads provider reader (asked.value "path").toString v offset parts chunks)
    (hevents : ∀ fs ∈ moments parts.flatten, moment fs) : chunks.flatten = data.drop offset := by
  induction hreads with
  | last hruns hok hbytes hend =>
      obtain ⟨hread, heof, -⟩ := h.chunk hroot hruns hok hbytes fun fs hfs =>
        hevents fs (by simpa using hfs)
      have hcount := of_decide_eq_true (Json.bool.inj (heof.symm.trans hend))
      rw [List.flatten_cons, List.flatten_nil, List.append_nil, hread, List.take_of_length_le]
      rw [List.length_drop]
      omega
  | @more offset events rest reply bytes others hruns hok hbytes hend hrest ih =>
      obtain ⟨hread, -, -⟩ := h.chunk hroot hruns hok hbytes
        fun fs hfs => hevents fs (by simp [moments_append, hfs])
      have hothers := ih fun fs hfs => hevents fs (by simp [moments_append, hfs])
      calc (bytes :: others).flatten
          = (data.drop offset).take bytes.length ++ (data.drop offset).drop bytes.length := by
            rw [List.flatten_cons, hothers, ← List.drop_drop, ← hread]
        _ = data.drop offset := List.take_append_drop _ _

/-- **What was written is what is read**: once a `write` request has succeeded, whoever reads
its path to the end gets its data, however the calls fall among those of other writers. -/
theorem write_read (hop : ∀ i, ((request i).value "op").toString = "write")
    (run : (writers provider share request start).Run
      (fun before input => before.Step input.1 input.2) trace state) {reader : FileShare}
    (hroot : (⟨(share i).device, (share i).inode⟩ : NodeId) = ⟨reader.device, reader.inode⟩)
    {v : String} {parts : List (List Event)} {chunks : List Bytes}
    (hreads : Reads provider reader ((request i).value "path").toString v 0 parts chunks)
    (hlater : ∀ fs ∈ moments parts.flatten, Later i trace state fs) (hdone : Succeeded i state) :
    decodeData (request i) = .ok chunks.flatten := by
  obtain ⟨first, directory, node, data, hlasting⟩ := run_lasting hop run hdone
  rw [hlasting.flatten hroot hreads hlater, List.drop_zero]
  exact hlasting.written

/-! ### The first of two writers is read -/

omit [DecidableEq ι] in
theorem succeeded_of_outcome (h : outcome (state.program i) = some true) : Succeeded i state := by
  cases hprogram : state.program i with
  | done reply =>
      rw [hprogram] at h
      exact ⟨reply, hprogram, Json.eq_bool_of_toBool (Option.some.inj h)⟩
  | call made next =>
      rw [hprogram] at h
      cases h

/-- The file system after the writers of the sample. -/
def written : Writers Bool := sampleTurns.foldl turn
  ⟨sampleTree, fun i => handle .sample ⟨"/", 1, 1, false⟩ (sampleRequests i)⟩

/-- What a client is told then. -/
def told (asked : JsonObject) : JsonObject :=
  (handle .sample ⟨"/", 1, 1, false⟩ asked).run written.fs.answer

/-- The request for the whole file, with the version that `stat` tells. -/
def readBack : JsonObject :=
  readRequest "d/n" ((told (statRequest "d/n")).value "version").toString 0

theorem write_read_sample : ∃ (trace : List (Writers Bool × Bool × Writers Bool)) (v : String)
    (parts : List (List Event)),
    Reads .sample ⟨"/", 1, 1, false⟩ "d/n" v 0 parts [[1, 2, 3]] ∧
      (∀ fs ∈ moments parts.flatten, Later false trace written fs) ∧
      decodeData (sampleRequests false) = .ok [1, 2, 3] := by
  have hfirst : (writers .sample (fun _ => ⟨"/", 1, 1, false⟩) sampleRequests sampleTree).Run
      (fun before input => before.Step input.1 input.2) []
      ⟨sampleTree, fun i => handle .sample ⟨"/", 1, 1, false⟩ (sampleRequests i)⟩ := .start rfl
  obtain ⟨trace, run⟩ := run_turns hfirst sampleTurns
  have hdone : Succeeded false written := succeeded_of_outcome (by decide +kernel)
  have hpath : ((sampleRequests false).value "path").toString = "d/n" := by
    simp [sampleRequests, JsonObject.value, List.lookup_cons, Json.toString]
  -- the reader comes when both writers are done, so nothing changes between its calls
  let event : Call → Event := fun call => ⟨call, written.fs.answer call, [written.fs, written.fs]⟩
  have hmakes : ∀ call, Makes call (written.fs.answer call) (event call) :=
    fun call => ⟨rfl, written.fs.took_answer call⟩
  have hlater : ∀ fs ∈ moments [(handle .sample ⟨"/", 1, 1, false⟩ readBack).trace
      written.fs.answer event].flatten, Later false trace written fs := by
    intro fs hfs
    rw [List.flatten_cons, List.flatten_nil, List.append_nil] at hfs
    obtain ⟨own, hown, hmem⟩ := List.mem_flatMap.1 hfs
    obtain ⟨call, rfl⟩ := mem_trace hown
    exact ⟨written, List.mem_cons_self, hdone, by simpa [event] using hmem⟩
  have hruns := runs_run hmakes (handle .sample ⟨"/", 1, 1, false⟩ readBack)
  have hread : ((told readBack).value "ok").toBool = true ∧
      FileShare.chunk (told readBack) = some [1, 2, 3] ∧
      ((told readBack).value "eof").toBool = true := by decide +kernel
  have hreads := Reads.last hruns (Json.eq_bool_of_toBool hread.1) hread.2.1
    (Json.eq_bool_of_toBool hread.2.2)
  refine ⟨trace, _, _, hreads, hlater, ?_⟩
  exact write_read (fun i => by simp [sampleRequests, JsonObject.value, Json.toString]) run rfl
    (hpath ▸ hreads) hlater hdone

end FileShare

end ServerHost
