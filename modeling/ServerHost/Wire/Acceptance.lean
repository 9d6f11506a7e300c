import ServerHost.Library.Program
import ServerHost.Wire.Frame

/-!
# What the decoder of binary frames accepts

`BinaryFrame::decode` meets bytes anyone may have written.  Three things are shown of
it, for any bytes:

* it is a program that reads bytes of the frame, and reads none outside
  (`decodeReading_within`, `run_decodeReading`);
* it accepts a frame when the frame is a magic, a length, a header of that length and
  data behind it, within the limits, and the message of the header has room for the
  data (`decode_of_shape`, `shape_of_decode`);
* what it returns is the message with the data put there, and otherwise the same
  (`filled_replace`).

What stands at a path is said by `member`, which knows nothing of how the decoder
walks.
-/

namespace ServerHost

namespace BinaryFrame

/-! ## The bytes that are read -/

/-- A computation that reads bytes of a frame by their index. -/
abbrev Reading := Program ℕ fun _ => UInt8

/-- So many bytes, from an offset on. -/
def bytesFrom : ℕ → ℕ → Reading Bytes
  | _, 0 => .done []
  | offset, count + 1 =>
      .call offset fun byte => (bytesFrom (offset + 1) count).bind fun rest => .done (byte :: rest)

/-- `decode`, as it reads a frame of this length. -/
def decodeReading (fromJson : Bytes → Option JsonObject) (length : ℕ) : Reading JsonObject :=
  if length < 9 ∨ length > maximumHeader + maximumPayload + 8 then .done ⟨[]⟩
  else (bytesFrom 0 4).bind fun start =>
    if start ≠ magic then .done ⟨[]⟩
    else (bytesFrom 4 4).bind fun bigEndian =>
      let size := fromBigEndian bigEndian
      if size = 0 ∨ size > maximumHeader ∨ size ≥ length - 8 ∨
          length - 8 - size > maximumPayload then .done ⟨[]⟩
      else (bytesFrom 8 size).bind fun head =>
        match fromJson head with
        | none => .done ⟨[]⟩
        | some header => (bytesFrom (8 + size) (length - 8 - size)).bind fun data =>
            .done (assemble header data)

/-- Only indices below the length may be read, and any byte may be found there. -/
def within (length : ℕ) : Protocol ℕ (fun _ => UInt8) Unit where
  allows _ index := index < length
  possible _ _ := True
  next _ _ _ := ()

theorem bytesFrom_within {length count : ℕ} : ∀ {offset : ℕ}, offset + count ≤ length →
    (bytesFrom offset count).Obeys (within length) (fun _ _ => True) () := by
  induction count with
  | zero => exact fun _ => trivial
  | succ count ih =>
      intro offset h
      refine ⟨show offset < length by omega, fun byte _ => ?_⟩
      exact (ih (by omega)).bind fun _ _ _ => trivial

/-- **No byte outside the frame is read**, whatever the bytes inside are. -/
theorem decodeReading_within (fromJson : Bytes → Option JsonObject) (length : ℕ) :
    (decodeReading fromJson length).Obeys (within length) (fun _ _ => True) () := by
  unfold decodeReading
  split
  · trivial
  next hlength =>
  rw [not_or, not_lt, not_lt] at hlength
  refine (bytesFrom_within (by omega)).bind fun _ start _ => ?_
  split
  · trivial
  refine (bytesFrom_within (by omega)).bind fun _ bigEndian _ => ?_
  dsimp only
  split
  · trivial
  next hsize =>
  -- the size that was read keeps the header and the data apart, inside the frame
  obtain ⟨-, -, hsize, -⟩ : _ ∧ _ ∧ ¬ fromBigEndian bigEndian ≥ length - 8 ∧ _ := by
    simpa only [not_or] using hsize
  refine (bytesFrom_within (by omega)).bind fun _ head _ => ?_
  split
  · trivial
  · exact (bytesFrom_within (by omega)).bind fun _ _ _ => trivial

theorem run_bytesFrom {frame : Bytes} {count : ℕ} : ∀ {offset : ℕ}, offset + count ≤ frame.length →
    (bytesFrom offset count).run (fun index => frame.getD index 0) =
      (frame.drop offset).take count := by
  induction count with
  | zero => exact fun _ => rfl
  | succ count ih =>
      intro offset h
      have hlt : offset < frame.length := by omega
      rw [bytesFrom, Program.run_call, Program.run_bind, ih (by omega), Program.run_done,
        List.drop_eq_getElem_cons hlt, List.take_succ_cons, List.getD_eq_getElem?_getD,
        List.getElem?_eq_getElem hlt, Option.getD_some]

/-- With the bytes of the frame, the reading program is the decoder. -/
theorem run_decodeReading (fromJson : Bytes → Option JsonObject) (frame : Bytes) :
    (decodeReading fromJson frame.length).run (fun index => frame.getD index 0) =
      decode fromJson frame := by
  unfold decodeReading decode
  by_cases hlength : frame.length < 9 ∨ frame.length > maximumHeader + maximumPayload + 8
  · rw [if_pos hlength, if_pos (hlength.imp_right .inl)]
    rfl
  have hlong : 9 ≤ frame.length := not_lt.1 (not_or.1 hlength).1
  have hmagic : magic.isPrefixOf frame = true ↔ frame.take 4 = magic := by
    rw [List.isPrefixOf_iff_prefix, List.prefix_iff_eq_take]
    exact eq_comm
  rw [if_neg hlength, Program.run_bind, run_bytesFrom (by omega), List.drop_zero]
  by_cases hstart : frame.take 4 = magic
  swap
  · rw [if_pos hstart, if_pos (.inr (.inr fun h => hstart (hmagic.1 h)))]
    rfl
  rw [if_neg (not_not.2 hstart), if_neg, Program.run_bind, run_bytesFrom (by omega)]
  swap
  · rintro (h | h | h)
    · exact hlength (.inl h)
    · exact hlength (.inr h)
    · exact h (hmagic.2 hstart)
  dsimp only
  split
  · rfl
  next hsize =>
  obtain ⟨-, -, hsize, -⟩ :
      _ ∧ _ ∧ ¬ fromBigEndian ((frame.drop 4).take 4) ≥ frame.length - 8 ∧ _ := by
    simpa only [not_or] using hsize
  rw [Program.run_bind, run_bytesFrom (by omega)]
  cases fromJson ((frame.drop 8).take (fromBigEndian ((frame.drop 4).take 4))) with
  | none => rfl
  | some header =>
      dsimp only
      rw [Program.run_bind, run_bytesFrom (by omega), Program.run_done, List.take_of_length_le]
      rw [List.length_drop]
      omega

/-! ## What stands at a path -/

/-- What is found under these keys, one object inside the other. -/
def member : List String → Json → Option Json
  | [], value => some value
  | key :: rest, .object fields => (fields.lookup key).bind (member rest)
  | _ :: _, _ => none

/-- There are objects along the path, and nothing stands at its end. -/
structure Room (path : List String) (message : JsonObject) : Prop where
  along : ∀ keys, keys <+: path → keys ≠ path →
    ∃ fields, member keys message.json = some (.object fields)
  free : member path message.json = none

/-- The result has the text at the path, and all else is as in the message. -/
structure Filled (path : List String) (text : String) (message result : JsonObject) : Prop where
  filled : member path result.json = some (.string text)
  same : ∀ keys, ¬ keys <+: path → member keys result.json = member keys message.json
  along : ∀ keys, keys <+: path → keys ≠ path →
    ∃ fields, member keys result.json = some (.object fields)

variable {object message : JsonObject} {key next : String} {path rest : List String} {text : String}

theorem member_cons (key : String) (rest : List String) (object : JsonObject) :
    member (key :: rest) object.json = (object.fields.lookup key).bind (member rest) := rfl

theorem value_of_lookup {value : Json} (h : object.fields.lookup key = some value) :
    object.value key = value := by
  rw [JsonObject.value, h]
  rfl

theorem isObject_iff : (object.value key).isObject = true ↔
    ∃ inner : JsonObject, object.fields.lookup key = some inner.json := by
  constructor
  · intro h
    have hjson := json_of_isObject h
    refine ⟨(object.value key).toObject, ?_⟩
    rw [← hjson]
    apply JsonObject.value_eq_of_ne_undefined
    rw [hjson]
    simp [JsonObject.json]
  · rintro ⟨inner, hinner⟩
    rw [value_of_lookup hinner]
    rfl

theorem room_last : Room [key] object ↔ object.contains key = false := by
  have hmember : member [key] object.json = none ↔ object.contains key = false := by
    rw [member_cons, JsonObject.contains, Option.isSome_eq_false_iff, Option.isNone_iff_eq_none]
    cases object.fields.lookup key with
    | none => simp
    | some value => simp [member]
  constructor
  · exact fun h => hmember.1 h.free
  · intro h
    refine ⟨fun keys hkeys hne => ?_, hmember.2 h⟩
    rcases List.prefix_cons_iff.1 hkeys with rfl | ⟨tail, rfl, htail⟩
    · exact ⟨object.fields, rfl⟩
    · rw [List.prefix_nil.1 htail] at hne
      exact absurd rfl hne

theorem room_cons : Room (key :: next :: rest) object ↔
    ∃ inner : JsonObject, object.fields.lookup key = some inner.json ∧
      Room (next :: rest) inner := by
  constructor
  · intro h
    obtain ⟨fields, hfields⟩ := h.along [key] ⟨next :: rest, rfl⟩ (by simp)
    obtain ⟨value, hvalue, hmember⟩ := Option.bind_eq_some_iff.1 hfields
    obtain rfl : value = .object fields := Option.some.inj hmember
    refine ⟨⟨fields⟩, hvalue, fun keys hkeys hne => ?_, ?_⟩
    · have hmore := h.along (key :: keys) (List.cons_prefix_cons.2 ⟨rfl, hkeys⟩)
          (by simpa using hne)
      rw [member_cons, hvalue] at hmore
      exact hmore
    · have hfree := h.free
      rw [member_cons, hvalue] at hfree
      exact hfree
  · rintro ⟨inner, hinner, h⟩
    refine ⟨fun keys hkeys hne => ?_, ?_⟩
    · rcases List.prefix_cons_iff.1 hkeys with rfl | ⟨tail, rfl, htail⟩
      · exact ⟨object.fields, rfl⟩
      · rw [member_cons, hinner]
        exact h.along tail htail (by simpa using hne)
    · rw [member_cons, hinner]
      exact h.free

/-- The walk of the decoder ends in an object without data when there is room. -/
theorem parent_iff (hdata : path.getLast? = some "data") :
    (∃ place, parent path message = some place ∧ place.contains "data" = false) ↔
      Room path message := by
  induction path, message using parent.induct with
  | case1 message => cases hdata
  | case2 last message =>
      obtain rfl : last = "data" := by simpa using hdata
      rw [room_last]
      exact ⟨fun ⟨place, hplace, hfree⟩ => Option.some.inj hplace ▸ hfree,
        fun hfree => ⟨message, rfl, hfree⟩⟩
  | case3 key next rest message hobject ih =>
      obtain ⟨inner, hinner⟩ := isObject_iff.1 hobject
      rw [parent, if_pos hobject, ih (by simpa using hdata), room_cons, value_of_lookup hinner]
      constructor
      · exact fun h => ⟨inner, hinner, h⟩
      · rintro ⟨other, hother, h⟩
        obtain rfl : inner = other := by
          have heq := Option.some.inj (hinner.symm.trans hother)
          exact congrArg Json.toObject heq
        exact h
  | case4 key next rest message hobject =>
      rw [parent, if_neg hobject, room_cons]
      constructor
      · rintro ⟨place, hplace, -⟩
        cases hplace
      · rintro ⟨inner, hinner, -⟩
        exact absurd (isObject_iff.2 ⟨inner, hinner⟩) hobject

/-! ## Putting the data there -/

theorem member_insert (h : object.Normal) (value : Json) :
    member (key :: rest) (object.insert key value).json = member rest value := by
  rw [member_cons, JsonObject.insert, Fields.lookup_insert h.sorted]
  rfl

theorem member_insert_of_ne (h : object.Normal) (value : Json) {other : String}
    (hne : other ≠ key) : member (other :: rest) (object.insert key value).json =
      member (other :: rest) object.json := by
  rw [member_cons, member_cons, JsonObject.insert, Fields.lookup_insert_of_ne h.sorted hne]

/-- **Where there is room, only the data is added.** -/
theorem filled_replace (h : object.Normal) (hpath : path ≠ []) (hroom : Room path object) :
    Filled path text object (replace (.string text) path object) := by
  induction path, object using parent.induct with
  | case1 => exact absurd rfl hpath
  | case2 last object =>
      have hreplace : replace (.string text) [last] object = object.insert last (.string text) :=
        rfl
      rw [hreplace]
      refine ⟨member_insert h _, fun keys hkeys => ?_, fun keys hkeys hne => ?_⟩
      -- What the path does not lead into is as before.
      · cases keys with
        | nil => exact absurd (List.nil_prefix) hkeys
        | cons other more =>
            by_cases hother : other = last
            · subst hother
              cases more with
              | nil => exact absurd (List.prefix_refl _) hkeys
              | cons key more =>
                  have hfree := room_last.1 hroom
                  rw [JsonObject.contains, Option.isSome_eq_false_iff,
                    Option.isNone_iff_eq_none] at hfree
                  rw [member_insert h, member_cons, hfree]
                  rfl
            · exact member_insert_of_ne h _ hother
      -- And along the path there are objects.
      · rcases List.prefix_cons_iff.1 hkeys with rfl | ⟨tail, rfl, htail⟩
        · exact ⟨_, rfl⟩
        · rw [List.prefix_nil.1 htail] at hne
          exact absurd rfl hne
  | case3 key next rest object hobject ih =>
      obtain ⟨inner, hinner, hinside⟩ := room_cons.1 hroom
      have hvalue := value_of_lookup hinner
      have hnormal := normal_toObject h hobject
      rw [hvalue] at ih hnormal
      obtain ⟨hfilled, hsame, halong⟩ := ih hnormal (List.cons_ne_nil _ _) hinside
      have hreplace : replace (.string text) (key :: next :: rest) object =
          object.insert key (replace (.string text) (next :: rest) inner).json := by
        rw [replace, hvalue]
        rfl
      rw [hreplace]
      refine ⟨(member_insert h _).trans hfilled, fun keys hkeys => ?_, fun keys hkeys hne => ?_⟩
      · cases keys with
        | nil => exact absurd (List.nil_prefix) hkeys
        | cons other more =>
            by_cases hother : other = key
            · subst hother
              rw [member_insert h, member_cons, hinner]
              exact hsame more fun hmore => hkeys (List.cons_prefix_cons.2 ⟨rfl, hmore⟩)
            · exact member_insert_of_ne h _ hother
      · rcases List.prefix_cons_iff.1 hkeys with rfl | ⟨tail, rfl, htail⟩
        · exact ⟨_, rfl⟩
        · rw [member_insert h]
          exact halong tail htail (by simpa using hne)
  | case4 key next rest object hobject =>
      obtain ⟨inner, hinner, -⟩ := room_cons.1 hroom
      exact absurd (isObject_iff.2 ⟨inner, hinner⟩) hobject

/-! ## Headers -/

/-- The header with this index and message. -/
def headerOf (index : ℕ) (message : JsonObject) : JsonObject :=
  ⟨[("message", message.json), ("path", .double index)]⟩

/-- The two fields of a header are all it has. -/
theorem fields_eq {header : JsonObject} {index value : Json} (h : header.Normal)
    (hlength : header.fields.length = 2) (hpath : header.fields.lookup "path" = some index)
    (hmessage : header.fields.lookup "message" = some value) :
    header.fields = [("message", value), ("path", index)] := by
  have hsorted := h.sorted
  obtain ⟨first, second, hfields⟩ := List.length_eq_two.1 hlength
  have hfirst := (Fields.lookup_eq_some hsorted).1 hmessage
  have hsecond := (Fields.lookup_eq_some hsorted).1 hpath
  rw [hfields] at hsorted hfirst hsecond ⊢
  have hlt : first.1 < second.1 := hsorted.lt_of_mem List.mem_cons_self
  rw [List.mem_pair] at hfirst hsecond
  have hne : "path" ≠ "message" := by decide
  rcases hfirst with rfl | rfl
  · rcases hsecond with hsame | rfl
    · exact absurd (congrArg Prod.fst hsame) hne
    · rfl
  · rcases hsecond with rfl | hsame
    · have hout : ¬ "path" < "message" := by decide
      exact absurd hlt hout
    · exact absurd (congrArg Prod.fst hsame) hne

/-- A number that passes both readings is the index itself. -/
theorem eq_double_of_toInt {value : Json} (hlow : ¬ toInt (-1) value < 0)
    (hsame : toDouble value = toInt (-1) value) : value = .double (toInt (-1) value).toNat := by
  cases value with
  | double number =>
      have hindex : ((toInt (-1) (.double number)).toNat : ℤ) = toInt (-1) (.double number) :=
        Int.toNat_of_nonneg (not_lt.1 hlow)
      have hnumber : number = ((toInt (-1) (.double number) : ℤ) : ℚ) := hsame
      have hcast : ((toInt (-1) (.double number)).toNat : ℚ) =
          ((toInt (-1) (.double number) : ℤ) : ℚ) := by
        exact_mod_cast congrArg (Int.cast : ℤ → ℚ) hindex
      calc Json.double number = .double ((toInt (-1) (.double number) : ℤ) : ℚ) := by
            rw [← hnumber]
        _ = .double ((toInt (-1) (.double number)).toNat : ℚ) := by
            rw [hcast]
  | _ =>
      have hnegative : (-1 : ℤ) < 0 := by decide
      exact absurd hnegative hlow

theorem paths_ne_nil {index : ℕ} (h : paths[index]? = some path) : path ≠ [] := by
  rintro rfl
  cases paths_data [] (List.mem_of_getElem? h)

/-- A header whose message has room takes the data. -/
theorem assemble_of_room {index : ℕ} (data : Bytes) (hindex : paths[index]? = some path)
    (hroom : Room path message) : assemble (headerOf index message) data =
      replace (.string (fromLatin1 (Base64.encode data))) path message := by
  have hlt : index < paths.length := (List.getElem?_eq_some_iff.1 hindex).1
  have hthree : paths.length = 3 := rfl
  have hpath : paths.getD index [] = path := by simp [hindex]
  obtain ⟨place, hplace, hfree⟩ :=
    (parent_iff (paths_data path (List.mem_of_getElem? hindex))).2 hroom
  have hnumber : (headerOf index message).value "path" = .double index := rfl
  have hmessage : (headerOf index message).value "message" = message.json := rfl
  have hfields : (headerOf index message).fields.length = 2 := rfl
  have hint : toInt (-1) (.double index) = index := by
    rw [toInt, if_pos]
    · rfl
    · simp only [Rat.den_natCast, Rat.num_natCast, true_and]
      omega
  have hdouble : toDouble (.double index) = ((index : ℤ) : ℚ) := rfl
  unfold assemble
  rw [hnumber, hint, hmessage, if_neg]
  · dsimp only
    rw [JsonObject.json_toObject, Int.toNat_natCast, hpath, hplace]
    simp only [hfree, Bool.false_eq_true, if_false]
  · rw [hfields, hdouble, JsonObject.json_isObject, hthree]
    simp only [ne_eq, not_true_eq_false, false_or, or_false]
    omega

/-- No other header takes data. -/
theorem room_of_assemble {header : JsonObject} {data : Bytes} (h : header.Normal)
    (hne : (assemble header data).isEmpty = false) : ∃ index path message,
      header = headerOf index message ∧ paths[index]? = some path ∧ Room path message := by
  unfold assemble at hne
  dsimp only at hne
  split at hne
  · cases hne
  next hchecks =>
  simp only [not_or, not_not, not_lt] at hchecks
  obtain ⟨hlength, hlow, hhigh, hsame, hobject⟩ := hchecks
  have hvalue := eq_double_of_toInt (not_lt.2 hlow) hsame
  have hjson := json_of_isObject hobject
  have hpath : header.fields.lookup "path" = some (header.value "path") :=
    JsonObject.value_eq_of_ne_undefined (by rw [hvalue]; simp)
  have hmessage : header.fields.lookup "message" = some (header.value "message") :=
    JsonObject.value_eq_of_ne_undefined (by rw [hjson]; simp [JsonObject.json])
  have hfields := fields_eq h hlength hpath hmessage
  set index := (toInt (-1) (header.value "path")).toNat with hindex
  have hlt : index < paths.length := by omega
  have hget : paths[index]? = some (paths.getD index []) := by
    rw [List.getD_eq_getElem?_getD, List.getElem?_eq_getElem hlt]
    rfl
  refine ⟨index, paths.getD index [], (header.value "message").toObject, ?_, hget, ?_⟩
  · rw [headerOf, ← hjson, ← hvalue, ← hfields]
  · refine (parent_iff (paths_data _ (List.mem_of_getElem? hget))).1 ?_
    cases hparent : parent (paths.getD index []) (header.value "message").toObject with
    | none =>
        rw [hparent] at hne
        cases hne
    | some place =>
        refine ⟨place, rfl, ?_⟩
        rw [hparent] at hne
        cases hdata : place.contains "data" with
        | false => rfl
        | true =>
            simp only [hdata, if_true] at hne
            cases hne

/-! ## Frames -/

/-- A frame is the magic, the length of the header, the header, and data behind it; the
header names a path, and its message has room for data there. -/
structure Shape (fromJson : Bytes → Option JsonObject) (frame head data : Bytes) (index : ℕ)
    (path : List String) (message : JsonObject) : Prop where
  framed : frame = magic ++ toBigEndian head.length ++ head ++ data
  header_pos : 1 ≤ head.length
  header_le : head.length ≤ 65536
  data_pos : 1 ≤ data.length
  data_le : data.length ≤ 262144
  parsed : fromJson head = some (headerOf index message)
  named : paths[index]? = some path
  room : Room path message

theorem toBigEndian_fromBigEndian {bytes : Bytes} (h : bytes.length = 4) :
    toBigEndian (fromBigEndian bytes) = bytes := by
  match bytes, h with
  | [a, b, c, d], _ =>
    have ha := a.toNat_lt
    have hb := b.toNat_lt
    have hc := c.toNat_lt
    have hd := d.toNat_lt
    have hvalue : fromBigEndian [a, b, c, d] =
        ((a.toNat * 256 + b.toNat) * 256 + c.toNat) * 256 + d.toNat := by
      simp [fromBigEndian]
    simp only [toBigEndian, hvalue, List.cons.injEq, and_true, ← UInt8.toNat_inj,
      UInt8.toNat_ofNat']
    omega

variable {fromJson : Bytes → Option JsonObject} {frame head data : Bytes} {index : ℕ}

theorem decode_of_shape (h : Shape fromJson frame head data index path message) :
    decode fromJson frame =
      replace (.string (fromLatin1 (Base64.encode data))) path message := by
  have hhead : head ≠ [] := List.ne_nil_of_length_pos h.header_pos
  have hdata : data ≠ [] := List.ne_nil_of_length_pos h.data_pos
  rw [h.framed, decode_frame fromJson hhead h.header_le hdata h.data_le, h.parsed]
  exact assemble_of_room data h.named h.room

/-- **Nothing else is accepted.** -/
theorem shape_of_decode
    (hnormal : ∀ text header, fromJson text = some header → header.Normal)
    (hne : (decode fromJson frame).isEmpty = false) :
    ∃ head data index path message, Shape fromJson frame head data index path message := by
  unfold decode at hne
  split at hne
  · cases hne
  -- The magic and the lengths first, as `decode` checks them.
  next hbounds =>
  dsimp only at hne
  split at hne
  · cases hne
  next hsizes =>
  simp only [not_or, not_lt, not_not] at hbounds
  have hsize : ((frame.drop 4).take 4).length = 4 := by
    rw [List.length_take, List.length_drop]
    omega
  set size := fromBigEndian ((frame.drop 4).take 4) with hread
  simp only [not_or, not_lt, not_le, ge_iff_le] at hsizes
  obtain ⟨hpositive, hlimit, hinside, hpayload⟩ := hsizes
  cases hparsed : fromJson ((frame.drop 8).take size) with
  | none =>
      rw [hparsed] at hne
      cases hne
  | some header =>
      rw [hparsed] at hne
      obtain ⟨index, path, message, rfl, hnamed, hroom⟩ :=
        room_of_assemble (hnormal _ header hparsed) hne
      have hhead : ((frame.drop 8).take size).length = size := by
        rw [List.length_take, List.length_drop]
        omega
      have hdata : (frame.drop (8 + size)).length = frame.length - 8 - size := by
        rw [List.length_drop]
        omega
      refine ⟨(frame.drop 8).take size, frame.drop (8 + size), index, path, message, ?_, ?_, ?_, ?_,
        ?_, hparsed, hnamed, hroom⟩
      -- The frame is put together again from what was cut off it.
      · have hmagic : frame.take 4 = magic :=
          (List.prefix_iff_eq_take.1 (List.isPrefixOf_iff_prefix.1 hbounds.2.2)).symm
        calc frame = frame.take 4 ++ frame.drop 4 := (List.take_append_drop 4 frame).symm
          _ = magic ++ ((frame.drop 4).take 4 ++ frame.drop 8) := by
            rw [hmagic, ← List.drop_drop (i := 4) (j := 4), List.take_append_drop]
          _ = magic ++ (toBigEndian size ++
            ((frame.drop 8).take size ++ frame.drop (8 + size))) := by
            rw [hread, toBigEndian_fromBigEndian hsize, ← hread, ← List.drop_drop,
              List.take_append_drop]
          _ = magic ++ toBigEndian ((frame.drop 8).take size).length ++
                (frame.drop 8).take size ++ frame.drop (8 + size) := by
            rw [hhead, List.append_assoc, List.append_assoc]
      · rw [hhead]
        omega
      · rw [hhead]
        exact hlimit
      · rw [hdata]
        omega
      · rw [hdata]
        exact hpayload

theorem Filled.not_isEmpty {result : JsonObject} (h : Filled path text message result)
    (hpath : path ≠ []) : result.isEmpty = false := by
  cases path with
  | nil => exact absurd rfl hpath
  | cons key rest =>
      have hfilled := h.filled
      obtain ⟨fields⟩ := result
      cases fields with
      | nil => cases hfilled
      | cons field fields => rfl

theorem Shape.normal (h : Shape fromJson frame head data index path message)
    (hnormal : ∀ text header, fromJson text = some header → header.Normal) : message.Normal := by
  have hmessage : (headerOf index message).fields.lookup "message" = some message.json := rfl
  exact (hnormal head _ h.parsed).of_lookup hmessage

/-- **The decoder accepts the well-formed frames and no others.**  It reads no byte
outside the frame; a message comes out only of a frame of that shape, and is the
message of the header with the Base64 text of the data put at the path; and one comes
out of every such frame. -/
theorem decode_exact (hnormal : ∀ text header, fromJson text = some header → header.Normal)
    (frame : Bytes) :
    ((decodeReading fromJson frame.length).Obeys (within frame.length) (fun _ _ => True) () ∧
      (decodeReading fromJson frame.length).run (fun index => frame.getD index 0) =
        decode fromJson frame) ∧
    ((decode fromJson frame).isEmpty = false → ∃ head data index path message,
      Shape fromJson frame head data index path message ∧
        Filled path (fromLatin1 (Base64.encode data)) message (decode fromJson frame)) ∧
    ∀ head data index path message, Shape fromJson frame head data index path message →
      (decode fromJson frame).isEmpty = false := by
  have hfilled : ∀ {head data index path message},
      Shape fromJson frame head data index path message →
        Filled path (fromLatin1 (Base64.encode data)) message (decode fromJson frame) := by
    intro head data index path message h
    rw [decode_of_shape h]
    exact filled_replace (h.normal hnormal) (paths_ne_nil h.named) h.room
  refine ⟨⟨decodeReading_within fromJson frame.length, run_decodeReading fromJson frame⟩, ?_, ?_⟩
  · intro hne
    obtain ⟨head, data, index, path, message, h⟩ := shape_of_decode hnormal hne
    exact ⟨head, data, index, path, message, h, hfilled h⟩
  · exact fun head data index path message h => (hfilled h).not_isEmpty (paths_ne_nil h.named)

def sampleHeader : JsonObject := headerOf 2 ⟨[("result", .object [])]⟩

def sampleText : Bytes := toJson (fun _ => ['2']) sampleHeader

/-- A reader that knows one text. -/
def sampleReader (text : Bytes) : Option JsonObject :=
  if text = sampleText then some sampleHeader else none

def sampleFrame : Bytes := magic ++ toBigEndian sampleText.length ++ sampleText ++ [1, 2, 3]

theorem decode_exact_sample : (decode sampleReader sampleFrame).isEmpty = false ∧
    ∃ head data index path message, Shape sampleReader sampleFrame head data index path message ∧
      Filled path (fromLatin1 (Base64.encode data)) message (decode sampleReader sampleFrame) := by
  have hnormal : ∀ text header, sampleReader text = some header → header.Normal := by
    intro text header h
    rw [sampleReader] at h
    split at h
    · obtain rfl := Option.some.inj h
      have hresult : (Json.object [("result", .object [])]).Normal :=
        .object (List.pairwise_singleton _ _) (by simp [Json.Normal.object List.Pairwise.nil])
      have hsorted : Fields.Sorted sampleHeader.fields :=
        List.pairwise_pair.2 (show "message" < "path" by decide)
      refine .object hsorted fun field hfield => ?_
      rcases List.mem_pair.1 hfield with rfl | rfl
      · exact hresult
      · exact .double _
    · cases h
  have hne : (decode sampleReader sampleFrame).isEmpty = false := by decide +kernel
  exact ⟨hne, (decode_exact hnormal sampleFrame).2.1 hne⟩

end BinaryFrame

end ServerHost
