import ServerHost.Library.Base64
import ServerHost.Protocol
import ServerHost.Wire.Json

/-!
# Binary frames

`BinaryFrame`: a message whose file data is Base64 travels as its other fields in
JSON and the bytes behind them.  The reader of JSON is a parameter; all that is asked
of it is that it reads back the texts that were printed.
-/

namespace ServerHost

namespace BinaryFrame

/-- `paths`. -/
def paths : List (List String) :=
  [["payload", "message", "data"], ["result", "result", "data"], ["result", "data"]]

/-- `at`. -/
def valueAt : List String → JsonObject → Json
  | [], _ => .undefined
  | [last], object => object.value last
  | key :: next :: rest, object =>
      if (object.value key).isObject then valueAt (next :: rest) (object.value key).toObject
      else .undefined

/-- `replace`. -/
def replace (value : Json) : List String → JsonObject → JsonObject
  | [], object => object
  | [last], object =>
      if value.isUndefined then object.remove last else object.insert last value
  | key :: next :: rest, object =>
      object.insert key (replace value (next :: rest) (object.value key).toObject).json

/-- `MaximumPayload`. -/
def maximumPayload : ℕ := 256 * 1024

/-- `MaximumHeader`. -/
def maximumHeader : ℕ := 64 * 1024

/-- The four letters a frame starts with, `ISB1`. -/
def magic : Bytes := [73, 83, 66, 49]

/-- `qToBigEndian`. -/
def toBigEndian (size : ℕ) : Bytes :=
  [UInt8.ofNat (size / 2 ^ 24), UInt8.ofNat (size / 2 ^ 16), UInt8.ofNat (size / 2 ^ 8),
    UInt8.ofNat size]

/-- `qFromBigEndian`. -/
def fromBigEndian (bytes : Bytes) : ℕ := bytes.foldl (fun size byte => size * 256 + byte.toNat) 0

/-- The fields of a message besides its data. -/
def header (index : ℕ) (message : JsonObject) : JsonObject :=
  ((⟨[]⟩ : JsonObject).insert "path" (.double index)).insert "message"
    (replace .undefined (paths.getD index []) message).json

/-- The data of a message at a path, when it is canonical Base64 of a payload. -/
def payload (path : List String) (message : JsonObject) : Option Bytes :=
  let value := valueAt path message
  let text := latin1Bytes value.toString
  if ¬ value.isString ∨ text.length > (maximumPayload + 2) / 3 * 4 then none
  else match Base64.decode text with
    | none => none
    | some data =>
        if data = [] ∨ data.length > maximumPayload ∨ Base64.encode data ≠ text then none
        else some data

section
variable (double : ℚ → List Char)

/-- The loop of `encode`, from the path with this number. -/
def encodeFrom (message : JsonObject) : ℕ → List (List String) → Bytes
  | _, [] => []
  | index, path :: rest =>
      match payload path message with
      | none => encodeFrom message (index + 1) rest
      | some data =>
          let header := toJson double (header index message)
          if header.length > maximumHeader then []
          else magic ++ toBigEndian header.length ++ header ++ data

/-- `encode`. -/
def encode (message : JsonObject) : Bytes := encodeFrom double message 0 paths

end

/-- `QJsonValue::toInt` with its default. -/
def toInt (fallback : ℤ) : Json → ℤ
  | .double value =>
      if value.den = 1 ∧ -2 ^ 31 ≤ value.num ∧ value.num < 2 ^ 31 then value.num else fallback
  | _ => fallback

/-- `QJsonValue::toDouble`. -/
def toDouble : Json → ℚ
  | .double value => value
  | _ => 0

/-- The object a path ends in, when all before it are objects. -/
def parent : List String → JsonObject → Option JsonObject
  | [], object => some object
  | [_], object => some object
  | key :: next :: rest, object =>
      if (object.value key).isObject then parent (next :: rest) (object.value key).toObject
      else none

/-- The message of a header and the data behind it. -/
def assemble (header : JsonObject) (data : Bytes) : JsonObject :=
  let index := toInt (-1) (header.value "path")
  if header.fields.length ≠ 2 ∨ index < 0 ∨ index ≥ paths.length ∨
      toDouble (header.value "path") ≠ index ∨ ¬ (header.value "message").isObject then ⟨[]⟩
  else
    let path := paths.getD index.toNat []
    let message := (header.value "message").toObject
    match parent path message with
    | none => ⟨[]⟩
    | some object =>
        if object.contains "data" then ⟨[]⟩
        else replace (.string (fromLatin1 (Base64.encode data))) path message

/-- `decode`. -/
def decode (fromJson : Bytes → Option JsonObject) (frame : Bytes) : JsonObject :=
  if frame.length < 9 ∨ frame.length > maximumHeader + maximumPayload + 8 ∨
      ¬ magic.isPrefixOf frame then ⟨[]⟩
  else
    let size := fromBigEndian ((frame.drop 4).take 4)
    if size = 0 ∨ size > maximumHeader ∨ size ≥ frame.length - 8 ∨
        frame.length - 8 - size > maximumPayload then ⟨[]⟩
    else match fromJson ((frame.drop 8).take size) with
      | none => ⟨[]⟩
      | some header => assemble header (frame.drop (8 + size))

/-! ## Taking out and putting back -/

theorem json_of_isObject {value : Json} (h : value.isObject = true) :
    value = value.toObject.json := by
  cases value with
  | object fields => rfl
  | _ => cases h

theorem normal_toObject {object : JsonObject} {key : String} (h : object.Normal)
    (hvalue : (object.value key).isObject = true) : (object.value key).toObject.Normal := by
  have hjson := json_of_isObject hvalue
  have hne : object.value key ≠ .undefined := by
    rw [hjson]
    simp [JsonObject.json]
  have hnormal := h.of_lookup (JsonObject.value_eq_of_ne_undefined hne)
  rwa [hjson] at hnormal

/-- What stands at a path of several keys stands in an object. -/
theorem isObject_of_valueAt {key next : String} {rest : List String} {object : JsonObject}
    (h : valueAt (key :: next :: rest) object ≠ .undefined) :
    (object.value key).isObject = true ∧
      valueAt (next :: rest) (object.value key).toObject ≠ .undefined := by
  rw [valueAt] at h
  split at h
  · next hobject => exact ⟨hobject, h⟩
  · exact absurd rfl h

/-- **What was taken out of a message can be put back.** -/
theorem replace_replace {path : List String} {object : JsonObject} (h : object.Normal)
    (hvalue : valueAt path object ≠ .undefined) :
    replace (valueAt path object) path (replace .undefined path object) = object := by
  induction path, object using valueAt.induct with
  | case1 => rfl
  | case2 last object =>
      have hdefined : (object.value last).isUndefined = false := by
        cases hjson : object.value last with
        | undefined => exact absurd hjson hvalue
        | _ => rfl
      have hgone : Json.undefined.isUndefined = true := rfl
      rw [valueAt, replace, replace, hdefined, if_neg Bool.false_ne_true, if_pos hgone]
      exact JsonObject.insert_remove h hvalue
  | case3 key next rest object hobject ih =>
      have hjson := json_of_isObject hobject
      have hrest := ih (normal_toObject h hobject) (isObject_of_valueAt hvalue).2
      have hne : object.value key ≠ .undefined := by
        rw [hjson]
        simp [JsonObject.json]
      rw [replace, replace, JsonObject.value_insert h, JsonObject.json_toObject, valueAt,
        if_pos hobject, hrest, JsonObject.insert_insert h, ← hjson, JsonObject.insert_value h hne]
  | case4 key next rest object hobject =>
      exact absurd (isObject_of_valueAt hvalue).1 hobject

/-- The place from which the data was taken is there, without data. -/
theorem parent_replace {path : List String} {object : JsonObject} (h : object.Normal)
    (hvalue : valueAt path object ≠ .undefined) (hdata : path.getLast? = some "data") :
    ∃ place, parent path (replace .undefined path object) = some place ∧
      place.contains "data" = false := by
  induction path, object using valueAt.induct with
  | case1 => cases hdata
  | case2 last object =>
      obtain rfl : last = "data" := by simpa using hdata
      exact ⟨_, rfl, JsonObject.contains_remove⟩
  | case3 key next rest object hobject ih =>
      obtain ⟨place, hplace, hfree⟩ := ih (normal_toObject h hobject)
        (isObject_of_valueAt hvalue).2 (by simpa using hdata)
      refine ⟨place, ?_, hfree⟩
      rw [replace, parent, JsonObject.value_insert h, JsonObject.json_isObject, if_pos rfl,
        JsonObject.json_toObject, hplace]
  | case4 key next rest object hobject =>
      exact absurd (isObject_of_valueAt hvalue).1 hobject

/-- How much of the text of a message its data is. -/
theorem width_replace {double : ℚ → List Char} {path : List String} {object : JsonObject}
    (h : object.Normal) (hvalue : valueAt path object ≠ .undefined)
    (hdata : path.getLast? = some "data") :
    width (object.json.write double) ≤ width ((replace .undefined path object).json.write double) +
      width (writeField double ("data", valueAt path object)) + 1 := by
  induction path, object using valueAt.induct with
  | case1 => cases hdata
  | case2 last object =>
      obtain rfl : last = "data" := by simpa using hdata
      exact width_remove h hvalue
  | case3 key next rest object hobject ih =>
      have hrest := ih (normal_toObject h hobject) (isObject_of_valueAt hvalue).2
        (by simpa using hdata)
      have hjson := json_of_isObject hobject
      have hne : object.value key ≠ .undefined := by
        rw [hjson]
        simp [JsonObject.json]
      have hsize : width (JsonObject.json (JsonObject.insert object key
          (replace .undefined (next :: rest) (object.value key).toObject).json) |>.write double) +
            width ((object.value key).write double) = _ := width_insert h hne
      rw [valueAt, if_pos hobject]
      rw [← hjson] at hrest
      rw [replace]
      omega
  | case4 key next rest object hobject =>
      exact absurd (isObject_of_valueAt hvalue).1 hobject

/-! ## Frames -/

theorem fromBigEndian_toBigEndian {size : ℕ} (h : size < 2 ^ 32) :
    fromBigEndian (toBigEndian size) = size := by
  simp only [fromBigEndian, toBigEndian, List.foldl_cons, List.foldl_nil, UInt8.toNat_ofNat']
  omega

/-- The text that canonical Base64 stands for was Latin-1. -/
theorem eq_fromLatin1 {text : String} {data : Bytes}
    (h : Base64.encode data = latin1Bytes text) : text = fromLatin1 (Base64.encode data) := by
  refine (fromLatin1_latin1Bytes fun hmark => ?_).symm.trans (by rw [h])
  rw [← h] at hmark
  exact absurd (Base64.mem_alphabet_of_mem_encode hmark) (by decide)

theorem payload_spec {path : List String} {message : JsonObject} {data : Bytes}
    (h : payload path message = some data) :
    valueAt path message = .string (fromLatin1 (Base64.encode data)) ∧ data ≠ [] ∧
      data.length ≤ maximumPayload := by
  unfold payload at h
  dsimp only at h
  split at h
  · cases h
  next hstring =>
  rw [not_or, not_not] at hstring
  cases hdecode : Base64.decode (latin1Bytes (valueAt path message).toString) with
  | none => simp [hdecode] at h
  | some decoded =>
      simp only [hdecode] at h
      split at h
      · cases h
      · next hchecks =>
          obtain rfl := Option.some.inj h
          rw [not_or, not_or, not_not, not_lt] at hchecks
          obtain ⟨hne, hlength, hcanonical⟩ := hchecks
          rw [Json.eq_string_of_isString hstring.1, ← eq_fromLatin1 hcanonical]
          exact ⟨rfl, hne, hlength⟩

/-- A frame is taken apart where it was put together. -/
theorem decode_frame (fromJson : Bytes → Option JsonObject) {head data : Bytes} (hhead : head ≠ [])
    (hlimit : head.length ≤ maximumHeader) (hdata : data ≠ [])
    (hpayload : data.length ≤ maximumPayload) :
    decode fromJson (magic ++ toBigEndian head.length ++ head ++ data) =
      match fromJson head with
      | none => ⟨[]⟩
      | some header => assemble header data := by
  have hpositive := List.length_pos_iff.2 hhead
  have hpositive' := List.length_pos_iff.2 hdata
  have hfour : magic.length = 4 := rfl
  have hsize : (toBigEndian head.length).length = 4 := rfl
  have hlength : (magic ++ toBigEndian head.length ++ head ++ data).length =
      8 + head.length + data.length := by
    simp only [List.length_append, hfour, hsize]
  have hdrop4 : ((magic ++ toBigEndian head.length ++ head ++ data).drop 4).take 4 =
      toBigEndian head.length := by
    simp [magic, toBigEndian]
  have hdrop8 : ((magic ++ toBigEndian head.length ++ head ++ data).drop 8).take head.length =
      head := by
    simp [magic, toBigEndian]
  have hrest : (magic ++ toBigEndian head.length ++ head ++ data).drop (8 + head.length) =
      data := by
    rw [← List.drop_drop]
    simp [magic, toBigEndian]
  have hprefix : magic.isPrefixOf (magic ++ toBigEndian head.length ++ head ++ data) = true := by
    simp [magic]
  have hread : fromBigEndian (toBigEndian head.length) = head.length :=
    fromBigEndian_toBigEndian (hlimit.trans_lt (by decide))
  unfold decode
  rw [if_neg, hdrop4, hread]
  · dsimp only
    rw [if_neg, hdrop8, hrest]
    rw [hlength]
    simp only [maximumHeader, maximumPayload] at *
    omega
  · rw [hlength, hprefix]
    simp only [maximumHeader, maximumPayload, not_true_eq_false, or_false] at *
    omega

section
variable {double : ℚ → List Char} {message : JsonObject} {index : ℕ} {path : List String}

theorem paths_data : ∀ path ∈ paths, path.getLast? = some "data" := by decide

/-- The header of a frame, in normal form. -/
theorem header_fields (index : ℕ) (message : JsonObject) : header index message =
    ⟨[("message", (replace .undefined (paths.getD index []) message).json),
      ("path", .double index)]⟩ := by
  have hlt : "message" < "path" := by decide
  simp [header, JsonObject.insert, Fields.insert, hlt]

theorem assemble_header {data : Bytes} (h : message.Normal) (hindex : paths[index]? = some path)
    (hvalue : valueAt path message = .string (fromLatin1 (Base64.encode data))) :
    assemble (header index message) data = message := by
  have hlt : index < paths.length := (List.getElem?_eq_some_iff.1 hindex).1
  have hpath : paths.getD index [] = path := by simp [hindex]
  have hdata := paths_data path (List.mem_of_getElem? hindex)
  have hdefined : valueAt path message ≠ .undefined := by simp [hvalue]
  obtain ⟨place, hplace, hfree⟩ := parent_replace h hdefined hdata
  have hback := replace_replace h hdefined
  rw [hvalue] at hback
  have hthree : paths.length = 3 := rfl
  have hint : toInt (-1) (.double index) = index := by
    rw [toInt, if_pos]
    · rfl
    · simp only [Rat.den_natCast, Rat.num_natCast, true_and]
      omega
  have hfields : (header index message).fields.length = 2 := by rw [header_fields]; rfl
  have hnumber : (header index message).value "path" = .double index := by rw [header_fields]; rfl
  have hmessage : (header index message).value "message" =
      (replace .undefined path message).json := by
    rw [header_fields, hpath]
    rfl
  unfold assemble
  rw [hnumber, hint, hmessage, if_neg]
  · dsimp only
    rw [JsonObject.json_toObject, Int.toNat_natCast, hpath, hplace]
    simp only [hfree, Bool.false_eq_true, if_false, hback]
  · have hdouble : toDouble (.double index) = ((index : ℤ) : ℚ) := rfl
    rw [hfields, hdouble, JsonObject.json_isObject, hthree]
    simp only [ne_eq, not_true_eq_false, false_or, or_false]
    omega

/-- `encode` leaves nothing, or the frame of one of the paths. -/
theorem encodeFrom_spec : ∀ (rest : List (List String)) (index : ℕ), paths.drop index = rest →
    encodeFrom double message index rest = [] ∨ ∃ number path data,
      paths[number]? = some path ∧ payload path message = some data ∧
      (toJson double (header number message)).length ≤ maximumHeader ∧
      encodeFrom double message index rest =
        magic ++ toBigEndian (toJson double (header number message)).length ++
          toJson double (header number message) ++ data := by
  intro rest
  induction rest with
  | nil => exact fun _ _ => .inl rfl
  | cons path rest ih =>
      intro index hrest
      have hpath : paths[index]? = some path := by
        rw [← List.head?_drop, hrest]
        rfl
      have hnext : paths.drop (index + 1) = rest := by
        rw [← List.drop_drop, hrest]
        rfl
      unfold encodeFrom
      split
      · exact ih (index + 1) hnext
      · next data hdata =>
          dsimp only
          split
          · exact .inl rfl
          · next hlimit => exact .inr ⟨index, path, data, hpath, hdata, not_lt.1 hlimit, rfl⟩

theorem encode_spec (h : encode double message ≠ []) : ∃ number path data,
    paths[number]? = some path ∧ payload path message = some data ∧
    (toJson double (header number message)).length ≤ maximumHeader ∧
    encode double message = magic ++ toBigEndian (toJson double (header number message)).length ++
      toJson double (header number message) ++ data :=
  (encodeFrom_spec paths 0 rfl).resolve_left h

theorem encode_length (h : encode double message ≠ []) :
    (encode double message).length ≤ 8 + maximumHeader + maximumPayload := by
  obtain ⟨number, path, data, -, hdata, hlimit, hframe⟩ := encode_spec h
  have hpayload := (payload_spec hdata).2.2
  have height : (magic ++ toBigEndian (toJson double (header number message)).length).length = 8 :=
    rfl
  rw [hframe, List.length_append, List.length_append, height]
  omega

theorem toJson_ne_nil (object : JsonObject) : toJson double object ≠ [] := by
  have hwidth : 1 ≤ width (object.json.write double) :=
    (Nat.le_add_left 1 _).trans (width_object_ge object.fields)
  exact List.ne_nil_of_length_pos hwidth

/-- **A frame stands for the message it was made of.** -/
theorem decode_encode {fromJson : Bytes → Option JsonObject} (h : message.Normal)
    (hlossless : ∀ number < paths.length,
      fromJson (toJson double (header number message)) = some (header number message))
    (hne : encode double message ≠ []) : decode fromJson (encode double message) = message := by
  obtain ⟨number, path, data, hpath, hdata, hlimit, hframe⟩ := encode_spec hne
  obtain ⟨hvalue, hnonempty, hpayload⟩ := payload_spec hdata
  have hnumber : number < paths.length := (List.getElem?_eq_some_iff.1 hpath).1
  rw [hframe, decode_frame fromJson (toJson_ne_nil _) hlimit hnonempty hpayload,
    hlossless number hnumber]
  exact assemble_header h hpath hvalue

/-! ## The text of a message that fits a frame -/

theorem width_letter : ∀ code ∈ Base64.alphabet,
    width (escaped (Char.ofNat code.toNat)) = 1 := by decide +kernel

/-- Base64 is written as it is. -/
theorem width_quoted_encode (data : Bytes) :
    width (quoted (fromLatin1 (Base64.encode data))) = (Base64.encode data).length + 2 := by
  have hquote : width [Char.ofNat 0x22] = 1 := by decide
  have hcodes : ∀ codes : Bytes, (∀ code ∈ codes, code ∈ Base64.alphabet) →
      width ((codes.map fun code => Char.ofNat code.toNat).flatMap escaped) = codes.length := by
    intro codes hall
    induction codes with
    | nil => rfl
    | cons code rest ih =>
        rw [List.map_cons, List.flatMap_cons, width_append,
          ih fun other hother => hall other (List.mem_cons_of_mem _ hother),
          width_letter code (hall code List.mem_cons_self), List.length_cons, Nat.add_comm]
  rw [quoted, List.cons_append, width_cons, width_append, hquote, fromLatin1, String.toList_ofList,
    hcodes _ fun code hcode => Base64.mem_alphabet_of_mem_encode hcode]
  omega

theorem width_message_le (index : ℕ) : width
    ((replace .undefined (paths.getD index []) message).json.write double) ≤
      (toJson double (header index message)).length := by
  have hwidth : cost double (header index message).fields + 1 ≤
      (toJson double (header index message)).length := width_object_ge _
  rw [header_fields, cost_cons, writeField, width_append, width_cons] at hwidth
  rw [header_fields]
  dsimp only at hwidth
  omega

/-- **What fits a frame also fits as text.** -/
theorem toJson_length_le (h : message.Normal) (hne : encode double message ≠ []) :
    (toJson double message).length ≤ wireLimit := by
  obtain ⟨number, path, data, hpath, hdata, hlimit, -⟩ := encode_spec hne
  obtain ⟨hvalue, -, hpayload⟩ := payload_spec hdata
  have hlast := paths_data path (List.mem_of_getElem? hpath)
  have hgetD : paths.getD number [] = path := by simp [hpath]
  have hkey : width (quoted "data") = 6 := by decide
  have hcolon : width [':'] = 1 := by decide
  have hrest : width ((replace .undefined (paths.getD number []) message).json.write double) ≤
      (toJson double (header number message)).length := width_message_le number
  have hsize : width (message.json.write double) ≤ _ :=
    width_replace h (by rw [hvalue]; simp) hlast
  rw [hgetD] at hrest
  rw [hvalue, writeField, width_append, width_cons, Json.write, width_quoted_encode,
    Base64.encode_length, hkey, hcolon] at hsize
  have htext : (toJson double message).length = width (message.json.write double) := rfl
  simp only [maximumHeader, maximumPayload, wireLimit] at *
  omega

end

end BinaryFrame

end ServerHost
