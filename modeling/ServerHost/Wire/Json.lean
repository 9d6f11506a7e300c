import ServerHost.Library.Fields
import ServerHost.Qt

/-!
# JSON objects and their compact text

What `QJsonObject::insert` and `remove` do to the fields, the normal form that every
`QJsonObject` is in, and how `QJsonDocument::toJson(Compact)` prints one.  The text of
a number is a parameter; the rest is what the size of a text depends on.
-/

namespace ServerHost

/-- The normal form of a value: the keys of objects ascend, and nothing is undefined.
The order itself plays no role. -/
inductive Json.Normal : Json → Prop
  | null : Normal .null
  | bool (value : Bool) : Normal (.bool value)
  | double (value : ℚ) : Normal (.double value)
  | string (text : String) : Normal (.string text)
  | array {items : List Json} : (∀ item ∈ items, Normal item) → Normal (.array items)
  | object {fields : List (String × Json)} : Fields.Sorted fields →
      (∀ field ∈ fields, Normal field.2) → Normal (.object fields)

namespace JsonObject

/-- Every `QJsonObject` is in normal form. -/
def Normal (object : JsonObject) : Prop := object.json.Normal

/-- `QJsonObject::remove`. -/
def remove (object : JsonObject) (key : String) : JsonObject := ⟨Fields.erase key object.fields⟩

/-- `QJsonObject::insert`, for a value that is not undefined. -/
def insert (object : JsonObject) (key : String) (value : Json) : JsonObject :=
  ⟨Fields.insert key value object.fields⟩

variable {object : JsonObject} {key other : String} {value new : Json}

theorem Normal.sorted (h : object.Normal) : Fields.Sorted object.fields := by
  cases h with
  | object hsorted => exact hsorted

theorem Normal.of_lookup (h : object.Normal) (hvalue : object.fields.lookup key = some value) :
    value.Normal := by
  cases h with
  | object hsorted hall => exact hall _ ((Fields.lookup_eq_some hsorted).1 hvalue)

theorem Normal.insert (h : object.Normal) (hvalue : value.Normal) :
    (object.insert key value).Normal := by
  cases h with
  | object hsorted hall =>
      refine .object hsorted.insert fun field hfield => ?_
      rcases Fields.mem_insert hfield with rfl | hold
      · exact hvalue
      · exact hall field hold

theorem Normal.remove (h : object.Normal) : (object.remove key).Normal := by
  cases h with
  | object hsorted hall =>
      exact .object hsorted.erase fun field hfield => hall field (List.mem_filter.1 hfield).1

theorem value_eq_of_ne_undefined (h : object.value key ≠ .undefined) :
    object.fields.lookup key = some (object.value key) := by
  unfold JsonObject.value at h ⊢
  cases hlookup : object.fields.lookup key with
  | none => simp [hlookup] at h
  | some found => rfl

@[simp] theorem value_insert (h : object.Normal) :
    (object.insert key value).value key = value := by
  simp [JsonObject.value, JsonObject.insert, Fields.lookup_insert h.sorted]

@[simp] theorem contains_remove : (object.remove key).contains key = false := by
  simp [contains, remove]

theorem insert_insert (h : object.Normal) :
    (object.insert key new).insert key value = object.insert key value := by
  simp [JsonObject.insert, Fields.insert_insert h.sorted]

/-- Putting back what is there changes nothing. -/
theorem insert_value (h : object.Normal) (hvalue : object.value key ≠ .undefined) :
    object.insert key (object.value key) = object := by
  rw [JsonObject.insert, Fields.insert_of_lookup h.sorted (value_eq_of_ne_undefined hvalue)]

/-- Putting back what was taken out. -/
theorem insert_remove (h : object.Normal) (hvalue : object.value key ≠ .undefined) :
    (object.remove key).insert key (object.value key) = object := by
  rw [JsonObject.insert, remove, Fields.insert_erase h.sorted (value_eq_of_ne_undefined hvalue)]

end JsonObject

/-! ## The compact text -/

/-- How a character of a string is written. -/
def escaped (c : Char) : List Char :=
  if c.toNat = 0x22 then [Char.ofNat 0x5c, Char.ofNat 0x22]
  else if c.toNat = 0x5c then [Char.ofNat 0x5c, Char.ofNat 0x5c]
  else if c.toNat = 0x08 then [Char.ofNat 0x5c, 'b']
  else if c.toNat = 0x0c then [Char.ofNat 0x5c, 'f']
  else if c.toNat = 0x0a then [Char.ofNat 0x5c, 'n']
  else if c.toNat = 0x0d then [Char.ofNat 0x5c, 'r']
  else if c.toNat = 0x09 then [Char.ofNat 0x5c, 't']
  else if c.toNat < 0x20 then
    [Char.ofNat 0x5c, 'u', '0', '0', Nat.digitChar (c.toNat / 16), Nat.digitChar (c.toNat % 16)]
  else [c]

def quoted (text : String) : List Char :=
  Char.ofNat 0x22 :: text.toList.flatMap escaped ++ [Char.ofNat 0x22]

/-- The items with commas between them. -/
def separated : List (List Char) → List Char
  | [] => []
  | [item] => item
  | item :: rest => item ++ ',' :: separated rest

mutual

/-- The compact text of a value. -/
def Json.write (double : ℚ → List Char) : Json → List Char
  | .undefined => "null".toList
  | .null => "null".toList
  | .bool value => (if value then "true" else "false").toList
  | .double value => double value
  | .string text => quoted text
  | .array items => '[' :: separated (writeItems double items) ++ [']']
  | .object fields =>
      Char.ofNat 0x7b :: separated (writeFields double fields) ++ [Char.ofNat 0x7d]

/-- The items of an array, as they are written. -/
def writeItems (double : ℚ → List Char) : List Json → List (List Char)
  | [] => []
  | item :: rest => item.write double :: writeItems double rest

/-- The fields of an object, as they are written. -/
def writeFields (double : ℚ → List Char) : List (String × Json) → List (List Char)
  | [] => []
  | (key, value) :: rest => (quoted key ++ ':' :: value.write double) :: writeFields double rest

end

/-- The bytes of a text. -/
def utf8 (text : List Char) : Bytes := (String.ofList text).toUTF8.data.toList

/-- `QJsonDocument::toJson(Compact)`. -/
def toJson (double : ℚ → List Char) (object : JsonObject) : Bytes :=
  utf8 (object.json.write double)

/-! ### Its size -/

/-- The number of bytes of a text. -/
def width (text : List Char) : ℕ := (utf8 text).length

@[simp] theorem width_nil : width [] = 0 := rfl

@[simp] theorem width_append (first second : List Char) :
    width (first ++ second) = width first + width second := by
  simp [width, utf8]

theorem width_cons (c : Char) (rest : List Char) : width (c :: rest) = width [c] + width rest :=
  width_append [c] rest

theorem width_one {c : Char} (h : c.val.toNat < 0x80) : width [c] = 1 := by
  have hsize : c.utf8Size = 1 := by
    rw [Char.utf8Size, if_pos]
    rw [UInt32.le_iff_toNat_le]
    exact Nat.le_of_lt_succ h
  have hbytes : width [c] = (String.ofList [c]).utf8ByteSize := rfl
  rw [hbytes, ← hsize]
  exact String.utf8ByteSize_singleton

/-- A text in which nothing is escaped and every character is one byte. -/
theorem width_quoted {text : String} (h : ∀ c ∈ text.toList,
    0x2d ≤ c.val.toNat ∧ c.val.toNat < 0x80 ∧ c.val.toNat ≠ 0x5c) :
    width (quoted text) = text.toList.length + 2 := by
  have hquote : width [Char.ofNat 0x22] = 1 := by decide
  have hchars : ∀ chars : List Char, (∀ c ∈ chars,
      0x2d ≤ c.val.toNat ∧ c.val.toNat < 0x80 ∧ c.val.toNat ≠ 0x5c) →
      width (chars.flatMap escaped) = chars.length := by
    intro chars hplain
    induction chars with
    | nil => rfl
    | cons c rest ih =>
        obtain ⟨hlow, hhigh, hslash⟩ := hplain c List.mem_cons_self
        have hown : escaped c = [c] := by
          have hnat : c.toNat = c.val.toNat := rfl
          simp only [escaped, hnat]
          repeat rw [if_neg (by omega)]
        rw [List.flatMap_cons, hown, width_append, width_one hhigh, List.length_cons,
          ih fun d hd => hplain d (List.mem_cons_of_mem _ hd)]
        omega
  rw [quoted, List.cons_append, width_cons, width_append, hquote, hchars _ h]
  omega

theorem width_separated {items : List (List Char)} (h : items ≠ []) :
    width (separated items) + 1 = (items.map fun item => width item + 1).sum := by
  induction items using separated.induct with
  | case1 => exact absurd rfl h
  | case2 item => simp [separated]
  | case3 item rest hrest ih =>
      have hcomma : width [','] = 1 := by decide
      have hne : rest ≠ [] := by
        rintro rfl
        exact hrest rfl
      rw [separated, width_append, width_cons, hcomma, List.map_cons, List.sum_cons, ← ih hne]
      · omega
      · exact hrest

section
variable (double : ℚ → List Char)

/-- A field of an object, as it is written. -/
def writeField (field : String × Json) : List Char :=
  quoted field.1 ++ ':' :: field.2.write double

/-- What the fields of an object add to its text. -/
def cost (fields : List (String × Json)) : ℕ :=
  (fields.map fun field => width (writeField double field) + 1).sum

variable {double} {object : JsonObject} {key : String} {value new : Json}

theorem write_object (fields : List (String × Json)) : (Json.object fields).write double =
    Char.ofNat 0x7b :: separated (fields.map (writeField double)) ++ [Char.ofNat 0x7d] := by
  have hfields : writeFields double fields = fields.map (writeField double) := by
    induction fields with
    | nil => rfl
    | cons field rest ih => rw [writeFields, ih, List.map_cons, writeField]
  rw [Json.write, hfields]

theorem width_object {fields : List (String × Json)} (h : fields ≠ []) :
    width ((Json.object fields).write double) = cost double fields + 1 := by
  have hopen : width [Char.ofNat 0x7b] = 1 := by decide
  have hclose : width [Char.ofNat 0x7d] = 1 := by decide
  have hne : fields.map (writeField double) ≠ [] := by simpa using h
  have hseparated := width_separated hne
  rw [List.map_map] at hseparated
  rw [write_object, List.cons_append, width_cons, width_append, hopen, hclose, cost]
  simp only [Function.comp_def] at hseparated
  omega

theorem width_object_ge (fields : List (String × Json)) :
    cost double fields + 1 ≤ width ((Json.object fields).write double) := by
  cases fields with
  | nil =>
      have hempty : width [Char.ofNat 0x7b, Char.ofNat 0x7d] = 2 := by decide
      rw [write_object]
      exact (Nat.le_succ 1).trans_eq hempty.symm
  | cons field rest => exact (width_object (List.cons_ne_nil field rest)).ge

/-- The text of an array; the brackets of an empty one count as well. -/
theorem width_array (items : List Json) : width ((Json.array items).write double) =
    max 2 ((items.map fun item => width (item.write double) + 1).sum + 1) := by
  have hopen : width ['['] = 1 := by decide
  have hclose : width [']'] = 1 := by decide
  have hitems : writeItems double items = items.map (Json.write double) := by
    induction items with
    | nil => rfl
    | cons item rest ih => rw [writeItems, ih, List.map_cons]
  rw [Json.write, List.cons_append, width_cons, width_append, hopen, hclose, hitems]
  cases items with
  | nil => rfl
  | cons item rest =>
      have hne : (item :: rest).map (Json.write double) ≠ [] := List.cons_ne_nil _ _
      have hseparated := width_separated hne
      rw [List.map_map] at hseparated
      have hpos : 0 < ((item :: rest).map fun item => width (item.write double) + 1).sum := by
        rw [List.map_cons, List.sum_cons]
        omega
      simp only [Function.comp_def] at hseparated
      omega

theorem cost_of_perm {first second : List (String × Json)} (h : first.Perm second) :
    cost double first = cost double second :=
  (h.map _).sum_nat

theorem cost_cons (field : String × Json) (fields : List (String × Json)) :
    cost double (field :: fields) = width (writeField double field) + 1 + cost double fields := by
  rw [cost, List.map_cons, List.sum_cons, cost]

/-- A field counts once. -/
theorem width_remove (h : object.Normal) (hvalue : object.value key ≠ .undefined) :
    width (object.json.write double) ≤ width ((object.remove key).json.write double) +
      width (writeField double (key, object.value key)) + 1 := by
  have hlookup := JsonObject.value_eq_of_ne_undefined hvalue
  have hne : object.fields ≠ [] := by
    intro hnil
    simp [hnil] at hlookup
  have hcost : cost double object.fields = _ :=
    cost_of_perm (Fields.perm_of_lookup h.sorted hlookup)
  have hrest : cost double (Fields.erase key object.fields) + 1 ≤
      width ((object.remove key).json.write double) := width_object_ge _
  rw [cost_cons] at hcost
  rw [JsonObject.json, width_object hne, hcost]
  omega

/-- A value in place of another changes the size by its own. -/
theorem width_insert (h : object.Normal) (hvalue : object.value key ≠ .undefined) :
    width ((object.insert key new).json.write double) + width ((object.value key).write double) =
      width (object.json.write double) + width (new.write double) := by
  have hlookup := JsonObject.value_eq_of_ne_undefined hvalue
  have hne : object.fields ≠ [] := by
    intro hnil
    simp [hnil] at hlookup
  have hold := Fields.perm_of_lookup h.sorted hlookup
  have hnew : (Fields.insert key new object.fields).Perm _ := Fields.insert_perm h.sorted
  have hne' : Fields.insert key new object.fields ≠ [] := by
    intro hnil
    simpa [hnil] using hnew.length_eq
  have hfield : ∀ value : Json, width (writeField double (key, value)) =
      width (quoted key) + width [':'] + width (value.write double) := by
    intro value
    rw [writeField, width_append, width_cons, add_assoc]
  rw [JsonObject.json, JsonObject.json, JsonObject.insert, width_object hne, width_object hne',
    cost_of_perm hold, cost_of_perm hnew, cost_cons, cost_cons, hfield, hfield]
  omega

end

/-! ### Strings are told apart -/

/-- The value of a hexadecimal digit. -/
def hexValue (c : Char) : ℕ := if c.isDigit then c.toNat - 48 else c.toNat - 87

/-- The character at the start of what stands between quotes, and what follows it. -/
def unescaped : List Char → Option (Char × List Char)
  | [] => none
  | c :: rest =>
      if c.toNat ≠ 0x5c then some (c, rest)
      else match rest with
        | 'b' :: rest => some (Char.ofNat 0x08, rest)
        | 'f' :: rest => some (Char.ofNat 0x0c, rest)
        | 'n' :: rest => some (Char.ofNat 0x0a, rest)
        | 'r' :: rest => some (Char.ofNat 0x0d, rest)
        | 't' :: rest => some (Char.ofNat 0x09, rest)
        | 'u' :: _ :: _ :: high :: low :: rest =>
            some (Char.ofNat (16 * hexValue high + hexValue low), rest)
        | d :: rest => some (d, rest)
        | [] => none

theorem eq_ofNat {c : Char} {n : ℕ} (h : c.toNat = n) : c = Char.ofNat n := by
  rw [← h, Char.ofNat_toNat]

theorem hexValue_digits : ∀ n < 0x20, Char.ofNat
    (16 * hexValue (Nat.digitChar (n / 16)) + hexValue (Nat.digitChar (n % 16))) =
    Char.ofNat n := by
  decide

/-- The characters that have an escape of two characters, with the second one. -/
def shortEscapes : List (ℕ × Char) :=
  [(0x22, Char.ofNat 0x22), (0x5c, Char.ofNat 0x5c), (0x08, 'b'), (0x0c, 'f'), (0x0a, 'n'),
    (0x0d, 'r'), (0x09, 't')]

/-- The three ways to write a character. -/
theorem escaped_cases (c : Char) :
    (∃ entry ∈ shortEscapes, c = Char.ofNat entry.1 ∧ escaped c = [Char.ofNat 0x5c, entry.2]) ∨
    (c.toNat < 0x20 ∧ escaped c = [Char.ofNat 0x5c, 'u', '0', '0',
      Nat.digitChar (c.toNat / 16), Nat.digitChar (c.toNat % 16)]) ∨
    (c.toNat ≠ 0x22 ∧ c.toNat ≠ 0x5c ∧ c.toNat ≠ 0x0a ∧ escaped c = [c]) := by
  by_cases hshort : ∃ entry ∈ shortEscapes, c.toNat = entry.1
  · obtain ⟨entry, hentry, hcode⟩ := hshort
    refine .inl ⟨entry, hentry, eq_ofNat hcode, ?_⟩
    rw [eq_ofNat hcode]
    revert entry
    simp only [shortEscapes, List.forall_mem_cons]
    exact ⟨fun _ => rfl, fun _ => rfl, fun _ => rfl, fun _ => rfl, fun _ => rfl, fun _ => rfl,
      fun _ => rfl, by simp⟩
  · have hnone : ∀ entry ∈ shortEscapes, c.toNat ≠ entry.1 :=
      fun entry hentry hcode => hshort ⟨entry, hentry, hcode⟩
    simp only [shortEscapes, List.forall_mem_cons] at hnone
    obtain ⟨hquote, hslash, hb, hf, hn, hr, ht, -⟩ := hnone
    rw [escaped, if_neg hquote, if_neg hslash, if_neg hb, if_neg hf, if_neg hn, if_neg hr,
      if_neg ht]
    by_cases hcontrol : c.toNat < 0x20
    · exact .inr (.inl ⟨hcontrol, if_pos hcontrol⟩)
    · exact .inr (.inr ⟨hquote, hslash, hn, if_neg hcontrol⟩)

/-- **A character is read back from its escape.** -/
theorem unescaped_escaped (c : Char) (rest : List Char) :
    unescaped (escaped c ++ rest) = some (c, rest) := by
  rcases escaped_cases c with ⟨entry, hentry, rfl, hescaped⟩ | ⟨hcontrol, hescaped⟩ |
    ⟨-, hslash, -, hescaped⟩
  · rw [hescaped]
    have hall : ∀ entry ∈ shortEscapes, unescaped ([Char.ofNat 0x5c, entry.2] ++ rest) =
        some (Char.ofNat entry.1, rest) := by
      simp only [shortEscapes, List.forall_mem_cons]
      exact ⟨rfl, rfl, rfl, rfl, rfl, rfl, rfl, by simp⟩
    exact hall entry hentry
  · have hback : unescaped ([Char.ofNat 0x5c, 'u', '0', '0', Nat.digitChar (c.toNat / 16),
        Nat.digitChar (c.toNat % 16)] ++ rest) = some (Char.ofNat
          (16 * hexValue (Nat.digitChar (c.toNat / 16)) +
            hexValue (Nat.digitChar (c.toNat % 16))), rest) := rfl
    rw [hescaped, hback, hexValue_digits c.toNat hcontrol, Char.ofNat_toNat]
  · rw [hescaped]
    exact if_pos hslash

theorem escaped_append_inj {c d : Char} {first second : List Char}
    (h : escaped c ++ first = escaped d ++ second) : c = d ∧ first = second := by
  have hread := congrArg unescaped h
  rw [unescaped_escaped, unescaped_escaped] at hread
  exact Prod.mk.inj (Option.some.inj hread)

theorem digitChar_ne : ∀ n < 0x20, Nat.digitChar (n / 16) ≠ '\n' ∧
    Nat.digitChar (n % 16) ≠ '\n' := by decide

/-- No escape starts with a quote, and none contains a line feed. -/
theorem escaped_spec (c : Char) : (∃ d rest, escaped c = d :: rest ∧ d ≠ Char.ofNat 0x22) ∧
    '\n' ∉ escaped c := by
  rcases escaped_cases c with ⟨entry, hentry, -, hescaped⟩ | ⟨hcontrol, hescaped⟩ |
    ⟨hquote, -, hfeed, hescaped⟩
  · rw [hescaped]
    refine ⟨⟨_, _, rfl, by decide⟩, ?_⟩
    revert entry
    simp only [shortEscapes, List.forall_mem_cons]
    exact ⟨fun _ => by decide, fun _ => by decide, fun _ => by decide, fun _ => by decide,
      fun _ => by decide, fun _ => by decide, fun _ => by decide, by simp⟩
  · rw [hescaped]
    refine ⟨⟨_, _, rfl, by decide⟩, ?_⟩
    obtain ⟨hhigh, hlow⟩ := digitChar_ne c.toNat hcontrol
    simp only [List.mem_cons, List.not_mem_nil, or_false, not_or]
    exact ⟨by decide, by decide, by decide, by decide, hhigh.symm, hlow.symm⟩
  · rw [hescaped]
    refine ⟨⟨_, _, rfl, ?_⟩, ?_⟩
    · rintro rfl
      exact hquote rfl
    · rw [List.mem_singleton]
      rintro rfl
      exact hfeed rfl

/-- A string ends at its quote, wherever it stands. -/
theorem quoted_append_inj {text other : String} {first second : List Char}
    (h : quoted text ++ first = quoted other ++ second) : text = other ∧ first = second := by
  have hchars : ∀ chars others : List Char,
      chars.flatMap escaped ++ Char.ofNat 0x22 :: first =
        others.flatMap escaped ++ Char.ofNat 0x22 :: second → chars = others ∧ first = second := by
    intro chars
    induction chars with
    | nil =>
        intro others h
        cases others with
        | nil => exact ⟨rfl, (List.cons.inj h).2⟩
        | cons d others =>
            obtain ⟨⟨e, rest, hescaped, hne⟩, -⟩ := escaped_spec d
            rw [List.flatMap_cons, hescaped] at h
            exact absurd (List.cons.inj h).1.symm hne
    | cons c chars ih =>
        intro others h
        cases others with
        | nil =>
            obtain ⟨⟨e, rest, hescaped, hne⟩, -⟩ := escaped_spec c
            rw [List.flatMap_cons, hescaped] at h
            exact absurd (List.cons.inj h).1 hne
        | cons d others =>
            rw [List.flatMap_cons, List.flatMap_cons, List.append_assoc, List.append_assoc] at h
            obtain ⟨rfl, hrest⟩ := escaped_append_inj h
            obtain ⟨rfl, hsame⟩ := ih others hrest
            exact ⟨rfl, hsame⟩
  simp only [quoted, List.cons_append, List.append_assoc, List.nil_append, List.cons.injEq,
    true_and] at h
  obtain ⟨htext, hsame⟩ := hchars _ _ h
  exact ⟨String.toList_inj.1 htext, hsame⟩

theorem newline_notMem_quoted (text : String) : '\n' ∉ quoted text := by
  intro hmem
  rcases List.mem_cons.1 hmem with hquote | hmem
  · exact absurd hquote (by decide)
  rcases List.mem_append.1 hmem with hinside | hquote
  · obtain ⟨c, -, hc⟩ := List.mem_flatMap.1 hinside
    exact (escaped_spec c).2 hc
  · exact absurd (List.mem_singleton.1 hquote) (by decide)

/-- The array of these strings. -/
def strings (texts : List String) : Json := .array (texts.map .string)

/-- What follows the first item of an array of strings. -/
private def others : List String → List Char
  | [] => [']']
  | text :: rest => ',' :: (quoted text ++ others rest)

section
variable {double : ℚ → List Char}

private theorem write_strings (texts : List String) : (strings texts).write double =
    '[' :: match texts with
      | [] => [']']
      | text :: rest => quoted text ++ others rest := by
  have hitems : ∀ texts : List String,
      writeItems double (texts.map .string) = texts.map quoted := by
    intro texts
    induction texts with
    | nil => rfl
    | cons text rest ih => rw [List.map_cons, writeItems, ih, Json.write, List.map_cons]
  have hrest : ∀ (text : String) (rest : List String),
      separated ((text :: rest).map quoted) ++ [']'] = quoted text ++ others rest := by
    intro text rest
    induction rest generalizing text with
    | nil => rfl
    | cons next rest ih =>
        have hnext := ih next
        rw [List.map_cons] at hnext
        rw [List.map_cons, List.map_cons, separated, others, List.append_assoc, List.cons_append,
          hnext]
        simp
  rw [strings, Json.write, hitems]
  cases texts with
  | nil => rfl
  | cons text rest => rw [List.cons_append, hrest]

/-- **Arrays of strings are told apart by their text.** -/
theorem write_strings_inj {first second : List String}
    (h : (strings first).write double = (strings second).write double) : first = second := by
  have hothers : ∀ first second : List String, others first = others second → first = second := by
    intro first
    induction first with
    | nil =>
        intro second h
        cases second with
        | nil => rfl
        | cons other rest => exact absurd (List.cons.inj h).1 (by decide)
    | cons text rest ih =>
        intro second h
        cases second with
        | nil => exact absurd (List.cons.inj h).1 (by decide)
        | cons other more =>
            obtain ⟨rfl, hrest⟩ := quoted_append_inj (List.cons.inj h).2
            rw [ih more hrest]
  rw [write_strings, write_strings] at h
  have hinside := (List.cons.inj h).2
  cases first with
  | nil =>
      cases second with
      | nil => rfl
      | cons other rest => exact absurd (List.cons.inj hinside).1 (by decide)
  | cons text rest =>
      cases second with
      | nil => exact absurd (List.cons.inj hinside).1 (by decide)
      | cons other more =>
          obtain ⟨rfl, hrest⟩ := quoted_append_inj hinside
          rw [hothers rest more hrest]

theorem newline_notMem_strings (texts : List String) : '\n' ∉ (strings texts).write double := by
  have hothers : ∀ texts : List String, '\n' ∉ others texts := by
    intro texts
    induction texts with
    | nil => decide
    | cons text rest ih =>
        rw [others, List.mem_cons, List.mem_append]
        rintro (hcomma | hquoted | hrest)
        · exact absurd hcomma (by decide)
        · exact newline_notMem_quoted text hquoted
        · exact ih hrest
  rw [write_strings, List.mem_cons]
  rintro (hbracket | hmem)
  · exact absurd hbracket (by decide)
  · cases texts with
    | nil => exact absurd hmem (by decide)
    | cons text rest =>
        rcases List.mem_append.1 hmem with hquoted | hrest
        · exact newline_notMem_quoted text hquoted
        · exact hothers rest hrest

end

end ServerHost
