import Mathlib.Data.List.AList

/-!
# Tables

Finite tables with one value per key, over Mathlib's `AList`.  The order of the
entries is the order in which a program walks the table; `Table.Same` relates
two tables that differ only in that order, which is what a hash table promises.

Every fact here is about `lookup`, so a property proved through this interface
does not depend on the order.
-/

/-- One value of type `V` for each key in the table. -/
abbrev Table (K V : Type*) := AList fun _ : K => V

namespace Table

variable {K V : Type*} [DecidableEq K]

/-- The same entries, possibly walked in another order. -/
def Same (first second : Table K V) : Prop := first.entries.Perm second.entries

/-- Change the value stored under `key`, if there is one.  The walk order stays. -/
def modify (key : K) (f : V → V) (table : Table K V) : Table K V where
  entries := table.entries.map fun entry => ⟨entry.1, if entry.1 = key then f entry.2 else entry.2⟩
  nodupKeys := by
    simpa [List.NodupKeys, List.keys, Function.comp_def] using table.nodupKeys

/-- The table with these values; the first one of a key counts. -/
def ofList (list : List (K × V)) : Table K V :=
  list.foldr (fun entry table => table.insert entry.1 entry.2) ∅

/-- The value under `key`, or a default when the key is absent. -/
def value [Inhabited V] (table : Table K V) (key : K) : V :=
  (table.lookup key).getD default

/-- Every entry satisfies `P`. -/
def All (P : K → V → Prop) (table : Table K V) : Prop :=
  ∀ key value, table.lookup key = some value → P key value

/-! ## Lookups after an update -/

theorem lookup_insert_eq_some {table : Table K V} {key other : K} {new value : V} :
    (table.insert key new).lookup other = some value ↔
      (other = key ∧ new = value) ∨ (other ≠ key ∧ table.lookup other = some value) := by
  by_cases h : other = key
  · subst h
    simp [AList.lookup_insert]
  · simp [AList.lookup_insert_ne h, h]

theorem lookup_erase_eq_some {table : Table K V} {key other : K} {value : V} :
    (table.erase key).lookup other = some value ↔
      other ≠ key ∧ table.lookup other = some value := by
  by_cases h : other = key
  · subst h
    simp [AList.lookup_erase]
  · simp [AList.lookup_erase_ne h, h]

theorem lookup_modify (table : Table K V) (key other : K) (f : V → V) :
    (modify key f table).lookup other =
      if other = key then (table.lookup key).map f else table.lookup other := by
  simp only [modify, AList.lookup]
  induction table.entries with
  | nil => simp
  | cons entry rest ih =>
      obtain ⟨k, v⟩ := entry
      by_cases hk : other = k
      · subst hk
        by_cases ho : other = key
        · subst ho
          simp
        · simp [ho]
      · have hne : ∀ w : V, other ≠ (⟨k, w⟩ : Sigma fun _ : K => V).1 := fun _ => hk
        simp only [List.map_cons, List.dlookup_cons_ne _ _ (hne _), ih]
        by_cases ho : other = key
        · subst ho
          simp [List.dlookup_cons_ne _ _ (hne _)]
        · simp [ho]

theorem lookup_modify_eq_some {table : Table K V} {key other : K} {f : V → V} {value : V} :
    (modify key f table).lookup other = some value ↔
      (other = key ∧ ∃ old, table.lookup key = some old ∧ f old = value) ∨
        (other ≠ key ∧ table.lookup other = some value) := by
  rw [lookup_modify]
  by_cases h : other = key <;> simp [h]

theorem modify_modify (table : Table K V) (key : K) (f g : V → V) :
    modify key f (modify key g table) = modify key (fun value => f (g value)) table := by
  apply AList.ext
  simp only [modify, List.map_map]
  refine List.map_congr_left fun entry _ => ?_
  by_cases h : entry.1 = key <;> simp [h]

theorem modify_id (table : Table K V) (key : K) :
    modify key (fun value => value) table = table := by
  apply AList.ext
  simp [modify]

@[simp] theorem keys_modify (table : Table K V) (key : K) (f : V → V) :
    (modify key f table).keys = table.keys := by
  simp [modify, AList.keys, List.keys, Function.comp_def]

@[simp] theorem mem_modify {table : Table K V} {key other : K} {f : V → V} :
    other ∈ modify key f table ↔ other ∈ table := by
  simp [AList.mem_keys]

theorem mem_iff_lookup {table : Table K V} {key : K} :
    key ∈ table ↔ ∃ value, table.lookup key = some value := by
  rw [← AList.lookup_isSome, Option.isSome_iff_exists]

theorem mem_of_lookup {table : Table K V} {key : K} {value : V}
    (h : table.lookup key = some value) : key ∈ table :=
  mem_iff_lookup.2 ⟨value, h⟩

theorem value_of_lookup [Inhabited V] {table : Table K V} {key : K} {value : V}
    (h : table.lookup key = some value) : Table.value table key = value := by
  simp [Table.value, h]

theorem lookup_of_mem_entries {table : Table K V} {entry : Sigma fun _ : K => V}
    (h : entry ∈ table.entries) : table.lookup entry.1 = some entry.2 :=
  AList.mem_lookup_iff.2 h

/-! ## Properties of every entry -/

theorem All.empty (P : K → V → Prop) : All P (∅ : Table K V) := by
  intro key value h
  simp at h

theorem All.insert {P : K → V → Prop} {table : Table K V} {key : K} {value : V}
    (h : All P table) (hnew : P key value) : All P (table.insert key value) := by
  intro other stored hstored
  rcases lookup_insert_eq_some.1 hstored with ⟨rfl, rfl⟩ | ⟨-, hold⟩
  · exact hnew
  · exact h other stored hold

theorem All.erase {P : K → V → Prop} {table : Table K V} (h : All P table) (key : K) :
    All P (table.erase key) := by
  intro other stored hstored
  exact h other stored (lookup_erase_eq_some.1 hstored).2

theorem All.modify {P : K → V → Prop} {table : Table K V} {key : K} {f : V → V}
    (h : All P table) (hf : ∀ value, table.lookup key = some value → P key (f value)) :
    All P (Table.modify key f table) := by
  intro other stored hstored
  rcases lookup_modify_eq_some.1 hstored with ⟨rfl, old, hold, rfl⟩ | ⟨-, hold⟩
  · exact hf old hold
  · exact h other stored hold

theorem All.imp {P Q : K → V → Prop} {table : Table K V} (h : All P table)
    (himp : ∀ key value, table.lookup key = some value → P key value → Q key value) :
    All Q table :=
  fun key value hvalue => himp key value hvalue (h key value hvalue)

/-! ## Counting -/

/-- How many entries satisfy `p`. -/
def count (p : V → Bool) (table : Table K V) : ℕ := table.entries.countP fun entry => p entry.2

theorem count_eq_zero {p : V → Bool} {table : Table K V}
    (h : All (fun _ value => p value = false) table) : count p table = 0 := by
  rw [count, List.countP_eq_zero]
  intro entry hentry
  rw [h entry.1 entry.2 (lookup_of_mem_entries hentry)]
  exact Bool.false_ne_true

/-- At most one entry satisfies `p` when two such entries have the same key. -/
theorem count_le_one {p : V → Bool} {table : Table K V}
    (h : All (fun key value => p value = true →
      All (fun other own => p own = true → other = key) table) table) : count p table ≤ 1 := by
  rw [count, List.countP_eq_length_filter]
  have hkeys : (table.entries.filter fun entry => p entry.2).NodupKeys :=
    table.nodupKeys.sublist List.filter_sublist
  have hmem : ∀ entry ∈ table.entries.filter fun entry => p entry.2,
      table.lookup entry.1 = some entry.2 ∧ p entry.2 = true := by
    intro entry hentry
    rw [List.mem_filter] at hentry
    exact ⟨lookup_of_mem_entries hentry.1, hentry.2⟩
  generalize (table.entries.filter fun entry => p entry.2) = list at *
  match list with
  | [] => simp
  | [_] => simp
  | first :: second :: rest =>
      obtain ⟨hfirst, hpfirst⟩ := hmem first (by simp)
      obtain ⟨hsecond, hpsecond⟩ := hmem second (by simp)
      have hkey : second.1 = first.1 := h _ _ hfirst hpfirst _ _ hsecond hpsecond
      simp [List.NodupKeys, List.keys, hkey] at hkeys

theorem count_pos {p : V → Bool} {table : Table K V} {key : K} {value : V}
    (h : table.lookup key = some value) (hp : p value = true) : 0 < count p table :=
  List.countP_pos_iff.2 ⟨⟨key, value⟩, AList.mem_lookup_iff.1 h, hp⟩

theorem count_erase_le (p : V → Bool) (table : Table K V) (key : K) :
    count p (table.erase key) ≤ count p table :=
  (List.kerase_sublist key table.entries).countP_le

/-- The entry that is erased counted for itself. -/
theorem count_erase {p : V → Bool} {table : Table K V} {key : K} {value : V}
    (h : table.lookup key = some value) :
    count p (table.erase key) + (if p value then 1 else 0) = count p table := by
  obtain ⟨own, front, back, -, hentries, herase⟩ :=
    List.exists_of_kerase (AList.mem_keys.1 (mem_of_lookup h))
  have hmem : (⟨key, own⟩ : Sigma fun _ : K => V) ∈ table.entries := by simp [hentries]
  have hown : table.lookup key = some own := lookup_of_mem_entries hmem
  obtain rfl : own = value := Option.some.inj (hown.symm.trans h)
  have hleft : (table.erase key).entries = front ++ back := herase
  rw [count, count, hleft, hentries, List.countP_append, List.countP_append, List.countP_cons]
  dsimp only
  omega

theorem count_insert_le (p : V → Bool) (table : Table K V) (key : K) (value : V) :
    count p (table.insert key value) ≤ count p table + if p value then 1 else 0 := by
  have hentries : (table.insert key value).entries = ⟨key, value⟩ :: (table.erase key).entries :=
    AList.entries_insert
  rw [count, hentries, List.countP_cons]
  exact Nat.add_le_add_right (count_erase_le p table key) _

omit [DecidableEq K] in
theorem Same.count {first second : Table K V} (h : Same first second) (p : V → Bool) :
    Table.count p second = Table.count p first :=
  (h.countP_eq _).symm

/-! ## Walking the keys

A loop over the keys visits each entry once, with rounds that only remove
entries. -/

section
variable {σ : Type*} {table : σ → Table K V} {round : σ → K → σ}

/-- What is left after the loop was there before it. -/
theorem foldl_lookup_of_shrinks
    (shrinks : ∀ state key other value, (table (round state key)).lookup other = some value →
      (table state).lookup other = some value)
    (keys : List K) (state : σ) {key : K} {value : V}
    (h : (table (keys.foldl round state)).lookup key = some value) :
    (table state).lookup key = some value := by
  induction keys generalizing state with
  | nil => exact h
  | cons head rest ih => exact shrinks state head key value (ih _ h)

/-- If a round leaves nothing bad under its own key, the loop leaves nothing bad
under any key it visits. -/
theorem foldl_clears {bad : V → Prop}
    (shrinks : ∀ state key other value, (table (round state key)).lookup other = some value →
      (table state).lookup other = some value)
    (clears : ∀ state key value, (table (round state key)).lookup key = some value → ¬ bad value)
    (keys : List K) (state : σ) {key : K} {value : V} (hkey : key ∈ keys)
    (h : (table (keys.foldl round state)).lookup key = some value) : ¬ bad value := by
  induction keys generalizing state with
  | nil => simp at hkey
  | cons head rest ih =>
      by_cases hrest : key ∈ rest
      · exact ih (round state head) hrest h
      · have hhead : key = head := (List.mem_cons.1 hkey).resolve_right hrest
        subst hhead
        exact clears state key value (foldl_lookup_of_shrinks shrinks rest _ h)

/-- Nothing bad is left when the loop visits every key. -/
theorem foldl_keys_all (table : σ → Table K V) (round : σ → K → σ) (bad : V → Prop)
    (shrinks : ∀ state key other value, (table (round state key)).lookup other = some value →
      (table state).lookup other = some value)
    (clears : ∀ state key value, (table (round state key)).lookup key = some value → ¬ bad value)
    (state : σ) :
    All (fun _ value => ¬ bad value) (table ((table state).keys.foldl round state)) := by
  intro key value h
  have hbefore := foldl_lookup_of_shrinks shrinks _ _ h
  exact foldl_clears shrinks clears _ _ (AList.mem_keys.1 (mem_of_lookup hbefore)) h

end

/-! ## Walking in another order -/

theorem Same.lookup {first second : Table K V} (h : Same first second) (key : K) :
    first.lookup key = second.lookup key :=
  AList.perm_lookup h

theorem Same.all {P : K → V → Prop} {first second : Table K V} (h : Same first second)
    (hall : All P first) : All P second := by
  intro key value hvalue
  exact hall key value (by rw [h.lookup, hvalue])

omit [DecidableEq K] in
theorem Same.refl (table : Table K V) : Same table table := List.Perm.refl _

end Table
