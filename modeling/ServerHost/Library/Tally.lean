import Mathlib.Algebra.BigOperators.Group.Finset.Piecewise
import Mathlib.Algebra.GroupWithZero.Nat
import Mathlib.Algebra.Order.BigOperators.Group.Finset
import ServerHost.Library.Table

/-!
# Sums over tables

The sum of a weight over the entries of a table.  Two tables are compared key by key:
what is not in the first table, or weighs more there, has to be paid for.
-/

namespace Table

variable {K V : Type*} [DecidableEq K]

/-- What the entries weigh together. -/
def sum (weight : K → V → ℕ) (table : Table K V) : ℕ :=
  (table.entries.map fun entry => weight entry.1 entry.2).sum

/-- What a key adds to the sum. -/
def share (weight : K → V → ℕ) (table : Table K V) (key : K) : ℕ :=
  (table.lookup key).elim 0 (weight key)

variable {first second : Table K V} {weight heavier : K → V → ℕ}

theorem share_eq_zero {key : K} (h : key ∉ second.keys.toFinset) : share weight second key = 0 := by
  have hnone : second.lookup key = none := by
    rw [AList.lookup_eq_none]
    exact fun hmem => h (List.mem_toFinset.2 (AList.mem_keys.1 hmem))
  rw [share, hnone, Option.elim_none]

theorem share_le {key : K}
    (h : ∀ value, second.lookup key = some value → weight key value = 0 ∨
      ∃ old, first.lookup key = some old ∧ weight key value ≤ heavier key old) :
    share weight second key ≤ share heavier first key := by
  cases hlookup : second.lookup key with
  | none => simp [share, hlookup]
  | some value =>
      rcases h value hlookup with hzero | ⟨old, hold, hle⟩
      · simp [share, hlookup, hzero]
      · simpa [share, hlookup, hold] using hle

theorem sum_eq_finset (table : Table K V) :
    sum weight table = ∑ key ∈ table.keys.toFinset, share weight table key := by
  rw [List.sum_toFinset _ (AList.keys_nodup table), AList.keys, List.keys, List.map_map, sum]
  congr 1
  refine List.map_congr_left fun entry hentry => ?_
  rw [Function.comp_apply, share, lookup_of_mem_entries hentry, Option.elim_some]

/-- Outside one key, nothing weighs more in the second table than in the first. -/
theorem sum_le_add (key : K) {extra : ℕ}
    (h : ∀ other value, other ≠ key → second.lookup other = some value → weight other value = 0 ∨
      ∃ old, first.lookup other = some old ∧ weight other value ≤ heavier other old)
    (hkey : ∀ value, second.lookup key = some value → weight key value ≤ extra) :
    sum weight second ≤ sum heavier first + extra := by
  -- Both sums range over the keys of both tables; only `key` is compared with `extra`.
  have hwide : ∀ (table : Table K V) (weight : K → V → ℕ) (keys : Finset K),
      table.keys.toFinset ⊆ keys → sum weight table = ∑ own ∈ keys, share weight table own := by
    intro table weight keys hsub
    rw [sum_eq_finset]
    exact Finset.sum_subset hsub fun own _ hout => share_eq_zero hout
  have hsecond := hwide second weight (first.keys.toFinset ∪ second.keys.toFinset)
    Finset.subset_union_right
  have hfirst := hwide first heavier (first.keys.toFinset ∪ second.keys.toFinset)
    Finset.subset_union_left
  generalize first.keys.toFinset ∪ second.keys.toFinset = keys at hsecond hfirst
  have hown : share weight second key ≤ extra := by
    cases hlookup : second.lookup key with
    | none => simp [share, hlookup]
    | some value => simpa [share, hlookup] using hkey value hlookup
  have hpoint : ∀ own ∈ keys, share weight second own ≤
      share heavier first own + if own = key then extra else 0 := by
    intro own _
    by_cases heq : own = key
    · subst heq
      rw [if_pos rfl]
      omega
    · rw [if_neg heq]
      exact share_le fun value hvalue => h own value heq hvalue
  calc sum weight second
      = ∑ own ∈ keys, share weight second own := hsecond
    _ ≤ ∑ own ∈ keys, (share heavier first own + if own = key then extra else 0) :=
        Finset.sum_le_sum hpoint
    _ ≤ sum heavier first + extra := by
        rw [Finset.sum_add_distrib, ← hfirst, Finset.sum_ite_eq']
        split <;> omega

theorem sum_le_sum
    (h : ∀ key value, second.lookup key = some value → weight key value = 0 ∨
      ∃ old, first.lookup key = some old ∧ weight key value ≤ heavier key old) :
    sum weight second ≤ sum heavier first := by
  rw [sum_eq_finset, sum_eq_finset]
  calc ∑ key ∈ second.keys.toFinset, share weight second key
      ≤ ∑ key ∈ second.keys.toFinset, share heavier first key :=
        Finset.sum_le_sum fun key _ => share_le (h key)
    _ ≤ ∑ key ∈ first.keys.toFinset ∪ second.keys.toFinset, share heavier first key :=
        Finset.sum_le_sum_of_subset Finset.subset_union_right
    _ = ∑ key ∈ first.keys.toFinset, share heavier first key :=
        (Finset.sum_subset Finset.subset_union_left fun key _ hout => share_eq_zero hout).symm

/-- One entry, and the entries of the other keys. -/
theorem sum_split {table : Table K V} {key : K} {value : V} (h : table.lookup key = some value) :
    sum (fun other value => if other = key then 0 else weight other value) table +
      weight key value = sum weight table := by
  have hmem : key ∈ table.keys.toFinset :=
    List.mem_toFinset.2 (AList.mem_keys.1 (mem_of_lookup h))
  have hkey : share weight table key = weight key value := by
    rw [share, h, Option.elim_some]
  have hothers : ∀ other, share (fun other value => if other = key then 0 else weight other value)
      table other = if other = key then 0 else share weight table other := by
    intro other
    by_cases heq : other = key <;> cases hlookup : table.lookup other <;>
      simp [share, hlookup, heq]
  rw [sum_eq_finset, sum_eq_finset, Finset.sum_congr rfl fun other _ => hothers other,
    ← Finset.add_sum_erase _ _ hmem, ← Finset.add_sum_erase _ (share weight table) hmem, hkey,
    if_pos rfl, zero_add, add_comm]
  congr 1
  exact Finset.sum_congr rfl fun other hother => if_neg (Finset.ne_of_mem_erase hother)

end Table
