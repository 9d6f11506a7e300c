import Mathlib.Data.List.Lookmap
import Mathlib.Data.String.Basic

/-!
# Association lists sorted by their keys

A finite map in one canonical form: the keys ascend, so two lists with the same
entries are equal.  `insert` replaces the value of a key that is there.
-/

namespace Fields

variable {κ ν : Type*} [LinearOrder κ]

/-- Every key once, in ascending order. -/
def Sorted (fields : List (κ × ν)) : Prop := fields.Pairwise fun first second => first.1 < second.1

def insert (key : κ) (value : ν) : List (κ × ν) → List (κ × ν)
  | [] => [(key, value)]
  | field :: rest =>
      if key < field.1 then (key, value) :: field :: rest
      else if key = field.1 then (key, value) :: rest
      else field :: insert key value rest

def erase (key : κ) (fields : List (κ × ν)) : List (κ × ν) :=
  fields.filter fun field => field.1 ≠ key

variable {key other : κ} {value new : ν} {field : κ × ν} {fields : List (κ × ν)}

/-! ## Sorted fields -/

theorem Sorted.tail (h : Sorted (field :: fields)) : Sorted fields := (List.pairwise_cons.1 h).2

theorem Sorted.lt_of_mem (h : Sorted (field :: fields)) {second : κ × ν} (hmem : second ∈ fields) :
    field.1 < second.1 := (List.pairwise_cons.1 h).1 second hmem

theorem erase_of_lt (h : ∀ field ∈ fields, key < field.1) : erase key fields = fields :=
  List.filter_eq_self.2 fun field hfield => by simpa using (h field hfield).ne'

/-! ## Inserting and erasing -/

theorem mem_insert (h : field ∈ insert key value fields) :
    field = (key, value) ∨ field ∈ fields := by
  induction fields with
  | nil => exact .inl (List.mem_singleton.1 h)
  | cons head rest ih =>
      unfold insert at h
      split at h
      · exact List.mem_cons.1 h
      split at h
      · exact (List.mem_cons.1 h).imp_right fun hrest => List.mem_cons_of_mem _ hrest
      · rcases List.mem_cons.1 h with rfl | hrest
        · exact .inr List.mem_cons_self
        · exact (ih hrest).imp_right fun hold => List.mem_cons_of_mem _ hold

theorem Sorted.insert (h : Sorted fields) : Sorted (insert key value fields) := by
  induction fields with
  | nil => exact List.pairwise_singleton ..
  | cons head rest ih =>
      unfold Fields.insert
      split
      · next hlt =>
          refine List.pairwise_cons.2 ⟨fun second hsecond => ?_, h⟩
          rcases List.mem_cons.1 hsecond with rfl | hrest
          · exact hlt
          · exact hlt.trans (h.lt_of_mem hrest)
      · next hge =>
          split
          · next heq =>
              exact List.pairwise_cons.2 ⟨fun second hsecond => heq ▸ h.lt_of_mem hsecond, h.tail⟩
          · next hne =>
              refine List.pairwise_cons.2 ⟨fun second hsecond => ?_, ih h.tail⟩
              rcases mem_insert hsecond with rfl | hold
              · exact lt_of_le_of_ne (not_lt.1 hge) (Ne.symm hne)
              · exact h.lt_of_mem hold

theorem Sorted.erase (h : Sorted fields) : Sorted (erase key fields) := List.Pairwise.filter _ h

/-- Inserting is putting in place of what is there. -/
theorem insert_perm (h : Sorted fields) :
    (insert key value fields).Perm ((key, value) :: erase key fields) := by
  induction fields with
  | nil => exact .refl _
  | cons head rest ih =>
      unfold insert
      split
      · next hlt =>
          rw [erase_of_lt]
          intro second hsecond
          rcases List.mem_cons.1 hsecond with rfl | hrest
          · exact hlt
          · exact hlt.trans (h.lt_of_mem hrest)
      · split
        · next heq =>
            have herase : erase key (head :: rest) = rest := by
              rw [erase, List.filter_cons_of_neg (by simp [heq])]
              exact erase_of_lt fun second hsecond => heq ▸ h.lt_of_mem hsecond
            rw [herase]
        · next hne =>
            have herase : erase key (head :: rest) = head :: erase key rest :=
              List.filter_cons_of_pos (by simpa using Ne.symm hne)
            rw [herase]
            exact ((ih h.tail).cons head).trans (.swap ..)

/-! ## Looking up -/

/-- Two sorted lists with the same entries are one. -/
theorem eq_of_perm {second : List (κ × ν)} (h : Sorted fields) (h' : Sorted second)
    (hperm : fields.Perm second) : fields = second :=
  hperm.eq_of_pairwise (fun _ _ _ _ hlt hgt => absurd (hlt.trans hgt) (lt_irrefl _)) h h'

theorem lookup_eq_some (h : Sorted fields) :
    fields.lookup key = some value ↔ (key, value) ∈ fields := by
  induction fields with
  | nil => simp
  | cons head rest ih =>
      obtain ⟨own, stored⟩ := head
      rw [List.lookup_cons]
      split
      · next heq =>
          obtain rfl := eq_of_beq heq
          simp only [Option.some.injEq, List.mem_cons, Prod.mk.injEq, true_and]
          refine ⟨fun hvalue => .inl hvalue.symm, ?_⟩
          rintro (rfl | hrest)
          · rfl
          · exact absurd (h.lt_of_mem hrest) (lt_irrefl _)
      · next hne =>
          rw [ih h.tail, List.mem_cons, or_iff_right]
          rintro heq
          cases heq
          simp at hne

theorem perm_of_lookup (h : Sorted fields) (hlookup : fields.lookup key = some value) :
    fields.Perm ((key, value) :: erase key fields) := by
  have hmem := (lookup_eq_some h).1 hlookup
  induction fields with
  | nil => simp at hmem
  | cons head rest ih =>
      rcases List.mem_cons.1 hmem with rfl | hrest
      · have herase : erase key ((key, value) :: rest) = rest := by
          rw [erase, List.filter_cons_of_neg (by simp)]
          exact erase_of_lt fun second hsecond => h.lt_of_mem hsecond
        rw [herase]
      · have hne : head.1 ≠ key := (h.lt_of_mem hrest).ne
        have herase : erase key (head :: rest) = head :: erase key rest :=
          List.filter_cons_of_pos (by simpa using hne)
        rw [herase]
        exact ((ih h.tail ((lookup_eq_some h.tail).2 hrest) hrest).cons head).trans (.swap ..)

/-! ## Writing twice -/

/-- Putting back what was taken out. -/
theorem insert_erase (h : Sorted fields) (hlookup : fields.lookup key = some value) :
    insert key value (erase key fields) = fields := by
  refine eq_of_perm h.erase.insert h ((insert_perm h.erase).trans ?_)
  have htwice : erase key (erase key fields) = erase key fields := by simp [erase]
  rw [htwice]
  exact (perm_of_lookup h hlookup).symm

@[simp] theorem erase_insert (h : Sorted fields) :
    erase key (insert key value fields) = erase key fields := by
  refine eq_of_perm h.insert.erase h.erase ?_
  have hperm : (erase key (insert key value fields)).Perm
      (erase key ((key, value) :: erase key fields)) :=
    (insert_perm h).filter _
  simpa [erase] using hperm

/-- The last value counts. -/
theorem insert_insert (h : Sorted fields) :
    insert key value (insert key new fields) = insert key value fields := by
  refine eq_of_perm h.insert.insert h.insert ((insert_perm h.insert).trans ?_)
  rw [erase_insert h]
  exact (insert_perm h).symm

theorem insert_of_lookup (h : Sorted fields) (hlookup : fields.lookup key = some value) :
    insert key value fields = fields := by
  refine eq_of_perm h.insert h ((insert_perm h).trans (perm_of_lookup h hlookup).symm)

theorem lookup_insert (h : Sorted fields) : (insert key value fields).lookup key = some value :=
  (lookup_eq_some h.insert).2 ((insert_perm h).mem_iff.2 List.mem_cons_self)

@[simp] theorem lookup_erase : (erase key fields).lookup key = none := by
  rw [List.lookup_eq_none_iff]
  intro field hfield
  have hne : field.1 ≠ key := of_decide_eq_true (List.mem_filter.1 hfield).2
  exact bne_iff_ne.2 (Ne.symm hne)

theorem lookup_insert_of_ne (h : Sorted fields) (hne : other ≠ key) :
    (insert key value fields).lookup other = fields.lookup other := by
  refine Option.ext fun found => ?_
  rw [lookup_eq_some h.insert, lookup_eq_some h, (insert_perm h).mem_iff]
  simp [erase, hne]

end Fields
