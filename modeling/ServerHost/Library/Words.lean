import Mathlib.Data.List.Basic
import Mathlib.Data.List.Infix

/-!
# Words behind separators

A path is a list of words, each written behind a separator; without words, it is the
separator alone.  `words` reads the list back.  The main result is about the test that
looks for a spelled path with one more separator at the start of another: it finds the
proper prefixes of the words, but for the empty path (`spell_append_prefix_iff`).
-/

namespace Words

variable {α : Type*} (sep : α)

/-- The text of a path. -/
def spell (path : List (List α)) : List α :=
  match path with
  | [] => [sep]
  | word :: rest => (word :: rest).flatMap (sep :: ·)

/-- No word is empty or has a separator in it. -/
def Proper (path : List (List α)) : Prop := ∀ word ∈ path, word ≠ [] ∧ sep ∉ word

section
variable {sep} {path root : List (List α)} {word : List α}

/-! ## Paths of words -/

theorem Proper.head (h : Proper sep (word :: path)) : word ≠ [] ∧ sep ∉ word :=
  h word List.mem_cons_self

theorem Proper.tail (h : Proper sep (word :: path)) : Proper sep path :=
  fun other hother => h other (List.mem_cons_of_mem _ hother)

/-- Two words that start the same text up to a separator are the same. -/
theorem append_sep_prefix {first second after rest : List α} (hfirst : sep ∉ first)
    (hsecond : sep ∉ second) (hrest : ∀ head ∈ rest.head?, head = sep)
    (h : first ++ sep :: after <+: second ++ rest) : first = second ∧ sep :: after <+: rest := by
  induction first generalizing second with
  | nil =>
      cases second with
      | nil => exact ⟨rfl, h⟩
      | cons c others =>
          obtain ⟨heq, -⟩ := List.cons_prefix_cons.1 h
          exact absurd (heq ▸ List.mem_cons_self) hsecond
  | cons c others ih =>
      cases second with
      | nil =>
          cases rest with
          | nil => simp at h
          | cons d tail =>
              obtain ⟨heq, -⟩ := List.cons_prefix_cons.1 h
              exact absurd (by simp [heq, hrest d rfl]) hfirst
      | cons d tail =>
          obtain ⟨heq, h⟩ := List.cons_prefix_cons.1 h
          obtain ⟨htail, hprefix⟩ := ih (fun hmem => hfirst (List.mem_cons_of_mem _ hmem))
            (fun hmem => hsecond (List.mem_cons_of_mem _ hmem)) h
          exact ⟨by rw [heq, htail], hprefix⟩

theorem flatMap_append_prefix_iff (hroot : Proper sep root) (hpath : Proper sep path) :
    root.flatMap (sep :: ·) ++ [sep] <+: path.flatMap (sep :: ·) ↔
      ∃ word rest, path = root ++ word :: rest := by
  induction root generalizing path with
  | nil =>
      cases path with
      | nil => simp
      | cons word rest => simp
  | cons first others ih =>
      cases path with
      | nil => simp
      | cons word rest =>
          have hnext := ih hroot.tail hpath.tail
          -- what follows the first word starts with a separator on both sides
          obtain ⟨after, hafter⟩ : ∃ after, others.flatMap (sep :: ·) ++ [sep] = sep :: after := by
            cases others with
            | nil => exact ⟨[], rfl⟩
            | cons => exact ⟨_, rfl⟩
          have hhead : ∀ head ∈ (rest.flatMap (sep :: ·)).head?, head = sep := by
            cases rest with
            | nil => simp
            | cons => simp
          rw [List.flatMap_cons, List.flatMap_cons, List.append_assoc, hafter, List.cons_append,
            List.cons_append, List.cons_prefix_cons, and_iff_right rfl]
          constructor
          · intro h
            obtain ⟨heq, hprefix⟩ := append_sep_prefix hroot.head.2 hpath.head.2 hhead h
            rw [← hafter] at hprefix
            obtain ⟨next, tail, hrest⟩ := hnext.1 hprefix
            exact ⟨next, tail, by rw [heq, hrest, List.cons_append]⟩
          · rintro ⟨next, tail, heq⟩
            obtain ⟨rfl, hrest⟩ := List.cons.inj heq
            have hprefix := hnext.2 ⟨next, tail, hrest⟩
            rw [hafter] at hprefix
            exact (List.prefix_append_right_inj _).2 hprefix

/-- **Text and words.**  A path with one more separator starts the text of exactly the paths
below it.  The path without words has two separators then, and starts none. -/
theorem spell_append_prefix_iff (hroot : Proper sep root) (hpath : Proper sep path) :
    spell sep root ++ [sep] <+: spell sep path ↔
      root ≠ [] ∧ ∃ word rest, path = root ++ word :: rest := by
  cases root with
  | nil =>
      refine iff_of_false (fun h => ?_) fun h => h.1 rfl
      cases path with
      | nil => simp [spell] at h
      | cons word rest =>
          -- The second character is the first one of a word.
          have hword := hpath.head
          obtain ⟨c, others, rfl⟩ := List.exists_cons_of_ne_nil hword.1
          simp only [spell, List.flatMap_cons, List.cons_append, List.nil_append,
            List.cons_prefix_cons, true_and] at h
          exact hword.2 (by simp [h.1])
  | cons first others =>
      rw [and_iff_right (List.cons_ne_nil _ _), ← flatMap_append_prefix_iff hroot hpath]
      cases path with
      | nil =>
          obtain ⟨c, tail, hc⟩ := List.exists_cons_of_ne_nil hroot.head.1
          simp [spell, hc]
      | cons word rest => exact Iff.rfl

end

variable [DecidableEq α]

/-! ## Splitting a text -/

/-- The words of a text, without the empty ones. -/
def words (text : List α) : List (List α) := (text.splitOn sep).filter fun word => word ≠ []

variable {sep} {path root : List (List α)} {word : List α}

theorem not_mem_of_mem_splitOn {text : List α} (h : word ∈ text.splitOn sep) : sep ∉ word := by
  induction text generalizing word with
  | nil =>
      rw [List.splitOn_nil, List.mem_singleton] at h
      rw [h]
      exact List.not_mem_nil
  | cons c rest ih =>
      rw [List.splitOn_cons_eq_if_modifyHead] at h
      split at h
      · rcases List.mem_cons.1 h with rfl | hrest
        · exact List.not_mem_nil
        · exact ih hrest
      · next hc =>
          obtain ⟨first, others, hsplit⟩ :=
            List.exists_cons_of_ne_nil (List.splitOn_ne_nil sep rest)
          rw [hsplit] at h ih
          rcases List.mem_cons.1 h with rfl | hrest
          · intro hmem
            rcases List.mem_cons.1 hmem with heq | hmem
            · exact hc (by simp [heq])
            · exact ih List.mem_cons_self hmem
          · exact ih (List.mem_cons_of_mem _ hrest)

/-- What is not a separator stands in a word. -/
theorem eq_or_mem_splitOn {text : List α} {c : α} (h : c ∈ text) :
    c = sep ∨ ∃ word ∈ text.splitOn sep, c ∈ word := by
  induction text with
  | nil => cases h
  | cons d rest ih =>
      rw [List.splitOn_cons_eq_if_modifyHead]
      obtain ⟨first, others, hsplit⟩ := List.exists_cons_of_ne_nil (List.splitOn_ne_nil sep rest)
      split
      · next hd =>
          rcases List.mem_cons.1 h with rfl | hrest
          · exact .inl (beq_iff_eq.1 hd)
          · refine (ih hrest).imp_right ?_
            rintro ⟨word, hword, hc⟩
            exact ⟨word, List.mem_cons_of_mem _ hword, hc⟩
      · rw [hsplit, List.modifyHead_cons]
        rcases List.mem_cons.1 h with rfl | hrest
        · exact .inr ⟨_, List.mem_cons_self, List.mem_cons_self⟩
        · refine (ih hrest).imp_right ?_
          rintro ⟨word, hword, hc⟩
          rw [hsplit] at hword
          rcases List.mem_cons.1 hword with rfl | hmem
          · exact ⟨_, List.mem_cons_self, List.mem_cons_of_mem _ hc⟩
          · exact ⟨word, List.mem_cons_of_mem _ hmem, hc⟩

theorem words_proper (text : List α) : Proper sep (words sep text) := by
  intro word hword
  obtain ⟨hmem, hne⟩ := List.mem_filter.1 hword
  exact ⟨of_decide_eq_true hne, not_mem_of_mem_splitOn hmem⟩

/-- The words of a path that is spelled out. -/
theorem words_flatMap (h : Proper sep path) : words sep (path.flatMap (sep :: ·)) = path := by
  induction path with
  | nil => rfl
  | cons word rest ih =>
      have hword := h.head
      have hrest : words sep (rest.flatMap (sep :: ·)) = rest := ih h.tail
      rw [words] at hrest ⊢
      rw [List.flatMap_cons, List.cons_append, List.splitOn_cons_eq_if_modifyHead, if_pos (by simp)]
      -- The first word ends at the next separator, or the text does.
      cases rest with
      | nil =>
          rw [List.flatMap_nil, List.append_nil, List.splitOn_eq_singleton hword.2]
          simp [hword.1]
      | cons next others =>
          rw [List.flatMap_cons, List.cons_append] at hrest ⊢
          rw [List.splitOn_append_cons_self, List.splitOn_eq_singleton hword.2]
          rw [List.splitOn_cons_eq_if_modifyHead, if_pos (by simp)] at hrest
          simpa [hword.1] using hrest

theorem words_spell (h : Proper sep path) : words sep (spell sep path) = path := by
  cases path with
  | nil =>
      rw [spell, words, List.splitOn_cons_eq_if_modifyHead, if_pos (by simp)]
      rfl
  | cons word rest => exact words_flatMap h

theorem spell_inj (hroot : Proper sep root) (hpath : Proper sep path) :
    spell sep path = spell sep root ↔ path = root := by
  constructor
  · intro h
    rw [← words_spell hpath, h, words_spell hroot]
  · exact fun h => h ▸ rfl

end Words
