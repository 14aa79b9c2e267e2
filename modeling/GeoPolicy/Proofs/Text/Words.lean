import GeoPolicy.Proofs.Text.Lines
import Mathlib.Data.List.DropRight

/-!
# Words of a text

Cutting a text at blanks gives back its first and its last word, and cutting a list at commas gives
back its members.

## Main definitions

* `Text.IsWord` — a text that no blank cuts.
* `Text.words` — the words of a text.
* `Text.lastWord` — the last run of characters that are not blank.
* `Text.IsItem`, `Text.items` — the members of a list with commas.
-/

namespace GeoPolicy

namespace Text

/-! ## Blanks at the ends -/

theorem trimChars_eq_rdropWhile (s : List Char) :
    trimChars s = (s.dropWhile isBlank).rdropWhile isBlank := rfl

theorem mem_of_mem_trimChars {c : Char} {s : List Char} (h : c ∈ trimChars s) : c ∈ s := by
  rw [trimChars_eq_rdropWhile] at h
  exact (List.dropWhile_sublist _).subset ((List.rdropWhile_prefix _ _).subset h)

/-- A trimmed text does not end with a carriage return, as that is a blank. -/
theorem isLine_trimChars {s : List Char} (h : '\n' ∉ s) : IsLine (trimChars s) where
  not_mem := fun hmem => h (mem_of_mem_trimChars hmem)
  getLast?_ne := by
    intro hlast
    obtain ⟨t, ht⟩ := List.getLast?_eq_some_iff.1 hlast
    have hne : trimChars s ≠ [] := by simp [ht]
    rw [trimChars_eq_rdropWhile] at hlast hne
    have hblank := List.rdropWhile_last_not isBlank _ hne
    rw [List.getLast?_eq_some_getLast hne, Option.some_inj] at hlast
    rw [hlast] at hblank
    exact hblank (by decide)

/-- A text that begins and ends with other characters than blanks stays as it is. -/
theorem trimChars_eq_self {s : List Char} (hfirst : ∀ c ∈ s.head?, isBlank c = false)
    (hlast : ∀ c ∈ s.getLast?, isBlank c = false) : trimChars s = s := by
  have hdrop : s.dropWhile isBlank = s := by
    cases s with
    | nil => rfl
    | cons c s => simp [hfirst c rfl]
  rw [trimChars_eq_rdropWhile, hdrop]
  cases hs : s.getLast? with
  | none => simp [List.getLast?_eq_none_iff.1 hs]
  | some c =>
    obtain ⟨t, rfl⟩ := List.getLast?_eq_some_iff.1 hs
    exact List.rdropWhile_concat_neg _ _ _ (by simp [hlast c hs])

theorem trimChars_append_eq_self {s t : List Char} (hs : s.head?.any (!isBlank ·) = true)
    (ht : t.getLast?.any (!isBlank ·) = true) : trimChars (s ++ t) = s ++ t := by
  obtain ⟨c, hc, hfirst⟩ := (Option.any_eq_true _ _).1 hs
  obtain ⟨d, hd, hlast⟩ := (Option.any_eq_true _ _).1 ht
  apply trimChars_eq_self
  · simpa [hc] using hfirst
  · simpa [hd] using hlast

/-- Trimming keeps a first character that is no blank. -/
theorem head?_trimChars {c : Char} (s : List Char) (hc : isBlank c = false) :
    (trimChars (c :: s)).head? = some c := by
  have hdrop : (c :: s).dropWhile isBlank = c :: s := by simp [hc]
  rw [trimChars_eq_rdropWhile, hdrop]
  obtain ⟨rest, hrest⟩ := List.rdropWhile_prefix isBlank (l := c :: s)
  cases ht : (c :: s).rdropWhile isBlank with
  | nil =>
    have hall := List.rdropWhile_eq_nil_iff.1 ht c List.mem_cons_self
    rw [hc] at hall
    exact absurd hall Bool.false_ne_true
  | cons d t =>
    rw [ht, List.cons_append, List.cons.injEq] at hrest
    rw [List.head?_cons, hrest.1]

theorem getLast?_trimChars (s : List Char) : ∀ c ∈ (trimChars s).getLast?, isBlank c = false := by
  intro c hc
  have hne : trimChars s ≠ [] := by
    intro h
    simp [h] at hc
  have hlast := List.rdropWhile_last_not isBlank (s.dropWhile isBlank) hne
  rw [List.getLast?_eq_some_getLast hne, Option.mem_some_iff] at hc
  subst hc
  simpa [trimChars_eq_rdropWhile] using hlast

/-- Trimming twice is trimming once. -/
theorem trimChars_trimChars (s : List Char) : trimChars (trimChars s) = trimChars s := by
  refine trimChars_eq_self (fun c hc => ?_) (getLast?_trimChars s)
  obtain ⟨rest, hrest⟩ := List.rdropWhile_prefix isBlank (l := s.dropWhile isBlank)
  have hfirst : (s.dropWhile isBlank).head? = some c := by
    rw [← hrest, List.head?_append, ← trimChars_eq_rdropWhile, hc]
    rfl
  have hnot := List.head?_dropWhile_not isBlank s
  rw [hfirst] at hnot
  exact hnot

/-- Blanks around a text are trimmed. -/
theorem trimChars_append_append {before after : List Char}
    (hbefore : ∀ c ∈ before, isBlank c = true) (s : List Char)
    (hafter : ∀ c ∈ after, isBlank c = true) : trimChars (before ++ s ++ after) = trimChars s := by
  rw [trimChars, trimChars, List.append_assoc, List.dropWhile_append_of_pos hbefore,
    List.dropWhile_append]
  split
  · next hnil => rw [List.dropWhile_eq_nil_iff.2 hafter, List.isEmpty_iff.1 hnil]
  · rw [List.reverse_append, List.dropWhile_append_of_pos (by simpa using hafter)]

/-! ## Words -/

/-- A text with characters and without blanks. -/
structure IsWord (s : List Char) : Prop where
  ne_nil : s ≠ []
  not_blank : ∀ c ∈ s, isBlank c = false

theorem isWord_of_all {s : List Char} (h : (s != [] && s.all (!isBlank ·)) = true) :
    IsWord s where
  ne_nil := by
    rintro rfl
    exact absurd h Bool.false_ne_true
  not_blank := by
    simp only [Bool.and_eq_true, List.all_eq_true, Bool.not_eq_true'] at h
    exact h.2

theorem IsWord.isLine {s : List Char} (h : IsWord s) : IsLine s where
  not_mem := fun hc => absurd (h.not_blank _ hc) (by decide)
  getLast?_ne := fun hc => absurd (h.not_blank _ (List.mem_of_getLast? hc)) (by decide)

theorem IsWord.reverse {s : List Char} (h : IsWord s) : IsWord s.reverse where
  ne_nil := by simpa using h.ne_nil
  not_blank := fun c hc => h.not_blank c (List.mem_reverse.1 hc)

theorem trimChars_cons_of_blank {c : Char} (s : List Char) (hc : isBlank c = true) :
    trimChars (c :: s) = trimChars s := by
  simp [trimChars, hc]

theorem trimChars_word {s : List Char} (h : IsWord s) : trimChars s = s :=
  trimChars_eq_self (fun c hc => h.not_blank c (List.mem_of_head? hc))
    fun c hc => h.not_blank c (List.mem_of_getLast? hc)

theorem firstWord_word_append {s t : List Char} (h : IsWord s)
    (ht : t.head?.all isBlank = true) : firstWord (s ++ t) = s := by
  have hdrop : (s ++ t).dropWhile isBlank = s ++ t := by
    cases s with
    | nil => exact absurd rfl h.ne_nil
    | cons c s => simp [h.not_blank c List.mem_cons_self]
  have htake : t.takeWhile (!isBlank ·) = [] := by
    cases t with
    | nil => rfl
    | cons c t => simpa using ht
  rw [firstWord, hdrop, List.takeWhile_append_of_pos (by simpa using h.not_blank), htake,
    List.append_nil]

/-- The last word of a text: the characters after the last blank that a word follows. -/
def lastWord (s : List Char) : List Char :=
  (firstWord s.reverse).reverse

theorem lastWord_append_word {s t : List Char} (h : IsWord t)
    (hs : s.getLast?.all isBlank = true) : lastWord (s ++ t) = t := by
  rw [lastWord, List.reverse_append,
    firstWord_word_append h.reverse (by rwa [List.head?_reverse]), List.reverse_reverse]

/-- The words of a text. -/
def words (s : List Char) : List (List Char) :=
  (s.splitOnP isBlank).filter (!·.isEmpty)

theorem words_cons_of_blank {c : Char} (s : List Char) (hc : isBlank c = true) :
    words (c :: s) = words s := by
  simp [words, List.splitOnP_cons_eq_if_modifyHead, hc]

theorem words_word_append {w t : List Char} (h : IsWord w) (ht : t.head?.all isBlank = true) :
    words (w ++ t) = w :: words t := by
  have hword : ∀ c ∈ w, isBlank c = false := h.not_blank
  cases t with
  | nil => simp [words, List.splitOnP_eq_singleton hword, h.ne_nil]
  | cons c t =>
    have hc : isBlank c = true := ht
    rw [words_cons_of_blank t hc, words, List.splitOnP_append_cons_of_forall_mem hword c hc]
    simp [words, h.ne_nil]

/-- A text that begins with another character than a blank begins with a word. -/
theorem exists_word_append {c : Char} (s : List Char) (hc : isBlank c = false) :
    ∃ w t, c :: s = w ++ t ∧ IsWord w ∧ t.head?.all isBlank = true := by
  refine ⟨(c :: s).takeWhile (!isBlank ·), (c :: s).dropWhile (!isBlank ·),
    List.takeWhile_append_dropWhile.symm, ⟨by simp [hc], fun d hd => ?_⟩, ?_⟩
  · simpa using List.mem_takeWhile_imp hd
  · have hnot := List.head?_dropWhile_not (!isBlank ·) (c :: s)
    cases hhead : ((c :: s).dropWhile (!isBlank ·)).head? with
    | none => rfl
    | some d => simpa [hhead] using hnot

/-- The first word of a text is the first one of its words. -/
theorem firstWord_eq_headD_words (s : List Char) : firstWord s = (words s).headD [] := by
  induction s with
  | nil => rfl
  | cons c s ih =>
    by_cases hc : isBlank c = true
    · rw [words_cons_of_blank s hc, ← ih, firstWord, firstWord, List.dropWhile_cons_of_pos hc]
    · obtain ⟨w, t, hsplit, hw, ht⟩ := exists_word_append s (Bool.eq_false_iff.2 hc)
      rw [hsplit, firstWord_word_append hw ht, words_word_append hw ht, List.headD_cons]

/-! ## Items -/

theorem splitAt_ne_nil (sep : Char) (s : List Char) : splitAt sep s ≠ [] := by
  fun_induction splitAt sep s <;> simp_all

theorem splitAt_of_not_mem {sep : Char} {s : List Char} (h : sep ∉ s) : splitAt sep s = [s] := by
  induction s with
  | nil => rfl
  | cons c s ih =>
    have hc : c ≠ sep := fun e => h (e ▸ List.mem_cons_self)
    rw [splitAt, if_neg hc, ih fun e => h (List.mem_cons_of_mem c e)]

theorem splitAt_append_cons {sep : Char} {s : List Char} (h : sep ∉ s) (rest : List Char) :
    splitAt sep (s ++ sep :: rest) = s :: splitAt sep rest := by
  induction s with
  | nil => simp [splitAt]
  | cons c s ih =>
    have hc : c ≠ sep := fun e => h (e ▸ List.mem_cons_self)
    rw [List.cons_append, splitAt, if_neg hc, ih fun e => h (List.mem_cons_of_mem c e)]

/-- An item of a list with commas: a word without a comma. -/
structure IsItem (s : List Char) : Prop extends IsWord s where
  no_comma : ',' ∉ s

/-- The members of a list with commas between them, without the blanks around them. -/
def items (s : List Char) : List (List Char) :=
  ((splitAt ',' s).map trimChars).filter (· ≠ [])

theorem items_cons_of_blank {c : Char} (s : List Char) (hc : isBlank c = true) :
    items (c :: s) = items s := by
  have hsep : c ≠ ',' := by rintro rfl; exact absurd hc (by decide)
  rw [items, items, splitAt, if_neg hsep]
  cases hs : splitAt ',' s with
  | nil => exact absurd hs (splitAt_ne_nil _ _)
  | cons piece more =>
    rw [List.map_cons, List.map_cons, trimChars_cons_of_blank piece hc]

theorem items_item {w : List Char} (h : IsItem w) : items w = [w] := by
  simp [items, splitAt_of_not_mem h.no_comma, trimChars_word h.toIsWord, h.ne_nil]

theorem items_item_append {w : List Char} (h : IsItem w) (rest : List Char) :
    items (w ++ ',' :: rest) = w :: items rest := by
  simp [items, splitAt_append_cons h.no_comma, trimChars_word h.toIsWord, h.ne_nil]

/-- Items with commas and blanks between them are read back. -/
theorem items_intercalate (ws : List (List Char)) (h : ∀ w ∈ ws, IsItem w) :
    items (List.intercalate [',', ' '] ws) = ws := by
  induction ws with
  | nil => rfl
  | cons w ws ih =>
    have hw : IsItem w := h w List.mem_cons_self
    cases ws with
    | nil => simpa using items_item hw
    | cons v ws =>
      have hrest := ih fun u hu => h u (List.mem_cons_of_mem w hu)
      rw [List.intercalate_cons_cons, List.append_assoc, List.cons_append, List.singleton_append,
        items_item_append hw, items_cons_of_blank _ (by decide), hrest]

end Text

end GeoPolicy
