import GeoPolicy.Text.Blank
import Mathlib.Data.List.Forall2

/-!
# Lines of a text

Cutting a text at line ends gives back the lines it was made of, whether a line feed stands after
each or between them.

## Main definitions

* `Text.IsLine` — a text that no line end cuts.
-/

namespace GeoPolicy

namespace Text

/-! ## Lines -/

/-- A text without a line feed. A carriage return at its end would be taken for a part of the
line end that follows. -/
structure IsLine (s : List Char) : Prop where
  not_mem : '\n' ∉ s
  getLast?_ne : s.getLast? ≠ some '\r'

theorem isLine_of_not_mem {s : List Char} (hfeed : '\n' ∉ s) (hreturn : '\r' ∉ s) : IsLine s where
  not_mem := hfeed
  getLast?_ne := fun hlast => hreturn (List.mem_of_getLast? hlast)

theorem IsLine.nil : IsLine [] where
  not_mem := List.not_mem_nil
  getLast?_ne := by simp

theorem IsLine.tail {c : Char} {s : List Char} (h : IsLine (c :: s)) : IsLine s where
  not_mem := fun hc => h.not_mem (List.mem_cons_of_mem c hc)
  getLast?_ne := by
    cases s with
    | nil => simp
    | cons d s => simpa [List.getLast?_cons_cons] using h.getLast?_ne

theorem IsLine.append {s t : List Char} (hs : IsLine s) (ht : IsLine t) : IsLine (s ++ t) where
  not_mem := by simp [hs.not_mem, ht.not_mem]
  getLast?_ne := by
    rw [List.getLast?_append]
    cases hlast : t.getLast? with
    | none => simpa [hlast] using hs.getLast?_ne
    | some c => simpa [hlast] using ht.getLast?_ne

theorem lines_line_cons (s rest : List Char) (h : IsLine s) :
    lines (s ++ '\n' :: rest) = s :: lines rest := by
  induction s with
  | nil => rfl
  | cons c s ih =>
    have hc : c ≠ '\n' := fun e => h.not_mem (e ▸ List.mem_cons_self)
    rw [List.cons_append, lines.eq_4, ih h.tail]
    · exact hc
    · -- A carriage return is followed by another character of the line.
      rintro after rfl hafter
      cases s with
      | nil => exact h.getLast?_ne rfl
      | cons d s =>
        rw [List.cons_append, List.cons.injEq] at hafter
        exact h.not_mem (by simp [hafter.1])

/-- Lines with a line feed after each are read back. -/
theorem lines_flatMap (ls : List (List Char)) (h : ∀ s ∈ ls, IsLine s) :
    lines (ls.flatMap (· ++ ['\n'])) = ls := by
  induction ls with
  | nil => rfl
  | cons s ls ih =>
    have hs := h s List.mem_cons_self
    have hls : ∀ s ∈ ls, IsLine s := fun t ht => h t (List.mem_cons_of_mem s ht)
    rw [List.flatMap_cons, List.append_assoc, List.singleton_append, lines_line_cons s _ hs,
      ih hls]

theorem not_mem_of_mem_lines (s : List Char) : ∀ l ∈ lines s, '\n' ∉ l := by
  fun_induction lines s with
  | case1 => exact List.forall_mem_nil _
  | case2 rest ih => exact List.forall_mem_cons.2 ⟨List.not_mem_nil, ih⟩
  | case3 rest ih => exact List.forall_mem_cons.2 ⟨List.not_mem_nil, ih⟩
  | case4 c rest hfeed hreturn hlines ih =>
    exact List.forall_mem_singleton.2 (by simpa [eq_comm] using hfeed)
  | case5 c rest hfeed hreturn line more hlines ih =>
    rw [hlines, List.forall_mem_cons] at ih
    have hline : '\n' ∉ c :: line := List.not_mem_cons_of_ne_of_not_mem (Ne.symm hfeed) ih.1
    exact List.forall_mem_cons.2 ⟨hline, ih.2⟩

theorem not_mem_intercalate {c : Char} {sep : List Char} (ls : List (List Char)) (hsep : c ∉ sep)
    (h : ∀ s ∈ ls, c ∉ s) : c ∉ List.intercalate sep ls := by
  induction ls with
  | nil => exact List.not_mem_nil
  | cons s ls ih =>
    have hs := h s List.mem_cons_self
    have hls := ih fun t ht => h t (List.mem_cons_of_mem s ht)
    cases ls with
    | nil => simpa using hs
    | cons t ls =>
      rw [List.intercalate_cons_cons]
      simp [hs, hsep, hls]

theorem lines_eq_singleton (s : List Char) (h : '\n' ∉ s) (hne : s ≠ []) : lines s = [s] := by
  induction s with
  | nil => exact absurd rfl hne
  | cons c s ih =>
    have hc : c ≠ '\n' := fun e => h (e ▸ List.mem_cons_self)
    have hs : '\n' ∉ s := fun e => h (List.mem_cons_of_mem c e)
    rw [lines.eq_4 c s hc (by rintro after rfl rfl; exact hs List.mem_cons_self)]
    cases s with
    | nil => rfl
    | cons d s => rw [ih hs (List.cons_ne_nil d s)]

/-- Lines with line feeds between them are read back, if none is empty. -/
theorem lines_intercalate (ls : List (List Char)) (h : ∀ s ∈ ls, IsLine s ∧ s ≠ []) :
    lines (List.intercalate ['\n'] ls) = ls := by
  induction ls with
  | nil => rfl
  | cons s ls ih =>
    obtain ⟨hs, hne⟩ := h s List.mem_cons_self
    cases ls with
    | nil => simpa using lines_eq_singleton s hs.not_mem hne
    | cons t ls =>
      have hrest := ih fun u hu => h u (List.mem_cons_of_mem s hu)
      rw [List.intercalate_cons_cons, List.append_assoc, List.singleton_append,
        lines_line_cons s _ hs, hrest]

/-! ## Joined texts -/

theorem intercalate_append {sep : List Char} {xs ys : List (List Char)} (hxs : xs ≠ [])
    (hys : ys ≠ []) :
    sep.intercalate (xs ++ ys) = sep.intercalate xs ++ sep ++ sep.intercalate ys := by
  induction xs with
  | nil => exact absurd rfl hxs
  | cons x xs ih =>
    cases xs with
    | nil => simp [List.intercalate_cons_of_ne_nil hys]
    | cons next xs =>
      have hmore := ih (List.cons_ne_nil next xs)
      rw [List.cons_append, List.intercalate_cons_of_ne_nil (by simp), hmore,
        List.intercalate_cons_cons]
      simp

/-- Rows of texts are joined row by row, where empty rows leave no trace. -/
theorem intercalate_flatten (sep : List Char) (rows : List (List (List Char))) :
    sep.intercalate rows.flatten =
      sep.intercalate ((rows.filter (· ≠ [])).map sep.intercalate) := by
  induction rows with
  | nil => rfl
  | cons row rows ih =>
    rw [List.flatten_cons]
    by_cases hrow : row = []
    · rw [hrow, List.nil_append, ih]
      simp
    · rw [List.filter_cons_of_pos (by simpa using hrow), List.map_cons]
      by_cases hrows : rows.flatten = []
      · have hnone : rows.filter (· ≠ []) = [] := by
          rw [List.filter_eq_nil_iff]
          intro r hr
          simpa using List.flatten_eq_nil_iff.1 hrows r hr
        rw [hrows, hnone, List.append_nil, List.map_nil, List.intercalate_singleton]
      · have hsome : (rows.filter (· ≠ [])).map sep.intercalate ≠ [] := by
          simpa [List.flatten_eq_nil_iff] using hrows
        rw [intercalate_append hrow hrows, List.intercalate_cons_of_ne_nil hsome, ih]

/-! ## Pieces between line feeds -/

theorem not_mem_of_mem_splitOn (sep : Char) (s : List Char) :
    ∀ piece ∈ s.splitOn sep, sep ∉ piece := by
  induction s with
  | nil => simp
  | cons c s ih =>
    obtain ⟨piece, more, hsplit⟩ := List.exists_cons_of_ne_nil (List.splitOn_ne_nil sep s)
    rw [List.splitOn_cons_eq_if_modifyHead, hsplit]
    rw [hsplit] at ih
    split
    · exact List.forall_mem_cons.2 ⟨List.not_mem_nil, ih⟩
    · next hc =>
      obtain ⟨hpiece, hmore⟩ := List.forall_mem_cons.1 ih
      refine List.forall_mem_cons.2 ⟨?_, hmore⟩
      exact List.not_mem_cons_of_ne_of_not_mem (fun h => hc (beq_iff_eq.2 h.symm)) hpiece

/-- The lines of a text are its pieces between line feeds. A carriage return at the end of a piece
belongs to the line end, and an empty last piece is no line. -/
theorem exists_splitOn_eq (s : List Char) :
    ∃ pieces last, s.splitOn '\n' = pieces ++ last ∧ (last = [] ∨ last = [[]]) ∧
      List.Forall₂ (fun line piece => piece = line ∨ piece = line ++ ['\r']) (lines s) pieces := by
  fun_induction lines s with
  | case1 => exact ⟨[], [[]], rfl, .inr rfl, .nil⟩
  | case2 rest ih =>
    obtain ⟨pieces, last, hsplit, hlast, hlines⟩ := ih
    refine ⟨[] :: pieces, last, ?_, hlast, .cons (.inl rfl) hlines⟩
    simp [List.splitOn_cons_eq_if_modifyHead, hsplit]
  | case3 rest ih =>
    obtain ⟨pieces, last, hsplit, hlast, hlines⟩ := ih
    refine ⟨['\r'] :: pieces, last, ?_, hlast, .cons (.inr rfl) hlines⟩
    simp [List.splitOn_cons_eq_if_modifyHead, hsplit]
  | case4 c rest hfeed hreturn hnil ih =>
    obtain ⟨pieces, last, hsplit, hlast, hlines⟩ := ih
    rw [hnil, List.forall₂_nil_left_iff] at hlines
    subst hlines
    have hlast : last = [[]] := by
      refine hlast.resolve_left ?_
      rintro rfl
      exact List.splitOn_ne_nil '\n' rest hsplit
    refine ⟨[[c]], [], ?_, .inl rfl, .cons (.inl rfl) .nil⟩
    simpa [List.splitOn_cons_eq_if_modifyHead, hsplit, hlast] using hfeed
  | case5 c rest hfeed hreturn line more hcons ih =>
    obtain ⟨pieces, last, hsplit, hlast, hlines⟩ := ih
    rw [hcons] at hlines
    obtain ⟨piece, others, hpiece, hothers, rfl⟩ := List.forall₂_cons_left_iff.1 hlines
    refine ⟨(c :: piece) :: others, last, ?_, hlast, .cons ?_ hothers⟩
    · rw [List.splitOn_cons_eq_if_modifyHead, hsplit, if_neg (by simpa using hfeed)]
      rfl
    · rcases hpiece with rfl | rfl
      · exact .inl rfl
      · exact .inr rfl

end Text

end GeoPolicy
