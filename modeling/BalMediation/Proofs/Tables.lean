import BalMediation.Console.Table
import BalMediation.Proofs.Paths
import Mathlib.Data.List.Forall2

/-!
# Tables with room for their cells

A text that fits its place is shown on one line as it is (`Wrap.lines_of_fits`): its words are put
back together, and the parts of a text take no more columns than the whole (`Text.width_append_le`).
So a table that fits the console has one line for each row, with the cells as they are
(`Table.render_of_fits`).
-/

namespace BalMediation

/-! ## Columns -/

namespace Text

theorem widthFrom_selector (last : Option Char) (t : Text) :
    widthFrom last (colourSelector :: t)
      = (if last.any (inRanges widenedRanges) then 1 else 0) + widthFrom none t := by
  rw [widthFrom.eq_def]
  exact (if_neg (by decide)).trans (if_pos rfl)

theorem widthFrom_cons {c : Char} (hj : c ≠ joiner) (hs : c ≠ colourSelector) (last : Option Char)
    (t : Text) : widthFrom last (c :: t)
      = charWidth c + widthFrom (if charWidth c = 0 then last else some c) t := by
  rw [widthFrom.eq_def]
  exact (if_neg hj).trans (if_neg hs)

theorem widthFrom_none_le {t : Text} (h : joiner ∉ t) (last : Option Char) :
    widthFrom none t ≤ widthFrom last t := by
  induction t generalizing last with
  | nil => exact Nat.le_refl _
  | cons c t ih =>
    rw [List.mem_cons, not_or] at h
    by_cases hs : c = colourSelector
    · rw [hs, widthFrom_selector, widthFrom_selector]
      simp
    · rw [widthFrom_cons (Ne.symm h.1) hs, widthFrom_cons (Ne.symm h.1) hs]
      split_ifs
      · exact Nat.add_le_add_left (ih h.2 last) _
      · exact Nat.le_refl _

theorem widthFrom_append_le {t u : Text} (h : joiner ∉ t ++ u) (last : Option Char) :
    widthFrom last t + widthFrom none u ≤ widthFrom last (t ++ u) := by
  induction t generalizing last with
  | nil =>
    rw [widthFrom, Nat.zero_add]
    exact widthFrom_none_le h last
  | cons c t ih =>
    rw [List.cons_append, List.mem_cons, not_or] at h
    rw [List.cons_append]
    by_cases hs : c = colourSelector
    · rw [hs, widthFrom_selector, widthFrom_selector, Nat.add_assoc]
      exact Nat.add_le_add_left (ih h.2 none) _
    · rw [widthFrom_cons (Ne.symm h.1) hs, widthFrom_cons (Ne.symm h.1) hs, Nat.add_assoc]
      exact Nat.add_le_add_left (ih h.2 _) _

/-- The parts of a text take no more columns than the whole. -/
theorem width_append_le {t u : Text} (h : joiner ∉ t ++ u) : t.width + u.width ≤ (t ++ u).width :=
  widthFrom_append_le h none

theorem dropWhileEnd_prefix (p : Char → Bool) (t : Text) : dropWhileEnd p t <+: t := by
  rw [dropWhileEnd, ← List.reverse_suffix, List.reverse_reverse]
  exact List.dropWhile_suffix p

theorem dropWhileEnd_of_getLast? {p : Char → Bool} {t : Text} (h : ∀ c ∈ t.getLast?, p c = false) :
    dropWhileEnd p t = t := by
  rcases List.eq_nil_or_concat t with rfl | ⟨u, c, rfl⟩
  · rfl
  · have hc : p c = false := h c (by simp)
    simp [dropWhileEnd, hc]

end Text

/-! ## Lines -/

namespace Wrap

theorem flatten_addToGroups (c : Char) (groups : List Text) :
    (addToGroups c groups).flatten = c :: groups.flatten := by
  cases groups with
  | nil => rfl
  | cons group groups =>
    rw [addToGroups]
    split_ifs <;> rfl

theorem flatten_groups (line : Text) : (line.foldr addToGroups []).flatten = line := by
  induction line with
  | nil => rfl
  | cons c line ih => rw [List.foldr_cons, flatten_addToGroups, ih]

/-- A line that has words is made of them. -/
theorem flatten_words {line : Text} (h : words line ≠ []) : (words line).flatten = line := by
  have hgroups := flatten_groups line
  unfold words at h ⊢
  cases hline : line.foldr addToGroups [] with
  | nil =>
    rw [hline] at h
    exact absurd rfl h
  | cons first rest =>
    rw [hline] at h hgroups
    dsimp only at h ⊢
    split_ifs at h ⊢
    · cases rest with
      | nil => exact absurd rfl h
      | cons second rest => rw [← hgroups, List.flatten_cons, List.append_assoc]; rfl
    · exact hgroups

namespace Filling

/-- A word that fits goes behind the others on its line. -/
theorem add_of_fits {width : Nat} {f : Filling} {word : Text} (hj : Text.joiner ∉ word)
    (hw : f.columns + word.width ≤ width) (overflow : Overflow) :
    f.add width overflow word
      = { f with current := word.reverse ++ f.current, columns := f.columns + word.width } := by
  obtain ⟨blanks, hblanks⟩ := Text.dropWhileEnd_prefix Text.isBlank word
  have hle := @Text.width_append_le (word.dropWhileEnd Text.isBlank) blanks (by rwa [hblanks])
  rw [hblanks] at hle
  unfold add
  exact if_pos (by omega)

/-- Words that fit all go on one line. -/
theorem lines_foldl_add {width : Nat} {ws : List Text} (hj : Text.joiner ∉ ws.flatten)
    (overflow : Overflow) (f : Filling) (hw : f.columns + Text.width ws.flatten ≤ width) :
    (ws.foldl (add width overflow) f).lines
      = f.done.reverse ++ [f.current.reverse ++ ws.flatten] := by
  induction ws generalizing f with
  | nil => simp [lines]
  | cons word ws ih =>
    rw [List.flatten_cons] at hj hw
    have hle := Text.width_append_le hj
    rw [List.mem_append, not_or] at hj
    rw [List.foldl_cons, add_of_fits hj.1 (by omega), ih hj.2]
    · simp
    · dsimp only
      omega

end Filling

/-- A text that fits and does not end in a blank is shown on one line as it is. -/
theorem lines_of_fits {width : Nat} {line : Text} (hj : Text.joiner ∉ line)
    (hw : line.width ≤ width) (hlast : ∀ c ∈ line.getLast?, Text.isBlank c = false)
    (overflow : Overflow) : lines width overflow line = [line] := by
  have hexcess : dropExcess width line = line := by
    simp [dropExcess, Text.dropWhileEnd_of_getLast? hlast]
  have hcrop : crop width overflow (dropExcess width line) = line := by
    rw [hexcess, crop.eq_def, if_pos hw]
  unfold lines
  cases hwords : words line with
  | nil => exact congrArg (fun l => [l]) hcrop
  | cons w ws =>
    have hflatten : (w :: ws).flatten = line := by
      rw [← hwords, flatten_words (by simp [hwords])]
    have hlines := @Filling.lines_foldl_add width (w :: ws) (by rwa [hflatten]) overflow {}
      (by simpa [hflatten] using hw)
    rw [hflatten] at hlines
    dsimp only
    rw [hlines]
    exact congrArg (fun l => [l]) hcrop

end Wrap

/-! ## Rows -/

namespace Table

/-- A cell that is shown on one line, given room for it. -/
structure IsCell (t : Text) : Prop where
  noJoiner : Text.joiner ∉ t
  last : ∀ c ∈ t.getLast?, Text.isBlank c = false

/-- A row of cells that fit takes one line. -/
theorem row_of_fits (bar : Char) {widths : List Nat} {cells : List Text} (hne : cells ≠ [])
    (hcell : ∀ cell ∈ cells, IsCell cell)
    (h : List.Forall₂ (fun w (cell : Text) => cell.width ≤ w) widths cells) :
    row bar widths cells = line bar widths cells := by
  have hcolumns : (widths.zip cells).map (fun p => Wrap.lines p.1 .ellipsis p.2)
      = cells.map fun cell => [cell] := by
    clear hne
    induction h with
    | nil => rfl
    | @cons w cell _ _ hfits _ ih =>
      rw [List.forall_mem_cons] at hcell
      rw [List.zip_cons_cons, List.map_cons, List.map_cons, ih hcell.2,
        Wrap.lines_of_fits hcell.1.noJoiner hfits hcell.1.last]
  have hheight : ((cells.map fun cell => [cell]).map List.length).foldl max 0 = 1 := by
    obtain ⟨cell, cells, rfl⟩ := List.exists_cons_of_ne_nil hne
    have hone : ∀ cells : List Text,
        ((cells.map fun cell => [cell]).map List.length).foldl max 1 = 1 := by
      intro cells
      induction cells with
      | nil => rfl
      | cons _ cells ih => exact ih
    exact hone cells
  have hcells : (cells.map fun cell => [cell]).map (fun lines => lines[0]?.getD []) = cells := by
    rw [List.map_map]
    exact List.map_id cells
  unfold row
  dsimp only
  rw [hcolumns, hheight, List.range_one, List.flatMap_singleton, hcells]

theorem shrink_zero (widest : Nat) (widths : List Nat) : shrink 0 widest widths = widths := by
  induction widths with
  | nil => rfl
  | cons w ws ih =>
    rw [shrink, ih]
    split_ifs <;> rfl

/-- The columns that a table takes. -/
def total (widths : List Nat) : Nat :=
  widths.foldl (· + · + 3) 1

theorem columnWidths_of_le {heading : List Text} {rows : List (List Text)}
    (h : total (naturalWidths heading rows) ≤ Wrap.consoleWidth) :
    columnWidths heading rows = naturalWidths heading rows := by
  unfold columnWidths
  dsimp only
  rw [← total, Nat.sub_eq_zero_of_le h, shrink_zero]

theorem start_le_foldl_max (k : Nat) (ns : List Nat) : k ≤ ns.foldl max k := by
  induction ns generalizing k with
  | nil => exact Nat.le_refl k
  | cons n ns ih => exact Nat.le_trans (Nat.le_max_left k n) (ih (max k n))

theorem le_foldl_max {n : Nat} {ns : List Nat} (h : n ∈ ns) (k : Nat) : n ≤ ns.foldl max k := by
  induction ns generalizing k with
  | nil => cases h
  | cons m ns ih =>
    rcases List.mem_cons.1 h with rfl | h
    · exact Nat.le_trans (Nat.le_max_right k n) (start_le_foldl_max (max k n) ns)
    · exact ih h (max k m)

theorem forall₂_naturalWidths {heading cells : List Text} {rows : List (List Text)}
    (h : cells = heading ∨ cells ∈ rows) (hlen : cells.length = heading.length) :
    List.Forall₂ (fun w (cell : Text) => cell.width ≤ w) (naturalWidths heading rows) cells := by
  rw [List.forall₂_iff_get]
  refine ⟨by simp [naturalWidths, hlen], fun k hk hcell => ?_⟩
  simp only [naturalWidths, List.get_eq_getElem, List.getElem_mapIdx]
  rcases h with rfl | h
  · exact start_le_foldl_max _ _
  · refine le_foldl_max (List.mem_map.2 ⟨cells, h, ?_⟩) _
    simp [List.getElem?_eq_getElem hcell]

/-- A table with room for all of its columns, line by line. -/
theorem render_of_fits {heading : List Text} {rows : List (List Text)} (hne : heading ≠ [])
    (hheading : ∀ cell ∈ heading, IsCell cell)
    (hrows : ∀ cells ∈ rows, cells.length = heading.length ∧ ∀ cell ∈ cells, IsCell cell)
    (hroom : total (naturalWidths heading rows) ≤ Wrap.consoleWidth) :
    render heading rows
      = let widths := naturalWidths heading rows
        rule '┏' '━' '┳' '┓' widths ++ line '┃' widths heading ++ rule '┡' '━' '╇' '┩' widths ++
          rows.flatMap (line '│' widths) ++ rule '└' '─' '┴' '┘' widths := by
  have hhead := row_of_fits '┃' hne hheading
    (@forall₂_naturalWidths heading heading rows (.inl rfl) rfl)
  have hrow : ∀ cells ∈ rows, row '│' (naturalWidths heading rows) cells
      = line '│' (naturalWidths heading rows) cells := by
    intro cells hcells
    obtain ⟨hlen, hcell⟩ := hrows cells hcells
    refine row_of_fits '│' ?_ hcell (forall₂_naturalWidths (.inr hcells) hlen)
    rw [← List.length_pos_iff, hlen, List.length_pos_iff]
    exact hne
  unfold render
  rw [columnWidths_of_le hroom]
  dsimp only
  rw [hhead, List.flatMap_congr hrow]

end Table

end BalMediation
