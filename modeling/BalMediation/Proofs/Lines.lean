import BalMediation.Proofs.WellFormed
import Mathlib.Data.Prod.Lex
import Mathlib.Order.Monotone.Basic

/-!
# Lines

The place of an offset can be found by going through the text (`Text.locate`), by halving in a
table of the offsets where lines begin (`LineTable.locate`), or by looking back from the offset for
a newline (`Text.lineStart`). All three agree, at every offset and past the end, and places are in
the order of their offsets (`Text.locate_agrees`).

Going through the text and looking back are compared offset by offset: both have an equation for the
next offset (`locate_succ`, `lineStart_succ`), and whether a newline stands between decides it.
Halving keeps the part of the table in which the answer lies (`Parted`).
-/

namespace BalMediation

namespace Text

/-! ## The next offset -/

theorem locateFrom_succ (row column : Nat) (t : Text) (n : Nat) :
    locateFrom row column t (n + 1) = if t[n]? = some '\n'
      then ⟨(locateFrom row column t n).row + 1, 0⟩
      else ⟨(locateFrom row column t n).row, (locateFrom row column t n).column + 1⟩ := by
  induction t generalizing row column n with
  | nil => cases n <;> rfl
  | cons c t ih =>
    cases n with
    | zero => by_cases hc : c = '\n' <;> simp [locateFrom, hc]
    | succ n =>
      rw [List.getElem?_cons_succ, locateFrom, locateFrom]
      split
      · exact ih (row + 1) 0 n
      · exact ih row (column + 1) n

theorem locate_succ (t : Text) (o : Nat) :
    t.locate (o + 1) = if t[o]? = some '\n' then ⟨(t.locate o).row + 1, 0⟩
      else ⟨(t.locate o).row, (t.locate o).column + 1⟩ :=
  locateFrom_succ 0 0 t o

theorem lineStart_eq (t : Text) (o : Nat) :
    t.lineStart o = (t.take o).length - (lastLine (t.take o)).length := by
  simp [lineStart, lastLine]

theorem lineStart_succ (t : Text) (o : Nat) :
    t.lineStart (o + 1) = if t[o]? = some '\n' then o + 1 else t.lineStart o := by
  rw [lineStart_eq, lineStart_eq, List.take_add_one]
  cases hc : t[o]? with
  | none => simp
  | some c =>
    have ho : (t.take o).length = o := List.length_take_of_le (List.getElem?_eq_some_iff.1 hc).1.le
    rw [Option.toList_some, lastLine_concat, List.length_append, List.length_singleton, ho]
    by_cases hn : c = '\n' <;> simp [hn]

theorem count_take_succ (t : Text) (o : Nat) :
    (t.take (o + 1)).count '\n' = (t.take o).count '\n' + if t[o]? = some '\n' then 1 else 0 := by
  rw [List.take_add_one, List.count_append]
  cases hc : t[o]? with
  | none => simp
  | some c => by_cases hn : c = '\n' <;> simp [hn]

/-! ## Where a line begins -/

/-- The line of an offset begins at `k`: just after the last newline in front of the offset, or at
zero if there is none. -/
structure BeginsLine (t : Text) (offset k : Nat) : Prop where
  le : k ≤ offset
  after_newline : k = 0 ∨ ∃ j, k = j + 1 ∧ t[j]? = some '\n'
  last : ∀ j, k ≤ j → j < offset → t[j]? ≠ some '\n'

theorem BeginsLine.le_of_beginsLine {t : Text} {o k l : Nat} (hk : t.BeginsLine o k)
    (hl : t.BeginsLine o l) : k ≤ l := by
  rcases hk.after_newline with rfl | ⟨j, rfl, hj⟩
  · exact Nat.zero_le l
  · by_contra hlt
    exact hl.last j (by omega) hk.le hj

theorem BeginsLine.unique {t : Text} {o k l : Nat} (hk : t.BeginsLine o k)
    (hl : t.BeginsLine o l) : k = l :=
  Nat.le_antisymm (hk.le_of_beginsLine hl) (hl.le_of_beginsLine hk)

theorem beginsLine_lineStart (t : Text) (o : Nat) : t.BeginsLine o (t.lineStart o) := by
  induction o with
  | zero => exact ⟨by simp [lineStart], .inl (by simp [lineStart]), by omega⟩
  | succ o ih =>
    rw [lineStart_succ]
    split
    · rename_i hn
      exact ⟨Nat.le_refl _, .inr ⟨o, rfl, hn⟩, by omega⟩
    · rename_i hn
      refine ⟨Nat.le_succ_of_le ih.le, ih.after_newline, fun j hj hlt => ?_⟩
      rcases Nat.lt_succ_iff_lt_or_eq.1 hlt with hlt | rfl
      · exact ih.last j hj hlt
      · exact hn

/-- Row and column of an offset, which may be past the end. -/
theorem locate_eq_rowAndColumn (t : Text) (o : Nat) : t.locate o = t.rowAndColumn o := by
  induction o with
  | zero => simp [locate, locateFrom, rowAndColumn]
  | succ o ih =>
    have hle := (t.beginsLine_lineStart o).le
    rw [locate_succ, ih, rowAndColumn, rowAndColumn, count_take_succ, lineStart_succ]
    split
    · rw [Nat.sub_self]
    · simp only [Nat.add_zero, Nat.sub_add_comm hle]

end Text

/-- A position as a pair in the order of rows and, on a row, of columns. -/
def Position.lex (p : Position) : Nat ×ₗ Nat :=
  toLex (p.row, p.column)

theorem Text.strictMono_locate (t : Text) : StrictMono fun o => (t.locate o).lex := by
  refine strictMono_nat_of_lt_succ fun o => ?_
  rw [locate_succ, Position.lex, Position.lex, Prod.Lex.toLex_lt_toLex]
  split
  · exact .inl (Nat.lt_succ_self _)
  · exact .inr ⟨rfl, Nat.lt_succ_self _⟩

/-! ## The table of lines -/

/-- The offsets where the lines of a text begin, in order. -/
structure LineTable where
  starts : Array Nat
  begins : starts[0]? = some 0
  increasing : starts.toList.Pairwise (· < ·)

namespace LineTable

/-- The number of the first entry past an offset, found by halving from `lo` up to `hi`. -/
def search (T : LineTable) (offset lo hi : Nat) (h : hi ≤ T.starts.size) : Nat :=
  if _ : lo < hi then
    let mid := (lo + hi) / 2
    if offset < T.starts[mid] then search T offset lo mid (by omega)
    else search T offset (mid + 1) hi h
  else lo
termination_by hi - lo

section Search

variable {T : LineTable} {offset lo hi i j r s : Nat}

theorem size_pos (T : LineTable) : 0 < T.starts.size :=
  (Array.getElem?_eq_some_iff.1 T.begins).1

theorem lt_of_lt (hi : T.starts[i]? = some r) (hj : T.starts[j]? = some s) (h : i < j) : r < s := by
  obtain ⟨hi, rfl⟩ := Array.getElem?_eq_some_iff.1 hi
  obtain ⟨hj, rfl⟩ := Array.getElem?_eq_some_iff.1 hj
  exact List.pairwise_iff_getElem.1 T.increasing i j (by simpa) (by simpa) h

theorem search_le (h : hi ≤ T.starts.size) (hle : lo ≤ hi) : T.search offset lo hi h ≤ hi := by
  fun_induction search T offset lo hi h with
  | case1 lo hi h hlt mid hpast ih => exact (ih (by omega)).trans (by omega)
  | case2 lo hi h hlt mid hpast ih => exact ih (by omega)
  | case3 => exact hle

/-- The entries in front of number `lo` are not past an offset, and those from number `hi` on
are. -/
structure Parted (T : LineTable) (offset lo hi : Nat) : Prop where
  le : ∀ i s, T.starts[i]? = some s → i < lo → s ≤ offset
  lt : ∀ i s, T.starts[i]? = some s → hi ≤ i → offset < s

theorem Parted.front (h : T.Parted offset lo hi) (hs : T.starts[i]? = some s) (hpast : offset < s) :
    T.Parted offset lo i := by
  refine ⟨h.le, fun j r hr hj => ?_⟩
  rcases Nat.eq_or_lt_of_le hj with rfl | hj
  · cases hs.symm.trans hr
    exact hpast
  · exact hpast.trans (lt_of_lt hs hr hj)

theorem Parted.back (h : T.Parted offset lo hi) (hs : T.starts[i]? = some s) (hle : s ≤ offset) :
    T.Parted offset (i + 1) hi := by
  refine ⟨fun j r hr hj => ?_, h.lt⟩
  rcases Nat.lt_succ_iff_lt_or_eq.1 hj with hj | rfl
  · exact (lt_of_lt hr hs hj).le.trans hle
  · cases hs.symm.trans hr
    exact hle

theorem parted_search (hp : T.Parted offset lo hi) (hle : lo ≤ hi) (h : hi ≤ T.starts.size) :
    T.Parted offset (T.search offset lo hi h) (T.search offset lo hi h) := by
  fun_induction search T offset lo hi h with
  | case1 lo hi h hlt mid hpast ih =>
    exact ih (hp.front (Array.getElem?_eq_getElem _) hpast) (by omega)
  | case2 lo hi h hlt mid hpast ih =>
    exact ih (hp.back (Array.getElem?_eq_getElem _) (Nat.le_of_not_lt hpast)) (by omega)
  | case3 lo hi h hge =>
    obtain rfl : lo = hi := by omega
    exact hp

/-- The number of the last entry that is not past an offset. -/
def row (T : LineTable) (offset : Nat) : Nat :=
  T.search offset 0 T.starts.size (Nat.le_refl _) - 1

theorem row_lt (T : LineTable) (offset : Nat) : T.row offset < T.starts.size := by
  have hpos := T.size_pos
  have hle : T.search offset 0 T.starts.size (Nat.le_refl _) ≤ T.starts.size :=
    search_le _ (Nat.zero_le _)
  rw [row]
  omega

theorem le_row_iff (hs : T.starts[i]? = some s) : i ≤ T.row offset ↔ s ≤ offset := by
  have hall : T.Parted offset 0 T.starts.size := by
    refine ⟨fun i s _ h => absurd h (Nat.not_lt_zero i), fun i s hs h => ?_⟩
    exact absurd (Array.getElem?_eq_some_iff.1 hs).1 (Nat.not_lt_of_le h)
  have hp := parted_search hall (Nat.zero_le _) (Nat.le_refl _)
  -- the first entry is zero, which is past no offset
  have hpos : T.search offset 0 T.starts.size (Nat.le_refl _) ≠ 0 := fun h0 =>
    absurd (hp.lt 0 0 T.begins h0.le) (Nat.not_lt_zero offset)
  rw [row]
  constructor
  · intro hi
    exact hp.le i s hs (by omega)
  · intro hle
    by_contra hi
    exact absurd (hp.lt i s hs (by omega)) (Nat.not_lt_of_le hle)

/-- Row and column of an offset by the table. -/
def locate (T : LineTable) (offset : Nat) : Position :=
  have := T.row_lt offset
  ⟨T.row offset, offset - T.starts[T.row offset]⟩

theorem countP_starts (T : LineTable) (offset : Nat) :
    T.starts.toList.countP (· ≤ offset) = T.row offset + 1 := by
  have hlt := T.row_lt offset
  have hfront : ∀ s ∈ T.starts.toList.take (T.row offset + 1), decide (s ≤ offset) = true := by
    intro s hs
    obtain ⟨i, hi⟩ := List.mem_iff_getElem?.1 hs
    rw [List.getElem?_take] at hi
    split_ifs at hi with hrow
    exact decide_eq_true ((le_row_iff (by simpa using hi)).1 (Nat.lt_succ_iff.1 hrow))
  have hback : ∀ s ∈ T.starts.toList.drop (T.row offset + 1), ¬ decide (s ≤ offset) = true := by
    intro s hs hle
    obtain ⟨i, hi⟩ := List.mem_iff_getElem?.1 hs
    rw [List.getElem?_drop] at hi
    have hrow := (le_row_iff (by simpa using hi)).2 (of_decide_eq_true hle)
    omega
  rw [← List.take_append_drop (T.row offset + 1) T.starts.toList, List.countP_append,
    List.countP_eq_length.2 hfront, List.countP_eq_zero.2 hback, Nat.add_zero,
    List.length_take_of_le (by rwa [Array.length_toList])]

end Search

/-! ## The table of a text -/

/-- The offsets just after the newlines of a text that begins at `offset`. -/
def afterNewlines (offset : Nat) : Text → List Nat
  | [] => []
  | c :: cs =>
    if c = '\n' then (offset + 1) :: afterNewlines (offset + 1) cs
    else afterNewlines (offset + 1) cs

theorem mem_afterNewlines {offset s : Nat} {t : Text} :
    s ∈ afterNewlines offset t ↔ ∃ j, s = offset + j + 1 ∧ t[j]? = some '\n' := by
  induction t generalizing offset with
  | nil => simp [afterNewlines]
  | cons c t ih =>
    have htail : s ∈ afterNewlines (offset + 1) t
        ↔ ∃ j, s = offset + (j + 1) + 1 ∧ (c :: t)[j + 1]? = some '\n' := by
      simp only [ih, List.getElem?_cons_succ, Nat.add_assoc, Nat.add_comm 1]
    rw [← Nat.or_exists_add_one, ← htail, afterNewlines]
    by_cases hc : c = '\n' <;> simp [hc]

theorem increasing_afterNewlines (offset : Nat) (t : Text) :
    (afterNewlines offset t).Pairwise (· < ·) := by
  induction t generalizing offset with
  | nil => exact .nil
  | cons c t ih =>
    rw [afterNewlines]
    split
    · refine List.pairwise_cons.2 ⟨fun s hs => ?_, ih _⟩
      obtain ⟨j, rfl, -⟩ := mem_afterNewlines.1 hs
      omega
    · exact ih _

/-- As many of the offsets are in front of a place as there are newlines up to it. -/
theorem countP_afterNewlines (offset n : Nat) (t : Text) :
    (afterNewlines offset t).countP (· ≤ offset + n) = (t.take n).count '\n' := by
  induction t generalizing offset n with
  | nil => simp [afterNewlines]
  | cons c t ih =>
    cases n with
    | zero =>
      rw [List.take_zero, List.count_nil, List.countP_eq_zero]
      intro s hs hle
      obtain ⟨j, rfl, -⟩ := mem_afterNewlines.1 hs
      have := of_decide_eq_true hle
      omega
    | succ n =>
      have hrest := ih (offset + 1) n
      rw [Nat.add_right_comm, Nat.add_assoc] at hrest
      rw [afterNewlines, List.take_succ_cons]
      by_cases hc : c = '\n' <;> simp [hc, hrest]

/-- The table of a text. -/
def ofText (t : Text) : LineTable where
  starts := (0 :: afterNewlines 0 t).toArray
  begins := rfl
  increasing := by
    refine List.pairwise_cons.2 ⟨fun s hs => ?_, increasing_afterNewlines 0 t⟩
    obtain ⟨j, rfl, -⟩ := mem_afterNewlines.1 hs
    omega

theorem toList_starts_ofText (t : Text) : (ofText t).starts.toList = 0 :: afterNewlines 0 t :=
  rfl

theorem exists_starts_ofText {t : Text} {s : Nat} :
    (∃ i : Nat, (ofText t).starts[i]? = some s) ↔ s = 0 ∨ ∃ j, s = j + 1 ∧ t[j]? = some '\n' := by
  rw [← Array.mem_iff_getElem?, ← Array.mem_toList_iff, toList_starts_ofText, List.mem_cons,
    mem_afterNewlines]
  simp only [Nat.zero_add]

theorem row_ofText (t : Text) (o : Nat) : (ofText t).row o = (t.take o).count '\n' := by
  have hcount := (ofText t).countP_starts o
  have hrest := countP_afterNewlines 0 o t
  rw [Nat.zero_add] at hrest
  rw [toList_starts_ofText, List.countP_cons, hrest] at hcount
  simpa using hcount.symm

theorem beginsLine_ofText {t : Text} {o k : Nat}
    (hk : (ofText t).starts[(ofText t).row o]? = some k) : t.BeginsLine o k := by
  refine ⟨(le_row_iff hk).1 (Nat.le_refl _), exists_starts_ofText.1 ⟨_, hk⟩, ?_⟩
  intro j hkj hjo hj
  obtain ⟨i, hi⟩ := exists_starts_ofText.2 (.inr ⟨j, rfl, hj⟩)
  rcases Nat.eq_or_lt_of_le ((le_row_iff hi).2 hjo) with rfl | hrow
  · cases hi.symm.trans hk
    omega
  · have := lt_of_lt hi hk hrow
    omega

theorem locate_ofText (t : Text) (o : Nat) : (ofText t).locate o = t.rowAndColumn o := by
  have hbegins := beginsLine_ofText (Array.getElem?_eq_getElem ((ofText t).row_lt o))
  -- the column first, since the entry it is counted from is looked up by the row
  rw [locate, Text.rowAndColumn, hbegins.unique (t.beginsLine_lineStart o), row_ofText]

end LineTable

/-- The row of an offset is the number of newlines in front of it, its column the distance from
where its line begins; this holds past the end as well. Halving in the table of lines and going
through the text find the same place, looking back from the offset finds where its line begins, and
places are in the order of their offsets, so no two offsets share one. -/
theorem Text.locate_agrees (t : Text) :
    (∀ o, ∃ k, t.BeginsLine o k
      ∧ (LineTable.ofText t).locate o = ⟨(t.take o).count '\n', o - k⟩
      ∧ t.locate o = (LineTable.ofText t).locate o
      ∧ (t.locate o).column ≤ o ∧ t.lineStart o = o - (t.locate o).column)
    ∧ Function.Injective t.locate
    ∧ StrictMono fun o => (t.locate o).lex := by
  have hmono := t.strictMono_locate
  refine ⟨fun o => ⟨t.lineStart o, t.beginsLine_lineStart o, LineTable.locate_ofText t o, ?_, ?_⟩,
    fun o o' h => hmono.injective (congrArg Position.lex h), hmono⟩
  · rw [locate_eq_rowAndColumn, LineTable.locate_ofText]
  · have hle := (t.beginsLine_lineStart o).le
    rw [locate_eq_rowAndColumn, rowAndColumn]
    exact ⟨Nat.sub_le _ _, (Nat.sub_sub_self hle).symm⟩

example : [0, 1, 2, 3, 7].map (Text.locate ['a', '\n', 'b'])
    = [⟨0, 0⟩, ⟨0, 1⟩, ⟨1, 0⟩, ⟨1, 1⟩, ⟨1, 5⟩] := by
  decide

end BalMediation
