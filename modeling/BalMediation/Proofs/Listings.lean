import BalMediation.CommandLine.Run
import BalMediation.Proofs.Quotes
import BalMediation.Proofs.Segments
import BalMediation.Proofs.Tables
import BalMediation.Proofs.Verbatim

/-!
# Listings of edits

A batch of edits is listed as a table: a line for each edit with its start, its length and its text
in quotes, and their number below. A listing belongs to one batch only (`Lists.eq_of_lists`), so the
batch can be had back from it.

What is printed for a batch is its listing if the console shows the texts as they are and has room
for the table (`lists_of_listable`).
-/

namespace BalMediation.CommandLine

/-- The titles of the columns. -/
def titles : List Text :=
  ["start", "length", "text"].map String.toList

/-- The cells of an edit. -/
def cells (e : Edit) : List Text :=
  [Text.ofInt e.start, Text.ofInt e.length, e.text.quoted]

/-- The listing of a batch in columns of some widths. -/
def listing (a b c : Nat) (edits : List Edit) : Text :=
  Table.rule '┏' '━' '┳' '┓' [a, b, c] ++ Table.line '┃' [a, b, c] titles ++
    Table.rule '┡' '━' '╇' '┩' [a, b, c] ++ edits.flatMap (Table.line '│' [a, b, c] <| cells ·) ++
    Table.rule '└' '─' '┴' '┘' [a, b, c] ++
    "(".toList ++ Text.ofNat edits.length ++ " edits)\n".toList

/-- Whether a text lists a batch, whatever the widths of its columns. -/
def Lists (table : Text) (edits : List Edit) : Prop :=
  ∃ a b c, table = listing a b c edits

/-! ## From a listing to its batch -/

/-- A cell between two bars. -/
def padded (width : Nat) (cell : Text) : Text :=
  [' '] ++ cell ++ List.replicate (width - cell.width) ' ' ++ [' ']

theorem eq_of_padded {k l : Nat} {t u : Text} (h : padded k t = padded l u)
    (ht : ∀ c ∈ t.getLast?, c ≠ ' ') (hu : ∀ c ∈ u.getLast?, c ≠ ' ') : t = u := by
  have hdrop : ∀ (n : Nat) {v : Text}, (∀ c ∈ v.getLast?, c ≠ ' ') →
      Text.dropWhileEnd (· == ' ') (v ++ List.replicate n ' ') = v := by
    intro n v hv
    have hblank : ∀ c ∈ List.replicate n ' ', (c == ' ') = true :=
      fun c hc => by rw [List.eq_of_mem_replicate hc]; rfl
    rw [Text.dropWhileEnd, List.reverse_append, List.reverse_replicate,
      List.dropWhile_append_of_pos hblank]
    exact Text.dropWhileEnd_of_getLast? fun c hc => by simpa using hv c hc
  have hfilled := (List.cons.inj (List.append_cancel_right h)).2
  have hbare := congrArg (Text.dropWhileEnd (· == ' ')) hfilled
  exact (hdrop _ ht).symm.trans (hbare.trans (hdrop _ hu))

theorem line_eq (bar : Char) (a b c : Nat) (t u v : Text) :
    Table.line bar [a, b, c] [t, u, v]
      = bar :: (padded a t ++ bar :: (padded b u ++ bar :: (padded c v ++ [bar]))) ++ ['\n'] := by
  simp [Table.line, padded, Text.join_cons]

/-- The line of an edit, without its end. -/
def editLine (a b c : Nat) (e : Edit) : Text :=
  '│' :: (padded a (Text.ofInt e.start) ++ '│' ::
    (padded b (Text.ofInt e.length) ++ '│' :: (padded c e.text.quoted ++ ['│'])))

theorem line_cells (a b c : Nat) (e : Edit) :
    Table.line '│' [a, b, c] (cells e) = editLine a b c e ++ ['\n'] :=
  line_eq '│' a b c _ _ _

theorem not_mem_padded {d : Char} {t : Text} (hd : d ≠ ' ') (h : d ∉ t) (width : Nat) :
    d ∉ padded width t := by
  simp [padded, hd, h]

/-- A number has no character but its sign and its digits. -/
theorem not_mem_ofInt {d : Char} (hsign : d ≠ '-') (hdigit : d.isDigit = false) (n : Int) :
    d ∉ Text.ofInt n := by
  intro h
  rcases Text.eq_or_isDigit_of_mem_ofInt h with h | h
  · exact hsign h
  · rw [hdigit] at h
    cases h

theorem not_mem_padded_ofInt {d : Char} (hd : d ≠ ' ') (hsign : d ≠ '-')
    (hdigit : d.isDigit = false) (width : Nat) (n : Int) : d ∉ padded width (Text.ofInt n) :=
  not_mem_padded hd (not_mem_ofInt hsign hdigit n) width

theorem eq_of_toDigits {m n : Nat} (h : Nat.toDigits 10 m = Nat.toDigits 10 n) : m = n := by
  have hread := congrArg (Nat.ofDigitChars 10 · 0) h
  simpa using hread

theorem ofInt_injective : Function.Injective Text.ofInt := by
  have hsign : ∀ m n : Nat, Text.ofInt m ≠ Text.ofInt (.negSucc n) := by
    intro m n h
    rw [Text.ofInt_natCast, Text.ofInt_negSucc] at h
    have hdigit := Nat.isDigit_of_mem_toDigits (b := 10) (n := m) (c := '-') (by decide) (by decide)
      (by rw [h]; exact List.mem_cons_self)
    exact absurd hdigit (by decide)
  intro m n h
  cases m with
  | ofNat m =>
    cases n with
    | ofNat n =>
      rw [Int.ofNat_eq_natCast, Int.ofNat_eq_natCast, Text.ofInt_natCast, Text.ofInt_natCast] at h
      rw [eq_of_toDigits h]
    | negSucc n => exact absurd h (hsign m n)
  | negSucc m =>
    cases n with
    | ofNat n => exact absurd h.symm (hsign n m)
    | negSucc n =>
      rw [Text.ofInt_negSucc, Text.ofInt_negSucc, List.cons.injEq] at h
      have hsucc := eq_of_toDigits h.2
      rw [Nat.succ.inj hsucc]

theorem not_mem_quoted {d : Char} (h : Text.isPrintable d = false) (t : Text) : d ∉ t.quoted := by
  intro hd
  rw [Text.isPrintable_of_mem_quoted hd] at h
  cases h

theorem getLast?_quoted_ne {d : Char} (hd : ¬ Text.IsQuote d) (t : Text) :
    ∀ c ∈ t.quoted.getLast?, c ≠ d := by
  intro c hc
  rw [Text.getLast?_quoted, Option.mem_some_iff] at hc
  rintro rfl
  exact hd (hc ▸ Text.isQuote_quoteOf t)

theorem getLast?_ofInt_ne {d : Char} (hsign : d ≠ '-') (hdigit : d.isDigit = false) (n : Int) :
    ∀ c ∈ (Text.ofInt n).getLast?, c ≠ d := by
  rintro c hc rfl
  exact not_mem_ofInt hsign hdigit n (List.mem_of_mem_getLast? hc)

theorem eq_of_padded_ofInt {k l : Nat} {m n : Int}
    (h : padded k (Text.ofInt m) = padded l (Text.ofInt n)) : m = n :=
  ofInt_injective (eq_of_padded h (getLast?_ofInt_ne (by decide) (by decide) m)
    (getLast?_ofInt_ne (by decide) (by decide) n))

theorem eq_of_padded_quoted {k l : Nat} {t u : Text} (h : padded k t.quoted = padded l u.quoted) :
    t = u := by
  have hspace : ¬ Text.IsQuote ' ' := by
    unfold Text.IsQuote
    decide
  exact Text.quoted_injective
    (eq_of_padded h (getLast?_quoted_ne hspace t) (getLast?_quoted_ne hspace u))

/-- Two texts are cut alike at the first occurrence of a character. -/
theorem eq_of_append_cons {d : Char} {t u v w : Text} (ht : d ∉ t) (hu : d ∉ u)
    (h : t ++ d :: v = u ++ d :: w) : t = u ∧ v = w := by
  induction t generalizing u with
  | nil =>
    cases u with
    | nil => exact ⟨rfl, (List.cons.inj h).2⟩
    | cons c u => exact absurd ((List.cons.inj h).1 ▸ List.mem_cons_self) hu
  | cons c t ih =>
    rw [List.mem_cons, not_or] at ht
    cases u with
    | nil => exact absurd (List.cons.inj h).1.symm ht.1
    | cons c' u =>
      rw [List.mem_cons, not_or] at hu
      obtain ⟨hc, h⟩ := List.cons.inj h
      obtain ⟨htail, hrest⟩ := ih ht.2 hu.2 h
      exact ⟨by rw [hc, htail], hrest⟩

/-- An edit can be read off its line. -/
theorem eq_of_editLine {a b c a' b' c' : Nat} {e e' : Edit}
    (h : editLine a b c e = editLine a' b' c' e') : e = e' := by
  have hbar : ∀ w n, '│' ∉ padded w (Text.ofInt n) :=
    not_mem_padded_ofInt (by decide) (by decide) (by decide)
  rw [editLine, editLine, List.cons.injEq] at h
  obtain ⟨hstart, h⟩ := eq_of_append_cons (hbar a e.start) (hbar a' e'.start) h.2
  obtain ⟨hlength, htext⟩ := eq_of_append_cons (hbar b e.length) (hbar b' e'.length) h
  cases e
  cases e'
  rw [Edit.mk.injEq]
  exact ⟨eq_of_padded_ofInt hstart, eq_of_padded_ofInt hlength,
    eq_of_padded_quoted (List.append_cancel_right htext)⟩

theorem splitOn_line {t : Text} (h : '\n' ∉ t) (rest : Text) :
    Text.splitOn '\n' (t ++ ['\n'] ++ rest) = t :: Text.splitOn '\n' rest := by
  rw [List.append_assoc, List.singleton_append, Text.splitOn_append, Text.splitOn_of_not_mem h]
  rfl

theorem newline_not_mem_editLine (a b c : Nat) (e : Edit) : '\n' ∉ editLine a b c e := by
  have hnumber : ∀ w n, '\n' ∉ padded w (Text.ofInt n) :=
    not_mem_padded_ofInt (by decide) (by decide) (by decide)
  have htext := not_mem_padded (by decide) (not_mem_quoted (d := '\n') (by decide) e.text) c
  simp [editLine, hnumber, htext]

theorem splitOn_editLines (a b c : Nat) (edits : List Edit) (rest : Text) :
    Text.splitOn '\n' (edits.flatMap (Table.line '│' [a, b, c] <| cells ·) ++ rest)
      = edits.map (editLine a b c) ++ Text.splitOn '\n' rest := by
  induction edits with
  | nil => rfl
  | cons e edits ih =>
    rw [List.flatMap_cons, line_cells, List.append_assoc,
      splitOn_line (newline_not_mem_editLine a b c e), ih]
    rfl

theorem exists_rule (left fill cross right : Char) (a b c : Nat)
    (h : '\n' ∉ [left, fill, cross, right]) :
    ∃ t, Table.rule left fill cross right [a, b, c] = t ++ ['\n'] ∧ '\n' ∉ t := by
  simp only [List.mem_cons, List.not_mem_nil, or_false, not_or] at h
  refine ⟨left :: (Text.join [cross] ([a, b, c].map fun w => List.replicate (w + 2) fill)
    ++ [right]), by simp [Table.rule], ?_⟩
  simp [Text.join_cons, h]

/-- The lines of a listing: three, one for each edit, and two. -/
theorem exists_splitOn_listing (a b c : Nat) (edits : List Edit) :
    ∃ top heading below bottom count, Text.splitOn '\n' (listing a b c edits)
      = top :: heading :: below :: (edits.map (editLine a b c) ++ [bottom, count, []]) := by
  obtain ⟨top, htop, htop'⟩ := exists_rule '┏' '━' '┳' '┓' a b c (by decide)
  obtain ⟨below, hbelow, hbelow'⟩ := exists_rule '┡' '━' '╇' '┩' a b c (by decide)
  obtain ⟨bottom, hbottom, hbottom'⟩ := exists_rule '└' '─' '┴' '┘' a b c (by decide)
  obtain ⟨heading, hheading, hheading'⟩ :
      ∃ t, Table.line '┃' [a, b, c] titles = t ++ ['\n'] ∧ '\n' ∉ t :=
    ⟨_, line_eq '┃' a b c _ _ _, by simp [padded]⟩
  let count := "(".toList ++ Text.ofInt edits.length ++ " edits)".toList
  have hcount : '\n' ∉ count := by
    simp [count, not_mem_ofInt (d := '\n') (by decide) (by decide)]
  refine ⟨top, heading, below, bottom, count, ?_⟩
  have hlisting : listing a b c edits = top ++ ['\n'] ++ (heading ++ ['\n'] ++ (below ++ ['\n'] ++
      (edits.flatMap (Table.line '│' [a, b, c] <| cells ·) ++ (bottom ++ ['\n'] ++
        (count ++ ['\n'] ++ []))))) := by
    have hnumber : Text.ofNat edits.length = Text.ofInt edits.length := rfl
    rw [listing, htop, hheading, hbelow, hbottom, hnumber]
    simp [count]
  rw [hlisting, splitOn_line htop', splitOn_line hheading', splitOn_line hbelow',
    splitOn_editLines, splitOn_line hbottom', splitOn_line hcount]
  rfl

/-- A text lists one batch at most. -/
theorem Lists.eq_of_lists {table : Text} {edits edits' : List Edit} (h : Lists table edits)
    (h' : Lists table edits') : edits = edits' := by
  obtain ⟨a, b, c, rfl⟩ := h
  obtain ⟨a', b', c', h⟩ := h'
  obtain ⟨_, _, _, _, _, hlines⟩ := exists_splitOn_listing a b c edits
  obtain ⟨_, _, _, _, _, hlines'⟩ := exists_splitOn_listing a' b' c' edits'
  rw [h, hlines'] at hlines
  simp only [List.cons.injEq] at hlines
  have hedits : List.Forall₂ Eq (edits.map (editLine a b c)) (edits'.map (editLine a' b' c')) := by
    rw [List.forall₂_eq_eq_eq]
    exact (List.append_inj' hlines.2.2.2 rfl).1.symm
  rw [List.forall₂_map_left_iff, List.forall₂_map_right_iff] at hedits
  rw [← List.forall₂_eq_eq_eq]
  exact hedits.imp fun _ _ => eq_of_editLine

/-! ## From a batch to its listing -/

/-- Whether a console shows the listing of a batch as it is: the quoted texts lose nothing, and
there is room for the columns. -/
structure Listable (edits : List Edit) : Prop where
  verbatim : ∀ e ∈ edits, Markup.IsVerbatim e.text.quoted
  room : Table.total (Table.naturalWidths titles (edits.map cells)) ≤ Wrap.consoleWidth

instance : DecidablePred Listable := fun edits =>
  decidable_of_iff ((∀ e ∈ edits, Markup.IsVerbatim e.text.quoted)
      ∧ Table.total (Table.naturalWidths titles (edits.map cells)) ≤ Wrap.consoleWidth)
    ⟨fun h => ⟨h.1, h.2⟩, fun h => ⟨h.verbatim, h.room⟩⟩

theorem isBlank_of_isDigit {c : Char} (h : c.isDigit = true) : Text.isBlank c = false := by
  have hle : 48 ≤ c.toNat ∧ c.toNat ≤ 57 := by
    simpa [Char.isDigit, UInt32.le_iff_toNat_le] using h
  simp only [Text.isBlank, Bool.or_eq_false_iff, Bool.and_eq_false_iff, decide_eq_false_iff_not,
    beq_eq_false_iff_ne]
  omega

theorem isCell_ofInt (n : Int) : Table.IsCell (Text.ofInt n) := by
  refine ⟨not_mem_ofInt (by decide) (by decide) n, fun c hc => ?_⟩
  rcases Text.eq_or_isDigit_of_mem_ofInt (List.mem_of_mem_getLast? hc) with rfl | hdigit
  · decide
  · exact isBlank_of_isDigit hdigit

theorem isCell_of_getLast? {t : Text} {c : Char} (hjoiner : Text.joiner ∉ t)
    (hlast : t.getLast? = some c) (hblank : Text.isBlank c = false) : Table.IsCell t := by
  refine ⟨hjoiner, fun d hd => ?_⟩
  rw [hlast, Option.mem_some_iff] at hd
  rw [← hd, hblank]

theorem isCell_quoted (t : Text) : Table.IsCell t.quoted := by
  have hblank : Text.isBlank (Text.quoteOf t) = false := by
    rcases Text.isQuote_quoteOf t with h | h <;> rw [h] <;> decide
  exact isCell_of_getLast? (not_mem_quoted (by decide +kernel) t) (Text.getLast?_quoted t) hblank

theorem isCell_of_mem_titles : ∀ t ∈ titles, Table.IsCell t := by
  simp only [titles, List.map_cons, List.map_nil, List.forall_mem_cons]
  refine ⟨?start, ?length, ?text, nofun⟩
  case start => exact isCell_of_getLast? (c := 't') (by decide) (by decide) (by decide)
  case length => exact isCell_of_getLast? (c := 'h') (by decide) (by decide) (by decide)
  case text => exact isCell_of_getLast? (c := 't') (by decide) (by decide) (by decide)

/-- The cells of an edit as a console shows them. -/
def shownCells (e : Edit) : Except Error (List Text) := do
  let text ← (Markup.plain (Markup.escape e.text.quoted)).mapError .markup
  return [Text.ofInt e.start, Text.ofInt e.length, text]

theorem editTable_eq (edits : List Edit) : editTable edits = do
    let rows ← edits.mapM shownCells
    return Table.render titles rows ++ "(".toList ++ Text.ofNat edits.length ++
      " edits)\n".toList :=
  rfl

/-- A table of edits can always be printed. -/
theorem exists_editTable (edits : List Edit) : ∃ table, editTable edits = .ok table := by
  have hrow : ∀ e ∈ edits, ∃ row, shownCells e = .ok row := by
    intro e _
    have hshown := Markup.isOk_plain_escape e.text.quoted
    unfold shownCells
    cases hplain : Markup.plain (Markup.escape e.text.quoted) with
    | error fault =>
      rw [hplain] at hshown
      cases hshown
    | ok u => exact ⟨_, rfl⟩
  obtain ⟨rows, hrows⟩ := exists_mapM hrow
  rw [editTable_eq, hrows]
  exact ⟨_, rfl⟩

/-- A text that loses nothing is shown in quotes. -/
theorem shownCells_eq {e : Edit} (h : Markup.IsVerbatim e.text.quoted) :
    shownCells e = .ok (cells e) := by
  have hslash : Text.quoteOf e.text ≠ '\\' := by
    rcases Text.isQuote_quoteOf e.text with h | h <;> rw [h] <;> decide
  rw [shownCells, Markup.plain_escape (Text.getLast?_quoted e.text) hslash
    (fun _ => Text.isPrintable_of_mem_quoted) h]
  rfl

/-- What is printed for a batch whose texts lose nothing. -/
def tableOf (edits : List Edit) : Text :=
  Table.render titles (edits.map cells) ++ "(".toList ++ Text.ofNat edits.length ++
    " edits)\n".toList

/-- If the texts of a batch lose nothing, the rows of its table are the starts, the lengths and the
quoted texts of its edits. -/
theorem editTable_of_verbatim {edits : List Edit}
    (h : ∀ e ∈ edits, Markup.IsVerbatim e.text.quoted) : editTable edits = .ok (tableOf edits) := by
  rw [editTable_eq, mapM_eq_map fun e he => shownCells_eq (h e he)]
  rfl

/-- What is printed for a listable batch lists it. -/
theorem lists_of_listable {edits : List Edit} {table : Text} (htable : editTable edits = .ok table)
    (h : Listable edits) : Lists table edits := by
  have hcells : ∀ row ∈ edits.map cells, row.length = titles.length
      ∧ ∀ cell ∈ row, Table.IsCell cell := by
    rw [List.forall_mem_map]
    intro e _
    refine ⟨rfl, ?_⟩
    simp only [cells, List.forall_mem_cons]
    exact ⟨isCell_ofInt _, isCell_ofInt _, isCell_quoted _, nofun⟩
  have hrender := Table.render_of_fits (by decide) isCell_of_mem_titles hcells h.room
  obtain ⟨a, b, c, hwidths⟩ :
      ∃ a b c, Table.naturalWidths titles (edits.map cells) = [a, b, c] := ⟨_, _, _, rfl⟩
  rw [hwidths] at hrender
  dsimp only at hrender
  rw [List.flatMap_map] at hrender
  rw [editTable_of_verbatim h.verbatim] at htable
  refine ⟨a, b, c, ?_⟩
  rw [listing, ← hrender]
  exact (Except.ok.inj htable).symm

/-- What is printed for a listable batch lists that batch and no other. -/
theorem lists_iff_of_listable {edits : List Edit} {table : Text}
    (htable : editTable edits = .ok table) (h : Listable edits) (listed : List Edit) :
    Lists table listed ↔ listed = edits := by
  constructor
  · exact fun hlisted => hlisted.eq_of_lists (lists_of_listable htable h)
  · rintro rfl
    exact lists_of_listable htable h

example : Listable [.insert 0 "import ballerina/http;\n".toList,
    .insert 41 "http:Request incomingRequest".toList,
    .insert 45 "\n    serviceBasePath: \"/\"\n".toList] := by
  decide +kernel

end BalMediation.CommandLine
