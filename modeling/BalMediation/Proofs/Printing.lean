import BalMediation.Console.Markup
import Mathlib.Data.List.TakeWhile
import Mathlib.Tactic.SplitIfs

/-!
# Texts that can be shown

A marked text is shown unless one of its tags is at fault. An escaped text has no tags left
(`Markup.isPlain_pieces`), so it can always be shown (`Markup.isOk_plain_escape`). A report that
begins with a styled word can be shown if what stands behind that word can
(`Markup.isOk_plain_green`): always if no bracket opens there (`Markup.isOk_plain_of_not_mem`),
and never if a tag closes a style there before any is open (`Markup.isOk_plain_closing`).
-/

namespace BalMediation.Markup

/-! ## Escaped texts -/

/-- A piece that is no tag. -/
def Piece.IsPlain (p : Piece) : Prop :=
  ∃ t, p = .plain t

theorem isPlain_piece (t : Text) : (piece t).IsPlain :=
  ⟨_, rfl⟩

/-- Whether a tag that has begun is ended before another bracket opens. -/
def ends (t : Text) : Bool :=
  (t.takeWhile (· != '[')).any (· == ']')

theorem ends_cons (c : Char) (t : Text) :
    ends (c :: t) = (c != '[' && (c == ']' || ends t)) := by
  by_cases hc : c = '[' <;> simp [ends, hc]

theorem isTag_cons (c : Char) (t : Text) : isTag (c :: t) = (startsTag c && ends t) :=
  rfl

theorem slashes_succ (n : Nat) : slashes (n + 1) = '\\' :: slashes n :=
  List.replicate_succ

theorem ends_slashes (n : Nat) (t : Text) : ends (slashes n ++ t) = ends t := by
  induction n with
  | zero => rfl
  | succ n ih =>
    rw [slashes_succ, List.cons_append, ends_cons, ih]
    simp

theorem isTag_slashes (n : Nat) (t : Text) : isTag (slashes (n + 1) ++ t) = false := by
  rw [slashes_succ, List.cons_append, isTag_cons]
  simp [show startsTag '\\' = false by decide]

theorem pieces_slashes (pending n : Nat) (seen t : Text) :
    pieces pending seen none (slashes n ++ t) = pieces (pending + n) seen none t := by
  induction n generalizing pending with
  | zero => rfl
  | succ n ih =>
    rw [slashes_succ, List.cons_append, pieces]
    simp only [if_true]
    rw [ih, Nat.add_right_comm, Nat.add_assoc]

theorem pieces_tag (pending : Nat) (seen : Text) {t : Text} (h : isTag t = true) :
    pieces pending seen none ('[' :: t) = piece seen.reverse :: .plain (slashes (pending / 2)) ::
      pieces 0 [] (some (pending % 2 = 1, [])) t := by
  rw [pieces]
  simp [h]

theorem pieces_other (pending : Nat) (seen : Text) {c : Char} {t : Text} (hc : c ≠ '\\')
    (h : ¬ (c = '[' ∧ isTag t = true)) :
    pieces pending seen none (c :: t) = pieces 0 (c :: slashes pending ++ seen) none t := by
  rw [pieces]
  simp [hc, h]

theorem pieces_close (shown : Bool) (tag t : Text) :
    pieces 0 [] (some (shown, tag)) (']' :: t)
      = (if shown then piece ('[' :: tag.reverse ++ [']']) else .tag tag.reverse) ::
        pieces 0 [] none t :=
  rfl

theorem pieces_inside (shown : Bool) (tag : Text) {c : Char} (hc : c ≠ ']') (t : Text) :
    pieces 0 [] (some (shown, tag)) (c :: t) = pieces 0 [] (some (shown, c :: tag)) t := by
  rw [pieces]
  simp [hc]

theorem pieces_inside_slashes (shown : Bool) (tag : Text) (n : Nat) :
    pieces 0 [] (some (shown, tag)) (slashes n) = [piece []] := by
  induction n generalizing tag with
  | zero => rfl
  | succ n ih =>
    rw [slashes_succ, pieces_inside shown tag (by decide)]
    exact ih ('\\' :: tag)

theorem protect_inside (c : Char) (t : Text) :
    protect 0 true (c :: t) = c :: protect 0 (c != ']') t :=
  rfl

theorem protect_slash (pending : Nat) (t : Text) :
    protect pending false ('\\' :: t) = protect (pending + 1) false t :=
  rfl

theorem protect_tag (pending : Nat) {t : Text} (h : isTag t = true) :
    protect pending false ('[' :: t)
      = slashes (2 * pending + 1) ++ '[' :: protect 0 true t := by
  simp [protect, h, slashes, List.replicate_succ']

theorem protect_other (pending : Nat) {c : Char} {t : Text} (hc : c ≠ '\\')
    (h : ¬ (c = '[' ∧ isTag t = true)) :
    protect pending false (c :: t) = slashes pending ++ c :: protect 0 false t := by
  simp [protect, hc, h]

theorem exists_protect_succ (pending : Nat) (t : Text) :
    ∃ u, protect (pending + 1) false t = slashes 1 ++ u := by
  induction t generalizing pending with
  | nil => exact ⟨slashes pending, slashes_succ pending⟩
  | cons c t ih =>
    by_cases hc : c = '\\'
    · rw [hc, protect_slash]
      exact ih (pending + 1)
    · by_cases h : c = '[' ∧ isTag t = true
      · rw [h.1, protect_tag _ h.2, slashes_succ]
        exact ⟨_, rfl⟩
      · rw [protect_other _ hc h, slashes_succ]
        exact ⟨_, rfl⟩

/-- Inside of a tag the text is kept up to the end of the tag. -/
theorem ends_protect_inside {t : Text} (h : ends t = true) (rest : Text) :
    ends (protect 0 true t ++ rest) = true := by
  induction t with
  | nil => cases h
  | cons c t ih =>
    rw [ends_cons] at h
    rw [protect_inside, List.cons_append, ends_cons]
    by_cases hc : c = ']'
    · simp [hc]
    · simp only [Bool.and_eq_true, Bool.or_eq_true, beq_iff_eq, hc, false_or] at h
      rw [bne_iff_ne.2 hc, ih h.2, h.1]
      simp

theorem isTag_protect_inside {t : Text} (h : isTag t = true) (rest : Text) :
    isTag (protect 0 true t ++ rest) = true := by
  cases t with
  | nil => cases h
  | cons c t =>
    rw [isTag_cons, Bool.and_eq_true] at h
    have hc : c ≠ ']' := by
      rintro rfl
      exact absurd h.1 (by decide)
    rw [protect_inside, List.cons_append, isTag_cons, h.1, bne_iff_ne.2 hc,
      ends_protect_inside h.2]
    rfl

/-- Outside of tags no end of a tag comes nearer. -/
theorem ends_of_protect {pending j : Nat} {t : Text}
    (h : ends (protect pending false t ++ slashes j) = true) : ends t = true := by
  induction t generalizing pending with
  | nil =>
    rw [protect, ends_slashes, ← List.append_nil (slashes j), ends_slashes] at h
    exact h
  | cons c t ih =>
    rw [ends_cons]
    by_cases hc : c = '\\'
    · rw [hc, protect_slash] at h
      simp [hc, ih h]
    · by_cases htag : c = '[' ∧ isTag t = true
      · rw [htag.1, protect_tag _ htag.2, List.append_assoc, ends_slashes, List.cons_append,
          ends_cons] at h
        cases h
      · rw [protect_other _ hc htag, List.append_assoc, ends_slashes, List.cons_append,
          ends_cons] at h
        simp only [Bool.and_eq_true, Bool.or_eq_true] at h ⊢
        exact ⟨h.1, h.2.imp_right ih⟩

theorem isTag_of_protect {j : Nat} {t : Text}
    (h : isTag (protect 0 false t ++ slashes j) = true) : isTag t = true := by
  cases t with
  | nil =>
    cases j with
    | zero => cases h
    | succ j =>
      rw [← List.append_nil (protect 0 false [] ++ slashes (j + 1)), List.append_assoc] at h
      exact absurd h (by rw [protect]; exact Bool.eq_false_iff.1 (isTag_slashes j []))
  | cons c t =>
    by_cases hc : c = '\\'
    · obtain ⟨u, hu⟩ := exists_protect_succ 0 t
      rw [hc, protect_slash, hu, List.append_assoc, isTag_slashes] at h
      cases h
    · by_cases htag : c = '[' ∧ isTag t = true
      · rw [htag.1, protect_tag _ htag.2, List.append_assoc, isTag_slashes] at h
        cases h
      · rw [protect_other _ hc htag] at h
        change isTag (c :: (protect 0 false t ++ slashes j)) = true at h
        rw [isTag_cons, Bool.and_eq_true] at h ⊢
        exact ⟨h.1, ends_of_protect h.2⟩

/-! The pieces of a protected text with backslashes behind it, character by character. -/

theorem pieces_protect_nil (j pending : Nat) (seen : Text) :
    pieces 0 seen none (protect pending false [] ++ slashes j)
      = [piece (seen.reverse ++ slashes (pending + j))] := by
  rw [protect, pieces_slashes, ← List.append_nil (slashes j), pieces_slashes, pieces, Nat.zero_add]

theorem pieces_protect_slash (j pending : Nat) (seen t : Text) :
    pieces 0 seen none (protect pending false ('\\' :: t) ++ slashes j)
      = pieces 0 seen none (protect (pending + 1) false t ++ slashes j) := by
  rw [protect_slash]

/-- A bracket that begins a tag has an odd number of backslashes in front, so the tag is shown. -/
theorem pieces_protect_tag (j pending : Nat) (seen : Text) {t : Text} (h : isTag t = true) :
    pieces 0 seen none (protect pending false ('[' :: t) ++ slashes j)
      = piece seen.reverse :: .plain (slashes pending) ::
        pieces 0 [] (some (true, [])) (protect 0 true t ++ slashes j) := by
  have hodd : (0 + (2 * pending + 1)) % 2 = 1 := by omega
  have hhalf : (0 + (2 * pending + 1)) / 2 = pending := by omega
  rw [protect_tag _ h, List.append_assoc, pieces_slashes, List.cons_append,
    pieces_tag _ _ (isTag_protect_inside h _), hodd, hhalf]
  rfl

theorem pieces_protect_other (j pending : Nat) (seen : Text) {c : Char} {t : Text} (hc : c ≠ '\\')
    (h : ¬ (c = '[' ∧ isTag t = true)) :
    pieces 0 seen none (protect pending false (c :: t) ++ slashes j)
      = pieces 0 (c :: slashes pending ++ seen) none (protect 0 false t ++ slashes j) := by
  have hkept : ¬ (c = '[' ∧ isTag (protect 0 false t ++ slashes j) = true) :=
    fun h' => h ⟨h'.1, isTag_of_protect h'.2⟩
  rw [protect_other _ hc h, List.append_assoc, pieces_slashes, List.cons_append,
    pieces_other _ _ hc hkept, Nat.zero_add]

theorem pieces_protect_close (j : Nat) (tag t : Text) :
    pieces 0 [] (some (true, tag)) (protect 0 true (']' :: t) ++ slashes j)
      = piece ('[' :: tag.reverse ++ [']']) :: pieces 0 [] none (protect 0 false t ++ slashes j) :=
  rfl

theorem pieces_protect_inside (j : Nat) (tag : Text) {c : Char} (hc : c ≠ ']') (t : Text) :
    pieces 0 [] (some (true, tag)) (protect 0 true (c :: t) ++ slashes j)
      = pieces 0 [] (some (true, c :: tag)) (protect 0 true t ++ slashes j) := by
  rw [protect_inside, List.cons_append, pieces_inside _ _ hc, bne_iff_ne.2 hc]

/-- No piece of a protected text is a tag, outside of a tag and inside of one. -/
theorem isPlain_pieces (j : Nat) (t : Text) :
    (∀ pending seen, ∀ p ∈ pieces 0 seen none (protect pending false t ++ slashes j), p.IsPlain)
    ∧ ∀ tag, ∀ p ∈ pieces 0 [] (some (true, tag)) (protect 0 true t ++ slashes j), p.IsPlain := by
  induction t with
  | nil =>
    constructor
    · intro pending seen
      rw [pieces_protect_nil, List.forall_mem_singleton]
      exact isPlain_piece _
    · intro tag
      change ∀ p ∈ pieces 0 [] (some (true, tag)) (slashes j), p.IsPlain
      rw [pieces_inside_slashes, List.forall_mem_singleton]
      exact isPlain_piece _
  | cons c t ih =>
    obtain ⟨houtside, hinside⟩ := ih
    constructor
    · intro pending seen
      by_cases hc : c = '\\'
      · rw [hc, pieces_protect_slash]
        exact houtside (pending + 1) seen
      · by_cases htag : c = '[' ∧ isTag t = true
        · rw [htag.1, pieces_protect_tag _ _ _ htag.2, List.forall_mem_cons, List.forall_mem_cons]
          exact ⟨isPlain_piece _, ⟨_, rfl⟩, hinside []⟩
        · rw [pieces_protect_other _ _ _ hc htag]
          exact houtside 0 _
    · intro tag
      by_cases hc : c = ']'
      · rw [hc, pieces_protect_close, List.forall_mem_cons]
        exact ⟨isPlain_piece _, houtside 0 []⟩
      · rw [pieces_protect_inside _ _ hc]
        exact hinside (c :: tag)

theorem Piece.IsPlain.isOk_assemble {p : Piece} (h : p.IsPlain) (styles : List OpenStyle)
    (ps : List Piece) : (assemble styles (p :: ps)).isOk = (assemble styles ps).isOk := by
  obtain ⟨t, rfl⟩ := h
  rw [assemble]
  cases assemble styles ps <;> rfl

theorem isOk_assemble (styles : List OpenStyle) {ps : List Piece} (h : ∀ p ∈ ps, p.IsPlain) :
    (assemble styles ps).isOk = true := by
  induction ps with
  | nil => rfl
  | cons p ps ih =>
    rw [List.forall_mem_cons] at h
    rw [h.1.isOk_assemble, ih h.2]

theorem isOk_plain (t : Text) : (plain t).isOk = (assemble [] (pieces 0 [] none t)).isOk := by
  unfold plain
  cases assemble [] (pieces 0 [] none t) <;> rfl

theorem exists_escape_eq (t : Text) : ∃ j, escape t = protect 0 false t ++ slashes j := by
  unfold escape
  dsimp only
  split
  · exact ⟨1, rfl⟩
  · exact ⟨0, (List.append_nil _).symm⟩

/-- An escaped text can always be shown. -/
theorem isOk_plain_escape (t : Text) : (plain (escape t)).isOk = true := by
  obtain ⟨j, hj⟩ := exists_escape_eq t
  rw [isOk_plain, hj]
  exact isOk_assemble [] ((isPlain_pieces j t).1 0 [])

/-! ## Reports -/

theorem ends_append {t : Text} (h : '[' ∉ t) (rest : Text) : ends (t ++ ']' :: rest) = true := by
  induction t with
  | nil => rfl
  | cons c t ih =>
    rw [List.mem_cons, not_or] at h
    rw [List.cons_append, ends_cons, ih h.2]
    simp [Ne.symm h.1]

theorem pieces_name {name : Text} (h : ']' ∉ name) (tag rest : Text) :
    pieces 0 [] (some (false, tag)) (name ++ ']' :: rest)
      = .tag (tag.reverse ++ name) :: pieces 0 [] none rest := by
  induction name generalizing tag with
  | nil => simp [pieces_close]
  | cons c name ih =>
    rw [List.mem_cons, not_or] at h
    rw [List.cons_append, pieces_inside _ _ (Ne.symm h.1), ih h.2]
    simp

theorem pieces_word {word : Text} (hopen : '[' ∉ word) (hslash : '\\' ∉ word) (seen rest : Text) :
    pieces 0 seen none (word ++ rest) = pieces 0 (word.reverse ++ seen) none rest := by
  induction word generalizing seen with
  | nil => rfl
  | cons c word ih =>
    rw [List.mem_cons, not_or] at hopen hslash
    rw [List.cons_append, pieces_other _ _ (Ne.symm hslash.1) fun h => hopen.1 h.1.symm,
      ih hopen.2 hslash.2]
    simp [slashes]

theorem isPlain_pieces_of_not_mem {t : Text} (h : '[' ∉ t) (pending : Nat) (seen : Text) :
    ∀ p ∈ pieces pending seen none t, p.IsPlain := by
  induction t generalizing pending seen with
  | nil =>
    rw [pieces, List.forall_mem_singleton]
    exact isPlain_piece _
  | cons c t ih =>
    rw [List.mem_cons, not_or] at h
    by_cases hc : c = '\\'
    · rw [hc]
      exact ih h.2 (pending + 1) seen
    · rw [pieces_other _ _ hc fun h' => h.1 h'.1.symm]
      exact ih h.2 0 _

/-- A tag that opens a style or closes it. -/
theorem pieces_opening {c : Char} {name : Text} (hc : startsTag c = true) (hopen : '[' ∉ name)
    (hclose : ']' ∉ c :: name) (seen rest : Text) :
    pieces 0 seen none ('[' :: (c :: name ++ ']' :: rest))
      = piece seen.reverse :: .plain [] :: .tag (c :: name) :: pieces 0 [] none rest := by
  have htag : isTag (c :: name ++ ']' :: rest) = true := by
    rw [List.cons_append, isTag_cons, hc, ends_append hopen]
    rfl
  rw [pieces_tag _ _ htag]
  change _ :: _ :: pieces 0 [] (some (false, [])) (c :: name ++ ']' :: rest) = _
  rw [pieces_name hclose]
  rfl

theorem read_word (s : Style) {word : Text} {known : Bool} (hlower : word.lower = word)
    (hon : word ≠ "on".toList) (hnot : word ≠ "not".toList) (hlink : word ≠ "link".toList)
    (hattribute : Style.attribute? word = none) (hcolour : Style.isColour? word = some known) :
    Style.read s [word] = if known then .style { s with colour := some word } else .unknown := by
  rw [Style.read]
  simp only [hlower, if_neg hon, if_neg hnot, if_neg hlink, hattribute, hcolour]
  cases known <;> rfl

/-- A word that is no part of a longer style has a normal name, whether it is a colour or not. -/
theorem exists_styleName {word : Text} {known : Bool} (hwords : word.words = [word])
    (hlower : word.lower = word) (hon : word ≠ "on".toList) (hnot : word ≠ "not".toList)
    (hlink : word ≠ "link".toList) (hattribute : Style.attribute? word = none)
    (hcolour : Style.isColour? word = some known) : ∃ name, styleName word = .ok name := by
  rw [styleName, Style.normalize?, hwords,
    read_word {} hlower hon hnot hlink hattribute hcolour]
  split_ifs
  · exact ⟨_, rfl⟩
  · exact ⟨_, rfl⟩
  · exact ⟨_, rfl⟩

theorem exists_styleName_green : ∃ name, styleName "green".toList = .ok name := by
  -- Looking the colour up would compare it with all colours there are, and is not needed.
  have hcolour : ∃ known, Style.isColour? "green".toList = some known := by
    unfold Style.isColour?
    split_ifs
    · exact ⟨true, rfl⟩
    · exact ⟨false, by decide⟩
  obtain ⟨known, hknown⟩ := hcolour
  exact exists_styleName (by decide) (by decide +kernel) (by decide) (by decide) (by decide)
    (by decide +kernel) hknown

theorem assemble_green {name : Text} (hname : styleName "green".toList = .ok name)
    (styles : List OpenStyle) (ps : List Piece) :
    assemble styles (.tag "green".toList :: ps) = assemble (⟨name, []⟩ :: styles) ps := by
  have hcut : cutTag "green".toList = ("green".toList, []) := by decide
  rw [String.toList_ofList] at hcut hname ⊢
  rw [assemble, hcut]
  change (styleName _ >>= _) = _
  rw [hname]
  rfl

theorem close_green {name : Text} (hname : styleName "green".toList = .ok name)
    (styles : List OpenStyle) :
    close (⟨name, []⟩ :: styles) "green".toList = .ok (⟨name, []⟩, styles) := by
  have htrim : Text.trim "green".toList = "green".toList := by decide
  have hempty : ¬ List.isEmpty "green".toList = true := by decide
  rw [close, htrim, if_neg hempty, hname]
  simp [bind, Except.bind, pure, Except.pure]

theorem assemble_green_end {name : Text} (hname : styleName "green".toList = .ok name)
    (styles : List OpenStyle) (ps : List Piece) :
    assemble (⟨name, []⟩ :: styles) (.tag ('/' :: "green".toList) :: ps) = assemble styles ps := by
  have hcut : cutTag ('/' :: "green".toList) = ('/' :: "green".toList, []) := by decide
  have hclose : (OpenStyle.mk name []).canClose = true := by
    simp [OpenStyle.canClose]
  rw [assemble, hcut]
  change (close _ _ >>= _) = _
  rw [close_green hname]
  simp only [bind, Except.bind, hclose, if_true]

theorem pieces_green {word : Text} (hopen : '[' ∉ word) (hslash : '\\' ∉ word) (rest : Text) :
    pieces 0 [] none (styled "green" word ++ rest)
      = piece [] :: .plain [] :: .tag "green".toList :: piece word :: .plain [] ::
        .tag ('/' :: "green".toList) :: pieces 0 [] none rest := by
  have htext : styled "green" word ++ rest = '[' :: ("green".toList ++ ']' ::
      (word ++ '[' :: ('/' :: "green".toList ++ ']' :: rest))) := by
    simp [styled]
  rw [htext, String.toList_ofList, pieces_opening (by decide) (by decide) (by decide),
    pieces_word hopen hslash, pieces_opening (by decide) (by decide) (by decide)]
  simp

/-- A word in green can be shown together with a text behind it if that text can. -/
theorem isOk_plain_green {word : Text} (hopen : '[' ∉ word) (hslash : '\\' ∉ word) (rest : Text) :
    (plain (styled "green" word ++ rest)).isOk = (plain rest).isOk := by
  have hempty : (Piece.plain []).IsPlain := ⟨[], rfl⟩
  obtain ⟨name, hname⟩ := exists_styleName_green
  rw [isOk_plain, isOk_plain, pieces_green hopen hslash, (isPlain_piece []).isOk_assemble,
    hempty.isOk_assemble, assemble_green hname, (isPlain_piece word).isOk_assemble,
    hempty.isOk_assemble, assemble_green_end hname]

theorem isOk_plain_of_not_mem {t : Text} (h : '[' ∉ t) : (plain t).isOk = true := by
  rw [isOk_plain]
  exact isOk_assemble [] (isPlain_pieces_of_not_mem h 0 [])

theorem isOk_close_nil (closing : Text) : (close [] closing).isOk = false := by
  unfold close
  split_ifs
  · rfl
  · cases styleName closing.trim <;> rfl

theorem cutTag_of_not_mem {name : Text} (h : '=' ∉ name) : cutTag name = (name, []) := by
  have htake : name.takeWhile (· != '=') = name := by
    rw [List.takeWhile_eq_self_iff]
    exact fun c hc => bne_iff_ne.2 fun heq => h (heq ▸ hc)
  have hdrop : name.dropWhile (· != '=') = [] := by
    rw [List.dropWhile_eq_nil_iff]
    exact fun c hc => bne_iff_ne.2 fun heq => h (heq ▸ hc)
  rw [cutTag, htake, hdrop]
  rfl

/-- A tag that closes a style cannot be shown where none is open. -/
theorem isOk_plain_closing {before closing : Text} (hopen : '[' ∉ before) (hslash : '\\' ∉ before)
    (hname : '[' ∉ closing) (hclose : ']' ∉ closing) (hequals : '=' ∉ closing) (rest : Text) :
    (plain (before ++ '[' :: ('/' :: closing ++ ']' :: rest))).isOk = false := by
  have hempty : (Piece.plain []).IsPlain := ⟨[], rfl⟩
  have hend : ']' ∉ '/' :: closing := by
    rw [List.mem_cons, not_or]
    exact ⟨by decide, hclose⟩
  have hcut : cutTag ('/' :: closing) = ('/' :: closing, []) := by
    refine cutTag_of_not_mem ?_
    rw [List.mem_cons, not_or]
    exact ⟨by decide, hequals⟩
  have hfault := isOk_close_nil closing
  rw [isOk_plain, pieces_word hopen hslash, pieces_opening (by decide) hname hend,
    (isPlain_piece _).isOk_assemble, hempty.isOk_assemble, assemble, hcut]
  change (close [] closing >>= _).isOk = false
  cases hclose : close [] closing with
  | error fault => rfl
  | ok closed =>
    rw [hclose] at hfault
    cases hfault

end BalMediation.Markup
