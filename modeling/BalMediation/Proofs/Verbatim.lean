import BalMediation.Proofs.Paths
import BalMediation.Proofs.Printing
import BalMediation.Text.Printable
import Mathlib.Data.List.Infix

/-!
# Texts that are shown as they are

Escaping protects the tags of a text and nothing else. Of what is left a backslash before a bracket
is dropped, and a pictograph replaces its name between two colons. A printable text without either
is shown as it is once it is escaped (`Markup.plain_escape`).
-/

namespace BalMediation

theorem Text.exists_cons_of_prefix {t u : Text} {c : Char} (h : u <+: t)
    (hc : t[u.length]? = some c) : ∃ v, t = u ++ c :: v := by
  obtain ⟨v, rfl⟩ := h
  rw [List.getElem?_append_right (Nat.le_refl _), Nat.sub_self, ← List.head?_eq_getElem?] at hc
  obtain ⟨v, rfl⟩ := List.head?_eq_some_iff.1 hc
  exact ⟨v, rfl⟩

/-! ## Pictographs -/

namespace Emoji

/-- A character that can stand between two colons as part of a name. -/
def isNamePart (c : Char) : Bool :=
  c != ':' && !Text.isBlank c

/-- Whether no two colons of a text have the name of a pictograph between them. -/
def IsAbsent (t : Text) : Prop :=
  ∀ before name after, t = before ++ ':' :: (name ++ ':' :: after) →
    (∀ c ∈ name, isNamePart c = true) → shown name = ':' :: name ++ [':']

theorem IsAbsent.of_infix {t u : Text} (h : IsAbsent t) (hu : u <:+: t) : IsAbsent u := by
  obtain ⟨a, b, rfl⟩ := hu
  rintro before name after rfl hname
  exact h (a ++ before) name (after ++ b) (by simp) hname

/-- Whether a text does not begin with the name of a pictograph between colons. -/
def AbsentAt (t : Text) : Prop :=
  let name := t.tail.takeWhile isNamePart
  t.head? = some ':' → t.tail[name.length]? = some ':' → shown name = ':' :: name ++ [':']

instance : DecidablePred AbsentAt := fun _ => inferInstanceAs (Decidable (_ → _ → _))

theorem isAbsent_iff {t : Text} : IsAbsent t ↔ ∀ u ∈ t.tails, AbsentAt u := by
  constructor
  · intro h u hu hhead hend
    obtain ⟨before, rfl⟩ := (List.mem_tails _ _).1 hu
    obtain ⟨rest, rfl⟩ := List.head?_eq_some_iff.1 hhead
    obtain ⟨after, hafter⟩ := Text.exists_cons_of_prefix (List.takeWhile_prefix isNamePart) hend
    exact h before _ after (congrArg (before ++ ':' :: ·) hafter) fun _ => List.mem_takeWhile_imp
  · rintro h before name after rfl hname
    have hstop : (name ++ ':' :: after).takeWhile isNamePart = name := by
      rw [List.takeWhile_append_of_pos hname, List.takeWhile_cons_of_neg (by decide),
        List.append_nil]
    have habsent := h (':' :: (name ++ ':' :: after)) ((List.mem_tails _ _).2 ⟨before, rfl⟩)
    unfold AbsentAt at habsent
    rw [List.tail_cons, hstop] at habsent
    exact habsent rfl (by simp)

instance : DecidablePred IsAbsent := fun _ => decidable_of_iff' _ isAbsent_iff

theorem IsAbsent.replaceFrom_eq {t : Text} :
    (IsAbsent t → replaceFrom none t = t)
    ∧ ∀ name, (∀ c ∈ name, isNamePart c = true) →
      IsAbsent (':' :: name.reverse ++ t) →
        replaceFrom (some name) t = ':' :: name.reverse ++ t := by
  induction t with
  | nil => exact ⟨fun _ => rfl, fun name _ _ => (List.append_nil _).symm⟩
  | cons c t ih =>
    obtain ⟨houtside, hinside⟩ := ih
    constructor
    · intro h
      rw [replaceFrom]
      split_ifs with hc
      · rw [hc] at h ⊢
        exact hinside [] (by simp) h
      · rw [houtside (h.of_infix (List.suffix_cons c t).isInfix)]
    · intro name hname h
      have htail : IsAbsent t := by
        refine h.of_infix (List.IsSuffix.isInfix ⟨':' :: name.reverse ++ [c], ?_⟩)
        simp
      rw [replaceFrom]
      split_ifs with hc hblank
      · have hreverse : ∀ c ∈ name.reverse, isNamePart c = true :=
          fun c hc => hname c (List.mem_reverse.1 hc)
        rw [hc] at h ⊢
        rw [h [] name.reverse t rfl hreverse, houtside htail, List.append_assoc]
        rfl
      · rw [houtside htail]
      · have hpart : isNamePart c = true := by simp [isNamePart, hc, hblank]
        have hlonger := hinside (c :: name) (List.forall_mem_cons.2 ⟨hpart, hname⟩)
          (by simpa using h)
        simpa using hlonger

/-- A text without names of pictographs stays as it is. -/
theorem IsAbsent.replace_eq {t : Text} (h : IsAbsent t) : replace t = t :=
  replaceFrom_eq.1 h

end Emoji

/-! ## Pieces -/

namespace Markup

/-- Whether a text has nothing in it that an escaped text loses when it is shown: no backslash
before a bracket, and no name of a pictograph. -/
structure IsVerbatim (t : Text) : Prop where
  bracket : ¬ ['\\', '['] <:+: t
  pictograph : Emoji.IsAbsent t

instance : DecidablePred IsVerbatim := fun t =>
  decidable_of_iff (¬ ['\\', '['] <:+: t ∧ Emoji.IsAbsent t)
    ⟨fun h => ⟨h.1, h.2⟩, fun h => ⟨h.bracket, h.pictograph⟩⟩

theorem IsVerbatim.of_infix {t u : Text} (h : IsVerbatim t) (hu : u <:+: t) : IsVerbatim u :=
  ⟨fun hb => h.bracket (hb.trans hu), h.pictograph.of_infix hu⟩

theorem dropEscapes_eq {t : Text} (h : ¬ ['\\', '['] <:+: t) : piece.dropEscapes t = t := by
  induction t with
  | nil => rfl
  | cons c t ih =>
    have htail : ¬ ['\\', '['] <:+: t := fun hb => h (hb.trans (List.suffix_cons c t).isInfix)
    rw [piece.dropEscapes, ih htail]
    split_ifs with hc
    · rw [Bool.and_eq_true, decide_eq_true_eq, decide_eq_true_eq] at hc
      obtain ⟨rfl, hhead⟩ := hc
      obtain ⟨u, rfl⟩ := List.head?_eq_some_iff.1 hhead
      exact absurd (List.prefix_append ['\\', '['] u).isInfix h
    · rfl

theorem IsVerbatim.piece_eq {t : Text} (h : IsVerbatim t) : piece t = .plain t := by
  rw [piece, dropEscapes_eq h.bracket, h.pictograph.replace_eq]

/-- The text of a piece. -/
def Piece.text : Piece → Text
  | .plain t => t
  | .tag t => t

theorem assemble_eq (styles : List OpenStyle) {ps : List Piece} (h : ∀ p ∈ ps, p.IsPlain) :
    assemble styles ps = .ok (ps.flatMap Piece.text) := by
  induction ps with
  | nil => rfl
  | cons p ps ih =>
    rw [List.forall_mem_cons] at h
    obtain ⟨⟨t, rfl⟩, h⟩ := h
    rw [assemble, ih h]
    rfl

theorem ends_of_isTag {t : Text} (h : isTag t = true) : ends t = true := by
  cases t with
  | nil => cases h
  | cons c t =>
    rw [isTag_cons, Bool.and_eq_true] at h
    have hc : c ≠ '[' := by
      rintro rfl
      exact absurd h.1 (by decide)
    rw [ends_cons, h.2, bne_iff_ne.2 hc]
    simp

/-- The pieces of a protected text hold the text, outside of a tag and inside of one. -/
theorem text_pieces (j : Nat) (t : Text) :
    (∀ pending seen, IsVerbatim (seen.reverse ++ slashes pending ++ t ++ slashes j) →
      (pieces 0 seen none (protect pending false t ++ slashes j)).flatMap Piece.text
        = seen.reverse ++ slashes pending ++ t ++ slashes j)
    ∧ ∀ tag, ends t = true → IsVerbatim ('[' :: tag.reverse ++ t ++ slashes j) →
      (pieces 0 [] (some (true, tag)) (protect 0 true t ++ slashes j)).flatMap Piece.text
        = '[' :: tag.reverse ++ t ++ slashes j := by
  induction t with
  | nil =>
    refine ⟨fun pending seen h => ?_, nofun⟩
    have htext : seen.reverse ++ slashes pending ++ [] ++ slashes j
        = seen.reverse ++ slashes (pending + j) := by
      simp [slashes]
    rw [htext] at h ⊢
    rw [pieces_protect_nil, h.piece_eq]
    exact List.append_nil _
  | cons c t ih =>
    obtain ⟨houtside, hinside⟩ := ih
    constructor
    · intro pending seen h
      by_cases hc : c = '\\'
      · have htext : seen.reverse ++ slashes pending ++ c :: t
            = seen.reverse ++ slashes (pending + 1) ++ t := by
          simp [hc, slashes, List.replicate_succ']
        rw [htext] at h ⊢
        rw [hc, pieces_protect_slash]
        exact houtside (pending + 1) seen h
      · by_cases htag : c = '[' ∧ isTag t = true
        · obtain ⟨rfl, htag⟩ := htag
          have hseen : IsVerbatim seen.reverse :=
            h.of_infix ⟨[], slashes pending ++ '[' :: t ++ slashes j, by simp⟩
          have hrest : IsVerbatim ('[' :: t ++ slashes j) :=
            h.of_infix ⟨seen.reverse ++ slashes pending, [], by simp⟩
          rw [pieces_protect_tag _ _ _ htag, hseen.piece_eq, List.flatMap_cons, List.flatMap_cons,
            hinside [] (ends_of_isTag htag) hrest]
          simp [Piece.text]
        · have htext : seen.reverse ++ slashes pending ++ c :: t
              = (c :: slashes pending ++ seen).reverse ++ slashes 0 ++ t := by
            simp [slashes]
          rw [htext] at h ⊢
          rw [pieces_protect_other _ _ _ hc htag]
          exact houtside 0 _ h
    · intro tag hends h
      by_cases hc : c = ']'
      · subst hc
        have hclosed : IsVerbatim ('[' :: tag.reverse ++ [']']) :=
          h.of_infix ⟨[], t ++ slashes j, by simp⟩
        have hrest : IsVerbatim (t ++ slashes j) :=
          h.of_infix ⟨'[' :: tag.reverse ++ [']'], [], by simp⟩
        rw [pieces_protect_close, hclosed.piece_eq, List.flatMap_cons, houtside 0 [] hrest]
        simp [Piece.text, slashes]
      · have htext : '[' :: tag.reverse ++ c :: t = '[' :: (c :: tag).reverse ++ t := by simp
        rw [ends_cons, Bool.and_eq_true, Bool.or_eq_true, beq_iff_eq] at hends
        rw [htext] at h ⊢
        rw [pieces_protect_inside _ _ hc]
        exact hinside (c :: tag) (hends.2.resolve_left hc) h

/-! ## Texts -/

/-- A protected text ends as the text does, unless that is in a backslash. -/
theorem exists_protect_concat {c : Char} (hc : c ≠ '\\') (pending : Nat) (inside : Bool)
    (t : Text) : ∃ u, protect pending inside (t ++ [c]) = u ++ [c] := by
  induction t generalizing pending inside with
  | nil =>
    have hkept : ¬ (c = '[' ∧ isTag [] = true) := by simp [isTag]
    cases inside with
    | true => exact ⟨[], rfl⟩
    | false =>
      rw [List.nil_append, protect_other pending hc hkept]
      exact ⟨slashes pending, rfl⟩
  | cons d t ih =>
    rw [List.cons_append, protect]
    split_ifs
    · obtain ⟨u, hu⟩ := ih 0 (d != ']')
      exact ⟨d :: u, by rw [hu]; rfl⟩
    · exact ih (pending + 1) false
    · obtain ⟨u, hu⟩ := ih 0 true
      exact ⟨slashes (2 * pending) ++ '\\' :: '[' :: u, by rw [hu]; simp⟩
    · obtain ⟨u, hu⟩ := ih 0 false
      exact ⟨slashes pending ++ d :: u, by rw [hu]; simp⟩

theorem escape_of_getLast? {t : Text} {c : Char} (h : t.getLast? = some c) (hc : c ≠ '\\') :
    escape t = protect 0 false t := by
  obtain ⟨t, rfl⟩ := List.getLast?_eq_some_iff.1 h
  obtain ⟨u, hu⟩ := exists_protect_concat hc 0 false t
  have hsuffix : (slashes 1).isSuffixOf (u ++ [c]) = false := by
    rw [Bool.eq_false_iff, Ne, List.isSuffixOf_iff_suffix]
    rintro ⟨v, hv⟩
    exact hc (by simpa [slashes] using (List.append_inj' hv rfl).2.symm)
  unfold escape
  dsimp only
  rw [hu, hsuffix]
  rfl

theorem lt_of_isPrintable {c : Char} (h : Text.isPrintable c = true) : 0x1f < c.toNat := by
  unfold Text.isPrintable at h
  split_ifs at h with hascii
  · rw [Bool.and_eq_true, decide_eq_true_eq] at h
    exact h.1
  · omega

theorem isSilent_of_isPrintable {c : Char} (h : Text.isPrintable c = true) :
    isSilent c = false := by
  have hlt := lt_of_isPrintable h
  simp only [isSilent, Bool.or_eq_false_iff, beq_eq_false_iff_ne]
  omega

theorem expandTabs_of_not_mem {line : Text} (h : '\t' ∉ line) : expandTabs line = line := by
  rw [expandTabs, Text.splitOn_of_not_mem h]
  rfl

/-- A printable text is shown as it is once it is escaped, if it loses nothing by that. -/
theorem plain_escape {t : Text} {c : Char} (hlast : t.getLast? = some c) (hc : c ≠ '\\')
    (hprintable : ∀ d ∈ t, Text.isPrintable d = true) (hverbatim : IsVerbatim t) :
    plain (escape t) = .ok t := by
  have hescape : escape t = protect 0 false t ++ slashes 0 := by
    rw [escape_of_getLast? hlast hc]
    exact (List.append_nil _).symm
  have hshown : assemble [] (pieces 0 [] none (escape t)) = .ok t := by
    rw [hescape, assemble_eq [] ((isPlain_pieces 0 t).1 0 []),
      (text_pieces 0 t).1 0 [] (by simpa [slashes] using hverbatim)]
    simp [slashes]
  have hfilter : t.filter (!isSilent ·) = t := by
    rw [List.filter_eq_self]
    exact fun d hd => by rw [isSilent_of_isPrintable (hprintable d hd)]; rfl
  have hline : '\n' ∉ t := fun h => absurd (hprintable _ h) (by decide)
  have htab : '\t' ∉ t := fun h => absurd (hprintable _ h) (by decide)
  unfold plain
  rw [hshown]
  simp only [bind, Except.bind]
  rw [hfilter, List.splitOn_eq_singleton hline, List.map_singleton, expandTabs_of_not_mem htab,
    Text.join, List.intercalate_singleton]
  rfl

end Markup

end BalMediation
