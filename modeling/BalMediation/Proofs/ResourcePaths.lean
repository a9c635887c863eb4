import BalMediation.Proofs.Identifiers
import BalMediation.Proofs.Paths
import Mathlib.Data.List.Infix

/-!
# Resource paths, segment by segment

A path is cut at the slashes outside of brackets, where as many brackets have been closed as opened.
So two paths with a slash between are cut into the segments of the first and those of the second, if
the brackets of the first match in number (`parts_append`), and a path is requested by what its
segments are requested by, one behind the other (`render_append`).

A segment on its own is requested as its identifier says (`Segment.Clear.parts_text`), but cutting
and naming look at characters, not at escapes: an escaped slash or bracket can cut an identifier in
two, and an escaped character that no name has unescaped cuts the name of a parameter short.
-/

namespace BalMediation

open Lexer

namespace Text

theorem join_append {as bs : List Text} (ha : as ≠ []) (hb : bs ≠ []) (sep : Text) :
    join sep (as ++ bs) = join sep as ++ sep ++ join sep bs := by
  obtain ⟨a, as, rfl⟩ := List.exists_cons_of_ne_nil ha
  obtain ⟨b, bs, rfl⟩ := List.exists_cons_of_ne_nil hb
  simp [join_cons]

theorem includes_iff {part t : Text} : includes part t = true ↔ part <:+: t := by
  induction t with
  | nil => simp [includes]
  | cons c t ih =>
    rw [includes, Bool.or_eq_true, ih, List.infix_cons_iff, List.isPrefixOf_iff_prefix]

theorem infix_of_not_mem {part a b : Text} {c : Char} (hc : c ∉ part)
    (h : part <:+: a ++ c :: b) : part <:+: a ∨ part <:+: b := by
  induction a with
  | nil =>
    rcases List.infix_cons_iff.1 h with h | h
    · exact .inl (prefix_of_not_mem (s := []) hc h).isInfix
    · exact .inr h
  | cons d a ih =>
    rcases List.infix_cons_iff.1 h with h | h
    · exact .inl (prefix_of_not_mem (s := d :: a) hc h).isInfix
    · exact (ih h).imp_left fun h => h.trans (List.suffix_cons d a).isInfix

/-- A text without blanks at its ends is what is left of it between blanks. -/
theorem trim_append {a t b : Text} (ha : ∀ c ∈ a, isBlank c = true)
    (hb : ∀ c ∈ b, isBlank c = true) (hne : t ≠ []) (hhead : ∀ c ∈ t.head?, isBlank c = false)
    (hlast : ∀ c ∈ t.getLast?, isBlank c = false) : trim (a ++ t ++ b) = t := by
  obtain ⟨c, t, rfl⟩ := List.exists_cons_of_ne_nil hne
  have hfront : (a ++ c :: t ++ b).dropWhile isBlank = c :: t ++ b := by
    rw [List.append_assoc, List.dropWhile_append_of_pos ha, List.cons_append,
      List.dropWhile_cons_of_neg (by simp [hhead c rfl])]
  have hback : (c :: t).reverse.dropWhile isBlank = (c :: t).reverse := by
    cases hr : (c :: t).reverse with
    | nil => rfl
    | cons d u =>
      have hd := hlast d (by rw [← List.head?_reverse, hr]; rfl)
      rw [List.dropWhile_cons_of_neg (by simp [hd])]
  rw [trim, dropWhileBoth, hfront, dropWhileEnd, List.reverse_append,
    List.dropWhile_append_of_pos (by simpa using hb), hback, List.reverse_reverse]

theorem trim_eq_self {t : Text} (hne : t ≠ []) (hhead : ∀ c ∈ t.head?, isBlank c = false)
    (hlast : ∀ c ∈ t.getLast?, isBlank c = false) : trim t = t := by
  simpa using trim_append (a := []) (b := []) (by simp) (by simp) hne hhead hlast

/-- The code points of the blanks. -/
def blankCodes : List Nat :=
  List.range' 0x09 5 ++ List.range' 0x1c 5 ++ [0x85, 0xa0, 0x1680] ++ List.range' 0x2000 11
    ++ [0x2028, 0x2029, 0x202f, 0x205f, 0x3000]

theorem isBlank_eq_false_of_isIdentPart {c : Char} (h : isIdentPart c = true) :
    isBlank c = false := by
  have hcodes : ∀ n ∈ blankCodes, isIdentPart (Char.ofNat n) = false := by decide +kernel
  by_contra hb
  have hmem : c.toNat ∈ blankCodes := by
    simp only [isBlank, Bool.not_eq_false, Bool.or_eq_true, Bool.and_eq_true, decide_eq_true_eq,
      beq_iff_eq] at hb
    simp only [blankCodes, List.mem_append, List.mem_range'_1, List.mem_cons, List.not_mem_nil,
      or_false]
    omega
  rw [← Char.ofNat_toNat c, hcodes _ hmem] at h
  cases h

end Text

theorem Identifier.isBlank_head (i : Identifier) : ∀ c ∈ i.text.head?, Text.isBlank c = false := by
  intro c hc
  rcases i.head_text hc with rfl | rfl | h
  · rfl
  · rfl
  · exact Text.isBlank_eq_false_of_isIdentPart h

namespace ResourcePath

/-! ## Cutting -/

/-- The number of brackets opened less the number closed, behind one more character. -/
def deeper (depth : Int) (c : Char) : Int :=
  if c = '[' then depth + 1 else if c = ']' then depth - 1 else depth

theorem cut_ne_nil (depth : Int) (t : Text) : cut depth t ≠ [] := by
  cases t with
  | nil => simp [cut]
  | cons c t =>
    rw [cut]
    generalize (if c = '[' then depth + 1 else if c = ']' then depth - 1 else depth) = d
    split
    · simp
    · split <;> simp

theorem cut_cons (depth : Int) (c : Char) (t : Text) :
    cut depth (c :: t) = if c = '/' ∧ deeper depth c = 0 then [] :: cut (deeper depth c) t
      else (cut (deeper depth c) t).modifyHead (c :: ·) := by
  obtain ⟨piece, pieces, hcut⟩ := List.exists_cons_of_ne_nil (cut_ne_nil (deeper depth c) t)
  unfold deeper at hcut ⊢
  simp only [cut, hcut, Bool.and_eq_true, decide_eq_true_eq, List.modifyHead_cons]

/-- The number of brackets opened less the number closed, behind a text that begins at `depth`. -/
def depthAfter (depth : Int) (t : Text) : Int :=
  depth + t.count '[' - t.count ']'

theorem depthAfter_cons (depth : Int) (c : Char) (t : Text) :
    depthAfter depth (c :: t) = depthAfter (deeper depth c) t := by
  unfold depthAfter deeper
  by_cases h1 : c = '['
  · subst h1
    simp
    omega
  · by_cases h2 : c = ']'
    · subst h2
      simp
      omega
    · simp [h1, h2]

/-- A slash cuts a path where the brackets in front of it match in number. -/
theorem cut_append {depth : Int} {p : Text} (h : depthAfter depth p = 0) (q : Text) :
    cut depth (p ++ '/' :: q) = cut depth p ++ cut 0 q := by
  induction p generalizing depth with
  | nil =>
    have hd : depth = 0 := by simpa [depthAfter] using h
    simp [cut, hd]
  | cons c p ih =>
    rw [depthAfter_cons] at h
    obtain ⟨piece, pieces, hcut⟩ := List.exists_cons_of_ne_nil (cut_ne_nil (deeper depth c) p)
    rw [List.cons_append, cut_cons, cut_cons, ih h, hcut]
    split <;> rfl

/-- A text without a slash where its brackets match in number is one piece. -/
theorem cut_eq_singleton {depth : Int} {t : Text}
    (h : ∀ a b, t = a ++ '/' :: b → depthAfter depth a ≠ 0) : cut depth t = [t] := by
  induction t generalizing depth with
  | nil => rfl
  | cons c t ih =>
    have htail : cut (deeper depth c) t = [t] := by
      refine ih fun a b hab => ?_
      rw [← depthAfter_cons]
      exact h (c :: a) b (by simp [hab])
    rw [cut_cons, if_neg, htail, List.modifyHead_cons]
    rintro ⟨rfl, hd⟩
    exact h [] t rfl (by simpa [depthAfter, deeper] using hd)

theorem segments_append {p : Text} (h : p.count '[' = p.count ']') (q : Text) :
    segments (p ++ '/' :: q) = segments p ++ segments q := by
  have hdepth : depthAfter 0 p = 0 := by simp [depthAfter, h]
  rw [segments, cut_append hdepth, List.map_append, List.filter_append]
  rfl

/-- Whether no slash of a text stands where the brackets in front of it match in number. -/
def Uncut (t : Text) : Prop :=
  ∀ n < t.length, t[n]? = some '/' → (t.take n).count '[' ≠ (t.take n).count ']'

instance (t : Text) : Decidable (Uncut t) :=
  Nat.decidableBallLT _ _

theorem uncut_iff {t : Text} :
    Uncut t ↔ ∀ a b, t = a ++ '/' :: b → a.count '[' ≠ a.count ']' := by
  constructor
  · rintro h a b rfl
    simpa using h a.length (by simp) (by simp)
  · intro h n hn hslash
    refine h _ (t.drop (n + 1)) ?_
    rw [List.getElem?_eq_getElem hn, Option.some.injEq] at hslash
    rw [← hslash, ← List.drop_eq_getElem_cons hn, List.take_append_drop]

/-- A path that is not cut has at most one segment. -/
theorem segments_of_uncut {t : Text} (h : Uncut t) :
    segments t = [t.trim].filter (!·.isEmpty) := by
  have hcut : cut 0 t = [t] := by
    refine cut_eq_singleton fun a b hab hdepth => uncut_iff.1 h a b hab ?_
    unfold depthAfter at hdepth
    omega
  rw [segments, hcut, List.map_singleton]

/-! ## Rendering -/

/-- What the segments of a path are requested by, in order. -/
def parts (path : Text) : List Text :=
  ((segments path).filter (· != ['.'])).map renderSegment

theorem render_eq (path : Text) : render path = '/' :: Text.join ['/'] (parts path) := rfl

theorem parts_append {p : Text} (h : p.count '[' = p.count ']') (q : Text) :
    parts (p ++ '/' :: q) = parts p ++ parts q := by
  rw [parts, segments_append h, List.filter_append, List.map_append]
  rfl

theorem parts_eq_nil_iff {p : Text} : parts p = [] ↔ ∀ s ∈ segments p, s = ['.'] := by
  simp [parts, List.filter_eq_nil_iff]

/-- Two paths with a slash between are requested one behind the other; a path of nothing but dots
adds nothing. -/
theorem render_append {p : Text} (h : p.count '[' = p.count ']') (q : Text) :
    ((∀ s ∈ segments p, s = ['.']) → render (p ++ '/' :: q) = render q)
      ∧ ((∀ s ∈ segments q, s = ['.']) → render (p ++ '/' :: q) = render p)
      ∧ ((∃ s ∈ segments p, s ≠ ['.']) → (∃ s ∈ segments q, s ≠ ['.']) →
        render (p ++ '/' :: q) = render p ++ render q) := by
  simp only [render_eq, parts_append h]
  refine ⟨fun hp => ?_, fun hq => ?_, fun hp hq => ?_⟩
  · rw [parts_eq_nil_iff.2 hp, List.nil_append]
  · rw [parts_eq_nil_iff.2 hq, List.append_nil]
  · have hp : parts p ≠ [] := by simpa [parts_eq_nil_iff] using hp
    have hq : parts q ≠ [] := by simpa [parts_eq_nil_iff] using hq
    simp [Text.join_append hp hq]

/-- Stray brackets that match in number, blanks around a slash and dots. -/
theorem render_append_stray :
    let p : Text := "]a/b[ / .".toList
    let q : Text := " 'c\\-d /[".toList
    p.count '[' = p.count ']' ∧ (∃ s ∈ segments p, s ≠ ['.']) ∧ (∃ s ∈ segments q, s ≠ ['.'])
      ∧ render (p ++ '/' :: q) = render p ++ render q := by
  intro p q
  have hp : p.count '[' = p.count ']' ∧ ∃ s ∈ segments p, s ≠ ['.'] := by decide
  have hq : ∃ s ∈ segments q, s ≠ ['.'] := by decide
  exact ⟨hp.1, hp.2, hq, (render_append hp.1 q).2.2 hp.2 hq⟩

/-! ## Segments -/

/-- A path parameter `[type name]` or, if it takes the rest of the path, `[type... name]`. -/
structure Parameter where
  type : Text
  rest : Bool
  name : Identifier
  bare : ∀ c ∈ type, c ≠ '[' ∧ c ≠ ']' ∧ c ≠ '/'

/-- What stands between the brackets of a parameter. -/
def Parameter.inside (p : Parameter) : Text :=
  p.type ++ (if p.rest then "...".toList else []) ++ ' ' :: p.name.text

/-- A segment of a path: the dot of the root, an identifier or a parameter. -/
inductive Segment where
  | root
  | literal (name : Identifier)
  | parameter (p : Parameter)

namespace Segment

/-- How a segment is written. -/
def text : Segment → Text
  | root => ['.']
  | literal i => i.text
  | parameter p => '[' :: p.inside ++ [']']

/-- What a segment is requested by: nothing for the root, the name of an identifier, and the value
of a parameter, with slashes between the values if it takes the rest of the path. -/
def request : Segment → Option Text
  | root => none
  | literal i => some i.name
  | parameter p =>
    if p.rest then some ("$\x7bstring:'join(\"/\", ...".toList ++ p.name.text ++ ")\x7d".toList)
    else some ("$\x7b".toList ++ p.name.text ++ "\x7d".toList)

/-- Whether a segment is taken for what it is. The brackets of an identifier match in number and no
slash in it stands where they do, it has no escaped newline and does not end in an escaped blank.
The name of a parameter has no escapes but of characters that a name can have, and a parameter that
does not take the rest of the path has no ellipsis in its type. -/
def Clear : Segment → Prop
  | root => True
  | literal i => i.text.count '[' = i.text.count ']' ∧ Uncut i.text ∧ '\n' ∉ i.text
    ∧ ∀ c ∈ i.text.getLast?, Text.isBlank c = false
  | parameter p => (∀ c ∈ p.name.text, isNameChar c = true)
    ∧ (p.rest = false → ¬ "...".toList <:+: p.type)

instance : (s : Segment) → Decidable s.Clear
  | root => .isTrue trivial
  | literal _ =>
    @instDecidableAnd _ _ _ <| @instDecidableAnd _ _ _ <| @instDecidableAnd _ _ _ <|
      Option.decidableForallMem _
  | parameter _ => @instDecidableAnd _ _ (List.decidableBAll _ _) _

end Segment

theorem renderSegment_literal {i : Identifier} (h : '\n' ∉ i.text) :
    i.text ≠ ['.'] ∧ renderSegment i.text = i.name := by
  obtain ⟨c, u, hc, -⟩ := i.reads
  replace hc : i.text = c :: u := hc
  have hhead := i.head_text (c := c) (by rw [hc]; rfl)
  have hbracket : c ≠ '[' := by
    rintro rfl
    exact absurd hhead (by decide)
  refine ⟨?_, ?_⟩
  · intro hdot
    rw [hdot] at hc
    obtain ⟨rfl, -⟩ := List.cons.inj hc
    exact absurd hhead (by decide)
  · have hnone : parameter? i.text = none := by
      rw [hc]
      unfold parameter?
      split
      · rename_i heq
        exact absurd (List.cons.inj heq).1 hbracket
      · rfl
    rw [renderSegment, hnone, Identifier.unescape_text h]

theorem isBlank_of_isNameChar {c : Char} (h : isNameChar c = true) : Text.isBlank c = false := by
  simp only [isNameChar, Bool.or_eq_true, beq_iff_eq, or_assoc] at h
  rcases h with h | rfl | rfl
  · exact Text.isBlank_eq_false_of_isIdentPart h
  · rfl
  · rfl

namespace Parameter

variable {p : Parameter}

/-- The name is the last run of name characters, since a space stands in front of it. -/
theorem parameterName_inside (h : ∀ c ∈ p.name.text, isNameChar c = true) :
    parameterName p.inside = p.name.text := by
  have hne : p.name.text.reverse ≠ [] := by simpa using p.name.reads.ne_nil
  obtain ⟨c, u, hc⟩ := List.exists_cons_of_ne_nil hne
  have hreverse : ∀ d ∈ p.name.text.reverse, isNameChar d = true := by simpa using h
  have hinside : ∃ front, p.inside.reverse = p.name.text.reverse ++ ' ' :: front :=
    ⟨_, by simp [inside]; rfl⟩
  obtain ⟨front, hinside⟩ := hinside
  have hend : Text.dropWhileEnd Text.isBlank p.inside = p.inside := by
    have hblank := isBlank_of_isNameChar (hreverse c (by simp [hc]))
    rw [Text.dropWhileEnd, hinside, hc, List.cons_append,
      List.dropWhile_cons_of_neg (by simp [hblank]), ← List.cons_append, ← hc, ← hinside,
      List.reverse_reverse]
  have hrun : p.inside.reverse.takeWhile isNameChar = p.name.text.reverse := by
    rw [hinside, List.takeWhile_append_of_pos hreverse,
      List.takeWhile_cons_of_neg (by decide), List.append_nil]
  have hfull : p.name.text ≠ [] := p.name.reads.ne_nil
  simp [parameterName, hend, hrun, hfull]

theorem includes_inside (h : ∀ c ∈ p.name.text, isNameChar c = true)
    (hrest : p.rest = false → ¬ "...".toList <:+: p.type) :
    Text.includes "...".toList p.inside = p.rest := by
  cases hr : p.rest with
  | true =>
    rw [Text.includes_iff, inside, hr]
    exact ⟨p.type, ' ' :: p.name.text, by simp⟩
  | false =>
    rw [Bool.eq_false_iff, Ne, Text.includes_iff, inside, hr]
    intro hin
    rcases Text.infix_of_not_mem (by decide) hin with hin | hin
    · exact hrest hr (by simpa using hin)
    · exact absurd (h '.' (hin.subset (by decide))) (by decide)

theorem bracket_not_mem_inside (h : ∀ c ∈ p.name.text, isNameChar c = true) {c : Char}
    (hc : c = '[' ∨ c = ']') : c ∉ p.inside := by
  intro hm
  simp only [inside, List.mem_append, List.mem_cons] at hm
  rcases hm with (hm | hm) | rfl | hm
  · rcases hc with rfl | rfl
    · exact (p.bare _ hm).1 rfl
    · exact (p.bare _ hm).2.1 rfl
  · split at hm
    · rcases hc with rfl | rfl <;> exact absurd hm (by decide)
    · cases hm
  · exact absurd hc (by decide)
  · rcases hc with rfl | rfl <;> exact absurd (h _ hm) (by decide)

end Parameter

/-- In a text between brackets no slash stands where the brackets match. -/
theorem uncut_bracketed {t : Text} (h : ']' ∉ t) : Uncut ('[' :: t ++ [']']) := by
  refine uncut_iff.2 fun a b hab => ?_
  cases a with
  | nil => exact absurd (List.cons.inj hab).1 (by decide)
  | cons c a =>
    obtain ⟨rfl, hrest⟩ := List.cons.inj hab
    replace hrest : t ++ [']'] = a ++ '/' :: b := hrest
    have hclose : ']' ∉ a := by
      rcases List.append_eq_append_iff.1 hrest with ⟨x, rfl, hx⟩ | ⟨x, rfl, -⟩
      · cases x with
        | nil => exact absurd (List.cons.inj hx).1 (by decide)
        | cons d x => simp at hx
      · exact fun hm => h (List.mem_append_left x hm)
    simp [List.count_eq_zero_of_not_mem hclose]

namespace Segment

theorem Clear.parts_text {s : Segment} (h : s.Clear) :
    s.text.count '[' = s.text.count ']' ∧ parts s.text = s.request.toList := by
  cases s with
  | root => decide
  | literal i =>
    obtain ⟨hcount, hslash, hline, hlast⟩ := h
    have htrim := Text.trim_eq_self i.reads.ne_nil i.isBlank_head hlast
    have hne : i.text ≠ [] := i.reads.ne_nil
    obtain ⟨hdot, hrender⟩ := renderSegment_literal hline
    refine ⟨hcount, ?_⟩
    rw [parts, text, segments_of_uncut hslash, htrim]
    simp [hne, hdot, hrender, request]
  | parameter p =>
    obtain ⟨hname, hrest⟩ := h
    have hopen := p.bracket_not_mem_inside hname (.inl rfl)
    have hclose := p.bracket_not_mem_inside hname (.inr rfl)
    have htrim : Text.trim ('[' :: p.inside ++ [']']) = '[' :: p.inside ++ [']'] := by
      refine Text.trim_eq_self (by simp) ?_ ?_
      · rintro c ⟨⟩
        rfl
      · rw [List.getLast?_concat]
        rintro c ⟨⟩
        rfl
    have hparameter : parameter? ('[' :: p.inside ++ [']']) = some p.inside := by simp [parameter?]
    have hrender : some (renderSegment ('[' :: p.inside ++ [']'])) = request (parameter p) := by
      rw [renderSegment, hparameter]
      simp only [p.parameterName_inside hname, p.includes_inside hname hrest, request]
      cases p.rest <;> rfl
    refine ⟨?_, ?_⟩
    · simp [text, List.count_eq_zero_of_not_mem hopen, List.count_eq_zero_of_not_mem hclose]
    · rw [← hrender, parts, text, segments_of_uncut (uncut_bracketed hclose), htrim]
      simp

end Segment

/-- A path is requested segment by segment, if every segment is taken for what it is. -/
theorem render_segments {ss : List Segment} (h : ∀ s ∈ ss, s.Clear) :
    render (Text.join ['/'] (ss.map Segment.text))
      = '/' :: Text.join ['/'] (ss.filterMap Segment.request) := by
  rw [render_eq]
  congr 2
  induction ss with
  | nil => decide
  | cons s ss ih =>
    obtain ⟨hcount, hparts⟩ := (h s List.mem_cons_self).parts_text
    have ih := ih fun t ht => h t (List.mem_cons_of_mem s ht)
    have hrequest : (s :: ss).filterMap Segment.request
        = s.request.toList ++ ss.filterMap Segment.request := by
      cases hr : s.request <;> simp [hr]
    rw [hrequest, ← ih, ← hparts]
    cases ss with
    | nil =>
      have hnone : parts [] = [] := by decide
      simp [Text.join, hnone]
    | cons t ss =>
      have hjoin : Text.join ['/'] ((s :: t :: ss).map Segment.text)
          = s.text ++ '/' :: Text.join ['/'] ((t :: ss).map Segment.text) := by
        simp [Text.join_cons]
      rw [hjoin, parts_append hcount]

/-- Escaped brackets with an escaped slash between them, an escaped blank, and a quoted name. -/
theorem render_segments_escaped :
    ∃ ss : List Segment, (∀ s ∈ ss, s.Clear)
      ∧ ss.map Segment.text = [".".toList, "'a\\[b\\/\\]\\ c".toList, "[map<int> 'x\\_y]".toList,
        "[string... rest]".toList]
      ∧ render (Text.join ['/'] (ss.map Segment.text))
        = "/a[b/] c/$\x7b'x\\_y\x7d/$\x7bstring:'join(\"/\", ...rest)\x7d".toList := by
  let a : Identifier := ⟨"'a\\[b\\/\\]\\ c".toList, by decide +kernel⟩
  let x : Identifier := ⟨"'x\\_y".toList, by decide +kernel⟩
  let r : Identifier := ⟨"rest".toList, by decide +kernel⟩
  let ss : List Segment := [.root, .literal a, .parameter ⟨"map<int>".toList, false, x, by simp⟩,
    .parameter ⟨"string".toList, true, r, by simp⟩]
  have hclear : ∀ s ∈ ss, s.Clear := by decide +kernel
  refine ⟨ss, hclear, by decide +kernel, ?_⟩
  rw [render_segments hclear]
  decide +kernel

/-- The name of a parameter is cut short at an escape, though it is one identifier. -/
theorem render_escaped_parameter :
    ∃ s : Segment, s.text = "[string user\\-id]".toList
      ∧ s.request = some "$\x7buser\\-id\x7d".toList
      ∧ render (Text.join ['/'] ([s].map Segment.text)) = "/$\x7bid\x7d".toList
      ∧ render (Text.join ['/'] ([s].map Segment.text))
        ≠ '/' :: Text.join ['/'] ([s].filterMap Segment.request) := by
  let i : Identifier := ⟨"user\\-id".toList, by decide +kernel⟩
  exact ⟨.parameter ⟨"string".toList, false, i, by simp⟩, by decide +kernel⟩

end ResourcePath

end BalMediation
