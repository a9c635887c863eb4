import BalMediation.FileSystem
import Mathlib.Data.List.Basic

/-!
# Paths and their texts

A path that was read has names without slashes, none of them empty or a single dot (`IsNormal`).
Such a path is the one that its own text names (`ofText_toText`), and a name below it takes one
more slash to write (`toText_below`).
-/

namespace BalMediation

namespace Text

theorem join_cons (sep t : Text) (ts : List Text) :
    join sep (t :: ts) = t ++ ts.flatMap (sep ++ ·) := by
  induction ts generalizing t with
  | nil => simp [join, List.intercalate]
  | cons u ts ih =>
    have hstep : join sep (t :: u :: ts) = t ++ (sep ++ join sep (u :: ts)) := by
      simp [join, List.intercalate, List.intersperse]
    rw [hstep, ih, List.flatMap_cons, List.append_assoc]

theorem ofInt_natCast (n : Nat) : ofInt n = Nat.toDigits 10 n :=
  Nat.toList_repr

theorem ofInt_negSucc (n : Nat) : ofInt (.negSucc n) = '-' :: Nat.toDigits 10 (n + 1) := by
  change ("-" ++ Nat.repr (n + 1)).toList = _
  rw [String.toList_append, Nat.toList_repr]
  rfl

theorem eq_or_isDigit_of_mem_ofInt {n : Int} {c : Char} (h : c ∈ ofInt n) :
    c = '-' ∨ c.isDigit = true := by
  cases n with
  | ofNat n =>
    rw [Int.ofNat_eq_natCast, ofInt_natCast] at h
    exact .inr (Nat.isDigit_of_mem_toDigits (by decide) (by decide) h)
  | negSucc n =>
    rw [ofInt_negSucc, List.mem_cons] at h
    exact h.imp_right (Nat.isDigit_of_mem_toDigits (by decide) (by decide))

theorem splitWhere_append {p : Char → Bool} {c : Char} (hc : p c = true) (a b : Text) :
    splitWhere p (a ++ c :: b) = splitWhere p a ++ splitWhere p b := by
  induction a with
  | nil => simp [splitWhere, hc]
  | cons d a ih =>
    rw [List.cons_append, splitWhere, splitWhere, ih]
    split
    · rfl
    · cases hs : splitWhere p a with
      | nil => exact absurd hs (splitWhere_ne_nil p a)
      | cons piece pieces => rfl

theorem splitWhere_of_forall {p : Char → Bool} {t : Text} (h : ∀ c ∈ t, p c = false) :
    splitWhere p t = [t] := by
  induction t with
  | nil => rfl
  | cons c t ih =>
    rw [splitWhere, ih fun d hd => h d (List.mem_cons_of_mem c hd)]
    simp [h c List.mem_cons_self]

theorem splitOn_append (sep : Char) (a b : Text) :
    splitOn sep (a ++ sep :: b) = splitOn sep a ++ splitOn sep b :=
  splitWhere_append (by simp) a b

theorem splitOn_of_not_mem {sep : Char} {t : Text} (h : sep ∉ t) : splitOn sep t = [t] := by
  refine splitWhere_of_forall fun c hc => ?_
  have hne : c ≠ sep := fun e => h (e ▸ hc)
  simpa using hne

theorem splitOn_join {sep : Char} {t : Text} {ts : List Text} (h : ∀ u ∈ t :: ts, sep ∉ u) :
    splitOn sep (join [sep] (t :: ts)) = t :: ts := by
  rw [join_cons]
  induction ts generalizing t with
  | nil => simpa using splitOn_of_not_mem (h t List.mem_cons_self)
  | cons u ts ih =>
    rw [List.flatMap_cons, List.singleton_append, List.cons_append, splitOn_append,
      splitOn_of_not_mem (h t List.mem_cons_self), ih fun v hv => h v (List.mem_cons_of_mem t hv)]
    rfl

theorem not_mem_of_mem_splitOn {sep : Char} {t u : Text} (h : u ∈ splitOn sep t) : sep ∉ u := by
  induction t generalizing u with
  | nil =>
    have hu : u = [] := by simpa [splitOn, splitWhere] using h
    simp [hu]
  | cons c t ih =>
    unfold splitOn at h ih
    rw [splitWhere] at h
    split at h
    · rcases List.mem_cons.1 h with rfl | h
      · simp
      · exact ih h
    · rename_i hc
      cases hs : splitWhere (· == sep) t with
      | nil => exact absurd hs (splitWhere_ne_nil _ t)
      | cons p ps =>
        rw [hs] at h ih
        rcases List.mem_cons.1 h with rfl | h
        · have hp := ih List.mem_cons_self
          simp only [beq_iff_eq] at hc
          simp [hp, Ne.symm hc]
        · exact ih (List.mem_cons_of_mem p h)

end Text

namespace Path

/-- The names that reading a path leaves. -/
def IsName (name : Text) : Prop :=
  name ≠ [] ∧ name ≠ ['.'] ∧ '/' ∉ name

instance (name : Text) : Decidable (IsName name) :=
  inferInstanceAs (Decidable (_ ∧ _ ∧ _))

/-- A path as reading gives it. -/
def IsNormal (p : Path) : Prop :=
  ∀ name ∈ p.parts, IsName name

/-- The path of a name directly below `p`. -/
def below (p : Path) (name : Text) : Path :=
  ⟨p.anchor, p.parts ++ [name]⟩

theorem isNormal_ofText (t : Text) : (ofText t).IsNormal := by
  intro name hname
  simp only [ofText, List.mem_filter, Bool.and_eq_true, Bool.not_eq_true', bne_iff_ne] at hname
  exact ⟨by simpa using hname.2.1, hname.2.2, Text.not_mem_of_mem_splitOn hname.1⟩

theorem takeWhile_join {name : Text} (h : IsName name) (names : List Text) :
    (Text.join ['/'] (name :: names)).takeWhile (· == '/') = [] := by
  obtain ⟨hne, -, hslash⟩ := h
  cases name with
  | nil => exact absurd rfl hne
  | cons c cs =>
    have hc : c ≠ '/' := fun h => hslash (h ▸ List.mem_cons_self)
    simp [Text.join_cons, hc]

theorem names_join {name : Text} {names : List Text} (h : ∀ u ∈ name :: names, IsName u) :
    ((Text.join ['/'] (name :: names)).splitOn '/').filter
      (fun part => !part.isEmpty && part != ['.']) = name :: names := by
  rw [Text.splitOn_join fun u hu => (h u hu).2.2, List.filter_eq_self]
  intro u hu
  obtain ⟨hne, hdot, -⟩ := h u hu
  simpa using ⟨hne, hdot⟩

theorem splitOn_slash (t : Text) : Text.splitOn '/' ('/' :: t) = [] :: Text.splitOn '/' t :=
  Text.splitOn_append '/' [] t

theorem ofText_toText {p : Path} (h : p.IsNormal) (hp : p.parts ≠ []) : ofText p.toText = p := by
  obtain ⟨anchor, parts⟩ := p
  obtain ⟨name, names, rfl⟩ := List.exists_cons_of_ne_nil hp
  have htake := takeWhile_join (h name List.mem_cons_self) names
  have hnames := names_join h
  cases anchor <;> simp [ofText, toText, htake, splitOn_slash, hnames]

theorem ofText_name {name : Text} (h : IsName name) : ofText name = ⟨.here, [name]⟩ := by
  have hall : ∀ u ∈ [name], IsName u := by simpa using h
  have := ofText_toText (p := ⟨.here, [name]⟩) hall (List.cons_ne_nil name [])
  simpa [toText, Text.join_cons] using this

theorem child_name (p : Path) {name : Text} (h : IsName name) : p.child name = p.below name := by
  rw [child, ofText_name h]
  rfl

theorem IsNormal.below {p : Path} (h : p.IsNormal) {name : Text} (hname : IsName name) :
    (p.below name).IsNormal := by
  intro u hu
  rcases List.mem_append.1 hu with hu | hu
  · exact h u hu
  · rwa [List.mem_singleton.1 hu]

theorem toText_below {p : Path} (hp : p.parts ≠ []) (name : Text) :
    (p.below name).toText = p.toText ++ '/' :: name := by
  obtain ⟨anchor, parts⟩ := p
  obtain ⟨first, names, rfl⟩ := List.exists_cons_of_ne_nil hp
  have hjoin : Text.join ['/'] (first :: names ++ [name])
      = Text.join ['/'] (first :: names) ++ '/' :: name := by
    rw [List.cons_append, Text.join_cons, Text.join_cons]
    simp
  cases anchor <;> simp [below, toText, ← hjoin]

end Path

namespace FileSystem

theorem utf8Size_append (a b : Text) : utf8Size (a ++ b) = utf8Size a + utf8Size b := by
  have hfold : ∀ (t : Text) (n : Nat), t.foldl (fun n c => n + c.utf8Size) n = n + utf8Size t := by
    intro t
    induction t with
    | nil => simp [utf8Size]
    | cons c t ih =>
      intro n
      rw [utf8Size, List.foldl_cons, List.foldl_cons, ih, ih]
      omega
  rw [utf8Size, List.foldl_append, hfold]
  rfl

end FileSystem

end BalMediation
