import BalMediation.Patch
import Mathlib.Data.List.Basic

/-!
# Weaving

Edits that stand in order in a part of a text weave a new text into its place (`Woven`). Weaving
composes along the text, and a batch that weaves the whole of a text can be applied to it
(`Woven.apply`).
-/

namespace BalMediation

namespace Edit

/-- Whether each of two edits begins before the other ends. -/
def Conflict (a b : Edit) : Prop :=
  a.start < b.stop ∧ b.start < a.stop

/-- The edits `es` stand in order in the text `old` at offset `o` and put `new` in its place. -/
structure Woven (o : Nat) (old : Text) (es : List Edit) (new : Text) : Prop where
  within : ∀ e ∈ es, (o : Int) ≤ e.start ∧ 0 ≤ e.length ∧ e.stop ≤ (o + old.length : Nat)
  ordered : es.Pairwise fun a b => a.stop ≤ b.start
  splice : ∀ (before after : Text) (more : List Edit), before.length = o →
    (∀ e ∈ more, ((o + old.length : Nat) : Int) ≤ e.start) →
    splice (before ++ old ++ after) o (es ++ more)
      = new ++ splice (before ++ old ++ after) (o + old.length) more

namespace Woven

theorem slice_append (a b c : Text) : (a ++ b ++ c).slice a.length (a.length + b.length) = b := by
  simp [Text.slice]

theorem slice_add (t : Text) {i j k : Nat} (hij : i ≤ j) (hjk : j ≤ k) :
    t.slice i k = t.slice i j ++ t.slice j k := by
  unfold Text.slice
  rw [show k - i = (j - i) + (k - j) by omega, List.take_add, List.drop_drop,
    show i + (j - i) = j by omega]

theorem keep (o : Nat) (t : Text) : Woven o t [] t := by
  refine ⟨by simp, .nil, ?_⟩
  rintro before after more rfl hmore
  cases more with
  | nil =>
    simp only [List.nil_append, Edit.splice]
    rw [List.append_assoc, List.drop_left, ← List.append_assoc, ← List.length_append,
      List.drop_left]
  | cons e more =>
    have he := hmore e List.mem_cons_self
    have hle : before.length + t.length ≤ e.start.toNat := by omega
    simp only [List.nil_append, Edit.splice]
    rw [slice_add _ (Nat.le_add_right _ _) hle, slice_append]
    simp [List.append_assoc]

theorem replaced {o : Nat} {old t : Text} {e : Edit} (hstart : e.start = o)
    (hstop : e.stop = (o + old.length : Nat)) (ht : e.text = t) : Woven o old [e] t := by
  have hlen : e.length = old.length := by
    unfold Edit.stop at hstop
    omega
  refine ⟨?_, List.pairwise_singleton _ _, ?_⟩
  · intro e' he'
    rw [List.mem_singleton] at he'
    subst he'
    exact ⟨by omega, by omega, by omega⟩
  · rintro before after more rfl hmore
    have hself : (before ++ old ++ after).slice before.length before.length = [] := by
      simp [Text.slice]
    simp only [List.singleton_append, Edit.splice]
    rw [hstart, hstop, Int.toNat_natCast, Int.toNat_natCast, hself, List.nil_append, ht]

theorem inserted (o : Nat) (t : Text) : Woven o [] [Edit.insert o t] t :=
  replaced rfl (by simp [Edit.insert, Edit.stop]) rfl

theorem append {o : Nat} {old old' new new' : Text} {es es' : List Edit}
    (h : Woven o old es new) (h' : Woven (o + old.length) old' es' new') :
    Woven o (old ++ old') (es ++ es') (new ++ new') := by
  refine ⟨?_, ?_, ?_⟩
  · intro e he
    rw [List.length_append]
    rcases List.mem_append.1 he with he | he
    · obtain ⟨h1, h2, h3⟩ := h.within e he
      exact ⟨h1, h2, by omega⟩
    · obtain ⟨h1, h2, h3⟩ := h'.within e he
      exact ⟨by omega, h2, by omega⟩
  · refine List.pairwise_append.2 ⟨h.ordered, h'.ordered, fun a ha b hb => ?_⟩
    exact Int.le_trans (h.within a ha).2.2 (h'.within b hb).1
  · intro before after more hlen hmore
    have hnext := h'.splice (before ++ old) after more (by simp [hlen]) fun e he => by
      have := hmore e he
      rw [List.length_append] at this
      omega
    have hfirst := h.splice before (old' ++ after) (es' ++ more) hlen fun e he => by
      rcases List.mem_append.1 he with he | he
      · exact (h'.within e he).1
      · have := hmore e he
        rw [List.length_append] at this
        omega
    simp only [List.append_assoc, List.length_append] at hnext hfirst ⊢
    rw [hfirst, hnext, Nat.add_assoc]

theorem le_of_ordered {a b : Edit} (ha : 0 ≤ a.length) (hb : 0 ≤ b.length)
    (h : a.stop ≤ b.start) : Edit.le a b = true := by
  unfold Edit.stop at h
  rcases Int.lt_or_eq_of_le (show a.start ≤ b.start by omega) with hlt | heq
  · simp [Edit.le, hlt]
  · have hstop : a.stop ≤ b.stop := by
      unfold Edit.stop
      omega
    simp [Edit.le, heq, hstop]

theorem not_conflict_of_ordered {a b : Edit} (h : a.stop ≤ b.start) : ¬ Conflict a b := by
  rintro ⟨-, hba⟩
  omega

theorem overlap?_eq_none : ∀ {es : List Edit}, es.Pairwise (fun a b => a.stop ≤ b.start) →
    Edit.overlap? es = none
  | [], _ => rfl
  | [a], _ => rfl
  | a :: b :: es, h => by
    have hab := List.rel_of_pairwise_cons h List.mem_cons_self
    rw [Edit.overlap?, if_neg (by omega), overlap?_eq_none h.of_cons]

variable {source new : Text} {es : List Edit}

theorem inRange (h : Woven 0 source es new) : ∀ e ∈ es, e.inRange source.length = true := by
  intro e he
  obtain ⟨h1, h2, h3⟩ := h.within e he
  simp only [Edit.inRange, Bool.and_eq_true, decide_eq_true_eq]
  omega

theorem sorted (h : Woven 0 source es new) : es.Pairwise fun a b => Edit.le a b = true := by
  refine h.ordered.imp_of_mem fun ha hb hab => ?_
  exact le_of_ordered (h.within _ ha).2.1 (h.within _ hb).2.1 hab

/-- A batch that weaves the whole of a text can be applied. -/
theorem apply (h : Woven 0 source es new) : Edit.apply source es = .ok new := by
  have hrange : es.find? (fun e => !e.inRange source.length) = none := by
    rw [List.find?_eq_none]
    intro e he
    simp [h.inRange e he]
  have hsort : Edit.sort es = es := List.mergeSort_of_pairwise h.sorted
  have hsplice := h.splice [] [] [] rfl (by simp)
  simp only [List.nil_append, List.append_nil, Nat.zero_add] at hsplice
  simp only [Edit.apply, hrange, hsort, overlap?_eq_none h.ordered, hsplice, Edit.splice,
    List.drop_length, List.append_nil]

end Woven

end Edit

end BalMediation
