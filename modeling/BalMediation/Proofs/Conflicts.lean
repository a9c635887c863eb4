import BalMediation.Proofs.Weaving
import Mathlib.Data.List.NodupEquivFin
import Mathlib.Data.List.Permutation

/-!
# Conflicts

Which batches can be applied. The batch is sorted and only neighbours are compared, but that finds
every conflict: in a sorted batch without overlapping neighbours each edit ends before all later
ones begin (`ordered_of_overlap?`), and neighbours that overlap do conflict
(`conflict_of_overlap?`). An insertion at the border of a replaced part is sorted to its outside,
so it is never refused.
-/

namespace BalMediation.Edit

theorem inRange_iff {e : Edit} {n : Nat} :
    e.inRange n = true ↔ 0 ≤ e.start ∧ 0 ≤ e.length ∧ e.stop ≤ n := by
  simp [inRange, and_assoc]

theorem le_iff {a b : Edit} :
    le a b = true ↔ a.start < b.start ∨ a.start = b.start ∧ a.stop ≤ b.stop := by
  simp [le]

theorem sort_perm (edits : List Edit) : (sort edits).Perm edits :=
  List.mergeSort_perm edits le

theorem le_trans (a b c : Edit) (hab : le a b = true) (hbc : le b c = true) : le a c = true := by
  rw [le_iff] at hab hbc ⊢
  omega

theorem le_total (a b : Edit) : (le a b || le b a) = true := by
  rw [Bool.or_eq_true, le_iff, le_iff]
  omega

theorem sort_sorted (edits : List Edit) : (sort edits).Pairwise fun a b => le a b = true :=
  List.pairwise_mergeSort le_trans le_total edits

theorem Conflict.symm {a b : Edit} (h : Conflict a b) : Conflict b a :=
  ⟨h.2, h.1⟩

/-- The edits `a` and `b` stand at two places of a batch. -/
def AtTwoPlaces (edits : List Edit) (a b : Edit) : Prop :=
  ∃ i j : Nat, i ≠ j ∧ edits[i]? = some a ∧ edits[j]? = some b

theorem atTwoPlaces_of_sublist {edits : List Edit} {a b : Edit} (h : [a, b].Sublist edits) :
    AtTwoPlaces edits a b := by
  obtain ⟨f, hf⟩ := List.sublist_iff_exists_orderEmbedding_getElem?_eq.1 h
  exact ⟨f 0, f 1, fun h => absurd (f.injective h) (by decide), (hf 0).symm, (hf 1).symm⟩

theorem AtTwoPlaces.symm {edits : List Edit} {a b : Edit} (h : AtTwoPlaces edits a b) :
    AtTwoPlaces edits b a := by
  obtain ⟨i, j, hij, ha, hb⟩ := h
  exact ⟨j, i, hij.symm, hb, ha⟩

/-- Two edits of a sorted batch stand at two places of the batch itself. -/
theorem atTwoPlaces_of_perm {edits sorted : List Edit} {a b : Edit} (hp : sorted.Perm edits)
    (h : [a, b].Sublist sorted) : AtTwoPlaces edits a b := by
  obtain ⟨pair, hpair, hsub⟩ := h.subperm.trans hp.subperm
  rcases List.perm_pair.1 hpair with rfl | rfl
  · exact atTwoPlaces_of_sublist hsub
  · exact (atTwoPlaces_of_sublist hsub).symm

theorem not_conflict_of_pairwise {edits : List Edit}
    (h : edits.Pairwise fun a b => ¬ Conflict a b) {a b : Edit} (hab : AtTwoPlaces edits a b) :
    ¬ Conflict a b := by
  obtain ⟨i, j, hij, ha, hb⟩ := hab
  obtain ⟨hi, rfl⟩ := List.getElem?_eq_some_iff.1 ha
  obtain ⟨hj, rfl⟩ := List.getElem?_eq_some_iff.1 hb
  rcases Nat.lt_or_gt_of_ne hij with hlt | hlt
  · exact List.pairwise_iff_getElem.1 h i j hi hj hlt
  · exact fun hc => List.pairwise_iff_getElem.1 h j i hj hi hlt hc.symm

theorem exists_of_overlap? : ∀ {es : List Edit} {a b : Edit}, overlap? es = some (a, b) →
    b.start < a.stop ∧ [a, b].Sublist es
  | [], _, _, h => by simp [overlap?] at h
  | [_], _, _, h => by simp [overlap?] at h
  | x :: y :: es, a, b, h => by
    rw [overlap?] at h
    split_ifs at h with hxy
    · cases h
      exact ⟨hxy, by simp⟩
    · obtain ⟨hab, hsub⟩ := exists_of_overlap? h
      exact ⟨hab, hsub.cons x⟩

/-- In a sorted batch without overlapping neighbours each edit ends before the later ones begin. -/
theorem ordered_of_overlap? : ∀ {es : List Edit}, es.Pairwise (fun a b => le a b = true) →
    (∀ e ∈ es, 0 ≤ e.length) → overlap? es = none → es.Pairwise fun a b => a.stop ≤ b.start
  | [], _, _, _ => .nil
  | [a], _, _, _ => List.pairwise_singleton _ a
  | a :: b :: es, hs, hl, h => by
    rw [overlap?] at h
    split_ifs at h with hab
    have hrest := ordered_of_overlap? hs.of_cons (fun e he => hl e (List.mem_cons_of_mem a he)) h
    refine List.pairwise_cons.2 ⟨fun c hc => ?_, hrest⟩
    rcases List.mem_cons.1 hc with rfl | hc
    · omega
    · have hbc := le_iff.1 (List.rel_of_pairwise_cons hs.of_cons hc)
      omega

/-- Of two sorted edits, the second begins inside the first only if they conflict: one that inserts
at the start of the other comes first. -/
theorem conflict_of_le {a b : Edit} (hle : le a b = true) (hb : 0 ≤ b.length)
    (h : b.start < a.stop) : Conflict a b := by
  refine ⟨?_, h⟩
  rw [le_iff] at hle
  unfold stop at hle h ⊢
  omega

theorem conflict_of_overlap? {edits : List Edit} (hl : ∀ e ∈ edits, 0 ≤ e.length) {a b : Edit}
    (h : overlap? (sort edits) = some (a, b)) : AtTwoPlaces edits a b ∧ Conflict a b := by
  obtain ⟨hab, hsub⟩ := exists_of_overlap? h
  have hb : b ∈ edits := (sort_perm edits).mem_iff.1 (hsub.subset (by simp))
  have hle := List.rel_of_pairwise_cons ((sort_sorted edits).sublist hsub)
    (List.mem_singleton.2 rfl)
  exact ⟨atTwoPlaces_of_perm (sort_perm edits) hsub, conflict_of_le hle (hl b hb) hab⟩

/-- The neighbours of a sorted batch show whether edits conflict at all. -/
theorem overlap?_sort_eq_none_iff {edits : List Edit} (hl : ∀ e ∈ edits, 0 ≤ e.length) :
    overlap? (sort edits) = none ↔ edits.Pairwise fun a b => ¬ Conflict a b := by
  constructor
  · intro h
    have hl' : ∀ e ∈ sort edits, 0 ≤ e.length := fun e he => hl e ((sort_perm edits).mem_iff.1 he)
    have hordered := ordered_of_overlap? (sort_sorted edits) hl' h
    have hfree := hordered.imp Woven.not_conflict_of_ordered
    exact ((sort_perm edits).pairwise_iff fun hxy hyx => hxy hyx.symm).1 hfree
  · intro h
    by_contra hne
    obtain ⟨⟨a, b⟩, hab⟩ := Option.ne_none_iff_exists'.1 hne
    obtain ⟨hplaces, hc⟩ := conflict_of_overlap? hl hab
    exact not_conflict_of_pairwise h hplaces hc

theorem not_conflict_of_overlap? {edits : List Edit} (hl : ∀ e ∈ edits, 0 ≤ e.length)
    (h : overlap? (sort edits) = none) {a b : Edit} (hab : AtTwoPlaces edits a b) :
    ¬ Conflict a b :=
  not_conflict_of_pairwise ((overlap?_sort_eq_none_iff hl).1 h) hab

section Apply

variable {source : Text} {edits : List Edit}

theorem apply_of_inRange (h : ∀ e ∈ edits, e.inRange source.length = true) :
    apply source edits = match overlap? (sort edits) with
      | some (a, b) => .error (.overlapping a b)
      | none => .ok (splice source 0 (sort edits)) := by
  have hnone : edits.find? (fun e => !e.inRange source.length) = none := by
    rw [List.find?_eq_none]
    intro e he
    simp [h e he]
  cases hfirst : overlap? (sort edits) <;> simp only [apply, hnone, hfirst]

theorem apply_outOfRange {front back : List Edit} {e : Edit}
    (hfront : ∀ a ∈ front, a.inRange source.length = true) (he : ¬ e.inRange source.length = true) :
    apply source (front ++ e :: back) = .error (.outOfRange e source.length) := by
  have hfind : (front ++ e :: back).find? (fun e => !e.inRange source.length) = some e := by
    rw [List.find?_append, List.find?_eq_none.2 fun a ha => by simp [hfront a ha]]
    simp [he]
  simp only [apply, hfind]

theorem inRange_of_apply {t : Text} (h : apply source edits = .ok t) :
    ∀ e ∈ edits, e.inRange source.length = true := by
  intro e he
  have hnone : edits.find? (fun e => !e.inRange source.length) = none := by
    unfold apply at h
    split at h
    · cases h
    · assumption
  simpa using List.find?_eq_none.1 hnone e he

theorem length_nonneg (h : ∀ e ∈ edits, e.inRange source.length = true) :
    ∀ e ∈ edits, 0 ≤ e.length :=
  fun e he => (inRange_iff.1 (h e he)).2.1

end Apply

end BalMediation.Edit
