import BalMediation.Proofs.Conflicts
import Mathlib

/-!
# Sequencing

A batch as a sequence of single edits. The order of application is the only one by start and end
that keeps the batch order of edits with the same start and end (`StableOrder.unique`), so a batch
that is accepted gives the same text in every order that keeps the insertions at one offset as they
are: two edits that replace the same part would conflict (`stableOrder_of_perm`).

In that order the edits follow one another (`Follow`), so putting them in at once is putting them
in one by one from the last to the first (`foldr_substitute`), and what stands behind an edit moves
by the amount that the edit adds (`exists_getElem?_splice`).
-/

namespace BalMediation.Edit

/-! ## Orders -/

/-- Whether two edits have the same start and the same end. -/
def sameExtent (a b : Edit) : Bool :=
  a.start = b.start && a.stop = b.stop

/-- Whether `ordered` is the batch by start and end, with edits of the same start and end in the
order of the batch. -/
structure StableOrder (edits ordered : List Edit) : Prop where
  sorted : ordered.Pairwise fun a b => le a b = true
  keeps : ∀ e, ordered.filter (sameExtent e) = edits.filter (sameExtent e)

theorem sameExtent_iff {a b : Edit} :
    sameExtent a b = true ↔ a.start = b.start ∧ a.stop = b.stop := by
  simp [sameExtent]

theorem sameExtent_self (e : Edit) : sameExtent e e = true :=
  sameExtent_iff.2 ⟨rfl, rfl⟩

theorem sameExtent_of_le {a b : Edit} (hab : le a b = true) (hba : le b a = true) :
    sameExtent a b = true := by
  rw [le_iff] at hab hba
  rw [sameExtent_iff]
  omega

theorem mem_of_filter_eq {as bs : List Edit} {e : Edit}
    (h : as.filter (sameExtent e) = bs.filter (sameExtent e)) (he : e ∈ as) : e ∈ bs := by
  have hmem : e ∈ as.filter (sameExtent e) := List.mem_filter.2 ⟨he, sameExtent_self e⟩
  rw [h] at hmem
  exact (List.mem_filter.1 hmem).1

/-- Two sorted batches that agree on each start and end are the same: the first edits of both come
before one another, so they are the first ones of the same start and end. -/
theorem eq_of_filter_eq : ∀ {as bs : List Edit}, as.Pairwise (fun a b => le a b = true) →
    bs.Pairwise (fun a b => le a b = true) →
    (∀ e, as.filter (sameExtent e) = bs.filter (sameExtent e)) → as = bs
  | [], [], _, _, _ => rfl
  | [], b :: bs, _, _, h => by
    have hb := mem_of_filter_eq (h b).symm List.mem_cons_self
    cases hb
  | a :: as, [], _, _, h => by
    have ha := mem_of_filter_eq (h a) List.mem_cons_self
    cases ha
  | a :: as, b :: bs, ha, hb, h => by
    have hrefl : ∀ e : Edit, le e e = true := fun e => le_iff.2 (by omega)
    have hab : le a b = true := by
      rcases List.mem_cons.1 (mem_of_filter_eq (h b).symm List.mem_cons_self) with rfl | hmem
      · exact hrefl b
      · exact List.rel_of_pairwise_cons ha hmem
    have hba : le b a = true := by
      rcases List.mem_cons.1 (mem_of_filter_eq (h a) List.mem_cons_self) with rfl | hmem
      · exact hrefl a
      · exact List.rel_of_pairwise_cons hb hmem
    have hfirst := h a
    rw [List.filter_cons_of_pos (sameExtent_self a),
      List.filter_cons_of_pos (sameExtent_of_le hab hba)] at hfirst
    obtain ⟨rfl, -⟩ := List.cons.inj hfirst
    congr 1
    refine eq_of_filter_eq ha.of_cons hb.of_cons fun e => ?_
    have he := h e
    rw [List.filter_cons, List.filter_cons] at he
    split_ifs at he
    · exact (List.cons.inj he).2
    · exact he

theorem StableOrder.unique {edits as bs : List Edit} (ha : StableOrder edits as)
    (hb : StableOrder edits bs) : as = bs :=
  eq_of_filter_eq ha.sorted hb.sorted fun e => (ha.keeps e).trans (hb.keeps e).symm

/-- The order of application is stable. -/
theorem stableOrder_sort (edits : List Edit) : StableOrder edits (sort edits) := by
  refine ⟨sort_sorted edits, fun e => ?_⟩
  have hequal : (edits.filter (sameExtent e)).Pairwise fun a b => le a b = true := by
    refine List.pairwise_of_forall_mem_list fun a ha b hb => ?_
    have hea := sameExtent_iff.1 (List.mem_filter.1 ha).2
    have heb := sameExtent_iff.1 (List.mem_filter.1 hb).2
    rw [le_iff]
    omega
  have hsub : (edits.filter (sameExtent e)).Sublist (sort edits) :=
    List.sublist_mergeSort le_trans le_total hequal List.filter_sublist
  have hfilter := hsub.filter (sameExtent e)
  simp only [List.filter_filter, Bool.and_self] at hfilter
  exact (hfilter.eq_of_length ((sort_perm edits).filter _).length_eq.symm).symm

/-! ## Batches in another order -/

/-- Whether an edit inserts at an offset. -/
def insertsAt (offset : Int) (e : Edit) : Bool :=
  e.isInsertion && e.start = offset

theorem sameExtent_eq_insertsAt {e : Edit} (he : e.length = 0) :
    sameExtent e = insertsAt e.start := by
  funext b
  rw [Bool.eq_iff_iff, sameExtent_iff, insertsAt, isInsertion, Bool.and_eq_true,
    decide_eq_true_eq, decide_eq_true_eq, stop, stop]
  omega

theorem conflict_of_sameExtent {e a b : Edit} (ha : sameExtent e a = true)
    (hb : sameExtent e b = true) (hl : 0 ≤ a.length) (he : e.length ≠ 0) : Conflict a b := by
  rw [sameExtent_iff] at ha hb
  unfold Conflict stop at *
  omega

/-- Without conflicts, a part is replaced at most once, so batches of the same edits agree on it. -/
theorem filter_sameExtent_of_perm {edits edits' : List Edit} (hp : edits'.Perm edits)
    (hfree : edits.Pairwise fun a b => ¬ Conflict a b) (hl : ∀ e ∈ edits, 0 ≤ e.length) {e : Edit}
    (he : e.length ≠ 0) : edits'.filter (sameExtent e) = edits.filter (sameExtent e) := by
  have hperm := hp.filter (sameExtent e)
  have hfree := hfree.filter (sameExtent e)
  have hmem : ∀ a ∈ edits.filter (sameExtent e), sameExtent e a = true ∧ 0 ≤ a.length := by
    intro a ha
    obtain ⟨ha, hea⟩ := List.mem_filter.1 ha
    exact ⟨hea, hl a ha⟩
  generalize edits.filter (sameExtent e) = fs at hperm hfree hmem ⊢
  rcases fs with _ | ⟨a, _ | ⟨b, fs⟩⟩
  · exact hperm.eq_nil
  · exact hperm.eq_singleton
  · obtain ⟨hea, hla⟩ := hmem a (by simp)
    obtain ⟨heb, -⟩ := hmem b (by simp)
    exact absurd (conflict_of_sameExtent hea heb hla he)
      (List.rel_of_pairwise_cons hfree List.mem_cons_self)

/-- Where insertions at one offset keep their order, so does the order of application. -/
theorem stableOrder_of_perm {edits edits' : List Edit} (hp : edits'.Perm edits)
    (hi : ∀ offset, edits'.filter (insertsAt offset) = edits.filter (insertsAt offset))
    (hfree : edits.Pairwise fun a b => ¬ Conflict a b) (hl : ∀ e ∈ edits, 0 ≤ e.length) :
    StableOrder edits (sort edits') := by
  refine ⟨sort_sorted edits', fun e => ?_⟩
  rw [(stableOrder_sort edits').keeps]
  by_cases he : e.length = 0
  · rw [sameExtent_eq_insertsAt he]
    exact hi e.start
  · exact filter_sameExtent_of_perm hp hfree hl he

/-- Whether two batches come out as the same text, or both are refused for the same kind of
reason. -/
def SameOutcome : Except EditError Text → Except EditError Text → Prop
  | .ok t, .ok t' => t = t'
  | .error (.outOfRange _ _), .error (.outOfRange _ _) => True
  | .error (.overlapping _ _), .error (.overlapping _ _) => True
  | _, _ => False

theorem exists_outOfRange {source : Text} {edits : List Edit}
    (h : ¬ ∀ e ∈ edits, e.inRange source.length = true) :
    ∃ e, apply source edits = .error (.outOfRange e source.length) := by
  have hfind : edits.find? (fun e => !e.inRange source.length) ≠ none := by
    intro hnone
    refine h fun e he => ?_
    simpa using List.find?_eq_none.1 hnone e he
  obtain ⟨e, he⟩ := Option.ne_none_iff_exists'.1 hfind
  exact ⟨e, by simp only [apply, he]⟩

/-- The text with a single edit in place. -/
def substitute (e : Edit) (t : Text) : Text :=
  t.take e.start.toNat ++ e.text ++ t.drop e.stop.toNat

/-- The number of characters that an edit adds to a text. -/
def growth (e : Edit) : Int :=
  e.text.length - e.length

/-- Whether edits follow one another in a text of length `n`, the first at offset `done` or
behind. -/
def Follow (n : Nat) (done : Nat) : List Edit → Prop
  | [] => done ≤ n
  | e :: es => done ≤ n ∧ ∃ start stop : Nat, e.start = start ∧ e.stop = stop ∧ done ≤ start
    ∧ start ≤ stop ∧ Follow n stop es

theorem Follow.le {n done : Nat} {es : List Edit} (h : Follow n done es) : done ≤ n := by
  cases es with
  | nil => exact h
  | cons e es => exact h.1

theorem Follow.le_stop {n : Nat} : ∀ {es : List Edit} {done : Nat}, Follow n done es →
    ∀ e ∈ es, (done : Int) ≤ e.stop
  | [], _, _, _, he => by cases he
  | a :: es, done, ⟨_, start, stop, hstart, hstop, hdone, hle, h⟩, e, he => by
    rcases List.mem_cons.1 he with rfl | he
    · omega
    · have := h.le_stop e he
      omega

theorem follow_of_ordered {n : Nat} : ∀ {es : List Edit} {done : Nat}, done ≤ n →
    (∀ e ∈ es, (done : Int) ≤ e.start ∧ e.inRange n = true) →
    es.Pairwise (fun a b => a.stop ≤ b.start) → Follow n done es
  | [], _, hn, _, _ => hn
  | e :: es, done, hn, h, hs => by
    obtain ⟨hdone, hrange⟩ := h e List.mem_cons_self
    obtain ⟨-, hl, hstop⟩ := inRange_iff.1 hrange
    have hle : e.start ≤ e.stop := by
      unfold stop
      omega
    refine ⟨hn, e.start.toNat, e.stop.toNat, by omega, by omega, by omega, by omega, ?_⟩
    refine follow_of_ordered (by omega) (fun a ha => ⟨?_, (h a (List.mem_cons_of_mem _ ha)).2⟩)
      hs.of_cons
    have := List.rel_of_pairwise_cons hs ha
    omega

/-- The order of application of a batch that is accepted. -/
theorem follow_sort {source t : Text} {edits : List Edit} (h : apply source edits = .ok t) :
    Follow source.length 0 (sort edits) ∧ splice source 0 (sort edits) = t := by
  have hrange := inRange_of_apply h
  have hsort : ∀ e ∈ sort edits, e.inRange source.length = true :=
    fun e he => hrange e ((sort_perm edits).mem_iff.1 he)
  rw [apply_of_inRange hrange] at h
  split at h
  · cases h
  · rename_i hnone
    cases h
    refine ⟨follow_of_ordered (Nat.zero_le _) (fun e he => ⟨?_, hsort e he⟩)
      (ordered_of_overlap? (sort_sorted edits) (length_nonneg hsort) hnone), rfl⟩
    exact (inRange_iff.1 (hsort e he)).1

/-- Putting edits in from the last to the first leaves what stands in front of them alone, and puts
behind it what putting them in at once gives. -/
theorem foldr_substitute {source : Text} : ∀ {es : List Edit} {done : Nat},
    Follow source.length done es →
    es.foldr substitute source = source.take done ++ splice source done es
  | [], done, _ => (List.take_append_drop done source).symm
  | e :: es, done, h => by
    obtain ⟨-, start, stop, hstart, hstop, hdone, hle, h⟩ := h
    have hlen : (source.take stop).length = stop := List.length_take_of_le h.le
    have htake : source.take done ++ source.slice done start = source.take start := by
      rw [Text.slice, ← List.drop_take]
      have := List.take_append_drop done (source.take start)
      rwa [List.take_take, Nat.min_eq_left hdone] at this
    rw [List.foldr_cons, foldr_substitute h, substitute, splice, hstart, hstop, Int.toNat_natCast,
      Int.toNat_natCast, List.take_append_of_le_length (by omega), List.take_take,
      Nat.min_eq_left hle, List.drop_left' hlen, ← htake]
    simp only [List.append_assoc]

/-! ## Where characters go -/

theorem length_slice {source : Text} {j : Nat} (i : Nat) (h : j ≤ source.length) :
    (source.slice i j).length = j - i := by
  rw [Text.slice, List.length_take, List.length_drop]
  omega

theorem length_eq {e : Edit} {i j : Nat} (hi : e.start = i) (hj : e.stop = j) :
    e.length = j - i := by
  unfold stop at hj
  omega

theorem length_splice {source : Text} : ∀ {es : List Edit} {done : Nat},
    Follow source.length done es →
    ((splice source done es).length : Int) = source.length - done + (es.map growth).sum
  | [], done, h => by
    have hle : done ≤ source.length := h
    rw [splice, List.length_drop, List.map_nil, List.sum_nil]
    omega
  | e :: es, done, h => by
    obtain ⟨-, start, stop, hstart, hstop, hdone, hle, h⟩ := h
    have ih := length_splice h
    have hslice := length_slice done (Nat.le_trans hle h.le)
    have hl := length_eq hstart hstop
    rw [splice, hstart, hstop, Int.toNat_natCast, Int.toNat_natCast, List.length_append,
      List.length_append, hslice, List.map_cons, List.sum_cons, growth, hl]
    omega

/-- Whether an offset lies in the part that an edit replaces. -/
def replaces (e : Edit) (i : Nat) : Prop :=
  e.start ≤ i ∧ i < e.stop

instance (e : Edit) (i : Nat) : Decidable (e.replaces i) :=
  inferInstanceAs (Decidable (_ ∧ _))

/-- The number of characters that the edits in front of an offset add. -/
def shift (edits : List Edit) (i : Nat) : Int :=
  ((edits.filter fun e => e.stop ≤ (i : Int)).map growth).sum

theorem shift_of_lt {es : List Edit} {n done i : Nat} (h : Follow n done es) (hi : i < done) :
    shift es i = 0 := by
  have hbehind : ∀ e ∈ es, ¬ e.stop ≤ (i : Int) := by
    intro e he
    have := h.le_stop e he
    omega
  rw [shift, List.filter_eq_nil_iff.2 fun e he => by simpa using hbehind e he]
  rfl

/-- A character that is not replaced moves by what the edits in front of it add. -/
theorem exists_getElem?_splice {source : Text} {i : Nat} {c : Char} (hc : source[i]? = some c) :
    ∀ {es : List Edit} {done : Nat}, Follow source.length done es → done ≤ i →
    (∀ e ∈ es, ¬ e.replaces i) →
    ∃ k : Nat, (k : Int) = i - done + shift es i ∧ (splice source done es)[k]? = some c
  | [], done, _, hi, _ => by
    refine ⟨i - done, by simp [shift]; omega, ?_⟩
    rw [splice, List.getElem?_drop, Nat.add_sub_cancel' hi, hc]
  | e :: es, done, h, hi, hfree => by
    obtain ⟨-, start, stop, hstart, hstop, hdone, hle, h⟩ := h
    have hslice := length_slice done (Nat.le_trans hle h.le)
    have hl := length_eq hstart hstop
    have hout := hfree e List.mem_cons_self
    rw [replaces, hstart, hstop] at hout
    rw [splice, hstart, hstop, Int.toNat_natCast, Int.toNat_natCast]
    by_cases hlt : i < start
    -- Everything from this edit on stands behind the character.
    · have hnone : shift (e :: es) i = shift es i := by
        rw [shift, List.filter_cons_of_neg (by simp [hstop]; omega), shift]
      refine ⟨i - done, ?_, ?_⟩
      · rw [hnone, shift_of_lt h (by omega)]
        omega
      · rw [List.append_assoc, List.getElem?_append_left (by omega), Text.slice,
          List.getElem?_take_of_lt (by omega), List.getElem?_drop, Nat.add_sub_cancel' hi, hc]
    · have hstopi : stop ≤ i := by omega
      obtain ⟨k, hk, hget⟩ := exists_getElem?_splice hc h hstopi
        fun a ha => hfree a (List.mem_cons_of_mem _ ha)
      have hsome : shift (e :: es) i = growth e + shift es i := by
        rw [shift, List.filter_cons_of_pos (by simp [hstop]; omega), List.map_cons, List.sum_cons,
          shift]
      refine ⟨(source.slice done start ++ e.text).length + k, ?_, ?_⟩
      · rw [hsome, List.length_append, hslice, growth, hl]
        omega
      · rw [List.getElem?_append_right (by omega), Nat.add_sub_cancel_left, hget]

/-- Putting a batch in at once is putting its edits in one by one from the last to the first. So the
text grows by what the edits add, and a character that is not replaced moves by what the edits in
front of it add. -/
theorem apply_eq_foldr {source t : Text} {edits : List Edit} (h : apply source edits = .ok t) :
    (∃ ordered, StableOrder edits ordered)
    ∧ (∀ ordered, StableOrder edits ordered → ordered.foldr substitute source = t)
    ∧ (∀ i c, source[i]? = some c → (∀ e ∈ edits, ¬ e.replaces i) →
        ∃ k : Nat, (k : Int) = i + shift edits i ∧ t[k]? = some c)
    ∧ (t.length : Int) = source.length + (edits.map growth).sum := by
  obtain ⟨hfollow, rfl⟩ := follow_sort h
  have hp := sort_perm edits
  refine ⟨⟨_, stableOrder_sort edits⟩, fun ordered ho => ?_, fun i c hc hfree => ?_, ?_⟩
  · rw [ho.unique (stableOrder_sort edits), foldr_substitute hfollow]
    rfl
  · obtain ⟨k, hk, hget⟩ := exists_getElem?_splice hc hfollow (Nat.zero_le i)
      fun e he => hfree e (hp.mem_iff.1 he)
    have hshift : shift (sort edits) i = shift edits i := ((hp.filter _).map growth).sum_eq
    exact ⟨k, by rw [hk, hshift]; omega, hget⟩
  · rw [length_splice hfollow, (hp.map growth).sum_eq]
    omega

theorem apply_eq_foldr_border :
    let source : Text := ['a', 'b', 'c', 'd', 'e', 'f']
    let edits := [insert 4 ['z'], insert 2 ['x'], replace 2 4 ['u', 'v', 'w'], insert 2 ['y']]
    ∃ t, apply source edits = .ok t ∧ (t.length : Int) = source.length + 4 ∧ t[8]? = some 'e'
      ∧ ([insert 2 ['x'], insert 2 ['y'], replace 2 4 ['u', 'v', 'w'], insert 4 ['z']]).foldr
        substitute source = t := by
  intro source edits
  have happly : apply source edits
      = .ok ['a', 'b', 'x', 'y', 'u', 'v', 'w', 'z', 'e', 'f'] := by cbv
  have hsort : sort edits
      = [insert 2 ['x'], insert 2 ['y'], replace 2 4 ['u', 'v', 'w'], insert 4 ['z']] := by cbv
  obtain ⟨-, hfoldr, hmoves, hlen⟩ := apply_eq_foldr happly
  obtain ⟨k, hk, hget⟩ := hmoves 4 'e' rfl (by decide +kernel)
  refine ⟨_, happly, ?_, ?_, ?_⟩
  · rw [hlen]
    decide +kernel
  · have hshift : shift edits 4 = 4 := by decide +kernel
    obtain rfl : k = 8 := by omega
    exact hget
  · rw [← hsort]
    exact hfoldr _ (stableOrder_sort edits)

end BalMediation.Edit
