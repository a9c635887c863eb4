import BalMediation.Proofs.Paths
import Mathlib.Data.List.Induction

/-!
# File trees

What operations on a file system do to the entries at its locations. Putting an entry changes one
location (`entryAt?_put`). In a file tree every entry stands in a directory (`IsTree`), so below a
location where nothing stands there is nothing either. The location that a path leads to depends on
the names alone and not on the entries (`follow_of_walk`), and a path that can be followed still
can after directories have been added (`walk_mono`).
-/

namespace BalMediation.FileSystem

variable {fs fs' : FileSystem} {here location : List Text} {name : Text} {p : Path}

/-! ## Entries -/

theorem entryAt?_of_ne_nil (fs : FileSystem) (h : location ≠ []) :
    fs.entryAt? location = (fs.entries.find? (·.1 = location)).map (·.2) := by
  simp [entryAt?, h]

theorem ne_nil_of_entryAt? (h : fs.entryAt? location ≠ some .directory) : location ≠ [] := by
  rintro rfl
  exact h rfl

theorem mem_entries_of_entryAt? {entry : Entry} (hne : location ≠ [])
    (h : fs.entryAt? location = some entry) : (location, entry) ∈ fs.entries := by
  rw [entryAt?_of_ne_nil fs hne] at h
  obtain ⟨e, he, rfl⟩ := Option.map_eq_some_iff.1 h
  have hloc : e.1 = location := by simpa using List.find?_some he
  exact hloc ▸ List.mem_of_find?_eq_some he

theorem find?_replaced (es : List (List Text × Entry)) (location l : List Text) (entry : Entry) :
    (es.map fun e => if e.1 = location then (location, entry) else e).find? (·.1 = l)
      = if l = location then (es.find? (·.1 = l)).map fun _ => (location, entry)
        else es.find? (·.1 = l) := by
  induction es with
  | nil => simp
  | cons e es ih =>
    rw [List.map_cons, List.find?_cons, List.find?_cons, ih]
    by_cases he : e.1 = location
    · by_cases hl : l = location
      · simp [he, hl]
      · simp [he, hl, Ne.symm hl]
    · by_cases hl : l = location
      · simp [he, hl]
      · simp [he, hl]

/-- Putting an entry changes what stands at its location and nothing else. -/
theorem entryAt?_put (fs : FileSystem) (hne : location ≠ []) (entry : Entry) (l : List Text) :
    (fs.put location entry).entryAt? l = if l = location then some entry else fs.entryAt? l := by
  by_cases hl : l = []
  · subst hl
    rw [if_neg (Ne.symm hne)]
    rfl
  · rw [entryAt?_of_ne_nil _ hl, entryAt?_of_ne_nil _ hl, put]
    split_ifs with hany heq heq
    · have hsome : (fs.entries.find? (·.1 = l)).isSome = true := by
        rw [List.find?_isSome, heq]
        simpa using hany
      obtain ⟨x, hx⟩ := Option.isSome_iff_exists.1 hsome
      rw [find?_replaced, if_pos heq, hx]
      rfl
    · rw [find?_replaced, if_neg heq]
    · have hnone : fs.entries.find? (·.1 = l) = none := by
        rw [List.find?_eq_none, heq]
        exact fun e he hloc => hany (List.any_eq_true.2 ⟨e, he, hloc⟩)
      rw [List.find?_append, hnone]
      simp [heq]
    · rw [List.find?_append]
      simp [Ne.symm heq]

theorem entryAt?_put_self (fs : FileSystem) (hne : location ≠ []) (entry : Entry) :
    (fs.put location entry).entryAt? location = some entry := by
  rw [entryAt?_put fs hne, if_pos rfl]

theorem entryAt?_put_of_ne (fs : FileSystem) {l : List Text} (h : location ≠ []) (hl : l ≠ location)
    (entry : Entry) : (fs.put location entry).entryAt? l = fs.entryAt? l := by
  rw [entryAt?_put fs h, if_neg hl]

/-! ## Trees -/

/-- No entry has a slash in its name. -/
def Named (fs : FileSystem) : Prop :=
  ∀ e ∈ fs.entries, ∀ name ∈ e.1.getLast?, '/' ∉ name

/-- Every entry stands in a directory and has a name without slashes. -/
structure IsTree (fs : FileSystem) : Prop where
  rooted : ∀ e ∈ fs.entries, fs.entryAt? e.1.dropLast = some .directory
  named : fs.Named

instance (fs : FileSystem) : Decidable fs.Named :=
  inferInstanceAs (Decidable (∀ e ∈ fs.entries, ∀ name ∈ e.1.getLast?, '/' ∉ name))

instance (fs : FileSystem) : Decidable fs.IsTree :=
  decidable_of_iff ((∀ e ∈ fs.entries, fs.entryAt? e.1.dropLast = some .directory) ∧ fs.Named)
    ⟨fun h => ⟨h.1, h.2⟩, fun h => ⟨h.1, h.2⟩⟩

/-- Below a location where nothing stands there is nothing. -/
theorem IsTree.entryAt?_below (ht : fs.IsTree) (h : fs.entryAt? location = none)
    (names : List Text) :
    fs.entryAt? (location ++ names) = none := by
  induction names using List.reverseRecOn with
  | nil => rwa [List.append_nil]
  | append_singleton names name ih =>
    rw [← List.append_assoc]
    cases hentry : fs.entryAt? (location ++ names ++ [name]) with
    | none => rfl
    | some entry =>
      have hparent := ht.rooted _ (mem_entries_of_entryAt? (by simp) hentry)
      rw [List.dropLast_concat, ih] at hparent
      cases hparent

theorem Named.put (h : fs.Named) (hl : ∀ name ∈ location.getLast?, '/' ∉ name) (entry : Entry) :
    (fs.put location entry).Named := by
  intro e he
  unfold FileSystem.put at he
  split at he
  · obtain ⟨x, hx, rfl⟩ := List.mem_map.1 he
    split
    · exact hl
    · exact h x hx
  · rcases List.mem_append.1 he with he | he
    · exact h e he
    · rw [List.mem_singleton.1 he]
      exact hl

theorem Named.put_below (h : fs.Named) (hname : '/' ∉ name) (entry : Entry) :
    (fs.put (location ++ [name]) entry).Named :=
  h.put (by simpa using hname) entry

theorem putDeep_cons (fs : FileSystem) (location : List Text) (entry : Entry)
    (name next : Text) (names : List Text) :
    fs.putDeep location entry (name :: next :: names)
      = if name = "..".toList then fs.putDeep location.dropLast entry (next :: names)
        else (if (fs.entryAt? (location ++ [name])).isSome then fs
          else fs.put (location ++ [name]) .directory).putDeep (location ++ [name]) entry
            (next :: names) :=
  rfl

theorem Named.putDeep (h : fs.Named) (entry : Entry) {names : List Text}
    (hnames : ∀ name ∈ names, '/' ∉ name) : (fs.putDeep location entry names).Named := by
  induction names generalizing fs location with
  | nil => exact h
  | cons name names ih =>
    have hname := hnames name List.mem_cons_self
    have hrest : ∀ n ∈ names, '/' ∉ n := fun n hn => hnames n (List.mem_cons_of_mem name hn)
    cases names with
    | nil => exact h.put_below hname entry
    | cons next names =>
      rw [putDeep_cons]
      split
      · exact ih h hrest
      · refine ih ?_ hrest
        split
        · exact h
        · exact h.put_below hname .directory

/-! ## Places below a directory -/

/-- Whether names stay below a directory, followed from a place that is `depth` levels below it. -/
def staysBelow (depth : Nat) : List Text → Bool
  | name :: next :: names =>
    if name = "..".toList then depth != 0 && staysBelow (depth - 1) (next :: names)
    else staysBelow (depth + 1) (next :: names)
  | _ => true

theorem ne_append_of_not_prefix {l deeper : List Text} (h : ¬ location <+: l) :
    l ≠ location ++ deeper := by
  rintro rfl
  exact h (List.prefix_append location deeper)

/-- An entry that is put below a directory leaves all places outside of it alone. -/
theorem entryAt?_putDeep (fs : FileSystem) (entry : Entry) {names l : List Text}
    (deeper : List Text) (hs : staysBelow deeper.length names = true) (hl : ¬ location <+: l) :
    (fs.putDeep (location ++ deeper) entry names).entryAt? l = fs.entryAt? l := by
  induction names generalizing fs deeper with
  | nil => rfl
  | cons name names ih =>
    have hne : l ≠ location ++ deeper ++ [name] := by
      rw [List.append_assoc]
      exact ne_append_of_not_prefix hl
    cases names with
    | nil => exact entryAt?_put_of_ne fs (by simp) hne entry
    | cons next names =>
      rw [staysBelow] at hs
      rw [putDeep_cons]
      split_ifs at hs ⊢ with hup
      · rw [Bool.and_eq_true, bne_iff_ne, ne_eq, List.length_eq_zero_iff] at hs
        rw [List.dropLast_append_of_ne_nil hs.1]
        exact ih fs _ (by rw [List.length_dropLast]; exact hs.2)
      · rw [List.append_assoc]
        exact ih fs _ (by rw [List.length_append]; exact hs)
      · rw [← entryAt?_put_of_ne fs (by simp) hne .directory, List.append_assoc]
        exact ih _ _ (by rw [List.length_append]; exact hs)

/-! ## Locations of paths -/

/-- Where names lead from a location. -/
def follow (location : List Text) (names : List Text) : List Text :=
  names.foldl (fun l name => if name = "..".toList then l.dropLast else l ++ [name]) location

theorem follow_below (location names : List Text) (h : name ≠ "..".toList) :
    follow location (names ++ [name]) = follow location names ++ [name] := by
  rw [follow, List.foldl_append, List.foldl_cons, List.foldl_nil, if_neg h]
  rfl

theorem follow_of_walk {names l : List Text} (h : fs.walk location names = .ok l) :
    l = follow location names := by
  induction names generalizing location with
  | nil =>
    cases h
    rfl
  | cons name names ih =>
    rw [walk] at h
    rw [follow, List.foldl_cons]
    split at h
    · cases h
    · cases h
    · split_ifs at h ⊢
      · exact ih h
      · exact ih h

theorem walk_append (fs : FileSystem) (location names more : List Text) :
    fs.walk location (names ++ more) = (do
      let l ← fs.walk location names
      fs.walk l more) := by
  induction names generalizing location with
  | nil => rfl
  | cons name names ih =>
    rw [List.cons_append, walk, walk]
    split
    · rfl
    · rfl
    · split_ifs
      · rfl
      · exact ih location.dropLast
      · exact ih (location ++ [name])

theorem walk_mono (hdir : ∀ l, fs.entryAt? l = some .directory → fs'.entryAt? l = some .directory)
    {names l : List Text} (h : fs.walk location names = .ok l) :
    fs'.walk location names = .ok l := by
  induction names generalizing location with
  | nil => exact h
  | cons name names ih =>
    rw [walk] at h
    split at h
    · cases h
    · cases h
    · rename_i hentry
      rw [walk, hdir _ hentry]
      split_ifs at h ⊢
      · exact ih h
      · exact ih h

theorem walk_name (hdir : fs.entryAt? location = some .directory)
    (hsize : utf8Size name ≤ maxNameSize) (hup : name ≠ "..".toList) :
    fs.walk location [name] = .ok (location ++ [name]) := by
  rw [walk, hdir]
  simp only [if_neg (Nat.not_lt.2 hsize), if_neg hup]
  rfl

/-- Where a path starts. -/
def start (here : List Text) (p : Path) : List Text :=
  match p.anchor with
  | .here => here
  | _ => []

theorem resolve_eq (fs : FileSystem) (here : List Text) (p : Path) :
    fs.resolve here p = if utf8Size p.toText > maxPathSize then .error .nameTooLong
      else fs.walk (start here p) p.parts := by
  unfold resolve start
  split_ifs
  · rfl
  · cases p.anchor <;> rfl

theorem resolve_ok_iff {l : List Text} : fs.resolve here p = .ok l
    ↔ utf8Size p.toText ≤ maxPathSize ∧ fs.walk (start here p) p.parts = .ok l := by
  rw [resolve_eq]
  split_ifs with h
  · simp [Nat.not_le.2 h]
  · simp [Nat.not_lt.1 h]

theorem resolve_mono
    (hdir : ∀ l, fs.entryAt? l = some .directory → fs'.entryAt? l = some .directory)
    {l : List Text} (h : fs.resolve here p = .ok l) : fs'.resolve here p = .ok l := by
  rw [resolve_ok_iff] at h ⊢
  exact ⟨h.1, walk_mono hdir h.2⟩

/-- A name below a directory leads to the location below it. -/
theorem resolve_below (h : fs.resolve here p = .ok location)
    (hdir : fs.entryAt? location = some .directory) (hsize : utf8Size name ≤ maxNameSize)
    (hup : name ≠ "..".toList) (hpath : utf8Size (p.below name).toText ≤ maxPathSize) :
    fs.resolve here (p.below name) = .ok (location ++ [name]) := by
  refine resolve_ok_iff.2 ⟨hpath, ?_⟩
  have hwalk : fs.walk (start here p) (p.parts ++ [name]) = .ok (location ++ [name]) := by
    rw [walk_append, (resolve_ok_iff.1 h).2]
    exact walk_name hdir hsize hup
  exact hwalk

/-- If a name below a path leads anywhere, then below the location of the path. -/
theorem location_below {l : List Text} (h : fs.resolve here p = .ok location)
    (hup : name ≠ "..".toList) (hl : fs'.resolve here (p.below name) = .ok l) :
    l = location ++ [name] := by
  rw [follow_of_walk (resolve_ok_iff.1 hl).2, follow_of_walk (resolve_ok_iff.1 h).2]
  exact follow_below _ _ hup

/-! ## Operations -/

theorem read_eq_ok {content : Content} : fs.read here p = .ok content
    ↔ ∃ l, fs.resolve here p = .ok l ∧ fs.entryAt? l = some (.file content) := by
  unfold read
  cases fs.resolve here p with
  | error e => simp [bind, Except.bind]
  | ok l =>
    simp only [bind, Except.bind, Except.ok.injEq, exists_eq_left']
    rcases fs.entryAt? l with _ | _ | content' <;> simp

theorem write_eq_ok {content : Content} : fs.write here p content = .ok fs'
    ↔ ∃ l, fs.resolve here p = .ok l ∧ fs.entryAt? l ≠ some .directory
      ∧ fs' = fs.put l (.file content) := by
  unfold write
  cases fs.resolve here p with
  | error e => simp [bind, Except.bind]
  | ok l =>
    simp only [bind, Except.bind, Except.ok.injEq, exists_eq_left']
    rcases fs.entryAt? l with _ | _ | content' <;> simp [eq_comm]

theorem write_ok {content : Content} (h : fs.write here p content = .ok fs') :
    ∃ l, fs.resolve here p = .ok l ∧ l ≠ [] ∧ fs' = fs.put l (.file content) := by
  unfold write at h
  cases hl : fs.resolve here p with
  | error e =>
    rw [hl] at h
    cases h
  | ok l =>
    rw [hl] at h
    simp only [bind, Except.bind] at h
    split at h
    · cases h
    · rename_i hentry
      cases h
      exact ⟨l, rfl, ne_nil_of_entryAt? hentry, rfl⟩

end BalMediation.FileSystem
