import BalMediation.Proofs.FileTrees
import BalMediation.Snippet

/-!
# Lookups

A source of snippets reads each of them once. While files come, change and go, every lookup of a
name gives the text that its file held when it was first found. Until then it succeeds if there is a
file with a text now, and a lookup that fails changes nothing (`answer_after`).
-/

namespace BalMediation

/-- Whether the file of a snippet is there, and holds this. -/
def SnippetLocation.HasFile (location : SnippetLocation) (fs : FileSystem) (here : List Text)
    (name : Text) (content : Content) : Prop :=
  match location with
  | bundled => ∃ place,
    Snippet.bundledFiles.resolve [] ((Path.ofText "snippets".toList).child name) = .ok place
      ∧ Snippet.bundledFiles.entryAt? place = some (.file content)
  | directory path => ∃ place, fs.resolve here (path.child name) = .ok place
    ∧ fs.entryAt? place = some (.file content)

theorem FileSystem.find?_eq_some {fs : FileSystem} {here : List Text} {p : Path}
    {content : Content} : fs.find? here p = .ok (some content)
      ↔ ∃ place, fs.resolve here p = .ok place ∧ fs.entryAt? place = some (.file content) := by
  rw [← read_eq_ok, find?]
  cases fs.read here p with
  | ok content' => simp
  | error e => cases e <;> simp [SystemError.isAbsence]

/-- A snippet can be read if its file is there and holds a text. -/
theorem SnippetLocation.read_eq_ok {location : SnippetLocation} {fs : FileSystem}
    {here : List Text} {name t : Text} : location.read fs here name = .ok t
      ↔ ∃ content, location.HasFile fs here name content ∧ content.text? = some t := by
  have hcontent : ∀ content, location.content? fs here name = .ok (some content)
      ↔ location.HasFile fs here name content := by
    intro content
    cases location <;> exact FileSystem.find?_eq_some
  simp only [← hcontent, read]
  cases location.content? fs here name with
  | error e => simp
  | ok found =>
    cases found with
    | none => simp
    | some content => cases htext : content.text? <;> simp [htext]

namespace SnippetSource

/-! ## Runs -/

/-- Something that happens while a source is in use: files are written, made or removed, or a
snippet is looked up. -/
inductive Event where
  | change (f : FileSystem → FileSystem)
  | lookup (name : Text)

/-- The files and a source in use. -/
structure Scene where
  files : FileSystem
  source : SnippetSource

namespace Scene

variable (here : List Text)

/-- What a lookup of a snippet gives. -/
def answer (s : Scene) (name : Text) : Except Error Text :=
  (s.source.lookup s.files here name).1

/-- One event. -/
def step (s : Scene) : Event → Scene
  | .change f => { s with files := f s.files }
  | .lookup name => { s with source := (s.source.lookup s.files here name).2 }

/-- Events one after another. -/
def after (s : Scene) (events : List Event) : Scene :=
  events.foldl (step here) s

/-- Of some events, those in front of the first lookup that finds a snippet. -/
structure FirstHit (s : Scene) (name : Text) (events before : List Event) : Prop where
  looked : before ++ [.lookup name] <+: events
  found : ∃ t, (s.after here before).answer here name = .ok t
  first : ∀ earlier t, earlier ++ [.lookup name] <+: before →
    (s.after here earlier).answer here name ≠ .ok t

/-- The text that the source remembers. -/
def remembered? (s : Scene) (name : Text) : Option Text :=
  (s.source.found.find? (·.1 = name)).map (·.2)

variable {here} {s : Scene} {name t : Text} {e : Event} {events before rest : List Event}

@[simp] theorem after_append : s.after here (before ++ rest)
    = (s.after here before).after here rest :=
  List.foldl_append

@[simp] theorem after_concat : s.after here (events ++ [e]) = (s.after here events).step here e :=
  after_append

/-! ### What one event does -/

theorem answer_of_remembered (h : s.remembered? name = some t) : s.answer here name = .ok t := by
  obtain ⟨⟨n, t⟩, hfind, rfl⟩ := Option.map_eq_some_iff.1 h
  rw [answer, SnippetSource.lookup, hfind]

theorem answer_of_not_remembered (h : s.remembered? name = none) :
    s.answer here name = s.source.location.read s.files here name := by
  rw [answer, SnippetSource.lookup, Option.map_eq_none_iff.1 h]
  cases s.source.location.read s.files here name <;> rfl

/-- A lookup leaves everything as it is, or adds a snippet that was not remembered. -/
theorem step_lookup_cases (s : Scene) (name : Text) :
    s.step here (.lookup name) = s ∧ s.remembered? name = (s.answer here name).toOption
    ∨ s.remembered? name = none ∧ ∃ t, s.answer here name = .ok t ∧ s.step here (.lookup name)
      = { s with source := { s.source with found := (name, t) :: s.source.found } } := by
  cases hfind : s.source.found.find? (·.1 = name) with
  | some e =>
    exact .inl (by simp [step, answer, remembered?, SnippetSource.lookup, hfind, Except.toOption])
  | none =>
    cases hread : s.source.location.read s.files here name with
    | ok t => exact .inr (by simp [step, answer, remembered?, SnippetSource.lookup, hfind, hread])
    | error fault =>
      refine .inl ?_
      simp [step, answer, remembered?, SnippetSource.lookup, hfind, hread, Except.toOption]

/-- A lookup that fails changes nothing. -/
theorem step_lookup_of_error {fault : Error} (h : s.answer here name = .error fault) :
    s.step here (.lookup name) = s := by
  rcases step_lookup_cases s name with ⟨hstep, -⟩ | ⟨-, t, hanswer, -⟩
  · exact hstep
  · rw [h] at hanswer
    cases hanswer

/-- A source remembers what it has found. -/
theorem remembered?_step_lookup (h : s.answer here name = .ok t) :
    (s.step here (.lookup name)).remembered? name = some t := by
  rcases step_lookup_cases s name with ⟨hstep, hrem⟩ | ⟨-, t', hanswer, hstep⟩
  · rw [hstep, hrem, h]
    rfl
  · rw [h] at hanswer
    cases hanswer
    simp [hstep, remembered?]

/-- What is remembered is not forgotten. -/
theorem remembered?_step (h : s.remembered? name = some t) (e : Event) :
    (s.step here e).remembered? name = some t := by
  cases e with
  | change f => exact h
  | lookup name' =>
    rcases step_lookup_cases s name' with ⟨hstep, -⟩ | ⟨hnone, t', -, hstep⟩
    · rwa [hstep]
    · have hne : name' ≠ name := by
        rintro rfl
        rw [h] at hnone
        cases hnone
      simpa [hstep, remembered?, hne] using h

/-- What is remembered behind an event was remembered, or the event has found it. -/
theorem of_remembered?_step (h : (s.step here e).remembered? name = some t) :
    s.remembered? name = some t ∨ e = .lookup name ∧ s.answer here name = .ok t := by
  cases e with
  | change f => exact .inl h
  | lookup name' =>
    rcases step_lookup_cases s name' with ⟨hstep, -⟩ | ⟨-, t', hanswer, hstep⟩
    · exact .inl (by rwa [hstep] at h)
    · by_cases hne : name' = name
      · subst hne
        have ht : t' = t := by simpa [hstep, remembered?] using h
        exact .inr ⟨rfl, ht ▸ hanswer⟩
      · exact .inl (by simpa [hstep, remembered?, hne] using h)

@[simp] theorem location_step (s : Scene) (e : Event) :
    (s.step here e).source.location = s.source.location := by
  cases e with
  | change f => rfl
  | lookup name =>
    rcases @step_lookup_cases here s name with ⟨hstep, -⟩ | ⟨-, t, -, hstep⟩ <;> rw [hstep]

/-! ### What a run does -/

theorem remembered?_after (h : s.remembered? name = some t) (events : List Event) :
    (s.after here events).remembered? name = some t := by
  induction events generalizing s with
  | nil => exact h
  | cons e events ih => exact ih (remembered?_step h e)

@[simp] theorem location_after (s : Scene) (events : List Event) :
    (s.after here events).source.location = s.source.location := by
  induction events generalizing s with
  | nil => rfl
  | cons e events ih => exact (ih (s.step here e)).trans (location_step s e)

/-- Behind a lookup that finds a snippet, every lookup gives the same text. -/
theorem answer_after_found (hlook : before ++ [.lookup name] <+: events)
    (hfound : (s.after here before).answer here name = .ok t) :
    (s.after here events).answer here name = .ok t := by
  obtain ⟨rest, rfl⟩ := hlook
  rw [after_append, after_concat]
  exact answer_of_remembered (remembered?_after (remembered?_step_lookup hfound) rest)

/-- What a fresh source remembers, a lookup has found. -/
theorem exists_firstHit (hs : s.remembered? name = none)
    (h : (s.after here events).remembered? name = some t) :
    ∃ before, FirstHit here s name events before := by
  induction events using List.reverseRecOn generalizing t with
  | nil =>
    rw [after, List.foldl_nil, hs] at h
    cases h
  | append_singleton events e ih =>
    cases hrem : (s.after here events).remembered? name with
    | some t' =>
      obtain ⟨before, hhit⟩ := ih hrem
      exact ⟨before, hhit.looked.trans (List.prefix_append _ _), hhit.found, hhit.first⟩
    | none =>
      rw [after_concat] at h
      rcases of_remembered?_step h with hold | ⟨rfl, hanswer⟩
      · rw [hrem] at hold
        cases hold
      · refine ⟨events, List.prefix_rfl, ⟨t, hanswer⟩, fun earlier t' hle hearlier => ?_⟩
        have hback := remembered?_step_lookup hearlier
        obtain ⟨rest, hrest⟩ := hle
        rw [← hrest, after_append, after_concat, remembered?_after hback] at hrem
        cases hrem

/-- In front of the first lookup that finds a snippet, the source does not remember it. -/
theorem FirstHit.not_remembered (h : FirstHit here s name events before)
    (hs : s.remembered? name = none) : (s.after here before).remembered? name = none := by
  cases hrem : (s.after here before).remembered? name with
  | none => rfl
  | some t =>
    obtain ⟨earlier, hearlier⟩ := exists_firstHit hs hrem
    obtain ⟨t', hfound⟩ := hearlier.found
    exact absurd hfound (h.first earlier t' hearlier.looked)

end Scene

open Scene

/-- Whatever happens to files between lookups: a name that was found gives the text that its file
held when that was first so. A name that was not is found if its file is there now and holds a text.
Leaving out a lookup that fails makes no difference to what comes after it. -/
theorem answer_after (location : SnippetLocation) (fs : FileSystem) (here : List Text)
    (events : List Event) (name : Text) :
    let s : Scene := ⟨fs, ⟨location, []⟩⟩
    (∀ before, FirstHit here s name events before →
      ∃ content t, location.HasFile (s.after here before).files here name content
        ∧ content.text? = some t ∧ (s.after here before).answer here name = .ok t
        ∧ (s.after here events).answer here name = .ok t)
    ∧ ((∀ before, ¬ FirstHit here s name events before) →
      ∀ t, (s.after here events).answer here name = .ok t
        ↔ ∃ content, location.HasFile (s.after here events).files here name content
          ∧ content.text? = some t)
    ∧ (∀ fault rest, (s.after here events).answer here name = .error fault →
      s.after here (events ++ .lookup name :: rest) = s.after here (events ++ rest)) := by
  intro s
  refine ⟨fun before hhit => ?_, fun hnone t => ?_, fun fault rest hfault => ?_⟩
  · obtain ⟨t, hfound⟩ := hhit.found
    have hread := hfound
    rw [answer_of_not_remembered (hhit.not_remembered rfl), location_after] at hread
    obtain ⟨content, hfile, htext⟩ := SnippetLocation.read_eq_ok.1 hread
    exact ⟨content, t, hfile, htext, hfound, answer_after_found hhit.looked hfound⟩
  · have hrem : (s.after here events).remembered? name = none := by
      cases hrem : (s.after here events).remembered? name with
      | none => rfl
      | some t =>
        obtain ⟨before, hhit⟩ := exists_firstHit rfl hrem
        exact absurd hhit (hnone before)
    rw [answer_of_not_remembered hrem, location_after]
    exact SnippetLocation.read_eq_ok
  · rw [List.append_cons, after_append, after_concat, step_lookup_of_error hfault, after_append]

theorem answer_after_overwrite :
    let a : Text := ['a']
    let file (t : Text) : Event := .change (·.put [['s'], a] (.file (.text t)))
    let s : Scene := ⟨⟨[([['s']], .directory)]⟩, ⟨.directory (Path.ofText ['s']), []⟩⟩
    let events : List Event :=
      [.lookup a, file ['1'], .lookup a, file ['2'], .lookup a, .change (·.remove [['s'], a])]
    FirstHit [] s a events [.lookup a, file ['1']]
      ∧ (s.after [] events).answer [] a = .ok ['1'] := by
  intro a file s events
  have hhit : FirstHit [] s a events [.lookup a, file ['1']] := by
    refine ⟨⟨[file ['2'], .lookup a, .change (·.remove [['s'], a])], rfl⟩, ⟨['1'], by rfl⟩, ?_⟩
    rintro (_ | ⟨e, _ | ⟨e', es⟩⟩) t hle hfound
    · have hmissing : (s.after [] []).answer [] a = .error (.snippetNotFound a ['s']) := by rfl
      rw [hmissing] at hfound
      cases hfound
    · simp [file] at hle
    · simp at hle
  obtain ⟨content, t, -, -, hfound, hlater⟩ :=
    (answer_after (.directory (Path.ofText ['s'])) ⟨[([['s']], .directory)]⟩ [] events a).1 _ hhit
  have htext : (s.after [] [.lookup a, file ['1']]).answer [] a = .ok ['1'] := by rfl
  rw [htext] at hfound
  cases hfound
  exact ⟨hhit, hlater⟩

end SnippetSource

end BalMediation
