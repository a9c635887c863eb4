import BalMediation.Proofs.Appending
import BalMediation.Proofs.Projects

/-!
# Cycles

A cycle loads a project, mediates one of its documents and writes the result beside it. What it
writes is called like no document, so loading does not see it: if a cycle succeeds, then all that
follow do, load the same documents and write the same text into the same file (`cycle_repeats`).

File trees have no links here, so two names never lead to one file.
-/

namespace BalMediation

/-! ## Actions that are run again -/

namespace Action

variable {α β : Type} {a : Action α} {f : α → Action β} {r : Except Error α}
  {ws mid left : Workspace} {y : β}

theorem exists_of_bind (ha : a.outcome ws = (r, mid))
    (h : (a >>= f).outcome ws = (.ok y, left)) :
    ∃ x, r = .ok x ∧ (f x).outcome mid = (.ok y, left) := by
  rw [outcome_bind, ha] at h
  cases r with
  | error e => cases h
  | ok x => exact ⟨x, rfl, h⟩

/-- The workspace that is left when an action has been run a number of times. -/
def after (a : Action α) : Nat → Workspace → Workspace
  | 0, ws => ws
  | n + 1, ws => (a.outcome (after a n ws)).2

theorem after_succ (a : Action α) (n : Nat) (ws : Workspace) :
    a.after (n + 1) ws = (a.outcome (a.after n ws)).2 :=
  rfl

end Action

/-! ## Names in a directory -/

namespace FileSystem

variable {fs fs' : FileSystem} {here location : List Text} {name : Text} {p : Path}

/-- The names of what stands directly in a directory. -/
def namesIn (fs : FileSystem) (location : List Text) : List Text :=
  fs.entries.filterMap fun e =>
    match e.1.getLast? with
    | some name => if e.1.dropLast = location then some name else none
    | none => none

theorem list_of_resolve (h : fs.resolve here p = .ok location) :
    ∃ listed, fs.list here p = .ok listed ∧ listed.map (·.1) = fs.namesIn location := by
  unfold list
  rw [h]
  refine ⟨_, rfl, ?_⟩
  rw [namesIn, List.map_filterMap]
  congr 1
  funext ⟨place, entry⟩
  dsimp only
  cases place.getLast? with
  | none => rfl
  | some name => by_cases hplace : place.dropLast = location <;> simp [hplace]

theorem mem_namesIn_of_entryAt? {entry : Entry}
    (h : fs.entryAt? (location ++ [name]) = some entry) : name ∈ fs.namesIn location := by
  have hmem := mem_entries_of_entryAt? (by simp) h
  exact List.mem_filterMap.2 ⟨_, hmem, by simp⟩

/-- An entry that is put into a directory changes none of the other names in it. -/
theorem filter_namesIn_put (fs : FileSystem) (project location : List Text) (entry : Entry)
    {keep : Text → Bool} (h : keep name = false) :
    ((fs.put (project ++ [name]) entry).namesIn location).filter keep
      = (fs.namesIn location).filter keep := by
  unfold put namesIn
  split
  · rw [List.filterMap_map]
    congr 2
    funext e
    have hplace : (if e.1 = project ++ [name] then (project ++ [name], entry) else e).1 = e.1 := by
      split_ifs with he
      · exact he.symm
      · rfl
    simp only [Function.comp, hplace]
  · rw [List.filterMap_append, List.filter_append]
    by_cases hproject : project = location <;> simp [hproject, h]

end FileSystem

/-! ## Loading -/

theorem mapM_of_imp {ε α β : Type} {f g : α → Except ε β} {as : List α} {bs : List β}
    (h : as.mapM f = .ok bs) (hfg : ∀ a ∈ as, ∀ b, f a = .ok b → g a = .ok b) :
    as.mapM g = .ok bs := by
  induction as generalizing bs with
  | nil => exact h
  | cons a as ih =>
    rw [List.mapM_cons] at h ⊢
    obtain ⟨b, hb, h⟩ := bind_ok h
    obtain ⟨bs, hbs, h⟩ := bind_ok h
    rw [hfg a List.mem_cons_self b hb, ih hbs fun c hc => hfg c (List.mem_cons_of_mem a hc)]
    exact h

namespace Project

/-- Whether the file of a document can be loaded by its name. -/
def isDocumentName (name : Text) : Bool :=
  ".bal".toList.isSuffixOf name && !generatedMark.isPrefixOf name

/-- A file directly in a directory whose name ends in `.bal` and is not that of a generated file. -/
structure IsDocumentFile (fs : FileSystem) (project : List Text) (name : Text)
    (content : Content) : Prop where
  entry : fs.entryAt? (project ++ [name]) = some (.file content)
  suffix : ".bal".toList <:+ name
  written : ¬ generatedMark <+: name

/-- Whether documents are the texts of all such files and of nothing else. -/
structure AreDocuments (fs : FileSystem) (project : List Text) (ds : List Document) : Prop where
  file : ∀ d ∈ ds, ∃ content, IsDocumentFile fs project d.name content
    ∧ content.text? = some d.text
  document : ∀ name content, IsDocumentFile fs project name content → ∃ d ∈ ds, d.name = name

variable {ws : Workspace} {path : Path} {home : Option Path} {project : List Text} {p : Project}
  {name t : Text} {d : Document}

theorem isDocumentName_iff :
    isDocumentName name = true ↔ ".bal".toList <:+ name ∧ ¬ generatedMark <+: name := by
  simp [isDocumentName, ← List.isSuffixOf_iff_suffix, ← List.isPrefixOf_iff_prefix]

theorem isDocumentName_generated (name : Text) :
    isDocumentName (generatedMark ++ name) = false := by
  refine Bool.eq_false_iff.2 fun h => (isDocumentName_iff.1 h).2 (List.prefix_append _ _)

theorem documentNames_of_resolve {fs : FileSystem} {here : List Text}
    (h : fs.resolve here path = .ok project) : documentNames fs here path
      = .ok (((fs.namesIn project).filter isDocumentName).mergeSort Text.le) := by
  obtain ⟨listed, hlisted, hnames⟩ := FileSystem.list_of_resolve h
  rw [← hnames, documentNames, hlisted]
  rfl

/-- The text of a file in a directory. -/
theorem exists_of_textAt (hproject : ws.files.resolve ws.here path = .ok project)
    (hbal : ".bal".toList <:+ name) (h : ws.textAt (path.below name) = .ok t) :
    ∃ content, ws.files.entryAt? (project ++ [name]) = some (.file content)
      ∧ content.text? = some t := by
  obtain ⟨content, hcontent, ht⟩ := Workspace.read_of_textAt h
  exact ⟨content, entryAt?_of_read hproject hbal hcontent, ht⟩

theorem loaded_eq_ok (hproject : ws.files.resolve ws.here path = .ok project) :
    loaded ws path home = .ok p ↔ p.path = path ∧ p.balHome = home
      ∧ (((ws.files.namesIn project).filter isDocumentName).mergeSort Text.le).mapM
        (documentAt ws path) = .ok p.documents := by
  rw [loaded, documentNames_of_resolve hproject]
  generalize ((ws.files.namesIn project).filter isDocumentName).mergeSort Text.le = names
  obtain ⟨q, qhome, documents⟩ := p
  change (names.mapM (documentAt ws path)).bind (fun ds => .ok (Project.mk path home ds)) = _ ↔ _
  cases names.mapM (documentAt ws path) with
  | error e => simp [Except.bind]
  | ok ds =>
    simp only [Except.bind, Except.ok.injEq, Project.mk.injEq]
    constructor <;> rintro ⟨rfl, rfl, rfl⟩ <;> exact ⟨rfl, rfl, rfl⟩

/-- Loading finds the documents in the directory and nothing else. -/
theorem areDocuments_of_loaded (hproject : ws.files.resolve ws.here path = .ok project)
    (h : loaded ws path home = .ok p) : AreDocuments ws.files project p.documents := by
  obtain ⟨-, -, hdocuments⟩ := (loaded_eq_ok hproject).1 h
  have hmem : ∀ n, n ∈ ((ws.files.namesIn project).filter isDocumentName).mergeSort Text.le
      ↔ n ∈ ws.files.namesIn project ∧ isDocumentName n = true := by
    simp
  constructor
  · intro d hd
    obtain ⟨n, hn, hdoc⟩ := exists_of_mapM hdocuments hd
    obtain ⟨t, ht, hdoc⟩ := bind_ok hdoc
    cases hdoc
    obtain ⟨hbal, hmark⟩ := isDocumentName_iff.1 ((hmem n).1 hn).2
    obtain ⟨content, hentry, htext⟩ := exists_of_textAt hproject hbal ht
    exact ⟨content, ⟨hentry, hbal, hmark⟩, htext⟩
  · intro n content hfile
    have hn := (hmem n).2 ⟨FileSystem.mem_namesIn_of_entryAt? hfile.entry,
      isDocumentName_iff.2 ⟨hfile.suffix, hfile.written⟩⟩
    obtain ⟨d, hd, hdoc⟩ := exists_mem_of_mapM hdocuments hn
    obtain ⟨t, -, hdoc⟩ := bind_ok hdoc
    cases hdoc
    exact ⟨_, hd, rfl⟩

/-- A project in which a document is found has a place in the tree. -/
theorem exists_resolve_of_find (h : loaded ws path home = .ok p) (hfind : p.find name = .ok d) :
    ∃ project, ws.files.resolve ws.here path = .ok project := by
  cases hresolve : ws.files.resolve ws.here path with
  | ok project => exact ⟨project, rfl⟩
  | error e =>
    have hnames : documentNames ws.files ws.here path
        = if e.isAbsence then .ok [] else .error e := by
      simp only [documentNames, FileSystem.list, hresolve]
      split_ifs
      · simp [bind, Except.bind, pure, Except.pure]
      · rfl
    unfold loaded at h
    rw [hnames] at h
    split_ifs at h
    · cases h
      cases hfind
    · cases h

/-! ## Cycles -/

/-- Loads a project, mediates one of its documents and writes the result beside it. -/
def cycle (path : Path) (home : Option Path) (name boilerplate : Text) (g : Generator)
    (width : Int) : Action Path := do
  let p ← load path home
  let d ← Action.ofExcept (p.find name)
  let patched ← Action.ofExcept (Mediation.patch d boilerplate g width)
  write patched path

/-- A workspace in which a project has been loaded, and a file generated from a document can be
written. -/
structure Ready (path : Path) (home : Option Path) (project : List Text) (p : Project)
    (name : Text) (ws : Workspace) : Prop where
  resolved : ws.files.resolve ws.here path = .ok project
  loads : loaded ws path home = .ok p
  place : ws.files.resolve ws.here (path.below (generatedMark ++ name))
    = .ok (project ++ [generatedMark ++ name])
  free : ws.files.entryAt? (project ++ [generatedMark ++ name]) ≠ some .directory

namespace Ready

variable (h : Ready path home project p name ws)

include h

/-- Putting a generated file leaves the directories as they are. -/
theorem directory (t : Text) (l : List Text) (hl : ws.files.entryAt? l = some .directory) :
    (ws.files.withGenerated project name t).entryAt? l = some .directory := by
  have hne : l ≠ project ++ [generatedMark ++ name] := by
    rintro rfl
    exact h.free hl
  rwa [FileSystem.withGenerated, FileSystem.entryAt?_put_of_ne _ (by simp) hne]

/-- Putting a generated file leaves the documents as they are. -/
theorem documentAt {title : Text} (htitle : isDocumentName title = true)
    (hd : Project.documentAt ws path title = .ok d) (t : Text) :
    Project.documentAt { ws with files := ws.files.withGenerated project name t } path title
      = .ok d := by
  obtain ⟨u, hu, hd⟩ := bind_ok hd
  cases hd
  obtain ⟨hbal, hmark⟩ := isDocumentName_iff.1 htitle
  obtain ⟨content, hread, htext⟩ := Workspace.read_of_textAt hu
  have hentry := entryAt?_of_read h.resolved hbal hread
  obtain ⟨l, hl, hl'⟩ := FileSystem.read_eq_ok.1 hread
  have hup : title ≠ "..".toList := by
    rintro rfl
    exact absurd hbal (by decide)
  obtain rfl := FileSystem.location_below h.resolved hup hl
  have hne : project ++ [title] ≠ project ++ [generatedMark ++ name] := by
    intro heq
    obtain rfl : title = generatedMark ++ name := by simpa using heq
    exact hmark (List.prefix_append _ _)
  have hread' : (ws.files.withGenerated project name t).read ws.here (path.below title)
      = .ok content := by
    refine FileSystem.read_eq_ok.2 ⟨_, FileSystem.resolve_mono (h.directory t) hl, ?_⟩
    rw [FileSystem.withGenerated, FileSystem.entryAt?_put_of_ne _ (by simp) hne, hentry]
  rw [Project.documentAt, Workspace.textAt, hread']
  simp only [htext]
  rfl

/-- A project is loaded again when a generated file has been put into it. -/
theorem put (t : Text) :
    Ready path home project p name { ws with files := ws.files.withGenerated project name t } := by
  have hproject := FileSystem.resolve_mono (h.directory t) h.resolved
  refine ⟨hproject, ?_, FileSystem.resolve_mono (h.directory t) h.place, ?_⟩
  · obtain ⟨hpath, hhome, hdocuments⟩ := (loaded_eq_ok h.resolved).1 h.loads
    refine (loaded_eq_ok hproject).2 ⟨hpath, hhome, ?_⟩
    dsimp only
    rw [FileSystem.withGenerated,
      FileSystem.filter_namesIn_put _ _ _ _ (isDocumentName_generated name)]
    refine mapM_of_imp hdocuments fun title htitle d hd => h.documentAt ?_ hd t
    simpa using (List.mem_filter.1 (List.mem_mergeSort.1 htitle)).2
  · rw [FileSystem.withGenerated, FileSystem.entryAt?_put_self _ (by simp)]
    simp

/-- One cycle puts the mediated document. -/
theorem outcome_cycle {boilerplate : Text} {g : Generator} {width : Int} {patched : Document}
    (hslash : '/' ∉ name) (hfind : p.find name = .ok d)
    (hpatch : Mediation.patch d boilerplate g width = .ok patched) (hname : patched.name = name) :
    (cycle path home name boilerplate g width).outcome ws
      = (.ok (path.below (generatedMark ++ name)),
        { ws with files := ws.files.withGenerated project name patched.text }) := by
  have hwrite : ws.files.write ws.here (path.below (generatedMark ++ name)) (.text patched.text)
      = .ok (ws.files.withGenerated project name patched.text) :=
    FileSystem.write_eq_ok.2 ⟨_, h.place, h.free, rfl⟩
  rw [cycle, Action.outcome_bind, outcome_load, h.loads]
  dsimp only
  rw [Action.outcome_bind, Action.outcome_ofExcept, hfind]
  dsimp only
  rw [Action.outcome_bind, Action.outcome_ofExcept, hpatch]
  dsimp only
  rw [write, hname, Path.child_name path (isName_generated hslash), Action.outcome_bind,
    Action.outcome_writeText, hwrite]
  rfl

end Ready

/-- What a cycle that succeeds has found. -/
theorem exists_ready (hnamed : ws.files.Named) {boilerplate : Text} {g : Generator} {width : Int}
    {output : Path} {left : Workspace}
    (h : (cycle path home name boilerplate g width).outcome ws = (.ok output, left)) :
    ∃ project p d patched, Ready path home project p name ws ∧ '/' ∉ name
      ∧ p.find name = .ok d ∧ Mediation.patch d boilerplate g width = .ok patched
      ∧ patched.name = name := by
  obtain ⟨p, hload, hfound⟩ := Action.exists_of_bind (outcome_load path home ws) h
  obtain ⟨d, hfind, hpatched⟩ := Action.exists_of_bind (Action.outcome_ofExcept _ ws) hfound
  obtain ⟨patched, hpatch, hwritten⟩ :=
    Action.exists_of_bind (Action.outcome_ofExcept _ ws) hpatched
  obtain ⟨-, hslash, hbal, t, rfl, -⟩ := exists_of_find hnamed hload hfind
  obtain ⟨project, hproject⟩ := exists_resolve_of_find hload hfind
  have hname : patched.name = name := Mediation.name_of_patch hpatch
  rw [write, hname, Path.child_name path (isName_generated hslash)] at hwritten
  cases hfiles : ws.files.write ws.here (path.below (generatedMark ++ name))
      (.text patched.text) with
  | error e =>
    rw [Action.outcome_bind, Action.outcome_writeText, hfiles] at hwritten
    cases hwritten
  | ok files =>
    obtain ⟨l, hl, hfree, -⟩ := FileSystem.write_eq_ok.1 hfiles
    have hup : generatedMark ++ name ≠ "..".toList := by
      intro heq
      have hlength := length_generated name
      rw [heq] at hlength
      exact absurd hlength (by simp; omega)
    obtain rfl := FileSystem.location_below hproject hup hl
    exact ⟨project, p, _, patched, ⟨hproject, hload, hl, hfree⟩, hslash, hfind, hpatch, hname⟩

/-- If a cycle succeeds, then so does every further one. Each loads the same documents, those in the
directory that have not been generated, and puts the same text into the same file. -/
theorem cycle_repeats {ws left : Workspace} (hnamed : ws.files.Named) {path output : Path}
    {home : Option Path} {name boilerplate : Text} {g : Generator} {width : Int}
    (hcycle : (cycle path home name boilerplate g width).outcome ws = (.ok output, left)) :
    let a := cycle path home name boilerplate g width
    ∃ project p d patched, ws.files.resolve ws.here path = .ok project
      ∧ p.find name = .ok d ∧ Mediation.patch d boilerplate g width = .ok patched
      ∧ output = path.below (generatedMark ++ name)
      ∧ ∀ n, (load path home).outcome (a.after n ws) = (.ok p, a.after n ws)
        ∧ AreDocuments (a.after n ws).files project p.documents
        ∧ a.outcome (a.after n ws) = (.ok output, a.after (n + 1) ws)
        ∧ (a.after (n + 1) ws).files
          = (a.after n ws).files.withGenerated project name patched.text := by
  intro a
  obtain ⟨project, p, d, patched, hready, hslash, hfind, hpatch, hname⟩ :=
    exists_ready hnamed hcycle
  have hstep : ∀ {ws : Workspace}, Ready path home project p name ws → a.outcome ws
      = (.ok (path.below (generatedMark ++ name)),
        { ws with files := ws.files.withGenerated project name patched.text }) :=
    fun h => h.outcome_cycle hslash hfind hpatch hname
  have houtput : output = path.below (generatedMark ++ name) := by
    have h := hcycle.symm.trans (hstep hready)
    exact Except.ok.inj (Prod.mk.inj h).1
  -- what one cycle needs, it leaves for the next one
  have hrun : ∀ n, Ready path home project p name (a.after n ws) := by
    intro n
    induction n with
    | zero => exact hready
    | succ n ih =>
      rw [Action.after_succ, hstep ih]
      exact ih.put patched.text
  refine ⟨project, p, d, patched, hready.resolved, hfind, hpatch, houtput, fun n => ?_⟩
  have hout := hstep (hrun n)
  refine ⟨?_, areDocuments_of_loaded (hrun n).resolved (hrun n).loads, ?_, ?_⟩
  · rw [outcome_load, (hrun n).loads]
  · rw [Action.after_succ, hout, houtput]
  · rw [Action.after_succ, hout]

/-- A directory that holds a generated file which is no text, and one that is no document. -/
theorem cycle_repeats_beside_bytes :
    let g := Generator.templated (SnippetLocation.bundled.read ⟨[]⟩ []) ⟨["f".toList], [], none, 4⟩
    let path : Path := ⟨.here, [['p']]⟩
    let name := "a.bal".toList
    let ws : Workspace := { files := ⟨[([['p']], .directory),
      ([['p'], name], .file (.text "service / on l \x7b\x7d\n".toList)),
      ([['p'], "_generated_b.bal".toList], .file (.blob (.bytes [255]))),
      ([['p'], "n.txt".toList], .file (.text []))]⟩ }
    let a := cycle path none name "// more\n".toList g 4
    ws.files.Named ∧ ∃ p text, ∀ n, ((load path none).outcome (a.after n ws)).1 = .ok p
      ∧ (a.outcome (a.after n ws)).1 = .ok (path.below (generatedMark ++ name))
      ∧ (a.after (n + 1) ws).files.entryAt? [['p'], generatedMark ++ name]
        = some (.file (.text text)) := by
  intro g path name ws a
  have hnamed : ws.files.Named := by decide
  have hrun : (a.outcome ws).1.toOption.isSome = true := by decide +kernel
  rcases hout : a.outcome ws with ⟨e | output, left⟩
  · rw [hout] at hrun
    cases hrun
  · obtain ⟨project, p, d, patched, hproject, -, -, houtput, hcycles⟩ := cycle_repeats hnamed hout
    obtain rfl : [['p']] = project := Except.ok.inj hproject
    refine ⟨hnamed, p, patched.text, fun n => ?_⟩
    obtain ⟨hload, -, hcycle, hfiles⟩ := hcycles n
    refine ⟨by rw [hload], by rw [hcycle, houtput], ?_⟩
    rw [hfiles]
    exact FileSystem.entryAt?_put_self _ (by simp) _

end Project

end BalMediation
