import BalMediation.Archive
import BalMediation.Bal
import BalMediation.Project
import BalMediation.Proofs.Actions
import BalMediation.Proofs.Segments

/-!
# Projects in the making

What each step that makes and fills a project leaves in the file tree. A new project stands where
nothing stood (`Fresh`), so putting its manifest and the definition into it changes nothing else.
Every step says both what it gives and what it leaves, also where it fails.

The tool is known by its replies alone. It writes below the directory that its command names
(`Reply.Confined`).
-/

namespace BalMediation

/-! ## Fresh projects -/

theorem Text.slash_not_mem_ofInt (n : Int) : '/' ∉ Text.ofInt n := by
  intro h
  rcases eq_or_isDigit_of_mem_ofInt h with h | h
  · exact absurd h (by decide)
  · exact absurd h (by decide)

theorem Project.isName_directoryName {moment : Moment} {name : Text}
    (h : Project.directoryName moment = .ok name) : Path.IsName name := by
  cases moment with
  | endless => cases h
  | milliseconds count =>
    cases h
    refine ⟨by simp, by simp, ?_⟩
    rw [List.mem_append, not_or]
    exact ⟨by decide, Text.slash_not_mem_ofInt count⟩

namespace FileSystem

/-- A path leads to a location where nothing stands, and nothing below it. -/
structure Fresh (fs : FileSystem) (here : List Text) (path : Path) (project : List Text) :
    Prop where
  resolved : fs.resolve here path = .ok project
  empty : ∀ names, fs.entryAt? (project ++ names) = none

variable {fs left : FileSystem} {here project : List Text} {path : Path}

/-- The tree with a project that holds a manifest. -/
def withManifest (fs : FileSystem) (project : List Text) : FileSystem :=
  (fs.put project .directory).put (project ++ [Project.manifest]) (.file (.text []))

/-- The tree with a project that holds a manifest and the definition, if there is one. -/
def withProject (fs : FileSystem) (project : List Text) : Option Text → FileSystem
  | none => fs.withManifest project
  | some t =>
    (fs.withManifest project).put (project ++ [Archive.definitionFile]) (.file (.text t))

/-- The tree with a document that was generated from the one of this name. -/
def withGenerated (fs : FileSystem) (project : List Text) (name t : Text) : FileSystem :=
  fs.put (project ++ [Project.generatedMark ++ name]) (.file (.text t))

theorem exists_fresh (ht : fs.IsTree) {made : FileSystem}
    (h : fs.makeDirectory here path = .ok made) :
    ∃ project, fs.Fresh here path project ∧ made = fs.put project .directory := by
  unfold makeDirectory at h
  cases hproject : fs.resolve here path with
  | error e =>
    rw [hproject] at h
    cases h
  | ok project =>
    rw [hproject] at h
    simp only [bind, Except.bind] at h
    split at h
    · cases h
    · rename_i hnone
      cases h
      exact ⟨project, ⟨hproject, ht.entryAt?_below hnone⟩, rfl⟩

namespace Fresh

variable (h : fs.Fresh here path project)

include h

theorem ne_nil : project ≠ [] := by
  rintro rfl
  exact absurd (h.empty []) (Option.some_ne_none Entry.directory)

/-- Directories stay where they are when something is put into the project. -/
theorem directory_put
    (hdir : ∀ l, fs.entryAt? l = some .directory → left.entryAt? l = some .directory)
    (names : List Text) (entry : Entry) (l : List Text) (hl : fs.entryAt? l = some .directory) :
    (left.put (project ++ names) entry).entryAt? l = some .directory := by
  rw [entryAt?_put_of_ne left (by simp [h.ne_nil]), hdir l hl]
  rintro rfl
  rw [h.empty names] at hl
  cases hl

theorem directory_made (l : List Text) (hl : fs.entryAt? l = some .directory) :
    (fs.put project .directory).entryAt? l = some .directory := by
  have := h.directory_put (fun l hl => hl) [] .directory l hl
  rwa [List.append_nil] at this

/-- A name is free in the project as long as it is not put there. -/
theorem resolve_below
    (hdir : ∀ l, fs.entryAt? l = some .directory → left.entryAt? l = some .directory)
    (hproject : left.entryAt? project = some .directory) (name : Text)
    (hname : utf8Size name ≤ maxNameSize) (hup : name ≠ "..".toList)
    (hpath : utf8Size (path.below name).toText ≤ maxPathSize) :
    left.resolve here (path.below name) = .ok (project ++ [name]) :=
  FileSystem.resolve_below (resolve_mono hdir h.resolved) hproject hname hup hpath

theorem touch_manifest : (fs.put project .directory).touch here (path.below Project.manifest)
    = if maxPathSize < utf8Size (path.below Project.manifest).toText then .error .nameTooLong
      else .ok (fs.withManifest project) := by
  split_ifs with hpath
  · rw [touch, resolve_eq, if_pos hpath]
    rfl
  · have hresolve := h.resolve_below h.directory_made (entryAt?_put_self fs h.ne_nil _)
      Project.manifest (by decide) (by decide) (Nat.not_lt.1 hpath)
    have hnone : (fs.put project .directory).entryAt? (project ++ [Project.manifest]) = none := by
      rw [entryAt?_put_of_ne fs h.ne_nil (by simp), h.empty]
    simp only [touch, hresolve, bind, Except.bind, hnone]
    rfl

theorem entryAt?_withManifest :
    (fs.withManifest project).entryAt? project = some .directory := by
  rw [withManifest, entryAt?_put_of_ne _ (by simp) (by simp), entryAt?_put_self fs h.ne_nil]

theorem directory_withManifest (l : List Text) (hl : fs.entryAt? l = some .directory) :
    (fs.withManifest project).entryAt? l = some .directory :=
  h.directory_put h.directory_made [Project.manifest] _ l hl

theorem write_definition (hp : path.parts ≠ [])
    (hpath : utf8Size (path.below Project.manifest).toText ≤ maxPathSize) (t : Text) :
    (fs.withManifest project).write here (path.below Archive.definitionFile) (.text t)
      = .ok (fs.withProject project (some t)) := by
  have hshort : utf8Size (path.below Archive.definitionFile).toText ≤ maxPathSize := by
    rw [Path.toText_below hp, utf8Size_append] at hpath ⊢
    have hnames : utf8Size ('/' :: Archive.definitionFile)
        ≤ utf8Size ('/' :: Project.manifest) := by decide
    omega
  have hresolve := h.resolve_below h.directory_withManifest h.entryAt?_withManifest
    Archive.definitionFile (by decide) (by decide) hshort
  have hnone : (fs.withManifest project).entryAt? (project ++ [Archive.definitionFile]) = none := by
    rw [withManifest, entryAt?_put_of_ne _ (by simp) (by simp; decide),
      entryAt?_put_of_ne fs h.ne_nil (by simp), h.empty]
  simp only [write, hresolve, bind, Except.bind, hnone]
  rfl

theorem directory_withProject (definition : Option Text) (l : List Text)
    (hl : fs.entryAt? l = some .directory) :
    (fs.withProject project definition).entryAt? l = some .directory := by
  cases definition with
  | none => exact h.directory_withManifest l hl
  | some t => exact h.directory_put h.directory_withManifest [Archive.definitionFile] _ l hl

/-- Outside of the project the tree stays as it was. -/
theorem entryAt?_withProject (definition : Option Text) {l : List Text} (hl : ¬ project <+: l) :
    (fs.withProject project definition).entryAt? l = fs.entryAt? l := by
  have hne : ∀ names, l ≠ project ++ names := fun names => ne_append_of_not_prefix hl
  have hmade : l ≠ project := by simpa using hne []
  have hmanifest : (fs.withManifest project).entryAt? l = fs.entryAt? l := by
    rw [withManifest, entryAt?_put_of_ne _ (by simp) (hne _), entryAt?_put_of_ne _ h.ne_nil hmade]
  cases definition with
  | none => exact hmanifest
  | some t => rw [withProject, entryAt?_put_of_ne _ (by simp) (hne _), hmanifest]

end Fresh

theorem Named.withProject (h : fs.Named) (hproject : ∀ name ∈ project.getLast?, '/' ∉ name)
    (definition : Option Text) : (fs.withProject project definition).Named := by
  have hmanifest : (fs.withManifest project).Named :=
    (h.put hproject _).put_below (by decide) _
  cases definition with
  | none => exact hmanifest
  | some t => exact hmanifest.put_below (by decide) _

end FileSystem

/-! ## The steps of a run -/

namespace Reply

/-- The tool writes below the directory that its command names. A tool that is called like the
option that names the directory writes nothing. -/
def Confined (executable : Text) (r : Reply) : Prop :=
  ∀ f ∈ r.files, executable ≠ "-o".toList
    ∧ FileSystem.staysBelow 0 (Path.ofText f.1).parts = true

end Reply

namespace Workspace

/-- The files that the tool writes with its next reply. -/
def nextFiles (ws : Workspace) : List (Text × Content) :=
  (ws.replies.head?.map Reply.files).getD []

/-- The workspace when a command has been launched, before its reply writes anything. -/
def launching (ws : Workspace) (command : List Text) : Workspace :=
  { ws with launched := ws.launched ++ [command], replies := ws.replies.tail }

theorem confined_nextFiles {ws : Workspace} {executable : Text}
    (hr : ∀ r ∈ ws.replies, r.Confined executable) :
    ∀ f ∈ ws.nextFiles, executable ≠ "-o".toList
      ∧ FileSystem.staysBelow 0 (Path.ofText f.1).parts = true := by
  intro f hf
  unfold nextFiles at hf
  cases hreplies : ws.replies with
  | nil => simp [hreplies] at hf
  | cons r replies =>
    rw [hreplies] at hf
    exact hr r (by simp [hreplies]) f hf

end Workspace

namespace Bal

/-- Asking for the home of the distribution leaves the files alone. -/
theorem home_left {ws : Workspace} {executable : Text}
    (hr : ∀ r ∈ ws.replies, r.Confined executable) :
    ((home executable).outcome ws).2 = ws.launching [executable, "home".toList] := by
  have hleft : ((Action.launch [executable, "home".toList]).outcome ws).2
      = ws.launching [executable, "home".toList] := by
    rw [Action.launch_left]
    by_cases hexe : executable = "-o".toList
    · have hnone : (ws.replies.head?.map Reply.files).getD [] = [] := by
        refine List.eq_nil_iff_forall_not_mem.2 fun f hf => ?_
        exact (Workspace.confined_nextFiles hr f hf).1 hexe
      rw [hnone, Workspace.writeOutput_nil]
      rfl
    · have hnone : Workspace.outputArgument? [executable, "home".toList] = none := by
        rw [Workspace.outputArgument?, if_neg hexe]
        rfl
      rw [Workspace.writeOutput, hnone]
      rfl
  rw [home, Action.outcome_bind, ← hleft]
  rcases (Action.launch [executable, "home".toList]).outcome ws with ⟨_ | _, left⟩
  · rfl
  · dsimp only
    split <;> rfl

theorem launcher_ne {fs : FileSystem} {here : List Text} {home : Path} {executable launcher : Text}
    (h : command fs here (some home) executable = .ok launcher)
    (hexe : executable ≠ "-o".toList) : launcher ≠ "-o".toList := by
  obtain ⟨found, -, h⟩ := bind_ok h
  cases h
  split
  · have hslash : '/' ∈ (home.child "bin/bal".toList).toText := by
      have htext : Path.ofText "bin/bal".toList = ⟨.here, ["bin".toList, "bal".toList]⟩ := by
        decide +kernel
      have hbelow : home.child "bin/bal".toList = (home.below "bin".toList).below "bal".toList := by
        rw [Path.child, htext]
        change Path.mk home.anchor (home.parts ++ ["bin".toList, "bal".toList]) = _
        simp only [Path.below, List.append_assoc, List.singleton_append]
      rw [hbelow, Path.toText_below (by simp [Path.below])]
      simp
    intro heq
    rw [heq] at hslash
    exact absurd hslash (by decide)
  · exact hexe

theorem outputArgument?_generateCommand {launcher : Text} (h : launcher ≠ "-o".toList)
    {path : Path} (hp : path.parts ≠ []) :
    Workspace.outputArgument? (generateCommand launcher (path.below Archive.definitionFile) path)
      = some path.toText := by
  have hdefinition : (path.below Archive.definitionFile).toText ≠ "-o".toList := by
    have hslash : '/' ∈ (path.below Archive.definitionFile).toText := by
      rw [Path.toText_below hp]
      simp
    intro heq
    rw [heq] at hslash
    exact absurd hslash (by decide)
  have hopenapi : "openapi".toList ≠ "-o".toList := by decide
  have hinput : "-i".toList ≠ "-o".toList := by decide
  rw [generateCommand, Workspace.outputArgument?, if_neg h, Workspace.outputArgument?,
    if_neg hopenapi, Workspace.outputArgument?, if_neg hinput, Workspace.outputArgument?,
    if_neg hdefinition, Workspace.outputArgument?, if_pos rfl]

/-- Generating a service fails before the tool is launched, or it leaves what the tool writes. -/
theorem generate_outcome (ws : Workspace) {executable : Text}
    (hr : ∀ r ∈ ws.replies, r.Confined executable) {path : Path} (hn : path.IsNormal)
    (hp : path.parts ≠ []) {project : List Text}
    (hproject : ws.files.resolve ws.here path = .ok project) (home : Path) :
    (∃ e, (generate (path.below Archive.definitionFile) path (some home) executable).outcome ws
      = (.error e, ws))
    ∨ ∃ launcher result,
      (generate (path.below Archive.definitionFile) path (some home) executable).outcome ws
        = (result, { ws.launching (generateCommand launcher
            (path.below Archive.definitionFile) path) with
          files := ws.files.putFiles project ws.nextFiles }) := by
  rw [generate, Action.outcome_bind, Action.outcome_inspect]
  cases hlauncher : command ws.files ws.here (some home) executable with
  | error e => exact .inl ⟨_, rfl⟩
  | ok launcher =>
    refine .inr ⟨launcher, ?_⟩
    let command := generateCommand launcher (path.below Archive.definitionFile) path
    have hleft : ((Action.launch command).outcome ws).2
        = { ws.launching command with files := ws.files.putFiles project ws.nextFiles } := by
      rw [Action.launch_left]
      change (ws.launching command).writeOutput command ws.nextFiles = _
      rcases hfiles : ws.nextFiles with _ | ⟨f, files⟩
      · rw [Workspace.writeOutput_nil]
        rfl
      · have hexe := (Workspace.confined_nextFiles hr f (by simp [hfiles])).1
        have houtput := outputArgument?_generateCommand (launcher_ne hlauncher hexe) hp
        refine Workspace.writeOutput_eq houtput ?_ (f :: files)
        rw [Path.ofText_toText hn hp]
        exact hproject
    dsimp only [Except.mapError]
    rw [Action.outcome_bind, ← hleft]
    rcases (Action.launch command).outcome ws with ⟨_ | _, left⟩
    · exact ⟨_, rfl⟩
    · exact ⟨_, rfl⟩

end Bal

namespace Archive

/-- The definition in an archive, if it is found and holds a text. -/
def definitionText? (fs : FileSystem) (here : List Text) (archive : Path) (suffix : Text) :
    Option Text :=
  match fs.read here archive with
  | .ok (.archive entries) =>
    match definition? entries suffix with
    | some (.text t) => some t
    | _ => none
  | _ => none

theorem readDefinition_outcome (archive : Path) (suffix : Text) (ws : Workspace) :
    match definitionText? ws.files ws.here archive suffix with
    | some t => (readDefinition archive suffix).outcome ws = (.ok t, ws)
    | none => ∃ e, (readDefinition archive suffix).outcome ws = (.error e, ws) := by
  unfold readDefinition definitionText?
  rw [Action.outcome_get]
  cases ws.files.read ws.here archive with
  | error e => cases e <;> exact ⟨_, rfl⟩
  | ok content =>
    cases content with
    | blob b => exact ⟨_, rfl⟩
    | archive entries =>
      dsimp only
      rcases definition? entries suffix with _ | t | bytes
      · exact ⟨_, rfl⟩
      · rfl
      · exact ⟨_, rfl⟩

/-- A definition that is found and decoded is written into the new project. -/
theorem extractDefinition_outcome {fs : FileSystem} {ws : Workspace} {path : Path}
    {project : List Text} (h : fs.Fresh ws.here path project)
    (hws : ws.files = fs.withManifest project) (hp : path.parts ≠ [])
    (hpath : FileSystem.utf8Size (path.below Project.manifest).toText ≤ FileSystem.maxPathSize)
    (archive : Path) (suffix : Text) :
    match definitionText? ws.files ws.here archive suffix with
    | some t => (extractDefinition archive path suffix).outcome ws
        = (.ok (path.below definitionFile), { ws with files := fs.withProject project (some t) })
    | none => ∃ e, (extractDefinition archive path suffix).outcome ws = (.error e, ws) := by
  have hread := readDefinition_outcome archive suffix ws
  unfold extractDefinition
  cases hdefinition : definitionText? ws.files ws.here archive suffix with
  | none =>
    rw [hdefinition] at hread
    obtain ⟨e, he⟩ := hread
    exact ⟨e, Action.outcome_bind_error he _⟩
  | some t =>
    rw [hdefinition] at hread
    dsimp only
    rw [Action.outcome_bind_ok hread, Path.child_name path (by decide : Path.IsName definitionFile),
      Action.outcome_bind, Action.outcome_writeText, hws, h.write_definition hp hpath t]
    rfl

end Archive

namespace Project

/-- The path of a new project, if its directory can be made. -/
def newPath (fs : FileSystem) (here : List Text) (workingDir : Path) (moment : Moment) :
    Except Error Path := do
  let path := workingDir.below (← directoryName moment)
  let _ ← (fs.makeDirectory here path).mapError .system
  return path

theorem length_directoryName {moment : Moment} {name : Text}
    (h : directoryName moment = .ok name) : 10 ≤ name.length := by
  cases moment with
  | endless => cases h
  | milliseconds count =>
    cases h
    rw [List.length_append, show "bal_proxy_".toList.length = 10 by decide]
    omega

/-- A new project has a normal path and stands where nothing stood. -/
theorem exists_of_newPath {fs : FileSystem} (ht : fs.IsTree) {here : List Text} {workingDir : Path}
    (hn : workingDir.IsNormal) {moment : Moment} {path : Path}
    (h : newPath fs here workingDir moment = .ok path) :
    path.IsNormal ∧ path.parts ≠ [] ∧ ∃ project, fs.Fresh here path project
      ∧ fs.makeDirectory here path = .ok (fs.put project .directory)
      ∧ ∀ name ∈ project.getLast?, '/' ∉ name := by
  obtain ⟨name, hname, h⟩ := bind_ok h
  obtain ⟨made, hmade, h⟩ := bind_ok h
  cases h
  have hisName := isName_directoryName hname
  obtain ⟨project, hfresh, rfl⟩ := FileSystem.exists_fresh ht (mapError_ok hmade)
  refine ⟨hn.below hisName, by simp [Path.below], project, hfresh, mapError_ok hmade, ?_⟩
  have hup : name ≠ "..".toList := by
    rintro rfl
    exact absurd (length_directoryName hname) (by decide)
  have hlast := FileSystem.follow_of_walk (FileSystem.resolve_ok_iff.1 hfresh.resolved).2
  rw [show (workingDir.below name).parts = workingDir.parts ++ [name] from rfl,
    FileSystem.follow_below _ _ hup] at hlast
  simpa [hlast] using hisName.2.2

theorem create_of_error (ws : Workspace) {workingDir : Path} {moment : Moment} {e : Error}
    (h : newPath ws.files ws.here workingDir moment = .error e) :
    (create workingDir moment).outcome ws = (.error e, ws) := by
  rw [create, Action.outcome_bind, Action.outcome_ofExcept]
  unfold newPath at h
  cases hname : directoryName moment with
  | error e =>
    rw [hname] at h
    cases h
    rfl
  | ok name =>
    rw [hname] at h
    simp only [bind, Except.bind] at h
    dsimp only
    rw [Path.child_name workingDir (isName_directoryName hname)]
    have hmake := Action.outcome_update (·.makeDirectory · (workingDir.below name)) ws
    cases hmade : ws.files.makeDirectory ws.here (workingDir.below name) with
    | error e =>
      rw [hmade] at h hmake
      cases h
      exact Action.outcome_bind_error hmake _
    | ok made =>
      rw [hmade] at h
      cases h

/-- A project that is made gets its manifest, unless the path of the manifest is too long. -/
theorem create_of_ok (ws : Workspace) {workingDir : Path} {moment : Moment} {path : Path}
    (h : newPath ws.files ws.here workingDir moment = .ok path) {project : List Text}
    (hfresh : ws.files.Fresh ws.here path project)
    (hmade : ws.files.makeDirectory ws.here path = .ok (ws.files.put project .directory)) :
    (create workingDir moment).outcome ws
      = if FileSystem.maxPathSize < FileSystem.utf8Size (path.below manifest).toText then
          (.error (.system .nameTooLong), { ws with files := ws.files.put project .directory })
        else (.ok path, { ws with files := ws.files.withManifest project }) := by
  obtain ⟨name, hname, h⟩ := bind_ok h
  obtain ⟨-, -, h⟩ := bind_ok h
  cases h
  have hofExcept : (Action.ofExcept (directoryName moment)).outcome ws = (.ok name, ws) := by
    rw [Action.outcome_ofExcept, hname]
  have hmake := Action.outcome_update (·.makeDirectory · (workingDir.below name)) ws
  rw [hmade] at hmake
  have htouch := Action.outcome_update (·.touch · ((workingDir.below name).below manifest))
    { ws with files := ws.files.put project .directory }
  dsimp only at htouch
  rw [hfresh.touch_manifest] at htouch
  unfold create
  rw [Action.outcome_bind_ok hofExcept, Path.child_name workingDir (isName_directoryName hname)]
  refine (Action.outcome_bind_ok hmake _).trans ?_
  rw [Path.child_name _ (by decide : Path.IsName manifest)]
  split_ifs at htouch ⊢
  · exact Action.outcome_bind_error htouch _
  · exact Action.outcome_bind_ok htouch _

theorem slash_not_mem_of_list {fs : FileSystem} (h : fs.Named) {here : List Text} {path : Path}
    {listed : List (Text × Entry)} (hlisted : fs.list here path = .ok listed) {f : Text × Entry}
    (hf : f ∈ listed) : '/' ∉ f.1 := by
  unfold FileSystem.list at hlisted
  split at hlisted
  · split at hlisted
    · cases hlisted
      cases hf
    · cases hlisted
  · cases hlisted
    obtain ⟨e, he, hname⟩ := List.mem_filterMap.1 hf
    dsimp only at hname
    split at hname
    · rename_i name hlast
      split_ifs at hname
      cases hname
      exact h e he name hlast
    · cases hname

theorem of_mem_documentNames {fs : FileSystem} (h : fs.Named) {here : List Text} {path : Path}
    {names : List Text} (hnames : documentNames fs here path = .ok names) {name : Text}
    (hname : name ∈ names) : '/' ∉ name ∧ ".bal".toList <:+ name := by
  obtain ⟨listed, hlisted, hnames⟩ := bind_ok hnames
  cases hnames
  rw [List.mem_mergeSort, List.mem_filter, List.mem_map] at hname
  obtain ⟨⟨f, hf, rfl⟩, hbal⟩ := hname
  rw [Bool.and_eq_true, List.isSuffixOf_iff_suffix] at hbal
  exact ⟨slash_not_mem_of_list h hlisted hf, hbal.1⟩

/-- The document of a name in a directory. -/
def documentAt (ws : Workspace) (path : Path) (name : Text) : Except Error Document := do
  return ⟨name, ← ws.textAt (path.below name)⟩

/-- The project that loading finds. -/
def loaded (ws : Workspace) (path : Path) (home : Option Path) : Except Error Project := do
  let names ← (documentNames ws.files ws.here path).mapError .system
  return ⟨path, home, ← names.mapM (documentAt ws path)⟩

/-- Loading a project only reads. -/
theorem outcome_load (path : Path) (home : Option Path) (ws : Workspace) :
    (load path home).outcome ws = (loaded ws path home, ws) := by
  have hdocument : ∀ name, (do
      return { name, text := ← Action.readText (path ++ ⟨.here, [name]⟩) : Document } :
        Action Document).outcome ws = (documentAt ws path name, ws) := by
    intro name
    have hread : (Action.readText (path ++ ⟨.here, [name]⟩)).outcome ws
        = (ws.textAt (path.below name), ws) := Action.outcome_readText _ ws
    rw [Action.outcome_bind, hread, documentAt]
    cases ws.textAt (path.below name) <;> rfl
  rw [load, loaded, Action.outcome_bind, Action.outcome_inspect]
  cases documentNames ws.files ws.here path with
  | error e => rfl
  | ok names =>
    dsimp only [Except.mapError]
    rw [Action.outcome_bind, Action.outcome_mapM hdocument]
    simp only [bind, Except.bind]
    cases names.mapM (documentAt ws path) <;> rfl

/-- A document that is found in a loaded project is the text of a file in its directory. -/
theorem exists_of_find {ws : Workspace} (h : ws.files.Named) {path : Path} {home : Option Path}
    {p : Project} (hload : loaded ws path home = .ok p) {name : Text} {d : Document}
    (hfind : p.find name = .ok d) :
    p.path = path ∧ '/' ∉ name ∧ ".bal".toList <:+ name
      ∧ ∃ t, d = ⟨name, t⟩ ∧ ws.textAt (path.below name) = .ok t := by
  obtain ⟨names, hnames, hload⟩ := bind_ok hload
  obtain ⟨documents, hdocuments, hload⟩ := bind_ok hload
  cases hload
  unfold find at hfind
  split at hfind
  · rename_i d' hd'
    cases hfind
    obtain ⟨name', hname', hd⟩ := exists_of_mapM hdocuments (List.mem_of_find?_eq_some hd')
    obtain ⟨t, ht, hd⟩ := bind_ok hd
    cases hd
    have heq : name' = name := by simpa using List.find?_some hd'
    subst heq
    obtain ⟨hslash, hbal⟩ := of_mem_documentNames h (mapError_ok hnames) hname'
    exact ⟨rfl, hslash, hbal, t, rfl, ht⟩
  · cases hfind

theorem length_generated (name : Text) : (generatedMark ++ name).length = 11 + name.length := by
  rw [List.length_append, show generatedMark.length = 11 by decide]

theorem isName_generated {name : Text} (h : '/' ∉ name) : Path.IsName (generatedMark ++ name) := by
  have hlength := length_generated name
  refine ⟨?_, ?_, ?_⟩
  · intro hnil
    rw [hnil] at hlength
    exact absurd hlength (by simp; omega)
  · intro hdot
    rw [hdot] at hlength
    exact absurd hlength (by simp; omega)
  · rw [List.mem_append, not_or]
    exact ⟨by decide, h⟩

/-- Where the file of a document stands. -/
theorem entryAt?_of_read {fs fs' : FileSystem} {here : List Text} {path : Path}
    {project : List Text} (hproject : fs'.resolve here path = .ok project) {name : Text}
    (hbal : ".bal".toList <:+ name) {content : Content}
    (hread : fs.read here (path.below name) = .ok content) :
    fs.entryAt? (project ++ [name]) = some (.file content) := by
  have hup : name ≠ "..".toList := by
    rintro rfl
    exact absurd hbal (by decide)
  obtain ⟨l, hl, hread⟩ := bind_ok hread
  rw [FileSystem.location_below hproject hup hl] at hread
  split at hread
  · cases hread
  · cases hread
  · rename_i hentry
    cases hread
    exact hentry

/-- Writing a document fails without a trace, or it puts one file into the project. -/
theorem write_outcome {ws : Workspace} {fs : FileSystem} {path : Path} {project : List Text}
    (hproject : fs.resolve ws.here path = .ok project) {d : Document} (hslash : '/' ∉ d.name) :
    (∃ e, (write d path).outcome ws = (.error e, ws))
    ∨ (write d path).outcome ws = (.ok (path.below (generatedMark ++ d.name)),
        { ws with files := ws.files.withGenerated project d.name d.text }) := by
  have hup : generatedMark ++ d.name ≠ "..".toList := by
    intro heq
    have hlength := length_generated d.name
    rw [heq] at hlength
    exact absurd hlength (by simp; omega)
  unfold write
  rw [Path.child_name path (isName_generated hslash)]
  dsimp only
  rw [Action.outcome_bind, Action.outcome_writeText]
  cases hfiles : ws.files.write ws.here (path.below (generatedMark ++ d.name)) (.text d.text) with
  | error e => exact .inl ⟨_, rfl⟩
  | ok files =>
    obtain ⟨l, hl, -, rfl⟩ := FileSystem.write_ok hfiles
    obtain rfl := FileSystem.location_below hproject hup hl
    exact .inr rfl

end Project

end BalMediation
