import BalMediation.Proofs.Appending
import BalMediation.Proofs.Projects
import BalMediation.Proxy

/-!
# Footprints of proxy runs

What a run of the proxy generator leaves in the file tree, wherever it ends
(`Proxy.generate_leaves`). Before the project is made nothing is changed. From then on all changes
lie below the project's directory, which was not there before: first the manifest, then the
definition if one was read, then what the tool writes, and only a run that succeeds adds the
mediated document.
-/

namespace BalMediation

namespace Proxy

/-- The end of a run: mediating the service document of a project. -/
def mediateProject (s : Settings) (o : Overrides) (path home : Path) : Action Path := do
  let project ← Project.load path (some home)
  let document ← Action.ofExcept (project.find s.serviceDocument)
  let patched ← Action.ofExcept (mediate s o (snippets s (← get)) document)
  Project.write patched project.path

/-- What a run does in its project. -/
def fillProject (archive : Path) (s : Settings) (o : Overrides) (path home : Path) :
    Action Path := do
  let definition ← Archive.extractDefinition archive path s.definitionSuffix
  Bal.generate definition path (some home) s.balExecutable
  mediateProject s o path home

theorem generate_eq (archive : Path) (s : Settings) (o : Overrides) (moment : Moment) :
    generate archive s o moment = (do
      let home ← Bal.home s.balExecutable
      let path ← Project.create s.workingDir moment
      fillProject archive s o path home) :=
  rfl

theorem name_of_mediate {s : Settings} {o : Overrides} {snippets : Snippets} {d d' : Document}
    (h : mediate s o snippets d = .ok d') : d'.name = d.name := by
  obtain ⟨b, -, h⟩ := bind_ok h
  exact Mediation.name_of_patch h

/-- A run that has come to `ws` fails there, or it writes the mediated service document of the
project and nothing else. -/
def Ends (s : Settings) (o : Overrides) (path : Path) (project : List Text) (ws : Workspace)
    (outcome : Except Error Path × Workspace) : Prop :=
  (∃ e, outcome = (.error e, ws))
  ∨ ∃ content t patched,
    ws.files.entryAt? (project ++ [s.serviceDocument]) = some (.file content)
    ∧ content.text? = some t
    ∧ mediate s o (snippets s ws) ⟨s.serviceDocument, t⟩ = .ok patched
    ∧ outcome = (.ok (path.below (Project.generatedMark ++ s.serviceDocument)),
      { ws with files := ws.files.withGenerated project s.serviceDocument patched.text })

theorem Ends.entryAt? {s : Settings} {o : Overrides} {path : Path} {project : List Text}
    {ws : Workspace} {outcome : Except Error Path × Workspace}
    (h : Ends s o path project ws outcome) {l : List Text} (hl : ¬ project <+: l) :
    outcome.2.files.entryAt? l = ws.files.entryAt? l := by
  rcases h with ⟨e, rfl⟩ | ⟨content, t, patched, -, -, -, rfl⟩
  · rfl
  · exact FileSystem.entryAt?_put_of_ne _ (by simp) (FileSystem.ne_append_of_not_prefix hl) _

theorem mediateProject_ends (ws : Workspace) (h : ws.files.Named) {fs : FileSystem} {path : Path}
    {project : List Text} (hproject : fs.resolve ws.here path = .ok project) (s : Settings)
    (o : Overrides) (home : Path) :
    Ends s o path project ws ((mediateProject s o path home).outcome ws) := by
  rw [mediateProject, Action.outcome_bind, Project.outcome_load]
  cases hload : Project.loaded ws path (some home) with
  | error e => exact .inl ⟨e, rfl⟩
  | ok p =>
    dsimp only
    rw [Action.outcome_bind, Action.outcome_ofExcept]
    cases hdocument : p.find s.serviceDocument with
    | error e => exact .inl ⟨e, rfl⟩
    | ok d =>
      obtain ⟨rfl, hslash, hbal, t, rfl, ht⟩ := Project.exists_of_find h hload hdocument
      obtain ⟨content, hcontent, ht⟩ := Workspace.read_of_textAt ht
      dsimp only
      rw [Action.outcome_get, Action.outcome_bind, Action.outcome_ofExcept]
      cases hpatched : mediate s o (snippets s ws) ⟨s.serviceDocument, t⟩ with
      | error e => exact .inl ⟨e, rfl⟩
      | ok patched =>
        have hname : patched.name = s.serviceDocument := name_of_mediate hpatched
        have hentry := Project.entryAt?_of_read hproject hbal hcontent
        rcases Project.write_outcome hproject (hname ▸ hslash) with ⟨e, he⟩ | hwrite
        · exact .inl ⟨e, he⟩
        · rw [hname] at hwrite
          exact .inr ⟨content, t, patched, hentry, ht, hpatched, hwrite⟩

/-- The workspace after the tool has generated a service into a project. -/
def generated (ws : Workspace) (launcher : Text) (path : Path) (project : List Text) : Workspace :=
  { ws.launching (Bal.generateCommand launcher (path.below Archive.definitionFile) path) with
    files := ws.files.putFiles project ws.nextFiles }

/-- What a run leaves from the moment on that its project has a manifest: it fails with what it has
extracted, or the tool generates a service and the run ends there. -/
theorem fillProject_leaves (ws : Workspace) {fs : FileSystem} (hnamed : fs.Named) {s : Settings}
    (hr : ∀ r ∈ ws.replies, r.Confined s.balExecutable) {path : Path} (hn : path.IsNormal)
    (hp : path.parts ≠ []) {project : List Text} (hfresh : fs.Fresh ws.here path project)
    (hproject : ∀ name ∈ project.getLast?, '/' ∉ name)
    (hpath : FileSystem.utf8Size (path.below Project.manifest).toText ≤ FileSystem.maxPathSize)
    (hws : ws.files = fs.withManifest project) (archive : Path) (o : Overrides) (home : Path) :
    let definition := Archive.definitionText? ws.files ws.here archive s.definitionSuffix
    let extracted := { ws with files := fs.withProject project definition }
    let outcome := (fillProject archive s o path home).outcome ws
    (∃ e, outcome = (.error e, extracted))
    ∨ definition.isSome = true ∧ ∃ launcher,
      Ends s o path project (generated extracted launcher path project) outcome := by
  have hextract := Archive.extractDefinition_outcome hfresh hws hp hpath archive s.definitionSuffix
  unfold fillProject
  dsimp only
  cases hdefinition : Archive.definitionText? ws.files ws.here archive s.definitionSuffix with
  | none =>
    rw [hdefinition] at hextract
    obtain ⟨e, he⟩ := hextract
    refine .inl ⟨e, (Action.outcome_bind_error he _).trans ?_⟩
    rw [FileSystem.withProject, ← hws]
  | some t =>
    rw [hdefinition] at hextract
    rw [Action.outcome_bind_ok hextract]
    have hresolve := FileSystem.resolve_mono (hfresh.directory_withProject (some t)) hfresh.resolved
    let extracted : Workspace := { ws with files := fs.withProject project (some t) }
    rcases Bal.generate_outcome extracted hr hn hp hresolve home with
      ⟨e, he⟩ | ⟨launcher, result, hresult⟩
    · exact .inl ⟨e, Action.outcome_bind_error he _⟩
    · refine .inr ⟨rfl, launcher, ?_⟩
      cases result with
      | error e =>
        rw [Action.outcome_bind_error hresult]
        exact .inl ⟨e, rfl⟩
      | ok u =>
        rw [Action.outcome_bind_ok hresult]
        exact mediateProject_ends (generated extracted launcher path project)
          ((hnamed.withProject hproject (some t)).putFiles _ _) hfresh.resolved s o home

/-- A run leaves nothing if the tool cannot name its home or the project cannot be made. Once the
project is made, whatever the run leaves lies in it: nothing if the path of the manifest is too
long, else the manifest, the definition if it was found and decoded, what the tool wrote, and the
mediated service document only if the run succeeds. -/
theorem generate_leaves {ws : Workspace} (ht : ws.files.IsTree) {s : Settings}
    (hn : s.workingDir.IsNormal) (hr : ∀ r ∈ ws.replies, r.Confined s.balExecutable)
    (archive : Path) (o : Overrides) (moment : Moment) :
    let asked := ws.launching [s.balExecutable, "home".toList]
    let outcome := (generate archive s o moment).outcome ws
    match ((Bal.home s.balExecutable).outcome ws).1 with
    | .error e => outcome = (.error e, asked)
    | .ok _ =>
      match Project.newPath ws.files ws.here s.workingDir moment with
      | .error e => outcome = (.error e, asked)
      | .ok path => ∃ project, ws.files.Fresh ws.here path project
        ∧ (∀ l, ¬ project <+: l → outcome.2.files.entryAt? l = ws.files.entryAt? l)
        ∧ if FileSystem.maxPathSize < FileSystem.utf8Size (path.below Project.manifest).toText then
            outcome = (.error (.system .nameTooLong),
              { asked with files := ws.files.put project .directory })
          else
            let definition := Archive.definitionText? (ws.files.withManifest project) ws.here
              archive s.definitionSuffix
            let extracted := { asked with files := ws.files.withProject project definition }
            (∃ e, outcome = (.error e, extracted))
            ∨ definition.isSome = true ∧ ∃ launcher,
              Ends s o path project (generated extracted launcher path project) outcome := by
  intro asked outcome
  have hleft : ((Bal.home s.balExecutable).outcome ws).2 = asked := Bal.home_left hr
  rcases hhome : (Bal.home s.balExecutable).outcome ws with ⟨e | home, left⟩
  · obtain rfl : left = asked := by rw [← hleft, hhome]
    exact Action.outcome_bind_error hhome _
  · obtain rfl : left = asked := by rw [← hleft, hhome]
    have houtcome : outcome = (Project.create s.workingDir moment >>=
        fun path => fillProject archive s o path home).outcome asked := by
      simp only [outcome, generate_eq]
      exact Action.outcome_bind_ok hhome _
    dsimp only
    cases hpath : Project.newPath ws.files ws.here s.workingDir moment with
    | error e =>
      have hcreate := Project.create_of_error asked hpath
      exact houtcome.trans (Action.outcome_bind_error hcreate _)
    | ok path =>
      obtain ⟨hnormal, hparts, project, hfresh, hmade, hproject⟩ :=
        Project.exists_of_newPath ht hn hpath
      have hcreate := Project.create_of_ok asked hpath hfresh hmade
      refine ⟨project, hfresh, ?_⟩
      split_ifs at hcreate ⊢ with hlong
      · rw [Action.outcome_bind_error hcreate] at houtcome
        refine ⟨fun l hl => ?_, houtcome⟩
        have hne : l ≠ project := fun h => hl (h ▸ List.prefix_rfl)
        rw [houtcome]
        exact FileSystem.entryAt?_put_of_ne _ hfresh.ne_nil hne _
      · have hreplies : ∀ r ∈ asked.replies, r.Confined s.balExecutable :=
          fun r h => hr r (List.mem_of_mem_tail h)
        let manifested : Workspace := { asked with files := ws.files.withManifest project }
        have hfill : outcome = (fillProject archive s o path home).outcome manifested :=
          houtcome.trans (Action.outcome_bind_ok hcreate _)
        have hleaves := fillProject_leaves manifested ht.named hreplies hnormal hparts hfresh
          hproject (Nat.not_lt.1 hlong) rfl archive o home
        rw [← hfill] at hleaves
        refine ⟨fun l hl => ?_, hleaves⟩
        rcases hleaves with ⟨e, he⟩ | ⟨-, launcher, hends⟩
        · rw [he]
          exact hfresh.entryAt?_withProject _ hl
        · refine (hends.entryAt? hl).trans ?_
          refine (FileSystem.entryAt?_putFiles _ (fun f hf => ?_) hl).trans
            (hfresh.entryAt?_withProject _ hl)
          exact (Workspace.confined_nextFiles hreplies f hf).2

/-- A tool that writes the service and then fails: the service stays, and nothing is mediated. -/
theorem generate_leaves_failing_tool :
    let s : Settings := ⟨⟨.here, []⟩, "bal".toList, 4, .bundled, [], [], none,
      Settings.defaultServiceDocument, Settings.defaultDefinitionSuffix⟩
    let archive : Content :=
      .archive [("a/Definitions/swagger.yaml".toList, .text "openapi: 3.0.1\n".toList)]
    let service : Content := .text "service / on l \x7b\x7d\n".toList
    let ws : Workspace := {
      files := ⟨[(["api.zip".toList], .file archive)]⟩
      replies := [.finished 0 "/opt/bal\n".toList [] [],
        .finished 1 [] "broken".toList [(Settings.defaultServiceDocument, service)]] }
    let project := ["bal_proxy_1500".toList]
    let outcome := (generate ⟨.here, ["api.zip".toList]⟩ s ⟨[], [], none⟩
      (.milliseconds 1500)).outcome ws
    ws.files.IsTree ∧ s.workingDir.IsNormal ∧ (∀ r ∈ ws.replies, r.Confined s.balExecutable)
    ∧ (∀ l, ¬ project <+: l → outcome.2.files.entryAt? l = ws.files.entryAt? l)
    ∧ outcome.1.toOption = none
    ∧ outcome.2.files.entries = ws.files.entries ++ [(project, .directory),
      (project ++ [Project.manifest], .file (.text [])),
      (project ++ [Archive.definitionFile], .file (.text "openapi: 3.0.1\n".toList)),
      (project ++ [Settings.defaultServiceDocument], .file service)] := by
  intro s archive service ws project outcome
  have htree : ws.files.IsTree := by decide
  have hnormal : s.workingDir.IsNormal := by
    intro name hname
    cases hname
  have hconfined : ∀ r ∈ ws.replies, r.Confined s.balExecutable := by
    intro r hr
    simp only [ws, List.mem_cons, List.not_mem_nil, or_false] at hr
    rcases hr with rfl | rfl
    · intro f hf
      cases hf
    · intro f hf
      rw [List.mem_singleton.1 hf]
      exact ⟨by decide, by decide⟩
  refine ⟨htree, hnormal, hconfined, ?_, by decide +kernel, by decide +kernel⟩
  have hleaves := generate_leaves htree hnormal hconfined ⟨.here, ["api.zip".toList]⟩ ⟨[], [], none⟩
    (.milliseconds 1500)
  have hhome : ((Bal.home s.balExecutable).outcome ws).1
      = .ok ⟨.root, ["opt".toList, "bal".toList]⟩ := rfl
  have hpath : Project.newPath ws.files ws.here s.workingDir (.milliseconds 1500)
      = .ok ⟨.here, project⟩ := rfl
  rw [hhome, hpath] at hleaves
  obtain ⟨project', hfresh, hframe, -⟩ := hleaves
  have hresolve : ws.files.resolve ws.here ⟨.here, project⟩ = .ok project := rfl
  obtain rfl : project = project' := Except.ok.inj (hresolve.symm.trans hfresh.resolved)
  simp only [outcome]
  exact hframe

/-- In a working directory whose path is all but too long, a project is left without a manifest. -/
theorem generate_without_manifest :
    let name : Text := List.replicate 200 'w'
    let s : Settings := ⟨⟨.here, (List.replicate 20 [name, "..".toList]).flatten⟩, "bal".toList, 4,
      .bundled, [], [], none, Settings.defaultServiceDocument, Settings.defaultDefinitionSuffix⟩
    let ws : Workspace := {
      files := ⟨[([name], .directory), (["api.zip".toList], .file (.archive
        [("a/Definitions/swagger.yaml".toList, .text "openapi: 3.0.1\n".toList)]))]⟩
      replies := [.finished 0 "/opt/bal\n".toList [] []] }
    let project := ["bal_proxy_1500".toList]
    let outcome := (generate ⟨.here, ["api.zip".toList]⟩ s ⟨[], [], none⟩
      (.milliseconds 1500)).outcome ws
    outcome.1.toOption = none ∧ ws.files.entryAt? project = none
    ∧ outcome.2.files.entryAt? project = some .directory
    ∧ outcome.2.files.entryAt? (project ++ [Project.manifest]) = none := by
  decide +kernel

end Proxy

end BalMediation
