import BalMediation.Proofs.FileTrees
import BalMediation.Workspace

/-!
# Outcomes of actions

What an action gives in a workspace and what it leaves of it (`Action.outcome`), step by step: a
step that succeeds hands its workspace on to the next one, and a step that fails ends the run there.
Reading leaves the workspace as it is, an update that fails does so too, and a command that is
launched leaves what its reply writes.
-/

namespace BalMediation

namespace Action

variable {α β : Type} {a : Action α} {ws ws' : Workspace} {x : α} {e : Error}

/-- What an action gives, and the workspace it leaves. -/
def outcome (a : Action α) (ws : Workspace) : Except Error α × Workspace :=
  a.run.run ws

theorem outcome_bind (a : Action α) (f : α → Action β) (ws : Workspace) :
    (a >>= f).outcome ws = match a.outcome ws with
      | (.ok x, left) => (f x).outcome left
      | (.error e, left) => (.error e, left) := by
  change (match a.outcome ws with | (r, left) => ExceptT.bindCont f r left) = _
  rcases a.outcome ws with ⟨_ | _, _⟩ <;> rfl

theorem outcome_bind_ok (h : a.outcome ws = (.ok x, ws')) (f : α → Action β) :
    (a >>= f).outcome ws = (f x).outcome ws' := by
  rw [outcome_bind, h]

theorem outcome_bind_error (h : a.outcome ws = (.error e, ws')) (f : α → Action β) :
    (a >>= f).outcome ws = (.error e, ws') := by
  rw [outcome_bind, h]

theorem outcome_get (f : Workspace → Action β) (ws : Workspace) :
    (get >>= f).outcome ws = (f ws).outcome ws :=
  rfl

theorem outcome_ofExcept (r : Except Error α) (ws : Workspace) :
    (ofExcept r).outcome ws = (r, ws) := by
  cases r <;> rfl

theorem outcome_inspect (f : FileSystem → List Text → Except SystemError α) (ws : Workspace) :
    (inspect f).outcome ws = ((f ws.files ws.here).mapError .system, ws) :=
  outcome_ofExcept _ ws

theorem outcome_update (f : FileSystem → List Text → Except SystemError FileSystem)
    (ws : Workspace) :
    (update f).outcome ws = match f ws.files ws.here with
      | .ok files => (.ok (), { ws with files })
      | .error e => (.error (.system e), ws) := by
  rw [update, outcome_bind, outcome_inspect]
  cases f ws.files ws.here <;> rfl

/-- A run that looks at what an action gives goes on in the workspace that the action leaves. -/
theorem run_bind {r : Except Error α} (h : a.outcome ws = (r, ws'))
    (f : Except Error α → StateM Workspace β) : (a.run >>= f).run ws = (f r).run ws' := by
  change (match a.outcome ws with | (r, ws') => (f r).run ws') = _
  rw [h]

/-- What a reading of the workspace finds for each of some values is found without changing it. -/
theorem outcome_mapM {γ : Type} {g : γ → Action β} {f : γ → Except Error β}
    (h : ∀ c, (g c).outcome ws = (f c, ws)) (cs : List γ) :
    (cs.mapM g).outcome ws = (cs.mapM f, ws) := by
  induction cs with
  | nil => rfl
  | cons c cs ih =>
    rw [List.mapM_cons, List.mapM_cons, outcome_bind, h c]
    cases f c with
    | error e => rfl
    | ok y =>
      dsimp only
      rw [outcome_bind, ih]
      cases cs.mapM f <;> rfl

end Action

namespace Workspace

/-- The text in a file of a workspace. -/
def textAt (ws : Workspace) (p : Path) : Except Error Text :=
  match ws.files.read ws.here p with
  | .error e => .error (.system e)
  | .ok content =>
    match content.text? with
    | some t => .ok t
    | none => .error .undecodable

theorem read_of_textAt {ws : Workspace} {p : Path} {t : Text} (h : ws.textAt p = .ok t) :
    ∃ content, ws.files.read ws.here p = .ok content ∧ content.text? = some t := by
  unfold textAt at h
  split at h
  · cases h
  · rename_i content hcontent
    split at h
    · rename_i t' ht
      cases h
      exact ⟨content, hcontent, ht⟩
    · cases h

end Workspace

namespace Action

theorem outcome_readText (p : Path) (ws : Workspace) :
    (readText p).outcome ws = (ws.textAt p, ws) := by
  unfold readText Workspace.textAt
  rw [outcome_bind, outcome_inspect]
  cases ws.files.read ws.here p with
  | error e => rfl
  | ok content =>
    dsimp only [Except.mapError]
    cases content.text? <;> rfl

theorem outcome_writeText (p : Path) (t : Text) (ws : Workspace) :
    (writeText p t).outcome ws = match ws.files.write ws.here p (.text t) with
      | .ok files => (.ok (), { ws with files })
      | .error e => (.error (.system e), ws) :=
  outcome_update _ ws

end Action

/-! ## Commands -/

namespace Reply

/-- The files that the tool writes. -/
def files : Reply → List (Text × Content)
  | unavailable _ => []
  | finished _ _ _ files => files

end Reply

namespace FileSystem

/-- Puts files below a location. -/
def putFiles (fs : FileSystem) (location : List Text) (files : List (Text × Content)) :
    FileSystem :=
  files.foldl (fun fs f => fs.putDeep location (.file f.2) (Path.ofText f.1).parts) fs

theorem entryAt?_putFiles (fs : FileSystem) {location l : List Text} {files : List (Text × Content)}
    (hs : ∀ f ∈ files, staysBelow 0 (Path.ofText f.1).parts = true) (hl : ¬ location <+: l) :
    (fs.putFiles location files).entryAt? l = fs.entryAt? l := by
  induction files generalizing fs with
  | nil => rfl
  | cons f files ih =>
    have hfirst := entryAt?_putDeep fs (.file f.2) [] (hs f List.mem_cons_self) hl
    rw [List.append_nil] at hfirst
    rw [← hfirst]
    exact ih _ fun g hg => hs g (List.mem_cons_of_mem f hg)

theorem Named.putFiles {fs : FileSystem} (h : fs.Named) (location : List Text)
    (files : List (Text × Content)) : (fs.putFiles location files).Named := by
  induction files generalizing fs with
  | nil => exact h
  | cons f files ih =>
    exact ih (h.putDeep _ fun name hname => (Path.isNormal_ofText f.1 name hname).2.2)

end FileSystem

namespace Workspace

theorem writeOutput_nil (ws : Workspace) (command : List Text) :
    ws.writeOutput command [] = ws := by
  unfold writeOutput
  split
  · rfl
  · split <;> rfl

theorem writeOutput_eq {ws : Workspace} {command : List Text} {output : Text}
    {location : List Text} (houtput : outputArgument? command = some output)
    (hlocation : ws.files.resolve ws.here (Path.ofText output) = .ok location)
    (files : List (Text × Content)) :
    ws.writeOutput command files = { ws with files := ws.files.putFiles location files } := by
  unfold writeOutput
  rw [houtput]
  simp only [hlocation]
  rfl

end Workspace

namespace Action

/-- A command that is launched leaves the files of its reply, whether it succeeds or not. -/
theorem launch_left (command : List Text) (ws : Workspace) :
    ((launch command).outcome ws).2
      = { ws with launched := ws.launched ++ [command], replies := ws.replies.tail }.writeOutput
          command ((ws.replies.head?.map Reply.files).getD []) := by
  obtain ⟨files, here, replies, launched⟩ := ws
  rcases replies with _ | ⟨reply, replies⟩
  · exact (Workspace.writeOutput_nil _ _).symm
  · rcases reply with reason | ⟨code, stdout, stderr, written⟩
    · exact (Workspace.writeOutput_nil _ _).symm
    · let left := Workspace.writeOutput ⟨files, here, replies, launched ++ [command]⟩ command
        written
      change ((if code = 0 then (pure stdout : Action Text)
        else throw (.tool command (some code) stderr.trim)).outcome left).2 = left
      split <;> rfl

end Action

end BalMediation
