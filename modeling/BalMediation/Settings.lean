import BalMediation.Fragment.Templated
import BalMediation.Settings.WholeNumber

/-!
# Settings

What a run takes from its environment. A variable that is not set has a default; only the indent
width can be invalid.
-/

namespace BalMediation

/-- The variables of an environment. -/
abbrev Environment := List (Text × Text)

/-- What a run takes from its environment. -/
structure Settings where
  workingDir : Path
  balExecutable : Text
  indentWidth : Int
  snippets : SnippetLocation
  inflowHooks : List Text
  outflowHooks : List Text
  returnType : Option Text
  serviceDocument : Text
  definitionSuffix : Text

/-- What a caller gives in place of settings. An empty list of hooks leaves the settings' hooks. -/
structure Overrides where
  inflow : List Text
  outflow : List Text
  returnType : Option Text

namespace Settings

/-- The document that holds the generated service. -/
def defaultServiceDocument : Text := "proxy_service.bal".toList

/-- How the name of an API definition ends in an archive. -/
def defaultDefinitionSuffix : Text := "/Definitions/swagger.yaml".toList

/-- The names in a list of hooks: separated by commas, without the blanks around them. -/
def splitHooks (t : Text) : List Text :=
  ((t.splitOn ',').map Text.trim).filter (!·.isEmpty)

/-- The value of a variable. -/
def get? (env : Environment) (name : String) : Option Text :=
  (env.find? (·.1 = name.toList)).map (·.2)

/-- The longest number that is read, in characters without leading zeros. -/
def maxNumberLength : Nat := 4300

/-- Reads an indent width. -/
def indentWidthOf (t : Text) : Except SettingsFault Int :=
  match WholeNumber.parse? t with
  | none => .error .notInteger
  | some n =>
    if (Text.ofInt n).length > maxNumberLength then .error .tooLong
    else if 0 < n then .ok n
    else .error .notPositive

/-- The settings of an environment; `here` is the current directory. -/
def read (env : Environment) (here : Path) : Except SettingsFault Settings := do
  let indentWidth ← indentWidthOf ((get? env "MEDIATION_INDENT_WIDTH").getD "4".toList)
  let hooks (name : String) (default : String) := splitHooks ((get? env name).getD default.toList)
  return {
    workingDir := ((get? env "MEDIATION_WORKING_DIR").map Path.ofText).getD here
    balExecutable := (get? env "MEDIATION_BAL_EXECUTABLE").getD "bal".toList
    indentWidth
    snippets := match get? env "MEDIATION_SNIPPETS_DIR" with
      | some directory => .directory (Path.ofText directory)
      | none => .bundled
    inflowHooks := hooks "MEDIATION_INFLOW_HOOKS" "fooInMediate"
    outflowHooks := hooks "MEDIATION_OUTFLOW_HOOKS" "fooOutMediate"
    returnType := (get? env "MEDIATION_RETURN_TYPE").filter (!·.isEmpty)
    serviceDocument := (get? env "MEDIATION_SERVICE_DOCUMENT").getD defaultServiceDocument
    definitionSuffix := (get? env "MEDIATION_DEFINITION_SUFFIX").getD defaultDefinitionSuffix }

/-- The hooks to generate code for, with the caller's values in place of the settings'. -/
def hooks (s : Settings) (o : Overrides) : Hooks where
  inflow := if o.inflow.isEmpty then s.inflowHooks else o.inflow
  outflow := if o.outflow.isEmpty then s.outflowHooks else o.outflow
  returnType := o.returnType <|> s.returnType
  indentWidth := s.indentWidth

end Settings

end BalMediation
