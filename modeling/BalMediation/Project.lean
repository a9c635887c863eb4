import BalMediation.Workspace

/-!
# Projects

A project is a directory that is named after the time it was made. Its documents are the `.bal`
files directly in it, except those that mediation itself has written.
-/

namespace BalMediation

/-- A time in whole milliseconds. An infinite time has no number of them. -/
inductive Moment where
  | milliseconds (count : Int)
  | endless
deriving DecidableEq, Repr

namespace Moment

/-- The whole part of a number, cut toward zero: a finite double is a whole number times a power of
two, and both can be read off its bits. -/
def wholePart (x : Float) : Int :=
  let bits := x.toBits.toNat
  let exponent := (bits >>> 52) % 0x800
  let fraction := bits % 0x10000000000000
  let (mantissa, exponent) :=
    if exponent = 0 then (fraction, 1) else (fraction + 0x10000000000000, exponent)
  let magnitude : Nat :=
    if exponent ≥ 1075 then mantissa <<< (exponent - 1075) else mantissa >>> (1075 - exponent)
  if bits >>> 63 = 1 then -(magnitude : Int) else magnitude

/-- The moment of a time in seconds. -/
def ofSeconds (seconds : Float) : Moment :=
  let milliseconds := seconds * 1000
  if milliseconds.isInf then .endless else .milliseconds (wholePart milliseconds)

instance : Coe Float Moment := ⟨ofSeconds⟩

end Moment

/-- A directory and the documents in it, sorted by name. -/
structure Project where
  path : Path
  balHome : Option Path
  documents : List Document

namespace Project

/-- How the names of written documents begin. -/
def generatedMark : Text := "_generated_".toList

/-- The file that makes a directory a package. -/
def manifest : Text := "Ballerina.toml".toList

/-- The name of a project made at a moment: it ends in the milliseconds. -/
def directoryName : Moment → Except Error Text
  | .endless => .error .endlessTime
  | .milliseconds count => .ok ("bal_proxy_".toList ++ Text.ofInt count)

/-- Makes an empty project. -/
def create (workingDir : Path) (moment : Moment) : Action Path := do
  let path := workingDir.child (← Action.ofExcept (directoryName moment))
  Action.makeDirectory path
  Action.touch (path.child manifest)
  return path

/-- The names of the documents in a directory, sorted. -/
def documentNames (fs : FileSystem) (here : List Text) (path : Path) :
    Except SystemError (List Text) := do
  let names := (← fs.list here path).map (·.1)
  let documents := names.filter fun name =>
    ".bal".toList.isSuffixOf name && !generatedMark.isPrefixOf name
  return documents.mergeSort Text.le

/-- Reads the documents of a project. A directory that does not exist has none. -/
def load (path : Path) (balHome : Option Path) : Action Project := do
  let documents ← (← Action.inspect (documentNames · · path)).mapM fun name => do
    return { name, text := ← Action.readText (path ++ ⟨.here, [name]⟩) : Document }
  return ⟨path, balHome, documents⟩

/-- The document of a name. -/
def find (p : Project) (name : Text) : Except Error Document :=
  match p.documents.find? (·.name = name) with
  | some d => .ok d
  | none => .error (.documentNotFound name p.path)

/-- Writes a document beside the one it was made from and gives the path of the file. -/
def write (d : Document) (path : Path) : Action Path := do
  let output := path.child (generatedMark ++ d.name)
  Action.writeText output d.text
  return output

end Project

end BalMediation
