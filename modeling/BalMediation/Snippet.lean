import BalMediation.Error
import BalMediation.Snippet.Bundled

/-!
# Snippets

Snippets are looked up by name, either among the bundled ones or in a directory. A `SnippetSource`
remembers every snippet it has found, so that one name has one text for as long as the source is in
use; a lookup that fails leaves no trace.
-/

namespace BalMediation

/-- Where snippets are looked up. -/
inductive SnippetLocation where
  /-- Among those that come with the library. -/
  | bundled
  | directory (path : Path)
deriving DecidableEq, Repr

/-- Snippets by name. -/
abbrev Snippets := Text → Except Error Text

namespace SnippetLocation

/-- The location as it is shown. -/
def toText : SnippetLocation → Text
  | bundled => "<SNIPPETS>".toList
  | directory path => path.toText

/-- What the file of a snippet holds, if there is such a file. -/
def content? (location : SnippetLocation) (fs : FileSystem) (here : List Text) (name : Text) :
    Except SystemError (Option Content) :=
  match location with
  | bundled => Snippet.bundledFiles.find? [] ((Path.ofText "snippets".toList).child name)
  | directory path => fs.find? here (path.child name)

/-- The text of a snippet as the file system holds it now. -/
def read (location : SnippetLocation) (fs : FileSystem) (here : List Text) : Snippets := fun name =>
  match location.content? fs here name with
  | .error e => .error (.system e)
  | .ok none => .error (.snippetNotFound name location.toText)
  | .ok (some content) =>
    match content.text? with
    | some t => .ok t
    | none => .error .undecodable

end SnippetLocation

/-- A location and the snippets found there so far. -/
structure SnippetSource where
  location : SnippetLocation
  found : List (Text × Text) := []

namespace SnippetSource

/-- The text of a snippet, and the source that remembers it. -/
def lookup (s : SnippetSource) (fs : FileSystem) (here : List Text) (name : Text) :
    Except Error Text × SnippetSource :=
  match s.found.find? (·.1 = name) with
  | some (_, t) => (.ok t, s)
  | none =>
    match s.location.read fs here name with
    | .ok t => (.ok t, { s with found := (name, t) :: s.found })
    | .error e => (.error e, s)

end SnippetSource

end BalMediation
