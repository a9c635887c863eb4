import BalMediation.Console.Markup
import BalMediation.Edit
import BalMediation.FileSystem
import BalMediation.Template
import BalMediation.Tree

/-!
# Errors

Everything that can end a mediation run. The errors a user can act on are reported with their
wording; the others, a template or a file that cannot be read at all, are failures of the run.
-/

namespace BalMediation

/-- What is wrong with a setting. -/
inductive SettingsFault where
  /-- The indent width is no whole number. -/
  | notInteger
  /-- The indent width has too many digits. -/
  | tooLong
  /-- The indent width is zero or less. -/
  | notPositive
deriving DecidableEq, Repr

/-- Why a run ends without a result. -/
inductive Error where
  | parse (e : ParseError)
  | edit (e : EditError)
  /-- There is no snippet of this name at the place that was searched. -/
  | snippetNotFound (name searched : Text)
  /-- An indent width that is zero or less. -/
  | indentWidth (width : Int)
  | settings (fault : SettingsFault)
  | archiveUnreadable (archive : Path) (reason : Text)
  | definitionNotFound (archive : Path)
  | documentNotFound (name : Text) (project : Path)
  /-- An external command failed; there is no exit code if it was never started. -/
  | tool (command : List Text) (exitCode : Option Int) (detail : Text)
  | template (e : TemplateError)
  /-- A file holds no text. -/
  | undecodable
  | system (e : SystemError)
  /-- A time that has no number of milliseconds. -/
  | endlessTime
  /-- A margin that no number of characters gives. -/
  | marginUncountable
  /-- A margin that does not fit into memory. -/
  | marginTooWide
  /-- A console message cannot be shown. -/
  | markup (fault : MarkupFault)
  /-- A node lacks a child that every node of its kind has. -/
  | incomplete (missing : Kind)
deriving DecidableEq, Repr

namespace Error

/-- Whether the error is reported to the user; any other ends the run at once. -/
def isReported : Error → Bool
  | template _ | undecodable | system _ | endlessTime | marginUncountable | marginTooWide
  | markup _ | incomplete _ => false
  | _ => true

/-- The wording of an error. Of the report on invalid settings it is the first line only, without
the lines below that name the setting and say what is wrong with it. -/
def message : Error → Text
  | parse e => e.message
  | edit e => e.message
  | snippetNotFound name searched =>
    "Snippet not found: ".toList ++ name ++ " (searched ".toList ++ searched ++ ")".toList
  | indentWidth width => "Indent width must be positive, got ".toList ++ Text.ofInt width
  | settings _ => "Invalid settings: 1 validation error for Settings".toList
  | archiveUnreadable archive reason =>
    "Failed to read API archive ".toList ++ archive.toText ++ ": ".toList ++ reason
  | definitionNotFound archive =>
    "Failed to read OpenAPI definition from: ".toList ++ archive.toText
  | documentNotFound name project =>
    "OpenAPI generated service not found: ".toList ++ name ++ " in ".toList ++ project.toText
  | tool command exitCode detail =>
    let status := match exitCode with
      | some code => "exited with status ".toList ++ Text.ofInt code
      | none => "could not be started".toList
    "'".toList ++ Text.join " ".toList command ++ "' ".toList ++ status ++
      (if detail.isEmpty then [] else ": ".toList ++ detail)
  | template .malformed => "malformed template".toList
  | template .loopAsItem => "the item of a loop has the name of the loop".toList
  | template (.undefined name) => "'".toList ++ name ++ "' is undefined".toList
  | template (.notIterable type) => "'".toList ++ type ++ "' object is not iterable".toList
  | template .noBlock => "0".toList
  | undecodable => "not a text in UTF-8".toList
  | system .notFound => "no such file or directory".toList
  | system .alreadyExists => "file exists".toList
  | system .isDirectory => "is a directory".toList
  | system .notDirectory => "not a directory".toList
  | system .nameTooLong => "file name too long".toList
  | endlessTime => "cannot convert float infinity to integer".toList
  | marginUncountable => "cannot fit 'int' into an index-sized integer".toList
  | marginTooWide => []
  | markup .unmatched => "closing style does not match an open one".toList
  | markup .arguments => "the arguments of a handler are no literals".toList
  | markup .emptyComponent => "a colour has an empty component".toList
  | incomplete missing => "missing ".toList ++ missing.name

end Error

end BalMediation
