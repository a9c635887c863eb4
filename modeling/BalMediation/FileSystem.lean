import BalMediation.Path

/-!
# File systems

A file system is a value: a list of directories and files, each with the names that lead to it from
the root. A path is resolved name by name, and each name on the way has to be a directory that
exists. Names and paths have a greatest length in bytes.

What a file holds is a text in UTF-8, bytes that are no such text, or an archive of named entries.
-/

namespace BalMediation

/-- A text in UTF-8, or bytes that are none. -/
inductive Blob where
  | text (t : Text)
  | bytes (bs : List UInt8)
deriving DecidableEq, Repr

namespace Blob

/-- What some bytes hold. -/
def ofBytes (bs : List UInt8) : Blob :=
  match String.fromUTF8? ⟨bs.toArray⟩ with
  | some s => .text s.toList
  | none => .bytes bs

end Blob

/-- What a file holds. -/
inductive Content where
  | blob (b : Blob)
  | archive (entries : List (Text × Blob))
deriving DecidableEq, Repr

namespace Content

/-- A file that holds a text. -/
def text (t : Text) : Content :=
  .blob (.text t)

/-- The text in a file, with one kind of line ending; nothing if it holds no text. -/
def text? : Content → Option Text
  | .blob (.text t) => some t.unifyNewlines
  | _ => none

end Content

/-- A directory or a file. -/
inductive Entry where
  | directory
  | file (content : Content)
deriving DecidableEq, Repr

/-- Why the file system refuses an operation. -/
inductive SystemError where
  | notFound
  | alreadyExists
  | isDirectory
  | notDirectory
  | nameTooLong
deriving DecidableEq, Repr

namespace SystemError

/-- Whether the error says that nothing can stand at a path. -/
def isAbsence : SystemError → Bool
  | notFound | notDirectory => true
  | _ => false

end SystemError

/-- Directories and files by the names that lead to them. The root is always there. -/
structure FileSystem where
  entries : List (List Text × Entry)
deriving DecidableEq, Repr

namespace FileSystem

/-- What stands at a location. -/
def entryAt? (fs : FileSystem) (location : List Text) : Option Entry :=
  if location.isEmpty then some .directory
  else (fs.entries.find? (·.1 = location)).map (·.2)

/-- Puts an entry at a location, in place of the one that stands there. -/
def put (fs : FileSystem) (location : List Text) (entry : Entry) : FileSystem :=
  if fs.entries.any (·.1 = location) then
    ⟨fs.entries.map fun e => if e.1 = location then (location, entry) else e⟩
  else ⟨fs.entries ++ [(location, entry)]⟩

/-- Removes a location and all below it. -/
def remove (fs : FileSystem) (location : List Text) : FileSystem :=
  ⟨fs.entries.filter fun e => !location.isPrefixOf e.1⟩

/-- The longest name, in bytes. -/
def maxNameSize : Nat := 255

/-- The longest path, in bytes. -/
def maxPathSize : Nat := 4095

/-- The bytes that a text takes in UTF-8. -/
def utf8Size (t : Text) : Nat :=
  t.foldl (fun n c => n + c.utf8Size) 0

/-- Follows the names of a path from a location. The last one need not exist. -/
def walk (fs : FileSystem) (location : List Text) : List Text → Except SystemError (List Text)
  | [] => .ok location
  | part :: parts =>
    match fs.entryAt? location with
    | none => .error .notFound
    | some (.file _) => .error .notDirectory
    | some .directory =>
      if utf8Size part > maxNameSize then .error .nameTooLong
      else if part = "..".toList then walk fs location.dropLast parts
      else walk fs (location ++ [part]) parts

/-- The location of a path, seen from the current directory `here`. -/
def resolve (fs : FileSystem) (here : List Text) (p : Path) : Except SystemError (List Text) :=
  if utf8Size p.toText > maxPathSize then .error .nameTooLong
  else match p.anchor with
    | .here => fs.walk here p.parts
    | _ => fs.walk [] p.parts

/-- What the file at a path holds. -/
def read (fs : FileSystem) (here : List Text) (p : Path) : Except SystemError Content := do
  match fs.entryAt? (← fs.resolve here p) with
  | none => .error .notFound
  | some .directory => .error .isDirectory
  | some (.file content) => .ok content

/-- What the file at a path holds, if there is a file. -/
def find? (fs : FileSystem) (here : List Text) (p : Path) : Except SystemError (Option Content) :=
  match fs.read here p with
  | .ok content => .ok (some content)
  | .error .isDirectory => .ok none
  | .error e => if e.isAbsence then .ok none else .error e

/-- Writes a file, in place of one that stands there. -/
def write (fs : FileSystem) (here : List Text) (p : Path) (content : Content) :
    Except SystemError FileSystem := do
  let location ← fs.resolve here p
  match fs.entryAt? location with
  | some .directory => .error .isDirectory
  | _ => .ok (fs.put location (.file content))

/-- Makes a directory where nothing stands yet. -/
def makeDirectory (fs : FileSystem) (here : List Text) (p : Path) :
    Except SystemError FileSystem := do
  let location ← fs.resolve here p
  match fs.entryAt? location with
  | some _ => .error .alreadyExists
  | none => .ok (fs.put location .directory)

/-- Makes an empty file, unless something stands there already. -/
def touch (fs : FileSystem) (here : List Text) (p : Path) : Except SystemError FileSystem := do
  let location ← fs.resolve here p
  match fs.entryAt? location with
  | some _ => .ok fs
  | none => .ok (fs.put location (.file (.text [])))

/-- Puts an entry at the end of a path below a location and makes the directories on the way. -/
def putDeep (fs : FileSystem) (location : List Text) (entry : Entry) : List Text → FileSystem
  | [] => fs
  | [name] => fs.put (location ++ [name]) entry
  | name :: names =>
    if name = "..".toList then fs.putDeep location.dropLast entry names
    else
      let next := location ++ [name]
      let fs := if (fs.entryAt? next).isSome then fs else fs.put next .directory
      fs.putDeep next entry names

/-- The names directly below a path, with what stands there; none if it is no directory. -/
def list (fs : FileSystem) (here : List Text) (p : Path) :
    Except SystemError (List (Text × Entry)) :=
  match fs.resolve here p with
  | .error e => if e.isAbsence then .ok [] else .error e
  | .ok location =>
    .ok <| fs.entries.filterMap fun (place, entry) =>
      match place.getLast? with
      | some name => if place.dropLast = location then some (name, entry) else none
      | none => none

/-- All that lies below a location, by the names that lead there from it. -/
def below (fs : FileSystem) (location : List Text) : List (List Text × Entry) :=
  fs.entries.filterMap fun (place, entry) =>
    if location.isPrefixOf place && place.length > location.length then
      some (place.drop location.length, entry)
    else none

end FileSystem

end BalMediation
