import BalMediation.Text.Basic

/-!
# Paths

A path is an anchor and the names below it. Reading a path drops empty names and single dots but
keeps double dots, since what those mean depends on the directories that exist. Exactly two leading
slashes are an anchor of their own.
-/

namespace BalMediation

/-- Where a path starts. -/
inductive Anchor where
  /-- At the current directory. -/
  | here
  /-- At the root. -/
  | root
  /-- At the root, written with two slashes. -/
  | doubleRoot
deriving DecidableEq, Repr

/-- A path in normal form. -/
structure Path where
  anchor : Anchor
  parts : List Text
deriving DecidableEq, Repr

namespace Path

/-- Reads a path. -/
def ofText (t : Text) : Path :=
  let anchor := match (t.takeWhile (· == '/')).length with
    | 0 => Anchor.here
    | 2 => .doubleRoot
    | _ => .root
  ⟨anchor, (t.splitOn '/').filter fun part => !part.isEmpty && part != ['.']⟩

/-- Writes a path; the current directory is a dot. -/
def toText (p : Path) : Text :=
  let names := Text.join ['/'] p.parts
  match p.anchor with
  | .here => if p.parts.isEmpty then ['.'] else names
  | .root => '/' :: names
  | .doubleRoot => '/' :: '/' :: names

/-- The path `q` as seen from `p`. -/
def append (p q : Path) : Path :=
  match q.anchor with
  | .here => ⟨p.anchor, p.parts ++ q.parts⟩
  | _ => q

instance : Append Path := ⟨append⟩

/-- The path that a text names below `p`. -/
def child (p : Path) (t : Text) : Path :=
  p ++ ofText t

/-- The last name of a path. -/
def name (p : Path) : Text :=
  p.parts.getLast?.getD []

/-- The path with its last name changed. -/
def withName (p : Path) (name : Text) : Path :=
  ⟨p.anchor, p.parts.dropLast ++ [name]⟩

end Path

end BalMediation
