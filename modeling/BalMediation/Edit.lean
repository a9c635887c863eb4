import BalMediation.Text.Basic

/-!
# Edits

An edit replaces a part of a text that is known by its offsets; an edit of length zero inserts. A
batch of edits is computed against one text and applied at once: `Edit.apply` sorts the batch by
start and end, insertions at one offset keeping their order, and copies the text around the edits.

A batch is refused whole if an edit reaches outside the text, or if two edits overlap.
-/

namespace BalMediation

/-- A replacement of the `length` characters from offset `start` on. -/
structure Edit where
  start : Int
  length : Int := 0
  text : Text
deriving DecidableEq, Repr

/-- Why a batch cannot be applied. -/
inductive EditError where
  /-- An edit reaches outside a text of the given length. -/
  | outOfRange (edit : Edit) (length : Nat)
  /-- The second edit begins inside the first. -/
  | overlapping (first second : Edit)
deriving DecidableEq, Repr

namespace Edit

/-- The offset just past the replaced part. -/
def stop (e : Edit) : Int :=
  e.start + e.length

/-- Puts a text in front of an offset. -/
def insert (offset : Int) (text : Text) : Edit :=
  ⟨offset, 0, text⟩

/-- Puts a text in place of the part between two offsets. -/
def replace (start stop : Int) (text : Text) : Edit :=
  ⟨start, stop - start, text⟩

/-- Whether the edit replaces nothing. -/
def isInsertion (e : Edit) : Bool :=
  e.length = 0

/-- Whether the replaced part lies inside a text of the given length. -/
def inRange (e : Edit) (length : Nat) : Bool :=
  0 ≤ e.start && 0 ≤ e.length && e.stop ≤ length

/-- By start, then by end. -/
def le (a b : Edit) : Bool :=
  a.start < b.start || (a.start = b.start && a.stop ≤ b.stop)

/-- The batch in the order of application. Edits with the same start and end keep their order. -/
def sort (edits : List Edit) : List Edit :=
  edits.mergeSort le

/-- The first two neighbours of which the second begins before the first ends. -/
def overlap? : List Edit → Option (Edit × Edit)
  | a :: b :: es => if b.start < a.stop then some (a, b) else overlap? (b :: es)
  | _ => none

/-- The text from offset `done` on, with sorted edits in place. -/
def splice (source : Text) (done : Nat) : List Edit → Text
  | [] => source.drop done
  | e :: es => source.slice done e.start.toNat ++ e.text ++ splice source e.stop.toNat es

/-- The text with a batch of edits in place. -/
def apply (source : Text) (edits : List Edit) : Except EditError Text :=
  match edits.find? fun e => !e.inRange source.length with
  | some e => .error (.outOfRange e source.length)
  | none =>
    match overlap? (sort edits) with
    | some (a, b) => .error (.overlapping a b)
    | none => .ok (splice source 0 (sort edits))

/-- The replaced part as a half-open interval. -/
def interval (e : Edit) : Text :=
  "[".toList ++ Text.ofInt e.start ++ ", ".toList ++ Text.ofInt e.stop ++ ")".toList

end Edit

namespace EditError

/-- The wording of the error. -/
def message : EditError → Text
  | outOfRange e length =>
    "Edit ".toList ++ e.interval ++ " is outside a text of length ".toList ++ Text.ofNat length
  | overlapping a b => "Edit ".toList ++ b.interval ++ " overlaps edit ".toList ++ a.interval

end EditError

/-- A named text. -/
structure Document where
  name : Text
  text : Text
deriving DecidableEq, Repr

namespace Document

/-- The document with a batch of edits in place. -/
def apply (d : Document) (edits : List Edit) : Except EditError Document :=
  (Edit.apply d.text edits).map ({ d with text := · })

end Document

end BalMediation
