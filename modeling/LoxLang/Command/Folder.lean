/-
# LoxLang.Command.Folder -- paths and the files they lead to

A path is kept without empty and single-dot parts; the parent directory stays in it.  A
folder holds entries by their place below the root; every place above an entry, and every
place above the working directory, is a directory.

Names and paths are limited in length, counted in bytes.  A path beyond its limit is
refused at once, a name beyond its limit when the path arrives at it.
-/
import LoxLang.Entries
import LoxLang.Text.Quoted

namespace LoxLang

set_option autoImplicit false

/-- A path: the slashes of an absolute one, and the parts between slashes. -/
structure Path where
  root : String
  parts : List String
  deriving DecidableEq, Repr

namespace Path

/-- Cut characters at the slashes. -/
def pieces : List Char → List (List Char)
  | [] => [[]]
  | c :: cs =>
      match pieces cs with
      | [] => [[c]]
      | piece :: rest => if c = '/' then [] :: piece :: rest else (c :: piece) :: rest

/-- The root of a path: exactly two leading slashes are kept, any other number counts as one. -/
def rootOf (cs : List Char) : String :=
  match (cs.takeWhile (· = '/')).length with
  | 0 => ""
  | 2 => "//"
  | _ => "/"

def ofText (s : String) : Path :=
  ⟨rootOf s.toList,
   ((pieces s.toList).map String.ofList).filter fun part => part ≠ "" && part ≠ "."⟩

/-- The text of a path; an empty one is the working directory. -/
def text (p : Path) : String :=
  let body := p.root ++ "/".intercalate p.parts
  if body = "" then "." else body

/-- The path with `ending` added to its last part. -/
def extend (p : Path) (ending : String) : Path :=
  { p with parts := p.parts.dropLast ++ [(p.parts.getLast?.getD "") ++ ending] }

end Path

/-- What stands at a place. -/
inductive Entry where
  | file (bytes : List UInt8)
  | directory
  deriving DecidableEq

/-- Entries by their place, which is given by the names from the root down, and the place of the
working directory. -/
structure Folder where
  here : List String
  entries : List (List String × Entry)

/-- Why a path leads to nothing. -/
inductive PathFault where
  | missing
  | tooLong
  deriving DecidableEq, Repr

namespace Folder

/-- The most bytes of a name. -/
def nameLimit : Nat := 255

/-- The most bytes of a path. -/
def pathLimit : Nat := 4095

/-- What stands at a place. -/
def entryAt? (f : Folder) (place : List String) : Option Entry :=
  match f.entries.lookup place with
  | some entry => some entry
  | none =>
      if place.isPrefixOf f.here || f.entries.any fun entry => place.isPrefixOf entry.1 then
        some .directory
      else none

/-- Go on from a place, given last name first, by the parts of a path.  Every part but the last has
to lead to a directory; the root is its own parent. -/
def follow (f : Folder) : List String → List String → Except PathFault (List String)
  | place, [] => .ok place
  | place, part :: rest =>
      if f.entryAt? place.reverse ≠ some .directory then .error .missing
      else if part = ".." then follow f place.tail rest
      else if nameLimit < part.utf8ByteSize then .error .tooLong
      else follow f (part :: place) rest

/-- The place to which a path leads.  No path holds the null character. -/
def placeOf (f : Folder) (p : Path) : Except PathFault (List String) :=
  if p.text.toList.contains '\x00' then .error .missing
  else if pathLimit < p.text.utf8ByteSize then .error .tooLong
  else (f.follow (if p.root = "" then f.here.reverse else []) p.parts).map List.reverse

/-- What stands at a path. -/
def find (f : Folder) (p : Path) : Except PathFault Entry :=
  match f.placeOf p with
  | .error fault => .error fault
  | .ok place =>
      match f.entryAt? place with
      | some entry => .ok entry
      | none => .error .missing

/-- Write a file; the text is one without surrogates. -/
def write (f : Folder) (place : List String) (text : Text) : Folder :=
  { f with entries := Entries.put place (.file text.shown.toUTF8.toList) f.entries }

end Folder

end LoxLang
