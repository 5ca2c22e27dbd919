import HeapWatch.FileFault
/-!
# Paths

A path goes from one directory to the next: into what has a name there, back to the directory
around it, or no further. It starts in the directory that the program works in, wherever that is, or
in the root if it has a slash in front. Several slashes are as good as one, and a slash at the end
says that a directory is meant.

* `FilePath.ofText`: the path of a text.
* `Place.move`: where a step leads from a place.
-/

namespace HeapWatch

inductive PathStep where
  /-- A single dot leads no further. -/
  | stay
  /-- Two dots lead back. -/
  | back
  | enter (name : String)
deriving DecidableEq, Repr

namespace PathStep

/-- The step that a text between slashes stands for, if it stands for one. -/
def ofText? (text : String) : Option PathStep :=
  if text = "" then none
  else if text = "." then some .stay
  else if text = ".." then some .back
  else some (.enter text)

end PathStep

/-- A path: where it starts, its steps, and whether it ends in a slash. -/
structure FilePath where
  isRooted : Bool
  steps : List PathStep
  isSlashed : Bool
deriving DecidableEq, Repr

namespace FilePath

/-- The most bytes that a path can have. -/
def longest : Nat := 4095

/-- The texts between slashes. -/
def pieces (chars : List Char) : List (List Char) :=
  chars.foldr (fun c found =>
    match found with
    | [] => [[c]]
    | piece :: rest => if c = '/' then [] :: piece :: rest else (c :: piece) :: rest) [[]]

/-- The steps that the texts between slashes stand for. -/
def stepsOf (chars : List Char) : List PathStep :=
  ((pieces chars).map String.ofList).filterMap PathStep.ofText?

/-- The path of a text. The empty text is the path to nothing. -/
def ofText (text : String) : Except FileFault FilePath :=
  let chars := text.toList
  if '\x00' ∈ chars then .error .nulInPath
  else if chars.isEmpty then .error .notFound
  else if longest < text.utf8ByteSize then .error .nameTooLong
  else .ok {
    isRooted := chars.head? = some '/'
    steps := stepsOf chars
    isSlashed := chars.getLast? = some '/' }

end FilePath

/-- A place in the tree of files: the names that lead to it from the root. -/
structure Place where
  names : List String
deriving DecidableEq, Repr

namespace Place

/-- The most bytes that a name can have. -/
def longestName : Nat := 255

def root : Place := ⟨[]⟩

/-- The directory that a program works in where no other is given. -/
def work : Place := ⟨["work"]⟩

/-- The place that holds a place. The root is in itself. -/
def back (p : Place) : Place := ⟨p.names.dropLast⟩

def move (p : Place) : PathStep → Place
  | .stay => p
  | .back => p.back
  | .enter name => ⟨p.names ++ [name]⟩

/-- The place of a text that names it from the root. -/
def ofText (text : String) : Place := (FilePath.stepsOf text.toList).foldl move root

/-- Whether the last name of a place is longer than any name can be. -/
def isTooLong (p : Place) : Bool := p.names.getLast?.any (longestName < ·.utf8ByteSize)

/-- The places that the names go through before they reach the place. -/
def onTheWay (p : Place) : List Place :=
  (List.range p.names.length).map fun k => ⟨p.names.take k⟩

/-- Whether a place is another one or holds it. -/
def holds (p q : Place) : Bool := p.names.isPrefixOf q.names

end Place

/-- Where a path starts for a program that works in a directory. -/
def FilePath.start (path : FilePath) (working : Place) : Place :=
  if path.isRooted then .root else working

/-- Where a path leads by its names alone, whatever is there. -/
def FilePath.place (path : FilePath) (working : Place := .work) : Place :=
  path.steps.foldl Place.move (path.start working)

end HeapWatch
