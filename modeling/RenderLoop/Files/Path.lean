import RenderLoop.Text.Quoted

/-!
# Paths

A path is a chain of names, counted from the root or from the current
directory. Reading a path drops empty names and single points but keeps double
points, since these can only be followed when it is known what the names
before them stand for. A root written as exactly two slashes is kept apart.

Not every text can be the name of a file. A name with the character that ends
texts cannot be asked for, nor one with half of a surrogate pair
(`Path.nameFault?`).
-/

namespace RenderLoop

/-- What a path is counted from. -/
inductive Anchor where
  | current
  | root
  /-- The root written with two slashes. -/
  | doubleRoot
  deriving DecidableEq, Repr, Inhabited

/-- A path, relative or absolute. -/
structure Path where
  anchor : Anchor
  names : List String
  deriving DecidableEq, Repr, Inhabited

namespace Path

/-- The anchor a written path starts with. -/
def anchorOf : List Char → Anchor
  | '/' :: '/' :: '/' :: _ => .root
  | '/' :: '/' :: _ => .doubleRoot
  | '/' :: _ => .root
  | _ => .current

/-- The names between the slashes of a written path. -/
def namesOf (written : String) : List String :=
  ((written.toList.splitOn '/').map String.ofList).filter fun n =>
    n != "" && n != "."

def ofString (written : String) : Path :=
  ⟨anchorOf written.toList, namesOf written⟩

def isAbsolute (p : Path) : Bool := p.anchor != .current

def anchorText : Anchor → String
  | .current => ""
  | .root => "/"
  | .doubleRoot => "//"

/-- The path as written; the current directory is a point. -/
def text (p : Path) : String :=
  if p.anchor = .current && p.names.isEmpty then "." else anchorText p.anchor ++
    "/".intercalate p.names

/-- A path below another; an absolute path stands for itself. -/
def join (p q : Path) : Path :=
  if q.isAbsolute then q else ⟨p.anchor, p.names ++ q.names⟩

/-- A path written down, seen from another. -/
def child (p : Path) (written : String) : Path := p.join (ofString written)

def parent (p : Path) : Path := ⟨p.anchor, p.names.dropLast⟩

/-- The last name, empty at the root. -/
def name (p : Path) : String := p.names.getLast?.getD ""

/-- The point of a name that sets its ending apart, and what follows it: the
last point, unless it is the first or the last character. -/
def endingOf (cs : List Char) : List Char :=
  let tail := (cs.reverse.takeWhile (· != '.')).reverse
  if tail.isEmpty || cs.length ≤ tail.length + 1 then [] else '.' :: tail

/-- The ending of the last name, point included; empty without one. -/
def suffix (p : Path) : String := String.ofList (endingOf p.name.toList)

/-- The last name without its ending. -/
def stem (p : Path) : String :=
  let cs := p.name.toList
  String.ofList (cs.take (cs.length - (endingOf cs).length))

/-- The path beside `p` with another last name; nothing at the root, which has
none to replace. -/
def withName? (p : Path) (name : String) : Option Path :=
  if p.name == "" then none else some ⟨p.anchor, p.names.dropLast ++ [name]⟩

/-- The path with another ending. -/
def withSuffix? (p : Path) (suffix : String) : Option Path :=
  p.withName? (p.stem ++ suffix)

/-- How many bytes a text takes in the names of files. -/
def bytesOf (text : String) : Nat :=
  text.toList.foldl (fun size c => size + if isStrayByte c then 1
    else c.utf8Size) 0

/-- The path's length as it is written, in bytes. -/
def size (p : Path) : Nat := bytesOf p.text

/-- The path as it is quoted in messages. -/
def quoted (p : Path) : String := "PosixPath(" ++ Quoted.text p.text ++ ")"

/-- What remains of a path below another one. -/
def relativeTo? (p base : Path) : Option Path :=
  if p.anchor = base.anchor ∧ base.names.isPrefixOf p.names then
    some ⟨.current, p.names.drop base.names.length⟩
  else none

/-- Order name by name; of two chains, one of which starts the other, the
shorter comes first. -/
def namesLe : List String → List String → Bool
  | [], _ => true
  | _ :: _, [] => false
  | a :: as, b :: bs => if a = b then namesLe as bs else decide (a < b)

/-- Order of paths, the anchor first. -/
def le (p q : Path) : Bool :=
  if anchorText p.anchor ≠ anchorText q.anchor then
    decide (anchorText p.anchor < anchorText q.anchor)
  else namesLe p.names q.names

/-- The path and all above it, nearest first. -/
def andAbove (p : Path) : List Path :=
  (List.range (p.names.length + 1)).reverse.map fun k =>
    ⟨p.anchor, p.names.take k⟩

end Path

/-- What can go wrong when a path is looked at. -/
inductive PathError where
  /-- The path runs in circles through links. -/
  | linkLoop (path : Path)
  /-- A name holds the character that ends texts. -/
  | nul
  /-- A name holds half of a surrogate pair that stands for no byte. -/
  | halfPair
  /-- The path or a name of it is longer than can be asked for. -/
  | tooLong
  /-- A directory on the way may not be searched. -/
  | denied
  deriving DecidableEq, Repr, Inhabited

def PathError.message : PathError → String
  | linkLoop path => "Symlink loop from " ++ Quoted.text path.text
  | nul => "embedded null byte"
  | halfPair => "surrogates not allowed"
  | tooLong => "File name too long"
  | denied => "Permission denied"

namespace Path

/-- What keeps a name from being that of a file. -/
def nameFault? (name : String) : Option PathError :=
  if name.toList.any fun c => isHalf c && !isStrayByte c then some .halfPair
  else if name.toList.contains '\x00' then some .nul
  else none

/-- What is wrong with the first name that no file can have. -/
def fault? (p : Path) : Option PathError := p.names.findSome? nameFault?

end Path

end RenderLoop
