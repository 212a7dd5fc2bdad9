import RenderLoop.Files.Path
import RenderLoop.Text.Lines
import RenderLoop.Tree.Basic

/-!
# File systems

A file system is a value: the items below the root, each at its place, the
current directory, the directories that may not be searched, and the limits of
the machine. Paths are followed name by name through directories and links.

There are two ways to ask about a path. `FileSystem.look` follows it to what
is there, as the system does when it is asked for a file: it goes up from the
root to the root again, passes through at most `maxLinks` links, and may
refuse to answer. A directory that is closed ends the way with an error, and
so does a name or a path that is too long. Nothing being there is an answer,
and so is a way that runs in circles or through a file.

`FileSystem.resolve` works out the path free of links and double points,
whether or not there is anything. It takes a name that it may not look at for
what it is. Where links run in circles it gives up on them and puts the rest
together name by name; it fails if the system finds too many links on that
path, or if a name cannot be that of a file.

A stored source comes with the parse tree of its text.
-/

namespace RenderLoop

/-- The content of a file. -/
structure StoredFile where
  bytes : ByteArray
  /-- The parse tree of the text, for sources. -/
  tree : Option Tree := none
  /-- When the file was last changed, in steps. -/
  modified : Nat := 0
  deriving Inhabited

/-- What is at a place. -/
inductive Item where
  | file (content : StoredFile)
  | directory
  | link (target : Path)
  deriving Inhabited

/-- The names that lead from the root to an item, without links. -/
abbrev Place := List String

/-- How far things may go on a machine. -/
structure Limits where
  /-- How long a name may be, in bytes. -/
  name : Nat := 255
  /-- How long a path may be, in bytes. -/
  path : Nat := 4095
  /-- How many lists and tables of a document may be open at once while it is
  read. -/
  nesting : Nat := 970
  deriving DecidableEq, Repr, Inhabited

/-- The items below the root. -/
structure FileSystem where
  items : List (Place × Item) := []
  current : Place := []
  /-- The directories that may not be searched. -/
  closed : List Place := []
  limits : Limits := {}
  deriving Inhabited

namespace FileSystem

/-- The item at a place; the root is a directory. -/
def itemAt? (fs : FileSystem) (place : Place) : Option Item :=
  if place.isEmpty then some .directory
  else (fs.items.find? (·.1 == place)).map (·.2)

/-- Where a path starts. -/
def startOf (fs : FileSystem) (p : Path) : Place :=
  if p.isAbsolute then [] else fs.current

/-- Where a link met in a directory leads on from. -/
def linkStart (here : Place) (target : Path) : Place :=
  if target.isAbsolute then [] else here

/-! ### What is at a path -/

/-- How many links a path may pass through. -/
def maxLinks : Nat := 40

/-- Follows names from a directory to an item, through at most `links` links. -/
def walk (fs : FileSystem) (links : Nat) (here : Place) :
    List String → Except PathError (Option (Place × Item))
  | [] => .ok (some (here, .directory))
  | name :: rest =>
    if fs.closed.contains here then .error .denied
    else if name == ".." then walk fs links here.dropLast rest
    else if fs.limits.name < Path.bytesOf name then .error .tooLong
    else
      match fs.itemAt? (here ++ [name]) with
      | some (.file f) =>
        .ok (if rest.isEmpty then some (here ++ [name], .file f) else none)
      | some .directory => walk fs links (here ++ [name]) rest
      | some (.link target) =>
        match _h : links with
        | 0 => .error (.linkLoop ⟨.root, here ++ name :: rest⟩)
        | left + 1 =>
          walk fs left (linkStart here target) (target.names ++ rest)
      | none => .ok none
termination_by names => (links, names.length)
decreasing_by
  · exact Prod.Lex.right _ (by simp)
  · exact Prod.Lex.right _ (by simp)
  · exact Prod.Lex.left _ _ (by omega)

/-- Follows a path to what it leads to, if it is not too long. -/
def seek (fs : FileSystem) (p : Path) :
    Except PathError (Option (Place × Item)) :=
  if fs.limits.path < p.size then .error .tooLong
  else fs.walk maxLinks (fs.startOf p) p.names

/-- A path on which there are too many links to follow. -/
def circles (fs : FileSystem) (p : Path) : Bool :=
  match fs.seek p with
  | .error (.linkLoop _) => true
  | _ => false

/-- What a path leads to, and where it is. A path with a name that no file can
have leads nowhere, and so does one with too many links. -/
def look (fs : FileSystem) (p : Path) :
    Except PathError (Option (Place × Item)) :=
  if p.fault?.isSome || fs.circles p then .ok none else fs.seek p

/-- Whether a path leads to a file. -/
def isFile (fs : FileSystem) (p : Path) : Except PathError Bool := do
  match ← fs.look p with
  | some (_, .file _) => return true
  | _ => return false

/-- Whether a path leads to a directory. -/
def isDirectory (fs : FileSystem) (p : Path) : Except PathError Bool := do
  match ← fs.look p with
  | some (_, .directory) => return true
  | _ => return false

/-- The first of several paths that leads to a file. -/
def firstFile (fs : FileSystem) (paths : List Path) :
    Except PathError (Option Path) :=
  paths.findM? fs.isFile

/-! ### What can be seen of it

A refusal to answer is here as good as nothing. -/

/-- What a path leads to, if it can be seen. -/
def find? (fs : FileSystem) (p : Path) : Option (Place × Item) :=
  (fs.look p).toOption.join

/-- The file a path leads to. -/
def file? (fs : FileSystem) (p : Path) : Option StoredFile :=
  match fs.find? p with
  | some (_, .file f) => some f
  | _ => none

/-- A path is seen to lead to a directory. -/
def seesDirectory (fs : FileSystem) (p : Path) : Bool :=
  match fs.find? p with
  | some (_, .directory) => true
  | _ => false

def contains (fs : FileSystem) (p : Path) : Bool := (fs.find? p).isSome

/-- The path itself is a link, whatever it leads to. -/
def isLink (fs : FileSystem) (p : Path) : Bool :=
  match fs.find? p.parent with
  | some (place, .directory) =>
    match p.names.getLast?.bind fun name => fs.itemAt? (place ++ [name]) with
    | some (.link _) => true
    | _ => false
  | _ => false

/-! ### Paths without links -/

/-- A place can be asked about: it is not too long, and no directory above it is
closed. -/
def reaches (fs : FileSystem) (spot : Place) : Bool :=
  decide ((⟨.root, spot⟩ : Path).size ≤ fs.limits.path) &&
    spot.all (fun name => decide (Path.bytesOf name ≤ fs.limits.name)) &&
    !fs.closed.any fun d => decide (d.length < spot.length) && d.isPrefixOf spot

/-- The target of the link that is seen at a place. -/
def linkAt? (fs : FileSystem) (spot : Place) : Option Path :=
  if fs.reaches spot then
    match fs.itemAt? spot with
    | some (.link target) => some target
    | _ => none
  else none

/-- The place that names lead to from `here`. A name that nothing is known about
stands for itself. `active` are the links being followed; meeting one of them
again is a loop. -/
def place (fs : FileSystem) (links : Nat) (active : List Place) (here : Place) :
    List String → Except Place Place
  | [] => .ok here
  | name :: rest =>
    if name == ".." then place fs links active here.dropLast rest
    else
      let spot := here ++ [name]
      match fs.linkAt? spot with
      | some target =>
        match _h : links with
        | 0 => .error (spot ++ rest)
        | left + 1 =>
          if active.contains spot then .error (spot ++ rest)
          else
            match place fs left (spot :: active) (linkStart here target)
              target.names with
            | .ok here => place fs links active here rest
            | .error e => .error (e ++ rest)
      | none => place fs links active spot rest
termination_by names => (links, names.length)
decreasing_by
  · exact Prod.Lex.right _ (by simp)
  · exact Prod.Lex.left _ _ (by omega)
  · subst _h; exact Prod.Lex.right _ (by simp)
  · exact Prod.Lex.right _ (by simp)

/-- The place that names make up with no regard to links. -/
def unwind (here : Place) : List String → Place
  | [] => here
  | name :: rest =>
    if name == ".." then unwind here.dropLast rest
    else unwind (here ++ [name]) rest

/-- How many links there are. -/
def linkCount (fs : FileSystem) : Nat :=
  fs.items.countP fun (_, item) => match item with
    | .link _ => true
    | _ => false

/-- The path free of links and double points. Behind a loop of links the names
stand for themselves, as long as the path they make does not pass through too
many links. -/
def resolve (fs : FileSystem) (p : Path) : Except PathError Path :=
  match p.fault? with
  | some e => .error e
  | none =>
    match fs.place (fs.linkCount + 1) [] (fs.startOf p) p.names with
    | .ok names => .ok ⟨.root, names⟩
    | .error names =>
      let left : Path := ⟨.root, unwind [] names⟩
      if fs.circles left then .error (.linkLoop left) else .ok left

/-! ### Directories -/

/-- The names in a directory. -/
def namesIn (fs : FileSystem) (place : Place) : List String :=
  fs.items.filterMap fun (there, _) =>
    match there.getLast? with
    | some name => if there.dropLast == place then some name else none
    | none => none

/-- The directory a path belongs to: the path itself, or the one a file is
in. -/
def directoryOf (fs : FileSystem) (p : Path) : Except PathError Path := do
  if ← fs.isFile p then return p.parent else return p

/-! ### Changes -/

/-- Puts an item at a place. -/
def putItem (fs : FileSystem) (place : Place) (item : Item) : FileSystem :=
  if fs.items.any (·.1 == place) then
    { fs with items := fs.items.map fun e =>
        if e.1 == place then (place, item) else e }
  else { fs with items := fs.items ++ [(place, item)] }

/-- Makes a directory unless there is something already. -/
def addDirectory (fs : FileSystem) (place : Place) : FileSystem :=
  if (fs.itemAt? place).isSome then fs else fs.putItem place .directory

/-- Makes a directory and those above it. -/
def addDirectories (fs : FileSystem) (place : Place) : FileSystem :=
  ((List.range (place.length + 1)).map place.take).foldl addDirectory fs

/-- Puts an item at a place and makes the directories above it. -/
def put (fs : FileSystem) (place : Place) (item : Item) : FileSystem :=
  (fs.addDirectories place.dropLast).putItem place item

end FileSystem

/-- The text of a file, if it is well formed; every newline is a line feed. -/
def StoredFile.text? (f : StoredFile) : Option String :=
  (String.fromUTF8? f.bytes).map fun s => String.ofList (unifyNewlines s.toList)

end RenderLoop
