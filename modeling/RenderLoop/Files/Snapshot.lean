import RenderLoop.Files.Basic
import RenderLoop.Tree.Rows

/-!
# Written file systems

A file system can be written down as a list of entries. Each entry has a path
below a common directory, and is a text with an optional parse tree, bytes in
hexadecimal digits, a directory, or a link.
-/

namespace RenderLoop

namespace Snapshot

/-- The value of a hexadecimal digit. -/
def nibble (c : Char) : Nat :=
  if c.isDigit then c.toNat - '0'.toNat else c.toNat - 'a'.toNat + 10

/-- The bytes that pairs of hexadecimal digits stand for. -/
def bytesOf : List Char → List UInt8
  | a :: b :: rest => (nibble a * 16 + nibble b).toUInt8 :: bytesOf rest
  | _ => []

def textUnder (entry : Value) (name : String) : String :=
  ((entry.get? name).bind Value.asText?).getD ""

/-- The item an entry describes. A parse tree belongs to the text with its
newlines unified. -/
def itemOf (modified : Nat) (entry : Value) : Item :=
  if (entry.get? "link").isSome then .link (.ofString (textUnder entry "link"))
  else if (entry.get? "hex").isSome then
    .file ⟨⟨(bytesOf (textUnder entry "hex").toList).toArray⟩, none, modified⟩
  else if (entry.get? "dir").any Value.isTruthy then .directory
  else
    let text := textUnder entry "text"
    let unified := String.ofList (unifyNewlines text.toList)
    let tree := ((entry.get? "cst").bind Row.listOfValue?).bind
      (Tree.ofRows? unified)
    .file ⟨text.toUTF8, tree, modified⟩

/-- Puts the items that entries describe below a directory. -/
def putAll (modified : Nat) (root : Path) (fs : FileSystem)
    (entries : List Value) : FileSystem :=
  entries.foldl (fun fs e => fs.put (root.child (textUnder e "path")).names
    (itemOf modified e)) fs

/-- A file system that holds nothing but a directory, which is the current
one, and what entries describe below it. -/
def read (root : Path) (entries : List Value) : FileSystem :=
  putAll 0 root (({ current := root.names } : FileSystem).addDirectories
    root.names) entries

end Snapshot

end RenderLoop
