import RenderLoop.Data.Toml.Reader

/-!
# TOML documents

A document is built statement by statement. A table may be given in several
places as long as no place says again what another has said: a header opens a
table once, a list or table written in place cannot be extended, and a dotted
key does not reach into a table that has a header of its own.
-/

namespace RenderLoop

namespace Toml

/-- A document in the making. -/
structure Document where
  content : Table Value := []
  /-- The table that pairs go into. -/
  header : Key := []
  /-- Keys whose values were written in place; nothing can be added below
  them. -/
  closed : List Key := []
  /-- Keys that no header may open and no dotted key may pass through. -/
  opened : List Key := []
  /-- Keys that join `opened` at the next header. -/
  pending : List Key := []
  deriving Inhabited

/-- Changes the table under a key. Tables are made as needed, and a list of
tables stands for its last item. -/
def changeAt? (f : Table Value → Option (Table Value)) :
    (key : Key) → Table Value → Option (Table Value)
  | [], t => f t
  | name :: more, t =>
    match t.get? name with
    | none =>
      (changeAt? f more []).map fun inner => t.insert name (.table inner)
    | some (.table inner) =>
      (changeAt? f more inner).map fun inner => t.insert name (.table inner)
    | some (.list items) =>
      match items.getLast? with
      | some (.table inner) =>
        (changeAt? f more inner).map fun inner =>
          t.insert name (.list (items.dropLast ++ [.table inner]))
      | _ => none
    | some _ => none

/-- Adds an empty item to the list of tables under a name. -/
def addItem? (name : String) (t : Table Value) : Option (Table Value) :=
  match t.get? name with
  | none => some (t.insert name (.list [.table []]))
  | some (.list items) => some (t.insert name (.list (items ++ [.table []])))
  | some _ => none

/-- Sets a name that is not taken. -/
def setNew? (name : String) (v : Value) (t : Table Value) :
    Option (Table Value) :=
  if t.contains name then none else some (t.insert name v)

namespace Document

/-- A key below which everything is closed. -/
def isClosed (d : Document) (key : Key) : Bool :=
  d.closed.any fun k => k.isPrefixOf key

/-- The pending keys take effect. -/
def settle (d : Document) : Document :=
  { d with opened := d.opened ++ d.pending, pending := [] }

/-- The header of a table. -/
def openTable? (d : Document) (key : Key) : Option Document :=
  let d := d.settle
  if d.opened.contains key || d.isClosed key then none
  else do
    let content ← changeAt? some key d.content
    some { d with content, header := key, opened := key :: d.opened }

/-- The header of an item; what was said about earlier items does not bind
it. -/
def openItem? (d : Document) (key : Key) : Option Document :=
  let d := d.settle
  if d.isClosed key then none
  else
    match key.getLast? with
    | none => none
    | some name => do
      let content ← changeAt? (addItem? name) key.dropLast d.content
      some { d with
        content
        header := key
        closed := d.closed.filter fun k => !key.isPrefixOf k
        opened := key :: d.opened.filter fun k => !key.isPrefixOf k }

/-- The tables a dotted key passes through, seen from the root. -/
def passed (header key : Key) : List Key :=
  (List.range (key.length - 1)).map fun i => header ++ key.take (i + 1)

/-- A pair, in the table of the last header. -/
def addPair? (d : Document) (p : Pair) : Option Document :=
  let through := passed d.header p.key
  let parent := d.header ++ p.key.dropLast
  if through.any d.opened.contains ||
    (!parent.isEmpty && d.isClosed parent) then none
  else
    match p.key.getLast? with
    | none => none
    | some name => do
      let content ← changeAt? (setNew? name p.value) parent d.content
      some { d with
        content
        pending := d.pending ++ through
        closed := if isContainer p.value then d.closed ++ [d.header ++ p.key]
          else d.closed }

def add? (d : Document) : Statement → Option Document
  | .pair p => d.addPair? p
  | .table key => d.openTable? key
  | .item key => d.openItem? key

end Document

/-- The table that a text describes. -/
def parse? (text : String) : Option (Table Value) := do
  let d ← (← statements? text).foldlM Document.add? {}
  some d.content

end Toml

end RenderLoop
