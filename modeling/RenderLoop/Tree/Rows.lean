import RenderLoop.Tree.Walk
import RenderLoop.Data.Value

/-!
# Parse trees as rows

A parse tree travels as the preorder list of its nodes, each with its byte
range and the number of its children. `Tree.ofRows?` puts the tree together
and fills in what the source decides: the text of every node, its line (one
more than the line breaks before it) and its column (the bytes since the last
line break).
-/

namespace RenderLoop

/-- One node of a flattened tree. The spelling of a token's kind starts with a
quote. -/
structure Row where
  spelling : String
  start : Nat
  stop : Nat
  childCount : Nat
  field : Option String := none
  missing : Bool := false
  deriving Repr, Inhabited

/-- A source text with the line of every byte offset worked out. -/
structure SourceIndex where
  bytes : ByteArray
  /-- The number of line breaks before each offset. -/
  rows : Array Nat
  /-- The offset at which each line starts. -/
  starts : Array Nat

namespace SourceIndex

/-- The number of line breaks before each position of a text, `seen` of them
before the first. -/
def breaksBefore (seen : Nat) : List UInt8 → List Nat
  | [] => [seen]
  | b :: bs => seen :: breaksBefore (if b = 10 then seen + 1 else seen) bs

/-- The offsets right after the line breaks of a text that starts at
`offset`. -/
def afterBreaks (offset : Nat) : List UInt8 → List Nat
  | [] => []
  | b :: bs =>
    if b = 10 then (offset + 1) :: afterBreaks (offset + 1) bs
    else afterBreaks (offset + 1) bs

def ofText (text : String) : SourceIndex :=
  let bytes := text.toUTF8
  let list := bytes.toList
  ⟨bytes, (breaksBefore 0 list).toArray, (0 :: afterBreaks 0 list).toArray⟩

/-- The line of an offset, counted from zero. -/
def row (s : SourceIndex) (offset : Nat) : Nat := s.rows.getD offset 0

/-- The bytes between the start of the line and an offset. -/
def column (s : SourceIndex) (offset : Nat) : Nat :=
  offset - s.starts.getD (s.row offset) 0

/-- The text between two offsets. -/
def slice (s : SourceIndex) (start stop : Nat) : String :=
  (String.fromUTF8? (s.bytes.extract start stop)).getD ""

end SourceIndex

/-- The label of a row. -/
def Row.label (source : SourceIndex) (r : Row) : Label :=
  let (named, spelling) :=
    match r.spelling.toList with
    | '\'' :: rest => (false, String.ofList rest)
    | _ => (true, r.spelling)
  { kind := Kind.ofName spelling
    named := named
    missing := r.missing
    field := r.field.map Field.ofName
    start := r.start
    stop := r.stop
    text := source.slice r.start r.stop
    line := source.row r.start + 1
    column := source.column r.start
    endLine := source.row r.stop + 1 }

namespace Tree

/-- Takes `count` trees off the front of the rows. Each step down or to the
side uses up a row, so the number of rows bounds the recursion. -/
def takeTrees (source : SourceIndex) :
    Nat → Nat → List Row → Option (List Tree × List Row)
  | _, 0, rows => some ([], rows)
  | 0, _ + 1, _ => none
  | _ + 1, _ + 1, [] => none
  | fuel + 1, count + 1, r :: rows => do
    let (children, rows) ← takeTrees source fuel r.childCount rows
    let (siblings, rows) ← takeTrees source fuel count rows
    return (node (r.label source) children :: siblings, rows)

/-- The tree the rows describe, if they describe exactly one. -/
def ofRows? (text : String) (rows : List Row) : Option Tree :=
  match takeTrees (SourceIndex.ofText text) (rows.length + 1) 1 rows with
  | some ([t], []) => some t
  | _ => none

end Tree

namespace Row

/-- Reads a row from the list `[kind, start, stop, children, field, missing]`,
the last two of which may be left out. -/
def ofValue? (v : Value) : Option Row := do
  let items ← v.asList?
  let spelling ← (← items[0]?).asText?
  let start ← (← items[1]?).asInt?
  let stop ← (← items[2]?).asInt?
  let count ← (← items[3]?).asInt?
  let field := items[4]?.bind Value.asText?
  let missing := (items[5]?.bind Value.asInt?) == some 1
  return ⟨spelling, start.toNat, stop.toNat, count.toNat, field, missing⟩

/-- Reads a list of rows. -/
def listOfValue? (v : Value) : Option (List Row) := do
  (← v.asList?).mapM ofValue?

end Row

end RenderLoop
