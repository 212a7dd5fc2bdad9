import RenderLoop.Data.Json

/-!
# Option (TOML × List Char) statements

A TOML text is a sequence of statements, one a line: a key with its value, the
header of a table, or the header of one more item of a list of tables.
`Toml.statements?` reads them one by one; what they mean together is the
business of the document.

Strings are read by an automaton that goes from character to character. Lists
and inline tables nest, and the length of the text bounds how deep.
-/

namespace RenderLoop

namespace Toml

/-- The names of a dotted key. -/
abbrev Key := List String

/-- A key with its value. -/
structure Pair where
  key : Key
  value : Value
  deriving Inhabited

inductive Statement where
  | pair (p : Pair)
  | table (key : Key)
  | item (key : Key)
  deriving Inhabited

def isBlank (c : Char) : Bool := c == ' ' || c == '\t'

def isBlankOrNewline (c : Char) : Bool := isBlank c || c == '\n'

def skipBlanks (cs : List Char) : List Char := cs.dropWhile isBlank

/-- A control character other than a tab. -/
def isControl (c : Char) : Bool := (c.toNat < 0x20 && c != '\t') || c == '\x7f'

def isBareKeyChar (c : Char) : Bool := c.isAlphanum || c == '-' || c == '_'

def isHexDigit (c : Char) : Bool := (Json.hexDigit? c).isSome

/-- Skips a comment, if there is one, up to the end of its line. -/
def skipComment? (cs : List Char) : Option (List Char) :=
  match cs with
  | '#' :: rest =>
    if (rest.takeWhile (· != '\n')).any isControl then none
    else some (rest.dropWhile (· != '\n'))
  | rest => some rest

/-! ### Strings -/

/-- Where the automaton for strings stands. -/
inductive Mode where
  | plain
  /-- Behind a backslash. -/
  | escape
  /-- Within the digits of a character number, with how many are still to come
  and their value. -/
  | digits (left value : Nat)
  /-- Within an escaped line end, before or behind the newline. -/
  | gap (newline : Bool)
  deriving DecidableEq, Repr, Inhabited

/-- The character a single-letter escape stands for. -/
def escaped? : Char → Option Char
  | 'b' => some '\x08'
  | 't' => some '\t'
  | 'n' => some '\n'
  | 'f' => some '\x0c'
  | 'r' => some '\r'
  | '"' => some '"'
  | '\\' => some '\\'
  | _ => none

def isScalar (u : Nat) : Bool := u < 0xD800 || (0xE000 ≤ u && u < 0x110000)

/-- Reads a string whose opening quotes are behind, up to its closing quotes;
`done` holds its characters in reverse. -/
def basic? (multiline : Bool) (mode : Mode) (done : List Char) :
    List Char → Option (List Char × List Char)
  | [] => none
  | c :: rest =>
    match (if mode == .gap true && !isBlankOrNewline c then .plain
      else mode : Mode) with
    | .plain =>
      if c == '"' then
        if !multiline then some (done.reverse, rest)
        else if rest.take 2 == ['"', '"'] then some (done.reverse, rest.drop 2)
        else basic? multiline .plain (c :: done) rest
      else if c == '\\' then basic? multiline .escape done rest
      else if isControl c && !(multiline && c == '\n') then none
      else basic? multiline .plain (c :: done) rest
    | .escape =>
      if multiline && isBlankOrNewline c then
        basic? multiline (.gap (c == '\n')) done rest
      else if c == 'u' then basic? multiline (.digits 4 0) done rest
      else if c == 'U' then basic? multiline (.digits 8 0) done rest
      else
        match escaped? c with
        | some x => basic? multiline .plain (x :: done) rest
        | none => none
    | .digits left value =>
      match Json.hexDigit? c with
      | none => none
      | some d =>
        let value := 16 * value + d
        if 1 < left then basic? multiline (.digits (left - 1) value) done rest
        else if isScalar value then
          basic? multiline .plain (Char.ofNat value :: done) rest
        else none
    | .gap newline =>
      if newline || c == '\n' then basic? multiline (.gap true) done rest
      else if isBlank c then basic? multiline (.gap false) done rest
      else none

/-- Reads a string without escapes whose opening quotes are behind. -/
def literal? (multiline : Bool) (done : List Char) :
    List Char → Option (List Char × List Char)
  | [] => none
  | c :: rest =>
    if c == '\'' && (!multiline || rest.take 2 == ['\'', '\'']) then
      some (done.reverse, if multiline then rest.drop 2 else rest)
    else if isControl c && !(multiline && c == '\n') then none
    else literal? multiline (c :: done) rest

/-- Up to two more quotes behind the closing ones belong to the string. -/
def withExtraQuotes (quote : Char) (s rest : List Char) :
    List Char × List Char :=
  let extra := (rest.take 2).takeWhile (· == quote)
  (s ++ extra, rest.drop extra.length)

/-- A newline right behind the opening quotes does not belong to the string. -/
def afterOpening : List Char → List Char
  | '\n' :: rest => rest
  | cs => cs

/-- Reads a string of any kind. -/
def string? : List Char → Option (String × List Char)
  | '"' :: '"' :: '"' :: rest =>
    (basic? true .plain [] (afterOpening rest)).map fun (s, r) =>
      let (s, r) := withExtraQuotes '"' s r
      (String.ofList s, r)
  | '"' :: rest =>
    (basic? false .plain [] rest).map fun (s, r) => (String.ofList s, r)
  | '\'' :: '\'' :: '\'' :: rest =>
    (literal? true [] (afterOpening rest)).map fun (s, r) =>
      let (s, r) := withExtraQuotes '\'' s r
      (String.ofList s, r)
  | '\'' :: rest =>
    (literal? false [] rest).map fun (s, r) => (String.ofList s, r)
  | _ => none

/-! ### Keys -/

/-- Reads one part of a key: a bare word, or a string on one line. -/
def keyPart? : List Char → Option (String × List Char)
  | '"' :: rest =>
    (basic? false .plain [] rest).map fun (s, r) => (String.ofList s, r)
  | '\'' :: rest =>
    (literal? false [] rest).map fun (s, r) => (String.ofList s, r)
  | cs =>
    let word := cs.takeWhile isBareKeyChar
    if word.isEmpty then none
    else some (String.ofList word, cs.drop word.length)

/-- Reads a key of parts joined by points; blanks may stand around the points
and behind the key. -/
def key? : (fuel : Nat) → List Char → Option (Key × List Char)
  | 0, _ => none
  | fuel + 1, cs => do
    let (part, rest) ← keyPart? cs
    match skipBlanks rest with
    | '.' :: rest =>
      let (more, rest) ← key? fuel (skipBlanks rest)
      some (part :: more, rest)
    | rest => some ([part], rest)

/-! ### Numbers, dates and times -/

/-- Digits at the front of a text, with single underscores between them, which
are left out. -/
def digitRun (isDigit : Char → Bool) : List Char → List Char × List Char
  | '_' :: c :: rest =>
    if isDigit c then
      let (ds, r) := digitRun isDigit rest
      (c :: ds, r)
    else ([], '_' :: c :: rest)
  | c :: rest =>
    if isDigit c then
      let (ds, r) := digitRun isDigit rest
      (c :: ds, r)
    else ([], c :: rest)
  | [] => ([], [])

/-- Reads digits of which there must be one at the very front. -/
def digits? (isDigit : Char → Bool) (cs : List Char) :
    Option (List Char × List Char) :=
  match cs with
  | c :: _ => if isDigit c then some (digitRun isDigit cs) else none
  | [] => none

/-- The value of digits to a base. -/
def valueOf (base : Nat) (ds : List Char) : Nat :=
  ds.foldl (fun n c => base * n + (Json.hexDigit? c).getD 0) 0

/-- Reads a number with a letter for its base. -/
def based? : List Char → Option (Value × List Char)
  | '0' :: letter :: rest =>
    let read (base : Nat) (isDigit : Char → Bool) :
        Option (Value × List Char) :=
      (digits? isDigit rest).map fun (ds, r) => (.int (valueOf base ds), r)
    match letter with
    | 'x' => read 16 isHexDigit
    | 'b' => read 2 fun c => c == '0' || c == '1'
    | 'o' => read 8 fun c => '0' ≤ c && c ≤ '7'
    | _ => none
  | _ => none

/-- The fraction at the front of a text, empty if there is none. -/
def fraction (cs : List Char) : List Char × List Char :=
  match cs with
  | '.' :: rest =>
    match digits? Char.isDigit rest with
    | some (ds, r) => ('.' :: ds, r)
    | none => ([], cs)
  | _ => ([], cs)

/-- A sign at the front of a text. -/
def sign : List Char → List Char × List Char
  | '+' :: rest => (['+'], rest)
  | '-' :: rest => (['-'], rest)
  | rest => ([], rest)

/-- The exponent at the front of a text, empty if there is none. -/
def exponent (cs : List Char) : List Char × List Char :=
  match cs with
  | c :: rest =>
    if c == 'e' || c == 'E' then
      let (s, rest) := sign rest
      match digits? Char.isDigit rest with
      | some (ds, r) => (c :: s ++ ds, r)
      | none => ([], cs)
    else ([], cs)
  | [] => ([], cs)

/-- Reads a decimal number: an integer, or a double if it has a fraction or an
exponent. -/
def decimal? (cs : List Char) : Option (Value × List Char) := do
  let (s, rest) := sign cs
  let negative := s == ['-']
  let (whole, rest) ←
    match rest with
    | '0' :: rest => some (['0'], rest)
    | rest => digits? Char.isDigit rest
  let (frac, rest) := fraction rest
  let (exp, rest) := exponent rest
  if frac.isEmpty && exp.isEmpty then
    let n : Int := Decimal.natOf whole
    some (.int (if negative then -n else n), rest)
  else
    let d ← Decimal.read? (whole ++ frac ++ exp)
    some (.float (d.toDouble negative), rest)

/-- Reads an unsigned number of exactly `width` digits within bounds. -/
def fixed? (width low high : Nat) (cs : List Char) : Option (Nat × List Char) :=
  let ds := cs.take width
  let n := Decimal.natOf ds
  if ds.length = width && ds.all Char.isDigit && low ≤ n && n ≤ high then
    some (n, cs.drop width) else none

/-- Goes past a character. -/
def expect? (c : Char) : List Char → Option (List Char)
  | x :: rest => if x == c then some rest else none
  | [] => none

/-- Reads a date by its figures alone. -/
def day? (cs : List Char) : Option (Day × List Char) := do
  let (year, rest) ← fixed? 4 0 9999 cs
  let (month, rest) ← fixed? 2 1 12 (← expect? '-' rest)
  let (day, rest) ← fixed? 2 1 31 (← expect? '-' rest)
  some (⟨year, month, day⟩, rest)

/-- The microseconds at the front of a text, of which further digits are
dropped. -/
def micros (cs : List Char) : Nat × List Char :=
  match cs with
  | '.' :: rest =>
    let ds := rest.takeWhile Char.isDigit
    if ds.isEmpty then (0, cs)
    else
      let shown := ds.take 6
      (Decimal.natOf (shown ++ List.replicate (6 - shown.length) '0'),
        rest.drop ds.length)
  | _ => (0, cs)

/-- Reads a time of day. -/
def clock? (cs : List Char) : Option (Clock × List Char) := do
  let (hour, rest) ← fixed? 2 0 23 cs
  let (minute, rest) ← fixed? 2 0 59 (← expect? ':' rest)
  let (second, rest) ← fixed? 2 0 59 (← expect? ':' rest)
  let (micro, rest) := micros rest
  some (⟨hour, minute, second, micro⟩, rest)

/-- The distance from universal time at the front of a text. -/
def offset (cs : List Char) : Option Int × List Char :=
  match cs with
  | c :: rest =>
    if c == 'Z' || c == 'z' then (some 0, rest)
    else if c == '+' || c == '-' then
      let read : Option (Nat × List Char) := do
        let (hours, rest) ← fixed? 2 0 23 rest
        let (minutes, rest) ← fixed? 2 0 59 (← expect? ':' rest)
        some (60 * hours + minutes, rest)
      match read with
      | some (n, rest) => (some (if c == '-' then -n else n), rest)
      | none => (none, cs)
    else (none, cs)
  | [] => (none, cs)

/-- Reads a date, with or without a time. Figures that are no date of the
calendar are an error, which is a reading with nothing in it. -/
def moment? (cs : List Char) : Option (Option Moment × List Char) :=
  match day? cs with
  | some (d, rest) =>
    let timed : Option (Clock × List Char) :=
      match rest with
      | c :: r => if c == 'T' || c == 't' || c == ' ' then clock? r else none
      | [] => none
    match timed with
    | some (c, rest) =>
      let (o, rest) := offset rest
      some (if d.isValid then some (.stamp d c o) else none, rest)
    | none => some (if d.isValid then some (.day d) else none, rest)
  | none => (clock? cs).map fun (c, rest) => (some (.clock c), rest)

/-- Reads one of the words for doubles that have no figures. -/
def word? : List Char → Option (Value × List Char)
  | 'i' :: 'n' :: 'f' :: rest => some (.float (.infinite false), rest)
  | 'n' :: 'a' :: 'n' :: rest => some (.float .nan, rest)
  | '+' :: 'i' :: 'n' :: 'f' :: rest => some (.float (.infinite false), rest)
  | '-' :: 'i' :: 'n' :: 'f' :: rest => some (.float (.infinite true), rest)
  | '+' :: 'n' :: 'a' :: 'n' :: rest => some (.float .nan, rest)
  | '-' :: 'n' :: 'a' :: 'n' :: rest => some (.float .nan, rest)
  | _ => none

/-- Reads a value that is neither a string, a list nor a table. -/
def plain? : List Char → Option (Value × List Char)
  | 't' :: 'r' :: 'u' :: 'e' :: rest => some (.bool true, rest)
  | 'f' :: 'a' :: 'l' :: 's' :: 'e' :: rest => some (.bool false, rest)
  | cs =>
    match moment? cs with
    | some (some m, rest) => some (.moment m, rest)
    | some (none, _) => none
    | none => (based? cs).or ((decimal? cs).or (word? cs))

/-! ### Inline tables -/

/-- Sets a key inside nested tables, which are made as needed; nothing if the
key is taken or runs into something that is not a table. -/
def define? : Table Value → Key → Value → Option (Table Value)
  | _, [], _ => none
  | t, [name], v => if t.contains name then none else some (t.insert name v)
  | t, name :: more, v =>
    match t.get? name with
    | none => (define? [] more v).map fun inner => t.insert name (.table inner)
    | some (.table inner) =>
      (define? inner more v).map fun inner => t.insert name (.table inner)
    | some _ => none

def isContainer : Value → Bool
  | .list _ | .table _ => true
  | _ => false

/-- Adds a pair to an inline table. What an earlier pair has set to a list or
table cannot be extended by a later one. -/
def addMember? (state : Table Value × List Key) (p : Pair) :
    Option (Table Value × List Key) :=
  let (t, closed) := state
  if closed.any fun k => k.isPrefixOf p.key then none
  else (define? t p.key p.value).map fun t =>
    (t, if isContainer p.value then closed ++ [p.key] else closed)

/-- The table of the pairs of an inline table. -/
def inline? (pairs : List Pair) : Option (Table Value) :=
  (pairs.foldlM addMember? ([], [])).map (·.1)

/-! ### Values -/

/-- Skips blanks, newlines and comments inside a list. -/
def skipInList? : (fuel : Nat) → List Char → Option (List Char)
  | 0, cs => some cs
  | fuel + 1, cs =>
    match cs.dropWhile isBlankOrNewline with
    | '#' :: rest => do skipInList? fuel (← skipComment? ('#' :: rest))
    | rest => some rest

mutual

/-- Reads a value. -/
def value? : (fuel : Nat) → List Char → Option (Value × List Char)
  | 0, _ => none
  | fuel + 1, cs =>
    match cs with
    | '"' :: _ | '\'' :: _ => (string? cs).map fun (s, r) => (.text s, r)
    | '[' :: rest => do
      let rest ← skipInList? rest.length rest
      match rest with
      | ']' :: rest => some (.list [], rest)
      | rest => items? fuel [] rest
    | '{' :: rest =>
      match skipBlanks rest with
      | '}' :: rest => some (.table [], rest)
      | rest => members? fuel [] rest
    | cs => plain? cs

/-- Reads the items of a list up to its closing bracket; `done` holds the
earlier ones in reverse. -/
def items? : (fuel : Nat) → List Value → List Char → Option (Value × List Char)
  | 0, _, _ => none
  | fuel + 1, done, cs => do
    let (v, rest) ← value? fuel cs
    match ← skipInList? rest.length rest with
    | ']' :: rest => some (.list (v :: done).reverse, rest)
    | ',' :: rest =>
      match ← skipInList? rest.length rest with
      | ']' :: rest => some (.list (v :: done).reverse, rest)
      | rest => items? fuel (v :: done) rest
    | _ => none

/-- Reads the pairs of an inline table up to its closing bracket. -/
def members? : (fuel : Nat) → List Pair → List Char → Option (Value × List Char)
  | 0, _, _ => none
  | fuel + 1, done, cs => do
    let (p, rest) ← pair? fuel cs
    match skipBlanks rest with
    | '}' :: rest => do
      let t ← inline? (p :: done).reverse
      some (.table t, rest)
    | ',' :: rest => members? fuel (p :: done) (skipBlanks rest)
    | _ => none

/-- Reads a key and its value. -/
def pair? : (fuel : Nat) → List Char → Option (Pair × List Char)
  | 0, _ => none
  | fuel + 1, cs => do
    let (key, rest) ← key? cs.length cs
    match rest with
    | '=' :: rest =>
      let (v, rest) ← value? fuel (skipBlanks rest)
      some (⟨key, v⟩, rest)
    | _ => none

end

/-! ### Statements -/

/-- Reads the header of a table or of an item. -/
def header? (opening : Nat) (cs : List Char) : Option (Key × List Char) := do
  let rest := skipBlanks (cs.drop opening)
  let (key, rest) ← key? rest.length rest
  if rest.take opening == List.replicate opening ']' then
    some (key, rest.drop opening) else none

/-- Reads one statement; a line may also hold none. -/
def statement? (cs : List Char) : Option (Option Statement × List Char) :=
  match cs with
  | '[' :: '[' :: _ => (header? 2 cs).map fun (key, r) => (some (.item key), r)
  | '[' :: _ => (header? 1 cs).map fun (key, r) => (some (.table key), r)
  | c :: _ =>
    if isBareKeyChar c || c == '"' || c == '\'' then
      (pair? (2 * cs.length + 2) cs).map fun (p, r) => (some (.pair p), r)
    else if c == '#' then some (none, cs)
    else none
  | [] => some (none, [])

/-- Reads all statements of a text. -/
def statementsFrom? : (fuel : Nat) → List Char → Option (List Statement)
  | 0, _ => none
  | fuel + 1, cs =>
    match skipBlanks cs with
    | [] => some []
    | '\n' :: rest => statementsFrom? fuel rest
    | cs => do
      let (s, rest) ← statement? cs
      match ← skipComment? (skipBlanks rest) with
      | [] => some s.toList
      | '\n' :: rest => return s.toList ++ (← statementsFrom? fuel rest)
      | _ => none

/-- Every carriage return before a line feed is dropped. -/
def joinNewlines : List Char → List Char
  | '\r' :: '\n' :: rest => '\n' :: joinNewlines rest
  | c :: rest => c :: joinNewlines rest
  | [] => []

/-- The statements of a text. -/
def statements? (text : String) : Option (List Statement) :=
  let cs := joinNewlines text.toList
  statementsFrom? (cs.length + 1) cs

end Toml

end RenderLoop
