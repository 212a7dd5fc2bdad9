import RenderLoop.Text.Regex.Basic
import RenderLoop.Text.Pattern
import RenderLoop.Data.Json

/-!
# Reading regular expressions

`Regex.parse` reads the written form of a regular expression or reports the
first fault with its position, counted in characters from zero. The reader
looks one token ahead, so a backslash at the very end is reported as soon as
the token before it has been taken.

It knows the part of the usual syntax that spellings of names are made of:

* characters, escapes of characters and of the classes `\d`, `\s`, `\w` and
  their opposites, sets, and the point;
* the conditions `^`, `$`, `\A`, `\Z`, `\b` and `\B`;
* the repetitions `*`, `+`, `?` and those in braces, greedy or not;
* alternatives, groups `(...)` and `(?:...)`, and the look ahead `(?=...)` and
  `(?!...)`.

Left out are flags, names and comments in groups, looking behind, groups that
are not given up again and repetitions of that kind, conditions on groups,
references to groups, octal numbers of characters and their names. A pattern
that has any of these is not read as something else: it is refused with
`RegexFault.leftOut`, which no caller takes for a complaint about the pattern.
-/

namespace RenderLoop

/-- What is wrong with a written regular expression. -/
inductive RegexFault where
  | endsInEscape
  | unterminatedSet
  | badRange (lo hi : String)
  | nothingToRepeat
  | multipleRepeat
  | emptyRepeat
  | unterminatedGroup
  | unbalanced
  | badEscape (written : String)
  | incompleteEscape (written : String)
  | endsInGroup
  | unknownExtension (written : String)
  /-- A number has too many digits to be read. -/
  | longNumber
  /-- More rounds are asked for than can be counted. -/
  | tooManyRounds
  /-- Groups are nested too deep. -/
  | tooDeep
  /-- The reader leaves out what is written here. -/
  | leftOut
  deriving DecidableEq, Repr, Inhabited

/-- What kind of fault it is. -/
def RegexFault.kind : RegexFault → PatternFault
  | longNumber => .longNumber
  | tooManyRounds => .tooManyRounds
  | tooDeep => .tooDeep
  | leftOut => .leftOut
  | _ => .misspelled

def RegexFault.message : RegexFault → String
  | endsInEscape => "bad escape (end of pattern)"
  | unterminatedSet => "unterminated character set"
  | badRange lo hi => "bad character range " ++ lo ++ "-" ++ hi
  | nothingToRepeat => "nothing to repeat"
  | multipleRepeat => "multiple repeat"
  | emptyRepeat => "min repeat greater than max repeat"
  | unterminatedGroup => "missing ), unterminated subpattern"
  | unbalanced => "unbalanced parenthesis"
  | badEscape written => "bad escape " ++ written
  | incompleteEscape written => "incomplete escape " ++ written
  | endsInGroup => "unexpected end of pattern"
  | unknownExtension written => "unknown extension ?" ++ written
  | longNumber => "the repetition number has too many digits"
  | tooManyRounds => "the repetition number is too large"
  | tooDeep => "maximum recursion depth exceeded"
  | leftOut => "not supported"

/-- A fault and where it lies. -/
structure RegexError where
  fault : RegexFault
  position : Nat
  /-- The pattern as written. -/
  pattern : String
  deriving DecidableEq, Repr, Inhabited

/-- The fault and its position, if it is one of spelling; a pattern of several
lines adds the line and the column. -/
def RegexError.message (e : RegexError) : String :=
  let base := e.fault.message ++ " at position " ++ toString e.position
  let cs := e.pattern.toList
  if e.fault.kind != .misspelled then e.fault.message
  else if cs.contains '\n' then
    let before := cs.take e.position
    let line := before.count '\n' + 1
    let column := (before.reverse.takeWhile (· != '\n')).length + 1
    base ++ " (line " ++ toString line ++ ", column " ++ toString column ++ ")"
  else base

namespace Regex

/-- A character, or a backslash with the character it escapes. -/
abbrev Token := List Char

/-- A place in a pattern: the token ahead, the characters behind it and their
position. -/
structure Scan where
  next : Option Token
  rest : List Char
  index : Nat
  deriving Inhabited

/-- The reader's results: a value or a positioned fault. -/
abbrev Reading (α : Type) := Except (RegexFault × Nat) α

namespace Scan

/-- The place with the given characters ahead. -/
def load (cs : List Char) (index : Nat) : Reading Scan :=
  match cs with
  | [] => .ok ⟨none, [], index⟩
  | ['\\'] => .error (.endsInEscape, index)
  | '\\' :: c :: rest => .ok ⟨some ['\\', c], rest, index + 2⟩
  | c :: rest => .ok ⟨some [c], rest, index + 1⟩

/-- The position of the token ahead. -/
def position (s : Scan) : Nat := s.index - (s.next.getD []).length

/-- Moves past the token ahead. -/
def advance (s : Scan) : Reading Scan := load s.rest s.index

/-- Whether the token ahead is the given character. -/
def sees (s : Scan) (c : Char) : Bool := s.next == some [c]

/-- Moves past the token ahead if it is the given character. -/
def accept (s : Scan) (c : Char) : Reading (Bool × Scan) := do
  if s.sees c then return (true, ← s.advance) else return (false, s)

/-- Takes at most `n` characters that pass a test. -/
def takeWhile (p : Char → Bool) : Nat → Scan → Reading (List Char × Scan)
  | 0, s => .ok ([], s)
  | n + 1, s =>
    match s.next with
    | some [c] =>
      if p c then do
        let (cs, s) ← takeWhile p n (← s.advance)
        return (c :: cs, s)
      else .ok ([], s)
    | _ => .ok ([], s)

end Scan

def isHex (c : Char) : Bool := (Json.hexDigit? c).isSome

def isOctal (c : Char) : Bool := '0' ≤ c && c ≤ '7'

/-- The value of digits in a base up to sixteen. -/
def digitsValue (base : Nat) (cs : List Char) : Nat :=
  cs.foldl (fun acc c => base * acc + (Json.hexDigit? c).getD 0) 0

/-- The class a letter escape stands for. -/
def classEscape? : Char → Option CharItem
  | 'd' => some (.digit false)
  | 'D' => some (.digit true)
  | 's' => some (.blank false)
  | 'S' => some (.blank true)
  | 'w' => some (.word false)
  | 'W' => some (.word true)
  | _ => none

/-- The condition a letter escape stands for. -/
def assertionEscape? : Char → Option Assertion
  | 'A' => some .textStart
  | 'Z' => some .textEnd
  | 'b' => some .wordEdge
  | 'B' => some .noWordEdge
  | _ => none

/-- The control character a letter escape stands for. -/
def controlEscape? : Char → Option Char
  | 'a' => some '\x07'
  | 'f' => some '\x0c'
  | 'n' => some '\n'
  | 'r' => some '\r'
  | 't' => some '\t'
  | 'v' => some '\x0b'
  | '\\' => some '\\'
  | _ => none

/-- The number of hexadecimal digits a numeric escape takes. -/
def hexEscapeWidth? : Char → Option Nat
  | 'x' => some 2
  | 'u' => some 4
  | 'U' => some 8
  | _ => none

/-- A character escape that means the same inside and outside a set; `s` is
behind it. -/
def charEscape (c : Char) (s : Scan) : Reading (Char × Scan) := do
  let bad : RegexFault × Nat :=
    (.badEscape (String.ofList ['\\', c]), s.position - 2)
  match hexEscapeWidth? c with
  | some width =>
    let (ds, s) ← s.takeWhile isHex width
    let written := String.ofList ('\\' :: c :: ds)
    let start := s.position - (2 + ds.length)
    if ds.length ≠ width then .error (.incompleteEscape written, start)
    else if 0x10FFFF < digitsValue 16 ds then .error (.badEscape written, start)
    else return (Json.charOf (digitsValue 16 ds), s)
  | none =>
    if c == '0' then
      let (ds, s) ← s.takeWhile isOctal 2
      return (Char.ofNat (digitsValue 8 ds), s)
    else if c.isAlpha then .error bad
    else return (c, s)

/-- An escape inside a set. -/
def setEscape (c : Char) (s : Scan) : Reading (CharItem × Scan) := do
  match controlEscape? c with
  | some x => return (.range x x, s)
  | none =>
    if c == 'b' then return (.range '\x08' '\x08', s)
    else
      match classEscape? c with
      | some item => return (item, s)
      | none =>
        if c.isDigit && c != '0' || c == 'N' then
          .error (.leftOut, s.position - 2)
        else
          let (x, s) ← charEscape c s
          return (.range x x, s)

/-- One member of a set: the token `t` was taken and `s` is behind it. -/
def setMember (t : Token) (s : Scan) : Reading (CharItem × Scan) :=
  match t with
  | ['\\', c] => setEscape c s
  | [c] => .ok (.range c c, s)
  | _ => .ok (.range '\\' '\\', s)

/-- The single character of a set member that is one. -/
def singleOf? : CharItem → Option Char
  | .range lo hi => if lo == hi then some lo else none
  | _ => none

/-- The members of a set up to its closing bracket; `start` is the position of
the opening one. -/
def setItems (start : Nat) :
    Nat → List CharItem → Scan → Reading (List CharItem × Scan)
  | 0, _, _ => .error (.unterminatedSet, start)
  | fuel + 1, done, s =>
    match s.next with
    | none => .error (.unterminatedSet, start)
    | some t => do
      let s ← s.advance
      if t == [']'] && !done.isEmpty then return (done.reverse, s)
      else
        let (first, s) ← setMember t s
        let (dash, s) ← s.accept '-'
        if dash then
          match s.next with
          | none => .error (.unterminatedSet, start)
          | some u =>
            let s ← s.advance
            if u == [']'] then
              return ((CharItem.range '-' '-' :: first :: done).reverse, s)
            else
              let (second, s) ← setMember u s
              let bad : RegexFault × Nat :=
                (.badRange (String.ofList t) (String.ofList u),
                  s.position - (t.length + 1 + u.length))
              match singleOf? first, singleOf? second with
              | some lo, some hi =>
                if hi < lo then .error bad
                else setItems start fuel (.range lo hi :: done) s
              | _, _ => .error bad
        else setItems start fuel (first :: done) s

/-- What a repetition sign may do with the piece before it. -/
inductive Role where
  | assertion
  | repetition
  | plain
  deriving DecidableEq, Inhabited

/-- An escape outside a set; `s` is behind it. -/
def escapePiece (c : Char) (s : Scan) : Reading (Role × Regex × Scan) := do
  match assertionEscape? c with
  | some a => return (.assertion, .assert a, s)
  | none =>
    match classEscape? c with
    | some item => return (.plain, .set false [item], s)
    | none =>
      match controlEscape? c with
      | some x => return (.plain, char x, s)
      | none =>
        if c.isDigit && c != '0' || c == 'N' then
          .error (.leftOut, s.position - 2)
        else
          let (x, s) ← charEscape c s
          return (.plain, char x, s)

/-- The least number of rounds that cannot be counted. -/
def roundLimit : Nat := 4294967295

/-- A number of rounds. -/
def roundsOf (start : Nat) (digits : List Char) : Reading Nat :=
  let n := digitsValue 10 digits
  if Json.maxDigits < digits.length then .error (.longNumber, start)
  else if roundLimit ≤ n then .error (.tooManyRounds, start)
  else .ok n

/-- The bounds a repetition sign gives, or nothing when a brace is meant
literally. The sign has been taken and `s` is behind it. -/
def bounds (sign : Char) (s : Scan) :
    Reading (Option (Nat × Option Nat × Scan)) := do
  match sign with
  | '?' => return some (0, some 1, s)
  | '*' => return some (0, none, s)
  | '+' => return some (1, none, s)
  | _ =>
    let size := s.rest.length + 1
    if s.sees '}' then return none
    else
      let start := s.position
      let (lo, s) ← s.takeWhile Char.isDigit size
      let (comma, s) ← s.accept ','
      let (hi, s) ← if comma then s.takeWhile Char.isDigit size
        else pure (lo, s)
      let (closed, s) ← s.accept '}'
      if !closed then return none
      else
        let least ← roundsOf start lo
        if hi.isEmpty then return some (least, none, s)
        else
          let most ← roundsOf start hi
          if most < least then .error (.emptyRepeat, start)
          else return some (least, some most, s)

/-- Pieces in sequence, given in reverse. -/
def sequence (done : List (Role × Regex)) : Regex :=
  match done.reverse.map (·.2) with
  | [] => empty
  | r :: rest => rest.foldl seq r

/-- How deep groups may be nested. -/
def maxNesting : Nat := 480

/-- What may follow a question mark that opens a group and is left out. -/
def leftOutMarks : List Char :=
  ['a', 'i', 'L', 'm', 's', 't', 'u', 'x', '-', '#', '<', '>', '(', 'P']

mutual

/-- Alternatives up to the end of the pattern or of the group; groups may be
nested `depth` deep in them. -/
def alternatives : (steps depth : Nat) → Scan → Reading (Regex × Scan)
  | 0, _, s => .error (.unterminatedGroup, s.position)
  | steps + 1, depth, s => do
    let (r, s) ← pieces steps depth [] s
    let (more, s) ← s.accept '|'
    if more then
      let (q, s) ← alternatives steps depth s
      return (.alt r q, s)
    else return (r, s)
termination_by structural steps => steps

/-- Pieces in sequence; `done` holds the earlier ones in reverse. -/
def pieces : (steps depth : Nat) → List (Role × Regex) → Scan →
    Reading (Regex × Scan)
  | 0, _, _, s => .error (.unterminatedGroup, s.position)
  | steps + 1, depth, done, s =>
    match s.next with
    | none => .ok (sequence done, s)
    | some t =>
      if t == ['|'] || t == [')'] then .ok (sequence done, s)
      else do
        let start := s.position
        let s ← s.advance
        match t with
        | ['\\', c] =>
          let (role, r, s) ← escapePiece c s
          pieces steps depth ((role, r) :: done) s
        | ['['] =>
          let (negated, s) ← s.accept '^'
          let (items, s) ← setItems start (s.rest.length + 2) [] s
          pieces steps depth ((.plain, .set negated items) :: done) s
        | ['.'] => pieces steps depth ((.plain, .any) :: done) s
        | ['^'] =>
          pieces steps depth ((.assertion, .assert .textStart) :: done) s
        | ['$'] =>
          pieces steps depth ((.assertion, .assert .lastLineEnd) :: done) s
        | ['('] =>
          let (special, s) ← s.accept '?'
          if special then
            match s.next with
            | none => .error (.endsInGroup, s.position)
            | some u =>
              let s ← s.advance
              if u == [':'] then
                let (r, s) ← group steps depth start s
                pieces steps depth ((.plain, r) :: done) s
              else if u == ['='] || u == ['!'] then
                let (r, s) ← group steps depth start s
                pieces steps depth ((.plain, .ahead (u == ['!']) r) :: done) s
              else if leftOutMarks.any fun c =>
                u == [c] then .error (.leftOut, start)
              else .error (.unknownExtension (String.ofList u),
                s.position - (u.length + 1))
          else
            let (r, s) ← group steps depth start s
            pieces steps depth ((.plain, r) :: done) s
        | [c] =>
          if c == '*' || c == '+' || c == '?' || c == '\x7b' then
            match ← bounds c s with
            | none => pieces steps depth ((.plain, char c) :: done) s
            | some (least, most, s) =>
              match done with
              | [] => .error (.nothingToRepeat, start)
              | (.assertion, _) :: _ => .error (.nothingToRepeat, start)
              | (.repetition, _) :: _ => .error (.multipleRepeat, start)
              | (.plain, r) :: earlier =>
                let (lazy, s) ← s.accept '?'
                if !lazy && s.sees '+' then .error (.leftOut, start)
                else
                  pieces steps depth
                    ((.repetition, .rep r least most) :: earlier) s
          else pieces steps depth ((.plain, char c) :: done) s
        | _ => pieces steps depth done s
termination_by structural steps => steps

/-- The inside of a group that opened at `start`, with its closing
parenthesis. -/
def group : (steps depth start : Nat) → Scan → Reading (Regex × Scan)
  | 0, _, start, _ => .error (.unterminatedGroup, start)
  | _ + 1, 0, start, _ => .error (.tooDeep, start)
  | steps + 1, depth + 1, start, s => do
    let (r, s) ← alternatives steps depth s
    let (closed, s) ← s.accept ')'
    if closed then return (r, s) else .error (.unterminatedGroup, start)
termination_by structural steps => steps

end

/-- Reads a whole pattern. Every step takes a token or opens a level, so a small
multiple of the length bounds the recursion. -/
def read (cs : List Char) : Reading Regex := do
  let s ← Scan.load cs 0
  let (r, s) ← alternatives (4 * cs.length + 4) maxNesting s
  if s.next.isSome then .error (.unbalanced, s.position) else return r

/-- Reads a written regular expression. -/
def parse (pattern : String) : Except RegexError Regex :=
  match read pattern.toList with
  | .ok r => .ok r
  | .error (fault, position) => .error ⟨fault, position, pattern⟩

/-- Reads a pattern, which is then asked for places that match. -/
def compile (source : String) : Except PatternError Pattern :=
  match parse source with
  | .ok r => .ok ⟨source, r.search⟩
  | .error e => .error ⟨source, e.fault.kind, e.message⟩

/-- The patterns that the program is written with compile. -/
theorem compiles_own : ∀ source ∈ Pattern.own, ∃ p, compile source = .ok p := by
  have hall : Pattern.own.all (fun source => (compile source).toOption.isSome) =
      true := by
    decide +kernel
  intro source hsource
  have h := List.all_eq_true.1 hall source hsource
  cases hcompile : compile source with
  | ok p => exact ⟨p, rfl⟩
  | error e =>
    rw [hcompile] at h
    cases h

/-- The compiler that comes with the program. -/
def compiler : PatternCompiler := ⟨compile, compiles_own⟩

end Regex

end RenderLoop
