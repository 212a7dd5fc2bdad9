/-!
# Patterns

A pattern is a written regular expression together with what it does: it finds
something in a text or it does not. Nothing here depends on how a pattern
comes to be compiled, and the compiler is an argument of everything that needs
one.

`PatternCompiler` is what can be relied on. A compiler answers every text with
a pattern or with a reason not to, and it compiles the patterns the program
itself is written with. A reason is either a complaint about the writer of the
pattern or a sign that the compiler has come to its limits, which callers tell
apart:

* the pattern is misspelled;
* a number in it has more digits than are read;
* it asks for more rounds of a repetition than can be counted;
* its groups are nested deeper than can be followed;
* it is written in a way the compiler leaves out.
-/

namespace RenderLoop

/-- A regular expression, by its written form and by what it does. -/
structure Pattern where
  source : String
  /-- Whether some part of a text matches. -/
  search : String → Bool
  deriving Inhabited

/-- Why a pattern is not compiled. -/
inductive PatternFault where
  | misspelled
  /-- A number has too many digits to be read. -/
  | longNumber
  /-- More rounds are asked for than can be counted. -/
  | tooManyRounds
  /-- Groups are nested too deep. -/
  | tooDeep
  /-- The compiler leaves out what the pattern is written with. -/
  | leftOut
  deriving DecidableEq, Repr, Inhabited

/-- The fault lies in how the pattern is written, rather than in the limits of
the compiler. -/
def PatternFault.isComplaint : PatternFault → Bool
  | misspelled | longNumber => true
  | tooManyRounds | tooDeep | leftOut => false

/-- A pattern that is not compiled, and why. -/
structure PatternError where
  /-- The pattern as written. -/
  pattern : String
  fault : PatternFault
  message : String
  deriving DecidableEq, Repr, Inhabited

namespace Pattern

/-- The spelling of setters. -/
def setterName : String := "^set[A-Z]"

/-- The spelling of hooks that a project defines. -/
def hookName : String := "^use[A-Z0-9]"

/-- The spelling of parameters that update a state. -/
def updaterName : String :=
  "^(set|update)[A-Z]|^(setter|updater|update|dispatch)$|(Setter|Updater)$"

/-- The spelling of hooks that give out a store. -/
def storeHookName : String := "^use\\w*Store$"

/-- The patterns the program is written with. -/
def own : List String := [setterName, hookName, updaterName, storeHookName]

end Pattern

/-- What turns written regular expressions into patterns. -/
structure PatternCompiler where
  compile : String → Except PatternError Pattern
  /-- The patterns of the program itself are compiled. -/
  compilesOwn : ∀ source ∈ Pattern.own, ∃ p, compile source = .ok p

end RenderLoop
