/-!
# Wildcards

A wildcard pattern is matched against a whole text: a star stands for any
characters, a question mark for one, and brackets for one of the characters or
ranges between them, or for any other when an exclamation mark comes first. A
bracket that is never closed stands for itself.
-/

namespace RenderLoop

/-- The ends of a list, longest first. -/
def suffixes : List α → List (List α)
  | [] => [[]]
  | a :: rest => (a :: rest) :: suffixes rest

/-- One list occurs inside another without gaps. -/
def occursIn [BEq α] (part whole : List α) : Bool :=
  (suffixes whole).any part.isPrefixOf

/-- A set of characters, by what is in it or by what is not. -/
structure CharSet where
  negated : Bool
  ranges : List (Char × Char)
  deriving DecidableEq, Repr, Inhabited

namespace CharSet

def contains (s : CharSet) (c : Char) : Bool :=
  s.ranges.any (fun (a, b) => a ≤ c && c ≤ b) != s.negated

def all : CharSet := ⟨true, []⟩

def single (c : Char) : CharSet := ⟨false, [(c, c)]⟩

end CharSet

/-- A part of a wildcard pattern. -/
inductive WildcardPiece where
  | star
  | one (set : CharSet)
  deriving DecidableEq, Repr, Inhabited

/-- A wildcard pattern. -/
abbrev Wildcard := List WildcardPiece

namespace Wildcard

/-! ### Brackets -/

/-- How many characters after an opening bracket belong to the set whatever
they are: the mark of a negated set, and a closing bracket that comes
first. -/
def leadLength : List Char → Nat
  | '!' :: ']' :: _ => 2
  | '!' :: _ => 1
  | ']' :: _ => 1
  | _ => 0

/-- What stands between the brackets of a set, and what follows. -/
def bracket? (cs : List Char) : Option (List Char × List Char) :=
  let body := cs.drop (leadLength cs)
  match body.dropWhile (· != ']') with
  | _ :: rest =>
    some (cs.take (leadLength cs) ++ body.takeWhile (· != ']'), rest)
  | [] => none

/-- Cuts the content of a set at the hyphens that make ranges. A hyphen makes
a range from the character before it, so at least one has to come first, and
the character after it is spoken for. -/
def chunks (chunk : List Char) : (spoken : Nat) → List Char → List (List Char)
  | _, [] => [chunk]
  | spoken + 1, c :: rest => chunks (chunk ++ [c]) spoken rest
  | 0, c :: rest =>
    if c == '-' then chunk :: chunks [] 2 rest else chunks (chunk ++ [c]) 0 rest

/-- The chunks of a set. A hyphen that comes last stands for itself. -/
def chunksOf (content : List Char) : List (List Char) :=
  let parts := chunks [] (if content.head? == some '!' then 2 else 1) content
  match parts.reverse with
  | [] :: last :: before => (before.reverse) ++ [last ++ ['-']]
  | _ => parts

/-- Leaves out the ranges that run backwards, together with their ends. -/
def dropBackward : List (List Char) → List (List Char)
  | [] => []
  | chunk :: more =>
    match dropBackward more with
    | [] => [chunk]
    | next :: rest =>
      match chunk.getLast?, next.head? with
      | some a, some b =>
        if b < a then (chunk.dropLast ++ next.tail) :: rest
        else chunk :: next :: rest
      | _, _ => chunk :: next :: rest

/-- The ranges of a set: where two chunks meet there is one, and all other
characters stand for themselves. -/
def rangesOf : List (List Char) → List (Char × Char)
  | [] => []
  | chunk :: more =>
    match more with
    | [] => chunk.map fun c => (c, c)
    | next :: _ =>
      chunk.dropLast.map (fun c => (c, c)) ++
        (chunk.getLast?.bind fun a => next.head?.map fun b => (a, b)).toList
        ++ rangesOf more

/-- The set that the content of brackets describes. -/
def setOf (content : List Char) : CharSet :=
  match dropBackward (chunksOf content) with
  | ('!' :: chunk) :: more => ⟨true, rangesOf (chunk :: more)⟩
  | parts => ⟨false, rangesOf parts⟩

/-! ### Patterns -/

theorem length_dropWhile_le (p : Char → Bool) (cs : List Char) :
    (cs.dropWhile p).length ≤ cs.length := by
  induction cs with
  | nil => simp
  | cons c rest ih =>
    simp only [List.dropWhile_cons]
    split
    · exact Nat.le_succ_of_le ih
    · exact Nat.le_refl _

/-- What follows a bracket expression is shorter than the text. -/
theorem length_lt_of_bracket? {cs content rest : List Char}
    (h : bracket? cs = some (content, rest)) :
    rest.length < cs.length := by
  simp only [bracket?] at h
  split at h
  · rename_i heq
    obtain ⟨_, rfl⟩ := Prod.mk.inj (Option.some.inj h)
    have := length_dropWhile_le (· != ']') (cs.drop (leadLength cs))
    simp [heq] at this
    omega
  · exact absurd h (by simp)

/-- Reads a pattern. Stars that follow one another count once. -/
def ofChars (cs : List Char) : Wildcard :=
  match cs with
  | [] => []
  | '*' :: rest =>
    match ofChars rest with
    | .star :: more => .star :: more
    | more => .star :: more
  | '?' :: rest => .one .all :: ofChars rest
  | '[' :: rest =>
    match _h : bracket? rest with
    | some (content, after) => .one (setOf content) :: ofChars after
    | none => .one (.single '[') :: ofChars rest
  | c :: rest => .one (.single c) :: ofChars rest
termination_by cs.length
decreasing_by
  · simp
  · simp
  · have := length_lt_of_bracket? _h
    simp
    omega
  · simp
  · simp

def ofString (s : String) : Wildcard := ofChars s.toList

/-- The pattern matches all of the characters. -/
def acceptsChars : Wildcard → List Char → Bool
  | [], cs => cs.isEmpty
  | .star :: more, cs => (suffixes cs).any (acceptsChars more)
  | .one set :: more, c :: cs => set.contains c && acceptsChars more cs
  | .one _ :: _, [] => false

/-- The pattern matches the whole text. -/
def accepts (w : Wildcard) (s : String) : Bool := acceptsChars w s.toList

/-- A text with a character that has a meaning of its own in patterns. -/
def isPattern (s : String) : Bool :=
  s.toList.any fun c => c == '*' || c == '?' || c == '['

end Wildcard

end RenderLoop
