import RenderLoop.Text.Chars

/-!
# Regular expressions

A regular expression relates places in a text: `Regex.ends r c` lists the
places at which a match of `r` that starts at `c` can end. Since only the
existence of a match is ever asked for, whether a repetition prefers many or
few rounds makes no difference.
-/

namespace RenderLoop

/-- A member of a character set. -/
inductive CharItem where
  | range (lo hi : Char)
  | word (negated : Bool)
  | digit (negated : Bool)
  | blank (negated : Bool)
  deriving DecidableEq, Repr, Inhabited

def CharItem.admits : CharItem → Char → Bool
  | range lo hi, c => lo ≤ c && c ≤ hi
  | word negated, c => isWordChar c != negated
  | digit negated, c => isDecimalDigit c != negated
  | blank negated, c => isBlankChar c != negated

/-- A condition on a place. -/
inductive Assertion where
  | textStart
  | textEnd
  /-- The end of the text, or right before a line break that ends it. -/
  | lastLineEnd
  | wordEdge
  | noWordEdge
  deriving DecidableEq, Repr, Inhabited

/-- A regular expression. -/
inductive Regex where
  | empty
  /-- One character of a set, or one outside of it. -/
  | set (negated : Bool) (items : List CharItem)
  /-- Any character but a line break. -/
  | any
  | assert (a : Assertion)
  | seq (r s : Regex)
  | alt (r s : Regex)
  /-- At least `least` rounds, and at most `most` if it is given. -/
  | rep (r : Regex) (least : Nat) (most : Option Nat)
  /-- What follows matches, or does not. -/
  | ahead (negated : Bool) (r : Regex)
  deriving Repr, Inhabited

/-- A place in a text: the characters before it, nearest first, and those
after it. -/
structure Cursor where
  before : List Char
  after : List Char
  deriving DecidableEq, Repr, Inhabited

namespace Cursor

def ofText (s : String) : Cursor := ⟨[], s.toList⟩

/-- The place behind the next character, if that character passes the test. -/
def next (p : Char → Bool) (c : Cursor) : List Cursor :=
  match c.after with
  | x :: rest => if p x then [⟨x :: c.before, rest⟩] else []
  | [] => []

/-- All places from a given one to the end of the text. -/
def toEnd (before : List Char) : List Char → List Cursor
  | [] => [⟨before, []⟩]
  | x :: rest => ⟨before, x :: rest⟩ :: toEnd (x :: before) rest

def headIsWord (cs : List Char) : Bool :=
  match cs with
  | x :: _ => isWordChar x
  | [] => false

end Cursor

/-- Whether a condition holds at a place. -/
def Assertion.holds (a : Assertion) (c : Cursor) : Bool :=
  match a with
  | textStart => c.before.isEmpty
  | textEnd => c.after.isEmpty
  | lastLineEnd => c.after.isEmpty || c.after == ['\n']
  | wordEdge => Cursor.headIsWord c.before != Cursor.headIsWord c.after
  | noWordEdge =>
    !(c.before.isEmpty && c.after.isEmpty) &&
      Cursor.headIsWord c.before == Cursor.headIsWord c.after

namespace Regex

/-- The places reached by exactly `n` rounds of `step`. -/
def rounds (step : Cursor → List Cursor) : Nat → List Cursor → List Cursor
  | 0, cs => cs
  | n + 1, cs => rounds step n (cs.flatMap step).eraseDups

/-- The places reached by at most `n` further rounds, stopping early when a
round adds none. -/
def upTo (step : Cursor → List Cursor) :
    Nat → List Cursor → List Cursor → List Cursor
  | 0, seen, _ => seen
  | n + 1, seen, frontier =>
    match (frontier.flatMap step).eraseDups.filter fun c =>
      !seen.contains c with
    | [] => seen
    | new => upTo step n (seen ++ new) new

/-- The places at which a match that starts at a place can end. A round of a
repetition that adds a place has used up a character, so the rest of the text
bounds the rounds worth trying. -/
def ends : Regex → Cursor → List Cursor
  | empty, c => [c]
  | set negated items, c => c.next fun x => items.any (·.admits x) != negated
  | any, c => c.next (· != '\n')
  | assert a, c => if a.holds c then [c] else []
  | seq r s, c => (r.ends c).flatMap s.ends
  | alt r s, c => r.ends c ++ s.ends c
  | rep r least most, c =>
    let first := rounds r.ends least [c]
    let spare :=
      match most with
      | some m => min (m - least) (c.after.length + 1)
      | none => c.after.length + 1
    upTo r.ends spare first first
  | ahead negated r, c => if (r.ends c).isEmpty == negated then [c] else []

/-- Whether some part of a text matches. -/
def search (r : Regex) (s : String) : Bool :=
  (Cursor.toEnd [] s.toList).any fun c => !(r.ends c).isEmpty

/-- A single given character. -/
def char (c : Char) : Regex := set false [.range c c]

/-- A given text. -/
def literal (s : String) : Regex :=
  s.toList.foldr (fun c r => seq (char c) r) empty

end Regex

end RenderLoop
