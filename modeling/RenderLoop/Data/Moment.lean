/-!
# Dates and times

Settings files may hold dates, times of day and both together, with or without
a distance from universal time. They are only carried along and shown.
-/

namespace RenderLoop

structure Day where
  year : Nat
  month : Nat
  day : Nat
  deriving DecidableEq, Repr, Inhabited

/-- A time of day, down to microseconds. -/
structure Clock where
  hour : Nat
  minute : Nat
  second : Nat
  micro : Nat := 0
  deriving DecidableEq, Repr, Inhabited

/-- A date, a time of day, or both, then with the minutes by which it is ahead
of universal time. -/
inductive Moment where
  | day (d : Day)
  | clock (c : Clock)
  | stamp (d : Day) (c : Clock) (offset : Option Int)
  deriving DecidableEq, Repr, Inhabited

namespace Day

def isLeap (year : Nat) : Bool :=
  year % 4 == 0 && (year % 100 != 0 || year % 400 == 0)

def daysIn (year : Nat) : Nat → Nat
  | 2 => if isLeap year then 29 else 28
  | 4 | 6 | 9 | 11 => 30
  | _ => 31

/-- A day of the calendar; there is no year zero. -/
def isValid (d : Day) : Bool :=
  1 ≤ d.year && 1 ≤ d.month && d.month ≤ 12 && 1 ≤ d.day && d.day ≤
    daysIn d.year d.month

end Day

namespace Moment

/-- A number with leading zeros. -/
def padded (width n : Nat) : String :=
  let ds := Nat.toDigits 10 n
  String.ofList (List.replicate (width - ds.length) '0' ++ ds)

def dayText (d : Day) : String :=
  padded 4 d.year ++ "-" ++ padded 2 d.month ++ "-" ++ padded 2 d.day

def clockText (c : Clock) : String :=
  padded 2 c.hour ++ ":" ++ padded 2 c.minute ++ ":" ++ padded 2 c.second ++
    if c.micro = 0 then "" else "." ++ padded 6 c.micro

def offsetText (minutes : Int) : String :=
  (if minutes < 0 then "-" else "+") ++ padded 2 (minutes.natAbs / 60) ++ ":" ++
    padded 2 (minutes.natAbs % 60)

/-- A moment in figures. -/
def text : Moment → String
  | day d => dayText d
  | clock c => clockText c
  | stamp d c none => dayText d ++ " " ++ clockText c
  | stamp d c (some o) => dayText d ++ " " ++ clockText c ++ offsetText o

/-- The parts of a time of day, without seconds and microseconds that are zero
at the end. -/
def clockParts (c : Clock) : List Nat :=
  if c.micro ≠ 0 then [c.hour, c.minute, c.second, c.micro]
  else if c.second ≠ 0 then [c.hour, c.minute, c.second]
  else [c.hour, c.minute]

def dayParts (d : Day) : List Nat := [d.year, d.month, d.day]

/-- The distance from universal time as it is shown in messages: whole days,
which may be negative, and seconds, which may not. -/
def zoneQuoted (minutes : Int) : String :=
  if minutes = 0 then "datetime.timezone.utc"
  else if minutes < 0 then
    "datetime.timezone(datetime.timedelta(days=-1, seconds=" ++
      toString ((1440 + minutes) * 60) ++ "))"
  else "datetime.timezone(datetime.timedelta(seconds=" ++
    toString (minutes * 60) ++ "))"

/-- A moment as it is shown in messages. -/
def quoted : Moment → String
  | day d => "datetime.date(" ++ listed (dayParts d) ++ ")"
  | clock c => "datetime.time(" ++ listed (clockParts c) ++ ")"
  | stamp d c none =>
    "datetime.datetime(" ++ listed (dayParts d ++ clockParts c) ++ ")"
  | stamp d c (some o) =>
    "datetime.datetime(" ++ listed (dayParts d ++ clockParts c) ++
      ", tzinfo=" ++ zoneQuoted o ++ ")"
where
  listed (ns : List Nat) : String := ", ".intercalate (ns.map toString)

end Moment

end RenderLoop
