import DataClassGen.Numeric.Shortest

/-!
# Dates and times in TOML

A moment is a date, a time of day, or both, and with both an offset from universal time. It is
read from and written in the form of RFC 3339, except that a blank may stand between date and
time and a small letter for `T` and `Z`, and that the seconds may be left out. A fraction of a
second has nine places; further ones are dropped.
-/

namespace DataClassGen.Toml

/-- A day of the calendar. -/
structure Date where
  year : Nat
  month : Nat
  day : Nat
  deriving DecidableEq, Repr

/-- A time of day. -/
structure Clock where
  hour : Nat
  minute : Nat
  second : Nat
  nanosecond : Nat
  deriving DecidableEq, Repr

/-- The distance from universal time. -/
inductive Offset where
  | zulu
  /-- Minutes, those behind universal time negative. -/
  | minutes (count : Int)
  deriving DecidableEq, Repr

/-- A date, a time, or both with perhaps an offset. -/
inductive Moment where
  | onDate (date : Date)
  | atTime (clock : Clock)
  | dateTime (date : Date) (clock : Clock) (offset : Option Offset)
  deriving DecidableEq, Repr

/-! ### Reading -/

/-- `count` decimal digits in front, as a number. -/
def fixedDigits? (count : Nat) (cs : List Char) : Option (Nat × List Char) :=
  let digits := cs.take count
  if digits.length = count && digits.all Char.isDigit then
    some (digits.foldl (fun n c => n * 10 + (c.toNat - 48)) 0, cs.drop count)
  else none

/-- The character `c` in front. -/
def expect? (c : Char) : List Char → Option (List Char)
  | d :: rest => if c = d then some rest else none
  | [] => none

/-- A leap year. -/
def isLeap (year : Nat) : Bool := (year % 4 == 0 && year % 100 != 0) || year % 400 == 0

/-- How many days a month has. -/
def daysIn (year month : Nat) : Nat :=
  if month == 2 then if isLeap year then 29 else 28
  else if month == 4 || month == 6 || month == 9 || month == 11 then 30
  else 31

/-- A date in front. -/
def readDate? (cs : List Char) : Option (Date × List Char) := do
  let (year, cs) ← fixedDigits? 4 cs
  let cs ← expect? '-' cs
  let (month, cs) ← fixedDigits? 2 cs
  let cs ← expect? '-' cs
  let (day, cs) ← fixedDigits? 2 cs
  if 1 ≤ month && month ≤ 12 && 1 ≤ day && day ≤ daysIn year month then
    some (⟨year, month, day⟩, cs)
  else none

/-- The fraction of a second in front, if there is one, in nanoseconds. -/
def readFraction? : List Char → Option (Nat × List Char)
  | '.' :: cs =>
    let digits := cs.takeWhile Char.isDigit
    if digits.isEmpty then none
    else
      let places := (digits ++ List.replicate 9 '0').take 9
      some (places.foldl (fun n c => n * 10 + (c.toNat - 48)) 0, cs.dropWhile Char.isDigit)
  | cs => some (0, cs)

/-- The seconds of a time in front and their fraction, both zero where they are left out. -/
def readSeconds? : List Char → Option (Nat × Nat × List Char)
  | ':' :: cs => do
    let (second, cs) ← fixedDigits? 2 cs
    let (nanosecond, cs) ← readFraction? cs
    return (second, nanosecond, cs)
  | cs => some (0, 0, cs)

/-- A time of day in front; its last minute may have a leap second. -/
def readClock? (cs : List Char) : Option (Clock × List Char) := do
  let (hour, cs) ← fixedDigits? 2 cs
  let cs ← expect? ':' cs
  let (minute, cs) ← fixedDigits? 2 cs
  let (second, nanosecond, cs) ← readSeconds? cs
  if hour ≤ 23 && minute ≤ 59 && second ≤ 60 then
    some (⟨hour, minute, second, nanosecond⟩, cs)
  else none

/-- An offset, and nothing behind it. -/
def readOffset? (cs : List Char) : Option (Option Offset) :=
  let shifted (sign : Int) (cs : List Char) : Option (Option Offset) := do
    let (hours, cs) ← fixedDigits? 2 cs
    let cs ← expect? ':' cs
    let (minutes, cs) ← fixedDigits? 2 cs
    if cs.isEmpty && hours ≤ 23 && minutes ≤ 59 then
      some (some (.minutes (sign * ((hours * 60 + minutes : Nat) : Int))))
    else none
  match cs with
  | [] => some none
  | ['Z'] | ['z'] => some (some .zulu)
  | '+' :: cs => shifted 1 cs
  | '-' :: cs => shifted (-1) cs
  | _ => none

/-- A moment, and nothing behind it. -/
def Moment.read? (cs : List Char) : Option Moment :=
  match readDate? cs with
  | some (date, []) => some (.onDate date)
  | some (date, separator :: rest) =>
    if separator = 'T' || separator = 't' || separator = ' ' then do
      let (clock, rest) ← readClock? rest
      return .dateTime date clock (← readOffset? rest)
    else none
  | none =>
    match readClock? cs with
    | some (clock, []) => some (.atTime clock)
    | _ => none

/-! ### Writing -/

/-- A number with at least `width` digits. -/
def zeroPadded (width n : Nat) : String :=
  let digits := decimalDigits n
  String.ofList (List.replicate (width - digits.length) '0' ++ digits)

/-- A date as it is written. -/
def Date.text (d : Date) : String :=
  zeroPadded 4 d.year ++ "-" ++ zeroPadded 2 d.month ++ "-" ++ zeroPadded 2 d.day

/-- A time as it is written, its fraction without zeros at the end. -/
def Clock.text (c : Clock) : String :=
  let whole := zeroPadded 2 c.hour ++ ":" ++ zeroPadded 2 c.minute ++ ":" ++ zeroPadded 2 c.second
  if c.nanosecond = 0 then whole
  else
    let places := (zeroPadded 9 c.nanosecond).toList
    whole ++ "." ++ String.ofList (places.reverse.dropWhile (· == '0')).reverse

/-- An offset as it is written. -/
def Offset.text : Offset → String
  | .zulu => "Z"
  | .minutes count =>
    let n := count.natAbs
    (if count < 0 then "-" else "+") ++ zeroPadded 2 (n / 60) ++ ":" ++ zeroPadded 2 (n % 60)

/-- A moment as it is written. -/
def Moment.text : Moment → String
  | .onDate date => date.text
  | .atTime clock => clock.text
  | .dateTime date clock offset =>
    date.text ++ "T" ++ clock.text ++ ((offset.map Offset.text).getD "")

end DataClassGen.Toml
