import DataClassGen.Json.Basic
import DataClassGen.Text.Bytes

/-!
# Reading JSON

The value of a JSON document, from its bytes. The grammar is the strict one: no comments, no
commas before a closing bracket, no leading zeros, no control characters in strings, and
nothing but blanks around the value. Lists and objects may nest 127 deep; a deeper one is
checked like any other but has no value.

The readers that call one another are bounded by a count that starts beyond twice the length
of the document. Each call passes at least one byte or hands over to one that does, so the
count is never what stops them.
-/

namespace DataClassGen.Json

/-! ### Bytes of the grammar -/

/-- A blank, a tab, a line feed or a carriage return. -/
def isSpace (b : UInt8) : Bool := b == 0x20 || b == 0x09 || b == 0x0A || b == 0x0D

/-- A decimal digit. -/
def isDigit (b : UInt8) : Bool := 0x30 ≤ b && b ≤ 0x39

/-- The number that a decimal digit stands for. -/
def digitValue (b : UInt8) : Nat := b.toNat - 0x30

/-- Without the blanks in front. -/
def skipSpace (bytes : Bytes) : Bytes := bytes.dropWhile isSpace

/-- The number that a hexadecimal digit stands for. -/
def hexValue? (b : UInt8) : Option Nat :=
  if isDigit b then some (digitValue b)
  else if 0x41 ≤ b && b ≤ 0x46 then some (b.toNat - 0x37)
  else if 0x61 ≤ b && b ≤ 0x66 then some (b.toNat - 0x57)
  else none

/-- The number that four hexadecimal digits stand for. -/
def hexUnit? (a b c d : UInt8) : Option Nat := do
  let a ← hexValue? a
  let b ← hexValue? b
  let c ← hexValue? c
  let d ← hexValue? d
  return ((a * 16 + b) * 16 + c) * 16 + d

/-- The byte that stands behind a backslash and a letter. -/
def escaped? (b : UInt8) : Option UInt8 :=
  if b == 0x22 || b == 0x5C || b == 0x2F then some b
  else if b == 0x62 then some 0x08
  else if b == 0x66 then some 0x0C
  else if b == 0x6E then some 0x0A
  else if b == 0x72 then some 0x0D
  else if b == 0x74 then some 0x09
  else none

/-! ### Strings -/

/-- The part of a string read so far. -/
structure StringSoFar where
  /-- Its bytes, last first. -/
  reversed : Bytes := []
  /-- The first half of a surrogate pair whose second half must come next. -/
  pending : Option Nat := none
  /-- No half of a surrogate pair was left alone. -/
  isSound : Bool := true

namespace StringSoFar

/-- The string read so far, with some bytes more. -/
def add (s : StringSoFar) (bytes : Bytes) : StringSoFar :=
  { reversed := bytes.reverse ++ s.reversed, pending := none,
    isSound := s.isSound && s.pending.isNone }

/-- The string read so far, with a UTF-16 unit more. -/
def addUnit (s : StringSoFar) (unit : Nat) : StringSoFar :=
  if 0xD800 ≤ unit && unit < 0xDC00 then
    { s with pending := some unit, isSound := s.isSound && s.pending.isNone }
  else if 0xDC00 ≤ unit && unit < 0xE000 then
    match s.pending with
    | none => { s with isSound := false }
    | some high =>
      let c := Char.ofNat (0x10000 + (high - 0xD800) * 0x400 + (unit - 0xDC00))
      { s with pending := none }.add (Text.bytesOf (String.singleton c))
  else s.add (Text.bytesOf (String.singleton (Char.ofNat unit)))

/-- The text of the string, if it has one. -/
def text? (s : StringSoFar) : Option String :=
  if s.isSound && s.pending.isNone then Text.ofBytes? s.reversed.reverse else none

end StringSoFar

/-- The rest of a string whose opening quote has been read: its text, if it has one, and what
follows the closing quote. -/
def readString (s : StringSoFar) : Bytes → Option (Option String × Bytes)
  | [] => none
  | b :: rest =>
    if b == 0x22 then some (s.text?, rest)
    else if b < 0x20 then none
    else if b == 0x5C then
      match rest with
      | [] => none
      | e :: rest =>
        if e == 0x75 then
          match rest with
          | h1 :: h2 :: h3 :: h4 :: rest =>
            match hexUnit? h1 h2 h3 h4 with
            | some unit => readString (s.addUnit unit) rest
            | none => none
          | _ => none
        else
          match escaped? e with
          | some b => readString (s.add [b]) rest
          | none => none
    else readString (s.add [b]) rest

/-! ### Numbers -/

/-- As many leading digits as keep the number below `2^64`, taken up into `significand`, and
the count of the digits left over. -/
def absorb (significand : Nat) : List Nat → Nat × Nat
  | [] => (significand, 0)
  | d :: digits =>
    if significand * 10 + d < UInt64.size then absorb (significand * 10 + d) digits
    else (significand, digits.length + 1)

/-- The number with these digits before and after its point and this exponent. -/
def numberOf (isNegative : Bool) (whole : List Nat) (places : Option (List Nat))
    (exponent : Option Int) : Json :=
  let signed (x : Binary64) : Json := .double (if isNegative then x.negate else x)
  let (significand, left) := absorb 0 whole
  match places, exponent, left with
  | none, none, 0 =>
    if !isNegative then .int significand
    else if significand == 0 || Nat.pow 2 63 < significand then signed (.ofNat significand)
    else .int (-significand)
  | places, exponent, left =>
    let places := places.getD []
    let (significand, unread) := absorb significand places
    let power := (left : Int) - ((places.length - unread : Nat) : Int) + exponent.getD 0
    match Binary64.ofScientific? significand power with
    | some x => signed x
    | none => .unusable

/-- Digits in front: their values, and what follows them. -/
def readDigits (bytes : Bytes) : List Nat × Bytes :=
  ((bytes.takeWhile isDigit).map digitValue, bytes.dropWhile isDigit)

/-- At least one digit in front. -/
def readDigits? (bytes : Bytes) : Option (List Nat × Bytes) :=
  match readDigits bytes with
  | ([], _) => none
  | found => some found

/-- The digits before the point: a lone zero, or digits that start with another one. -/
def readWhole? (bytes : Bytes) : Option (List Nat × Bytes) :=
  match bytes with
  | [] => none
  | b :: rest => if b == 0x30 then some ([0], rest) else readDigits? bytes

/-- The point and the digits after it, if there is a point. -/
def readPlaces? (bytes : Bytes) : Option (Option (List Nat) × Bytes) :=
  match bytes with
  | 0x2E :: rest => (readDigits? rest).map fun (digits, rest) => (some digits, rest)
  | _ => some (none, bytes)

/-- The exponent, if there is one. -/
def readExponent? (bytes : Bytes) : Option (Option Int × Bytes) :=
  match bytes with
  | [] => some (none, [])
  | e :: rest =>
    if e == 0x65 || e == 0x45 then
      let (isNegative, rest) :=
        match rest with
        | 0x2B :: rest => (false, rest)
        | 0x2D :: rest => (true, rest)
        | rest => (false, rest)
      (readDigits? rest).map fun (digits, rest) =>
        let n : Nat := digits.foldl (fun n d => n * 10 + d) 0
        (some (if isNegative then -(n : Int) else (n : Int)), rest)
    else some (none, bytes)

/-- A number. -/
def readNumber? (bytes : Bytes) : Option (Json × Bytes) := do
  let (isNegative, bytes) :=
    match bytes with
    | 0x2D :: rest => (true, rest)
    | bytes => (false, bytes)
  let (whole, bytes) ← readWhole? bytes
  let (places, bytes) ← readPlaces? bytes
  let (exponent, bytes) ← readExponent? bytes
  return (numberOf isNegative whole places exponent, bytes)

/-! ### Values -/

/-- The value with a fixed spelling. -/
def readWord? (bytes : Bytes) : Option (Json × Bytes) :=
  match (Text.bytesOf "null").isPrefixOf? bytes, (Text.bytesOf "true").isPrefixOf? bytes,
      (Text.bytesOf "false").isPrefixOf? bytes with
  | some rest, _, _ => some (.null, rest)
  | _, some rest, _ => some (.bool true, rest)
  | _, _, some rest => some (.bool false, rest)
  | none, none, none => none

/-- An object, unless one of its keys has no text. -/
def ofMembers (members : List (Option String × Json)) : Json :=
  match members.mapM fun (key, value) => key.map (·, value) with
  | some members => .obj members
  | none => .unusable

mutual

/-- A value, in which lists and objects may nest `room` deep. -/
def readValue (bound room : Nat) (bytes : Bytes) : Option (Json × Bytes) :=
  match bound with
  | 0 => none
  | bound + 1 =>
    match skipSpace bytes with
    | [] => none
    | b :: rest =>
      if b == 0x22 then
        (readString {} rest).map fun (text, rest) => ((text.map .str).getD .unusable, rest)
      else if b == 0x5B then
        match skipSpace rest with
        | 0x5D :: rest => some (if room = 0 then .unusable else .arr [], rest)
        | rest =>
          (readItems bound (room - 1) rest).map fun (items, rest) =>
            (if room = 0 then .unusable else .arr items, rest)
      else if b == 0x7B then
        match skipSpace rest with
        | 0x7D :: rest => some (if room = 0 then .unusable else .obj [], rest)
        | rest =>
          (readMembers bound (room - 1) rest).map fun (members, rest) =>
            (if room = 0 then .unusable else ofMembers members, rest)
      else if b == 0x2D || isDigit b then readNumber? (b :: rest)
      else readWord? (b :: rest)

/-- The items of a list that is not empty, and its closing bracket. -/
def readItems (bound room : Nat) (bytes : Bytes) : Option (List Json × Bytes) :=
  match bound with
  | 0 => none
  | bound + 1 =>
    match readValue bound room bytes with
    | none => none
    | some (item, rest) =>
      match skipSpace rest with
      | 0x2C :: rest => (readItems bound room rest).map fun (items, rest) => (item :: items, rest)
      | 0x5D :: rest => some ([item], rest)
      | _ => none

/-- The members of an object that is not empty, and its closing brace. -/
def readMembers (bound room : Nat) (bytes : Bytes) :
    Option (List (Option String × Json) × Bytes) :=
  match bound with
  | 0 => none
  | bound + 1 =>
    match skipSpace bytes with
    | 0x22 :: rest =>
      match readString {} rest with
      | none => none
      | some (key, rest) =>
        match skipSpace rest with
        | 0x3A :: rest =>
          match readValue bound room rest with
          | none => none
          | some (value, rest) =>
            match skipSpace rest with
            | 0x2C :: rest =>
              (readMembers bound room rest).map fun (members, rest) =>
                ((key, value) :: members, rest)
            | 0x7D :: rest => some ([(key, value)], rest)
            | _ => none
        | _ => none
    | _ => none

end

/-- How deep lists and objects may nest in a document. -/
def nestingLimit : Nat := 127

/-- The value of a document in which lists and objects may nest `room` deep. -/
def readWithin? (room : Nat) (bytes : Bytes) : Option Json :=
  match readValue (2 * bytes.length + 2) room bytes with
  | some (value, rest) => if (skipSpace rest).isEmpty then some value else none
  | none => none

/-- The value of a document. -/
def read? (bytes : Bytes) : Option Json := readWithin? nestingLimit bytes

end DataClassGen.Json
