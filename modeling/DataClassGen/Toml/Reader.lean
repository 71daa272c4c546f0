import DataClassGen.Toml.Table

/-!
# Reading TOML

The table of a TOML document, by the grammar of TOML 1.1, but that a table between braces may
break its lines around an equals sign too. Readers take characters from the front and give what
they read and what is left. Those that call one another are bounded by a count that starts beyond
the length of the document; each call passes at least one character, so the count is never what
stops them.
-/

namespace DataClassGen.Toml

/-! ### Blanks, comments and ends of lines -/

/-- Without the blanks and tabs in front. -/
def skipBlanks (cs : List Char) : List Char := cs.dropWhile fun c => c == ' ' || c == '\t'

/-- A character that must not stand in a comment or in a string on one line. -/
def isControl (c : Char) : Bool := (c.toNat ≤ 0x1F && c != '\t') || c.toNat == 0x7F

/-- The end of a line in front. -/
def newline? : List Char → Option (List Char)
  | '\n' :: rest => some rest
  | '\r' :: '\n' :: rest => some rest
  | _ => none

/-- Without a comment in front. -/
def skipComment : List Char → List Char
  | '#' :: rest => rest.dropWhile fun c => !isControl c
  | cs => cs

/-- The rest of a line that has only blanks and a comment, with its end. -/
def endOfLine? (cs : List Char) : Option (List Char) :=
  match skipComment (skipBlanks cs) with
  | [] => some []
  | cs => newline? cs

/-- Without the blanks, comments and ends of lines in front. -/
def skipLines : Nat → List Char → List Char
  | 0, cs => cs
  | bound + 1, cs =>
    match newline? (skipComment (skipBlanks cs)) with
    | some rest => skipLines bound rest
    | none => skipComment (skipBlanks cs)

/-! ### Strings -/

/-- The quote that hides nothing. -/
def singleQuote : Char := Char.ofNat 39

/-- The number that hexadecimal digits stand for. -/
def hexNumber? (cs : List Char) : Option Nat :=
  cs.foldlM (fun n c =>
    if c.isDigit then some (n * 16 + (c.toNat - 48))
    else if 'a' ≤ c && c ≤ 'f' then some (n * 16 + (c.toNat - 87))
    else if 'A' ≤ c && c ≤ 'F' then some (n * 16 + (c.toNat - 55))
    else none) 0

/-- The character of `count` hexadecimal digits in front. -/
def unicode? (count : Nat) (cs : List Char) : Option (Char × List Char) := do
  let digits := cs.take count
  if digits.length = count then
    let n ← hexNumber? digits
    if n < 0xD800 || (0xE000 ≤ n && n < 0x110000) then some (Char.ofNat n, cs.drop count) else none
  else none

/-- The character behind a backslash. -/
def escape? : List Char → Option (Char × List Char)
  | 'b' :: rest => some ('\x08', rest)
  | 't' :: rest => some ('\t', rest)
  | 'n' :: rest => some ('\n', rest)
  | 'f' :: rest => some ('\x0c', rest)
  | 'r' :: rest => some ('\r', rest)
  | 'e' :: rest => some ('\x1b', rest)
  | '"' :: rest => some ('"', rest)
  | '\\' :: rest => some ('\\', rest)
  | 'x' :: rest => unicode? 2 rest
  | 'u' :: rest => unicode? 4 rest
  | 'U' :: rest => unicode? 8 rest
  | _ => none

/-- What follows a backslash at the end of a line: the next line that has more than blanks. -/
def continued? (bound : Nat) (cs : List Char) : Option (List Char) :=
  let rec next : Nat → List Char → List Char
    | 0, cs => cs
    | bound + 1, cs =>
      match newline? (skipBlanks cs) with
      | some rest => next bound rest
      | none => skipBlanks cs
  (newline? (skipBlanks cs)).map (next bound)

/-- The rest of a string between double quotes on one line. -/
def readBasic : Nat → List Char → List Char → Option (String × List Char)
  | 0, _, _ => none
  | _, _, [] => none
  | bound + 1, reversed, c :: cs =>
    if c == '"' then some (String.ofList reversed.reverse, cs)
    else if c == '\\' then
      match escape? cs with
      | some (c, cs) => readBasic bound (c :: reversed) cs
      | none => none
    else if isControl c then none
    else readBasic bound (c :: reversed) cs

/-- The rest of a string between single quotes on one line. -/
def readLiteral (cs : List Char) : Option (String × List Char) :=
  let body := cs.takeWhile fun c => c != singleQuote && !isControl c
  match cs.drop body.length with
  | c :: rest => if c == singleQuote then some (String.ofList body, rest) else none
  | [] => none

/-- The rest of a string over several lines, up to three quotes; up to two quotes before those
belong to the string. Each end of a line stays as it is. -/
def readLong (quote : Char) (hasEscapes : Bool) :
    Nat → List Char → List Char → Option (String × List Char)
  | 0, _, _ => none
  | _, _, [] => none
  | bound + 1, reversed, c :: cs =>
    if c == quote then
      let run := ((c :: cs).takeWhile (· == quote)).length
      let rest := (c :: cs).drop run
      if run < 3 then readLong quote hasEscapes bound (List.replicate run quote ++ reversed) rest
      else if run ≤ 5 then
        some (String.ofList (List.replicate (run - 3) quote ++ reversed).reverse, rest)
      else none
    else if hasEscapes && c == '\\' then
      match escape? cs, continued? bound cs with
      | some (c, cs), _ => readLong quote hasEscapes bound (c :: reversed) cs
      | none, some cs => readLong quote hasEscapes bound reversed cs
      | none, none => none
    else
      if isControl c && (newline? (c :: cs)).isNone then none
      else readLong quote hasEscapes bound (c :: reversed) cs

/-- Without the end of a line in front. -/
def dropNewline (cs : List Char) : List Char := (newline? cs).getD cs

/-- A string of one of the four kinds. -/
def readString (bound : Nat) : List Char → Option (String × List Char)
  | '"' :: '"' :: '"' :: rest => readLong '"' true bound [] (dropNewline rest)
  | '"' :: rest => readBasic bound [] rest
  | c :: rest =>
    if c == singleQuote then
      match rest with
      | d :: e :: rest' =>
        if d == singleQuote && e == singleQuote then
          readLong singleQuote false bound [] (dropNewline rest')
        else readLiteral rest
      | _ => readLiteral rest
    else none
  | [] => none

/-! ### Keys -/

/-- A bare or quoted key. -/
def readSimpleKey (bound : Nat) : List Char → Option (String × List Char)
  | '"' :: rest => readBasic bound [] rest
  | c :: rest =>
    if c == singleQuote then readLiteral rest
    else
      let bare := (c :: rest).takeWhile isBareKeyChar
      if bare.isEmpty then none else some (String.ofList bare, (c :: rest).drop bare.length)
  | [] => none

/-- How many keys a dotted key may have, and how deep arrays and tables may nest in a value. -/
def nestingLimit : Nat := 80

/-- At most `room` keys with dots between them. -/
def readKeys (bound : Nat) : Nat → List Char → Option (List String × List Char)
  | 0, _ => none
  | room + 1, cs =>
    match readSimpleKey bound (skipBlanks cs) with
    | none => none
    | some (key, rest) =>
      match skipBlanks rest with
      | '.' :: rest => (readKeys bound room rest).map fun (keys, rest) => (key :: keys, rest)
      | rest => some ([key], rest)

/-- A dotted key. -/
def readKey (bound : Nat) (cs : List Char) : Option (List String × List Char) :=
  readKeys bound nestingLimit cs

/-! ### Numbers and other words -/

/-- Digits in groups with single underscores between them, the underscores left out. -/
def ungrouped? (isDigit : Char → Bool) (cs : List Char) : Option (List Char) :=
  let groups := Text.cut '_' cs
  if groups.all fun group => !group.isEmpty && group.all isDigit then some groups.flatten else none

/-- The number that digits in a base stand for. -/
def numberIn (base : Nat) (digits : List Char) : Nat :=
  digits.foldl (fun n c =>
    n * base + (if c.isDigit then c.toNat - 48 else c.toLower.toNat - 87)) 0

/-- An integer of 64 bits with its sign. -/
def int64? (n : Int) : Option Value :=
  if Int64.minValue.toInt ≤ n && n ≤ Int64.maxValue.toInt then some (.integer n) else none

/-- Decimal digits that do not start with a needless zero. -/
def wholeDigits? (cs : List Char) : Option (List Char) :=
  match ungrouped? Char.isDigit cs with
  | some ('0' :: _ :: _) => none
  | digits => digits

/-- The double nearest to `digits · 10^exponent`; nothing if it is beyond all doubles. -/
def nearestDouble? (digits : Nat) (exponent : Int) : Option Binary64 :=
  let size : Int := (decimalDigits digits).length
  if digits = 0 || exponent + size < -400 then some ⟨0⟩
  else if 400 < exponent + size then none
  else
    let x :=
      match exponent with
      | .ofNat n => Binary64.ofQuotient (digits * Nat.pow 10 n) 1
      | .negSucc n => Binary64.ofQuotient digits (Nat.pow 10 (n + 1))
    if x.isFinite then some x else none

/-- An exponent, its sign included. -/
def exponent? (cs : List Char) : Option Int :=
  let (sign, cs) : Int × List Char :=
    match cs with
    | '+' :: cs => (1, cs)
    | '-' :: cs => (-1, cs)
    | cs => (1, cs)
  (ungrouped? Char.isDigit cs).map fun digits => sign * ((numberIn 10 digits : Nat) : Int)

/-- A float without its sign. -/
def magnitude? (cs : List Char) : Option Binary64 := do
  let mantissa := cs.takeWhile fun c => c != 'e' && c != 'E'
  let exponent ←
    match cs.drop mantissa.length with
    | [] => some 0
    | _ :: cs => exponent? cs
  let whole ← wholeDigits? (mantissa.takeWhile (· != '.'))
  let places ←
    match mantissa.dropWhile (· != '.') with
    | [] => some []
    | _ :: places => ungrouped? Char.isDigit places
  nearestDouble? (numberIn 10 (whole ++ places)) (exponent - places.length)

/-- A decimal number, with its sign. -/
def number? (isNegative : Bool) (cs : List Char) : Option Value :=
  let signed (x : Binary64) : Value := .float (if isNegative then x.negate else x)
  if cs == ['i', 'n', 'f'] then some (signed .infinity)
  else if cs == ['n', 'a', 'n'] then some (signed .nan)
  else if cs.any fun c => c == '.' || c == 'e' || c == 'E' then (magnitude? cs).map signed
  else
    (wholeDigits? cs).bind fun digits =>
      let n : Int := ((numberIn 10 digits : Nat) : Int)
      int64? (if isNegative then -n else n)

/-- A hexadecimal digit. -/
def isHexDigit (c : Char) : Bool :=
  c.isDigit || ('a' ≤ c && c ≤ 'f') || ('A' ≤ c && c ≤ 'F')

/-- A value without quotes or brackets. -/
def word? (cs : List Char) : Option Value :=
  match Moment.read? cs with
  | some moment => some (.moment moment)
  | none =>
    match cs with
    | ['t', 'r', 'u', 'e'] => some (.boolean true)
    | ['f', 'a', 'l', 's', 'e'] => some (.boolean false)
    | '0' :: 'x' :: cs => (ungrouped? isHexDigit cs).bind fun ds => int64? (numberIn 16 ds : Nat)
    | '0' :: 'o' :: cs =>
      (ungrouped? (fun c => '0' ≤ c && c ≤ '7') cs).bind fun ds => int64? (numberIn 8 ds : Nat)
    | '0' :: 'b' :: cs =>
      (ungrouped? (fun c => c == '0' || c == '1') cs).bind fun ds => int64? (numberIn 2 ds : Nat)
    | '+' :: cs => number? false cs
    | '-' :: cs => number? true cs
    | cs => number? false cs

/-- A character of a value without quotes or brackets. -/
def isWordChar (c : Char) : Bool :=
  c.isAlphanum || c == '_' || c == '+' || c == '-' || c == '.' || c == ':'

/-- A value without quotes or brackets; the blank between a date and a time belongs to it. -/
def readWord (cs : List Char) : Option (Value × List Char) :=
  let word := cs.takeWhile isWordChar
  let rest := cs.drop word.length
  match readDate? word, rest with
  | some (_, []), ' ' :: d :: rest' =>
    if d.isDigit then
      let time := (d :: rest').takeWhile isWordChar
      (word? (word ++ ' ' :: time)).map fun value => (value, (d :: rest').drop time.length)
    else (word? word).map fun value => (value, rest)
  | _, _ => (word? word).map fun value => (value, rest)

/-! ### Values -/

mutual

/-- A value, in which arrays and tables may nest `room` deep. -/
def readValue (bound room : Nat) (cs : List Char) : Option (Value × List Char) :=
  match bound, cs with
  | 0, _ => none
  | _, [] => none
  | bound + 1, c :: cs =>
    if c == '"' || c == singleQuote then
      (readString bound (c :: cs)).map fun (s, rest) => (.string s, rest)
    else if c == '[' then
      match room with
      | 0 => none
      | room + 1 =>
        (readItems bound room (skipLines bound cs)).map fun (items, rest) => (.array items, rest)
    else if c == '\x7b' then
      match room with
      | 0 => none
      | room + 1 =>
        (readEntries bound room [] (skipLines bound cs)).map fun (entries, rest) =>
          (.table (entryValues entries), rest)
    else readWord (c :: cs)

/-- The items of an array and its closing bracket. -/
def readItems (bound room : Nat) (cs : List Char) : Option (List Value × List Char) :=
  match bound, cs with
  | 0, _ => none
  | _, [] => none
  | bound + 1, c :: cs =>
    if c == ']' then some ([], cs)
    else
      match readValue bound room (c :: cs) with
      | none => none
      | some (item, rest) =>
        match skipLines bound rest with
        | ',' :: rest =>
          (readItems bound room (skipLines bound rest)).map fun (items, rest) =>
            (item :: items, rest)
        | ']' :: rest => some ([item], rest)
        | _ => none

/-- The entries of a table between braces and its closing brace. Lines may end, and comments
stand, on either side of an equals sign as of a comma. -/
def readEntries (bound room : Nat) (entries : Entries) (cs : List Char) :
    Option (Entries × List Char) :=
  match bound, cs with
  | 0, _ => none
  | _, [] => none
  | bound + 1, c :: cs =>
    if c == '\x7d' then some (entries, cs)
    else
      match readKey bound (c :: cs) with
      | none => none
      | some (keys, rest) =>
        match skipLines bound rest with
        | '=' :: rest =>
          match readValue bound room (skipLines bound rest) with
          | none => none
          | some (value, rest) =>
            match assign keys value entries with
            | none => none
            | some entries =>
              match skipLines bound rest with
              | ',' :: rest => readEntries bound room entries (skipLines bound rest)
              | '\x7d' :: rest => some (entries, rest)
              | _ => none
        | _ => none

end

/-! ### Documents -/

/-- The path of a header, up to its closing brackets. -/
def readHeader (bound : Nat) (closing : List Char) (cs : List Char) :
    Option (List String × List Char) := do
  let (keys, rest) ← readKey bound cs
  let rest ← closing.isPrefixOf? rest
  return (keys, rest)

/-- The lines of a document below the table of a header. -/
def readLines : Nat → List String → Entries → List Char → Option Entries
  | 0, _, _, _ => none
  | bound + 1, header, entries, cs =>
    match skipLines bound cs with
    | [] => some entries
    | '[' :: '[' :: rest => do
      let (keys, rest) ← readHeader bound [']', ']'] rest
      readLines bound keys (← openArrayTable keys entries) (← endOfLine? rest)
    | '[' :: rest => do
      let (keys, rest) ← readHeader bound [']'] rest
      readLines bound keys (← openTable keys entries) (← endOfLine? rest)
    | cs =>
      match readKey bound cs with
      | some (keys, '=' :: rest) => do
        let (value, rest) ← readValue bound nestingLimit (skipBlanks rest)
        readLines bound header (← assignUnder header keys value entries) (← endOfLine? rest)
      | _ => none

/-- The entries of a document, in the order of their keys, with their moments. A byte order mark in
front is passed over. -/
def read? (source : String) : Option (List (String × Value)) :=
  let cs :=
    match source.toList with
    | '\ufeff' :: rest => rest
    | cs => cs
  (readLines (2 * cs.length + 2) [] [] cs).bind fun entries =>
    Value.settledEntries? (entryValues entries)

end DataClassGen.Toml
