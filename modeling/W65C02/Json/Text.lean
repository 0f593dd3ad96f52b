import W65C02.Json
import W65C02.Rounding

/-!
# JSON text

Values are written without blanks, and with escapes only where the grammar asks for them. The
reader takes the whole grammar and nothing else: one value, with blanks around it. Text that
obeys the grammar but stands for no value is the unreadable value, so that whoever passes over
it need not care.
-/

namespace W65C02.Json

/-! ### Writing -/

/-- The digit that stands for a number below sixteen. -/
def hexDigit (n : Nat) : Char := (Nat.toDigits 16 n).headD '0'

/-- A character as it is written inside a quoted string. -/
def escape (c : Char) : String :=
  if c = '"' then "\\\""
  else if c = '\\' then "\\\\"
  else if c = '\n' then "\\n"
  else if c = '\r' then "\\r"
  else if c = '\t' then "\\t"
  else if c.toNat = 0x08 then "\\b"
  else if c.toNat = 0x0C then "\\f"
  else if c.toNat < 0x20 then
    "\\u00" ++ String.ofList [hexDigit (c.toNat / 16), hexDigit (c.toNat % 16)]
  else String.singleton c

/-- Appends a quoted string. -/
def writeString (out : String) (s : String) : String :=
  (s.foldl (fun out c => out ++ escape c) (out.push '"')).push '"'

mutual

/-- Appends the text of a value. The unreadable one is written as a number that is too large to
be read. -/
def write (out : String) : Json → String
  | null => out ++ "null"
  | bool true => out ++ "true"
  | bool false => out ++ "false"
  | integer value => out ++ toString value
  | decimal text => out ++ text
  | string value => writeString out value
  | array [] => out ++ "[]"
  | array (first :: rest) => (writeItems (write (out.push '[') first) rest).push ']'
  | object [] => out ++ "\x7b\x7d"
  | object ((name, value) :: rest) =>
    (writeFields (write ((writeString (out.push '\x7b') name).push ':') value) rest).push '\x7d'
  | unreadable => out ++ "1e309"

/-- Appends the texts of further elements of an array. -/
def writeItems (out : String) : List Json → String
  | [] => out
  | item :: rest => writeItems (write (out.push ',') item) rest

/-- Appends the texts of further fields of an object. -/
def writeFields (out : String) : List (String × Json) → String
  | [] => out
  | (name, value) :: rest =>
    writeFields (write ((writeString (out.push ',') name).push ':') value) rest

end

/-- The text of a value. -/
def render (j : Json) : String := write "" j

/-! ### Reading -/

/-- Whether a character may stand between the tokens. -/
def isBlank (c : Char) : Bool := c = ' ' || c = '\n' || c = '\r' || c = '\t'

/-- Skips blanks. -/
def skipBlanks (cs : List Char) : List Char := cs.dropWhile isBlank

/-- The value of a hexadecimal digit. -/
def hexValue? (c : Char) : Option Nat :=
  if '0' ≤ c ∧ c ≤ '9' then some (c.toNat - '0'.toNat)
  else if 'a' ≤ c ∧ c ≤ 'f' then some (c.toNat - 'a'.toNat + 10)
  else if 'A' ≤ c ∧ c ≤ 'F' then some (c.toNat - 'A'.toNat + 10)
  else none

/-- Reads four hexadecimal digits. -/
def codeUnit? : List Char → Option (Nat × List Char)
  | a :: b :: c :: d :: rest => do
    let a ← hexValue? a
    let b ← hexValue? b
    let c ← hexValue? c
    let d ← hexValue? d
    some (((a * 16 + b) * 16 + c) * 16 + d, rest)
  | _ => none

/-- Reads the escape of the second half of a surrogate pair. -/
def secondHalf? : List Char → Option (Nat × List Char)
  | '\\' :: 'u' :: cs =>
    match codeUnit? cs with
    | some (second, rest) => if 0xDC00 ≤ second ∧ second < 0xE000 then some (second, rest) else none
    | none => none
  | _ => none

/-- Reads the character that the digits after `\u` stand for. Characters beyond the basic plane
take two escapes, and one half of such a pair alone stands for no character. -/
def escapedUnicode? (cs : List Char) : Option (Option Char × List Char) := do
  let (first, rest) ← codeUnit? cs
  if 0xD800 ≤ first ∧ first < 0xDC00 then
    match secondHalf? rest with
    | some (second, rest) =>
      some (some (Char.ofNat (0x10000 + (first - 0xD800) * 0x400 + (second - 0xDC00))), rest)
    | none => some (none, rest)
  else if 0xDC00 ≤ first ∧ first < 0xE000 then some (none, rest)
  else some (some (Char.ofNat first), rest)

/-- Reads the rest of an escape, after the backslash, and gives the character that it stands
for, if there is one. -/
def escaped? : List Char → Option (Option Char × List Char)
  | '"' :: rest => some (some '"', rest)
  | '\\' :: rest => some (some '\\', rest)
  | '/' :: rest => some (some '/', rest)
  | 'b' :: rest => some (some (Char.ofNat 0x08), rest)
  | 'f' :: rest => some (some (Char.ofNat 0x0C), rest)
  | 'n' :: rest => some (some '\n', rest)
  | 'r' :: rest => some (some '\r', rest)
  | 't' :: rest => some (some '\t', rest)
  | 'u' :: rest => escapedUnicode? rest
  | _ => none

/-- Reads the rest of a quoted string, after the opening quote. There is no string if one of the
escapes stands for no character; whether that has happened so far is the second argument. The
first argument bounds the number of characters by its length. -/
def stringRest? : List Char → Bool → String → List Char → Option (Option String × List Char)
  | [], _, _, _ => none
  | _ :: _, _, _, [] => none
  | _ :: fuel, broken, out, c :: rest =>
    if c = '"' then some (if broken then none else some out, rest)
    else if c = '\\' then
      match escaped? rest with
      | some (some c, rest) => stringRest? fuel broken (out.push c) rest
      | some (none, rest) => stringRest? fuel true out rest
      | none => none
    else if c.toNat < 0x20 then none
    else stringRest? fuel broken (out.push c) rest

/-- Whether a character is a decimal digit. -/
def isDigit (c : Char) : Bool := '0' ≤ c && c ≤ '9'

/-- The digits at the front, and what follows them. -/
def spanDigits (cs : List Char) : List Char × List Char :=
  (cs.takeWhile isDigit, cs.dropWhile isDigit)

/-- The number that decimal digits stand for. -/
def natOfDigits (digits : List Char) : Nat :=
  digits.foldl (fun n c => n * 10 + (c.toNat - '0'.toNat)) 0

/-- Reads an optional fraction: a point and at least one digit. -/
def fraction? (cs : List Char) : Option (List Char × List Char) :=
  match cs with
  | '.' :: rest =>
    match spanDigits rest with
    | ([], _) => none
    | (digits, rest) => some ('.' :: digits, rest)
  | _ => some ([], cs)

/-- Reads an optional exponent: a letter, an optional sign and at least one digit. The exponent
is given as it is written and as a number. -/
def exponent? (cs : List Char) : Option (List Char × Int × List Char) :=
  match cs with
  | c :: rest =>
    if c = 'e' ∨ c = 'E' then
      let (sign, rest) := match rest with
        | '+' :: rest => (['+'], rest)
        | '-' :: rest => (['-'], rest)
        | _ => ([], rest)
      match spanDigits rest with
      | ([], _) => none
      | (digits, rest) =>
        let n := Int.ofNat (natOfDigits digits)
        some (c :: sign ++ digits, if sign = ['-'] then -n else n, rest)
    else some ([], 0, cs)
  | [] => some ([], 0, cs)

/-- Appends digits to a number as long as it fits in sixty-four bits, and gives the digits that
are left. -/
def appendDigits (n : Nat) : List Char → Nat × List Char
  | [] => (n, [])
  | c :: rest =>
    let next := n * 10 + (c.toNat - '0'.toNat)
    if next < UInt64.size then appendDigits next rest else (n, c :: rest)

/-- Whether a number, given by the digits before and after the point and its exponent, is beyond
the greatest double. The digits that fit in sixty-four bits are the significand; of the others
only those before the point count, and only by their number. -/
def isTooLarge (digits fraction : List Char) (exponent : Int) : Bool :=
  let (significand, dropped) := appendDigits 0 digits
  let (significand, unused) := appendDigits significand fraction
  let power := exponent + Int.ofNat dropped.length - Int.ofNat (fraction.length - unused.length)
  0 < power && exceedsDoubles significand power.toNat

/-- Reads a number. It has no needless zeros in front; without fraction and exponent it is an
integer, unless it is a negative zero. -/
def number? (cs : List Char) : Option (Json × List Char) := do
  let (negative, cs) := match cs with
    | '-' :: rest => (true, rest)
    | _ => (false, cs)
  let (digits, cs) := spanDigits cs
  match digits with
  | [] | '0' :: _ :: _ => none
  | _ =>
    let (fraction, cs) ← fraction? cs
    let (exponent, power, cs) ← exponent? cs
    if isTooLarge digits (fraction.drop 1) power then some (unreadable, cs)
    else if fraction.isEmpty && exponent.isEmpty && !(negative && digits == ['0']) then
      let n := Int.ofNat (natOfDigits digits)
      some (integer (if negative then -n else n), cs)
    else
      let sign := if negative then ['-'] else []
      some (decimal (String.ofList (sign ++ digits ++ fraction ++ exponent)), cs)

mutual

/-- Reads a value at the very front. The fuel bounds the number of tokens. -/
def value? : Nat → List Char → Option (Json × List Char)
  | 0, _ => none
  | fuel + 1, cs =>
    match cs with
    | 'n' :: 'u' :: 'l' :: 'l' :: rest => some (null, rest)
    | 't' :: 'r' :: 'u' :: 'e' :: rest => some (bool true, rest)
    | 'f' :: 'a' :: 'l' :: 's' :: 'e' :: rest => some (bool false, rest)
    | '"' :: rest =>
      match stringRest? rest false "" rest with
      | some (some s, rest) => some (string s, rest)
      | some (none, rest) => some (unreadable, rest)
      | none => none
    | '[' :: rest =>
      match skipBlanks rest with
      | ']' :: rest => some (array [], rest)
      | rest => itemsRest? fuel [] rest
    | '\x7b' :: rest =>
      match skipBlanks rest with
      | '\x7d' :: rest => some (object [], rest)
      | rest =>
        match fieldsRest? fuel false [] rest with
        | some (some fields, rest) => some (object fields, rest)
        | some (none, rest) => some (unreadable, rest)
        | none => none
    | _ => number? cs

/-- Reads the rest of an array, from the front of an element on. The elements read so far come
last first. -/
def itemsRest? : Nat → List Json → List Char → Option (Json × List Char)
  | 0, _, _ => none
  | fuel + 1, items, cs =>
    match value? fuel cs with
    | none => none
    | some (item, rest) =>
      match skipBlanks rest with
      | ',' :: rest => itemsRest? fuel (item :: items) (skipBlanks rest)
      | ']' :: rest => some (array (item :: items).reverse, rest)
      | _ => none

/-- Reads the rest of an object, from the front of a field on. The fields read so far come last
first. There are no fields if one of the names is no string; whether that has happened so far is
the second argument. -/
def fieldsRest? : Nat → Bool → List (String × Json) → List Char →
    Option (Option (List (String × Json)) × List Char)
  | 0, _, _, _ => none
  | fuel + 1, broken, fields, cs =>
    match cs with
    | '"' :: rest =>
      match stringRest? rest false "" rest with
      | none => none
      | some (name, rest) =>
        match skipBlanks rest with
        | ':' :: rest =>
          match value? fuel (skipBlanks rest) with
          | none => none
          | some (value, rest) =>
            let broken := broken || name.isNone
            let fields := (name.getD "", value) :: fields
            match skipBlanks rest with
            | ',' :: rest => fieldsRest? fuel broken fields (skipBlanks rest)
            | '\x7d' :: rest => some (if broken then none else some fields.reverse, rest)
            | _ => none
        | _ => none
    | _ => none

end

/-- Makes unreadable whatever lies deeper than a number of levels. Each array and each object is
a level, also when it is empty. -/
def limitNesting : Nat → Json → Json
  | 0, array _ | 0, object _ => unreadable
  | levels + 1, array items => array (items.map (limitNesting levels))
  | levels + 1, object fields =>
    object (fields.map fun (name, value) => (name, limitNesting levels value))
  | _, j => j

/-- How many arrays and objects may lie within each other. -/
def nestingLimit : Nat := 127

/-- Reads a text that consists of a single value and blanks. -/
def parse? (text : String) : Option Json :=
  let cs := skipBlanks text.toList
  match value? (cs.length + 1) cs with
  | some (value, rest) =>
    if (skipBlanks rest).isEmpty then some (limitNesting nestingLimit value) else none
  | none => none

end W65C02.Json
