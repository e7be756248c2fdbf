import RemoteCall.Json.Basic
import RemoteCall.Text.Hex

/-!
# Reading JSON text

A text of the grammar holds one value, which is an array, an object, a string, a
decimal number, `null`, `true` or `false`, with blanks around it and around the
marks inside.  There are no trailing commas, no comments, no byte order mark, no
zeros in front of a number, and nothing after the value.  A text outside the
grammar has no tree.  A text inside it may still hold parts that denote nothing;
these become `Json.unreadable`.

A text is a row of bytes.  All marks of the grammar are ASCII, so the bytes are
walked one by one, each as the character of its number; only what stands in a
string literal is then taken as UTF-8.

The functions on values recurse on a bound for the number of steps, which
`parse?` takes from the length of the text.  They are given how the name of a
member is taken from its literal: as the text that it denotes, or so that one
can also see how it was spelled.
-/

namespace RemoteCall.Json

namespace Parser

/-- Drop blanks, tabs and line ends. -/
def skipBlank : List Char → List Char
  | ' ' :: rest => skipBlank rest
  | '\t' :: rest => skipBlank rest
  | '\n' :: rest => skipBlank rest
  | '\r' :: rest => skipBlank rest
  | other => other

/-- What one step in a string literal yields: a byte that stands for itself, or
one UTF-16 unit written by its number. -/
inductive Unit16 where
  | byte (c : Char)
  | unit (n : Nat)
  deriving DecidableEq, Repr

/-- The number written by four hexadecimal digits. -/
def hex4? (a b c d : Char) : Option Nat :=
  match Text.Hex.value? a, Text.Hex.value? b, Text.Hex.value? c, Text.Hex.value? d with
  | some a, some b, some c, some d => some (((a * 16 + b) * 16 + c) * 16 + d)
  | _, _, _, _ => none

/-- The character a one-letter escape stands for. -/
def shortEscape? : Char → Option Char
  | '"' => some '"'
  | '\\' => some '\\'
  | '/' => some '/'
  | 'b' => some '\x08'
  | 'f' => some '\x0c'
  | 'n' => some '\n'
  | 'r' => some '\r'
  | 't' => some '\t'
  | _ => none

/-- The rest of a string literal after its opening mark, with what follows the
closing mark. -/
def stringBody : List Char → Option (List Unit16 × List Char)
  | [] => none
  | '"' :: rest => some ([], rest)
  | '\\' :: 'u' :: a :: b :: c :: d :: rest =>
    match hex4? a b c d, stringBody rest with
    | some n, some (units, rest) => some (.unit n :: units, rest)
    | _, _ => none
  | '\\' :: c :: rest =>
    match shortEscape? c, stringBody rest with
    | some c, some (units, rest) => some (.byte c :: units, rest)
    | _, _ => none
  | c :: rest =>
    if c.toNat < 0x20 || c == '\\' then none
    else
      match stringBody rest with
      | some (units, rest) => some (.byte c :: units, rest)
      | none => none

/-- The bytes meant: a byte that stands for itself, or the UTF-8 form of what is
written by number.  Two units that are a surrogate pair are one character, and
half a pair is none. -/
def literalBytes? : List Unit16 → Option (List UInt8)
  | [] => some []
  | .byte c :: rest => (literalBytes? rest).map (UInt8.ofNat c.toNat :: ·)
  | .unit high :: .unit low :: rest =>
    if 0xd800 ≤ high ∧ high ≤ 0xdbff then
      if 0xdc00 ≤ low ∧ low ≤ 0xdfff then
        let n := 0x10000 + (high - 0xd800) * 0x400 + (low - 0xdc00)
        (literalBytes? rest).map (String.utf8EncodeChar (Char.ofNat n) ++ ·)
      else none
    else if 0xdc00 ≤ high ∧ high ≤ 0xdfff then none
    else (literalBytes? (.unit low :: rest)).map (String.utf8EncodeChar (Char.ofNat high) ++ ·)
  | .unit n :: rest =>
    if 0xd800 ≤ n ∧ n ≤ 0xdfff then none
    else (literalBytes? rest).map (String.utf8EncodeChar (Char.ofNat n) ++ ·)

def text? (units : List Unit16) : Option String :=
  (literalBytes? units).bind fun bytes => String.fromUTF8? ⟨bytes.toArray⟩

/-- Whether a step in a string literal is written by number. -/
def Unit16.isNumbered : Unit16 → Bool
  | .byte _ => false
  | .unit _ => true

/-- The text that a literal denotes after a mark: a backslash if some of it is
written by number, an equals sign if not. -/
def spelling? (units : List Unit16) : Option String :=
  (text? units).map fun text => (if units.any Unit16.isNumbered then "\\" else "=") ++ text

/-- A string literal after its opening mark; the text, as `take` takes it from
the literal, is `none` if the literal denotes no text. -/
def string? (take : List Unit16 → Option String) (text : List Char) :
    Option (Option String × List Char) :=
  (stringBody text).map fun (units, rest) => (take units, rest)

/-- The whole part of a number: a single zero, or digits that start otherwise. -/
def wholePart? : List Char → Option (List Char × List Char)
  | '0' :: rest =>
    match rest with
    | c :: _ => if c.isDigit then none else some (['0'], rest)
    | [] => some (['0'], rest)
  | text =>
    match text.span Char.isDigit with
    | ([], _) => none
    | (digits, rest) => some (digits, rest)

/-- The digits after a decimal point, none if there is no point. -/
def fractionPart? : List Char → Option (List Char × List Char)
  | '.' :: rest =>
    match rest.span Char.isDigit with
    | ([], _) => none
    | (digits, rest) => some (digits, rest)
  | text => some ([], text)

/-- The digits of an exponent after its sign. -/
def exponentDigits? (text : List Char) : Option (Nat × List Char) :=
  match text.span Char.isDigit with
  | ([], _) => none
  | (digits, rest) => some (Nat.ofDigitChars 10 digits 0, rest)

/-- The exponent of a number, `none` inside if there is none. -/
def exponentPart? : List Char → Option (Option Int × List Char)
  | c :: rest =>
    if c = 'e' ∨ c = 'E' then
      match rest with
      | '-' :: rest => (exponentDigits? rest).map fun (n, rest) => (some (-n), rest)
      | '+' :: rest => (exponentDigits? rest).map fun (n, rest) => (some n, rest)
      | _ => (exponentDigits? rest).map fun (n, rest) => (some n, rest)
    else some (none, c :: rest)
  | [] => some (none, [])

/-- A floating-point number, or what denotes nothing if it is out of range. -/
def floatOf (negative : Bool) (digits : Nat) (exponent : Int) : Json :=
  match Binary64.ofDecimal? negative digits exponent with
  | some x => .float x
  | none => .unreadable

/-- A number written without point and exponent.  It is an integer if it fits in
64 bits with or without sign, except for negative zero. -/
def integerOf (negative : Bool) (n : Nat) : Json :=
  if negative then
    if n = 0 ∨ UInt64.size / 2 < n then floatOf true n 0 else .int (-n)
  else if n < UInt64.size then .int n
  else floatOf false n 0

def unsigned? (negative : Bool) (text : List Char) : Option (Json × List Char) :=
  match wholePart? text with
  | none => none
  | some (whole, rest) =>
    match fractionPart? rest with
    | none => none
    | some (fraction, rest) =>
      match exponentPart? rest with
      | none => none
      | some (exponent, rest) =>
        let digits := Nat.ofDigitChars 10 (whole ++ fraction) 0
        if fraction = [] ∧ exponent = none then some (integerOf negative digits, rest)
        else some (floatOf negative digits (exponent.getD 0 - fraction.length), rest)

def number? : List Char → Option (Json × List Char)
  | '-' :: rest => unsigned? true rest
  | text => unsigned? false text

/-- An array or object below `room` more levels of nesting; without room it
denotes nothing. -/
def nested (room : Nat) (value : Json) : Json :=
  if room = 0 then .unreadable else value

/-- An object with the given members; it denotes nothing if a name does not. -/
def objectOf (members : List (Option String × Json)) : Json :=
  match members.mapM fun member => member.1.map fun name => (name, member.2) with
  | some members => .obj members
  | none => .unreadable

mutual

/-- A value at the start of the text, and what follows it. -/
def value? (name : List Unit16 → Option String) :
    Nat → Nat → List Char → Option (Json × List Char)
  | 0, _, _ => none
  | steps + 1, room, text =>
    match text with
    | '{' :: rest =>
      match skipBlank rest with
      | '}' :: rest => some (nested room (.obj []), rest)
      | rest =>
        match members? name steps (room - 1) rest with
        | some (members, rest) => some (nested room (objectOf members), rest)
        | none => none
    | '[' :: rest =>
      match skipBlank rest with
      | ']' :: rest => some (nested room (.arr []), rest)
      | rest =>
        match items? name steps (room - 1) rest with
        | some (items, rest) => some (nested room (.arr items), rest)
        | none => none
    | '"' :: rest =>
      match string? text? rest with
      | some (some s, rest) => some (.str s, rest)
      | some (none, rest) => some (.unreadable, rest)
      | none => none
    | 'n' :: 'u' :: 'l' :: 'l' :: rest => some (.null, rest)
    | 't' :: 'r' :: 'u' :: 'e' :: rest => some (.bool true, rest)
    | 'f' :: 'a' :: 'l' :: 's' :: 'e' :: rest => some (.bool false, rest)
    | text => number? text

/-- At least one item of an array, and what follows its closing bracket. -/
def items? (name : List Unit16 → Option String) :
    Nat → Nat → List Char → Option (List Json × List Char)
  | 0, _, _ => none
  | steps + 1, room, text =>
    match value? name steps room text with
    | none => none
    | some (item, rest) =>
      match skipBlank rest with
      | ']' :: rest => some ([item], rest)
      | ',' :: rest =>
        match items? name steps room (skipBlank rest) with
        | some (items, rest) => some (item :: items, rest)
        | none => none
      | _ => none

/-- At least one member of an object, and what follows its closing brace. -/
def members? (name : List Unit16 → Option String) :
    Nat → Nat → List Char → Option (List (Option String × Json) × List Char)
  | 0, _, _ => none
  | steps + 1, room, text =>
    match text with
    | '"' :: rest =>
      match string? name rest with
      | none => none
      | some (member, rest) =>
        match skipBlank rest with
        | ':' :: rest =>
          match value? name steps room (skipBlank rest) with
          | none => none
          | some (value, rest) =>
            match skipBlank rest with
            | '}' :: rest => some ([(member, value)], rest)
            | ',' :: rest =>
              match members? name steps room (skipBlank rest) with
              | some (members, rest) => some ((member, value) :: members, rest)
              | none => none
            | _ => none
        | _ => none
    | _ => none

end

end Parser

/-- The tree of a JSON text whose readable part may nest `limit` arrays and
objects, the names in it taken from their literals by `name`. -/
def parseBy? (name : List Parser.Unit16 → Option String) (limit : Nat) (bytes : List UInt8) :
    Option Json :=
  let text := bytes.map fun byte => Char.ofNat byte.toNat
  match Parser.value? name (2 * text.length + 2) limit (Parser.skipBlank text) with
  | some (value, rest) => if Parser.skipBlank rest = [] then some value else none
  | none => none

/-- The tree of a JSON text whose readable part may nest `limit` arrays and
objects. -/
def parseWithin? (limit : Nat) (bytes : List UInt8) : Option Json :=
  parseBy? Parser.text? limit bytes

def parse? (bytes : List UInt8) : Option Json := parseWithin? nestingLimit bytes

/-- The tree of a JSON text in which each name stands after a mark that tells how
it is spelled. -/
def parseSpelled? (bytes : List UInt8) : Option Json := parseBy? Parser.spelling? nestingLimit bytes

def ofText? (text : String) : Option Json := parse? text.toUTF8.toList

end RemoteCall.Json
