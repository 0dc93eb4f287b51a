import PlantGrowth.Json.Basic

/-!
# Reading JSON text

A recursive descent over the characters of the text. Every reader returns the rest of the text,
which is never longer, and between two characters the descent takes at most two steps; twice the
number of characters therefore bounds it. An integer literal that fits into 64 bits is an integer;
every other number, `-0` among them, is the 64-bit float nearest to it. Of several fields of one
name the last counts.
-/

namespace PlantGrowth
namespace Json
namespace Reader

/-- The text after the blanks in front of it. -/
def skipBlanks : List Char → List Char :=
  List.dropWhile fun c => c = ' ' || c = '\n' || c = '\t' || c = '\r'

/-- The number written by decimal digits. -/
def natOfDigits (digits : List Char) : Nat :=
  digits.foldl (fun n c => n * 10 + (c.toNat - '0'.toNat)) 0

/-- The value of a hexadecimal digit. -/
def hexDigit? (c : Char) : Option Nat :=
  if '0' ≤ c ∧ c ≤ '9' then some (c.toNat - '0'.toNat)
  else if 'a' ≤ c ∧ c ≤ 'f' then some (c.toNat - 'a'.toNat + 10)
  else if 'A' ≤ c ∧ c ≤ 'F' then some (c.toNat - 'A'.toNat + 10)
  else none

/-- Four hexadecimal digits. -/
def hexUnit? : List Char → Option (Nat × List Char)
  | a :: b :: c :: d :: rest => do
    let a ← hexDigit? a
    let b ← hexDigit? b
    let c ← hexDigit? c
    let d ← hexDigit? d
    pure (a * 4096 + b * 256 + c * 16 + d, rest)
  | _ => none

/-- The character of a `\u` escape, which takes two units beyond the first 65536 code points. -/
def escapedUnit? (text : List Char) : Option (Char × List Char) := do
  let (unit, rest) ← hexUnit? text
  if 0xd800 ≤ unit ∧ unit ≤ 0xdbff then
    match rest with
    | '\\' :: 'u' :: more =>
      let (low, rest) ← hexUnit? more
      if 0xdc00 ≤ low ∧ low ≤ 0xdfff then
        pure (Char.ofNat (0x10000 + (unit - 0xd800) * 0x400 + (low - 0xdc00)), rest)
      else none
    | _ => none
  else if 0xdc00 ≤ unit ∧ unit ≤ 0xdfff then none
  else pure (Char.ofNat unit, rest)

/-- The character after a backslash. -/
def escaped? : List Char → Option (Char × List Char)
  | '"' :: rest => some ('"', rest)
  | '\\' :: rest => some ('\\', rest)
  | '/' :: rest => some ('/', rest)
  | 'b' :: rest => some ('\x08', rest)
  | 'f' :: rest => some ('\x0c', rest)
  | 'n' :: rest => some ('\n', rest)
  | 'r' :: rest => some ('\r', rest)
  | 't' :: rest => some ('\t', rest)
  | 'u' :: rest => escapedUnit? rest
  | _ => none

/-- The rest of a string after its opening quote; `read` holds what came before, latest first. -/
def string? (read : List Char) : Nat → List Char → Option (String × List Char)
  | 0, _ => none
  | _ + 1, [] => none
  | bound + 1, c :: rest =>
    if c = '"' then some (String.ofList read.reverse, rest)
    else if c = '\\' then
      match escaped? rest with
      | some (character, rest) => string? (character :: read) bound rest
      | none => none
    else if c.toNat < 0x20 then none
    else string? (c :: read) bound rest

/-- The digits after a point, if a point follows. -/
def fraction? : List Char → Option (Option (List Char) × List Char)
  | '.' :: rest =>
    match rest.takeWhile Char.isDigit with
    | [] => none
    | digits => some (some digits, rest.dropWhile Char.isDigit)
  | text => some (none, text)

/-- The exponent, if one follows. -/
def exponent? : List Char → Option (Option Int × List Char)
  | c :: rest =>
    if c = 'e' ∨ c = 'E' then
      let (negative, digits) :=
        match rest with
        | '-' :: more => (true, more)
        | '+' :: more => (false, more)
        | more => (false, more)
      match digits.takeWhile Char.isDigit with
      | [] => none
      | read =>
        let size : Int := natOfDigits read
        some (some (if negative then -size else size), digits.dropWhile Char.isDigit)
    else some (none, c :: rest)
  | [] => some (none, [])

/-- The float nearest to `± digits * 10 ^ exponent`. Beyond the largest float there is none. -/
def floatOf? (negative : Bool) (digits : Nat) (exponent : Int) : Option Float :=
  let size :=
    if digits = 0 ∨ exponent < -1000000 then 0.0
    else if 1000000 < exponent then 1.0 / 0.0
    else Float.ofScientific digits (exponent < 0) exponent.natAbs
  if size.isFinite then some (if negative then -size else size) else none

/-- A number. -/
def number? (text : List Char) : Option (Json × List Char) := do
  let (negative, text) :=
    match text with
    | '-' :: rest => (true, rest)
    | rest => (false, rest)
  let whole :=
    match text with
    | '0' :: _ => ['0']
    | _ => text.takeWhile Char.isDigit
  if whole.isEmpty then none
  let (places, text) ← fraction? (text.drop whole.length)
  let (exponent, text) ← exponent? text
  let n : Int := natOfDigits whole
  match places, exponent with
  | none, none =>
    if negative then
      if n ≠ 0 ∧ n ≤ 0x8000000000000000 then pure (.int (-n), text)
      else pure (.float (← floatOf? true n.toNat 0), text)
    else if n < 0x10000000000000000 then pure (.int n, text)
    else pure (.float (← floatOf? false n.toNat 0), text)
  | _, _ =>
    let after := places.getD []
    let x ← floatOf? negative (natOfDigits (whole ++ after)) (exponent.getD 0 - after.length)
    pure (.float x, text)

/-- Sets a field, over an earlier one of the same name. -/
def setField (key : String) (value : Json) : List (String × Json) → List (String × Json)
  | [] => [(key, value)]
  | (other, old) :: rest =>
    if other = key then (key, value) :: rest else (other, old) :: setField key value rest

mutual

/-- A value. -/
def value? : Nat → List Char → Option (Json × List Char)
  | 0, _ => none
  | bound + 1, text =>
    match skipBlanks text with
    | 'n' :: 'u' :: 'l' :: 'l' :: rest => some (.null, rest)
    | 't' :: 'r' :: 'u' :: 'e' :: rest => some (.bool true, rest)
    | 'f' :: 'a' :: 'l' :: 's' :: 'e' :: rest => some (.bool false, rest)
    | '"' :: rest => (string? [] bound rest).map fun read => (.str read.1, read.2)
    | '[' :: rest =>
      match skipBlanks rest with
      | ']' :: rest => some (.arr [], rest)
      | rest => (items? bound rest).map fun read => (.arr read.1, read.2)
    | '\x7b' :: rest =>
      match skipBlanks rest with
      | '\x7d' :: rest => some (.obj [], rest)
      | rest => (fields? bound [] rest).map fun read => (.obj read.1, read.2)
    | text => number? text

/-- The items of an array up to its end; there is at least one. -/
def items? : Nat → List Char → Option (List Json × List Char)
  | 0, _ => none
  | bound + 1, text =>
    match value? bound text with
    | none => none
    | some (item, rest) =>
      match skipBlanks rest with
      | ',' :: rest => (items? bound rest).map fun read => (item :: read.1, read.2)
      | ']' :: rest => some ([item], rest)
      | _ => none

/-- The fields of an object up to its end, added to those `read` before; there is at least one. -/
def fields? : Nat → List (String × Json) → List Char → Option (List (String × Json) × List Char)
  | 0, _, _ => none
  | bound + 1, read, text =>
    match skipBlanks text with
    | '"' :: rest =>
      match string? [] bound rest with
      | none => none
      | some (key, rest) =>
        match skipBlanks rest with
        | ':' :: rest =>
          match value? bound rest with
          | none => none
          | some (value, rest) =>
            match skipBlanks rest with
            | ',' :: rest => fields? bound (setField key value read) rest
            | '\x7d' :: rest => some (setField key value read, rest)
            | _ => none
        | _ => none
    | _ => none

end

end Reader

/-- Reads a text that is one JSON value. -/
def parse? (text : String) : Option Json :=
  let characters := text.toList
  match Reader.value? (2 * characters.length + 2) characters with
  | some (value, rest) => if (Reader.skipBlanks rest).isEmpty then some value else none
  | none => none

end Json
end PlantGrowth
