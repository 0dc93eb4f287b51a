import PlantGrowth.Text.Unprintable

/-!
# Quoted text

Messages show texts and symbols between quotes. Inside, a backslash and the quote in use are
escaped, the four controls with a name of their own are written by it, and every other unprintable
character is written by its code point in hexadecimal.
-/

namespace PlantGrowth
namespace Quoted

/-- Lower-case hexadecimal digits of a number, without leading zeros. -/
def hex (n : Nat) : List Char := Nat.toDigits 16 n

/-- One character between two `mark`s. -/
def encodeChar (mark c : Char) : List Char :=
  if c = '\t' then ['\\', 't']
  else if c = '\n' then ['\\', 'n']
  else if c = '\r' then ['\\', 'r']
  else if c = '\x00' then ['\\', '0']
  else if c = '\\' then ['\\', '\\']
  else if c = mark then ['\\', mark]
  else if Unprintable.contains c then ['\\', 'u', '\x7b'] ++ hex c.toNat ++ ['\x7d']
  else [c]

end Quoted

/-- The text between double quotes. -/
def quoted (text : String) : String :=
  String.ofList ('"' :: text.toList.flatMap (Quoted.encodeChar '"') ++ ['"'])

/-- The symbol between single quotes. -/
def quotedSymbol (symbol : Char) : String :=
  String.ofList ('\'' :: Quoted.encodeChar '\'' symbol ++ ['\''])

end PlantGrowth
