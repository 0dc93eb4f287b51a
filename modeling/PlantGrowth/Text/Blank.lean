/-!
# Blank characters

The characters that separate words without being seen: the ASCII ones, the no-break and
ideographic spaces, the typographic spaces of general punctuation and the two separators. Rule
texts are trimmed of them, and replacements are stripped of them.
-/

namespace PlantGrowth

/-- Is the character white space, in the sense of the Unicode property of that name? -/
def isBlank (c : Char) : Bool :=
  (9 ≤ c.toNat && c.toNat ≤ 13) || c.toNat == 0x20 || c.toNat == 0x85 || c.toNat == 0xa0 ||
    c.toNat == 0x1680 || (0x2000 ≤ c.toNat && c.toNat ≤ 0x200a) || c.toNat == 0x2028 ||
    c.toNat == 0x2029 || c.toNat == 0x202f || c.toNat == 0x205f || c.toNat == 0x3000

/-- The text without the blanks at its two ends. -/
def trimBlanks (text : List Char) : List Char :=
  ((text.dropWhile isBlank).reverse.dropWhile isBlank).reverse

end PlantGrowth
