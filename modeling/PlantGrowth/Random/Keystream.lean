/-!
# A keystream of random words

Random numbers are the words of a stream cipher with twelve rounds and a fixed nonce of zero. A
block of sixteen words is a pure function of the key and of its number, so the whole stream is one
too, and a generator has no state but how far it has read.
-/

namespace PlantGrowth
namespace Keystream

/-- Turns the bits of a word to the left. -/
def rotateLeft (word places : UInt32) : UInt32 :=
  (word <<< places) ||| (word >>> (32 - places))

/-- A quarter of a round, on the words at four positions. -/
def quarterRound (words : Array UInt32) (a b c d : Nat) : Array UInt32 :=
  let wa := words.getD a 0
  let wb := words.getD b 0
  let wc := words.getD c 0
  let wd := words.getD d 0
  let wa := wa + wb
  let wd := rotateLeft (wd ^^^ wa) 16
  let wc := wc + wd
  let wb := rotateLeft (wb ^^^ wc) 12
  let wa := wa + wb
  let wd := rotateLeft (wd ^^^ wa) 8
  let wc := wc + wd
  let wb := rotateLeft (wb ^^^ wc) 7
  (((words.setIfInBounds a wa).setIfInBounds b wb).setIfInBounds c wc).setIfInBounds d wd

/-- Two rounds: one on the columns, one on the diagonals. -/
def doubleRound (words : Array UInt32) : Array UInt32 :=
  let words := quarterRound words 0 4 8 12
  let words := quarterRound words 1 5 9 13
  let words := quarterRound words 2 6 10 14
  let words := quarterRound words 3 7 11 15
  let words := quarterRound words 0 5 10 15
  let words := quarterRound words 1 6 11 12
  let words := quarterRound words 2 7 8 13
  quarterRound words 3 4 9 14

/-- The words from which a block is mixed: four constants, eight words of key, the number of the
block in two words, and two zeros. -/
def start (key : List UInt32) (block : Nat) : Array UInt32 :=
  (([0x61707865, 0x3320646e, 0x79622d32, 0x6b206574] ++ key) ++
    [UInt32.ofNat block, UInt32.ofNat (block / 0x100000000), 0, 0]).toArray

/-- A block of sixteen words. -/
def block (key : List UInt32) (number : Nat) : Array UInt32 :=
  let words := start key number
  let mixed := Nat.repeat doubleRound 6 words
  mixed.zipWith (· + ·) words

/-- The double word at a place in the stream: two words in a row, the low one first. -/
def word64 (key : List UInt32) (place : Nat) : UInt64 :=
  let words := block key (place / 8)
  let low := words.getD (2 * (place % 8)) 0
  let high := words.getD (2 * (place % 8) + 1) 0
  low.toUInt64 ||| (high.toUInt64 <<< 32)

/-- One step of the congruential generator that stretches a seed to a key. -/
def stretch (state : UInt64) : UInt64 := state * 6364136223846793005 + 11634580027462260723

/-- The word of key in a state of that generator. -/
def keyWord (state : UInt64) : UInt32 :=
  let mixed := (((state >>> 18) ^^^ state) >>> 27).toUInt32
  let turn := (state >>> 59).toUInt32
  (mixed >>> turn) ||| (mixed <<< ((32 - turn) % 32))

/-- A number of words of key, stretched from a seed. -/
def keyWords : Nat → UInt64 → List UInt32
  | 0, _ => []
  | n + 1, state => keyWord (stretch state) :: keyWords n (stretch state)

/-- The key of a seed. -/
def key (seed : UInt64) : List UInt32 := keyWords 8 seed

end Keystream
end PlantGrowth
