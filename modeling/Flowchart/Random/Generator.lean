/-! # Random numbers

A generator has a state and draws natural numbers below a limit from it.  Elements take their seeds
from draws below `seedLimit`.

The generator of a seeded run is the Mersenne twister MT19937 (`Twister.generator`): a state of 624
words of 32 bits, seeded from an integer by its words and tempered when a word is drawn.  Numbers
below a limit come from the leading bits of words, words that give too large a number being passed
over. -/

namespace Flowchart

/-- A way of drawing numbers below a limit from a state. -/
structure Generator (σ : Type) where
  draw : Nat → σ → Nat × σ

def seedLimit : Nat := 1000000

namespace Generator

def drawSeed {σ : Type} (g : Generator σ) (state : σ) : Nat × σ := g.draw seedLimit state

/-- The arithmetic progression with a step, each number reduced below the limit. -/
def progression (step : Int) : Generator Int where
  draw limit next := ((next % limit).toNat, next + step)

/-- The numbers of a stream in turn, each reduced below the limit. -/
def ofStream (stream : Nat → Nat) : Generator Nat where
  draw limit index := (stream index % limit, index + 1)

end Generator

namespace Twister

/-- The number of words of a state. -/
def size : Nat := 624

/-- The distance of the words that are combined. -/
def shift : Nat := 397

/-- Words, and the index of the next one to be drawn. -/
structure State where
  words : Array UInt32
  index : Nat

def word (words : Array UInt32) (i : Nat) : UInt32 := words.getD (i % size) 0

/-! ### Seeding -/

/-- A word mixed with the one before it. -/
def stir (previous : UInt32) : UInt32 := previous ^^^ (previous >>> 30)

/-- The words that a single number gives. -/
def ofWord (seed : UInt32) : Array UInt32 :=
  (List.range (size - 1)).foldl
    (fun words i => words.push (1812433253 * stir (words.getD i 0) + (i + 1).toUInt32)) #[seed]

/-- The position after `i`; after the last word the first takes its value and is left out. -/
def advance (words : Array UInt32) (i : Nat) : Array UInt32 × Nat :=
  if i + 1 < size then (words, i + 1) else (words.setIfInBounds 0 (word words (size - 1)), 1)

/-- Mixes the words of a key into the state, round and round. -/
def mixKey (key : Array UInt32) : Nat → Array UInt32 → Nat → Nat → Array UInt32 × Nat
  | 0, words, i, _ => (words, i)
  | steps + 1, words, i, j =>
    let mixed := (word words i ^^^ (stir (word words (i - 1)) * 1664525)) +
      key.getD j 0 + j.toUInt32
    let (words, i) := advance (words.setIfInBounds i mixed) i
    mixKey key steps words i (if j + 1 < key.size then j + 1 else 0)

/-- Mixes the positions into the state. -/
def mixPositions : Nat → Array UInt32 → Nat → Array UInt32
  | 0, words, _ => words
  | steps + 1, words, i =>
    let mixed := (word words i ^^^ (stir (word words (i - 1)) * 1566083941)) - i.toUInt32
    let (words, i) := advance (words.setIfInBounds i mixed) i
    mixPositions steps words i

def wordValues : Nat := 0x100000000

/-- The words of a natural number, the lowest first; zero has one word. -/
def wordsOf (n : Nat) : List UInt32 :=
  if n < wordValues then [n.toUInt32]
  else (n % wordValues).toUInt32 :: wordsOf (n / wordValues)
decreasing_by unfold wordValues at *; omega

/-- The state that an integer seeds; its sign does not count. -/
def seeded (seed : Int) : State :=
  let key := (wordsOf seed.natAbs).toArray
  let (words, i) := mixKey key (max size key.size) (ofWord 19650218) 1 0
  let words := mixPositions (size - 1) words i
  ⟨words.setIfInBounds 0 0x80000000, size⟩

/-! ### Drawing -/

/-- The word that replaces word `i`. -/
def twisted (words : Array UInt32) (i : Nat) : UInt32 :=
  let joined := (word words i &&& 0x80000000) ||| (word words (i + 1) &&& 0x7FFFFFFF)
  word words (i + shift) ^^^ (joined >>> 1) ^^^ (if joined &&& 1 = 0 then 0 else 0x9908B0DF)

/-- Replaces all words, in order. -/
def twist (words : Array UInt32) : Array UInt32 :=
  (List.range size).foldl (fun words i => words.setIfInBounds i (twisted words i)) words

/-- The word that is drawn for a word of the state. -/
def temper (y : UInt32) : UInt32 :=
  let y := y ^^^ (y >>> 11)
  let y := y ^^^ ((y <<< 7) &&& 0x9D2C5680)
  let y := y ^^^ ((y <<< 15) &&& 0xEFC60000)
  y ^^^ (y >>> 18)

/-- Draws a word. -/
def next (s : State) : UInt32 × State :=
  let s := if s.index < size then s else ⟨twist s.words, 0⟩
  (temper (word s.words s.index), { s with index := s.index + 1 })

/-- Draws the leading bits of words until they give a number below the limit.  Half of the words do
at least, so `tries` is a formality. -/
def drawBelow (limit bits : Nat) : Nat → State → Nat × State
  | 0, s => (0, s)
  | tries + 1, s =>
    let (y, s) := next s
    let n := y.toNat >>> (32 - bits)
    if n < limit then (n, s) else drawBelow limit bits tries s

/-- The generator. -/
def generator : Generator State where
  draw limit s := drawBelow limit (limit.log2 + 1) 4096 s

end Twister

end Flowchart
