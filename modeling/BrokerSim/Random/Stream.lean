/-
A stream of random words: the ChaCha stream cipher with twelve rounds, run under a key drawn from a seed. Sixteen
32-bit words make a block; block `n` depends on the key and on `n` alone, so the stream is a key and a place in it.
-/

namespace BrokerSim.Random

/-- the working state of the cipher -/
abbrev Block := Vector UInt32 16

/-- a word turned left by a number of bits below 32 -/
def rotateLeft (x : UInt32) (n : UInt32) : UInt32 := (x <<< n) ||| (x >>> (32 - n))

/-- one quarter round on four places of a block -/
def quarterRound (a b c d : Fin 16) (s : Block) : Block :=
  let s := s.set a (s[a] + s[b])
  let s := s.set d (rotateLeft (s[d] ^^^ s[a]) 16)
  let s := s.set c (s[c] + s[d])
  let s := s.set b (rotateLeft (s[b] ^^^ s[c]) 12)
  let s := s.set a (s[a] + s[b])
  let s := s.set d (rotateLeft (s[d] ^^^ s[a]) 8)
  let s := s.set c (s[c] + s[d])
  s.set b (rotateLeft (s[b] ^^^ s[c]) 7)

/-- a round down the columns and one along the diagonals -/
def doubleRound (s : Block) : Block :=
  let s := quarterRound 0 4 8 12 s
  let s := quarterRound 1 5 9 13 s
  let s := quarterRound 2 6 10 14 s
  let s := quarterRound 3 7 11 15 s
  let s := quarterRound 0 5 10 15 s
  let s := quarterRound 1 6 11 12 s
  let s := quarterRound 2 7 8 13 s
  quarterRound 3 4 9 14 s

/-- eight words that choose the stream -/
abbrev Key := Vector UInt32 8

/-- the block that goes into the rounds: four fixed words, the key, the number of the block, and zeros -/
def inputBlock (key : Key) (n : UInt64) : Block :=
  #v[0x61707865, 0x3320646e, 0x79622d32, 0x6b206574,
    key[0], key[1], key[2], key[3], key[4], key[5], key[6], key[7],
    n.toUInt32, (n >>> 32).toUInt32, 0, 0]

/-- block `n` of the stream: six double rounds, and the input added word by word -/
def block (key : Key) (n : UInt64) : Block :=
  let input := inputBlock key n
  Vector.zipWith (· + ·) (Nat.repeat doubleRound 6 input) input

/-- the step of the generator that stretches a seed -/
def stretch (s : UInt64) : UInt64 := s * 6364136223846793005 + 11634580027462260723

/-- a 32-bit word of a stretched seed: its high bits, turned by as much as the highest five say -/
def stretchedWord (s : UInt64) : UInt32 :=
  let x := (((s >>> 18) ^^^ s) >>> 27).toUInt32
  let turn := (s >>> 59).toUInt32
  if turn = 0 then x else (x >>> turn) ||| (x <<< (32 - turn))

/-- the key of a seed: eight stretched words -/
def Key.ofSeed (seed : UInt64) : Key :=
  let s1 := stretch seed
  let s2 := stretch s1
  let s3 := stretch s2
  let s4 := stretch s3
  let s5 := stretch s4
  let s6 := stretch s5
  let s7 := stretch s6
  let s8 := stretch s7
  #v[stretchedWord s1, stretchedWord s2, stretchedWord s3, stretchedWord s4,
    stretchedWord s5, stretchedWord s6, stretchedWord s7, stretchedWord s8]

/-- a stream, and how many pairs of words have been drawn from it -/
structure Stream where
  key : Key
  drawn : Nat := 0
  deriving DecidableEq

namespace Stream

/-- the stream of a seed, from its beginning -/
def ofSeed (seed : UInt64) : Stream := { key := .ofSeed seed }

/-- pair `n` of the words of a stream, the low word first -/
def pair (key : Key) (n : Nat) : UInt64 :=
  let b := block key (n / 8).toUInt64
  let low := b[2 * (n % 8)]
  let high := b[2 * (n % 8) + 1]
  (high.toUInt64 <<< 32) ||| low.toUInt64

/-- draw the next 64 bits -/
def next (s : Stream) : UInt64 × Stream := (pair s.key s.drawn, { s with drawn := s.drawn + 1 })

/-- `2 ^ 64` as a float -/
def wordCount : Float := 18446744073709551616

/-- true with probability `p`; a certainty draws nothing -/
def chance (p : Float) (s : Stream) : Bool × Stream :=
  if p == 1 then (true, s)
  else
    let (w, s) := s.next
    (w < (p * wordCount).toUInt64, s)

end Stream

end BrokerSim.Random
