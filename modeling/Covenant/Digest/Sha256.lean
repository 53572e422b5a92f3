import Covenant.Text.Hex

/-!
# SHA-256

The hash function on lists of bytes: the message is padded to whole blocks of sixteen words, and
each block, expanded to sixty-four words, is mixed into a state of eight words.
-/

set_option autoImplicit false

namespace Covenant.Sha256

/-- The state between blocks. -/
structure State where
  a : UInt32
  b : UInt32
  c : UInt32
  d : UInt32
  e : UInt32
  f : UInt32
  g : UInt32
  h : UInt32

/-- The state before the first block: fractional parts of the square roots of the first eight
primes. -/
def initial : State :=
  ⟨0x6a09e667, 0xbb67ae85, 0x3c6ef372, 0xa54ff53a, 0x510e527f, 0x9b05688c, 0x1f83d9ab, 0x5be0cd19⟩

/-- One constant per round: fractional parts of the cube roots of the first sixty-four primes.
-/
def roundConstants : List UInt32 := [
  0x428a2f98, 0x71374491, 0xb5c0fbcf, 0xe9b5dba5, 0x3956c25b, 0x59f111f1, 0x923f82a4, 0xab1c5ed5,
  0xd807aa98, 0x12835b01, 0x243185be, 0x550c7dc3, 0x72be5d74, 0x80deb1fe, 0x9bdc06a7, 0xc19bf174,
  0xe49b69c1, 0xefbe4786, 0x0fc19dc6, 0x240ca1cc, 0x2de92c6f, 0x4a7484aa, 0x5cb0a9dc, 0x76f988da,
  0x983e5152, 0xa831c66d, 0xb00327c8, 0xbf597fc7, 0xc6e00bf3, 0xd5a79147, 0x06ca6351, 0x14292967,
  0x27b70a85, 0x2e1b2138, 0x4d2c6dfc, 0x53380d13, 0x650a7354, 0x766a0abb, 0x81c2c92e, 0x92722c85,
  0xa2bfe8a1, 0xa81a664b, 0xc24b8b70, 0xc76c51a3, 0xd192e819, 0xd6990624, 0xf40e3585, 0x106aa070,
  0x19a4c116, 0x1e376c08, 0x2748774c, 0x34b0bcb5, 0x391c0cb3, 0x4ed8aa4a, 0x5b9cca4f, 0x682e6ff3,
  0x748f82ee, 0x78a5636f, 0x84c87814, 0x8cc70208, 0x90befffa, 0xa4506ceb, 0xbef9a3f7, 0xc67178f2]

/-- Rotation to the right. -/
def rotate (word : UInt32) (count : UInt32) : UInt32 :=
  (word >>> count) ||| (word <<< (32 - count))

/-- Mixes a word of the schedule, fifteen places back. -/
def sigma0 (x : UInt32) : UInt32 := rotate x 7 ^^^ rotate x 18 ^^^ (x >>> 3)

/-- Mixes a word of the schedule, two places back. -/
def sigma1 (x : UInt32) : UInt32 := rotate x 17 ^^^ rotate x 19 ^^^ (x >>> 10)

/-- Mixes the first word of the state. -/
def bigSigma0 (x : UInt32) : UInt32 := rotate x 2 ^^^ rotate x 13 ^^^ rotate x 22

/-- Mixes the fifth word of the state. -/
def bigSigma1 (x : UInt32) : UInt32 := rotate x 6 ^^^ rotate x 11 ^^^ rotate x 25

/-- Takes each bit from `y` or `z`, as the bit of `x` says. -/
def choose (x y z : UInt32) : UInt32 := (x &&& y) ^^^ (~~~x &&& z)

/-- Takes each bit that two of the three words agree on. -/
def majority (x y z : UInt32) : UInt32 := (x &&& y) ^^^ (x &&& z) ^^^ (y &&& z)

/-! ## Padding -/

/-- A number as `count` bytes, most significant first. -/
def bigEndian : (count : Nat) → (value : Nat) → List UInt8
  | 0, _ => []
  | count + 1, value => bigEndian count (value / 256) ++ [UInt8.ofNat value]

/-- The number of zero bytes that completes the last block. -/
def zeroCount (length : Nat) : Nat :=
  (55 + 64 - length % 64) % 64

/-- The message, a one bit, zeros, and the length of the message in bits. -/
def pad (message : List UInt8) : List UInt8 :=
  message ++ 0x80 :: List.replicate (zeroCount message.length) 0
    ++ bigEndian 8 (8 * message.length)

/-- Bytes by fours, as words. -/
def words : List UInt8 → List UInt32
  | a :: b :: c :: d :: rest =>
      ((a.toUInt32 <<< 24) ||| (b.toUInt32 <<< 16) ||| (c.toUInt32 <<< 8) ||| d.toUInt32)
        :: words rest
  | _ => []

/-! ## Blocks -/

/-- The words of a block and those that follow from them, `count` in all, last first. -/
def scheduleFrom (reversed : List UInt32) : (count : Nat) → List UInt32
  | 0 => reversed
  | count + 1 =>
      let back := fun distance => reversed.getD (distance - 1) 0
      scheduleFrom ((sigma1 (back 2) + back 7 + sigma0 (back 15) + back 16) :: reversed) count

/-- The sixty-four words that a block of sixteen expands to. -/
def schedule (block : List UInt32) : List UInt32 :=
  (scheduleFrom block.reverse 48).reverse

/-- One round. -/
def round (state : State) (constant word : UInt32) : State :=
  let first :=
    state.h + bigSigma1 state.e + choose state.e state.f state.g + constant + word
  let second := bigSigma0 state.a + majority state.a state.b state.c
  { a := first + second, b := state.a, c := state.b, d := state.c
    e := state.d + first, f := state.e, g := state.f, h := state.g }

/-- Mixes a block into the state. -/
def compress (state : State) (block : List UInt32) : State :=
  let mixed :=
    (roundConstants.zip (schedule block)).foldl (fun s pair => round s pair.1 pair.2) state
  { a := state.a + mixed.a, b := state.b + mixed.b, c := state.c + mixed.c
    d := state.d + mixed.d, e := state.e + mixed.e, f := state.f + mixed.f
    g := state.g + mixed.g, h := state.h + mixed.h }

/-- Mixes `count` blocks of sixteen words into the state. -/
def compressAll : (count : Nat) → State → List UInt32 → State
  | 0, state, _ => state
  | count + 1, state, message =>
      compressAll count (compress state (message.take 16)) (message.drop 16)

/-- The state after the whole message. -/
def hash (message : List UInt8) : State :=
  let message := words (pad message)
  compressAll (message.length / 16) initial message

/-- The state as hexadecimal text. -/
def State.hex (state : State) : String :=
  String.ofList <|
    [state.a, state.b, state.c, state.d, state.e, state.f, state.g, state.h].flatMap fun word =>
      Text.hex 8 word.toNat

/-- The digest of a text in UTF-8, as hexadecimal text. -/
def digest (text : String) : String :=
  (hash text.toUTF8.toList).hex

end Covenant.Sha256
