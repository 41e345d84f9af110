/-!
# SipHash

The keyed 64-bit hash with one compression round for each word, three rounds at
the end and the zero key.  It spreads configuration texts over the seeds of the
noise generator, so that each configuration has a noise of its own.
-/

namespace KernelTuning.Noise

/-- The internal state of the hash. -/
structure SipState where
  v0 : UInt64
  v1 : UInt64
  v2 : UInt64
  v3 : UInt64

namespace SipState

/-- The state of the zero key. -/
def initial : SipState :=
  { v0 := 0x736f6d6570736575
    v1 := 0x646f72616e646f6d
    v2 := 0x6c7967656e657261
    v3 := 0x7465646279746573 }

/-- A word rotated to the left by less than 64 places. -/
def rotate (word : UInt64) (places : UInt64) : UInt64 :=
  (word <<< places) ||| (word >>> (64 - places))

/-- One mixing round. -/
def round (state : SipState) : SipState :=
  let v0 := state.v0 + state.v1
  let v1 := rotate state.v1 13 ^^^ v0
  let v0 := rotate v0 32
  let v2 := state.v2 + state.v3
  let v3 := rotate state.v3 16 ^^^ v2
  let v0 := v0 + v3
  let v3 := rotate v3 21 ^^^ v0
  let v2 := v2 + v1
  let v1 := rotate v1 17 ^^^ v2
  let v2 := rotate v2 32
  { v0, v1, v2, v3 }

/-- Takes in one word. -/
def absorb (state : SipState) (word : UInt64) : SipState :=
  let mixed := round { state with v3 := state.v3 ^^^ word }
  { mixed with v0 := mixed.v0 ^^^ word }

/-- The hash after the last word. -/
def finish (state : SipState) : UInt64 :=
  let last := round (round (round { state with v2 := state.v2 ^^^ 0xff }))
  last.v0 ^^^ last.v1 ^^^ last.v2 ^^^ last.v3

end SipState

/-- The word whose least significant byte comes first. -/
def littleEndian (bytes : List UInt8) : UInt64 :=
  bytes.foldr (fun byte word => (word <<< 8) ||| byte.toUInt64) 0

/-- The words of a message of `length` bytes.  The last word ends in the length's
lowest byte. -/
def messageWords (length : Nat) : List UInt8 → List UInt64
  | b0 :: b1 :: b2 :: b3 :: b4 :: b5 :: b6 :: b7 :: rest =>
      littleEndian [b0, b1, b2, b3, b4, b5, b6, b7] :: messageWords length rest
  | rest => [littleEndian rest ||| ((UInt64.ofNat (length % 256)) <<< 56)]

/-- The hash of a message. -/
def sipHash (message : List UInt8) : UInt64 :=
  ((messageWords message.length message).foldl SipState.absorb .initial).finish

/-- The hash of a text: of its UTF-8 bytes and a byte that occurs in none. -/
def hashText (text : String) : UInt64 :=
  sipHash (text.toUTF8.data.toList ++ [0xff])

end KernelTuning.Noise
