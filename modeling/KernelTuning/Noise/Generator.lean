/-!
# A pseudorandom generator

A generator steps its state by a constant and mixes it with a 128-bit product.
-/

namespace KernelTuning.Noise

/-- The state of a generator. -/
structure Generator where
  state : UInt64

namespace Generator

/-- The next word and the generator behind it. -/
def next (generator : Generator) : UInt64 × Generator :=
  let state := generator.state + 0x2d358dccaa6c78a5
  let product := state.toNat * (state ^^^ 0x8bb84b93962eacc9).toNat
  (UInt64.ofNat (product % UInt64.size) ^^^ UInt64.ofNat (product / UInt64.size), ⟨state⟩)

/-- A number from zero up to but not including one.  A word that rounds up to one
is drawn again, at most `attempts` times. -/
def fraction (attempts : Nat) (generator : Generator) : Float :=
  let (word, generator) := generator.next
  let value := (word >>> 1).toFloat * Float.ofBits 0x3c00000000000000
  match attempts with
  | 0 => 0.0
  | attempts + 1 => if value == 1.0 then generator.fraction attempts else value

end Generator

end KernelTuning.Noise
