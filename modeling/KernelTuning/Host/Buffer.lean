import KernelTuning.Config.Text
import KernelTuning.Signature

/-!
# Caller buffers

Texts are handed out in buffers that the caller provides.  A text longer than its
buffer is cut off, a shorter one is followed by zero bytes, and the number of bytes
that the whole text needs is returned in every case, so that a caller may ask with
an empty buffer first.
-/

namespace KernelTuning.Host

/-- The bytes of a caller's buffer. -/
abbrev Buffer := List UInt8

/-- The bytes of a text. -/
def textBytes (text : String) : List UInt8 :=
  text.toUTF8.data.toList

/-- The size of a buffer that holds the text of every configuration. -/
def configBufferSize : Nat := 256

/-- Copies a text into a buffer, and tells how many bytes the text needs. -/
def copy (text : String) (buffer : Buffer) : Nat × Buffer :=
  let bytes := textBytes text
  (bytes.length,
    bytes.take buffer.length ++ List.replicate (buffer.length - bytes.length) 0)

/-- Copies the text of a configuration. -/
def copyConfig (config : Config) (buffer : Buffer) : Nat × Buffer :=
  copy config.encode buffer

/-- A slot that one configuration of a tuning space is put into. -/
abbrev Slot := Option Config

/-- Copies the text of a slot's configuration; an empty slot has the empty text. -/
def copySlot (slot : Slot) (buffer : Buffer) : Nat × Buffer :=
  match slot with
  | none => copy "" buffer
  | some config => copyConfig config buffer

/-- The size that is returned for a problem without a signature. -/
def keyNotFound : Nat := Word.max64

/-- Copies the signature of a problem; without one the buffer is left alone. -/
def copyKey (problem : Problem) (buffer : Buffer) : Nat × Buffer :=
  match problem.signature with
  | .ok signature => copy signature buffer
  | .error _ => (keyNotFound, buffer)

end KernelTuning.Host
