import KernelTuning.Host.Buffer
import KernelTuning.Space.Basic
import KernelTuning.Table.Basic

/-!
# The host interface

What a host compiler does with tuning spaces, tables and problems.  Failures are
answered by truth values and absent results; only an arithmetic fault is more than
an answer.
-/

namespace KernelTuning.Host

/-- The tuning space of a problem, absent when the problem cannot be tuned. -/
def space? (problem : Problem) (level : Level) : Option Space :=
  (Space.build problem level).toOption

/-- Puts the configuration at a place of a space into a slot, and tells whether
there is one.  Otherwise the slot keeps what it holds. -/
def fillSlot (space : Space) (index : Nat) (slot : Slot) : Bool × Slot :=
  match space.get? index with
  | some config => (true, some config)
  | none => (false, slot)

/-- The problem that an attempt leads to: the configured one, or the old one. -/
def settle {ε : Type} (problem : Problem) (attempt : ExceptT ε Checked Problem) :
    Checked (Bool × Problem) := do
  match ← attempt.run with
  | .ok configured => return (true, configured)
  | .error _ => return (false, problem)

/-- Applies the configuration of a slot. -/
def setFromSlot (problem : Problem) (slot : Slot) : Checked (Bool × Problem) :=
  match slot with
  | none => .ok (false, problem)
  | some config => settle problem (problem.apply config)

/-- Applies the configuration of a text. -/
def setFromText (problem : Problem) (text : String) : Checked (Bool × Problem) :=
  settle problem (problem.applyText text)

/-- Applies the configuration recorded for a problem. -/
def setFromTable (problem : Problem) (table : Table) : Checked (Bool × Problem) :=
  table.applyBest problem

/-- Copies as many numbers and values of a list as fit both of the caller's arrays,
and tells how many those are. -/
def copyPairs
    (pairs : List (UInt64 × InitialValue)) (numbers : List UInt64)
    (values : List InitialValue) : Nat × List UInt64 × List InitialValue :=
  let count := min pairs.length (min numbers.length values.length)
  let copied := pairs.take count
  (count, copied.map Prod.fst ++ numbers.drop count,
    copied.map Prod.snd ++ values.drop count)

/-- Copies the arguments to fill and their values. -/
def copyPrefill (problem : Problem) :
    List UInt64 → List InitialValue → Nat × List UInt64 × List InitialValue :=
  copyPairs (problem.prefill.map fun prefill => (prefill.argument, prefill.value))

/-- Copies the sizes and values of the auxiliary buffers. -/
def copyAuxiliaryBuffers (problem : Problem) :
    List UInt64 → List InitialValue → Nat × List UInt64 × List InitialValue :=
  copyPairs (problem.auxiliaryBuffers.map fun buffer => (buffer.bytes, buffer.value))

end KernelTuning.Host
