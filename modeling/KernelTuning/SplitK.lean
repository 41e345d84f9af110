import KernelTuning.Level
import KernelTuning.Problem.Basic

/-!
# Splitting the reduction

A reduction can be split into parts that run side by side and are added up in the
result.  That pays when the output tiles alone leave the device idle and the
reduction is long.  The advisor answers from the shape; the factors offered for a
problem also depend on whether parts can be added up at all.
-/

namespace KernelTuning.SplitK

/-- How likely splitting the reduction is to pay. -/
inductive Likelihood where
  | never
  | possible
  | likely
  deriving DecidableEq, Inhabited, Repr

namespace Likelihood

def name : Likelihood → String
  | .never => "never"
  | .possible => "possible"
  | .likely => "likely"

end Likelihood

/-- Side of the output tile that occupancy is estimated with. -/
def estimatedTile : Nat := 64

/-- Reductions shorter than this are never worth splitting. -/
def shortestReduction : Int := 1024

/-- The largest 64-bit integer, at which tile counts stick. -/
def largest : Nat := 0x7FFFFFFFFFFFFFFF

/-- Tiles along an axis of positive extent. -/
def tiles (extent : Int) : Nat :=
  (extent.toNat + (estimatedTile - 1)) / estimatedTile

/-- A product that sticks at the largest 64-bit integer. -/
def saturatingProduct (left right : Nat) : Nat :=
  min (left * right) largest

/-- Output tiles of all products together. -/
def tileCount (g m n : Int) : Nat :=
  saturatingProduct (saturatingProduct g.toNat (tiles m)) (tiles n)

/-- The advice for a shape and a number of compute units.  Occupancy and aspect
are quotients of double-precision numbers. -/
def ofShape (g m n k computeUnits : Int) : Likelihood :=
  if g ≤ 0 ∨ m ≤ 0 ∨ n ≤ 0 ∨ k ≤ 0 ∨ computeUnits ≤ 0 then .never
  else
    let occupancy :=
      (Binary64.ofInt (tileCount g m n)).quotient (Binary64.ofInt computeUnits)
    let aspect := (Binary64.ofInt k).quotient (Binary64.ofInt (max m n))
    if ¬ occupancy < .ofInt 1 ∨ k < shortestReduction ∨ aspect < .ofInt 1 then .never
    else if ¬ aspect < .ofInt 4 ∧ occupancy < .ofRatio false 1 2 then .likely
    else .possible

/-- The advice at a level; quick tuning never splits. -/
def predict (g m n k computeUnits : Int64) (level : Level) : Likelihood :=
  if level = .quick then .never
  else ofShape g.toInt m.toInt n.toInt k.toInt computeUnits.toInt

/-- The factors offered where splitting may pay. -/
def offered : List UInt32 := [1, 2, 4, 8]

/-- A dimension as a signed integer, sticking at the largest one. -/
def clamp (dimension : UInt64) : Int64 :=
  Int64.ofNat (min dimension.toNat largest)

/-- The split factors that the tuning space of a problem contains. -/
def factors (problem : Problem) (level : Level) : List UInt32 :=
  let shape := problem.shape
  if problem.target.supportsAtomicAdd problem.outType = false then [1]
  else if problem.epilogueDistributes = false then [1]
  else
    match predict (clamp shape.g) (clamp shape.m) (clamp shape.n) (clamp shape.k)
        (Int64.ofNat problem.target.computeUnits.toNat) level with
    | .never => [1]
    | .possible | .likely => offered

end KernelTuning.SplitK
