/-!
# Tuning levels

A level says how widely the tuning space is searched.
-/

namespace KernelTuning

/-- Breadth of the search. -/
inductive Level where
  /-- A small curated list, which never splits the reduction. -/
  | quick
  /-- A broad grid over tile shapes, K tiling and split factors. -/
  | full
  /-- The broad grid with wider tiles and the low-level knobs. -/
  | exhaustive
  deriving DecidableEq, Inhabited, Repr

namespace Level

def name : Level → String
  | .quick => "quick"
  | .full => "full"
  | .exhaustive => "exhaustive"

/-- Every level. -/
def all : List Level := [.quick, .full, .exhaustive]

/-- A name of no level, in small letters. -/
structure Unknown where
  name : String
  deriving DecidableEq

namespace Unknown

def message (unknown : Unknown) : String :=
  "unknown tuning level '" ++ unknown.name ++ "'"

end Unknown

/-- The level with a given name, in letters of either case. -/
def ofName (text : String) : Except Unknown Level :=
  match text.toLower with
  | "quick" => .ok .quick
  | "full" => .ok .full
  | "exhaustive" => .ok .exhaustive
  | name => .error ⟨name⟩

end Level

end KernelTuning
