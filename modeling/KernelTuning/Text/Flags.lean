/-!
# Flags

Descriptions of problems list named values as a command line does: every name
follows a blank and a dash, and its value follows a blank.
-/

namespace KernelTuning.Text

/-- The flags of a list, each with a blank before it. -/
def writeFlags (flags : List (String × String)) : List Char :=
  flags.flatMap fun (name, value) =>
    ' ' :: '-' :: name.toList ++ ' ' :: value.toList

@[simp] theorem writeFlags_nil : writeFlags [] = [] := rfl

end KernelTuning.Text
