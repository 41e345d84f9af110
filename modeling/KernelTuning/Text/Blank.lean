/-!
# Blank characters

The characters of the Unicode property `White_Space`.  Core's own test knows only
the blank, the tab, the line feed and the carriage return.
-/

namespace KernelTuning.Text

/-- Whether a character has the property `White_Space`. -/
def isBlank (char : Char) : Bool :=
  let code := char.toNat
  (0x09 ≤ code && code ≤ 0x0D) || code == 0x20 || code == 0x85 || code == 0xA0
    || code == 0x1680 || (0x2000 ≤ code && code ≤ 0x200A)
    || code == 0x2028 || code == 0x2029 || code == 0x202F || code == 0x205F
    || code == 0x3000

/-- A text without the blanks at its two ends. -/
def trim (chars : List Char) : List Char :=
  ((chars.dropWhile isBlank).reverse.dropWhile isBlank).reverse

end KernelTuning.Text
