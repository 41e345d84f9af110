/-!
# String literals

A string literal stands between quotation marks.  The quotation mark, the
backslash and the characters below `U+0020` are escaped when written; on reading,
any character may also stand as four hexadecimal digits of a UTF-16 unit, two such
units forming one character beyond `U+FFFF`.
-/

namespace KernelTuning.Json.Quoted

/-- A hexadecimal digit, small letters from ten on. -/
def hexDigit (value : Nat) : Char :=
  Nat.digitChar value

/-- The value of a hexadecimal digit in either case. -/
def hexValue? (digit : Char) : Option Nat :=
  if '0' ≤ digit ∧ digit ≤ '9' then some (digit.toNat - '0'.toNat)
  else if 'a' ≤ digit ∧ digit ≤ 'f' then some (digit.toNat - 'a'.toNat + 10)
  else if 'A' ≤ digit ∧ digit ≤ 'F' then some (digit.toNat - 'A'.toNat + 10)
  else none

/-- The escaped form of one character; most characters stand for themselves. -/
def escape (char : Char) : List Char :=
  match char with
  | '"' => ['\\', '"']
  | '\\' => ['\\', '\\']
  | '\x08' => ['\\', 'b']
  | '\t' => ['\\', 't']
  | '\n' => ['\\', 'n']
  | '\x0c' => ['\\', 'f']
  | '\r' => ['\\', 'r']
  | char =>
      if char.toNat < 0x20 then
        ['\\', 'u', '0', '0', hexDigit (char.toNat / 16), hexDigit (char.toNat % 16)]
      else [char]

/-- The literal of a text, with its quotation marks. -/
def write (text : List Char) : List Char :=
  '"' :: text.flatMap escape ++ ['"']

/-- The character that a one-letter escape stands for. -/
def unescape? : Char → Option Char
  | '"' => some '"'
  | '\\' => some '\\'
  | '/' => some '/'
  | 'b' => some '\x08'
  | 'f' => some '\x0c'
  | 'n' => some '\n'
  | 'r' => some '\r'
  | 't' => some '\t'
  | _ => none

/-- What a literal is made of: characters and halves of surrogate pairs. -/
inductive Piece where
  | char (char : Char)
  | surrogate (unit : Nat)
  deriving DecidableEq

/-- The piece that a UTF-16 unit stands for. -/
def Piece.ofUnit (unit : Nat) : Piece :=
  if 0xD800 ≤ unit ∧ unit < 0xE000 then .surrogate unit else .char (Char.ofNat unit)

/-- The UTF-16 unit written with four hexadecimal digits. -/
def unit? (first second third fourth : Char) : Option Nat := do
  let first ← hexValue? first
  let second ← hexValue? second
  let third ← hexValue? third
  let fourth ← hexValue? fourth
  some (((first * 16 + second) * 16 + third) * 16 + fourth)

/-- The pieces of a literal whose opening quotation mark has been read, and what
follows the closing one. -/
def pieces? : List Char → Option (List Piece × List Char)
  | [] => none
  | '"' :: rest => some ([], rest)
  | '\\' :: 'u' :: first :: second :: third :: fourth :: rest => do
      let unit ← unit? first second third fourth
      let (pieces, rest) ← pieces? rest
      some (.ofUnit unit :: pieces, rest)
  | '\\' :: letter :: rest => do
      let char ← unescape? letter
      let (pieces, rest) ← pieces? rest
      some (.char char :: pieces, rest)
  | char :: rest =>
      if char.toNat < 0x20 then none
      else do
        let (pieces, rest) ← pieces? rest
        some (.char char :: pieces, rest)

/-- The text that the pieces make up, unless a surrogate stands alone. -/
def join? : List Piece → Option (List Char)
  | [] => some []
  | .char char :: rest => (char :: ·) <$> join? rest
  | .surrogate high :: .surrogate low :: rest =>
      if high < 0xDC00 ∧ 0xDC00 ≤ low then
        (Char.ofNat (0x10000 + (high - 0xD800) * 0x400 + (low - 0xDC00)) :: ·)
          <$> join? rest
      else none
  | .surrogate _ :: _ => none

theorem length_lt_of_pieces?
    {chars rest : List Char} {pieces : List Piece}
    (read : pieces? chars = some (pieces, rest)) :
    rest.length < chars.length := by
  fun_induction pieces? chars generalizing pieces rest with
  | case1 => simp at read
  | case2 => simp_all
  | case3 first second third fourth tail tailRead =>
      simp only [Option.bind_eq_bind, Option.bind_eq_some_iff, Option.some.injEq,
        Prod.mk.injEq, Prod.exists] at read
      obtain ⟨_, _, _, _, tailPieces, _, rfl⟩ := read
      have shorter := tailRead tailPieces
      simp only [List.length_cons]
      omega
  | case4 letter tail _ tailRead =>
      simp only [Option.bind_eq_bind, Option.bind_eq_some_iff, Option.some.injEq,
        Prod.mk.injEq, Prod.exists] at read
      obtain ⟨_, _, _, _, tailPieces, _, rfl⟩ := read
      have shorter := tailRead tailPieces
      simp only [List.length_cons]
      omega
  | case5 => simp at read
  | case6 char tail _ _ _ _ tailRead =>
      simp only [Option.bind_eq_bind, Option.bind_eq_some_iff, Option.some.injEq,
        Prod.mk.injEq, Prod.exists] at read
      obtain ⟨_, _, tailPieces, _, rfl⟩ := read
      have shorter := tailRead tailPieces
      simp only [List.length_cons]
      omega

end KernelTuning.Json.Quoted
