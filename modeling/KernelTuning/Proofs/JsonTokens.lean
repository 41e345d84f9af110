import KernelTuning.Json.Printer
import KernelTuning.Json.Token
import KernelTuning.Proofs.NumberText

/-!
# Tokens of JSON texts

A written value consists of the same tokens in every layout.  This is proved for a text with
something behind it, so that it composes along the structure of the value: a number or a
word ends where something follows that does not belong to it, everything else where it
says.

Main statement: `Token.scans_write`.
-/

namespace KernelTuning.Json

/-! ## String literals -/

namespace Quoted

private theorem unit?_hexDigit {value : Nat} (small : value < 0x20) :
    unit? '0' '0' (hexDigit (value / 16)) (hexDigit (value % 16)) = some value := by
  have digits : ∀ value : Fin 0x20,
      unit? '0' '0' (hexDigit (value.val / 16)) (hexDigit (value.val % 16)) = some value.val := by
    decide
  exact digits ⟨value, small⟩

private theorem pieces?_plain {char : Char} (noQuote : char ≠ '"') (noBackslash : char ≠ '\\')
    (printable : ¬char.toNat < 0x20) (rest : List Char) :
    pieces? (char :: rest) =
      (fun (pieces, rest) => (.char char :: pieces, rest)) <$> pieces? rest := by
  rw [pieces?]
  · rw [if_neg printable]
    cases pieces? rest <;> rfl
  · exact noQuote
  · intro _ _ _ _ _ same _
    exact noBackslash same
  · intro _ _ same _
    exact noBackslash same

/-- An escaped character is read as one piece, the character itself. -/
private theorem pieces?_escape (char : Char) (rest : List Char) :
    pieces? (escape char ++ rest) =
      (fun (pieces, rest) => (.char char :: pieces, rest)) <$> pieces? rest := by
  unfold escape
  split
  case h_8 noQuote noBackslash _ _ _ _ _ =>
    split
    · rename_i small
      have unit : Piece.ofUnit char.toNat = .char char := by
        rw [Piece.ofUnit, if_neg (by omega), Char.ofNat_toNat]
      cases tail : pieces? rest <;>
        simp [pieces?, unit?_hexDigit small, unit, tail]
    · rename_i printable
      exact pieces?_plain noQuote noBackslash printable rest
  all_goals
    cases tail : pieces? rest <;> simp [pieces?, unescape?, tail]

private theorem pieces?_flatMap_escape (text rest : List Char) :
    pieces? (text.flatMap escape ++ '"' :: rest) = some (text.map .char, rest) := by
  induction text with
  | nil => simp [pieces?]
  | cons char text induction =>
      rw [List.flatMap_cons, List.append_assoc, pieces?_escape, induction]
      rfl

private theorem join?_map_char (text : List Char) : join? (text.map .char) = some text := by
  induction text with
  | nil => rfl
  | cons char text induction => simp [join?, induction]

end Quoted

/-! ## Scanning -/

namespace Token

/-- A text begins with these tokens, and the rest follows them. -/
def Scans (text : List Char) (tokens : List Token) (rest : List Char) : Prop :=
  scan? text = (tokens ++ ·) <$> scan? rest

/-- What may follow a number or a word. -/
structure Ends (rest : List Char) : Prop where
  number : Halts isNumeric rest
  word : Halts Char.isAlpha rest

theorem Scans.refl (text : List Char) : Scans text [] text := by
  simp [Scans]

theorem Scans.trans {first middle last : List Char} {before after : List Token}
    (start : Scans first before middle) (next : Scans middle after last) :
    Scans first (before ++ after) last := by
  unfold Scans at start next ⊢
  rw [start, next]
  cases scan? last <;> simp

private theorem Scans.blank {first : Char} {text rest : List Char} {tokens : List Token}
    (blank : isBlank first = true) (scans : Scans text tokens rest) :
    Scans (first :: text) tokens rest := by
  rw [Scans, scan?, if_pos blank]
  exact scans

theorem Scans.blanks {blanks text rest : List Char} {tokens : List Token}
    (allBlank : ∀ char ∈ blanks, isBlank char = true) (scans : Scans text tokens rest) :
    Scans (blanks ++ text) tokens rest := by
  induction blanks with
  | nil => exact scans
  | cons first blanks induction =>
      apply Scans.blank (allBlank first List.mem_cons_self)
      exact induction fun char member => allBlank char (List.mem_cons_of_mem _ member)

theorem scans_next {first : Char} {text rest : List Char} {token : Token}
    (noBlank : isBlank first = false) (read : next? first text = some (token, rest)) :
    Scans (first :: text) [token] rest := by
  rw [Scans, scan?, noBlank]
  simp only [Bool.false_eq_true, if_false]
  split
  · rename_i nothing
    rw [read] at nothing
    cases nothing
  · rename_i found
    rw [read] at found
    cases found
    rfl

theorem ends_cons {first : Char} (noNumber : isNumeric first = false)
    (noLetter : first.isAlpha = false) (rest : List Char) : Ends (first :: rest) :=
  ⟨halts_cons noNumber rest, halts_cons noLetter rest⟩

theorem ends_nil : Ends [] :=
  ⟨halts_nil _, halts_nil _⟩

theorem Ends.blanks {blanks rest : List Char}
    (allBlank : ∀ char ∈ blanks, isBlank char = true) (ends : Ends rest) :
    Ends (blanks ++ rest) := by
  cases blanks with
  | nil => exact ends
  | cons first blanks =>
      have blank := allBlank first List.mem_cons_self
      simp only [isBlank, Bool.or_eq_true, beq_iff_eq] at blank
      rcases blank with ((rfl | rfl) | rfl) | rfl
      all_goals exact ends_cons (by decide) (by decide) _

/-! ### Single tokens -/

theorem scans_string (text : String) (rest : List Char) :
    Scans (Quoted.write text.toList ++ rest) [.string (some text)] rest := by
  rw [Quoted.write, List.cons_append, List.cons_append, List.append_assoc]
  apply scans_next (by decide)
  simp [next?, Quoted.pieces?_flatMap_escape, Quoted.join?_map_char]

private theorem scans_word {first : Char} {letters rest : List Char} {token : Token}
    (noBlank : isBlank first = false) (alpha : (first :: letters).all Char.isAlpha = true)
    (known : word? (first :: letters) = some token) (ends : Ends rest) :
    Scans (first :: letters ++ rest) [token] rest := by
  have letter := List.all_eq_true.mp alpha first List.mem_cons_self
  have others : ∀ other ∈ letters, other.isAlpha = true :=
    fun other member => List.all_eq_true.mp alpha other (List.mem_cons_of_mem _ member)
  rw [List.cons_append]
  apply scans_next noBlank
  unfold next?
  split
  case h_8 =>
    rw [if_pos letter, ends.word.takeWhile_append others, ends.word.dropWhile_append others,
      known]
    rfl
  all_goals exact absurd letter (by decide)

/-- Neither a sign nor a digit is a letter or a blank. -/
private theorem classes_of_start {first : Char} (start : first = '-' ∨ first.isDigit = true) :
    first.isAlpha = false ∧ isBlank first = false := by
  rcases start with rfl | digit
  · decide
  · have digits : ∀ value : Fin 10,
        (Nat.digitChar value).isAlpha = false ∧ isBlank (Nat.digitChar value) = false := by
      decide
    obtain ⟨value, small, rfl⟩ := Config.exists_digitChar digit
    exact digits ⟨value, small⟩

theorem scans_number {literal : Literal} {token : Token} {rest : List Char}
    (wellFormed : literal.WellFormed) (known : number? literal.text = some token)
    (ends : Ends rest) : Scans (literal.text ++ rest) [token] rest := by
  obtain ⟨first, others, same, start⟩ := Literal.exists_text_eq_cons wellFormed
  have numeric := Literal.isNumeric_text wellFormed
  rw [same] at known numeric ⊢
  have othersNumeric : ∀ char ∈ others, isNumeric char = true :=
    fun char member => numeric char (List.mem_cons_of_mem _ member)
  obtain ⟨noLetter, noBlank⟩ := classes_of_start start
  rw [List.cons_append]
  apply scans_next noBlank
  unfold next?
  split
  case h_8 =>
    rw [noLetter, ends.number.takeWhile_append othersNumeric,
      ends.number.dropWhile_append othersNumeric, known]
    rfl
  all_goals exact absurd start (by decide)

end Token

/-! ## Values -/

/-- A value with nothing in it that its text would lose: integers fit a 64-bit word, and
floating numbers are finite and are read correctly rounded. -/
inductive Kept : Json → Prop where
  | null : Kept .null
  | boolean (value : Bool) : Kept (.boolean value)
  | integer {value : Int} (lower : Int64.minValue.toInt ≤ value) (upper : value < UInt64.size) :
      Kept (.integer value)
  | float {value : Binary64} (finite : value.isFinite = true) (rounded : ReadsRounded value) :
      Kept (.float value)
  | string (text : String) : Kept (.string text)
  | array {items : List Json} (kept : ∀ item ∈ items, Kept item) : Kept (.array items)
  | object {members : List (String × Json)} (kept : ∀ member ∈ members, Kept member.2) :
      Kept (.object members)

mutual

/-- The tokens of a value. -/
def tokens : Json → List Token
  | .null => [.null]
  | .boolean value => [.boolean value]
  | .integer value => [.integer value]
  | .float value => [.float value]
  | .string text => [.string (some text)]
  | .array [] => [.openArray, .closeArray]
  | .array (item :: items) => .openArray :: tokens item ++ (itemTokens items ++ [.closeArray])
  | .object [] => [.openObject, .closeObject]
  | .object ((key, value) :: members) =>
      .openObject :: .string (some key) :: .colon :: tokens value
        ++ (memberTokens members ++ [.closeObject])
  | .unreadable => [.null]

/-- The tokens of the items behind the first one. -/
def itemTokens : List Json → List Token
  | [] => []
  | item :: items => .comma :: tokens item ++ itemTokens items

/-- The tokens of the members behind the first one. -/
def memberTokens : List (String × Json) → List Token
  | [] => []
  | (key, value) :: members =>
      .comma :: .string (some key) :: .colon :: tokens value ++ memberTokens members

end

/-! ## Scanning written values -/

/-- A layout that puts nothing but blanks between tokens. -/
structure Layout.IsBlank (layout : Layout) : Prop where
  line : ∀ depth, ∀ char ∈ layout.line depth, Token.isBlank char = true
  afterColon : ∀ char ∈ layout.afterColon, Token.isBlank char = true

theorem Layout.isBlank_compact : Layout.compact.IsBlank where
  line := by simp [Layout.compact]
  afterColon := by simp [Layout.compact]

theorem Layout.isBlank_pretty : Layout.pretty.IsBlank where
  line depth char member := by
    rcases List.mem_cons.mp member with rfl | space
    · rfl
    · rw [List.eq_of_mem_replicate space]
      rfl
  afterColon := by simp [Layout.pretty, Token.isBlank]

namespace Token

variable {layout : Layout}

/-- At every depth, and whatever follows, the written value is scanned to its tokens. -/
def ScansWritten (layout : Layout) (value : Json) : Prop :=
  ∀ depth rest, Ends rest → Scans (write layout depth value ++ rest) value.tokens rest

theorem ends_writeItems (depth : Nat) (items : List Json) {rest : List Char} (ends : Ends rest) :
    Ends (writeItems layout depth items ++ rest) := by
  cases items with
  | nil => exact ends
  | cons item items => exact ends_cons (by decide) (by decide) _

theorem ends_writeMembers (depth : Nat) (members : List (String × Json)) {rest : List Char}
    (ends : Ends rest) : Ends (writeMembers layout depth members ++ rest) := by
  cases members with
  | nil => exact ends
  | cons member members => exact ends_cons (by decide) (by decide) _

private theorem scans_writeItems (blank : layout.IsBlank) {items : List Json}
    (scans : ∀ item ∈ items, ScansWritten layout item) (depth : Nat) {rest : List Char}
    (ends : Ends rest) :
    Scans (writeItems layout depth items ++ rest) (itemTokens items) rest := by
  induction items with
  | nil => exact Scans.refl rest
  | cons item items induction =>
      have tail := induction fun later member => scans later (List.mem_cons_of_mem _ member)
      have tailEnds : Ends (writeItems layout depth items ++ rest) :=
        ends_writeItems depth items ends
      have head := scans item List.mem_cons_self depth _ tailEnds
      have comma : Scans (writeItems layout depth (item :: items) ++ rest) [.comma]
          (layout.line depth ++ (write layout depth item
            ++ (writeItems layout depth items ++ rest))) := by
        simp only [writeItems, List.cons_append, List.append_assoc]
        exact scans_next (by decide) rfl
      exact comma.trans ((head.trans tail).blanks (blank.line depth))

/-- A key, its colon and its value. -/
theorem scans_member (blank : layout.IsBlank) {value : Json} (scans : ScansWritten layout value)
    (key : String) (depth : Nat) {rest : List Char} (ends : Ends rest) :
    Scans
      (layout.line depth ++ (Quoted.write key.toList ++ ':' :: (layout.afterColon
        ++ (write layout depth value ++ rest))))
      (.string (some key) :: .colon :: value.tokens) rest := by
  apply Scans.blanks (blank.line depth)
  apply (scans_string key _).trans
  apply (scans_next (by decide) rfl).trans
  exact (scans depth rest ends).blanks blank.afterColon

private theorem scans_writeMembers (blank : layout.IsBlank) {members : List (String × Json)}
    (scans : ∀ member ∈ members, ScansWritten layout member.2) (depth : Nat) {rest : List Char}
    (ends : Ends rest) :
    Scans (writeMembers layout depth members ++ rest) (memberTokens members) rest := by
  induction members with
  | nil => exact Scans.refl rest
  | cons member members induction =>
      obtain ⟨key, value⟩ := member
      have tail := induction fun later member => scans later (List.mem_cons_of_mem _ member)
      have tailEnds : Ends (writeMembers layout depth members ++ rest) :=
        ends_writeMembers depth members ends
      have head := scans_member blank (scans _ List.mem_cons_self) key depth tailEnds
      have comma : Scans (writeMembers layout depth ((key, value) :: members) ++ rest) [.comma]
          (layout.line depth ++ (Quoted.write key.toList ++ ':' :: (layout.afterColon
            ++ (write layout depth value ++ (writeMembers layout depth members ++ rest))))) := by
        simp only [writeMembers, List.cons_append, List.append_assoc]
        exact scans_next (by decide) rfl
      exact comma.trans (head.trans tail)

private theorem scans_writeArray (blank : layout.IsBlank) {items : List Json}
    (scans : ∀ item ∈ items, ScansWritten layout item) : ScansWritten layout (.array items) := by
  intro depth rest ends
  cases items with
  | nil =>
      have opens : Scans (['[', ']'] ++ rest) [.openArray] (']' :: rest) :=
        scans_next (by decide) rfl
      exact opens.trans (scans_next (by decide) rfl)
  | cons item items =>
      have closes : Scans (layout.line depth ++ ']' :: rest) [.closeArray] rest :=
        (scans_next (by decide) rfl).blanks (blank.line depth)
      have closingEnds : Ends (layout.line depth ++ ']' :: rest) :=
        (ends_cons (by decide) (by decide) rest).blanks (blank.line depth)
      have tail := scans_writeItems blank
        (fun later member => scans later (List.mem_cons_of_mem _ member)) (depth + 1) closingEnds
      have tailEnds : Ends (writeItems layout (depth + 1) items
          ++ (layout.line depth ++ ']' :: rest)) := ends_writeItems (depth + 1) items closingEnds
      have head := scans item List.mem_cons_self (depth + 1) _ tailEnds
      have opens : Scans (write layout depth (.array (item :: items)) ++ rest) [.openArray]
          (layout.line (depth + 1) ++ (write layout (depth + 1) item
            ++ (writeItems layout (depth + 1) items ++ (layout.line depth ++ ']' :: rest)))) := by
        simp only [write, List.cons_append, List.append_assoc, List.nil_append]
        exact scans_next (by decide) rfl
      exact opens.trans ((head.trans (tail.trans closes)).blanks (blank.line (depth + 1)))

private theorem scans_writeObject (blank : layout.IsBlank) {members : List (String × Json)}
    (scans : ∀ member ∈ members, ScansWritten layout member.2) :
    ScansWritten layout (.object members) := by
  intro depth rest ends
  cases members with
  | nil =>
      have opens : Scans (['\x7b', '\x7d'] ++ rest) [.openObject] ('\x7d' :: rest) :=
        scans_next (by decide) rfl
      exact opens.trans (scans_next (by decide) rfl)
  | cons member members =>
      obtain ⟨key, value⟩ := member
      have closes : Scans (layout.line depth ++ '\x7d' :: rest) [.closeObject] rest :=
        (scans_next (by decide) rfl).blanks (blank.line depth)
      have closingEnds : Ends (layout.line depth ++ '\x7d' :: rest) :=
        (ends_cons (by decide) (by decide) rest).blanks (blank.line depth)
      have tail := scans_writeMembers blank
        (fun later member => scans later (List.mem_cons_of_mem _ member)) (depth + 1) closingEnds
      have tailEnds : Ends (writeMembers layout (depth + 1) members
          ++ (layout.line depth ++ '\x7d' :: rest)) :=
        ends_writeMembers (depth + 1) members closingEnds
      have head := scans_member blank (scans _ List.mem_cons_self) key (depth + 1) tailEnds
      have opens : Scans (write layout depth (.object ((key, value) :: members)) ++ rest)
          [.openObject]
          (layout.line (depth + 1) ++ (Quoted.write key.toList ++ ':' :: (layout.afterColon
            ++ (write layout (depth + 1) value ++ (writeMembers layout (depth + 1) members
              ++ (layout.line depth ++ '\x7d' :: rest)))))) := by
        simp only [write, List.cons_append, List.append_assoc, List.nil_append]
        exact scans_next (by decide) rfl
      exact opens.trans (head.trans (tail.trans closes))

/-- A written value is scanned to its tokens, whatever the layout. -/
theorem scans_write (blank : layout.IsBlank) {value : Json} (kept : value.Kept) :
    ScansWritten layout value := by
  induction kept with
  | null =>
      intro depth rest ends
      exact scans_word (by decide) (by decide) rfl ends
  | boolean value =>
      intro depth rest ends
      cases value with
      | true => exact scans_word (by decide) (by decide) rfl ends
      | false => exact scans_word (by decide) (by decide) rfl ends
  | integer lower upper =>
      intro depth rest ends
      rw [write, ← Literal.text_ofInteger]
      apply scans_number (Literal.wellFormed_ofInteger _) _ ends
      rw [number?, Literal.text_ofInteger, number?_writeInteger lower upper]
  | float finite rounded =>
      intro depth rest ends
      rw [write, ← text_literalOf finite]
      apply scans_number (spells_literalOf finite).wellFormed _ ends
      rw [number?, text_literalOf finite, number?_writeFloat finite rounded]
  | string text =>
      intro depth rest ends
      exact scans_string text rest
  | array kept induction => exact scans_writeArray blank induction
  | object kept induction => exact scans_writeObject blank induction

end Token

end KernelTuning.Json
