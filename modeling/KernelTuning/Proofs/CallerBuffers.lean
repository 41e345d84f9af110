import KernelTuning.Host.Buffer
import KernelTuning.Proofs.CanonicalText
import KernelTuning.Proofs.FlagText
import Mathlib.Data.List.Basic

/-!
# Texts in caller buffers

A buffer that a text was copied into starts with as much of the text as there is room for, and
has zeros behind it whatever it held before.  The size that is answered does not depend on the
buffer, so a caller that asks twice gets the whole text.  The texts of configurations are short
and have no zero byte: the buffer size that callers are told leaves room for a zero behind each
of them, and what stands in front of it is the text.

Main statement: `Host.buffers_lossless`.
-/

namespace KernelTuning

/-! ## The bytes of a text -/

namespace Host

/-- The text that bytes spell. -/
def textOf? (bytes : List UInt8) : Option String :=
  String.fromUTF8? bytes.toByteArray

/-- The text in front of the first zero byte of a buffer. -/
def read? (buffer : Buffer) : Option String :=
  textOf? (buffer.takeWhile (· != 0))

private theorem toByteArray_textBytes (text : String) :
    (textBytes text).toByteArray = text.toUTF8 := by
  apply ByteArray.ext
  rw [List.data_toByteArray]
  exact Array.toArray_toList

theorem textOf?_textBytes (text : String) : textOf? (textBytes text) = some text := by
  unfold textOf? String.fromUTF8?
  rw [toByteArray_textBytes]
  exact dif_pos text.isValidUTF8

private theorem textBytes_ofList (chars : List Char) :
    textBytes (String.ofList chars) = chars.flatMap String.utf8EncodeChar :=
  List.toList_data_toByteArray

/-! ## Copying -/

/-- Asking through a buffer serves a text: the size needed is the same for every buffer, the
buffer keeps its size, starts with the text and ends in zeros, and a buffer of the size that was
answered for an empty one receives exactly the text. -/
structure Serves (ask : Buffer → Nat × Buffer) (text : String) : Prop where
  needed : ∀ buffer, (ask buffer).1 = (textBytes text).length
  size : ∀ buffer, (ask buffer).2.length = buffer.length
  start : ∀ buffer,
    (ask buffer).2.take (min (ask buffer).1 buffer.length) =
      (textBytes text).take (min (ask buffer).1 buffer.length)
  rest : ∀ buffer byte,
    byte ∈ (ask buffer).2.drop (min (ask buffer).1 buffer.length) → byte = 0
  again : ∀ buffer, buffer.length = (ask []).1 → textOf? (ask buffer).2 = some text

theorem snd_copy (text : String) (buffer : Buffer) :
    (copy text buffer).2 =
      (textBytes text).take buffer.length ++
        List.replicate (buffer.length - (textBytes text).length) 0 :=
  rfl

theorem snd_copy_of_length_le {text : String} {buffer : Buffer}
    (roomy : (textBytes text).length ≤ buffer.length) :
    (copy text buffer).2 =
      textBytes text ++ List.replicate (buffer.length - (textBytes text).length) 0 := by
  rw [snd_copy, List.take_of_length_le roomy]

theorem serves_copy (text : String) : Serves (copy text) text := by
  have started : ∀ buffer : Buffer,
      ((textBytes text).take buffer.length).length =
        min (textBytes text).length buffer.length := by
    intro buffer
    rw [List.length_take, Nat.min_comm]
  constructor
  · intro buffer
    rfl
  · intro buffer
    rw [snd_copy, List.length_append, started, List.length_replicate]
    omega
  · intro buffer
    rw [snd_copy]
    refine (List.take_left' (started buffer)).trans (List.take_eq_take_iff.mpr ?_)
    change _ = min (min (textBytes text).length _) _
    omega
  · intro buffer byte member
    change byte ∈ (copy text buffer).2.drop (min (textBytes text).length buffer.length) at member
    rw [snd_copy, List.drop_left' (started buffer)] at member
    exact List.eq_of_mem_replicate member
  · intro buffer allocated
    have exactly : buffer.length = (textBytes text).length := allocated
    rw [snd_copy_of_length_le (Nat.le_of_eq exactly.symm), exactly, Nat.sub_self,
      List.replicate_zero, List.append_nil]
    exact textOf?_textBytes text

/-! ## The bytes of ASCII texts -/

/-- A character with a byte of its own that is not zero. -/
def SingleByte (char : Char) : Prop := 0 < char.toNat ∧ char.toNat < 128

private theorem singleByte_of_isDigit {char : Char} (digit : char.isDigit = true) :
    SingleByte char := by
  obtain ⟨lower, upper⟩ := Char.isDigit_iff_toNat.mp digit
  have zero : '0'.toNat = 48 := rfl
  have nine : '9'.toNat = 57 := rfl
  unfold SingleByte
  omega

private theorem utf8EncodeChar_of_singleByte {char : Char} (single : SingleByte char) :
    String.utf8EncodeChar char = [char.val.toUInt8] := by
  apply String.utf8EncodeChar_eq_singleton
  apply Char.utf8Size_eq_one_iff.mpr
  exact UInt32.le_iff_toNat_le.mpr (Nat.le_of_lt_succ single.2)

private theorem byte_ne_zero {char : Char} (single : SingleByte char) : char.val.toUInt8 ≠ 0 := by
  intro zero
  have remainder : char.toNat % 256 = 0 := congrArg UInt8.toNat zero
  obtain ⟨positive, small⟩ := single
  omega

theorem textBytes_of_singleByte {text : String}
    (single : ∀ char, char ∈ text.toList → SingleByte char) :
    textBytes text = text.toList.map fun char => char.val.toUInt8 := by
  rw [← String.ofList_toList (s := text), textBytes_ofList, String.toList_ofList,
    List.map_eq_flatMap]
  exact List.flatMap_congr fun char member => utf8EncodeChar_of_singleByte (single char member)

theorem read?_copy {text : String} (single : ∀ char, char ∈ text.toList → SingleByte char)
    {buffer : Buffer} (roomy : (textBytes text).length ≤ buffer.length) :
    read? (copy text buffer).2 = some text := by
  have nonzero : ∀ byte, byte ∈ textBytes text → (byte != 0) = true := by
    intro byte member
    rw [textBytes_of_singleByte single] at member
    obtain ⟨char, charMember, rfl⟩ := List.mem_map.mp member
    exact bne_iff_ne.mpr (byte_ne_zero (single char charMember))
  have zeros : ∀ count, (List.replicate count (0 : UInt8)).takeWhile (· != 0) = [] := by
    intro count
    rw [List.takeWhile_replicate, if_neg (by decide)]
  unfold read?
  rw [snd_copy_of_length_le roomy, List.takeWhile_append_of_pos nonzero, zeros, List.append_nil]
  exact textOf?_textBytes text

end Host

/-! ## The texts of configurations -/

namespace Config

private theorem comma_cons_intercalate {fields : List (List Char)} (nonempty : fields ≠ []) :
    ',' :: [','].intercalate fields = fields.flatMap (List.cons ',') := by
  induction fields with
  | nil => exact absurd rfl nonempty
  | cons field fields induction =>
      cases fields with
      | nil => simp
      | cons next fields =>
          have tail := induction (List.cons_ne_nil next fields)
          rw [List.intercalate_cons_cons, List.flatMap_cons, ← tail, List.append_assoc]
          rfl

private theorem length_toDigits_word (word : UInt32) : (Nat.toDigits 10 word.toNat).length ≤ 10 :=
  (Nat.length_toDigits_le_iff (by decide) (by decide)).mpr
    (Nat.lt_trans word.toNat_lt_size (by decide))

private theorem length_toDigits_flag (flag : Bool) :
    (Nat.toDigits 10 (flagNumber flag)).length = 1 := by
  cases flag <;> rfl

/-- Seven words and two flags, each with a comma. -/
private theorem length_fields_le (config : Config) :
    ((config.numbers.map (Nat.toDigits 10)).flatMap (List.cons ',')).length ≤ 81 := by
  cases config with
  | matrix knobs =>
      simp only [numbers, List.map_cons, List.map_nil, List.flatMap_cons, List.flatMap_nil,
        List.length_append, List.length_cons, List.length_nil, length_toDigits_flag]
      have mPerBlock := length_toDigits_word knobs.mPerBlock
      have nPerBlock := length_toDigits_word knobs.nPerBlock
      have kPerBlock := length_toDigits_word knobs.kPerBlock
      have mPerWave := length_toDigits_word knobs.mPerWave
      have nPerWave := length_toDigits_word knobs.nPerWave
      have kPack := length_toDigits_word knobs.kPack
      have splitK := length_toDigits_word knobs.splitK
      omega
  | scalar knobs =>
      simp only [numbers, List.map_cons, List.map_nil, List.flatMap_cons, List.flatMap_nil,
        List.length_append, List.length_cons, List.length_nil]
      have blockSize := length_toDigits_word knobs.blockSize
      have mPerBlock := length_toDigits_word knobs.mPerBlock
      have nPerBlock := length_toDigits_word knobs.nPerBlock
      have kPerBlock := length_toDigits_word knobs.kPerBlock
      have mPerThread := length_toDigits_word knobs.mPerThread
      have nPerThread := length_toDigits_word knobs.nPerThread
      omega

theorem singleByte_of_mem_encode (config : Config) :
    ∀ char, char ∈ config.encode.toList → Host.SingleByte char := by
  have inFields : ∀ char, char ∈ [','].intercalate (config.numbers.map (Nat.toDigits 10)) →
      Host.SingleByte char := by
    apply Text.forall_mem_intercalate
    · exact ⟨by decide, by decide⟩
    · intro field fieldMember char member
      obtain ⟨number, _, rfl⟩ := List.mem_map.mp fieldMember
      exact Host.singleByte_of_isDigit
        (Nat.isDigit_of_mem_toDigits (by decide) (by decide) member)
  intro char member
  rw [(spells_encode config).written, List.mem_append, List.mem_cons] at member
  rcases member with inVersion | rfl | inBody
  · rcases List.mem_cons.mp inVersion with rfl | inNumber
    · exact ⟨by decide, by decide⟩
    · cases List.mem_singleton.mp inNumber
      exact ⟨by decide, by decide⟩
  · exact ⟨by decide, by decide⟩
  · exact inFields char inBody

theorem length_textBytes_encode_le (config : Config) :
    (Host.textBytes config.encode).length ≤ 83 := by
  have spells := spells_encode config
  have fields := config.length_fields_le
  rw [← comma_cons_intercalate spells.nonempty, List.length_cons] at fields
  rw [Host.textBytes_of_singleByte config.singleByte_of_mem_encode, List.length_map,
    spells.written, List.length_append, List.length_cons]
  have start : version.length = 2 := rfl
  omega

end Config

namespace Host

theorem read?_copyConfig (config : Config) {buffer : Buffer}
    (roomy : configBufferSize ≤ buffer.length) :
    read? (copyConfig config buffer).2 = some config.encode := by
  have small : 83 ≤ configBufferSize := by decide
  have short := config.length_textBytes_encode_le
  exact read?_copy config.singleByte_of_mem_encode (by omega)

theorem getElem?_copyConfig (config : Config) {buffer : Buffer}
    (roomy : configBufferSize ≤ buffer.length) :
    (copyConfig config buffer).2[(textBytes config.encode).length]? = some 0 := by
  have small : 83 < configBufferSize := by decide
  have short := config.length_textBytes_encode_le
  unfold copyConfig
  rw [snd_copy_of_length_le (by omega), List.getElem?_append_right (Nat.le_refl _), Nat.sub_self,
    List.getElem?_replicate_of_lt (by omega)]

private theorem copyKey_of_signature {problem : Problem} {signature : String}
    (signed : problem.signature = .ok signature) : copyKey problem = copy signature := by
  funext buffer
  unfold copyKey
  rw [signed]

/-- Every text that is handed out through a buffer arrives whole in a buffer of the size that was
answered, and as far as there is room in any other.  The text of a configuration has at most 83
bytes, so that the size for configurations leaves room for a zero, and what stands in front of
the zero is read as the configuration unless a quantity is zero.  A problem without a signature
leaves the buffer alone and answers a size that no shorter signature needs. -/
theorem buffers_lossless :
    (∀ config, Serves (copyConfig config) config.encode ∧
      Serves (copySlot (some config)) config.encode) ∧
    Serves (copySlot none) "" ∧
    (∀ problem signature, problem.signature = .ok signature →
      Serves (copyKey problem) signature ∧
        ((textBytes signature).length < keyNotFound →
          ∀ buffer, (copyKey problem buffer).1 ≠ keyNotFound)) ∧
    (∀ problem fault, problem.signature = .error fault →
      ∀ buffer, copyKey problem buffer = (keyNotFound, buffer)) ∧
    ∀ config : Config, (textBytes config.encode).length ≤ 83 ∧
      ∀ buffer : Buffer, configBufferSize ≤ buffer.length →
        (copyConfig config buffer).2[(textBytes config.encode).length]? = some 0 ∧
          read? (copyConfig config buffer).2 = some config.encode ∧
          (config.Positive → Config.decode config.encode = .ok config) := by
  refine ⟨fun config => ⟨serves_copy _, serves_copy _⟩, serves_copy _, ?_, ?_, ?_⟩
  · intro problem signature signed
    rw [copyKey_of_signature signed]
    exact ⟨serves_copy signature, fun short _ => Nat.ne_of_lt short⟩
  · intro problem fault unsigned buffer
    unfold copyKey
    rw [unsigned]
  · intro config
    refine ⟨config.length_textBytes_encode_le, fun buffer roomy => ?_⟩
    exact ⟨getElem?_copyConfig config roomy, read?_copyConfig config roomy,
      Config.decode_encode⟩

/-- The largest words need all of the 83 bytes. -/
example : (textBytes (Config.matrix ⟨4294967295, 4294967295, 4294967295, 4294967295, 4294967295,
    4294967295, 4294967295, true, true⟩).encode).length = 83 := by
  decide

/-- A product on a chip whose name ends in a character of two bytes. -/
def accentedProduct (m : UInt64) : Problem :=
  .gemm ⟨1, m, 64, 64⟩ .f32 ⟨"gfxé", .gcn, 64, 60, 65536⟩

/-- A buffer that ends inside a character, one for a problem without a signature, and one that
has room for every configuration. -/
theorem buffers_lossless_accentedProduct :
    ((accentedProduct 64).signature = .ok (accentedProduct 64).signatureText ∧
      Serves (copyKey (accentedProduct 64)) (accentedProduct 64).signatureText ∧
      (copyKey (accentedProduct 64) [7, 7, 7, 7]).2 = [103, 102, 120, 195] ∧
      (textBytes (accentedProduct 64).signatureText).length < keyNotFound ∧
      (copyKey (accentedProduct 64) []).1 ≠ keyNotFound) ∧
    ((accentedProduct 0).signature = .error ⟨.emptyShape ⟨1, 0, 64, 64⟩⟩ ∧
      copyKey (accentedProduct 0) [7, 7] = (keyNotFound, [7, 7])) ∧
    configBufferSize ≤ (List.replicate 256 (7 : UInt8)).length ∧
      read? (copyConfig (.scalar ⟨256, 64, 64, 8, 4, 4⟩) (List.replicate 256 7)).2 =
        some (Config.scalar ⟨256, 64, 64, 8, 4, 4⟩).encode ∧
      (Config.scalar ⟨256, 64, 64, 8, 4, 4⟩).Positive ∧
      Config.decode (Config.scalar ⟨256, 64, 64, 8, 4, 4⟩).encode =
        .ok (.scalar ⟨256, 64, 64, 8, 4, 4⟩) := by
  obtain ⟨-, -, keys, unsigned, configs⟩ := buffers_lossless
  have signed : (accentedProduct 64).signature = .ok (accentedProduct 64).signatureText := rfl
  have empty : (accentedProduct 0).signature = .error ⟨.emptyShape ⟨1, 0, 64, 64⟩⟩ := rfl
  have short : (textBytes (accentedProduct 64).signatureText).length < keyNotFound := by decide
  have positive : (Config.scalar ⟨256, 64, 64, 8, 4, 4⟩).Positive := by decide
  have roomy : configBufferSize ≤ (List.replicate 256 (7 : UInt8)).length :=
    Nat.le_of_eq List.length_replicate.symm
  obtain ⟨serves, needed⟩ := keys _ _ signed
  obtain ⟨-, read, decoded⟩ := (configs (.scalar ⟨256, 64, 64, 8, 4, 4⟩)).2 _ roomy
  have cut : (copyKey (accentedProduct 64) [7, 7, 7, 7]).2 = [103, 102, 120, 195] := by decide
  exact ⟨⟨signed, serves, cut, short, needed short []⟩, ⟨empty, unsigned _ _ empty _⟩, roomy,
    read, positive, decoded positive⟩

end Host

end KernelTuning
