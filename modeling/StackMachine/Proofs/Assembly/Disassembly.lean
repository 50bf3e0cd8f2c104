import StackMachine.Assembly.Expression.Eval
import StackMachine.Program.Basic
import StackMachine.Proofs.Assembly.CoreWriting
import StackMachine.Proofs.Codec
import StackMachine.Proofs.Text.Hexadecimal

/-!
# Assembling undoes disassembling

The text of a word with a defined tag is a line of the core language, so the texts of
some words, one per line, are a source text without labels. Assembling it gives the words
back, but for bits that their operations do not use. In the other direction, the listing
of an image shows the instructions of a program whose operands have 24 bits.

## Main definitions

* `Program.Defined`: a program whose tags are all defined.
* `Core.Instruction.ofWord`: the instruction of a word, as it is written.
* `Instr.Transcribes`: the texts that show words, one per line.

## Main results

* `Core.assemble_transcript`: the program of a text that shows words.
* `Instr.raw_disassemble`: the lines of a listing.
* `assemble_undoes_disassemble`: both directions.
-/

namespace StackMachine

open Assembly

/-- A program whose tags are all defined. -/
def Program.Defined (p : Program) : Prop :=
  ∀ statement ∈ p.statements, (Opcode.ofTag? statement.instr.tag).isSome = true

/-- The texts that show words, one per line. The line feed behind the last line is optional. -/
def Instr.Transcribes (text : Text) (words : List UInt32) : Prop :=
  text = Text.join "\n" (words.map fun word => Text.ofString (describeWord word)) ∨
    text = words.flatMap fun word => Text.line (describeWord word)

namespace Core

/-! ### The line of a word -/

/-- The instruction of a word, as it is written. A word with an undefined tag has none, and counts
as one that does nothing. -/
def Instruction.ofWord (word : UInt32) : Instruction :=
  .ofOpcode ((Opcode.ofTag? (Instr.wordTag word)).getD .nop) (Instr.wordOperand word).toInt

section Word

variable {word : UInt32} (defined : (Opcode.ofTag? (Instr.wordTag word)).isSome = true)

include defined

theorem Instruction.text_ofWord :
    (Instruction.ofWord word).text = Text.ofString (Instr.describeWord word) := by
  obtain ⟨op, found⟩ := Option.isSome_iff_exists.mp defined
  rw [Instruction.ofWord, found, Option.getD_some, Instruction.text_ofOpcode, Instr.describeWord,
    Instr.decode?_eq, found, Option.map_some]
  cases takes : op.takesOperand with
  | false => simp [Instr.text, Instr.ofOpcode, takes]
  | true => rfl

/-- The written form of a word is assembled to the word, but for bits that its operation does not
use. -/
theorem Instruction.encode_draft_ofWord (lineNo address : Nat) :
    ((Instruction.ofWord word).draft lineNo address).instr.encode = Instr.plainWord word := by
  obtain ⟨op, found⟩ := Option.isSome_iff_exists.mp defined
  obtain ⟨lower, upper⟩ := Instr.wordOperand_bounds word
  simp only [Instr.operandMin, Instr.operandMax] at lower upper
  have decoded : Instr.decode? word =
      some (.ofOpcode op (if op.takesOperand then Instr.wordOperand word else 0)) := by
    simp [Instr.decode?_eq, found]
  rw [← Instr.encode_of_decode? decoded, Instruction.ofWord, found, Option.getD_some,
    Instruction.instr_draft_ofOpcode op _ lineNo address (by omega) (by omega), Int32.ofInt_toInt]

end Word

theorem Instruction.literal_ofWord (word : UInt32) (term : Term)
    (h : (Instruction.ofWord word).term = some term) :
    ∃ n : Number, term = .number n ∧ n.InRange := by
  obtain ⟨lower, upper⟩ := Instr.wordOperand_bounds word
  simp only [Instr.operandMin, Instr.operandMax] at lower upper
  rw [Instruction.ofWord, Instruction.term_ofOpcode] at h
  split at h
  · cases h
    exact ⟨_, rfl, (Number.inRange_ofInt_iff _).mpr ⟨by omega, by omega⟩⟩
  · cases h

theorem Line.fits_ofWord (word : UInt32) :
    Lines.fits (Line.plain [] (.ofWord word)).text = true := by
  obtain ⟨lower, upper⟩ := Instr.wordOperand_bounds word
  simp only [Instr.operandMin, Instr.operandMax] at lower upper
  exact Line.fits_plain _ (by omega)

/-! ### Transcripts -/

/-- The lines of some words. -/
def transcript (words : List UInt32) : List Line :=
  (words.map Instruction.ofWord).map (Line.plain [])

theorem map_text_transcript {words : List UInt32}
    (defined : ∀ word ∈ words, (Opcode.ofTag? (Instr.wordTag word)).isSome = true) :
    (transcript words).map Line.text =
      words.map fun word => Text.ofString (Instr.describeWord word) := by
  rw [transcript, List.map_map, List.map_map]
  refine List.map_congr_left fun word member => ?_
  simp [Line.text_plain, Instruction.text_ofWord (defined word member)]

/-- A text that shows words is the source text of their lines, or of these and an empty one. -/
theorem exists_source_of_transcribes {text : Text} {words : List UInt32}
    (defined : ∀ word ∈ words, (Opcode.ofTag? (Instr.wordTag word)).isSome = true)
    (shows : Instr.Transcribes text words) :
    ∃ lines, text = source lines ∧ (∀ line ∈ lines, Lines.fits line.text = true) ∧
      definitions 0 lines = [] ∧ instructions 1 lines = instructions 1 (transcript words) := by
  have fits : ∀ line ∈ transcript words, Lines.fits line.text = true := by
    intro line member
    simp only [transcript, List.map_map, List.mem_map, Function.comp_apply] at member
    obtain ⟨word, -, rfl⟩ := member
    exact Line.fits_ofWord word
  have unlabelled := definitions_plain 0 (words.map Instruction.ofWord)
  rcases shows with rfl | rfl
  · refine ⟨transcript words, ?_, fits, unlabelled, rfl⟩
    rw [source, map_text_transcript defined]
  · refine ⟨transcript words ++ [Line.blank], ?_, ?_, ?_, ?_⟩
    · rw [source, List.map_append, map_text_transcript defined]
      refine Eq.trans ?_ (Text.join_append_nil _).symm
      rw [List.flatMap_map]
    · intro line member
      rcases List.mem_append.mp member with old | new
      · exact fits line old
      · rw [List.mem_singleton.mp new]
        decide
    · rw [definitions_append 0 1, transcript, unlabelled]
      simp [definitions, Line.blank]
    · rw [instructions_append]
      simp [instructions, Line.blank]

/-- The program of a text that shows words has no labels, and its image is these words but for
bits that their operations do not use. -/
theorem assemble_transcript [Interpreter] {text : Text} {words : List UInt32}
    (defined : ∀ word ∈ words, (Opcode.ofTag? (Instr.wordTag word)).isSome = true)
    (shows : Instr.Transcribes text words) :
    ∃ p, assemble text = .ok p ∧ p.labels = [] ∧ p.image.toList = words.map Instr.plainWord := by
  obtain ⟨lines, rfl, fits, unlabelled, same⟩ := exists_source_of_transcribes defined shows
  have written := instructions_plain 1 (words.map Instruction.ofWord)
  rw [← transcript, ← same] at written
  have literal : ∀ entry ∈ instructions 1 lines, ∀ term, entry.2.term = some term →
      ∃ n : Number, term = .number n ∧ n.InRange := by
    intro entry member term h
    rw [written, List.mem_mapIdx] at member
    obtain ⟨k, inside, rfl⟩ := member
    simp only [List.getElem_map] at h
    exact Instruction.literal_ofWord _ term h
  obtain ⟨p, accepted, labels, statements⟩ := assemble_unlabelled fits unlabelled literal
  refine ⟨p, accepted, labels, ?_⟩
  rw [Program.image, Array.toList_map, statements, written]
  refine List.ext_getElem (by simp) fun k left right => ?_
  have inside : k < words.length := by simpa using right
  simp [Instruction.encode_draft_ofWord (defined _ (List.getElem_mem inside))]

end Core

/-! ### Listings -/

namespace Instr

theorem feed_not_mem_hexUpper (width : Nat) (n : Int) :
    '\n' ∉ (Numeral.hexUpper width n).toList := by
  intro member
  have word := Numeral.inWord_hexUpper width n _ (List.mem_map_of_mem member)
  exact Core.ne_of_inWord word (by decide) rfl

theorem feed_not_mem_text {i : Instr} (defined : (Opcode.ofTag? i.tag).isSome = true) :
    '\n' ∉ i.text.toList := by
  obtain ⟨op, found⟩ := Option.isSome_iff_exists.mp defined
  obtain ⟨tag, operand⟩ := i
  obtain rfl : op.tag = tag := Opcode.ofTag?_eq_some_iff.mp found
  intro member
  have glyph : Glyph.scalar '\n' ∈ (Core.Instruction.ofOpcode op operand.toInt).text := by
    rw [Core.Instruction.text_ofOpcode]
    exact List.mem_map_of_mem member
  exact Core.ne_of_inBody (Core.Instruction.inBody _ _ glyph) (by decide) rfl

/-- The word of an instruction whose operand has 24 bits shows as the instruction. -/
theorem describeWord_encode {i : Instr} (defined : (Opcode.ofTag? i.tag).isSome = true)
    (bounds : Opcode.tagTakesOperand i.tag = true →
      operandMin ≤ i.operand.toInt ∧ i.operand.toInt ≤ operandMax) :
    describeWord i.encode = i.text := by
  obtain ⟨op, found⟩ := Option.isSome_iff_exists.mp defined
  have takes := tagTakesOperand_eq found
  rw [describeWord, decode?_encode found]
  simp only [text, takes]
  split
  · rename_i carries
    rw [(signExtend_eq_self_iff _).mpr (bounds (takes.trans carries)), Int32.ofInt_toInt]
  · rfl

/-- The line of a listing that shows a word at an address. -/
def listingLine (address : Nat) (word : UInt32) : String :=
  Numeral.hexUpper 4 address ++ ": " ++ describeWord word

theorem disassembleFrom_eq (address : Nat) (words : List UInt32) :
    disassembleFrom address words =
      (words.mapIdx fun k word => listingLine (address + k) word).map (· ++ "\n") := by
  induction words generalizing address with
  | nil => rfl
  | cons word words ih =>
    rw [disassembleFrom, ih, List.mapIdx_cons]
    simp [listingLine, Nat.add_assoc, Nat.add_comm 1]

/-- The lines of a listing: an address and a text for every word. -/
theorem raw_disassemble {words : List UInt32}
    (oneLine : ∀ word ∈ words, '\n' ∉ (describeWord word).toList) :
    Lines.raw (Text.ofString (disassemble words)) =
      (words.mapIdx listingLine).map Text.ofString := by
  have terminated : Text.ofString (disassemble words) =
      ((words.mapIdx listingLine).map Text.ofString).flatMap Text.line := by
    rw [disassemble, disassembleFrom_eq, Text.ofString, String.toList_join, List.flatMap_map,
      List.flatMap_map, List.map_flatMap]
    simp [Text.ofString, Text.line]
  rw [terminated]
  refine Lines.raw_flatMap_line _ fun line member feed => ?_
  obtain ⟨_, entry, rfl⟩ := List.mem_map.mp member
  obtain ⟨k, inside, rfl⟩ := List.mem_mapIdx.mp entry
  have found : '\n' ∈ (listingLine k words[k]).toList := by simpa [Text.ofString] using feed
  simp only [listingLine, String.toList_append, List.mem_append] at found
  rcases found with (address | colon) | text
  · exact feed_not_mem_hexUpper 4 k address
  · exact absurd colon (by decide)
  · exact oneLine _ (List.getElem_mem inside) text

end Instr

/-! ### Images of programs -/

theorem Program.mem_image {p : Program} {word : UInt32} (h : word ∈ p.image.toList) :
    ∃ statement ∈ p.statements, statement.instr.encode = word := by
  rw [Program.image, Array.toList_map] at h
  obtain ⟨statement, member, same⟩ := List.mem_map.mp h
  exact ⟨statement, Array.mem_def.mpr member, same⟩

theorem Program.Defined.image {p : Program} (defined : p.Defined) :
    ∀ word ∈ p.image.toList, (Opcode.ofTag? (Instr.wordTag word)).isSome = true := by
  intro word member
  obtain ⟨statement, found, rfl⟩ := p.mem_image member
  rw [Instr.wordTag_encode]
  exact defined statement found

theorem Program.map_plainWord_image (p : Program) :
    p.image.toList.map Instr.plainWord = p.image.toList := by
  have plain : ∀ word ∈ p.image.toList, Instr.plainWord word = word := by
    intro word member
    obtain ⟨statement, -, rfl⟩ := p.mem_image member
    exact Instr.plainWord_encode statement.instr
  rw [List.map_congr_left plain, List.map_id']

/-- **Assembling undoes disassembling.** The texts of words with defined tags, one per line, are
accepted; the program has no labels and its image is these words, the upper 24 bits cleared where
the operation carries no operand. For the image of a program this is the image itself. The listing
of the image of a program whose operands have 24 bits shows its instructions, each behind its
address. -/
theorem assemble_undoes_disassemble [Interpreter] (words : List UInt32) (p : Program) :
    ((∀ word ∈ words, (Opcode.ofTag? (Instr.wordTag word)).isSome = true) →
      ∀ text, Instr.Transcribes text words →
        ∃ q, assemble text = .ok q ∧ q.labels = [] ∧
          q.image.toList = words.map Instr.plainWord) ∧
    (p.Defined → ∀ text, Instr.Transcribes text p.image.toList →
      ∃ q, assemble text = .ok q ∧ q.labels = [] ∧ q.image = p.image) ∧
    (p.Defined →
      (∀ statement ∈ p.statements, Opcode.tagTakesOperand statement.instr.tag = true →
        -2 ^ 23 ≤ statement.instr.operand.toInt ∧
          statement.instr.operand.toInt ≤ 2 ^ 23 - 1) →
      Lines.raw (Text.ofString (Instr.disassemble p.image.toList)) =
        p.statements.toList.mapIdx fun k statement =>
          Text.ofString (Numeral.hexUpper 4 k ++ ": " ++ statement.instr.text)) := by
  refine ⟨fun defined text shows => ?_, fun defined text shows => ?_, fun defined bounds => ?_⟩
  · exact Core.assemble_transcript defined shows
  · obtain ⟨q, accepted, labels, image⟩ := Core.assemble_transcript defined.image shows
    rw [p.map_plainWord_image] at image
    exact ⟨q, accepted, labels, Array.toList_inj.mp image⟩
  · have shown : ∀ statement ∈ p.statements,
        Instr.describeWord statement.instr.encode = statement.instr.text := by
      intro statement member
      refine Instr.describeWord_encode (defined statement member) fun takes => ?_
      obtain ⟨lower, upper⟩ := bounds statement member takes
      simp only [Instr.operandMin, Instr.operandMax]
      omega
    have oneLine : ∀ word ∈ p.image.toList, '\n' ∉ (Instr.describeWord word).toList := by
      intro word member
      obtain ⟨statement, found, rfl⟩ := p.mem_image member
      rw [shown statement found]
      exact Instr.feed_not_mem_text (defined statement found)
    rw [Instr.raw_disassemble oneLine]
    refine List.ext_getElem (by simp [Program.image]) fun k left right => ?_
    have inside : k < p.statements.size := by simpa using right
    simp [Program.image, Instr.listingLine, shown _ (Array.getElem_mem inside)]

/-! ### The extreme operands -/

/-- Words with the least and the greatest operand, and a word with bits that are not used. -/
def extremeWords : List UInt32 :=
  [0x80000010, 0x7FFFFF30, 0xABCDEF01, 0x00000099]

attribute [local instance] Assembly.Expression.interpreter

/-- The program of these words. -/
def extremeProgram : Program :=
  .ofInstrs [.ofOpcode .push (-8388608), .ofOpcode .jmp 8388607, .ofOpcode .add 0,
    .ofOpcode .halt 0]

theorem assemble_undoes_disassemble_extremes :
    (∀ word ∈ extremeWords, (Opcode.ofTag? (Instr.wordTag word)).isSome = true) ∧
    extremeProgram.Defined ∧
    (∀ statement ∈ extremeProgram.statements,
      Opcode.tagTakesOperand statement.instr.tag = true →
        -2 ^ 23 ≤ statement.instr.operand.toInt ∧
          statement.instr.operand.toInt ≤ 2 ^ 23 - 1) ∧
    (∃ q, assemble (Text.ofString "PUSH -8388608\nJMP 8388607\nADD\nHALT\n") = .ok q ∧
      q.labels = [] ∧ q.image.toList = [0x80000010, 0x7FFFFF30, 0x00000001, 0x00000099]) ∧
    (∃ q, assemble (Text.ofString "PUSH -8388608\nJMP 8388607\nADD\nHALT") = .ok q ∧
      q.labels = [] ∧ q.image = extremeProgram.image) ∧
    Lines.raw (Text.ofString (Instr.disassemble extremeProgram.image.toList)) =
      ["0000: PUSH -8388608", "0001: JMP 8388607", "0002: ADD", "0003: HALT"].map
        Text.ofString := by
  have words : ∀ word ∈ extremeWords, (Opcode.ofTag? (Instr.wordTag word)).isSome = true :=
    List.all_eq_true.mp (by decide)
  have defined : extremeProgram.Defined := by
    unfold Program.Defined
    decide
  have bounds : ∀ statement ∈ extremeProgram.statements,
      Opcode.tagTakesOperand statement.instr.tag = true →
        -2 ^ 23 ≤ statement.instr.operand.toInt ∧
          statement.instr.operand.toInt ≤ 2 ^ 23 - 1 := by
    decide
  obtain ⟨ofWords, ofImage, listing⟩ := assemble_undoes_disassemble extremeWords extremeProgram
  refine ⟨words, defined, bounds, ?_, ?_, ?_⟩
  · exact ofWords words _ (.inr (by decide +kernel))
  · exact ofImage defined _ (.inl (by decide +kernel))
  · exact (listing defined bounds).trans (by decide +kernel)

end StackMachine
