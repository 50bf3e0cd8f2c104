import StackMachine.Opcode

/-!
# Instructions and instruction words

An instruction is a tag with a 32-bit operand. In an instruction word the tag takes
the low eight bits and the operand the upper 24, which are sign extended when the word
is decoded; an operation without operand leaves them zero when it is encoded and
ignores them when it is decoded.

## Main definitions

* `Instr`: an instruction, its tag defined or not.
* `Instr.encode`, `Instr.decode?`: instructions and words.
* `Instr.text`, `Instr.describeWord`: the assembly text of an instruction and of a word.
* `Instr.disassemble`: the listing of an image.
-/

namespace StackMachine

/-- An instruction: an operation tag and an operand, which counts only if the operation
carries one. -/
structure Instr where
  /-- The operation tag. -/
  tag : UInt8
  /-- The operand. -/
  operand : Int32 := 0
  deriving DecidableEq

namespace Instr

/-- The number of bits of an operand in an instruction word. -/
def operandBits : Nat := 24

/-- The least operand. -/
def operandMin : Int := -0x800000

/-- The greatest operand written in decimal. -/
def operandMax : Int := 0x7FFFFF

/-- The greatest operand written as a bit pattern. -/
def patternMax : Int := 0xFFFFFF

/-- The signed value of the low 24 bits of an integer. -/
def signExtend (n : Int) : Int :=
  Int.bmod n 0x1000000

theorem signExtend_bounds (n : Int) : operandMin ≤ signExtend n ∧ signExtend n ≤ operandMax := by
  have lower := Int.le_bmod (x := n) (m := 0x1000000) (by decide)
  have upper := Int.bmod_lt (x := n) (m := 0x1000000) (by decide)
  simp only [signExtend, operandMin, operandMax]
  omega

/-- The instruction of an operation. -/
def ofOpcode (op : Opcode) (operand : Int32) : Instr :=
  ⟨op.tag, operand⟩

/-- The instruction word: the low 24 bits of the operand above the tag. -/
def encode (i : Instr) : UInt32 :=
  if Opcode.tagTakesOperand i.tag then
    UInt32.ofNat (i.tag.toNat + 256 * (i.operand.toInt % 0x1000000).toNat)
  else UInt32.ofNat i.tag.toNat

/-- The tag of an instruction word. -/
def wordTag (word : UInt32) : UInt8 :=
  UInt8.ofNat (word.toNat % 256)

/-- The signed operand field of an instruction word. -/
def wordOperand (word : UInt32) : Int32 :=
  Int32.ofInt (signExtend (word.toNat / 256))

/-- The instruction of a word, unless its tag is undefined. -/
def decode? (word : UInt32) : Option Instr :=
  if Opcode.isDefined (wordTag word) then
    some ⟨wordTag word, if Opcode.tagTakesOperand (wordTag word) then wordOperand word else 0⟩
  else none

/-- The instruction of a word is the one of the operation with its tag. -/
theorem decode?_eq (word : UInt32) :
    decode? word = (Opcode.ofTag? (wordTag word)).map fun op =>
      ofOpcode op (if op.takesOperand then wordOperand word else 0) := by
  rw [decode?, Opcode.isDefined_eq, Opcode.tagTakesOperand]
  cases found : Opcode.ofTag? (wordTag word) with
  | none => rfl
  | some op =>
    have tag : op.tag = wordTag word := Opcode.ofTag?_eq_some_iff.mp found
    simp [ofOpcode, tag]

/-- A word that has an instruction has one of an operation. -/
theorem exists_of_decode? {word : UInt32} {i : Instr} (h : decode? word = some i) :
    ∃ op, Opcode.ofTag? (wordTag word) = some op ∧
      ofOpcode op (if op.takesOperand then wordOperand word else 0) = i :=
  Option.map_eq_some_iff.mp (decode?_eq word ▸ h)

/-- The assembly text of an instruction. -/
def text (i : Instr) : String :=
  if Opcode.tagTakesOperand i.tag then
    Opcode.tagName i.tag ++ " " ++ Numeral.decimal i.operand.toInt
  else Opcode.tagName i.tag

/-- The assembly text of a word; a word with an undefined tag shows as raw data. -/
def describeWord (word : UInt32) : String :=
  match decode? word with
  | some i => i.text
  | none => ".word 0x" ++ Numeral.hex 8 word.toNat

/-- One line per word from address `address` on: the address and the text of the word. -/
def disassembleFrom (address : Nat) : List UInt32 → List String
  | [] => []
  | word :: rest =>
    (Numeral.hexUpper 4 address ++ ": " ++ describeWord word ++ "\n")
      :: disassembleFrom (address + 1) rest

/-- The listing of an image: an address and a text for every word. -/
def disassemble (words : List UInt32) : String :=
  String.join (disassembleFrom 0 words)

end Instr

end StackMachine
