import StackMachine.Text.Glyph
import StackMachine.Text.Numeral

/-!
# Operation codes

The instruction set has 27 operations. Each has an eight-bit tag, a mnemonic, a class,
and either one operand or none. A tag without an operation is undefined.

## Main definitions

* `Opcode`, `Opcode.all`: the operations, in the order of their tags.
* `Opcode.tag`, `Opcode.ofTag?`: operations and tags.
* `Opcode.isDefined`, `Opcode.tagNames`: the tags that are defined, and their names.
* `Opcode.mnemonic`, `Opcode.ofMnemonic?`: operations and their names, in any letter case.
* `OpClass`, `Opcode.opClass`: what part of the machine an operation acts on.
* `Opcode.takesOperand`, `Opcode.isJump`, `Opcode.setsFlags`: further properties.
* `Opcode.entriesNeeded`, `Opcode.needsRoom`: what an operation asks of the stack.
-/

namespace StackMachine

/-- An operation of the machine. -/
inductive Opcode where
  | nop | add | sub | mul | div | and | or | xor | not | cmp | inc | dec
  | push | pop | dup | swap | rot
  | load | store
  | jmp | jz | jnz | jl | jg | jle | jge
  | halt
  deriving DecidableEq

/-- The part of the machine that an operation acts on. -/
inductive OpClass where
  | stack | arithmetic | logical | memory | jump | system
  deriving DecidableEq

namespace OpClass

/-- The classes in their listing order. -/
def all : List OpClass :=
  [stack, arithmetic, logical, memory, jump, system]

/-- The place of a class in the listing order. -/
def index : OpClass → Nat
  | stack => 0
  | arithmetic => 1
  | logical => 2
  | memory => 3
  | jump => 4
  | system => 5

/-- The name of a class. -/
def name : OpClass → String
  | stack => "stack"
  | arithmetic => "arithmetic"
  | logical => "logical"
  | memory => "memory"
  | jump => "jump"
  | system => "system"

/-- The name of the class with a given index; any other number shows as itself. -/
def nameAt (n : Int) : String :=
  match all.find? fun k => (k.index : Int) = n with
  | some k => k.name
  | none => "CodeClass(" ++ Numeral.decimal n ++ ")"

end OpClass

namespace Opcode

/-- All operations, in the order of their tags. -/
def all : List Opcode :=
  [nop, add, sub, mul, div, and, or, xor, not, cmp, inc, dec,
   push, pop, dup, swap, rot,
   load, store,
   jmp, jz, jnz, jl, jg, jle, jge,
   halt]

/-- The tag of an operation. -/
def tag : Opcode → UInt8
  | nop => 0x00
  | add => 0x01
  | sub => 0x02
  | mul => 0x03
  | div => 0x04
  | and => 0x05
  | or => 0x06
  | xor => 0x07
  | not => 0x08
  | cmp => 0x09
  | inc => 0x0A
  | dec => 0x0B
  | push => 0x10
  | pop => 0x11
  | dup => 0x12
  | swap => 0x13
  | rot => 0x14
  | load => 0x20
  | store => 0x21
  | jmp => 0x30
  | jz => 0x31
  | jnz => 0x32
  | jl => 0x33
  | jg => 0x34
  | jle => 0x35
  | jge => 0x36
  | halt => 0x99

/-- The operation with a given tag. -/
def ofTag? (t : UInt8) : Option Opcode :=
  all.find? fun op => op.tag = t

/-- Every operation is found by its tag. -/
theorem ofTag?_tag (op : Opcode) : ofTag? op.tag = some op := by
  cases op <;> rfl

theorem ofTag?_eq_some_iff {t : UInt8} {op : Opcode} : ofTag? t = some op ↔ op.tag = t := by
  constructor
  · intro found
    simpa using List.find?_some found
  · rintro rfl
    exact ofTag?_tag op

/-- Whether a tag is defined, by a list of the tags that are. -/
def isDefined (t : UInt8) : Bool :=
  [0x00, 0x01, 0x02, 0x03, 0x04, 0x05, 0x06, 0x07, 0x08, 0x09, 0x0A, 0x0B,
   0x10, 0x11, 0x12, 0x13, 0x14,
   0x20, 0x21,
   0x30, 0x31, 0x32, 0x33, 0x34, 0x35, 0x36,
   0x99].contains t

/-- The tags that are defined are those of operations. -/
theorem isDefined_eq (t : UInt8) : isDefined t = (ofTag? t).isSome := by
  rw [Bool.eq_iff_iff, Option.isSome_iff_exists]
  constructor
  · intro defined
    have listed : t ∈ all.map tag := List.contains_iff_mem.mp defined
    obtain ⟨op, -, same⟩ := List.mem_map.mp listed
    exact ⟨op, ofTag?_eq_some_iff.mpr same⟩
  · rintro ⟨op, found⟩
    rw [← ofTag?_eq_some_iff.mp found]
    cases op <;> rfl

/-- The name of an operation. -/
def mnemonic : Opcode → String
  | nop => "NOP"
  | add => "ADD"
  | sub => "SUB"
  | mul => "MUL"
  | div => "DIV"
  | and => "AND"
  | or => "OR"
  | xor => "XOR"
  | not => "NOT"
  | cmp => "CMP"
  | inc => "INC"
  | dec => "DEC"
  | push => "PUSH"
  | pop => "POP"
  | dup => "DUP"
  | swap => "SWAP"
  | rot => "ROT"
  | load => "LOAD"
  | store => "STORE"
  | jmp => "JMP"
  | jz => "JZ"
  | jnz => "JNZ"
  | jl => "JL"
  | jg => "JG"
  | jle => "JLE"
  | jge => "JGE"
  | halt => "HALT"

/-- The capital of a glyph, as far as mnemonics are concerned: the ASCII letters, and the two
other letters whose capital is an ASCII letter, dotless i and long s. -/
def capital : Glyph → Glyph
  | .scalar c =>
    if c = '\u0131' then .scalar 'I'
    else if c = '\u017F' then .scalar 'S'
    else .scalar c.toUpper
  | .stray b => .stray b

/-- The operation with a given name, in any letter case. -/
def ofMnemonic? (name : Text) : Option Opcode :=
  all.find? fun op => Text.ofString op.mnemonic = name.map capital

/-- Whether an operation carries an operand. -/
def takesOperand : Opcode → Bool
  | push | jmp | jz | jnz | jl | jg | jle | jge => true
  | _ => false

/-- The class of an operation. -/
def opClass : Opcode → OpClass
  | push | pop | dup | swap | rot => .stack
  | add | sub | mul | div | inc | dec => .arithmetic
  | and | or | xor | not | cmp => .logical
  | load | store => .memory
  | jmp | jz | jnz | jl | jg | jle | jge => .jump
  | nop | halt => .system

/-- Whether an operation may set the instruction pointer to its operand. -/
def isJump (op : Opcode) : Bool :=
  op.opClass = .jump

/-- Whether an operation recomputes the flags. -/
def setsFlags (op : Opcode) : Bool :=
  op.opClass = .arithmetic || op.opClass = .logical

/-- The number of entries that must be on the stack. -/
def entriesNeeded : Opcode → Nat
  | pop | dup | not | inc | dec | load => 1
  | swap | add | sub | mul | div | and | or | xor | cmp | store => 2
  | rot => 3
  | nop | push | jmp | jz | jnz | jl | jg | jle | jge | halt => 0

/-- Whether the stack must have room for one more entry. -/
def needsRoom : Opcode → Bool
  | push | dup => true
  | _ => false

/-! ### Tags, defined or not -/

/-- The names of tags, in runs of tags that follow one another, behind the first tag of each. -/
def tagNames : List (UInt8 × List String) :=
  [(0x00, ["NOP", "ADD", "SUB", "MUL", "DIV", "AND", "OR", "XOR", "NOT", "CMP", "INC", "DEC"]),
   (0x10, ["PUSH", "POP", "DUP", "SWAP", "ROT"]),
   (0x20, ["LOAD", "STORE"]),
   (0x30, ["JMP", "JZ", "JNZ", "JL", "JG", "JLE", "JGE"]),
   (0x99, ["HALT"])]

/-- The name of a tag, if it is in one of the runs. -/
def nameOf? (t : UInt8) : Option String :=
  tagNames.findSome? fun (first, names) =>
    if first ≤ t then names[t.toNat - first.toNat]? else none

/-- The names of tags are the mnemonics of their operations. -/
theorem nameOf?_eq (t : UInt8) : nameOf? t = (ofTag? t).map mnemonic := by
  have all : ∀ n : Fin 256, nameOf? (.ofNat n) = (ofTag? (.ofNat n)).map mnemonic := by
    decide +kernel
  simpa using all ⟨t.toNat, t.toNat_lt⟩

/-- The name shown for a tag: its name in the table, or the number of a tag that has none. -/
def tagName (t : UInt8) : String :=
  (nameOf? t).getD ("OpCode(" ++ Numeral.decimal t.toNat ++ ")")

/-- Whether a tag carries an operand; an undefined tag carries none. -/
def tagTakesOperand (t : UInt8) : Bool :=
  (ofTag? t).any takesOperand

@[simp] theorem tagName_tag (op : Opcode) : tagName op.tag = op.mnemonic := by
  simp [tagName, nameOf?_eq, ofTag?_tag]

@[simp] theorem tagTakesOperand_tag (op : Opcode) : tagTakesOperand op.tag = op.takesOperand := by
  simp [tagTakesOperand, ofTag?_tag]

/-- The class of a tag; an undefined tag counts as a system operation. -/
def tagClass (t : UInt8) : OpClass :=
  ((ofTag? t).map opClass).getD .system

end Opcode

end StackMachine
