import StackMachine.Opcode
import StackMachine.Text.Message

/-!
# The instruction catalog

What is told about every operation: its class, its mnemonic, whether it has an operand
and what it does.

## Main definitions

* `Opcode.description`: what an operation does, in words.
* `Catalog.entries`: all operations, class by class.
-/

namespace StackMachine

namespace Opcode

/-- The template of the description of an operation. -/
def descriptionTemplate : Opcode → String
  | nop => "no operation; only advances the program counter"
  | add => "pop b and a, push a+b"
  | sub => "pop b and a, push a-b"
  | mul => "pop b and a, push a*b"
  | div => "pop b and a, push the floor quotient a/b then the remainder a%b"
  | and => "pop b and a, push the bitwise AND"
  | or => "pop b and a, push the bitwise OR"
  | xor => "pop b and a, push the bitwise exclusive OR"
  | not => "pop a, push the bitwise complement"
  | cmp => "pop b, compare against a without removing it, set the flags from a-b"
  | inc => "pop a, push a+1"
  | dec => "pop a, push a-1"
  | push => "push the operand"
  | pop => "discard the top of the stack"
  | dup => "duplicate the top of the stack"
  | swap => "exchange the top two entries"
  | rot => "rotate the top three entries, moving the third to the top"
  | load => "pop an address, push the data memory cell at it"
  | store => "pop an address and a value, store the value at the address"
  | jmp => "jump to the operand address"
  | jz => "jump if the zero flag is set"
  | jnz => "jump if the zero flag is clear"
  | jl => "jump if the negative flag is set"
  | jg => "jump if neither the negative nor the zero flag is set"
  | jle => "jump if the negative or the zero flag is set"
  | jge => "jump if the negative flag is clear"
  | halt => "stop execution"

/-- What an operation does, in words. Like every message it is a template, here without
arguments. -/
def description (op : Opcode) : Text :=
  Message.render op.descriptionTemplate []

/-- What the operation of a tag does, in words. -/
def tagDescription (t : UInt8) : Text :=
  match ofTag? t with
  | some op => op.description
  | none => Message.render "unknown operation" []

end Opcode

/-- The operations class by class, those of a class in the order of their tags. -/
def Catalog.entries : List Opcode :=
  OpClass.all.flatMap fun k => Opcode.all.filter (·.opClass = k)

end StackMachine
