import Mathlib.Data.Int.ModEq
import StackMachine.Fault

/-!
# Instructions and their words

What is lost between an instruction and its word. Encoding keeps the tag and the low 24
bits of an operand; decoding reads these bits with their sign. So an instruction comes
back from its word exactly if its operand has 24 bits, or is zero where the operation
carries none, and a word comes back from its instruction but for bits that the operation
does not use.

## Main definitions

* `Instr.Encodable`: the instructions that a word can hold.
* `Instr.plainWord`: a word without the bits that its operation does not use.

## Main results

* `Instr.decode?_encode`: decoding an encoded instruction.
* `Instr.decode?_encode_eq_some_iff`: which instructions come back from their words.
* `Instr.encode_of_decode?`: encoding a decoded word.
* `Instr.words_hold_instructions`: which words have an instruction, which one it is, and what is
  lost on the way to a word and back.
-/

namespace StackMachine

namespace Instr

variable {i : Instr} {op : Opcode} {word : UInt32}

/-! ### Operand fields -/

theorem toInt_ofInt_signExtend (n : Int) : (Int32.ofInt (signExtend n)).toInt = signExtend n := by
  obtain ⟨lower, upper⟩ := signExtend_bounds n
  simp only [operandMin, operandMax] at lower upper
  exact Int32.toInt_ofInt_of_le (by omega) (by omega)

theorem toInt_wordOperand (word : UInt32) :
    (wordOperand word).toInt = signExtend (word.toNat / 256) :=
  toInt_ofInt_signExtend _

/-- The operand of a word has 24 bits. -/
theorem wordOperand_bounds (word : UInt32) :
    operandMin ≤ (wordOperand word).toInt ∧ (wordOperand word).toInt ≤ operandMax := by
  rw [toInt_wordOperand]
  exact signExtend_bounds _

theorem signExtend_eq_self_iff (n : Int) :
    signExtend n = n ↔ operandMin ≤ n ∧ n ≤ operandMax := by
  constructor
  · intro same
    rw [← same]
    exact signExtend_bounds n
  · rintro ⟨lower, upper⟩
    simp only [operandMin, operandMax] at lower upper
    exact Int.bmod_eq_of_le (by omega) (by omega)

theorem signExtend_emod (n : Int) : signExtend (n % 0x1000000) = signExtend n :=
  Int.emod_bmod n 0x1000000

theorem signExtend_modEq (n : Int) : signExtend n ≡ n [ZMOD 2 ^ 24] :=
  Int.bmod_emod

/-- The sign extension is the only number of 24 bits that has the same low bits. -/
theorem signExtend_eq_iff {m n : Int} :
    signExtend m = n ↔ operandMin ≤ n ∧ n ≤ operandMax ∧ n ≡ m [ZMOD 2 ^ 24] := by
  constructor
  · rintro rfl
    exact ⟨(signExtend_bounds m).1, (signExtend_bounds m).2, signExtend_modEq m⟩
  · rintro ⟨lower, upper, same⟩
    calc signExtend m = signExtend (m % 0x1000000) := (signExtend_emod m).symm
      _ = signExtend (n % 0x1000000) := congrArg signExtend same.symm
      _ = signExtend n := signExtend_emod n
      _ = n := (signExtend_eq_self_iff n).mpr ⟨lower, upper⟩

/-! ### Encoding -/

theorem encode_toNat (i : Instr) :
    i.encode.toNat =
      if Opcode.tagTakesOperand i.tag then
        i.tag.toNat + 256 * (i.operand.toInt % 0x1000000).toNat
      else i.tag.toNat := by
  have tag := i.tag.toNat_lt
  have field : (i.operand.toInt % 0x1000000).toNat < 0x1000000 := by omega
  unfold encode
  split
  · exact UInt32.toNat_ofNat_of_lt' (by simp [UInt32.size]; omega)
  · exact UInt32.toNat_ofNat_of_lt' (by simp [UInt32.size]; omega)

/-- A word keeps the tag of its instruction. -/
theorem wordTag_encode (i : Instr) : wordTag i.encode = i.tag := by
  have tag := i.tag.toNat_lt
  have low : i.encode.toNat % 256 = i.tag.toNat := by
    rw [encode_toNat]
    split <;> omega
  rw [wordTag, low, UInt8.ofNat_toNat]

/-- A word keeps the low 24 bits of the operand of its instruction. -/
theorem wordOperand_encode (takes : Opcode.tagTakesOperand i.tag = true) :
    wordOperand i.encode = Int32.ofInt (signExtend i.operand.toInt) := by
  have tag := i.tag.toNat_lt
  have word := encode_toNat i
  rw [if_pos takes] at word
  have field : (i.encode.toNat : Int) / 256 = i.operand.toInt % 0x1000000 := by omega
  rw [wordOperand, field, signExtend_emod]

/-! ### Instructions and back -/

theorem tagTakesOperand_eq (defined : Opcode.ofTag? i.tag = some op) :
    Opcode.tagTakesOperand i.tag = op.takesOperand := by
  simp [Opcode.tagTakesOperand, defined]

/-- Decoding an encoded instruction reads its operand from 24 bits, or leaves it out. -/
theorem decode?_encode (defined : Opcode.ofTag? i.tag = some op) :
    decode? i.encode =
      some ⟨i.tag, if op.takesOperand then Int32.ofInt (signExtend i.operand.toInt) else 0⟩ := by
  have tag : op.tag = i.tag := Opcode.ofTag?_eq_some_iff.mp defined
  rw [decode?_eq, wordTag_encode, defined, Option.map_some, ofOpcode, tag]
  cases takes : op.takesOperand with
  | false => simp
  | true => simp [wordOperand_encode ((tagTakesOperand_eq defined).trans takes)]

/-- An instruction that a word can hold: its operand has 24 bits, or is zero where the operation
carries none. -/
def Encodable (i : Instr) : Prop :=
  if Opcode.tagTakesOperand i.tag then
    operandMin ≤ i.operand.toInt ∧ i.operand.toInt ≤ operandMax
  else i.operand = 0

/-- An instruction comes back from its word exactly if the word can hold it. -/
theorem decode?_encode_eq_some_iff (defined : (Opcode.ofTag? i.tag).isSome = true) :
    decode? i.encode = some i ↔ i.Encodable := by
  obtain ⟨op, found⟩ := Option.isSome_iff_exists.mp defined
  rw [decode?_encode found, Encodable, tagTakesOperand_eq found]
  obtain ⟨tag, operand⟩ := i
  cases op.takesOperand with
  | false => simp [eq_comm]
  | true =>
    simp only [if_true, Option.some.injEq, Instr.mk.injEq, true_and]
    rw [← signExtend_eq_self_iff, ← Int32.toInt_inj, toInt_ofInt_signExtend]

/-! ### Words and back -/

theorem decode_eq_ok_iff : decode word = .ok i ↔ decode? word = some i := by
  unfold decode
  cases decode? word <;> simp

/-- Only a word with an undefined tag has no instruction. -/
theorem decode_eq_error_iff {cause : FaultCause} :
    decode word = .error cause ↔
      Opcode.ofTag? (wordTag word) = none ∧ cause = .badOpcode word := by
  rw [decode, decode?_eq]
  cases Opcode.ofTag? (wordTag word) with
  | none =>
    constructor
    · intro failed
      exact ⟨rfl, (Except.error.inj failed).symm⟩
    · rintro ⟨-, rfl⟩
      rfl
  | some op =>
    constructor
    · intro failed
      cases failed
    · rintro ⟨undefined, -⟩
      cases undefined

/-- The instruction of a word has its tag, which is defined, and its operand if that counts. -/
theorem eq_of_decode? (h : decode? word = some i) :
    i.tag = wordTag word ∧ (Opcode.ofTag? i.tag).isSome = true ∧
      i.operand = if Opcode.tagTakesOperand i.tag then wordOperand word else 0 := by
  obtain ⟨op, found, rfl⟩ := exists_of_decode? h
  have tag : op.tag = wordTag word := Opcode.ofTag?_eq_some_iff.mp found
  simp [ofOpcode, tag, found, Opcode.tagTakesOperand]

/-- An operand that counts is the only number of 24 bits that agrees with the upper bits of its
word. -/
theorem operand_eq_iff_of_decode? (h : decode? word = some i)
    (takes : Opcode.tagTakesOperand i.tag = true) (n : Int) :
    i.operand.toInt = n ↔ operandMin ≤ n ∧ n ≤ operandMax ∧ n ≡ word.toNat / 256 [ZMOD 2 ^ 24] := by
  obtain ⟨-, -, operand⟩ := eq_of_decode? h
  rw [operand, if_pos takes, toInt_wordOperand]
  exact signExtend_eq_iff

/-- A word without the bits that its operation does not use. -/
def plainWord (word : UInt32) : UInt32 :=
  if Opcode.tagTakesOperand (wordTag word) then word else UInt32.ofNat (word.toNat % 256)

theorem toNat_wordTag (word : UInt32) : (wordTag word).toNat = word.toNat % 256 :=
  UInt8.toNat_ofNat_of_lt' (by simp [UInt8.size]; omega)

/-- A word comes back from its instruction but for bits that the operation does not use. -/
theorem encode_of_decode? (h : decode? word = some i) : i.encode = plainWord word := by
  obtain ⟨op, found, rfl⟩ := exists_of_decode? h
  have tag : op.tag = wordTag word := Opcode.ofTag?_eq_some_iff.mp found
  have takes : Opcode.tagTakesOperand (wordTag word) = op.takesOperand := by
    simp [Opcode.tagTakesOperand, found]
  refine UInt32.toNat_inj.mp ?_
  rw [encode_toNat, plainWord, ofOpcode]
  simp only [tag, takes, toNat_wordTag]
  have size := word.toNat_lt
  cases op.takesOperand with
  | false =>
    have low : word.toNat % 256 < UInt32.size := by
      simp only [UInt32.size]
      omega
    simp [UInt32.toNat_ofNat_of_lt' low]
  | true =>
    -- the sign of the field is lost again
    have field : signExtend (word.toNat / 256) % 0x1000000 = word.toNat / 256 := by
      have modulus : signExtend (word.toNat / 256) % 0x1000000 =
          (word.toNat / 256 : Int) % 0x1000000 := Int.bmod_emod
      omega
    simp only [if_true, toInt_wordOperand, field]
    omega

/-- The word of an instruction has no bits that its operation does not use. -/
theorem plainWord_encode (i : Instr) : plainWord i.encode = i.encode := by
  unfold plainWord
  rw [wordTag_encode]
  split
  · rfl
  · rename_i takesNone
    have tag := i.tag.toNat_lt
    refine UInt32.toNat_inj.mp ?_
    rw [encode_toNat, if_neg takesNone]
    simp

/-! ### Both ways -/

/-- The word of the instruction of a word is the same word. -/
theorem encode_of_decode?_of_takes (h : decode? word = some i)
    (takes : Opcode.tagTakesOperand i.tag = true) : i.encode = word := by
  obtain ⟨tag, -, -⟩ := eq_of_decode? h
  rw [encode_of_decode? h, plainWord, ← tag, if_pos takes]

/-- The word of an instruction without operand is its tag. -/
theorem toNat_encode_of_takesNone (takesNone : Opcode.tagTakesOperand i.tag = false) :
    i.encode.toNat = i.tag.toNat := by
  rw [encode_toNat, takesNone]
  rfl

/-- An instruction with a defined tag comes back with its tag and the low bits of its operand, and
as it was exactly if a word can hold it. -/
theorem exists_decode_encode (defined : (Opcode.ofTag? i.tag).isSome = true) :
    ∃ j : Instr, decode i.encode = .ok j ∧ j.tag = i.tag ∧
      (Opcode.tagTakesOperand i.tag = true →
        j.operand.toInt ≡ i.operand.toInt [ZMOD 2 ^ 24]) ∧
      (Opcode.tagTakesOperand i.tag = false → j.operand = 0) ∧ (j = i ↔ i.Encodable) := by
  obtain ⟨op, found⟩ := Option.isSome_iff_exists.mp defined
  have read := decode?_encode found
  have same := decode?_encode_eq_some_iff defined
  rw [← tagTakesOperand_eq found] at read
  rw [read, Option.some.injEq] at same
  refine ⟨_, decode_eq_ok_iff.mpr read, rfl, fun takes => ?_, fun takesNone => ?_, same⟩
  · rw [if_pos takes, toInt_ofInt_signExtend]
    exact signExtend_modEq _
  · rw [takesNone]
    rfl

/-- Instructions that words can hold have different words. -/
theorem eq_of_encode_eq {j : Instr} (definedI : (Opcode.ofTag? i.tag).isSome = true)
    (definedJ : (Opcode.ofTag? j.tag).isSome = true) (holdsI : i.Encodable) (holdsJ : j.Encodable)
    (same : i.encode = j.encode) : i = j := by
  have readI := (decode?_encode_eq_some_iff definedI).mpr holdsI
  have readJ := (decode?_encode_eq_some_iff definedJ).mpr holdsJ
  rw [same, readJ] at readI
  exact (Option.some.inj readI).symm

/-- **Words hold instructions.** A word has no instruction, for the cause of a bad opcode, exactly
if its low byte is an undefined tag. Otherwise the word of its instruction is the word itself, or
its low byte if the operation carries no operand, and the operand is the only number of 24 bits
that agrees with the upper bits of the word, or zero. Every instruction with a defined tag has a
word that is decoded to an instruction with the same tag and an operand that agrees in its low 24
bits, or is zero; it is the same instruction exactly if a word can hold it. So two such
instructions have different words. -/
theorem words_hold_instructions :
    (∀ word cause, decode word = .error cause ↔
      Opcode.ofTag? (wordTag word) = none ∧ cause = .badOpcode word) ∧
    (∀ word i, decode word = .ok i → i.tag.toNat = word.toNat % 256 ∧
      (Opcode.tagTakesOperand i.tag = true → i.encode = word ∧ ∀ n : Int, i.operand.toInt = n ↔
        -2 ^ 23 ≤ n ∧ n ≤ 2 ^ 23 - 1 ∧ n ≡ word.toNat / 256 [ZMOD 2 ^ 24]) ∧
      (Opcode.tagTakesOperand i.tag = false →
        i.encode.toNat = word.toNat % 256 ∧ i.operand = 0)) ∧
    (∀ i : Instr, (Opcode.ofTag? i.tag).isSome = true → ∃ j : Instr,
      decode i.encode = .ok j ∧ j.tag = i.tag ∧
      (Opcode.tagTakesOperand i.tag = true →
        j.operand.toInt ≡ i.operand.toInt [ZMOD 2 ^ 24]) ∧
      (Opcode.tagTakesOperand i.tag = false → j.operand = 0) ∧ (j = i ↔ i.Encodable)) ∧
    ∀ i j : Instr, (Opcode.ofTag? i.tag).isSome = true → (Opcode.ofTag? j.tag).isSome = true →
      i.Encodable → j.Encodable → i.encode = j.encode → i = j := by
  refine ⟨fun _ _ => decode_eq_error_iff, ?_, fun _ => exists_decode_encode,
    fun _ _ => eq_of_encode_eq⟩
  intro word i decoded
  rw [decode_eq_ok_iff] at decoded
  obtain ⟨tag, -, operand⟩ := eq_of_decode? decoded
  have low : i.tag.toNat = word.toNat % 256 := tag ▸ toNat_wordTag word
  refine ⟨low, fun takes => ⟨encode_of_decode?_of_takes decoded takes,
    operand_eq_iff_of_decode? decoded takes⟩, fun takesNone => ⟨?_, ?_⟩⟩
  · rw [toNat_encode_of_takesNone takesNone, low]
  · rw [operand, takesNone]
    rfl

/-- The word of a push has all bits of a negative operand, that of an addition none of its operand,
and a word with the tag 0x77 has no instruction. -/
theorem words_hold_instructions_negative :
    decode 0x12345677 = .error (.badOpcode 0x12345677) ∧
    decode 0xFFFFFF10 = .ok ⟨0x10, -1⟩ ∧ encode ⟨0x10, -1⟩ = 0xFFFFFF10 ∧
    (∃ j : Instr, decode (encode ⟨0x01, 7⟩) = .ok j ∧ j.operand = 0 ∧ j ≠ ⟨0x01, 7⟩) := by
  obtain ⟨undefined, back, kept, -⟩ := words_hold_instructions
  have decoded : decode 0xFFFFFF10 = .ok ⟨0x10, -1⟩ := decode_eq_ok_iff.mpr (by decide +kernel)
  obtain ⟨-, word, -⟩ := back 0xFFFFFF10 ⟨0x10, -1⟩ decoded
  obtain ⟨j, read, -, -, zero, same⟩ := kept ⟨0x01, 7⟩ (by decide)
  refine ⟨(undefined _ _).mpr ⟨by decide, rfl⟩, decoded, (word (by decide)).1, j, read,
    zero (by decide), fun h => ?_⟩
  have zero : (7 : Int32) = 0 := same.mp h
  exact absurd zero (by decide)

end Instr

end StackMachine
