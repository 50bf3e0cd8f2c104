import StackMachine.Image
import StackMachine.Proofs.Isolation

/-!
# Image files keep programs

Writing instruction words to a file and reading them are inverse to each other: every list
of words is read back from its file, every file that can be read is the file of what is
read, and only a file whose last word is cut short cannot be read. A machine takes nothing
but the words from a program. So a session that is given the words of an image file goes
on like one that is given the program itself, whatever is done with both.

## Main definitions

* `Session.SameMachine`: two sessions have the same machine and the same to start it with.

## Main results

* `Image.read?_eq_some_iff`, `Image.read?_eq_none_iff`: what is read from a file.
* `Session.SameMachine.apply`, `Session.SameMachine.uses`: sessions with the same machine stay so.
* `image_files_keep_programs`: a program and its image file cannot be told apart by a machine.
-/

namespace StackMachine

open Assembly (Interpreter)

namespace Image

/-! ### Words and bytes -/

theorem toNat_wordOf (a b c d : UInt8) :
    (wordOf a b c d).toNat =
      a.toNat + 0x100 * b.toNat + 0x10000 * c.toNat + 0x1000000 * d.toNat := by
  have ha := a.toNat_lt
  have hb := b.toNat_lt
  have hc := c.toNat_lt
  have hd := d.toNat_lt
  exact UInt32.toNat_ofNat_of_lt' (by simp only [UInt32.size]; omega)

/-- A word is put together from its bytes. -/
theorem wordOf_bytes (word : UInt32) :
    wordOf (UInt8.ofNat word.toNat) (UInt8.ofNat (word.toNat / 0x100))
      (UInt8.ofNat (word.toNat / 0x10000)) (UInt8.ofNat (word.toNat / 0x1000000)) = word := by
  have size := word.toNat_lt
  refine UInt32.toNat_inj.mp ?_
  rw [toNat_wordOf]
  simp only [UInt8.toNat_ofNat']
  omega

/-- A word has the bytes that it is put together from. -/
theorem wordBytes_wordOf (a b c d : UInt8) : wordBytes (wordOf a b c d) = [a, b, c, d] := by
  have ha := a.toNat_lt
  have hb := b.toNat_lt
  have hc := c.toNat_lt
  have hd := d.toNat_lt
  simp only [wordBytes, toNat_wordOf, List.cons.injEq, and_true, ← UInt8.toNat_inj,
    UInt8.toNat_ofNat']
  omega

/-! ### Files -/

theorem write_cons (word : UInt32) (rest : List UInt32) :
    write (word :: rest) = wordBytes word ++ write rest :=
  rfl

/-- What is written is read back. -/
theorem read?_write (words : List UInt32) : read? (write words) = some words := by
  induction words with
  | nil => rfl
  | cons word rest ih =>
    rw [write_cons, wordBytes]
    simp only [List.cons_append, List.nil_append, read?, ih, Option.map_some, wordOf_bytes]

/-- What is read was written. -/
theorem write_of_read? {bytes : List UInt8} {words : List UInt32} (h : read? bytes = some words) :
    write words = bytes := by
  fun_induction read? bytes generalizing words with
  | case1 =>
    cases h
    rfl
  | case2 a b c d rest ih =>
    obtain ⟨others, read, rfl⟩ := Option.map_eq_some_iff.mp h
    rw [write_cons, wordBytes_wordOf, ih read]
    rfl
  | case3 => cases h

/-- The words that are read from a file are the ones whose file it is. -/
theorem read?_eq_some_iff {bytes : List UInt8} {words : List UInt32} :
    read? bytes = some words ↔ bytes = write words := by
  constructor
  · exact fun read => (write_of_read? read).symm
  · rintro rfl
    exact read?_write words

/-- A file cannot be read exactly if its last word is cut short. -/
theorem read?_eq_none_iff (bytes : List UInt8) : read? bytes = none ↔ ¬ 4 ∣ bytes.length := by
  fun_induction read? bytes with
  | case1 => simp
  | case2 a b c d rest ih =>
    rw [Option.map_eq_none_iff, ih]
    simp only [List.length_cons]
    omega
  | case3 bytes filled short =>
    simp only [true_iff]
    match bytes, filled, short with
    | [], filled, _ => exact absurd rfl filled
    | [_], _, _ | [_, _], _, _ | [_, _, _], _, _ => simp
    | a :: b :: c :: d :: rest, _, short => exact absurd rfl (short a b c d rest)

end Image

namespace Session

/-! ### Sessions with the same machine -/

/-- Two sessions have the same machine, and the same words and data to start it with. -/
structure SameMachine (a b : Session) : Prop where
  machine : a.machine = b.machine
  image : a.image = b.image
  data : a.data = b.data
  dataStart : a.dataStart = b.dataStart

variable {a b : Session}

theorem SameMachine.reset (h : SameMachine a b) : SameMachine a.reset b.reset where
  machine := by
    show a.machine.load a.image a.data a.dataStart = b.machine.load b.image b.data b.dataStart
    rw [h.machine, h.image, h.data, h.dataStart]
  image := h.image
  data := h.data
  dataStart := h.dataStart

theorem SameMachine.load (h : SameMachine a b) (p : Program) :
    SameMachine (a.load p) (b.load p) :=
  SameMachine.reset ⟨h.machine, rfl, h.data, h.dataStart⟩

variable [Interpreter]

theorem SameMachine.compile (h : SameMachine a b) (source : Text) :
    SameMachine ((Call.compile source).apply a) ((Call.compile source).apply b) := by
  have assembler : a.assembler = b.assembler := by
    rw [Session.assembler, Session.assembler, defines, defines, h.machine]
  simp only [Call.apply, Session.compile, assembler]
  cases (b.assembler.parse source).2 with
  | error error => exact h
  | ok p => exact h.load p

/-- Sessions with the same machine have the same machine after any use of both, whatever programs
they hold. -/
theorem SameMachine.apply (h : SameMachine a b) (call : Call) :
    SameMachine (call.apply a) (call.apply b) := by
  cases call with
  | compile source => exact h.compile source
  | loadWords words => exact SameMachine.reset ⟨h.machine, rfl, h.data, h.dataStart⟩
  | setData values start => exact ⟨h.machine, h.image, rfl, rfl⟩
  | reset => exact h.reset
  | step => exact ⟨congrArg Machine.step h.machine, h.image, h.data, h.dataStart⟩
  | run budget => exact ⟨congrArg (Machine.run · budget) h.machine, h.image, h.data, h.dataStart⟩
  | poke address value =>
    simp only [Call.apply, Session.poke, h.machine]
    cases b.machine.poke address value with
    | error cause => exact h
    | ok next => exact ⟨rfl, h.image, h.data, h.dataStart⟩

theorem SameMachine.uses (h : SameMachine a b) (calls : List Call) :
    SameMachine (a.uses calls) (b.uses calls) := by
  induction calls generalizing a b with
  | nil => exact h
  | cons call rest ih => exact ih (h.apply call)

omit [Interpreter] in
/-- Loading a program and loading its words put machines of one build into the same state. -/
theorem sameMachine_load (build : a.machine.SameBuild b.machine) (data : a.data = b.data)
    (dataStart : a.dataStart = b.dataStart) (p : Program) :
    SameMachine (a.loadWords (some p.image)) (b.load p) where
  machine := by
    show a.machine.load (some p.image) a.data a.dataStart =
      b.machine.load (some p.image) b.data b.dataStart
    rw [build.load_eq, data, dataStart]
  image := rfl
  data := data
  dataStart := dataStart

end Session

/-- **Image files keep programs.** Words that are written are read back; a file cannot be read
exactly if its length is no multiple of four, and the words of any other file are the ones whose
file it is. So for every program, assembled from whatever source text, the words of its file can be
read, and a session of any sizes and with any initial data that loads them goes through the same
snapshots as one that loads the program: after a run with any budget, and after any other uses, such
as any number of steps. What was done with the two sessions before makes no difference. -/
theorem image_files_keep_programs [Interpreter] :
    (∀ words, Image.read? (Image.write words) = some words) ∧
    (∀ bytes, (Image.read? bytes = none ↔ ¬ 4 ∣ bytes.length) ∧
      ∀ words, Image.read? bytes = some words ↔ bytes = Image.write words) ∧
    ∀ (config : Config) (values : List Int32) (start : Int)
        (first second : List Session.Call) (p : Program),
      let begun (earlier : List Session.Call) : Session :=
        { (Session.new config).uses earlier with data := values, dataStart := start }
      ∃ words, Image.read? (Image.write p.image.toList) = some words ∧
        (∀ budget : Int,
          (((begun first).loadWords (some words.toArray)).run budget).1.machine.snapshot =
            (((begun second).load p).run budget).1.machine.snapshot) ∧
        ∀ calls : List Session.Call,
          (((begun first).loadWords (some words.toArray)).uses calls).machine.snapshot =
            (((begun second).load p).uses calls).machine.snapshot := by
  refine ⟨Image.read?_write, fun bytes => ⟨Image.read?_eq_none_iff bytes,
    fun words => Image.read?_eq_some_iff⟩, ?_⟩
  intro config values start first second p begun
  have build : (begun first).machine.SameBuild (begun second).machine :=
    ((Session.new config).sameBuild_uses first).trans
      ((Session.new config).sameBuild_uses second).symm
  have same := Session.sameMachine_load build rfl rfl p
  have later (calls : List Session.Call) :
      (((begun first).loadWords (some p.image)).uses calls).machine.snapshot =
        (((begun second).load p).uses calls).machine.snapshot := by
    rw [(same.uses calls).machine]
  exact ⟨p.image.toList, Image.read?_write _, fun budget => later [.run budget], later⟩

end StackMachine
