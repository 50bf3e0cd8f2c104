import Mathlib.Data.List.Nodup
import Mathlib.Data.List.Perm.Basic
import StackMachine.Assembly.Expression.Eval
import StackMachine.Program.Listing
import StackMachine.Proofs.Assembly.ComputedOperands
import StackMachine.Proofs.Assembly.Disassembly
import StackMachine.Proofs.Assembly.Encoding
import StackMachine.Proofs.Assembly.SourceLines
import StackMachine.Proofs.Dictionaries
import StackMachine.Proofs.Lookup
import StackMachine.Proofs.Text.Hexadecimal

/-!
# Faithful listings

A listing has a block of lines for every statement: a line for each label at its address, in the
order of the names, and then a line with its address and its word. In the listing of an accepted
program no line occurs twice, so that every label is printed once, in front of its instruction.
And nothing is lost: the lines of labels have no blank, while those of statements have some, so
that the blocks can be told apart, and the address, the word and the source line can be read back
from the line of a statement. Two accepted programs with one listing are the same but for what a
listing does not say.

## Main definitions

* `Program.Precedes`: the order in which labels are listed.
* `Statement.row`, `Program.block`, `Program.rows`: the lines of a listing.
* `Program.Listable`: what a program is like that can be listed faithfully.
* `Program.FaithfullyListed`: what a faithful listing is.

## Main results

* `Program.pairwise_labelsInOrder`: labels are listed in order.
* `Statement.row_inj`: what can be read back from the line of a statement.
* `Program.Listable.nodup_rows`: no line occurs twice.
* `Program.Listable.eq_of_listing_eq`: what can be read back from a listing.
* `Assembler.listing_is_faithful`: listings of accepted programs are faithful.
-/

namespace StackMachine

open Assembly

/-! ### The order of names -/

namespace Text

theorem exists_ofString {t : Text} (word : ∀ g ∈ t, Core.inWord g = true) :
    ∃ s, t = ofString s := by
  have scalar : ∀ g ∈ t, Glyph.scalar g.toChar = g := by
    intro g member
    cases g with
    | scalar c => rfl
    | stray b => cases word _ member
  refine ⟨String.ofList (t.map Glyph.toChar), ?_⟩
  rw [ofString, String.toList_ofList, List.map_map]
  exact ((List.map_congr_left scalar).trans (List.map_id' t)).symm

theorem toByteArray_ofString (s : String) : (ofString s).bytes.toByteArray = s.toByteArray := by
  rw [← String.utf8Encode_toList, List.utf8Encode, bytes, ofString, List.flatMap_map]
  rfl

/-- Names with the same bytes are the same. -/
theorem eq_of_bytes_eq {s t : Text} (hs : ∀ g ∈ s, Core.inWord g = true)
    (ht : ∀ g ∈ t, Core.inWord g = true) (h : s.bytes = t.bytes) : s = t := by
  obtain ⟨s, rfl⟩ := exists_ofString hs
  obtain ⟨t, rfl⟩ := exists_ofString ht
  have same : s.toByteArray = t.toByteArray := by
    rw [← toByteArray_ofString, h, toByteArray_ofString]
  rw [String.toByteArray_inj.mp same]

end Text

namespace Program

/-! ### The order of labels -/

/-- A label is listed before another: at a smaller address, or at the same one under a name that
comes first. -/
def Precedes (a b : Text × Int) : Prop :=
  a.2 < b.2 ∨ a.2 = b.2 ∧ a.1.bytes < b.1.bytes

/-- Whether a label is listed no later than another, if addresses are compared as integers. -/
def addressLe (a b : Text × Int) : Bool :=
  decide (a.2 < b.2) || decide (a.2 = b.2) && !b.1.before a.1

theorem labelLe_eq {a b : Text × Int} (ha : 0 ≤ a.2 ∧ a.2 < 2 ^ 63) (hb : 0 ≤ b.2 ∧ b.2 < 2 ^ 63) :
    labelLe a b = addressLe a b := by
  have zero : (a.2 - b.2 == 0) = decide (a.2 = b.2) := by
    rw [Bool.eq_iff_iff]
    simp [Int.sub_eq_zero]
  have negative : decide (a.2 - b.2 < 0) = decide (a.2 < b.2) :=
    decide_eq_decide.mpr ⟨Int.lt_of_sub_neg, Int.sub_neg_of_lt⟩
  rw [labelLe, distance_eq_sub (by omega) (by omega), negative, zero, addressLe]

theorem addressLe_iff (a b : Text × Int) :
    addressLe a b = true ↔ a.2 < b.2 ∨ a.2 = b.2 ∧ a.1.bytes ≤ b.1.bytes := by
  have names : b.1.before a.1 = false ↔ a.1.bytes ≤ b.1.bytes := by
    rw [← List.not_lt, ← Text.before_iff, Bool.not_eq_true]
  simp [addressLe, names]

theorem addressLe_trans (a b c : Text × Int) (h : addressLe a b = true) (h' : addressLe b c = true) :
    addressLe a c = true := by
  rw [addressLe_iff] at h h' ⊢
  rcases h with below | ⟨same, names⟩
  · exact .inl (by omega)
  · rcases h' with below' | ⟨same', names'⟩
    · exact .inl (by omega)
    · exact .inr ⟨by omega, List.le_trans names names'⟩

theorem addressLe_total (a b : Text × Int) : (addressLe a b || addressLe b a) = true := by
  rw [Bool.or_eq_true, addressLe_iff, addressLe_iff]
  rcases Int.lt_trichotomy a.2 b.2 with below | same | above
  · exact .inl (.inl below)
  · rcases List.le_total a.1.bytes b.1.bytes with first | second
    · exact .inl (.inr ⟨same, first⟩)
    · exact .inr (.inr ⟨same.symm, second⟩)
  · exact .inr (.inl above)

theorem labelsInOrder_eq {p : Program}
    (placed : ∀ label ∈ p.labels, 0 ≤ label.2 ∧ label.2 < 2 ^ 63) :
    p.labelsInOrder = p.labels.mergeSort addressLe := by
  have same : ∀ a ∈ p.labels, ∀ b ∈ p.labels, labelLe a b = addressLe (id a) (id b) :=
    fun a memberA b memberB => labelLe_eq (placed a memberA) (placed b memberB)
  have swapped := List.map_mergeSort same
  rwa [List.map_id, List.map_id] at swapped

/-- Labels are listed in order, if their addresses have 64 bits. -/
theorem pairwise_labelsInOrder {p : Program}
    (placed : ∀ label ∈ p.labels, 0 ≤ label.2 ∧ label.2 < 2 ^ 63)
    (named : ∀ label ∈ p.labels, isIdentifier label.1 = true)
    (distinct : (p.labels.map Prod.fst).Nodup) : p.labelsInOrder.Pairwise Precedes := by
  rw [labelsInOrder_eq placed]
  have perm := List.mergeSort_perm p.labels addressLe
  have sorted := List.pairwise_mergeSort addressLe_trans addressLe_total p.labels
  have apart : (p.labels.mergeSort addressLe).Pairwise fun a b => a.1 ≠ b.1 :=
    List.pairwise_map.mp ((perm.map Prod.fst).nodup_iff.mpr distinct)
  refine (sorted.and apart).imp_of_mem fun {a b} memberA memberB ⟨le, other⟩ => ?_
  rcases (addressLe_iff a b).mp le with below | ⟨same, names⟩
  · exact .inl below
  · refine .inr ⟨same, ?_⟩
    by_contra notBefore
    have back : b.1.bytes ≤ a.1.bytes := List.not_lt.mp notBefore
    exact other (Text.eq_of_bytes_eq (inWord_of_isIdentifier (named a (perm.mem_iff.mp memberA)))
      (inWord_of_isIdentifier (named b (perm.mem_iff.mp memberB))) (List.le_antisymm names back))

/-! ### Labels at an address -/

variable {p q : Program}

theorem perm_labelsInOrder (p : Program) : p.labelsInOrder.Perm p.labels :=
  List.mergeSort_perm _ _

theorem mem_labelsAt_iff {name : Text} {address : Int} :
    name ∈ p.labelsAt address ↔ (name, address) ∈ p.labels := by
  rw [← p.perm_labelsInOrder.mem_iff]
  simp [labelsAt]

theorem nodup_labelsAt (distinct : (p.labels.map Prod.fst).Nodup) (address : Int) :
    (p.labelsAt address).Nodup := by
  have names : (p.labelsInOrder.map Prod.fst).Nodup :=
    (p.perm_labelsInOrder.map Prod.fst).nodup_iff.mpr distinct
  exact (List.filter_sublist.map Prod.fst).nodup names

end Program

/-! ### The lines of a listing -/

/-- The line of a label. -/
def labelRow (name : Text) : Text :=
  name ++ ":"

/-- The line of a statement. -/
def Statement.row (s : Statement) : Text :=
  Text.ofString (Numeral.hexUpper 4 s.ip ++ ": " ++ Numeral.hexUpper 8 s.instr.encode.toNat ++ "  ")
    ++ Text.padRight 16 s.caption
    ++ (if s.line = 0 then [] else Text.ofString (" ; line " ++ Numeral.decimal s.line))

theorem Statement.listing_eq (s : Statement) : s.listing = s.row.line := by
  have feed : Text.ofString "\n" = [.scalar '\n'] := rfl
  rw [listing, feed, row, Text.line]

namespace Program

/-- The lines of a statement: one for each label at its address, and then its own. -/
def block (p : Program) (s : Statement) : List Text :=
  (p.labelsAt s.ip).map labelRow ++ [s.row]

/-- The lines of a program: those of its statements. -/
def rows (p : Program) : List Text :=
  p.statements.toList.flatMap p.block

theorem listing_eq (p : Program) : p.listing = p.rows.flatMap Text.line := by
  have feed : Text.ofString ":\n" = Text.ofString ":" ++ [.scalar '\n'] := rfl
  have lines (s : Statement) : (p.block s).flatMap Text.line =
      ((p.labelsInOrder.filter (·.2 = s.ip)).flatMap fun label =>
        label.1 ++ Text.ofString ":\n") ++ s.listing := by
    rw [block, labelsAt, List.flatMap_append, List.map_map, List.flatMap_map,
      List.flatMap_singleton, s.listing_eq, feed]
    simp only [Function.comp_apply, labelRow, Text.line, List.append_assoc]
  rw [rows, List.flatMap_assoc, listing]
  simp only [lines]

end Program

/-! ### Reading a line back -/

namespace Text

theorem ofString_append (s t : String) : ofString (s ++ t) = ofString s ++ ofString t := by
  rw [ofString, String.toList_append, List.map_append, ofString, ofString]

end Text

namespace Statement

variable {s t : Statement}

/-- The line of a statement begins with its address and its word. -/
theorem exists_row_eq_address (s : Statement) :
    ∃ rest, s.row = Text.ofString (Numeral.hexUpper 4 s.ip) ++ .scalar ':' :: .scalar ' ' ::
      (Text.ofString (Numeral.hexUpper 8 s.instr.encode.toNat) ++ .scalar ' ' :: .scalar ' ' ::
        rest) := by
  have colon : Text.ofString ": " = [.scalar ':', .scalar ' '] := rfl
  have gap : Text.ofString "  " = [.scalar ' ', .scalar ' '] := rfl
  refine ⟨Text.padRight 16 s.caption
    ++ if s.line = 0 then [] else Text.ofString (" ; line " ++ Numeral.decimal s.line), ?_⟩
  simp only [row, Text.ofString_append, colon, gap, List.append_assoc, List.cons_append,
    List.nil_append]

/-- The line of a statement ends with its source line, if it has one. -/
theorem exists_row_eq_line {n : Nat} (line : s.line = n) (positive : n ≠ 0) :
    ∃ front, s.row = front ++ .scalar ' ' :: Text.ofString (Numeral.decimal n) := by
  have origin : Text.ofString " ; line " = Text.ofString " ; line" ++ [.scalar ' '] := rfl
  have written : s.line ≠ 0 := by omega
  rw [row, if_neg written, Text.ofString_append " ; line ", origin, line, List.append_assoc _ [_],
    List.singleton_append, ← List.append_assoc]
  exact ⟨_, rfl⟩

/-- A statement with an address and a source line. -/
structure Numbered (s : Statement) : Prop where
  address : ∃ k : Nat, s.ip = k
  line : ∃ n : Nat, n ≠ 0 ∧ s.line = n

/-- The address, the word and the source line of a statement can be read back from its line. -/
theorem row_inj (hs : s.Numbered) (ht : t.Numbered) (h : s.row = t.row) :
    s.ip = t.ip ∧ s.instr.encode = t.instr.encode ∧ s.line = t.line := by
  obtain ⟨⟨j, address⟩, m, positive, line⟩ := hs
  obtain ⟨⟨k, address'⟩, n, positive', line'⟩ := ht
  have lines : m = n := by
    obtain ⟨front, ends⟩ := exists_row_eq_line line positive
    obtain ⟨front', ends'⟩ := exists_row_eq_line line' positive'
    rw [ends, ends'] at h
    have solid (n : Int) : .scalar ' ' ∉ Text.ofString (Numeral.decimal n) :=
      Core.not_mem_of_inWord (decimal_inWord n).1 (by decide)
    have same := (Text.cut_last_inj (solid m) (solid n) h).2
    exact Int.ofNat_inj.mp (Numeral.decimal_injective (Text.ofString_injective same))
  have apart (width : Nat) (n : Int) {g : Glyph} (stop : Core.inWord g = false) :=
    Core.not_mem_of_inWord (Numeral.inWord_hexUpper width n) stop
  obtain ⟨rest, begins⟩ := s.exists_row_eq_address
  obtain ⟨rest', begins'⟩ := t.exists_row_eq_address
  rw [begins, begins', address, address'] at h
  obtain ⟨addresses, behind⟩ := Text.cut_first_inj (apart 4 _ (by decide)) (apart 4 _ (by decide)) h
  obtain ⟨-, behind⟩ := List.cons.inj behind
  obtain ⟨words, -⟩ := Text.cut_first_inj (apart 8 _ (by decide)) (apart 8 _ (by decide)) behind
  refine ⟨?_, UInt32.toNat_inj.mp (Numeral.hexUpper_inj words), by rw [line, line', lines]⟩
  rw [address, address', Numeral.hexUpper_inj addresses]

end Statement

/-! ### Blocks -/

/-- Lists each of which ends with its only entry of a kind can be told apart in a row. -/
theorem eq_of_flatMap_concat_eq {α : Type} {p : α → Bool} {xs ys : List (List α × α)}
    (hx : ∀ x ∈ xs, (∀ a ∈ x.1, p a = false) ∧ p x.2 = true)
    (hy : ∀ y ∈ ys, (∀ a ∈ y.1, p a = false) ∧ p y.2 = true)
    (h : (xs.flatMap fun x => x.1 ++ [x.2]) = ys.flatMap fun y => y.1 ++ [y.2]) : xs = ys := by
  have front : ∀ (z : List α × α) (rest : List α), (∀ a ∈ z.1, p a = false) ∧ p z.2 = true →
      (z.1 ++ z.2 :: rest).takeWhile (!p ·) = z.1 := by
    intro z rest ⟨plain, ends⟩
    rw [List.takeWhile_append_of_pos (by simpa using plain), List.takeWhile_cons_of_neg (by simpa),
      List.append_nil]
  induction xs generalizing ys with
  | nil =>
    cases ys with
    | nil => rfl
    | cons y ys => simp at h
  | cons x xs ih =>
    cases ys with
    | nil => simp at h
    | cons y ys =>
      simp only [List.flatMap_cons, List.append_assoc, List.singleton_append] at h
      -- the first entry of the kind ends the first list on both sides
      have firsts : x.1 = y.1 := by
        rw [← front x _ (hx x List.mem_cons_self), h, front y _ (hy y List.mem_cons_self)]
      rw [firsts] at h
      obtain ⟨ends, others⟩ := List.cons.inj (List.append_cancel_left h)
      rw [Prod.ext firsts ends, ih (fun z later => hx z (List.mem_cons_of_mem _ later))
        (fun z later => hy z (List.mem_cons_of_mem _ later)) others]

/-! ### Programs that can be listed -/

/-- A program whose listing can be read back. -/
structure Program.Listable (p : Program) : Prop where
  /-- Statements lie at their positions. -/
  placed : p.Dense
  /-- They stand on source lines, which are counted from one. -/
  sourced : ∀ s ∈ p.statements, ∃ n : Nat, n ≠ 0 ∧ s.line = n
  /-- What is written about them is one line. -/
  oneLine : ∀ s ∈ p.statements, .scalar '\n' ∉ s.caption
  /-- Every label is an identifier at an address of the program. -/
  named : ∀ name address, (name, address) ∈ p.labels →
    isIdentifier name = true ∧ 0 ≤ address ∧ address < p.size
  /-- No two labels have the same name. -/
  distinct : (p.labels.map Prod.fst).Nodup

theorem inWord_labelRow {name : Text} {g : Glyph} (identifier : isIdentifier name = true)
    (member : g ∈ labelRow name) : Core.inWord g = true ∨ g = .scalar ':' := by
  rcases List.mem_append.mp member with letter | colon
  · exact .inl (inWord_of_isIdentifier identifier g letter)
  · exact .inr (List.mem_singleton.mp colon)

theorem labelRow_injective : Function.Injective labelRow :=
  fun _ _ => List.append_cancel_right

namespace Statement

variable {s : Statement}

theorem space_mem_row (s : Statement) : .scalar ' ' ∈ s.row := by
  obtain ⟨rest, begins⟩ := s.exists_row_eq_address
  rw [begins]
  simp

theorem feed_not_mem_row (oneLine : .scalar '\n' ∉ s.caption) : .scalar '\n' ∉ s.row := by
  have hex (width : Nat) (n : Int) : .scalar '\n' ∉ Text.ofString (Numeral.hexUpper width n) :=
    Core.not_mem_of_inWord (Numeral.inWord_hexUpper width n) (by decide)
  have decimal : .scalar '\n' ∉ Text.ofString (Numeral.decimal s.line) :=
    Core.not_mem_of_inWord (decimal_inWord s.line).1 (by decide)
  have colon : .scalar '\n' ∉ Text.ofString ": " := by decide
  have gap : .scalar '\n' ∉ Text.ofString "  " := by decide
  have origin : .scalar '\n' ∉ Text.ofString " ; line " := by decide
  have padding (n : Nat) : Glyph.scalar '\n' ∉ List.replicate n (.scalar ' ') := by
    simp [List.mem_replicate]
  simp only [row, Text.ofString_append, Text.padRight, List.mem_append, hex, colon, gap, oneLine,
    padding, or_false, false_or]
  split
  · exact List.not_mem_nil
  · simp only [List.mem_append, origin, decimal, or_self, not_false_eq_true]

end Statement

namespace Program

namespace Listable

variable {p q : Program} {s : Statement}

theorem numbered (listable : p.Listable) (member : s ∈ p.statements) : s.Numbered := by
  obtain ⟨k, found⟩ := Array.getElem?_of_mem member
  exact ⟨⟨k, listable.placed k s found⟩, listable.sourced s member⟩

theorem identifier (listable : p.Listable) {name : Text} {address : Int}
    (member : name ∈ p.labelsAt address) : isIdentifier name = true :=
  (listable.named name address (mem_labelsAt_iff.mp member)).1

theorem getElem_statements (listable : p.Listable) {k : Nat} (inside : k < p.statements.size) :
    p.statements[k] ∈ p.statements ∧ p.statements[k].ip = k :=
  ⟨Array.getElem_mem inside, listable.placed k _ (Array.getElem?_eq_getElem inside)⟩

/-- Nothing that separates words stands in the lines of labels, apart from their colons. -/
theorem not_mem_label (listable : p.Listable) {address : Int} {row : Text}
    (member : row ∈ (p.labelsAt address).map labelRow) {g : Glyph} (stop : Core.inWord g = false)
    (other : g ≠ .scalar ':') : g ∉ row := by
  obtain ⟨name, found, rfl⟩ := List.mem_map.mp member
  intro inside
  rcases inWord_labelRow (listable.identifier found) inside with word | colon
  · exact Core.ne_of_inWord word stop rfl
  · exact other colon

theorem space_not_mem (listable : p.Listable) {address : Int} {row : Text}
    (member : row ∈ (p.labelsAt address).map labelRow) : .scalar ' ' ∉ row :=
  listable.not_mem_label member (by decide) (by decide)

theorem feed_not_mem_rows (listable : p.Listable) : ∀ row ∈ p.rows, .scalar '\n' ∉ row := by
  intro row member
  obtain ⟨s, found, inBlock⟩ := List.mem_flatMap.mp member
  rcases List.mem_append.mp inBlock with label | own
  · exact listable.not_mem_label label (by decide) (by decide)
  · rw [List.mem_singleton.mp own]
    exact Statement.feed_not_mem_row (listable.oneLine s (Array.mem_def.mpr found))

/-- The lines of a listing. -/
theorem raw_listing (listable : p.Listable) : Lines.raw p.listing = p.rows := by
  rw [listing_eq]
  exact Lines.raw_flatMap_line _ listable.feed_not_mem_rows

/-! ### No line occurs twice -/

theorem nodup_block (listable : p.Listable) (s : Statement) : (p.block s).Nodup := by
  have labels : ((p.labelsAt s.ip).map labelRow).Nodup :=
    (nodup_labelsAt listable.distinct s.ip).map labelRow_injective
  refine labels.append (List.nodup_singleton _) fun row label own => ?_
  rw [List.mem_singleton.mp own] at label
  exact listable.space_not_mem label s.space_mem_row

theorem disjoint_block (listable : p.Listable) {s t : Statement} (hs : s ∈ p.statements)
    (ht : t ∈ p.statements) (apart : s.ip ≠ t.ip) : (p.block s).Disjoint (p.block t) := by
  intro row inS inT
  rcases List.mem_append.mp inS with label | own
  · rcases List.mem_append.mp inT with label' | own'
    · obtain ⟨name, found, rfl⟩ := List.mem_map.mp label
      obtain ⟨other, found', same⟩ := List.mem_map.mp label'
      obtain rfl := labelRow_injective same
      -- one name has one address
      have one := List.inj_on_of_nodup_map listable.distinct (mem_labelsAt_iff.mp found)
        (mem_labelsAt_iff.mp found') rfl
      exact apart (Prod.mk.inj one).2
    · rw [List.mem_singleton.mp own'] at label
      exact listable.space_not_mem label t.space_mem_row
  · rw [List.mem_singleton.mp own] at inT
    rcases List.mem_append.mp inT with label' | own'
    · exact listable.space_not_mem label' s.space_mem_row
    · exact apart (Statement.row_inj (listable.numbered hs) (listable.numbered ht)
        (List.mem_singleton.mp own')).1

/-- No line of a listing occurs twice. -/
theorem nodup_rows (listable : p.Listable) : p.rows.Nodup := by
  refine List.nodup_flatMap.mpr ⟨fun s _ => listable.nodup_block s, ?_⟩
  rw [List.pairwise_iff_getElem]
  intro j k insideJ insideK before
  obtain ⟨memberJ, placeJ⟩ := listable.getElem_statements insideJ
  obtain ⟨memberK, placeK⟩ := listable.getElem_statements insideK
  rw [Array.getElem_toList, Array.getElem_toList]
  exact listable.disjoint_block memberJ memberK (by omega)

theorem exists_statement (listable : p.Listable) {name : Text} {address : Int}
    (label : (name, address) ∈ p.labels) : ∃ s ∈ p.statements, s.ip = address := by
  obtain ⟨-, lower, upper⟩ := listable.named name address label
  obtain ⟨k, rfl⟩ := Int.eq_ofNat_of_zero_le lower
  have inside : k < p.statements.size := Int.ofNat_lt.mp upper
  exact ⟨p.statements[k], listable.getElem_statements inside⟩

/-- The line of a label stands before the line of the statement at its address, with lines of labels
at this address between them. -/
theorem exists_rows_eq (listable : p.Listable) {name : Text} {address : Int}
    (label : (name, address) ∈ p.labels) :
    ∃ front others statement back, statement ∈ p.statements ∧ statement.ip = address ∧
      (∀ row ∈ others, ∃ other, (other, address) ∈ p.labels ∧ row = labelRow other) ∧
      p.rows = front ++ labelRow name :: (others ++ statement.row :: back) := by
  obtain ⟨statement, member, there⟩ := listable.exists_statement label
  obtain ⟨before, after, split⟩ := List.append_of_mem (Array.mem_def.mp member)
  obtain ⟨earlier, later, names⟩ := List.append_of_mem (mem_labelsAt_iff.mpr label)
  refine ⟨before.flatMap p.block ++ earlier.map labelRow, later.map labelRow, statement,
    after.flatMap p.block, member, there, fun row inside => ?_, ?_⟩
  · obtain ⟨other, found, rfl⟩ := List.mem_map.mp inside
    have listed : other ∈ p.labelsAt address := by
      rw [names]
      exact List.mem_append_right _ (List.mem_cons_of_mem _ found)
    exact ⟨other, mem_labelsAt_iff.mp listed, rfl⟩
  · rw [rows, split, List.flatMap_append, List.flatMap_cons, block, there, names]
    simp only [List.map_append, List.map_cons, List.append_assoc, List.cons_append,
      List.nil_append]

/-! ### Reading a listing back -/

/-- The blocks of a listing can be told apart. -/
theorem blocks_eq (hp : p.Listable) (hq : q.Listable) (same : p.listing = q.listing) :
    (p.statements.toList.map fun s => ((p.labelsAt s.ip).map labelRow, s.row)) =
      q.statements.toList.map fun s => ((q.labelsAt s.ip).map labelRow, s.row) := by
  have ended {r : Program} (listable : r.Listable) : ∀ x ∈ r.statements.toList.map fun s =>
      ((r.labelsAt s.ip).map labelRow, s.row),
      (∀ row ∈ x.1, row.contains (.scalar ' ') = false) ∧ x.2.contains (.scalar ' ') = true := by
    intro x member
    obtain ⟨s, -, rfl⟩ := List.mem_map.mp member
    exact ⟨fun row label => by simpa using listable.space_not_mem label,
      by simpa using s.space_mem_row⟩
  refine eq_of_flatMap_concat_eq (ended hp) (ended hq) ?_
  rw [List.flatMap_map, List.flatMap_map]
  calc p.rows = Lines.raw p.listing := hp.raw_listing.symm
    _ = Lines.raw q.listing := by rw [same]
    _ = q.rows := hq.raw_listing

/-- What a listing says about one address. -/
theorem getElem_eq_of_listing_eq (hp : p.Listable) (hq : q.Listable) (same : p.listing = q.listing)
    {k : Nat} (inP : k < p.statements.size) (inQ : k < q.statements.size) :
    p.labelsAt k = q.labelsAt k ∧
      p.statements[k].instr.encode = q.statements[k].instr.encode ∧
      p.statements[k].line = q.statements[k].line := by
  have there := congrArg (·[k]?) (hp.blocks_eq hq same)
  obtain ⟨memberP, placeP⟩ := hp.getElem_statements inP
  obtain ⟨memberQ, placeQ⟩ := hq.getElem_statements inQ
  simp only [List.getElem?_map, Array.getElem?_toList, Array.getElem?_eq_getElem inP,
    Array.getElem?_eq_getElem inQ, Option.map_some, Option.some.injEq, Prod.mk.injEq,
    placeP, placeQ] at there
  obtain ⟨labels, row⟩ := there
  exact ⟨labelRow_injective.list_map labels,
    (Statement.row_inj (hp.numbered memberP) (hq.numbered memberQ) row).2⟩

/-- The labels at the addresses of a program are all its labels. -/
theorem mem_labels_of_labelsAt_eq (listable : p.Listable)
    (same : ∀ k < p.statements.size, p.labelsAt k = q.labelsAt k) {label : Text × Int}
    (member : label ∈ p.labels) : label ∈ q.labels := by
  obtain ⟨name, address⟩ := label
  obtain ⟨-, lower, upper⟩ := listable.named name address member
  obtain ⟨k, rfl⟩ := Int.eq_ofNat_of_zero_le lower
  rw [← mem_labelsAt_iff, ← same k (Int.ofNat_lt.mp upper)]
  exact mem_labelsAt_iff.mpr member

/-- The words, the labels and the source lines of a program can be read back from its listing. -/
theorem eq_of_listing_eq (hp : p.Listable) (hq : q.Listable) (same : p.listing = q.listing) :
    p.image = q.image ∧ p.labels.Perm q.labels ∧
      p.statements.map (·.line) = q.statements.map (·.line) := by
  have size : p.statements.size = q.statements.size := by
    simpa using congrArg List.length (hp.blocks_eq hq same)
  have labels (k : Nat) (inP : k < p.statements.size) : p.labelsAt k = q.labelsAt k :=
    (hp.getElem_eq_of_listing_eq hq same inP (size ▸ inP)).1
  refine ⟨?_, ?_, ?_⟩
  · refine Array.ext (by simpa [image] using size) fun k inP inQ => ?_
    simp only [image, Array.size_map] at inP inQ
    simpa [image] using (hp.getElem_eq_of_listing_eq hq same inP inQ).2.1
  · refine (List.perm_ext_iff_of_nodup hp.distinct.of_map hq.distinct.of_map).mpr fun label => ?_
    exact ⟨hp.mem_labels_of_labelsAt_eq labels,
      hq.mem_labels_of_labelsAt_eq fun k inQ => (labels k (size ▸ inQ)).symm⟩
  · refine Array.ext (by simpa using size) fun k inP inQ => ?_
    simp only [Array.size_map] at inP inQ
    simpa using (hp.getElem_eq_of_listing_eq hq same inP inQ).2.2

end Listable

/-! ### Faithful listings -/

/-- A faithful listing of a program. -/
structure FaithfullyListed (p : Program) : Prop where
  /-- Every label is listed. -/
  listed : p.labelsInOrder.Perm p.labels
  /-- No name is listed twice. -/
  distinct : (p.labelsInOrder.map Prod.fst).Nodup
  /-- Labels are listed by address and then by name. Addresses are 64-bit integers. -/
  ordered : p.size ≤ 2 ^ 63 → p.labelsInOrder.Pairwise Precedes
  /-- For every statement, in order, there are lines for the labels at its address, in order, and
  then its own. -/
  lines : p.listing = (p.statements.toList.flatMap p.block).flatMap Text.line
  /-- These are all lines of the listing. -/
  whole : Lines.raw p.listing = p.statements.toList.flatMap p.block
  /-- The line of a statement starts with its address and its word in hexadecimal. -/
  starts : ∀ s ∈ p.statements, ∃ address word rest : Text,
    s.row = address ++ ": " ++ word ++ "  " ++ rest ∧
      4 ≤ address.length ∧ (Literal.natural? 16 address).map Int.ofNat = some s.ip ∧
      word.length = 8 ∧ Literal.natural? 16 word = some s.instr.encode.toNat
  /-- Every label is printed once, with nothing but labels at the same address between it and the
  statement there. -/
  printed : ∀ name address, (name, address) ∈ p.labels →
    (Lines.raw p.listing).count (labelRow name) = 1 ∧
      ∃ front others statement back, statement ∈ p.statements ∧ statement.ip = address ∧
        (∀ row ∈ others, ∃ other, (other, address) ∈ p.labels ∧ row = labelRow other) ∧
        Lines.raw p.listing = front ++ labelRow name :: (others ++ statement.row :: back)

theorem Listable.exists_row_eq {p : Program} (listable : p.Listable) {s : Statement}
    (member : s ∈ p.statements) :
    ∃ address word rest : Text, s.row = address ++ ": " ++ word ++ "  " ++ rest ∧
      4 ≤ address.length ∧ (Literal.natural? 16 address).map Int.ofNat = some s.ip ∧
      word.length = 8 ∧ Literal.natural? 16 word = some s.instr.encode.toNat := by
  obtain ⟨⟨k, address⟩, -⟩ := listable.numbered member
  obtain ⟨rest, begins⟩ := s.exists_row_eq_address
  have colon : Text.ofString ": " = [.scalar ':', .scalar ' '] := rfl
  have gap : Text.ofString "  " = [.scalar ' ', .scalar ' '] := rfl
  refine ⟨Text.ofString (Numeral.hexUpper 4 s.ip),
    Text.ofString (Numeral.hexUpper 8 s.instr.encode.toNat), rest, ?_, ?_, ?_,
    Numeral.length_hexUpper (by decide) s.instr.encode.toNat_lt, Numeral.natural?_hexUpper _ _⟩
  · rw [begins, colon, gap]
    simp only [List.append_assoc, List.cons_append, List.nil_append]
  · rw [address]
    exact Numeral.le_length_hexUpper 4 k
  · rw [address, Numeral.natural?_hexUpper]
    rfl

theorem Listable.faithfullyListed {p : Program} (listable : p.Listable) : p.FaithfullyListed where
  listed := p.perm_labelsInOrder
  distinct := (p.perm_labelsInOrder.map Prod.fst).nodup_iff.mpr listable.distinct
  ordered := by
    intro few
    refine pairwise_labelsInOrder (fun ⟨name, address⟩ member => ?_)
      (fun ⟨name, address⟩ member => (listable.named name address member).1) listable.distinct
    obtain ⟨-, lower, upper⟩ := listable.named name address member
    exact ⟨lower, by omega⟩
  lines := p.listing_eq
  whole := listable.raw_listing
  starts := fun _ member => listable.exists_row_eq member
  printed := by
    intro name address label
    have found := listable.exists_rows_eq label
    rw [listable.raw_listing]
    refine ⟨List.count_eq_one_of_mem listable.nodup_rows ?_, found⟩
    obtain ⟨front, others, statement, back, -, -, -, split⟩ := found
    rw [split]
    exact List.mem_append_right _ List.mem_cons_self

end Program

/-! ### Accepted programs -/

/-- Accepted programs can be listed. -/
theorem Assembler.listable_of_parse [Interpreter] {a : Assembler} {source : Text} {p : Program}
    (accepted : (a.parse source).2 = .ok p) : p.Listable where
  placed := by
    obtain ⟨r, sound, -, -, rfl⟩ := exists_reader_of_parse accepted
    exact fun _ _ => r.program_placed sound
  sourced := by
    intro s member
    obtain ⟨n, raw, line, found⟩ := exists_line_of_parse accepted member
    refine ⟨n, ?_, line⟩
    rintro rfl
    cases found
  oneLine := by
    obtain ⟨r, sound, -, -, rfl⟩ := exists_reader_of_parse accepted
    intro s member
    have text : Glyph.scalar '\n' ∉ Text.ofString s.instr.text := by
      intro feed
      obtain ⟨c, char, same⟩ := List.mem_map.mp feed
      cases same
      exact Instr.feed_not_mem_text (r.program_defined sound s member) char
    have mark : Glyph.scalar '\n' ∉ Text.ofString " ; " := by decide
    obtain ⟨draft, found, rfl⟩ := r.mem_program member
    unfold Statement.caption
    split
    · exact text
    · rename_i label link
      rw [State.resolved_link] at link
      have identifier := ((sound.drafted draft found).linked label link).2
      simp only [List.mem_append, text, mark, false_or]
      exact Core.not_mem_of_inWord (inWord_of_isIdentifier identifier) (by decide)
  named := by
    obtain ⟨r, sound, settled, -, rfl⟩ := exists_reader_of_parse accepted
    exact fun _ _ => r.program_named sound settled
  distinct := by
    obtain ⟨r, sound, -, -, rfl⟩ := exists_reader_of_parse accepted
    exact r.program_distinct sound

/-- **Listings are faithful.** In the listing of an accepted program every label is printed once, in
front of its instruction, in the order of addresses and names, and every instruction has a line
that starts with its address and its word. Two accepted programs with the same listing, whatever
sources and predefined equates they were made from, have the same image, the same labels and the
same source lines. -/
theorem Assembler.listing_is_faithful [Interpreter] (a b : Assembler) (source other : Text)
    (p q : Program) (accepted : (a.parse source).2 = .ok p) (acceptedToo : (b.parse other).2 = .ok q) :
    p.FaithfullyListed ∧
      (p.listing = q.listing →
        p.image = q.image ∧ p.labels.Perm q.labels ∧
          p.statements.map (·.line) = q.statements.map (·.line)) :=
  ⟨(listable_of_parse accepted).faithfullyListed,
    (listable_of_parse accepted).eq_of_listing_eq (listable_of_parse acceptedToo)⟩

/-! ### Two sources with one listing -/

/-- The lines of a source text with two labels at one address. -/
def namedLines : List Text :=
  ["zeta: alpha: PUSH 2", "", "JMP zeta"]

/-- Other lines, with the same instructions on the same lines. -/
def renamedLines : List Text :=
  ["zeta:alpha: push 0b10 ; two", "; and again", "jmp zeta"]

/-- The program of some lines, given the words on the first and the third of them. -/
def namedProgram (first third : List Text) : Program where
  statements := #[
    { line := 1, ip := 0, words := first, instr := .ofOpcode .push 2 },
    { line := 3, ip := 1, words := third, instr := .ofOpcode .jmp 0,
      link := some (Text.ofString "zeta") }]
  labels := [("zeta", 0), ("alpha", 0)]

theorem listing_namedProgram (first third other another : List Text) :
    (namedProgram first third).listing = (namedProgram other another).listing := by
  simp only [namedProgram, Program.listing, Program.labelsInOrder, List.flatMap_cons,
    List.flatMap_nil, Statement.listing, Statement.caption]

attribute [local instance] Assembly.Expression.interpreter

/-- The programs differ in their words, which a listing does not show. -/
theorem Assembler.listing_is_faithful_named :
    ∃ p q, (Assembler.parse {} (Text.join "\n" namedLines)).2 = .ok p ∧
      (Assembler.parse {} (Text.join "\n" renamedLines)).2 = .ok q ∧ p ≠ q ∧
      p.listing = q.listing ∧ p.FaithfullyListed ∧ p.labelsInOrder.Pairwise Program.Precedes ∧
      p.image = q.image ∧ p.labels.Perm q.labels ∧
      p.statements.map (·.line) = q.statements.map (·.line) := by
  have accepted : (Assembler.parse {} (Text.join "\n" namedLines)).2 =
      .ok (namedProgram ["PUSH", "2"] ["JMP", "zeta"]) := by decide +kernel
  have acceptedToo : (Assembler.parse {} (Text.join "\n" renamedLines)).2 =
      .ok (namedProgram ["push", "0b10"] ["jmp", "zeta"]) := by decide +kernel
  obtain ⟨faithful, readBack⟩ := listing_is_faithful _ _ _ _ _ _ accepted acceptedToo
  have same := listing_namedProgram ["PUSH", "2"] ["JMP", "zeta"] ["push", "0b10"] ["jmp", "zeta"]
  exact ⟨_, _, accepted, acceptedToo, by decide, same, faithful, faithful.ordered (by decide),
    readBack same⟩

end StackMachine
