import Mathlib.Algebra.Group.Int.Defs
import StackMachine.Program.Basic

/-!
# Looking up an address

In a program whose statements are in the order of their addresses, the statement at an
address is found where it lies, either at the position that equals the address or by
halving. Addresses are compared by a difference of 64-bit integers, which wraps around for
extreme addresses; where it does there is no statement to find.

## Main definitions

* `Program.Ordered`: the statements are in the order of their addresses.
* `Program.Dense`: there are no gaps among the statements.
* `Program.scan?`: the statement at an address, found by looking at one after the other.

## Main results

* `Program.lowerBound_eq`: halving finds the boundary between two parts of a program.
* `Program.at?_eq_some_iff`: an address is looked up to the statement that lies there.
* `Program.lookup_is_linear_scan`: both ways of looking up agree with looking at all statements.
-/

namespace StackMachine

namespace Program

variable {p : Program} {ip : Int} {statement : Statement}

/-- The statements are in the order of their addresses, which are not negative. -/
structure Ordered (p : Program) : Prop where
  /-- A statement at a later position lies at a larger address. -/
  increasing : ∀ (j k : Nat) (a b : Statement), j < k →
    p.statements[j]? = some a → p.statements[k]? = some b → a.ip < b.ip
  /-- Addresses are 64-bit integers that are not negative. -/
  placed : ∀ s ∈ p.statements, 0 ≤ s.ip ∧ s.ip < 2 ^ 63

theorem ordered_of_pairwise (increasing : p.statements.toList.Pairwise fun a b => a.ip < b.ip)
    (placed : ∀ s ∈ p.statements, 0 ≤ s.ip ∧ s.ip < 2 ^ 63) : p.Ordered where
  increasing := by
    intro j k a b before foundA foundB
    rw [← Array.getElem?_toList] at foundA foundB
    obtain ⟨insideA, rfl⟩ := List.getElem?_eq_some_iff.mp foundA
    obtain ⟨insideB, rfl⟩ := List.getElem?_eq_some_iff.mp foundB
    exact List.pairwise_iff_getElem.mp increasing j k insideA insideB before
  placed := placed

/-- The address of every statement is its position. -/
def Dense (p : Program) : Prop :=
  ∀ (k : Nat) (statement : Statement), p.statements[k]? = some statement → statement.ip = k

/-! ### Distances -/

/-- Addresses whose difference has 64 bits are as far apart as they seem. -/
theorem distance_eq_sub {a b : Int} (lower : -2 ^ 63 ≤ a - b) (upper : a - b < 2 ^ 63) :
    distance a b = a - b :=
  Int.bmod_eq_of_le (by omega) (by omega)

/-- Addresses of 64 bits without distance are the same, although their difference may wrap. -/
theorem eq_of_distance_eq_zero {a b : Int} (lower : -2 ^ 64 < a - b) (upper : a - b < 2 ^ 64)
    (h : distance a b = 0) : a = b := by
  have multiple : (0x10000000000000000 : Int) ∣ a - b := Int.dvd_of_bmod_eq_zero h
  omega

/-! ### Halving -/

/-- If the statements before a position lie before an address and the others do not, halving ends
at the position. -/
theorem lowerBound_eq {k : Nat} (below : ∀ j < k, p.liesBefore j ip = true)
    (above : ∀ j, k ≤ j → p.liesBefore j ip = false) {low high : Nat} (hlow : low ≤ k)
    (hhigh : k ≤ high) : p.lowerBound ip low high = k := by
  fun_induction p.lowerBound ip low high with
  | case1 low high apart middle before ih =>
    refine ih (Nat.lt_of_not_le fun behind => ?_) hhigh
    rw [above middle behind] at before
    cases before
  | case2 low high apart middle notBefore ih =>
    exact ih hlow (Nat.le_of_not_lt fun inside => notBefore (below middle inside))
  | case3 low high together => omega

theorem liesBefore_eq {k : Nat} (found : p.statements[k]? = some statement) :
    p.liesBefore k ip = decide (distance statement.ip ip < 0) := by
  simp [liesBefore, found]

/-- Halving finds a statement at its address. -/
theorem Ordered.search?_eq (ordered : p.Ordered) (member : statement ∈ p.statements) :
    p.search? statement.ip = some statement := by
  obtain ⟨k, inside, rfl⟩ := Array.getElem_of_mem member
  have place := ordered.placed _ member
  have found : p.statements[k]? = some p.statements[k] := Array.getElem?_eq_getElem inside
  have near {j : Nat} {other : Statement} (h : p.statements[j]? = some other) :
      p.liesBefore j p.statements[k].ip = decide (other.ip < p.statements[k].ip) := by
    have there := ordered.placed other (Array.mem_of_getElem? h)
    rw [liesBefore_eq h, distance_eq_sub (by omega) (by omega)]
    exact decide_eq_decide.mpr ⟨Int.lt_of_sub_neg, Int.sub_neg_of_lt⟩
  have boundary : p.lowerBound p.statements[k].ip 0 p.size = k := by
    refine lowerBound_eq (fun j smaller => ?_) (fun j larger => ?_) (Nat.zero_le k)
      (Nat.le_of_lt inside)
    · have other : p.statements[j]? = some p.statements[j] := Array.getElem?_eq_getElem (by omega)
      rw [near other]
      exact decide_eq_true (ordered.increasing j k _ _ smaller other found)
    · cases other : p.statements[j]? with
      | none => simp [liesBefore, other]
      | some later =>
        rw [near other]
        refine decide_eq_false (Int.not_lt.mpr ?_)
        rcases Nat.lt_or_eq_of_le larger with behind | rfl
        · exact Int.le_of_lt (ordered.increasing k j _ _ behind found other)
        · rw [found] at other
          cases other
          exact Int.le_refl _
  rw [search?, boundary, found]
  simp [distance_eq_sub]

/-! ### Looking up -/

theorem mem_of_direct? (h : p.direct? ip = some statement) :
    statement ∈ p.statements ∧ statement.ip = ip := by
  unfold direct? at h
  split at h
  · cases h
  · split at h
    · rename_i found
      split at h
      · cases h
        exact ⟨Array.mem_of_getElem? found, by assumption⟩
      · cases h
    · cases h

theorem mem_of_search? (ordered : p.Ordered) (lower : -2 ^ 63 ≤ ip) (upper : ip < 2 ^ 63)
    (h : p.search? ip = some statement) : statement ∈ p.statements ∧ statement.ip = ip := by
  unfold search? at h
  split at h
  · rename_i found
    split at h
    · rename_i near
      cases h
      have member := Array.mem_of_getElem? found
      have place := ordered.placed _ member
      exact ⟨member, eq_of_distance_eq_zero (by omega) (by omega) near⟩
    · cases h
  · cases h

/-- Two statements at one address are the same. -/
theorem Ordered.eq_of_ip_eq (ordered : p.Ordered) {a b : Statement} (ha : a ∈ p.statements)
    (hb : b ∈ p.statements) (same : a.ip = b.ip) : a = b := by
  obtain ⟨j, insideA, rfl⟩ := Array.getElem_of_mem ha
  obtain ⟨k, insideB, rfl⟩ := Array.getElem_of_mem hb
  have foundA : p.statements[j]? = some p.statements[j] := Array.getElem?_eq_getElem insideA
  have foundB : p.statements[k]? = some p.statements[k] := Array.getElem?_eq_getElem insideB
  rcases Nat.lt_trichotomy j k with before | rfl | behind
  · have apart := ordered.increasing j k _ _ before foundA foundB
    omega
  · rfl
  · have apart := ordered.increasing k j _ _ behind foundB foundA
    omega

/-- Halving finds the statement at an address, if there is one. -/
theorem Ordered.search?_eq_some_iff (ordered : p.Ordered) (lower : -2 ^ 63 ≤ ip)
    (upper : ip < 2 ^ 63) :
    p.search? ip = some statement ↔ statement ∈ p.statements ∧ statement.ip = ip := by
  constructor
  · exact mem_of_search? ordered lower upper
  · rintro ⟨member, rfl⟩
    exact ordered.search?_eq member

/-- An address is looked up to the statement that lies there, if there is one. -/
theorem Ordered.at?_eq_some_iff (ordered : p.Ordered) (lower : -2 ^ 63 ≤ ip) (upper : ip < 2 ^ 63) :
    p.at? ip = some statement ↔ statement ∈ p.statements ∧ statement.ip = ip := by
  rw [at?, Option.or_eq_some_iff]
  constructor
  · rintro (direct | ⟨-, searched⟩)
    · exact mem_of_direct? direct
    · exact mem_of_search? ordered lower upper searched
  · rintro ⟨member, rfl⟩
    cases direct : p.direct? statement.ip with
    | none => exact .inr ⟨rfl, ordered.search?_eq member⟩
    | some other =>
      obtain ⟨found, same⟩ := mem_of_direct? direct
      exact .inl (congrArg some (ordered.eq_of_ip_eq found member same))

/-! ### Looking at all statements -/

/-- The statement at an address, found by looking at one after the other. -/
def scan? (p : Program) (ip : Int) : Option Statement :=
  p.statements.toList.find? fun statement => statement.ip = ip

theorem mem_of_scan? (h : p.scan? ip = some statement) :
    statement ∈ p.statements ∧ statement.ip = ip :=
  ⟨Array.mem_toList_iff.mp (List.mem_of_find?_eq_some h), by simpa using List.find?_some h⟩

theorem scan?_eq_none_iff : p.scan? ip = none ↔ ∀ statement ∈ p.statements, statement.ip ≠ ip := by
  simp [scan?]

theorem Ordered.scan?_eq_some_iff (ordered : p.Ordered) :
    p.scan? ip = some statement ↔ statement ∈ p.statements ∧ statement.ip = ip := by
  constructor
  · exact mem_of_scan?
  · rintro ⟨member, rfl⟩
    cases scanned : p.scan? statement.ip with
    | none => exact absurd rfl (scan?_eq_none_iff.mp scanned statement member)
    | some other =>
      obtain ⟨found, same⟩ := mem_of_scan? scanned
      exact congrArg some (ordered.eq_of_ip_eq found member same)

/-- **Looking up an address is a linear scan.** In a program whose statements are in the order of
their addresses, with or without gaps, every 64-bit address is looked up to the statement that lies
there, and to nothing if there is none. Halving alone finds what looking at all statements finds,
also where the difference of two addresses wraps around, and so does the statement whose position
is the address, if there is one. -/
theorem lookup_is_linear_scan (ordered : p.Ordered) (lower : -2 ^ 63 ≤ ip) (upper : ip < 2 ^ 63) :
    (∀ statement, p.at? ip = some statement ↔ statement ∈ p.statements ∧ statement.ip = ip) ∧
    (p.at? ip = none ↔ ∀ statement ∈ p.statements, statement.ip ≠ ip) ∧
    p.at? ip = p.scan? ip ∧ p.search? ip = p.scan? ip ∧
    ∀ statement, p.direct? ip = some statement → p.scan? ip = some statement := by
  have found (statement : Statement) :
      p.at? ip = some statement ↔ statement ∈ p.statements ∧ statement.ip = ip :=
    ordered.at?_eq_some_iff lower upper
  have same : p.at? ip = p.scan? ip :=
    Option.ext fun statement => (found statement).trans ordered.scan?_eq_some_iff.symm
  refine ⟨found, ?_, same, ?_, ?_⟩
  · rw [same, scan?_eq_none_iff]
  · exact Option.ext fun statement =>
      (ordered.search?_eq_some_iff lower upper).trans ordered.scan?_eq_some_iff.symm
  · exact fun statement direct => ordered.scan?_eq_some_iff.mpr (mem_of_direct? direct)

/-- Statements with gaps before and between them, the last one at the greatest address. -/
private def spread : Program where
  statements := #[
    { line := 1, ip := 3, instr := .ofOpcode .push 1 },
    { line := 2, ip := 7, instr := .ofOpcode .dup 0 },
    { line := 4, ip := 2 ^ 63 - 1, instr := .ofOpcode .halt 0 }]

/-- A statement behind a gap is found. At the least address there is none, although the last
statement seems to lie before it. -/
theorem lookup_is_linear_scan_spread :
    spread.Ordered ∧ (spread.at? 7).map (·.line) = some 2 ∧
    spread.liesBefore 2 (-2 ^ 63) = true ∧ spread.at? (-2 ^ 63) = none := by
  have ordered : spread.Ordered := ordered_of_pairwise (by decide) (by decide)
  obtain ⟨-, -, there, -⟩ :=
    lookup_is_linear_scan ordered (show (-2 ^ 63 : Int) ≤ 7 by decide) (by decide)
  obtain ⟨-, none, -⟩ :=
    lookup_is_linear_scan ordered (show (-2 ^ 63 : Int) ≤ -2 ^ 63 by decide) (by decide)
  exact ⟨ordered, by rw [there]; decide, by decide, none.mpr (by decide)⟩

end Program

end StackMachine
