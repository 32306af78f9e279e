import Spreadsheet.Proofs.Formula.References
import Spreadsheet.Proofs.Reference.Spelling
import Spreadsheet.Proofs.Sheet
import Spreadsheet.Proofs.Text
import Spreadsheet.Range.Listing

/-!
# Lists of ranges are expanded up to the limit

An entry of a list is the name of a cell or two of them with a colon in between.  Expanding a list takes its entries in
turn, and what has been found and the room that is left always make up the limit.  So a list is expanded exactly if all
of its words are entries and their blocks have no more cells than the limit altogether.

* `Range.pairwise_cells`, `Range.SameBlock.cells_eq` — the order of the cells of a block, whichever corners are given.
* `Listing.Entry` — the entries and their blocks; `expands_entry_iff`: what is found for one.
* `Listing.Expanding` — the steps of an expansion; `Expanding.room_eq`: the room never runs below zero.
* `Listing.expandEntries?_eq_some_iff` — the whole run; `Listing.expand?_exact` puts all together.
-/

namespace Spreadsheet

/-! ### The cells of a block in order -/

namespace Range

theorem pairwise_between (i j : Nat) : (between i j).Pairwise (· < ·) :=
  List.pairwise_lt_range'

/-- The cells are listed row by row, and by column within a row, each of them once. -/
theorem pairwise_cells (r : Range) : r.cells.Pairwise Address.Before := by
  rw [cells, List.pairwise_flatMap]
  refine ⟨fun row _ => ?_, (pairwise_between _ _).imp fun above a memA b memB => .inl ?_⟩
  · exact List.pairwise_map.2 ((pairwise_between _ _).imp fun less => .inr ⟨rfl, less⟩)
  · obtain ⟨_, -, rfl⟩ := List.mem_map.1 memA
    obtain ⟨_, -, rfl⟩ := List.mem_map.1 memB
    exact above

/-- Two numbers in either order. -/
def SameEnds (i j i' j' : Nat) : Prop :=
  (i' = i ∧ j' = j) ∨ (i' = j ∧ j' = i)

theorem SameEnds.between_eq {i j i' j' : Nat} (h : SameEnds i j i' j') : between i' j' = between i j := by
  rcases h with ⟨rfl, rfl⟩ | ⟨rfl, rfl⟩
  · rfl
  · rw [between, between, Nat.max_comm, Nat.min_comm]

/-- The other block is given by opposite corners of this one. -/
structure SameBlock (r r' : Range) : Prop where
  rows : SameEnds r.first.row r.last.row r'.first.row r'.last.row
  columns : SameEnds r.first.column r.last.column r'.first.column r'.last.column

/-- It does not matter which two opposite corners are given, nor in which order. -/
theorem SameBlock.cells_eq {r r' : Range} (h : SameBlock r r') : r'.cells = r.cells := by
  rw [cells, cells, h.rows.between_eq, h.columns.between_eq]

end Range

/-! ### Entries -/

/-- A range is read from two names with a colon in between. -/
theorem Range.read?_eq_some_iff_exists {s : List Char} {r : Range} :
    Range.read? s = some r ↔
      ∃ first last, s = first ++ ':' :: last ∧ r.first.NamedBy first ∧ r.last.NamedBy last := by
  constructor
  · intro h
    rw [Range.read?] at h
    split at h
    · next first last parts =>
      split at h
      · next a b readFirst readLast =>
        cases h
        have whole := Text.intercalate_split s ':'
        rw [parts] at whole
        exact ⟨first, last, by simpa using whole.symm, Address.read?_eq_some_iff.1 readFirst,
          Address.read?_eq_some_iff.1 readLast⟩
      · cases h
    · cases h
  · rintro ⟨first, last, rfl, named, named'⟩
    have plain : ∀ c ∈ first, decide (c = ':') = false := fun c mem =>
      decide_eq_false fun same => named.colon_not_mem (same ▸ mem)
    have parts : Text.split (· = ':') (first ++ ':' :: last) = [first, last] := by
      rw [Text.split_append_cons _ plain (by decide), Area.split_eq_singleton named'.colon_not_mem]
    simp only [Range.read?, parts, Address.read?_eq_some_iff.2 named, Address.read?_eq_some_iff.2 named']

namespace Listing

/-- The entries of a list: the name of a cell, or the names of two corners with a colon in between. -/
inductive Entry : List Char → Range → Prop
  | cell {s : List Char} {a : Address} : a.NamedBy s → Entry s ⟨a, a⟩
  | block {first last : List Char} {a b : Address} :
      a.NamedBy first → b.NamedBy last → Entry (first ++ ':' :: last) ⟨a, b⟩

/-- An entry has only one block. -/
theorem Entry.unique {s : List Char} {r r' : Range} (h : Entry s r) (h' : Entry s r') : r = r' := by
  cases h with
  | cell named =>
    cases h' with
    | cell named' =>
      have same := (Address.read?_eq_some_iff.2 named).symm.trans (Address.read?_eq_some_iff.2 named')
      rw [Option.some.inj same]
    | block => exact absurd (by simp) named.colon_not_mem
  | block named last =>
    have read := (Range.read?_eq_some_iff_exists (r := ⟨_, _⟩)).2 ⟨_, _, rfl, named, last⟩
    generalize whole : _ ++ ':' :: _ = text at h' read
    cases h' with
    | cell named' => exact absurd (by simp [← whole]) named'.colon_not_mem
    | block named' last' =>
      have read' := (Range.read?_eq_some_iff_exists (r := ⟨_, _⟩)).2 ⟨_, _, rfl, named', last'⟩
      exact Option.some.inj (read.symm.trans read')

theorem eq_of_entries {texts : List (List Char)} {blocks blocks' : List Range} (h : List.Forall₂ Entry texts blocks)
    (h' : List.Forall₂ Entry texts blocks') : blocks = blocks' :=
  List.right_unique_forall₂' (R := Entry) (fun _ _ _ => Entry.unique) h h'

/-- The cells of an entry are found if there is room for them. -/
theorem expands_entry_iff {room : Nat} (small : room < indexBound) {s : List Char} {cells : List Address} :
    entryCells? room s = some cells ↔ ∃ r, Entry s r ∧ r.size ≤ room ∧ cells = r.cells := by
  have single (a : Address) : (Range.mk a a).cells = [a] := by simp [Range.cells, Range.between]
  constructor
  · intro h
    rw [entryCells?] at h
    split at h
    · obtain ⟨r, read, h⟩ := Option.bind_eq_some_iff.1 h
      obtain ⟨count, counted, h⟩ := Option.bind_eq_some_iff.1 h
      obtain ⟨fits, h⟩ := Option.ite_none_right_eq_some.1 h
      obtain ⟨-, same⟩ := Option.ite_none_right_eq_some.1 (r.count?_eq ▸ counted)
      obtain rfl := Option.some.inj h
      obtain rfl := Option.some.inj same
      obtain ⟨first, last, rfl, named, named'⟩ := Range.read?_eq_some_iff_exists.1 read
      exact ⟨r, .block named named', r.length_cells ▸ fits, rfl⟩
    · obtain ⟨some, h⟩ := Option.ite_none_left_eq_some.1 h
      obtain ⟨a, read, rfl⟩ := Option.map_eq_some_iff.1 h
      exact ⟨⟨a, a⟩, .cell (Address.read?_eq_some_iff.1 read), by rw [Range.size_single]; omega, (single a).symm⟩
  · rintro ⟨r, entry, fits, rfl⟩
    cases entry with
    | cell named =>
      rw [Range.size_single] at fits
      rw [entryCells?, if_neg named.colon_not_mem, if_neg (by omega), Address.read?_eq_some_iff.2 named, single]
      rfl
    | block named named' =>
      have read := (Range.read?_eq_some_iff_exists (r := ⟨_, _⟩)).2 ⟨_, _, rfl, named, named'⟩
      rw [← Range.length_cells] at fits
      rw [entryCells?, if_pos (by simp), read, Option.bind_some, Range.count?_eq, if_pos (by omega), Option.bind_some,
        if_pos fits]

/-! ### The run -/

/-- The steps of an expansion: the room that is left, what has been found with the newest entry first, and the entries
that are still to come. -/
inductive Expanding (texts : List (List Char)) : Nat → List (List Address) → List (List Char) → Prop
  | start : Expanding texts expansionLimit [] texts
  | next {room : Nat} {done : List (List Address)} {text : List Char} {rest : List (List Char)}
      {cells : List Address} : Expanding texts room done (text :: rest) → entryCells? room text = some cells →
      Expanding texts (room - cells.length) (cells :: done) rest

/-- What has been found and the room that is left make up the limit. -/
theorem Expanding.room_eq {texts rest : List (List Char)} {room : Nat} {done : List (List Address)}
    (h : Expanding texts room done rest) :
    done.flatten.length ≤ expansionLimit ∧ room = expansionLimit - done.flatten.length := by
  induction h with
  | start => exact ⟨Nat.zero_le _, rfl⟩
  | @next room done text rest cells _ found ih =>
    obtain ⟨within, rfl⟩ := ih
    have small : expansionLimit < indexBound := by decide
    obtain ⟨r, -, fits, rfl⟩ := (expands_entry_iff (by omega)).1 found
    rw [List.flatten_cons, List.length_append]
    rw [← Range.length_cells] at fits
    omega

/-- Entries are expanded exactly if there is room for the cells of all of them together. -/
theorem expandEntries?_eq_some_iff {room : Nat} (small : room < indexBound) {texts : List (List Char)}
    {done : List (List Address)} {cells : List Address} :
    expandEntries? room done texts = some cells ↔
      ∃ blocks, List.Forall₂ Entry texts blocks ∧ (blocks.map Range.size).sum ≤ room ∧
        cells = done.reverse.flatten ++ blocks.flatMap Range.cells := by
  induction texts generalizing room done with
  | nil => simp [expandEntries?, eq_comm]
  | cons text texts ih =>
    rw [expandEntries?]
    constructor
    · intro h
      split at h
      · cases h
      · next found =>
        obtain ⟨r, entry, fits, rfl⟩ := (expands_entry_iff small).1 found
        obtain ⟨blocks, entries, within, rfl⟩ := (ih (by omega)).1 h
        rw [Range.length_cells] at within
        refine ⟨r :: blocks, .cons entry entries, ?_, by simp⟩
        rw [List.map_cons, List.sum_cons]
        omega
    · rintro ⟨blocks, entries, within, rfl⟩
      obtain ⟨r, behind, entry, rest, rfl⟩ := List.forall₂_cons_left_iff.1 entries
      rw [List.map_cons, List.sum_cons] at within
      have found := (expands_entry_iff small).2 ⟨r, entry, by omega, rfl⟩
      simp only [found]
      refine (ih (by omega)).2 ⟨behind, rest, ?_, by simp⟩
      rw [Range.length_cells]
      omega

/-- **Expansion is exact up to the limit.** A list is expanded if and only if each of its words is an entry and all the
blocks together have at most as many cells as the limit, counted without a bound; what is found are the cells of the
blocks in the order of the entries.  The blocks are determined by the words.  At each step what has been found stays
within the limit, and the room is what is left of it.  The cells of a block are those between its corners, row by row
and each once, whichever opposite corners are given, and their number is given unless it reaches the bound of indices. -/
theorem expand?_exact (s : List Char) :
    (∀ cells, expand? s = some cells ↔
      ∃ blocks, List.Forall₂ Entry (Text.words s) blocks ∧ (blocks.map Range.size).sum ≤ expansionLimit ∧
        cells = blocks.flatMap Range.cells ∧ cells.length = (blocks.map Range.size).sum) ∧
    (∀ blocks blocks', List.Forall₂ Entry (Text.words s) blocks → List.Forall₂ Entry (Text.words s) blocks' →
      blocks = blocks') ∧
    (∀ room done rest, Expanding (Text.words s) room done rest →
      done.flatten.length ≤ expansionLimit ∧ room = expansionLimit - done.flatten.length) ∧
    ∀ r : Range, r.cells.length = r.size ∧
      (∀ a : Address, a ∈ r.cells ↔
        (min r.first.row r.last.row ≤ a.row ∧ a.row ≤ max r.first.row r.last.row) ∧
        min r.first.column r.last.column ≤ a.column ∧ a.column ≤ max r.first.column r.last.column) ∧
      r.cells.Pairwise Address.Before ∧ (∀ r', r.SameBlock r' → r'.cells = r.cells) ∧
      r.count? = if r.cells.length < Nat.pow 2 64 then some r.cells.length else none := by
  refine ⟨fun cells => ?_, fun blocks blocks' => eq_of_entries, fun room done rest steps => steps.room_eq, fun r =>
    ⟨r.length_cells, fun a => Range.mem_cells, r.pairwise_cells, fun r' same => same.cells_eq, r.count?_eq⟩⟩
  have small : expansionLimit < indexBound := by decide
  have length (blocks : List Range) : (blocks.flatMap Range.cells).length = (blocks.map Range.size).sum := by
    simp only [List.length_flatMap, Range.length_cells]
  rw [expand?, expandEntries?_eq_some_iff small]
  refine exists_congr fun blocks => and_congr_right fun _ => and_congr_right fun _ => ?_
  rw [List.reverse_nil, List.flatten_nil, List.nil_append]
  exact ⟨fun eq => ⟨eq, eq ▸ length blocks⟩, And.left⟩

/-- A list that fills the limit to the last cell is expanded, and with one cell more it is not.  The corners of the block
are spelled in different ways and the last one comes first, and blanks of different kinds stand between the entries. -/
theorem expand?_exact_full :
    let full := "$all$0999:a1\u3000 A1:ALL1".toList
    (∃ cells, expand? full = some cells ∧ cells.length = 1000000) ∧ expand? (full ++ "\nB2".toList) = none ∧
      (Range.mk ⟨998, 999⟩ ⟨0, 0⟩).count? = some 999000 ∧
      (Range.mk ⟨0, 999⟩ ⟨998, 0⟩).cells = (Range.mk ⟨998, 999⟩ ⟨0, 0⟩).cells := by
  intro full
  have named {s : List Char} {a : Address} (read : Address.read? s = some a) : a.NamedBy s :=
    Address.read?_eq_some_iff.1 read
  have first : Entry "$all$0999:a1".toList ⟨⟨998, 999⟩, ⟨0, 0⟩⟩ :=
    @Entry.block "$all$0999".toList "a1".toList _ _ (named (by decide +kernel)) (named (by decide +kernel))
  have second : Entry "A1:ALL1".toList ⟨⟨0, 0⟩, ⟨0, 999⟩⟩ :=
    @Entry.block "A1".toList "ALL1".toList _ _ (named (by decide +kernel)) (named (by decide +kernel))
  have third : Entry "B2".toList ⟨⟨1, 1⟩, ⟨1, 1⟩⟩ := .cell (named (by decide +kernel))
  have words : Text.words full = ["$all$0999:a1".toList, "A1:ALL1".toList] := by decide +kernel
  have words' : Text.words (full ++ "\nB2".toList) =
      ["$all$0999:a1".toList, "A1:ALL1".toList, "B2".toList] := by decide +kernel
  obtain ⟨fits, -, -, block⟩ := expand?_exact full
  obtain ⟨exceeds, unique, -, -⟩ := expand?_exact (full ++ "\nB2".toList)
  obtain ⟨length, -, -, corners, count⟩ := block ⟨⟨998, 999⟩, ⟨0, 0⟩⟩
  rw [words] at fits
  rw [words'] at exceeds unique
  refine ⟨?_, Option.eq_none_iff_forall_ne_some.2 fun cells found => ?_, ?_, corners _ ?_⟩
  · obtain ⟨cells, found⟩ : ∃ cells, expand? full = some cells :=
      ⟨_, (fits _).2 ⟨_, .cons first (.cons second .nil), by decide, rfl, by simp [Range.length_cells]⟩⟩
    obtain ⟨blocks, entries, -, -, total⟩ := (fits cells).1 found
    obtain rfl := eq_of_entries entries (.cons first (.cons second .nil))
    exact ⟨cells, found, total⟩
  · obtain ⟨blocks, entries, within, -⟩ := (exceeds cells).1 found
    obtain rfl := unique _ _ entries (.cons first (.cons second (.cons third .nil)))
    exact absurd within (by decide)
  · rw [count, length]
    decide
  · exact ⟨.inr ⟨rfl, rfl⟩, .inl ⟨rfl, rfl⟩⟩

end Listing

end Spreadsheet
