import Mathlib.Data.List.Perm.Basic
import Mathlib.Data.List.SplitBy
import Spreadsheet.Proofs.Reference
import Spreadsheet.Proofs.Text
import Spreadsheet.Range.Listing

/-!
# Sets of cells are written and read back

The text of a set of cells has one entry for each maximal run of cells that follow one another in a column.  Reading it
gives the cells of its entries one after the other, and these are the cells of the set, each once, column by column.

* `distinct` — the cells of a list in this order; `distinct_congr`: they are the same for lists of the same cells.
* `expandEntries?_eq` — entries whose cells are known are expanded if there is room for all of them together.
* `Upright` — a block that is a part of one column; `upright_extent`: each run is one, from its first cell to its last.
* `pairwise_follows` — two runs of one column have a gap between them.
* `expand?_collapse` — what reading the text of a set of cells gives.
-/

namespace Spreadsheet

namespace Text

/-- Words that are written with a divider between them are found again. -/
theorem words_intercalate {divider : Char} (blank : isBlank divider = true) {parts : List (List Char)}
    (ne : ∀ part ∈ parts, part ≠ []) (plain : ∀ part ∈ parts, ∀ c ∈ part, isBlank c = false) :
    words ([divider].intercalate parts) = parts := by
  by_cases empty : parts = []
  · subst empty
    rfl
  · rw [words, split_intercalate blank empty plain, List.filter_eq_self]
    intro part mem
    simpa using ne part mem

end Text

namespace Listing

/-! ### The cells of a set in order -/

/-- Column by column, and by row within a column. -/
def Precedes (a b : Address) : Prop :=
  a.column < b.column ∨ a.column = b.column ∧ a.row < b.row

theorem columnFirst_iff {a b : Address} : columnFirst a b = true ↔ Precedes a b ∨ a = b := by
  rcases a with ⟨row, column⟩
  rcases b with ⟨row', column'⟩
  simp only [columnFirst, Precedes, Bool.or_eq_true, Bool.and_eq_true, decide_eq_true_eq, Address.mk.injEq]
  omega

theorem Precedes.trans {a b c : Address} (h : Precedes a b) (h' : Precedes b c) : Precedes a c := by
  simp only [Precedes] at h h' ⊢
  omega

theorem Precedes.asymm {a b : Address} (h : Precedes a b) : ¬Precedes b a := by
  simp only [Precedes] at h ⊢
  omega

theorem Precedes.ne {a b : Address} (h : Precedes a b) : a ≠ b := by
  rintro rfl
  exact h.asymm h

/-- The cells of a list, each once, column by column. -/
def distinct (cells : List Address) : List Address :=
  (cells.mergeSort columnFirst).eraseReps

theorem eraseRepsBy_loop (r : Address → Address → Bool) (a : Address) (s done : List Address) :
    List.eraseRepsBy.loop r a s done = done.reverse ++ List.eraseRepsBy.loop r a s [] := by
  induction s generalizing a done with
  | nil => exact List.reverse_cons
  | cons b s ih =>
    show (match r a b with
      | true => List.eraseRepsBy.loop r a s done
      | false => List.eraseRepsBy.loop r b s (a :: done)) = done.reverse ++ match r a b with
      | true => List.eraseRepsBy.loop r a s []
      | false => List.eraseRepsBy.loop r b s [a]
    cases r a b with
    | true => exact ih a done
    | false =>
      have here : List.eraseRepsBy.loop r b s (a :: done) = done.reverse ++ List.eraseRepsBy.loop r b s [a] := by
        rw [ih b (a :: done), ih b [a]]
        simp
      exact here

theorem eraseReps_cons_cons (a b : Address) (s : List Address) :
    (a :: b :: s).eraseReps = if a = b then (a :: s).eraseReps else a :: (b :: s).eraseReps := by
  show (match a == b with
    | true => List.eraseRepsBy.loop (· == ·) a s []
    | false => List.eraseRepsBy.loop (· == ·) b s [a]) = _
  by_cases same : a = b
  · rw [if_pos same, beq_iff_eq.2 same]
    rfl
  · rw [if_neg same, beq_eq_false_iff_ne.2 same]
    exact eraseRepsBy_loop _ b s [a]

/-- In a sorted list equal cells are neighbours, so that each cell stays once. -/
theorem eraseReps_of_sorted {a : Address} {s : List Address} (sorted : (a :: s).Pairwise (columnFirst · ·)) :
    (a :: s).eraseReps.Pairwise Precedes ∧ ∀ b, b ∈ (a :: s).eraseReps ↔ b ∈ a :: s := by
  induction s generalizing a with
  | nil => exact ⟨List.pairwise_singleton _ a, fun b => Iff.rfl⟩
  | cons b s ih =>
    obtain ⟨first, rest⟩ := List.pairwise_cons.1 sorted
    rw [eraseReps_cons_cons]
    split
    · next same =>
      subst same
      obtain ⟨ordered, members⟩ := ih rest
      refine ⟨ordered, fun c => ?_⟩
      rw [members]
      simp
    · next other =>
      obtain ⟨ordered, members⟩ := ih rest
      have before : Precedes a b := (columnFirst_iff.1 (first b List.mem_cons_self)).resolve_right other
      refine ⟨List.pairwise_cons.2 ⟨fun c mem => ?_, ordered⟩, fun c => ?_⟩
      · rcases List.mem_cons.1 ((members c).1 mem) with rfl | behind
        · exact before
        · rcases columnFirst_iff.1 ((List.pairwise_cons.1 rest).1 c behind) with later | rfl
          · exact before.trans later
          · exact before
      · rw [List.mem_cons, members]
        exact List.mem_cons.symm

theorem pairwise_mergeSort (cells : List Address) : (cells.mergeSort columnFirst).Pairwise (columnFirst · ·) := by
  refine List.pairwise_mergeSort (fun a b c hab hbc => ?_) (fun a b => ?_) cells
  · rw [columnFirst_iff] at hab hbc ⊢
    rcases hab with hab | rfl
    · rcases hbc with hbc | rfl
      · exact .inl (hab.trans hbc)
      · exact .inl hab
    · exact hbc
  · simp only [columnFirst, Bool.or_eq_true, Bool.and_eq_true, decide_eq_true_eq]
    omega

theorem eraseReps_spec {s : List Address} (sorted : s.Pairwise (columnFirst · ·)) :
    s.eraseReps.Pairwise Precedes ∧ ∀ b, b ∈ s.eraseReps ↔ b ∈ s := by
  cases s with
  | nil => exact ⟨.nil, fun _ => Iff.rfl⟩
  | cons a s => exact eraseReps_of_sorted sorted

theorem pairwise_distinct (cells : List Address) : (distinct cells).Pairwise Precedes :=
  (eraseReps_spec (pairwise_mergeSort cells)).1

@[simp] theorem mem_distinct {cells : List Address} {a : Address} : a ∈ distinct cells ↔ a ∈ cells :=
  ((eraseReps_spec (pairwise_mergeSort cells)).2 a).trans List.mem_mergeSort

/-- Only one list has given cells in this order. -/
theorem eq_of_pairwise {s t : List Address} (hs : s.Pairwise Precedes) (ht : t.Pairwise Precedes)
    (same : ∀ a, a ∈ s ↔ a ∈ t) : s = t := by
  have perm : s.Perm t :=
    (List.perm_ext_iff_of_nodup (hs.imp Precedes.ne) (ht.imp Precedes.ne)).2 same
  exact perm.eq_of_pairwise (fun a b _ _ before behind => absurd behind before.asymm) hs ht

theorem distinct_congr {s t : List Address} (same : ∀ a, a ∈ s ↔ a ∈ t) : distinct s = distinct t :=
  eq_of_pairwise (pairwise_distinct s) (pairwise_distinct t) (by simpa using same)

theorem collapse_congr {s t : List Address} (same : distinct s = distinct t) : collapse s = collapse t := by
  have runs : runs s = runs t := congrArg (List.splitBy isBelow) same
  rw [collapse, runs, collapse]

/-! ### Runs of cells -/

/-- A block that is a part of one column, given by its first and its last cell. -/
structure Upright (r : Range) : Prop where
  column : r.first.column = r.last.column
  rows : r.first.row ≤ r.last.row

theorem Upright.cells_eq {r : Range} (h : Upright r) :
    r.cells = (List.range' r.first.row (r.last.row - r.first.row + 1)).map fun row => ⟨row, r.first.column⟩ := by
  have width : Range.between r.first.column r.last.column = [r.first.column] := by
    rw [Range.between, ← h.column, Nat.min_self, Nat.max_self, Nat.sub_self]
    rfl
  have height : Range.between r.first.row r.last.row =
      List.range' r.first.row (r.last.row - r.first.row + 1) := by
    rw [Range.between, Nat.min_eq_left h.rows, Nat.max_eq_right h.rows]
  rw [Range.cells, width, height]
  simp only [List.map_cons, List.map_nil]
  exact List.flatMap_pure_eq_map _ _

theorem Upright.length_cells {r : Range} (h : Upright r) : r.cells.length = r.last.row - r.first.row + 1 := by
  rw [h.cells_eq, List.length_map, List.length_range']

theorem Upright.count?_eq {r : Range} (h : Upright r) (below : r.last.row + 1 < indexBound) :
    r.count? = some r.cells.length := by
  have rows := h.rows
  have small : r.cells.length < indexBound := by
    rw [h.length_cells]
    omega
  rw [r.count?_eq, if_pos small]

theorem upright_single (a : Address) : Upright ⟨a, a⟩ :=
  ⟨rfl, Nat.le_refl _⟩

/-- A block of a column begins with a cell above it if it is put there. -/
theorem Upright.cells_cons {a b last : Address} (h : Upright ⟨b, last⟩) (below : isBelow a b = true) :
    Upright ⟨a, last⟩ ∧ (Range.mk a last).cells = a :: (Range.mk b last).cells ∧ a ≠ last := by
  simp only [isBelow, Bool.and_eq_true, decide_eq_true_eq] at below
  obtain ⟨column, row⟩ := below
  have rows : b.row ≤ last.row := h.rows
  have upright : Upright ⟨a, last⟩ := ⟨column.symm.trans h.column, show a.row ≤ last.row by omega⟩
  refine ⟨upright, ?_, ?_⟩
  · have more : last.row - a.row = last.row - b.row + 1 := by omega
    rw [upright.cells_eq, h.cells_eq, more, List.range'_succ, List.map_cons, row, column]
  · rintro rfl
    omega

/-- The first and the last cell of a run. -/
def extent : List Address → Range
  | [] => ⟨⟨0, 0⟩, ⟨0, 0⟩⟩
  | a :: rest => ⟨a, (a :: rest).getLast (List.cons_ne_nil a rest)⟩

theorem extent_of_ne_nil {run : List Address} (ne : run ≠ []) : extent run = ⟨run.head ne, run.getLast ne⟩ := by
  cases run with
  | nil => exact absurd rfl ne
  | cons a rest => rfl

/-- The text of a block of a column: the name of its only cell, or those of its first and its last one. -/
def entryText (r : Range) : List Char :=
  if r.first = r.last then r.first.name else r.text

/-- A run is the block from its first cell to its last. -/
theorem upright_extent {run : List Address} (ne : run ≠ []) (chain : run.IsChain (isBelow · ·)) :
    Upright (extent run) ∧ (extent run).cells = run ∧ runText run = entryText (extent run) := by
  induction run with
  | nil => exact absurd rfl ne
  | cons a rest ih =>
    cases rest with
    | nil =>
      refine ⟨upright_single a, ?_, (if_pos rfl).symm⟩
      rw [extent, List.getLast_singleton, (upright_single a).cells_eq, Nat.sub_self]
      rfl
    | cons b rest =>
      obtain ⟨below, chain⟩ := List.isChain_cons_cons.1 chain
      obtain ⟨upright, cells, -⟩ := ih (by simp) chain
      rw [extent] at upright cells
      have last : (a :: b :: rest).getLast (by simp) = (b :: rest).getLast (by simp) := List.getLast_cons (by simp)
      obtain ⟨upright', cells', other⟩ := upright.cells_cons below
      rw [extent, last]
      exact ⟨upright', cells'.trans (congrArg _ cells), (if_neg other).symm⟩

/-- The blocks of the runs of a set of cells. -/
def entries (cells : List Address) : List Range :=
  (runs cells).map extent

theorem upright_of_mem_runs {cells run : List Address} (mem : run ∈ runs cells) :
    Upright (extent run) ∧ (extent run).cells = run ∧ runText run = entryText (extent run) :=
  upright_extent (List.ne_nil_of_mem_splitBy mem) (List.isChain_of_mem_splitBy mem)

theorem upright_of_mem_entries {cells : List Address} {r : Range} (mem : r ∈ entries cells) : Upright r := by
  obtain ⟨run, listed, rfl⟩ := List.mem_map.1 mem
  exact (upright_of_mem_runs listed).1

/-- The cells of the entries, one after the other, are the cells of the set in order. -/
theorem flatMap_cells_entries (cells : List Address) : (entries cells).flatMap Range.cells = distinct cells := by
  have same : (runs cells).map (fun run => (extent run).cells) = (runs cells).map id :=
    List.map_congr_left fun run mem => (upright_of_mem_runs mem).2.1
  rw [entries, List.flatMap_map, List.flatMap_def, same, List.map_id]
  exact List.flatten_splitBy _ _

theorem map_entryText_entries (cells : List Address) : (entries cells).map entryText = (runs cells).map runText := by
  rw [entries, List.map_map]
  exact List.map_congr_left fun run mem => (upright_of_mem_runs mem).2.2.symm

/-! ### Gaps between runs -/

/-- A block of a column stands behind another one, and if it is in the same column there is a gap between them. -/
def Follows (s r : Range) : Prop :=
  Upright s ∧ (r.first.column < s.first.column ∨
    r.first.column = s.first.column ∧ r.last.row + 1 < s.first.row)

theorem Follows.trans {r s t : Range} (h : Follows s r) (h' : Follows t s) : Follows t r := by
  obtain ⟨upright, behind⟩ := h
  obtain ⟨upright', behind'⟩ := h'
  have rows := upright.rows
  exact ⟨upright', by omega⟩

instance : Trans (fun r s => Follows s r) (fun r s => Follows s r) (fun r s => Follows s r) :=
  ⟨Follows.trans⟩

/-- A run that does not go on below another one leaves a gap behind it. -/
theorem follows_extent {s t : List Address} (ne : s ≠ []) (ne' : t ≠ []) (upright : Upright (extent s))
    (upright' : Upright (extent t)) (before : Precedes (s.getLast ne) (t.head ne'))
    (apart : isBelow (s.getLast ne) (t.head ne') = false) : Follows (extent t) (extent s) := by
  refine ⟨upright', ?_⟩
  have column := upright.column
  simp only [isBelow, Bool.and_eq_false_iff, decide_eq_false_iff_not, Precedes] at apart before
  simp only [extent_of_ne_nil ne] at column
  simp only [extent_of_ne_nil ne, extent_of_ne_nil ne']
  omega

/-- The runs of one column have gaps between them. -/
theorem pairwise_follows (cells : List Address) : (entries cells).Pairwise fun r s => Follows s r := by
  have flat : (runs cells).flatten.Pairwise Precedes := by
    rw [show (runs cells).flatten = distinct cells from List.flatten_splitBy _ _]
    exact pairwise_distinct cells
  have ordered := List.isChain_iff_getElem.1 (List.pairwise_flatten.1 flat).2.isChain
  have ends : (runs cells).IsChain fun s t =>
      ∃ (ne : s ≠ []) (ne' : t ≠ []), isBelow (s.getLast ne) (t.head ne') = false :=
    List.isChain_getLast_head_splitBy _ _
  rw [← List.isChain_iff_pairwise, entries, List.isChain_map, List.isChain_iff_getElem]
  intro i inside
  obtain ⟨upright, -, -⟩ := upright_of_mem_runs (List.getElem_mem (Nat.lt_of_succ_lt inside))
  obtain ⟨upright', -, -⟩ := upright_of_mem_runs (List.getElem_mem inside)
  obtain ⟨ne, ne', apart⟩ := List.isChain_iff_getElem.1 ends i inside
  have before := ordered i inside _ (List.getLast_mem ne) _ (List.head_mem ne')
  exact follows_extent ne ne' upright upright' before apart

/-! ### Reading entries -/

/-- A range is read back if its corners have names that are read. -/
theorem read?_text {r : Range} (first : r.first.row + 1 < indexBound ∧ r.first.column + 1 < indexBound)
    (last : r.last.row + 1 < indexBound ∧ r.last.column + 1 < indexBound) : Range.read? r.text = some r := by
  have plain (a : Address) : ∀ c ∈ a.name, decide (c = ':') = false := fun c mem =>
    decide_eq_false fun same => Address.not_mem_name (by decide) a (same ▸ mem)
  have parts : Text.split (· = ':') r.text = [r.first.name, r.last.name] := by
    rw [Range.text, Text.split_append_cons _ (plain r.first) (by decide), Text.split_of_forall (plain r.last)]
  simp only [Range.read?, parts, Address.read?_name first.1 first.2, Address.read?_name last.1 last.2]

/-- An entry is expanded to the cells of its block if there is room for them. -/
theorem entryCells?_entryText {r : Range} (upright : Upright r) (row : r.last.row + 1 < indexBound)
    (column : r.first.column + 1 < indexBound) (room : Nat) :
    entryCells? room (entryText r) = if r.cells.length ≤ room then some r.cells else none := by
  have rows := upright.rows
  have columns := upright.column
  rw [entryText]
  split
  · next single =>
    obtain ⟨first, last⟩ := r
    obtain rfl : first = last := single
    have plain : ':' ∉ first.name := Address.not_mem_name (by decide) first
    have cells : (Range.mk first first).cells = [first] := by
      rw [upright.cells_eq, Nat.sub_self]
      rfl
    rw [entryCells?, if_neg plain, cells, Address.read?_name row column]
    cases room with
    | zero => rfl
    | succ room => simp
  · have colon : ':' ∈ r.text := by simp [Range.text]
    have read := @read?_text r ⟨by omega, column⟩ ⟨row, by omega⟩
    rw [entryCells?, if_pos colon, read, Option.bind_some, upright.count?_eq row, Option.bind_some]

/-- Entries whose cells are known are expanded one after the other if there is room for all of their cells. -/
theorem expandEntries?_eq {texts : List (List Char)} {found : List (List Address)}
    (known : List.Forall₂ (fun text cells => ∀ room, entryCells? room text =
      if cells.length ≤ room then some cells else none) texts found) (room : Nat) (done : List (List Address)) :
    expandEntries? room done texts =
      if found.flatten.length ≤ room then some (done.reverse.flatten ++ found.flatten) else none := by
  induction known generalizing room done with
  | nil => simp [expandEntries?]
  | @cons text cells texts found first _ ih =>
    rw [expandEntries?, first room, List.flatten_cons, List.length_append]
    by_cases fits : cells.length ≤ room
    · have rest : found.flatten.length ≤ room - cells.length ↔ cells.length + found.flatten.length ≤ room := by omega
      simp only [if_pos fits, ih, rest]
      simp
    · have full : ¬cells.length + found.flatten.length ≤ room := by omega
      simp only [if_neg fits, if_neg full]

/-! ### Sets of cells -/

/-- An entry is a word. -/
theorem word_entryText (r : Range) : entryText r ≠ [] ∧ ∀ c ∈ entryText r, Text.isBlank c = false := by
  have plain (a : Address) : ∀ c ∈ a.name, Text.isBlank c = false := fun c mem =>
    (a.isAlphanum_name c mem).elim Text.isBlank_of_isAlpha Text.isBlank_of_isDigit
  rw [entryText]
  split
  · exact ⟨r.first.name_ne_nil, plain r.first⟩
  · refine ⟨by simp [Range.text], fun c mem => ?_⟩
    rcases List.mem_append.1 mem with first | behind
    · exact plain r.first c first
    · rcases List.mem_cons.1 behind with rfl | last
      · decide
      · exact plain r.last c last

/-- The words of the text of a set of cells are its entries. -/
theorem words_collapse (cells : List Address) : Text.words (collapse cells) = (entries cells).map entryText := by
  rw [collapse, ← map_entryText_entries]
  refine Text.words_intercalate (by decide) ?_ ?_
  · intro part mem
    obtain ⟨r, -, rfl⟩ := List.mem_map.1 mem
    exact (word_entryText r).1
  · intro part mem
    obtain ⟨r, -, rfl⟩ := List.mem_map.1 mem
    exact (word_entryText r).2

/-- **A set of cells is read back.** The text of cells whose coordinates are below the bound is expanded to these
cells, each once and column by column, unless there are more than the limit; then it is not expanded.  The text is the
same for all lists of the same cells, so what has been expanded is written as the same text again.  Its words are blocks
of single columns, and two blocks of one column neither overlap nor touch. -/
theorem expand?_collapse {cells : List Address}
    (below : ∀ a ∈ cells, a.row + 1 < indexBound ∧ a.column + 1 < indexBound) :
    ∃ members : List Address, members.Pairwise Precedes ∧ (∀ a, a ∈ members ↔ a ∈ cells) ∧
      expand? (collapse cells) = (if members.length ≤ expansionLimit then some members else none) ∧
      collapse members = collapse cells ∧
      (∀ others : List Address, (∀ a, a ∈ others ↔ a ∈ cells) → collapse others = collapse cells) ∧
      ∃ blocks : List Range, (∀ r ∈ blocks, Upright r) ∧ Text.words (collapse cells) = blocks.map entryText ∧
        blocks.flatMap Range.cells = members ∧
        blocks.Pairwise fun r s => r.first.column = s.first.column → r.last.row + 1 < s.first.row := by
  have members (a : Address) : a ∈ distinct cells ↔ a ∈ cells := mem_distinct
  refine ⟨distinct cells, pairwise_distinct cells, members, ?_, collapse_congr (distinct_congr members),
    fun others same => collapse_congr (distinct_congr same), entries cells, fun r => upright_of_mem_entries,
    words_collapse cells, flatMap_cells_entries cells, ?_⟩
  · have inside : ∀ r ∈ entries cells, ∀ a ∈ r.cells, a.row + 1 < indexBound ∧ a.column + 1 < indexBound := by
      intro r mem a inside
      have listed : a ∈ (entries cells).flatMap Range.cells := List.mem_flatMap.2 ⟨r, mem, inside⟩
      rw [flatMap_cells_entries, members] at listed
      exact below a listed
    have known : List.Forall₂ (fun text found => ∀ room, entryCells? room text =
        if found.length ≤ room then some found else none)
        ((entries cells).map entryText) ((entries cells).map Range.cells) := by
      rw [List.forall₂_map_left_iff, List.forall₂_map_right_iff, List.forall₂_same]
      intro r mem room
      have upright := upright_of_mem_entries mem
      have column := upright.column
      have rows := upright.rows
      have first : r.first ∈ r.cells := Range.mem_cells.2 (by omega)
      have last : r.last ∈ r.cells := Range.mem_cells.2 (by omega)
      exact entryCells?_entryText upright (inside r mem _ last).1 (inside r mem _ first).2 room
    rw [expand?, words_collapse, expandEntries?_eq known, ← List.flatMap_def, flatMap_cells_entries]
    rfl
  · exact (pairwise_follows cells).imp fun follows => by
      obtain ⟨-, behind⟩ := follows
      omega

/-- Five cells out of order, one of them twice: two entries of one column, which a gap divides, and one of another. -/
theorem expand?_collapse_unordered :
    let cells : List Address := [⟨2, 2⟩, ⟨1, 0⟩, ⟨3, 0⟩, ⟨0, 0⟩, ⟨1, 0⟩]
    (∀ a ∈ cells, a.row + 1 < indexBound ∧ a.column + 1 < indexBound) ∧
      collapse cells = "A1:A2 A4 C3".toList ∧
      expand? "A1:A2 A4 C3".toList = some [⟨0, 0⟩, ⟨1, 0⟩, ⟨3, 0⟩, ⟨2, 2⟩] ∧
      ∀ others : List Address, (∀ a, a ∈ others ↔ a ∈ cells) → collapse others = "A1:A2 A4 C3".toList := by
  intro cells
  have below : ∀ a ∈ cells, a.row + 1 < indexBound ∧ a.column + 1 < indexBound := by decide
  have listed {members : List Address} (ordered : members.Pairwise Precedes) (same : ∀ a, a ∈ members ↔ a ∈ cells) :
      members = [⟨0, 0⟩, ⟨1, 0⟩, ⟨3, 0⟩, ⟨2, 2⟩] := by
    refine eq_of_pairwise ordered (by simp [Precedes]) fun a => ?_
    rw [same]
    simp only [cells, List.mem_cons, List.not_mem_nil, or_false]
    tauto
  have text : collapse cells = "A1:A2 A4 C3".toList := by
    have sorted := listed (pairwise_distinct cells) fun _ => mem_distinct
    rw [collapse, runs, ← distinct, sorted]
    decide +kernel
  obtain ⟨members, ordered, same, expanded, -, unique, -⟩ := expand?_collapse below
  rw [text] at expanded unique
  refine ⟨below, text, ?_, unique⟩
  rw [expanded, listed ordered same]
  rfl

end Listing

end Spreadsheet
