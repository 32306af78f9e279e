import Spreadsheet.Proofs.Document.LineEdit
import Spreadsheet.Proofs.Sheet.Cycles

/-!
# Edits and cycles

A cell whose formula closes a cycle is refused, and nothing else is checked: clearing a cell takes dependencies away,
and an edit of a line rewrites all formulas without a look at cycles.  That is enough as long as an edit only moves
dependencies.  It does more where a range has too many cells to be listed, for then its formula depends on none of
them: the deletion of a line may bring the range under the limit, and the cell then depends on all of its cells at once.

* `acyclic_insert`, `acyclic_shift` — cells that are put in or moved close no cycle.
* `Reveals` — a deletion brings a range under the limit.
* `Harmless` — an edit of a line that does not, and that pushes no cell off the grid.
* `circularReferences_of_edited` — without other edits no cycle is made, and the coordinates of all cells have 64 bits.
* `circularReferences_revealed` — a deletion that brings a range under the limit may make one.
-/

namespace Spreadsheet

open Relation

/-! ### The grid -/

/-- The coordinates of a cell have 64 bits. -/
def Address.OnGrid (a : Address) : Prop :=
  a.row < indexBound ∧ a.column < indexBound

instance (a : Address) : Decidable a.OnGrid :=
  inferInstanceAs (Decidable (_ ∧ _))

namespace LineEdit

variable {e : LineEdit}

theorem onGrid_iff {a : Address} : a.OnGrid ↔ e.lineOf a < indexBound ∧ e.crossOf a < indexBound := by
  cases axis : e.axis with
  | row => simp [Address.OnGrid, lineOf, crossOf, axis]
  | column => simp [Address.OnGrid, lineOf, crossOf, axis, and_comm]

/-- A cell that is moved stays on the grid, unless it is pushed off the last line. -/
theorem onGrid_of_moveAddress? {a a' : Address} (h : a.OnGrid) (move : e.moveAddress? a = some a')
    (room : e.change = .insert → e.line ≤ e.lineOf a → e.lineOf a + 1 < indexBound) : a'.OnGrid := by
  obtain ⟨line, cross⟩ := onGrid_iff.1 h
  obtain ⟨index, same⟩ := moveAddress?_eq_some_iff.1 move
  refine onGrid_iff.2 ⟨?_, same ▸ cross⟩
  cases change : e.change with
  | insert =>
    rw [moveIndex?_insert change, Option.some.injEq] at index
    split at index
    · next pushed => exact index ▸ room change pushed
    · exact index ▸ line
  | delete =>
    rw [moveIndex?_delete change, Option.ite_none_left_eq_some, Option.some.injEq] at index
    obtain ⟨-, index⟩ := index
    split at index <;> omega

end LineEdit

namespace Sheet

variable {s s' : Sheet}

/-! ### Changes of a sheet -/

/-- A sheet with fewer dependencies has no cycles either. -/
theorem Acyclic.mono (h : s.Acyclic) (fewer : ∀ a b, s'.Depends a b → s.Depends a b) : s'.Acyclic :=
  fun a cycle => h a (TransGen.mono fewer a a cycle)

theorem depends_insert_of_ne {a b c : Address} {cell : Cell} (other : b ≠ a) :
    Depends (s.insert a cell) b c ↔ s.Depends b c := by
  rw [Depends, Depends, dependsOn, dependsOn, Std.ExtTreeMap.getElem?_insert,
    if_neg (mt Address.compare_eq_iff.1 other.symm)]

theorem depends_erase {a b c : Address} (h : Depends (s.erase a) b c) : s.Depends b c := by
  rw [Depends, dependsOn, Std.ExtTreeMap.getElem?_erase] at h
  split at h
  · next found =>
    rw [Depends, dependsOn, (Option.ite_none_left_eq_some.1 found).2]
    exact h
  · simp at h

/-- If a cell has no dependencies or no cycle has been found from it, every way along the dependencies from it ends. -/
theorem grounded_insert {a : Address} {cell : Cell}
    (free : cell.dependsOn = [] ∨ findCycle (s.insert a cell) a = none) : Grounded (s.insert a cell) a := by
  rcases free with plain | nothing
  · refine .of_forall fun b step => ?_
    rw [Depends, dependsOn, Std.ExtTreeMap.getElem?_insert_self] at step
    simp [plain] at step
  · exact findCycle_eq_none_iff.1 nothing

/-- A cell may be put in if every way along the dependencies from it ends. -/
theorem acyclic_insert (h : s.Acyclic) {a : Address} {cell : Cell}
    (grounded : Grounded (s.insert a cell) a) : Acyclic (s.insert a cell) := by
  rw [acyclic_iff_grounded] at h ⊢
  intro b
  -- along the old dependencies, which all cells but the new one still have
  induction h b with
  | intro b _ ih =>
    by_cases same : b = a
    · exact same ▸ grounded
    · exact .of_forall fun c step => ih c ((@depends_insert_of_ne s a b c cell same).1 step)

/-- Cells may be moved if moved cells depend on each other only where they did before. -/
theorem acyclic_shift (h : s.Acyclic) {e : LineEdit}
    (held : ∀ a' ∈ s', ∃ a, e.moveAddress? a = some a')
    (moved : ∀ a b a' b', e.moveAddress? a = some a' → e.moveAddress? b = some b' →
      s'.Depends a' b' → s.Depends a b) : s'.Acyclic := by
  have cells (a : Address) : ∀ a', e.moveAddress? a = some a' → s'.Grounded a' := by
    induction acyclic_iff_grounded.1 h a with
    | intro a _ ih =>
      intro a' moveA
      refine .of_forall fun b' step => ?_
      by_cases mem : b' ∈ s'
      · obtain ⟨b, moveB⟩ := held b' mem
        exact ih b (moved a b a' b' moveA moveB step) b' moveB
      · exact grounded_of_not_mem mem
  refine acyclic_iff_grounded.2 fun a' => ?_
  by_cases mem : a' ∈ s'
  · obtain ⟨a, move⟩ := held a' mem
    exact cells a a' move
  · exact grounded_of_not_mem mem

end Sheet

namespace Document

/-! ### Edits -/

variable {d : Document}

/-- The operations that edit the sheet by hand or change how formulas are read. No file is opened. The cells that are
named have coordinates of 64 bits. -/
def Operation.Edits : Operation → Prop
  | .setInput a _ | .copy _ a => a.OnGrid
  | .clear _ | .editLine _ | .setOptions _ => True
  | .setCell _ _ | .load _ _ | .importCsv _ _ _ | .save _ | .saveAs _ _ => False

theorem Operation.Edits.proper {op : Operation} (h : op.Edits) : op.Proper := by
  cases op with
  | setCell => exact absurd h not_false
  | _ => trivial

/-- Only cells on the grid are filled by an edit. -/
theorem Puts.onGrid {op : Operation} {a : Address} {cell : Cell} (puts : Puts d op a cell) (edits : op.Edits) :
    a.OnGrid := by
  cases puts with
  | given => exact absurd edits not_false
  | entered | moved | copied => exact edits

/-- A formula names a range with too many cells to depend on them, and the edit brings it under the limit. -/
def Reveals (d : Document) (e : LineEdit) : Prop :=
  ∃ p, ∃ b ∈ Formula.blocks (d.sheet.tokensAt p), ¬b.Small ∧ ∃ b', e.moveBlock? b = some b' ∧ b'.Small

/-- An insertion brings no range under the limit. -/
theorem not_reveals_of_insert (d : Document) {e : LineEdit} (h : e.change = .insert) : ¬d.Reveals e := by
  rintro ⟨p, b, -, large, b', block, small⟩
  exact large (LineEdit.small_of_insert h block small)

/-- An edit of a line with which no sum leaves 64 bits and no range comes under the limit. -/
structure Harmless (d : Document) (e : LineEdit) : Prop where
  /-- No cell that an insertion pushes on is on the last line. -/
  room : e.change = .insert → ∀ a ∈ d.sheet, e.line ≤ e.lineOf a → e.lineOf a + 1 < indexBound
  /-- A deletion brings no range under the limit. -/
  hidden : e.change = .delete → ¬d.Reveals e

theorem Harmless.not_reveals {e : LineEdit} (h : d.Harmless e) : ¬d.Reveals e := by
  cases change : e.change with
  | insert => exact d.not_reveals_of_insert change
  | delete => exact h.hidden change

/-- The documents that edits lead to from a new one, as long as all edits of lines are harmless. -/
inductive Edited : Document → Prop
  | new (options : Formula.Options) : Edited (new options)
  | step {d : Document} {op : Operation} : Edited d → op.Edits → (∀ e, op = .editLine e → d.Harmless e) →
      Edited (d.perform op)

theorem Edited.reachable (h : Edited d) : Reachable Opened Operation.Proper d := by
  induction h with
  | new options => exact .start ⟨options, .inl rfl⟩
  | step _ edits _ ih => exact .step ih edits.proper

/-- The moved cells depend on each other only where they did before, unless a range has come under the limit. -/
theorem depends_of_editLine (reachable : Reachable Opened Operation.Proper d) {e : LineEdit}
    (hidden : ¬d.Reveals e) {p q p' q' : Address} (moveP : e.moveAddress? p = some p')
    (moveQ : e.moveAddress? q = some q') (h : (d.editLine e).sheet.Depends p' q') : d.sheet.Depends p q := by
  have coherent {d : Document} (h : Reachable Opened Operation.Proper d) :=
    h.holds inherited_coherent fun a cell built => Cell.Built.coherent built
  have scanned := reachable.holds inherited_scanned fun a cell built => Cell.Built.scanned built
  have after : Reachable Opened Operation.Proper (d.editLine e) :=
    @Reachable.step _ _ _ (.editLine e) reachable trivial
  obtain ⟨b', mem', small', inside⟩ := (mem_dependsOn_iff_small (coherent after)).1 h
  obtain ⟨cell', found', named'⟩ := exists_of_mem_blocks mem'
  obtain ⟨p₀, cell, found, moveP₀, rfl⟩ := getElem?_shiftSheet.1 found'
  obtain rfl := LineEdit.eq_of_moveAddress? moveP₀ moveP
  obtain ⟨b, named, block⟩ := exists_of_mem_blocks_shiftCell (scanned p₀ cell found) named'
  have mem : b ∈ Formula.blocks (d.sheet.tokensAt p₀) := by
    rw [Sheet.tokensAt, found]
    exact named
  have small : b.Small := by
    by_contra large
    exact hidden ⟨p₀, b, mem, large, b', block, small'⟩
  exact (mem_dependsOn_iff_small (coherent reachable)).2
    ⟨b, mem, small, (LineEdit.mem_cells_moveBlock? block moveQ).1 inside⟩

theorem acyclic_editLine (reachable : Reachable Opened Operation.Proper d) {e : LineEdit}
    (hidden : ¬d.Reveals e) (h : d.sheet.Acyclic) : (d.editLine e).sheet.Acyclic := by
  refine Sheet.acyclic_shift (e := e) h (fun a' mem => ?_) fun a b a' b' moveA moveB step =>
    depends_of_editLine reachable hidden moveA moveB step
  obtain ⟨a, cell, -, move, -⟩ := getElem?_shiftSheet.1 (Std.ExtTreeMap.getElem?_eq_some_getElem mem)
  exact ⟨a, move⟩

/-- One edit closes no cycle. -/
theorem acyclic_perform (reachable : Reachable Opened Operation.Proper d) {op : Operation} (edits : op.Edits)
    (harmless : ∀ e, op = .editLine e → d.Harmless e) (h : d.sheet.Acyclic) : (d.perform op).sheet.Acyclic := by
  generalize result : d.perform op = d'
  have change : Change d op d' := result ▸ change_perform d op
  cases change with
  | kept sheet => rwa [sheet]
  | removed a => exact h.mono fun _ _ step => Sheet.depends_erase step
  | put puts free => exact Sheet.acyclic_insert h (Sheet.grounded_insert free)
  | shifted e => exact acyclic_editLine reachable (harmless e rfl).not_reveals h
  | loaded | imported => exact absurd edits not_false

theorem Edited.acyclic (h : Edited d) : d.sheet.Acyclic := by
  induction h with
  | new options =>
    intro a cycle
    obtain ⟨b, step, -⟩ := TransGen.head'_iff.1 cycle
    exact Sheet.not_depends_of_not_mem Std.ExtTreeMap.not_mem_empty step
  | step before edits harmless ih => exact acyclic_perform before.reachable edits harmless ih

/-- One edit leaves all cells on the grid. -/
theorem onGrid_perform {op : Operation} (edits : op.Edits) (harmless : ∀ e, op = .editLine e → d.Harmless e)
    (h : ∀ a ∈ d.sheet, a.OnGrid) : ∀ a ∈ (d.perform op).sheet, a.OnGrid := by
  generalize result : d.perform op = d'
  have change : Change d op d' := result ▸ change_perform d op
  cases change with
  | kept sheet => rwa [sheet]
  | removed a => exact fun b mem => h b (Std.ExtTreeMap.mem_of_mem_erase mem)
  | put puts =>
    intro b mem
    rcases Std.ExtTreeMap.mem_insert.1 mem with same | old
    · exact Address.compare_eq_iff.1 same ▸ puts.onGrid edits
    · exact h b old
  | shifted e =>
    intro a' mem
    obtain ⟨a, cell, found, move, -⟩ := getElem?_shiftSheet.1 (Std.ExtTreeMap.getElem?_eq_some_getElem mem)
    have old : a ∈ d.sheet := Std.ExtTreeMap.mem_iff_isSome_getElem?.2 (by simp [found])
    exact LineEdit.onGrid_of_moveAddress? (h a old) move fun change => (harmless e rfl).room change a old
  | loaded | imported => exact absurd edits not_false

theorem Edited.onGrid (h : Edited d) : ∀ a ∈ d.sheet, a.OnGrid := by
  induction h with
  | new options => exact fun a mem => absurd mem Std.ExtTreeMap.not_mem_empty
  | step _ edits harmless ih => exact onGrid_perform edits harmless ih

/-- **Edits make no cycle** as long as no deletion of a line brings a range under the limit on dependencies and no
insertion pushes a cell off the last line: then no cell depends on itself, no cycle is listed, and all cells have
coordinates of 64 bits, so that none of the sums by which they were moved has overflowed. -/
theorem circularReferences_of_edited (h : Edited d) :
    d.sheet.Acyclic ∧ d.sheet.circularReferences = [] ∧ ∀ a ∈ d.sheet, a.OnGrid :=
  ⟨h.acyclic, Sheet.circularReferences_eq_nil_iff.2 h.acyclic, h.onGrid⟩

/-- A cell stays without a cycle when a row is deleted inside of the range that it names. -/
theorem circularReferences_of_edited_deleted :
    let d := (new {}).perform (.setInput ⟨0, 0⟩ "=B1:B3".toList)
    Edited (d.perform (.editLine ⟨.row, .delete, 1⟩)) ∧
      (d.perform (.editLine ⟨.row, .delete, 1⟩)).sheet.circularReferences = [] := by
  intro d
  let cell := Cell.formula {} "=B1:B3".toList
  have entered : d = (new {}).edited ((∅ : Sheet).insert ⟨0, 0⟩ cell) :=
    perform_setInput_new (by decide +kernel) (by decide +kernel)
  have covered : Formula.blocks cell.tokens = [⟨⟨0, 1⟩, ⟨2, 1⟩⟩] := by decide +kernel
  have hidden (e : LineEdit) : ¬d.Reveals e := by
    rintro ⟨p, b, mem, large, -⟩
    obtain ⟨c, found, named⟩ := exists_of_mem_blocks mem
    rw [entered, edited, Std.ExtTreeMap.getElem?_insert] at found
    split at found
    · cases found
      rw [covered, List.mem_singleton] at named
      exact large (named ▸ ⟨3, by decide, by decide⟩)
    · simp at found
  have reached : Edited (d.perform (.editLine ⟨.row, .delete, 1⟩)) :=
    .step (.step (.new {}) (show Address.OnGrid ⟨0, 0⟩ by decide +kernel) (by simp)) trivial
      fun e same => ⟨fun insert => absurd insert (by cases same; decide), fun _ => hidden e⟩
  exact ⟨reached, (circularReferences_of_edited reached).2.1⟩

/-- A deletion that brings a range under the limit may make a cycle: the range holds the cell of its formula, on which
the formula has not depended before. -/
theorem circularReferences_revealed :
    let d := ((new {}).perform (.setInput ⟨4, 0⟩ "=SUM(A1:A1000001)".toList)).perform
      (.editLine ⟨.row, .delete, 8⟩)
    Reachable (fun d => ∃ options, d = new options) Operation.Edits d ∧ d.sheet.Depends ⟨4, 0⟩ ⟨4, 0⟩ ∧
      d.sheet.circularReferences ≠ [] := by
  intro d
  let e : LineEdit := ⟨.row, .delete, 8⟩
  let cell := Cell.formula {} "=SUM(A1:A1000001)".toList
  have entered : (new {}).perform (.setInput ⟨4, 0⟩ "=SUM(A1:A1000001)".toList) =
      (new {}).edited ((∅ : Sheet).insert ⟨4, 0⟩ cell) :=
    perform_setInput_new (by decide +kernel) (by decide +kernel)
  have reached : Reachable Opened Operation.Proper d :=
    .step (.step (.start ⟨{}, .inl rfl⟩) trivial) trivial
  have coherent := reached.holds inherited_coherent fun a cell built => Cell.Built.coherent built
  have found : d.sheet[(⟨4, 0⟩ : Address)]? = some (shiftCell {} e cell) := by
    show (perform _ _).sheet[(⟨4, 0⟩ : Address)]? = _
    rw [entered]
    exact getElem?_shiftSheet.2 ⟨⟨4, 0⟩, cell, Std.ExtTreeMap.getElem?_insert_self, rfl, rfl⟩
  have covered : Formula.blocks (shiftCell {} e cell).tokens = [⟨⟨0, 0⟩, ⟨999999, 0⟩⟩] := by decide +kernel
  have itself : d.sheet.Depends ⟨4, 0⟩ ⟨4, 0⟩ := by
    refine (mem_dependsOn_iff_small coherent).2 ⟨⟨⟨0, 0⟩, ⟨999999, 0⟩⟩, ?_, ⟨1000000, by decide, by decide⟩, ?_⟩
    · rw [Sheet.tokensAt, found]
      simp [covered]
    · exact Range.mem_cells.2 (by decide)
  have placed : Address.OnGrid ⟨4, 0⟩ := by decide +kernel
  refine ⟨.step (.step (.start ⟨{}, rfl⟩) placed) trivial, itself, fun none => ?_⟩
  exact Sheet.circularReferences_eq_nil_iff.1 none ⟨4, 0⟩ (.single itself)

end Document

end Spreadsheet
