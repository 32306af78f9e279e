import Spreadsheet.Sheet

/-!
# Cycles of dependencies

A cell whose formula depends on itself, directly or through other formulas, lies on a cycle. `findCycle`
walks along the dependencies from a cell, each time to the first one that is left to try, and stops when it
comes to a cell that it is just exploring. The walk is a loop over its own stack of cells with the dependencies
that are left to try, so that a long chain needs no deep recursion. A cell whose dependencies have all been tried
is finished and is not entered again; so the loop ends.

`circularReferences` lists cycles of a sheet that have no cell in common.
-/

namespace Spreadsheet.Sheet

/-! ### One turn of the search -/

/-- A cell that is being explored, and its dependencies that are left to try. -/
structure Frame where
  cell : Address
  pending : List Address

/-- Where the search stands. -/
structure Moment where
  /-- The cells on the way from the start, the innermost first. -/
  frames : List Frame
  /-- The cells of the frames. -/
  exploring : Std.ExtTreeSet Address
  /-- The cells that have been left. -/
  finished : Std.ExtTreeSet Address

namespace Moment

/-- Only the start is being explored. -/
def start (s : Sheet) (a : Address) : Moment :=
  ⟨[⟨a, s.dependsOn a⟩], Std.ExtTreeSet.empty.insert a, Std.ExtTreeSet.empty⟩

/-- One turn of the loop. It gives an answer, or the search goes on from another moment. The path of a cycle begins
at the outermost frame and ends with the cell at which it closes. A dependency that is no cell of the sheet is
entered as well, and has none itself. -/
def turn (s : Sheet) (m : Moment) : Option (List Address) ⊕ Moment :=
  match m.frames with
  | [] => .inl none
  | ⟨cell, []⟩ :: outer => .inr ⟨outer, m.exploring.erase cell, m.finished.insert cell⟩
  | ⟨cell, next :: pending⟩ :: outer =>
    if next ∈ m.exploring then .inl (some (next :: cell :: outer.map Frame.cell).reverse)
    else if next ∈ m.finished then .inr { m with frames := ⟨cell, pending⟩ :: outer }
    else
      .inr ⟨⟨next, s.dependsOn next⟩ :: ⟨cell, pending⟩ :: outer, m.exploring.insert next, m.finished⟩

end Moment

/-! ### The end of the search -/

/-- The turns that entries of a sheet may take: one to leave the cell, and two for each dependency, which may be no
cell and has to be entered and left then. -/
def extentOf (entries : List (Address × Cell)) : Nat :=
  match entries with
  | [] => 0
  | entry :: entries => 2 * entry.2.dependsOn.length + 1 + extentOf entries

/-- How much a sheet holds. -/
def extent (s : Sheet) : Nat :=
  extentOf s.toList

theorem extentOf_cons (entry : Address × Cell) (entries : List (Address × Cell)) :
    extentOf (entry :: entries) = 2 * entry.2.dependsOn.length + 1 + extentOf entries :=
  rfl

theorem extentOf_filter_le {p q : Address × Cell → Bool} (h : ∀ entry, q entry = true → p entry = true)
    (entries : List (Address × Cell)) : extentOf (entries.filter q) ≤ extentOf (entries.filter p) := by
  induction entries with
  | nil => exact Nat.le_refl _
  | cons entry entries ih =>
    by_cases new : q entry = true
    · rw [List.filter_cons_of_pos new, List.filter_cons_of_pos (h entry new), extentOf_cons, extentOf_cons]
      omega
    · rw [List.filter_cons_of_neg new]
      by_cases old : p entry = true
      · rw [List.filter_cons_of_pos old, extentOf_cons]
        omega
      · rw [List.filter_cons_of_neg old]
        exact ih

/-- What is no longer held of an entry is its own share. -/
theorem extentOf_filter_lt {p q : Address × Cell → Bool} (h : ∀ entry, q entry = true → p entry = true)
    {entries : List (Address × Cell)} {entry : Address × Cell} (mem : entry ∈ entries) (before : p entry = true)
    (after : ¬q entry = true) :
    2 * entry.2.dependsOn.length + 1 + extentOf (entries.filter q) ≤ extentOf (entries.filter p) := by
  induction entries with
  | nil => cases mem
  | cons other entries ih =>
    rcases List.mem_cons.1 mem with rfl | mem
    · rw [List.filter_cons_of_neg after, List.filter_cons_of_pos before, extentOf_cons]
      have := extentOf_filter_le h entries
      omega
    · have ih := ih mem
      by_cases new : q other = true
      · rw [List.filter_cons_of_pos new, List.filter_cons_of_pos (h other new), extentOf_cons, extentOf_cons]
        omega
      · rw [List.filter_cons_of_neg new]
        by_cases old : p other = true
        · rw [List.filter_cons_of_pos old, extentOf_cons]
          omega
        · rw [List.filter_cons_of_neg old]
          exact ih

/-- The turns that frames may take. -/
def framesLoad (frames : List Frame) : Nat :=
  match frames with
  | [] => 0
  | frame :: outer => 2 * frame.pending.length + 1 + framesLoad outer

namespace Moment

/-- Whether a cell has been neither entered nor left. -/
def isNew (m : Moment) (a : Address) : Bool :=
  decide (a ∉ m.exploring) && decide (a ∉ m.finished)

/-- The cells of the sheet that have not been visited. -/
def unvisited (s : Sheet) (m : Moment) : List (Address × Cell) :=
  s.toList.filter fun entry => m.isNew entry.1

/-- The turns that the search may still take: for its frames and for the cells that it has not visited. -/
def load (s : Sheet) (m : Moment) : Nat :=
  framesLoad m.frames + extentOf (m.unvisited s)

variable {s : Sheet} {m m' : Moment}

/-- Visited cells stay visited, and there is no more to do for them. -/
theorem extentOf_unvisited_le (h : ∀ a, m'.isNew a = true → m.isNew a = true) :
    extentOf (m'.unvisited s) ≤ extentOf (m.unvisited s) :=
  extentOf_filter_le (fun entry => h entry.1) s.toList

/-- A cell that is visited takes its dependencies along. -/
theorem extentOf_unvisited_enter {a : Address} (h : ∀ a, m'.isNew a = true → m.isNew a = true)
    (before : m.isNew a = true) (after : ¬m'.isNew a = true) :
    2 * (s.dependsOn a).length + extentOf (m'.unvisited s) ≤ extentOf (m.unvisited s) := by
  cases found : s[a]? with
  | none =>
    have kept := extentOf_unvisited_le (s := s) h
    simpa [dependsOn, found] using kept
  | some cell =>
    have listed : (a, cell) ∈ s.toList := Std.ExtTreeMap.mem_toList_iff_getElem?_eq_some.2 found
    have freed : 2 * cell.dependsOn.length + 1 + extentOf (m'.unvisited s) ≤ extentOf (m.unvisited s) :=
      extentOf_filter_lt (fun entry => h entry.1) listed before after
    simp only [dependsOn, found]
    omega

theorem isNew_iff {a : Address} : m.isNew a = true ↔ a ∉ m.exploring ∧ a ∉ m.finished := by
  simp [isNew]

/-- Each turn takes something off the load. -/
theorem load_turn (h : m.turn s = .inr m') : m'.load s < m.load s := by
  obtain ⟨frames, exploring, finished⟩ := m
  match frames with
  | [] => cases h
  | ⟨cell, []⟩ :: outer =>
    cases h
    have kept : extentOf (unvisited s ⟨outer, exploring.erase cell, finished.insert cell⟩) ≤
        extentOf (unvisited s ⟨⟨cell, []⟩ :: outer, exploring, finished⟩) := by
      refine extentOf_unvisited_le fun a new => ?_
      rw [isNew_iff, Std.ExtTreeSet.mem_erase, Std.ExtTreeSet.mem_insert, not_and, not_or] at new
      exact isNew_iff.2 ⟨fun here => new.1 new.2.1 here, new.2.2⟩
    simp only [load, framesLoad, List.length_nil]
    omega
  | ⟨cell, next :: pending⟩ :: outer =>
    simp only [turn] at h
    split at h
    · cases h
    · next apart =>
      split at h
      · cases h
        have kept : unvisited s ⟨⟨cell, pending⟩ :: outer, exploring, finished⟩ =
          unvisited s ⟨⟨cell, next :: pending⟩ :: outer, exploring, finished⟩ := rfl
        simp only [load, framesLoad, List.length_cons, kept]
        omega
      · next other =>
        cases h
        have entered : 2 * (s.dependsOn next).length +
            extentOf (unvisited s
              ⟨⟨next, s.dependsOn next⟩ :: ⟨cell, pending⟩ :: outer, exploring.insert next, finished⟩) ≤
            extentOf (unvisited s ⟨⟨cell, next :: pending⟩ :: outer, exploring, finished⟩) := by
          refine extentOf_unvisited_enter (fun a new => ?_) (isNew_iff.2 ⟨apart, other⟩) fun new => ?_
          · rw [isNew_iff, Std.ExtTreeSet.mem_insert, not_or] at new
            exact isNew_iff.2 ⟨new.1.2, new.2⟩
          · exact (isNew_iff.1 new).1 Std.ExtTreeSet.mem_insert_self
        simp only [load, framesLoad, List.length_cons]
        omega

/-- Searches on to the answer. -/
def run (s : Sheet) (m : Moment) : Option (List Address) :=
  match _ : m.turn s with
  | .inl found => found
  | .inr next => run s next
termination_by m.load s
decreasing_by exact load_turn (by assumption)

theorem run_of_inl {found : Option (List Address)} (h : m.turn s = .inl found) : m.run s = found := by
  rw [run]
  split
  · next eq => exact Sum.inl.inj (eq.symm.trans h)
  · next eq => cases eq.symm.trans h

theorem run_of_inr (h : m.turn s = .inr m') : m.run s = m'.run s := by
  rw [run]
  split
  · next eq => cases eq.symm.trans h
  · next eq => rw [Sum.inr.inj (eq.symm.trans h)]

end Moment

/-- A path along the dependencies from a cell to a cell that occurs on it before, if there is one. -/
def findCycle (s : Sheet) (start : Address) : Option (List Address) :=
  (Moment.start s start).run s

/-- The cycle at the end of a path whose last cell occurs on it before, each of its cells once and that cell
first. -/
def loopOf (path : List Address) : List Address :=
  match path.reverse with
  | [] => []
  | last :: before => last :: (before.takeWhile (· ≠ last)).reverse

/-- The cycle written from its first cell in row order, with this cell once more at the end. -/
def canonicalCycle (cycle : List Address) : List Address :=
  match cycle with
  | [] => []
  | a :: rest =>
    let first := rest.foldl Address.earlier a
    cycle.dropWhile (· ≠ first) ++ cycle.takeWhile (· ≠ first) ++ [first]

/-- The cycles that have been listed. -/
structure CycleList where
  /-- The cells of the cycles. -/
  listed : Std.ExtTreeSet Address
  /-- The cycles, the newest first. -/
  cycles : List (List Address)

/-- Lists the cycle that is found from a cell. A cycle that shares a cell with one that is listed is left
out, and so is a cell that lies on one that is listed. -/
def CycleList.visit (s : Sheet) (l : CycleList) (start : Address) : CycleList :=
  if start ∈ l.listed then l
  else
    match s.findCycle start with
    | none => l
    | some path =>
      let cycle := loopOf path
      if cycle.any (· ∈ l.listed) then l
      else ⟨cycle.foldl (·.insert ·) l.listed, canonicalCycle cycle :: l.cycles⟩

/-- Cycles of the sheet that have no cell in common, each from its first cell to that cell again. Cells are
tried row by row. -/
def circularReferences (s : Sheet) : List (List Address) :=
  let starts := s.toList.filterMap fun (a, cell) => if cell.dependsOn.isEmpty then none else some a
  (starts.foldl (CycleList.visit s) ⟨∅, []⟩).cycles.reverse

/-- The path to a cycle is dropped, and the cycle begins at its first cell. -/
example : loopOf [⟨0, 0⟩, ⟨0, 2⟩, ⟨0, 1⟩, ⟨0, 2⟩] = [⟨0, 2⟩, ⟨0, 1⟩] ∧
    canonicalCycle [⟨0, 2⟩, ⟨0, 1⟩] = [⟨0, 1⟩, ⟨0, 2⟩, ⟨0, 1⟩] := by decide

end Spreadsheet.Sheet
