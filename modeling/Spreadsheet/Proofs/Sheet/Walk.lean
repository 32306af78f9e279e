import Mathlib.Data.List.Chain
import Mathlib.Data.List.Nodup
import Spreadsheet.Proofs.Sheet
import Spreadsheet.Sheet.Cycle

/-!
# What the search along dependencies finds

`findCycle` walks along the dependencies from a cell.  It finds a cycle if and only if one can be reached from there,
whatever the sheet looks like.  The invariant of the search says that the cells of its frames are a path of
dependencies, and that a finished cell is grounded: every way along the dependencies from it ends.

* `Depends`, `Grounded`, `Acyclic` — the dependencies as a relation.
* `Searching` — what holds at each moment of the search; `Searching.leave`, `Searching.enter` and `Searching.skip` are
  its turns, `Searching.lasso` and `Searching.done` its answers.
* `lasso_of_findCycle` — the path that is found runs along the dependencies and comes back to one of its cells.
* `findCycle_eq_none_iff` — nothing is found if and only if the cell is grounded.
-/

namespace Spreadsheet.Sheet

open Relation

variable {s : Sheet} {a b : Address}

/-! ### Dependencies as a relation -/

/-- The formula in the cell at `a` names the cell at `b`. -/
def Depends (s : Sheet) (a b : Address) : Prop :=
  b ∈ s.dependsOn a

instance (s : Sheet) : DecidableRel s.Depends :=
  fun a b => inferInstanceAs (Decidable (b ∈ s.dependsOn a))

/-- Every way along the dependencies from a cell comes to an end. -/
def Grounded (s : Sheet) (a : Address) : Prop :=
  Acc (fun b a => s.Depends a b) a

/-- No cell depends on itself, neither directly nor through other cells. -/
def Acyclic (s : Sheet) : Prop :=
  ∀ a, ¬TransGen s.Depends a a

theorem not_depends_of_not_mem (h : a ∉ s) : ¬s.Depends a b := by
  rw [Depends, dependsOn, Std.ExtTreeMap.getElem?_eq_none h]
  exact List.not_mem_nil

theorem Grounded.of_forall (h : ∀ b, s.Depends a b → s.Grounded b) : s.Grounded a :=
  Acc.intro a h

theorem grounded_of_not_mem (h : a ∉ s) : s.Grounded a :=
  .of_forall fun _ step => absurd step (not_depends_of_not_mem h)

theorem Grounded.of_reflTransGen (h : s.Grounded a) (path : ReflTransGen s.Depends a b) : s.Grounded b := by
  induction path with
  | refl => exact h
  | tail _ step ih => exact ih.inv step

/-- A grounded cell does not depend on itself. -/
theorem Grounded.not_transGen (h : s.Grounded a) : ¬TransGen s.Depends a a := by
  induction h with
  | intro a _ ih =>
    intro cycle
    obtain ⟨b, step, back⟩ := TransGen.head'_iff.1 cycle
    exact ih b step (.tail' back step)

/-! ### Paths that come back -/

/-- A path along the dependencies from `start` whose last cell occurs on it before. Up to there no cell occurs
twice. -/
structure Lasso (s : Sheet) (start : Address) (path : List Address) : Prop where
  steps : path.IsChain s.Depends
  begins : path.head? = some start
  distinct : path.dropLast.Nodup
  closes : ∃ c ∈ path.dropLast, path.getLast? = some c

/-- The path leads to a cell and once around a cycle of others back to that cell. -/
theorem Lasso.exists_eq {path : List Address} (h : s.Lasso a path) :
    ∃ lead c inner, path = lead ++ c :: (inner ++ [c]) ∧ (c :: inner).Nodup := by
  obtain ⟨c, mem, last⟩ := h.closes
  obtain ⟨front, rfl⟩ := List.getLast?_eq_some_iff.1 last
  have distinct := h.distinct
  rw [List.dropLast_concat] at mem distinct
  obtain ⟨lead, inner, rfl⟩ := List.append_of_mem mem
  exact ⟨lead, c, inner, by simp, (List.nodup_append.1 distinct).2.1⟩

/-- The first cell of a path depends on all the others. -/
theorem transGen_of_isChain {path : List Address} (steps : (a :: path).IsChain s.Depends) (mem : b ∈ path) :
    TransGen s.Depends a b := by
  induction path generalizing a with
  | nil => simp at mem
  | cons c path ih =>
    obtain ⟨step, behind⟩ := List.isChain_cons_cons.1 steps
    rcases List.mem_cons.1 mem with rfl | mem
    · exact .single step
    · exact .head step (ih behind mem)

theorem reflTransGen_of_isChain {path : List Address} (steps : (a :: path).IsChain s.Depends)
    (mem : b ∈ a :: path) : ReflTransGen s.Depends a b := by
  rcases List.mem_cons.1 mem with rfl | mem
  · exact .refl
  · exact (transGen_of_isChain steps mem).to_reflTransGen

/-- Every cell of such a path can be reached from its beginning. -/
theorem Lasso.reflTransGen {path : List Address} (h : s.Lasso a path) (mem : b ∈ path) :
    ReflTransGen s.Depends a b := by
  obtain ⟨rest, rfl⟩ := List.head?_eq_some_iff.1 h.begins
  exact reflTransGen_of_isChain h.steps mem

/-- From the beginning of such a path a cell can be reached that depends on itself. -/
theorem Lasso.exists_transGen {path : List Address} (h : s.Lasso a path) :
    ∃ c, ReflTransGen s.Depends a c ∧ TransGen s.Depends c c := by
  obtain ⟨lead, c, inner, rfl, -⟩ := h.exists_eq
  obtain ⟨-, around⟩ := List.isChain_split.1 h.steps
  exact ⟨c, h.reflTransGen (by simp), transGen_of_isChain around (by simp)⟩

theorem Lasso.not_grounded {path : List Address} (h : s.Lasso a path) : ¬s.Grounded a := by
  obtain ⟨c, path, cycle⟩ := h.exists_transGen
  exact fun grounded => (grounded.of_reflTransGen path).not_transGen cycle

/-! ### The search -/

/-- Each dependency of a cell that is being explored is left to try, is the next cell inside, or is grounded. -/
def Tracked (s : Sheet) (inside : Option Address) : List Frame → Prop
  | [] => True
  | frame :: outer =>
    (∀ b, s.Depends frame.cell b → b ∈ frame.pending ∨ inside = some b ∨ s.Grounded b) ∧
      Tracked s (some frame.cell) outer

/-- What holds at each moment of a search from `start`. -/
structure Searching (s : Sheet) (start : Address) (m : Moment) : Prop where
  exploring_iff : ∀ a, a ∈ m.exploring ↔ a ∈ m.frames.map Frame.cell
  distinct : (m.frames.map Frame.cell).Nodup
  /-- The cells of the frames, the outermost first, are a path along the dependencies. -/
  steps : (m.frames.map Frame.cell).IsChain fun inner outer => s.Depends outer inner
  begins : ∀ a ∈ (m.frames.map Frame.cell).getLast?, a = start
  pending : ∀ frame ∈ m.frames, ∀ b ∈ frame.pending, s.Depends frame.cell b
  tracked : Tracked s none m.frames
  grounded : ∀ a ∈ m.finished, s.Grounded a
  visited : start ∈ m.exploring ∨ start ∈ m.finished

/-- An answer to the search: a path that comes back to one of its cells, or that there is none. -/
def Answers (s : Sheet) (start : Address) : Option (List Address) → Prop
  | some path => s.Lasso start path
  | none => s.Grounded start

section Turns

variable {start cell next : Address} {pending : List Address} {outer : List Frame}
  {exploring finished : Std.ExtTreeSet Address}

theorem searching_start (s : Sheet) (start : Address) : Searching s start (Moment.start s start) where
  exploring_iff := fun a => by simp [Moment.start, Std.ExtTreeSet.mem_insert, @eq_comm _ start]
  distinct := by simp [Moment.start]
  steps := by simp [Moment.start]
  begins := by simp [Moment.start]
  pending := by simp [Moment.start, Depends]
  tracked := ⟨fun _ step => .inl step, trivial⟩
  grounded := by simp [Moment.start]
  visited := .inl Std.ExtTreeSet.mem_insert_self

/-- A cell with nothing left to try is grounded, and the search goes on without it. -/
theorem Searching.leave (h : Searching s start ⟨⟨cell, []⟩ :: outer, exploring, finished⟩) :
    Searching s start ⟨outer, exploring.erase cell, finished.insert cell⟩ := by
  have grounded : s.Grounded cell := .of_forall fun b step => by
    rcases h.tracked.1 b step with left | inside | grounded
    · simp at left
    · simp at inside
    · exact grounded
  obtain ⟨other, distinct⟩ := List.nodup_cons.1 h.distinct
  exact
    { exploring_iff := fun a => by
        rw [Std.ExtTreeSet.mem_erase, h.exploring_iff, List.map_cons, List.mem_cons]
        constructor
        · rintro ⟨ne, rfl | mem⟩
          · exact absurd (Address.compare_eq_iff.2 rfl) ne
          · exact mem
        · intro mem
          exact ⟨fun same => other (Address.compare_eq_iff.1 same ▸ mem), .inr mem⟩
      distinct := distinct
      steps := h.steps.tail
      begins := fun a last => by
        refine h.begins a ?_
        rw [List.map_cons, List.getLast?_cons, Option.mem_def.1 last]
        rfl
      pending := (List.forall_mem_cons.1 h.pending).2
      tracked := by
        cases outer with
        | nil => trivial
        | cons frame outer =>
          refine ⟨fun b step => ?_, h.tracked.2.2⟩
          rcases h.tracked.2.1 b step with left | inside | settled
          · exact .inl left
          · exact .inr (.inr (Option.some.inj inside ▸ grounded))
          · exact .inr (.inr settled)
      grounded := fun a mem => by
        rcases Std.ExtTreeSet.mem_insert.1 mem with same | mem
        · exact Address.compare_eq_iff.1 same ▸ grounded
        · exact h.grounded a mem
      visited := by
        rw [Std.ExtTreeSet.mem_erase, Std.ExtTreeSet.mem_insert]
        by_cases same : compare cell start = .eq
        · exact .inr (.inl same)
        · exact h.visited.imp (fun mem => ⟨same, mem⟩) .inr }

/-- A dependency that has not been visited is explored next. -/
theorem Searching.enter (h : Searching s start ⟨⟨cell, next :: pending⟩ :: outer, exploring, finished⟩)
    (new : next ∉ exploring) :
    Searching s start
      ⟨⟨next, s.dependsOn next⟩ :: ⟨cell, pending⟩ :: outer, exploring.insert next, finished⟩ := by
  obtain ⟨here, outside⟩ := List.forall_mem_cons.1 h.pending
  exact
    { exploring_iff := fun a => by
        rw [Std.ExtTreeSet.mem_insert, h.exploring_iff, Address.compare_eq_iff, @eq_comm _ next]
        simp only [List.map_cons, List.mem_cons]
      distinct := List.nodup_cons.2 ⟨fun mem => new ((h.exploring_iff next).2 mem), h.distinct⟩
      steps := List.isChain_cons_cons.2 ⟨here next (by simp), h.steps⟩
      begins := h.begins
      pending := by
        refine List.forall_mem_cons.2 ⟨fun b mem => mem, List.forall_mem_cons.2 ⟨fun b mem => ?_, outside⟩⟩
        exact here b (List.mem_cons_of_mem _ mem)
      tracked := by
        refine ⟨fun b step => .inl step, fun b step => ?_, h.tracked.2⟩
        rcases h.tracked.1 b step with left | inside | settled
        · rcases List.mem_cons.1 left with rfl | left
          · exact .inr (.inl rfl)
          · exact .inl left
        · simp at inside
        · exact .inr (.inr settled)
      grounded := h.grounded
      visited := h.visited.imp_left fun mem => Std.ExtTreeSet.mem_insert.2 (.inr mem) }

/-- A dependency that is finished needs no second visit. -/
theorem Searching.skip (h : Searching s start ⟨⟨cell, next :: pending⟩ :: outer, exploring, finished⟩)
    (done : next ∈ finished) : Searching s start ⟨⟨cell, pending⟩ :: outer, exploring, finished⟩ := by
  obtain ⟨here, outside⟩ := List.forall_mem_cons.1 h.pending
  exact
    { exploring_iff := h.exploring_iff
      distinct := h.distinct
      steps := h.steps
      begins := h.begins
      pending := List.forall_mem_cons.2 ⟨fun b mem => here b (List.mem_cons_of_mem _ mem), outside⟩
      tracked := by
        refine ⟨fun b step => ?_, h.tracked.2⟩
        rcases h.tracked.1 b step with left | inside | settled
        · rcases List.mem_cons.1 left with rfl | left
          · exact .inr (.inr (h.grounded b done))
          · exact .inl left
        · simp at inside
        · exact .inr (.inr settled)
      grounded := h.grounded
      visited := h.visited }

/-- A dependency that is being explored closes the path. -/
theorem Searching.lasso (h : Searching s start ⟨⟨cell, next :: pending⟩ :: outer, exploring, finished⟩)
    (seen : next ∈ exploring) : s.Lasso start (next :: cell :: outer.map Frame.cell).reverse where
  steps := List.isChain_reverse.2
    (List.isChain_cons_cons.2 ⟨h.pending _ List.mem_cons_self next List.mem_cons_self, h.steps⟩)
  begins := by
    have last : ∃ c, (cell :: outer.map Frame.cell).getLast? = some c := by simp [List.getLast?_cons]
    obtain ⟨c, last⟩ := last
    rw [List.head?_reverse, List.getLast?_cons, last]
    exact congrArg some (h.begins c last)
  distinct := by
    rw [List.reverse_cons, List.dropLast_concat]
    exact List.nodup_reverse.2 h.distinct
  closes := by
    refine ⟨next, ?_, by simp⟩
    rw [List.reverse_cons, List.dropLast_concat, List.mem_reverse]
    exact (h.exploring_iff next).1 seen

/-- With nothing left to explore the start is finished. -/
theorem Searching.done (h : Searching s start ⟨[], exploring, finished⟩) : s.Grounded start := by
  refine h.grounded start (h.visited.resolve_left fun mem => ?_)
  simpa using (h.exploring_iff start).1 mem

/-- A turn answers, or the search goes on. -/
theorem Searching.turn {m : Moment} (h : Searching s start m) :
    Sum.elim (Answers s start) (Searching s start) (m.turn s) := by
  obtain ⟨frames, exploring, finished⟩ := m
  match frames with
  | [] => exact h.done
  | ⟨cell, []⟩ :: outer => exact h.leave
  | ⟨cell, next :: pending⟩ :: outer =>
    simp only [Moment.turn]
    split
    · next seen => exact h.lasso seen
    · next new =>
      split
      · next done => exact h.skip done
      · exact h.enter new

/-- The search ends with an answer. -/
theorem Searching.run {m : Moment} (h : Searching s start m) : Answers s start (m.run s) := by
  have step := h.turn
  fun_induction Moment.run s m with
  | case1 m found answer =>
    rw [answer] at step
    exact step
  | case2 m next goes ih =>
    rw [goes] at step
    exact ih step step.turn

end Turns

/-- The answer if it is given within some turns. -/
def Moment.answerWithin? (s : Sheet) : Nat → Moment → Option (Option (List Address))
  | 0, _ => none
  | turns + 1, m =>
    match m.turn s with
    | .inl found => some found
    | .inr next => answerWithin? s turns next

/-- The search gives the answer that it gives within some turns. -/
theorem Moment.run_of_answerWithin? {turns : Nat} {m : Moment} {found : Option (List Address)}
    (h : answerWithin? s turns m = some found) : m.run s = found := by
  induction turns generalizing m with
  | zero => cases h
  | succ turns ih =>
    rw [answerWithin?] at h
    split at h
    · next answer =>
      rw [run_of_inl answer]
      exact Option.some.inj h
    · next goes =>
      rw [run_of_inr goes]
      exact ih h

/-- The path that is found runs along the dependencies and comes back to one of its cells. -/
theorem lasso_of_findCycle {path : List Address} (h : s.findCycle a = some path) : s.Lasso a path := by
  have answer := (searching_start s a).run
  rw [← findCycle, h] at answer
  exact answer

/-- Nothing is found if and only if every way along the dependencies ends. -/
theorem findCycle_eq_none_iff : s.findCycle a = none ↔ s.Grounded a := by
  constructor
  · intro h
    have answer := (searching_start s a).run
    rw [← findCycle, h] at answer
    exact answer
  · intro grounded
    cases found : s.findCycle a with
    | none => rfl
    | some path => exact absurd grounded (lasso_of_findCycle found).not_grounded

/-- In a sheet without cycles every cell is grounded. -/
theorem acyclic_iff_grounded : s.Acyclic ↔ ∀ a, s.Grounded a := by
  constructor
  · intro acyclic a
    rw [← findCycle_eq_none_iff]
    cases found : s.findCycle a with
    | none => rfl
    | some path =>
      obtain ⟨c, -, cycle⟩ := (lasso_of_findCycle found).exists_transGen
      exact absurd cycle (acyclic c)
  · exact fun grounded a => (grounded a).not_transGen

end Spreadsheet.Sheet
