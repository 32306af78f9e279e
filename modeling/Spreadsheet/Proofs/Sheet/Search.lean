import Spreadsheet.Proofs.Sheet.Cycles

/-!
# The search for a cycle, turn by turn

`findCycle` is a loop over a stack of frames.  A turn of the loop leaves a cell, enters one or passes over one that is
finished, or it ends the search.  Each cell of the sheet is entered at most once and each of its dependencies is tried
once, and one that is no cell of the sheet is entered and left at once.  So the search ends after as many turns as there
are cells and dependencies, the dependencies counted twice, whether the sheet has cycles or not.

* `Moment.answerWithin?_eq` — each turn takes something off the load, so the search ends.
* `Moment.load_start_le` — the load in the beginning.
* `ReachesCycle` — a cycle can be reached from a cell.
* `findCycle_exact` — the search ends, finds a cycle if and only if one can be reached, and what it finds leads to one.
-/

namespace Spreadsheet.Sheet

open Relation

variable {s : Sheet} {a : Address}

/-! ### How long the search takes -/

namespace Moment

/-- The search ends with the answer before it has made more turns than its load. -/
theorem answerWithin?_eq {turns : Nat} {m : Moment} (enough : m.load s < turns) :
    answerWithin? s turns m = some (m.run s) := by
  induction turns generalizing m with
  | zero => omega
  | succ turns ih =>
    rw [answerWithin?]
    cases eq : m.turn s with
    | inl found => rw [run_of_inl eq]
    | inr next =>
      have less := load_turn eq
      rw [run_of_inr eq]
      exact ih (by omega)

/-- At the beginning there is as much to do as the sheet holds, and a start that is no cell has to be left. -/
theorem load_start_le (s : Sheet) (a : Address) : (start s a).load s ≤ s.extent + 1 := by
  let nowhere : Moment := ⟨[], Std.ExtTreeSet.empty, Std.ExtTreeSet.empty⟩
  have anything (b : Address) : nowhere.isNew b = true := isNew_iff.2 (by simp [nowhere])
  have whole : nowhere.unvisited s = s.toList := List.filter_eq_self.2 fun entry _ => anything entry.1
  have entered : 2 * (s.dependsOn a).length + extentOf ((start s a).unvisited s) ≤ extentOf (nowhere.unvisited s) :=
    extentOf_unvisited_enter (fun b _ => anything b) (anything a)
      fun new => (isNew_iff.1 new).1 Std.ExtTreeSet.mem_insert_self
  rw [whole] at entered
  simp only [load, start, framesLoad, extent] at entered ⊢
  omega

end Moment

/-! ### What can be reached -/

/-- A cycle can be reached from a cell along the dependencies. -/
def ReachesCycle (s : Sheet) (a : Address) : Prop :=
  ∃ cycle, s.IsCycle cycle ∧ ∃ c ∈ cycle, ReflTransGen s.Depends a c

theorem Lasso.reachesCycle {path : List Address} (h : s.Lasso a path) : s.ReachesCycle a := by
  obtain ⟨lead, c, inner, rfl, -⟩ := h.exists_eq
  have around := isCycle_of_isChain (List.isChain_split.1 h.steps).2
  exact ⟨_, around, c, List.mem_cons_self, h.reflTransGen (by simp)⟩

/-- No cycle can be reached from a cell if and only if every way along the dependencies from it ends. -/
theorem grounded_iff_not_reachesCycle : s.Grounded a ↔ ¬s.ReachesCycle a := by
  constructor
  · rintro grounded ⟨cycle, closed, c, mem, reached⟩
    exact (grounded.of_reflTransGen reached).not_transGen (closed.transGen mem mem)
  · intro none
    rw [← findCycle_eq_none_iff]
    cases found : s.findCycle a with
    | none => rfl
    | some path => exact absurd (lasso_of_findCycle found).reachesCycle none

/-- **The search for a cycle ends and is exact**, whatever the dependencies are. It makes at most two turns more than
the sheet has cells and dependencies, the dependencies counted twice. It finds nothing if and only if no cycle can be
reached from the start. What it finds is a path along the dependencies from the start that comes back to one of its
cells and holds the others once. -/
theorem findCycle_exact (s : Sheet) (start : Address) :
    Moment.answerWithin? s (s.extent + 2) (Moment.start s start) = some (s.findCycle start) ∧
      (s.findCycle start = none ↔ ¬s.ReachesCycle start) ∧
      ∀ path, s.findCycle start = some path → s.Lasso start path := by
  refine ⟨?_, findCycle_eq_none_iff.trans grounded_iff_not_reachesCycle, fun path => lasso_of_findCycle⟩
  exact Moment.answerWithin?_eq (Nat.lt_succ_of_le (Moment.load_start_le s start))

/-- A cell that names another one twice and a cell that is not there leads to the cycle of the other one. -/
theorem findCycle_exact_lead :
    let s : Sheet := ((∅ : Sheet).insert ⟨0, 0⟩ (.formula {} "=C9+B1+B1".toList)).insert ⟨0, 1⟩
      (.formula {} "=B1".toList)
    ∃ path, s.findCycle ⟨0, 0⟩ = some path ∧ s.Lasso ⟨0, 0⟩ path := by
  intro s
  have itself : s.IsCycle [⟨0, 1⟩, ⟨0, 1⟩] := ⟨by decide +kernel, by decide, rfl⟩
  have step : s.Depends ⟨0, 0⟩ ⟨0, 1⟩ := by decide +kernel
  have reaches : s.ReachesCycle ⟨0, 0⟩ := ⟨_, itself, ⟨0, 1⟩, by simp, .single step⟩
  obtain ⟨-, nothing, leads⟩ := findCycle_exact s ⟨0, 0⟩
  cases found : s.findCycle ⟨0, 0⟩ with
  | none => exact absurd reaches (nothing.1 found)
  | some path => exact ⟨path, rfl, leads path found⟩

end Spreadsheet.Sheet
