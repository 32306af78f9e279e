import Spreadsheet.Proofs.Sheet.Cycles

/-!
# The form of the list of cycles

A walk finds a path that leads to a cycle.  What is listed is the cycle alone, turned so that its earliest cell comes
first, and it is listed only if none of its cells is on the list.  The cells from which walks begin are those with
dependencies in row order, so a list that is made from the cells of the sheet in another order is the same.

* `Canonical` — the form in which a cycle is listed.
* `CycleList.Orderly` — the listed cycles have this form and no cells in common; `Orderly.visit` is the step.
* `circularReferencesAmong` — the list that is made from the entries of a sheet in some order.
* `circularReferences_canonical` — what the list is like, and that it does not depend on this order.
-/

namespace Spreadsheet.Sheet

variable {s : Sheet} {a : Address}

/-! ### Canonical cycles -/

/-- A cycle as it is listed: a path along the dependencies through different cells, the earliest of them first, and back
to that one. -/
def Canonical (s : Sheet) (path : List Address) : Prop :=
  ∃ first others, path = first :: (others ++ [first]) ∧ path.IsChain s.Depends ∧ (first :: others).Nodup ∧
    ∀ b ∈ others, first.Before b

theorem canonical_canonicalCycle {inner : List Address} (steps : (a :: (inner ++ [a])).IsChain s.Depends)
    (distinct : (a :: inner).Nodup) : s.Canonical (canonicalCycle (a :: inner)) := by
  obtain ⟨before, first, behind, eq, turned, least⟩ := exists_canonicalCycle_eq a inner
  have swapped : (before ++ first :: behind).Perm (first :: (behind ++ before)) :=
    @List.perm_append_comm _ before (first :: behind)
  rw [eq] at distinct least
  have apart := swapped.nodup_iff.1 distinct
  refine ⟨first, behind ++ before, turned, (isCycle_canonicalCycle steps).steps, apart, fun b mem => ?_⟩
  have other : first ≠ b := by
    rintro rfl
    exact (List.nodup_cons.1 apart).1 mem
  exact Address.before_of_not_before other (least b (swapped.mem_iff.2 (List.mem_cons_of_mem _ mem)))

/-! ### The list while it grows -/

namespace CycleList

/-- All that is listed are canonical cycles, and no two of them have a cell in common. -/
structure Orderly (s : Sheet) (l : CycleList) : Prop where
  canonical : ∀ cycle ∈ l.cycles, s.Canonical cycle
  apart : l.cycles.Pairwise List.Disjoint

/-- A cycle is added only if none of its cells is listed. -/
theorem Orderly.visit {l : CycleList} (h : l.Orderly s) (sound : l.Sound s) (start : Address) :
    (l.visit s start).Orderly s := by
  rcases l.visit_cases (s := s) start with ⟨same, -⟩ | ⟨lead, c, inner, lasso, distinct, new, added⟩
  · rw [same]
    exact h
  · rw [added]
    have steps := (List.isChain_split.1 lasso.steps).2
    refine ⟨List.forall_mem_cons.2 ⟨canonical_canonicalCycle steps distinct, h.canonical⟩,
      List.pairwise_cons.2 ⟨fun cycle mem b hb hb' => ?_, h.apart⟩⟩
    exact new b (mem_canonicalCycle.1 hb) ((sound.listed_iff b).2 ⟨cycle, mem, hb'⟩)

theorem Orderly.foldl_visit {l : CycleList} (h : l.Orderly s) (sound : l.Sound s) (starts : List Address) :
    (starts.foldl (CycleList.visit s) l).Orderly s := by
  induction starts generalizing l with
  | nil => exact h
  | cons start starts ih => exact ih (h.visit sound start) (sound.visit start).1

end CycleList

/-! ### The order of the entries -/

/-- The cycles that are listed if the entries of the sheet come in some order. The starts are sorted before they are
tried. -/
def circularReferencesAmong (s : Sheet) (entries : List (Address × Cell)) : List (List Address) :=
  let starts := (startsOf entries).mergeSort fun a b => (compare a b).isLE
  (starts.foldl (CycleList.visit s) ⟨∅, []⟩).cycles.reverse

/-- The starts of a sheet are in row order. -/
theorem pairwise_startsOf_toList (s : Sheet) :
    (startsOf s.toList).Pairwise fun a b => (compare a b).isLE := by
  refine List.Pairwise.filterMap _ ?_ Std.ExtTreeMap.ordered_keys_toList
  rintro ⟨a, cell⟩ ⟨b, cell'⟩ order a' ha b' hb
  obtain rfl : a = a' := Option.some.inj (Option.ite_none_left_eq_some.1 ha).2
  obtain rfl : b = b' := Option.some.inj (Option.ite_none_left_eq_some.1 hb).2
  exact Ordering.isLE_of_eq_lt order

/-- Sorting brings the starts into the order of the sheet. -/
theorem mergeSort_startsOf {entries : List (Address × Cell)} (h : entries.Perm s.toList) :
    (startsOf entries).mergeSort (fun a b => (compare a b).isLE) = startsOf s.toList := by
  have total (a b : Address) : ((compare a b).isLE || (compare b a).isLE) = true := by
    rw [Std.OrientedOrd.eq_swap (a := b)]
    cases compare a b <;> rfl
  have sorted : ((startsOf entries).mergeSort fun a b => (compare a b).isLE).Pairwise fun a b =>
      (compare a b).isLE :=
    List.pairwise_mergeSort (fun _ _ _ => Std.TransCmp.isLE_trans) total _
  refine List.Perm.eq_of_pairwise (fun a b _ _ le ge => ?_) sorted s.pairwise_startsOf_toList
    ((List.mergeSort_perm _ _).trans (h.filterMap _))
  exact Address.compare_eq_iff.1 (Std.OrientedCmp.isLE_antisymm le ge)

/-- **Listed cycles are real, canonical and apart.** Each is a path along the dependencies through different cells that
begins and ends with the earliest of them, and no two have a cell in common. None is listed if and only if no cell
depends on itself. The list is the same in whatever order the entries of the sheet are enumerated. -/
theorem circularReferences_canonical (s : Sheet) :
    (∀ cycle ∈ s.circularReferences, s.Canonical cycle) ∧
      s.circularReferences.Pairwise List.Disjoint ∧
      (s.circularReferences = [] ↔ s.Acyclic) ∧
      ∀ entries, entries.Perm s.toList → s.circularReferencesAmong entries = s.circularReferences := by
  have orderly : CycleList.Orderly s ⟨∅, []⟩ := ⟨by simp, .nil⟩
  have sound : CycleList.Sound s ⟨∅, []⟩ := ⟨by simp, by simp⟩
  have all := orderly.foldl_visit sound (startsOf s.toList)
  refine ⟨fun cycle mem => all.canonical cycle (List.mem_reverse.1 mem), ?_, circularReferences_eq_nil_iff,
    fun entries same => ?_⟩
  · refine List.pairwise_reverse.2 (all.apart.imp fun apart => ?_)
    exact fun b mem mem' => apart mem' mem
  · rw [circularReferencesAmong, mergeSort_startsOf same, circularReferences_eq]

/-- A cycle of two cells is listed, and it is listed in the same way if the later cell is enumerated first. -/
theorem circularReferences_canonical_reversed :
    let s : Sheet := ((∅ : Sheet).insert ⟨0, 1⟩ (.formula {} "=A1".toList)).insert ⟨0, 0⟩
      (.formula {} "=B1".toList)
    s.circularReferencesAmong s.toList.reverse = s.circularReferences ∧
      ∃ cycle ∈ s.circularReferences, s.Canonical cycle := by
  intro s
  obtain ⟨canonical, -, nothing, enumerated⟩ := circularReferences_canonical s
  refine ⟨enumerated _ (List.reverse_perm _), ?_⟩
  have itself : Relation.TransGen s.Depends ⟨0, 0⟩ ⟨0, 0⟩ :=
    .tail (.single (show s.Depends ⟨0, 0⟩ ⟨0, 1⟩ by decide +kernel)) (by decide +kernel)
  obtain ⟨cycle, mem⟩ := List.exists_mem_of_ne_nil _ fun none => nothing.1 none _ itself
  exact ⟨cycle, mem, canonical cycle mem⟩

end Spreadsheet.Sheet
