import Spreadsheet.Proofs.Sheet.Walk

/-!
# Which cycles are listed

`circularReferences` walks from each cell with dependencies and lists the cycle that the walk finds, unless it has a
cell in common with one that is listed already.  So the list is empty only if there is no cycle.  It need not hold a
cell of every cycle: a walk from a cycle may come to another one first, and if that one is listed, the walk adds
nothing.  But then the listed one can be reached.

* `IsCycle` — a path along the dependencies back to where it began.
* `CycleList.Sound`, `CycleList.Covers` — what the list holds, and what it holds for a cell that has been tried.
* `circularReferences_eq_nil_iff` — nothing is listed if and only if there is no cycle.
* `circularReferences_of_isCycle` — every cycle leads to a listed one, and has a cell of one unless it leads to a
  cycle apart from it.
-/

namespace Spreadsheet.Sheet

open Relation

variable {s : Sheet} {a b : Address}

/-! ### Cycles -/

/-- A path along the dependencies that ends where it began, with at least one step. -/
structure IsCycle (s : Sheet) (path : List Address) : Prop where
  steps : path.IsChain s.Depends
  turns : 2 ≤ path.length
  closed : path.head? = path.getLast?

theorem isCycle_of_isChain {inner : List Address} (steps : (a :: (inner ++ [a])).IsChain s.Depends) :
    s.IsCycle (a :: (inner ++ [a])) :=
  ⟨steps, by simp, by simp [List.getLast?_cons]⟩

theorem IsCycle.exists_eq {path : List Address} (h : s.IsCycle path) :
    ∃ c inner, path = c :: (inner ++ [c]) := by
  obtain ⟨c, rest, rfl⟩ : ∃ c rest, path = c :: rest := by
    cases path with
    | nil => exact absurd h.turns (by simp)
    | cons c rest => exact ⟨c, rest, rfl⟩
  have turns := h.turns
  rcases List.eq_nil_or_concat' rest with rfl | ⟨inner, d, rfl⟩
  · simp at turns
  · obtain rfl : c = d := by simpa [List.getLast?_cons] using h.closed
    exact ⟨c, inner, rfl⟩

/-- Each cell of a cycle depends on each, itself included. -/
theorem IsCycle.transGen {path : List Address} (h : s.IsCycle path) (ha : a ∈ path) (hb : b ∈ path) :
    TransGen s.Depends a b := by
  obtain ⟨c, inner, rfl⟩ := h.exists_eq
  have around : TransGen s.Depends c c := transGen_of_isChain h.steps (by simp)
  have forth : ReflTransGen s.Depends c b := reflTransGen_of_isChain h.steps hb
  have back : ReflTransGen s.Depends a c := by
    obtain ⟨before, behind, eq⟩ := List.append_of_mem ha
    have steps := h.steps
    rw [eq] at steps
    have last : c ∈ a :: behind := by
      refine List.mem_of_getLast? ?_
      rw [← List.getLast?_append_of_ne_nil before (by simp), ← eq]
      simp [List.getLast?_cons]
    exact reflTransGen_of_isChain (List.isChain_split.1 steps).2 last
  exact TransGen.trans_right back (TransGen.trans_left around forth)

/-! ### How a cycle is listed -/

theorem loopOf_append (lead : List Address) {inner : List Address} (other : a ∉ inner) :
    loopOf (lead ++ a :: (inner ++ [a])) = a :: inner := by
  have reversed : (lead ++ a :: (inner ++ [a])).reverse = a :: (inner.reverse ++ a :: lead.reverse) := by simp
  have plain : ∀ b ∈ inner.reverse, decide (b ≠ a) = true := fun b mem =>
    decide_eq_true fun same => other (same ▸ List.mem_reverse.1 mem)
  rw [loopOf, reversed]
  dsimp only
  rw [List.takeWhile_append_of_pos plain, List.takeWhile_cons_of_neg (by simp), List.append_nil,
    List.reverse_reverse]

theorem foldl_earlier_mem (a : Address) (rest : List Address) : rest.foldl Address.earlier a ∈ a :: rest := by
  induction rest generalizing a with
  | nil => simp
  | cons b rest ih =>
    have one : a.earlier b = a ∨ a.earlier b = b := by
      rw [Address.earlier]
      split
      · exact .inr rfl
      · exact .inl rfl
    rw [List.foldl_cons]
    rcases List.mem_cons.1 (ih (a.earlier b)) with eq | mem
    · rw [eq]
      rcases one with first | second
      · simp [first]
      · simp [second]
    · exact List.mem_cons_of_mem _ (List.mem_cons_of_mem _ mem)

/-- No cell stands in front of the earliest one. -/
theorem not_before_foldl_earlier (a : Address) (rest : List Address) :
    ∀ b ∈ a :: rest, ¬b.Before (rest.foldl Address.earlier a) := by
  induction rest generalizing a with
  | nil => simp [Address.Before]
  | cons c rest ih =>
    have one : ¬a.Before (a.earlier c) ∧ ¬c.Before (a.earlier c) := by
      rw [Address.earlier]
      split
      all_goals
        next first =>
          rw [Ordering.isLT_iff_eq_lt, Address.compare_eq_lt_iff] at first
          simp only [Address.Before] at *
          omega
    have behind := ih (a.earlier c)
    rw [List.foldl_cons]
    generalize rest.foldl Address.earlier (a.earlier c) = first at behind
    obtain ⟨least, behind⟩ := List.forall_mem_cons.1 behind
    refine List.forall_mem_cons.2 ⟨?_, List.forall_mem_cons.2 ⟨?_, behind⟩⟩
    · simp only [Address.Before] at *
      omega
    · simp only [Address.Before] at *
      omega

/-- The cycle is turned so that the earliest of its cells comes first. -/
theorem exists_canonicalCycle_eq (a : Address) (rest : List Address) :
    ∃ before first behind, a :: rest = before ++ first :: behind ∧
      canonicalCycle (a :: rest) = first :: (behind ++ before ++ [first]) ∧
        ∀ b ∈ a :: rest, ¬b.Before first := by
  obtain ⟨before, behind, eq, other⟩ := List.eq_append_cons_of_mem (foldl_earlier_mem a rest)
  have plain : ∀ b ∈ before, decide (b ≠ rest.foldl Address.earlier a) = true := fun b mem =>
    decide_eq_true fun same => other (same ▸ mem)
  refine ⟨before, _, behind, eq, ?_, not_before_foldl_earlier a rest⟩
  rw [canonicalCycle, eq, List.dropWhile_append_of_pos plain, List.takeWhile_append_of_pos plain,
    List.dropWhile_cons_of_neg (by simp), List.takeWhile_cons_of_neg (by simp)]
  simp

theorem mem_canonicalCycle {cycle : List Address} : b ∈ canonicalCycle cycle ↔ b ∈ cycle := by
  cases cycle with
  | nil => rfl
  | cons a rest =>
    obtain ⟨before, first, behind, eq, turned, -⟩ := exists_canonicalCycle_eq a rest
    rw [turned, eq]
    simp only [List.mem_cons, List.mem_append, List.not_mem_nil, or_false]
    tauto

theorem isCycle_canonicalCycle {inner : List Address} (steps : (a :: (inner ++ [a])).IsChain s.Depends) :
    s.IsCycle (canonicalCycle (a :: inner)) := by
  obtain ⟨before, first, behind, eq, turned, -⟩ := exists_canonicalCycle_eq a inner
  rw [turned]
  refine isCycle_of_isChain ?_
  rw [← List.cons_append, eq] at steps
  cases before with
  | nil =>
    obtain ⟨rfl, rfl⟩ := List.cons.inj eq
    simpa using steps
  | cons c before =>
    obtain ⟨rfl, -⟩ := List.cons.inj eq
    -- cut the cycle at its old and at its new beginning, and join the two parts the other way round
    obtain ⟨front, back⟩ := List.isChain_split.1
      (show ((a :: before) ++ first :: (behind ++ [a])).IsChain s.Depends by simpa using steps)
    have joined : ((first :: behind) ++ a :: (before ++ [first])).IsChain s.Depends :=
      List.isChain_split.2 ⟨back, front⟩
    simpa using joined

namespace CycleList

/-! ### The list while it grows -/

/-- All that is listed are cycles, and their cells are known. -/
structure Sound (s : Sheet) (l : CycleList) : Prop where
  cycles : ∀ cycle ∈ l.cycles, s.IsCycle cycle
  listed_iff : ∀ a, a ∈ l.listed ↔ ∃ cycle ∈ l.cycles, a ∈ cycle

/-- A cell from which a cycle can be reached leads to one that is listed. -/
def Covers (s : Sheet) (l : CycleList) (start : Address) : Prop :=
  s.Grounded start ∨ ∃ b ∈ l.listed, ReflTransGen s.Depends start b

theorem mem_foldl_insert {cells : List Address} {listed : Std.ExtTreeSet Address} :
    a ∈ cells.foldl (·.insert ·) listed ↔ a ∈ cells ∨ a ∈ listed := by
  induction cells generalizing listed with
  | nil => simp
  | cons b cells ih =>
    rw [List.foldl_cons, ih, Std.ExtTreeSet.mem_insert, Address.compare_eq_iff, List.mem_cons, @eq_comm _ b]
    tauto

/-- Trying a cell adds nothing if no cycle can be reached from it, or if a listed cell can. Otherwise it adds the cycle
at the end of a path from there, none of whose cells is listed. -/
theorem visit_cases (l : CycleList) (start : Address) :
    l.visit s start = l ∧ l.Covers s start ∨
      ∃ lead c inner, s.Lasso start (lead ++ c :: (inner ++ [c])) ∧ (c :: inner).Nodup ∧
        (∀ b ∈ c :: inner, b ∉ l.listed) ∧
          l.visit s start = ⟨(c :: inner).foldl (·.insert ·) l.listed, canonicalCycle (c :: inner) :: l.cycles⟩ := by
  rw [CycleList.visit]
  split
  · next known => exact .inl ⟨rfl, .inr ⟨start, known, .refl⟩⟩
  · split
    · next none => exact .inl ⟨rfl, .inl (findCycle_eq_none_iff.1 none)⟩
    · next path found =>
      have lasso := lasso_of_findCycle found
      obtain ⟨lead, c, inner, rfl, distinct⟩ := lasso.exists_eq
      rw [loopOf_append lead (List.nodup_cons.1 distinct).1]
      dsimp only
      split
      · next shared =>
        obtain ⟨b, mem, known⟩ := List.any_eq_true.1 shared
        have reached : ReflTransGen s.Depends start b := lasso.reflTransGen (by
          rw [← List.cons_append]
          exact List.mem_append_right lead (List.mem_append_left _ mem))
        exact .inl ⟨rfl, .inr ⟨b, of_decide_eq_true known, reached⟩⟩
      · next apart =>
        refine .inr ⟨lead, c, inner, lasso, distinct, fun b mem known => apart ?_, rfl⟩
        exact List.any_eq_true.2 ⟨b, mem, decide_eq_true known⟩

/-- Trying a cell keeps what is listed, and covers the cell. -/
theorem Sound.visit {l : CycleList} (h : l.Sound s) (start : Address) :
    (l.visit s start).Sound s ∧ (∀ a ∈ l.listed, a ∈ (l.visit s start).listed) ∧
      (l.visit s start).Covers s start := by
  rcases l.visit_cases (s := s) start with ⟨same, covered⟩ | ⟨lead, c, inner, lasso, -, -, added⟩
  · rw [same]
    exact ⟨h, fun _ mem => mem, covered⟩
  · rw [added]
    refine ⟨⟨?_, fun a => ?_⟩, fun a known => mem_foldl_insert.2 (.inr known), .inr ⟨c, ?_, ?_⟩⟩
    · exact List.forall_mem_cons.2 ⟨isCycle_canonicalCycle (List.isChain_split.1 lasso.steps).2, h.cycles⟩
    · rw [mem_foldl_insert, h.listed_iff]
      simp [mem_canonicalCycle]
    · exact mem_foldl_insert.2 (.inl (by simp))
    · exact lasso.reflTransGen (by simp)

/-- Trying cells one after another covers them all. -/
theorem Sound.foldl_visit {l : CycleList} (h : l.Sound s) (starts : List Address) :
    (starts.foldl (CycleList.visit s) l).Sound s ∧
      (∀ a ∈ l.listed, a ∈ (starts.foldl (CycleList.visit s) l).listed) ∧
      ∀ start ∈ starts, (starts.foldl (CycleList.visit s) l).Covers s start := by
  induction starts generalizing l with
  | nil => exact ⟨h, fun _ mem => mem, by simp⟩
  | cons start starts ih =>
    obtain ⟨sound, kept, covered⟩ := h.visit start
    obtain ⟨sound', kept', covered'⟩ := ih sound
    refine ⟨sound', fun a mem => kept' a (kept a mem), List.forall_mem_cons.2 ⟨?_, covered'⟩⟩
    exact covered.imp_right fun ⟨b, mem, reached⟩ => ⟨b, kept' b mem, reached⟩

end CycleList

/-! ### The whole list -/

/-- The addresses of the entries of a sheet that have dependencies. -/
def startsOf (entries : List (Address × Cell)) : List Address :=
  entries.filterMap fun (a, cell) => if cell.dependsOn.isEmpty then none else some a

theorem circularReferences_eq (s : Sheet) :
    s.circularReferences = ((startsOf s.toList).foldl (CycleList.visit s) ⟨∅, []⟩).cycles.reverse :=
  rfl

/-- The cells that are tried are those with dependencies. -/
theorem mem_startsOf_toList : a ∈ startsOf s.toList ↔ ∃ b, s.Depends a b := by
  simp only [startsOf, List.mem_filterMap, Depends, dependsOn]
  constructor
  · rintro ⟨⟨c, cell⟩, listed, some⟩
    obtain ⟨nonempty, same⟩ := Option.ite_none_left_eq_some.1 some
    obtain rfl : c = a := Option.some.inj same
    rw [Std.ExtTreeMap.mem_toList_iff_getElem?_eq_some.1 listed]
    exact List.exists_mem_of_ne_nil _ (by simpa using nonempty)
  · rintro ⟨b, step⟩
    cases found : s[a]? with
    | none => simp [found] at step
    | some cell =>
      rw [found] at step
      refine ⟨(a, cell), Std.ExtTreeMap.mem_toList_iff_getElem?_eq_some.2 found, if_neg ?_⟩
      simpa using List.ne_nil_of_mem step

/-- The list consists of cycles. -/
theorem isCycle_of_mem_circularReferences {path : List Address} (h : path ∈ s.circularReferences) :
    s.IsCycle path := by
  rw [circularReferences_eq, List.mem_reverse] at h
  have sound : CycleList.Sound s ⟨∅, []⟩ := ⟨by simp, by simp⟩
  exact (sound.foldl_visit _).1.cycles path h

/-- From a cell that depends on itself a listed cycle can be reached. -/
theorem exists_listed_of_transGen (h : TransGen s.Depends a a) :
    ∃ listed ∈ s.circularReferences, ∃ b ∈ listed, ReflTransGen s.Depends a b := by
  have sound : CycleList.Sound s ⟨∅, []⟩ := ⟨by simp, by simp⟩
  have depends : ∃ b, s.Depends a b := by
    obtain ⟨b, step, -⟩ := TransGen.head'_iff.1 h
    exact ⟨b, step⟩
  obtain ⟨sound, -, covered⟩ := sound.foldl_visit (startsOf s.toList)
  rcases covered a (mem_startsOf_toList.2 depends) with grounded | ⟨b, known, reached⟩
  · exact absurd h grounded.not_transGen
  · obtain ⟨listed, mem, hb⟩ := (sound.listed_iff b).1 known
    exact ⟨listed, List.mem_reverse.2 mem, b, hb, reached⟩

/-- Nothing is listed if and only if no cell depends on itself. -/
theorem circularReferences_eq_nil_iff : s.circularReferences = [] ↔ s.Acyclic := by
  constructor
  · intro nothing a cycle
    obtain ⟨listed, mem, -⟩ := exists_listed_of_transGen cycle
    simp [nothing] at mem
  · intro acyclic
    refine List.eq_nil_iff_forall_not_mem.2 fun path mem => ?_
    have cycle := isCycle_of_mem_circularReferences mem
    obtain ⟨c, inner, eq⟩ := cycle.exists_eq
    have here : c ∈ path := by simp [eq]
    exact acyclic c (cycle.transGen here here)

/-- **Every cycle leads to a listed one.** And a cycle has a cell in common with a listed one, unless it leads to a
cycle with which it has none in common. -/
theorem circularReferences_of_isCycle {path : List Address} (h : s.IsCycle path) :
    (∃ listed ∈ s.circularReferences, s.IsCycle listed ∧
      ∀ a ∈ path, ∀ b ∈ listed, ReflTransGen s.Depends a b) ∧
    ((∀ other, s.IsCycle other → (∃ a ∈ path, ∃ b ∈ other, ReflTransGen s.Depends a b) →
        ∃ a ∈ path, a ∈ other) →
      ∃ listed ∈ s.circularReferences, ∃ a ∈ path, a ∈ listed) := by
  obtain ⟨c, inner, eq⟩ := h.exists_eq
  have here : c ∈ path := by simp [eq]
  obtain ⟨listed, mem, b, hb, reached⟩ := exists_listed_of_transGen (h.transGen here here)
  have cycle := isCycle_of_mem_circularReferences mem
  refine ⟨⟨listed, mem, cycle, fun a ha d hd => ?_⟩, fun meets => ?_⟩
  · have toEntry : ReflTransGen s.Depends a b := (h.transGen ha here).to_reflTransGen.trans reached
    exact toEntry.trans (cycle.transGen hb hd).to_reflTransGen
  · exact ⟨listed, mem, meets listed cycle ⟨c, here, b, hb, reached⟩⟩

/-- Two cells that name each other, and no other cells, are a cycle that shares a cell with a listed one. -/
theorem circularReferences_of_isCycle_pair :
    let s : Sheet := ((∅ : Sheet).insert ⟨0, 0⟩ (.formula {} "=B1".toList)).insert ⟨0, 1⟩
      (.formula {} "=$A$1".toList)
    s.IsCycle [⟨0, 0⟩, ⟨0, 1⟩, ⟨0, 0⟩] ∧
      (∀ other, s.IsCycle other → ∃ a ∈ [⟨0, 0⟩, ⟨0, 1⟩, ⟨0, 0⟩], a ∈ other) ∧
      ∃ listed ∈ s.circularReferences, ∃ a ∈ [⟨0, 0⟩, ⟨0, 1⟩, ⟨0, 0⟩], a ∈ listed := by
  intro s
  have cycle : s.IsCycle [⟨0, 0⟩, ⟨0, 1⟩, ⟨0, 0⟩] := ⟨by decide +kernel, by decide, rfl⟩
  have meets (other : List Address) (h : s.IsCycle other) :
      ∃ a ∈ [⟨0, 0⟩, ⟨0, 1⟩, ⟨0, 0⟩], a ∈ other := by
    obtain ⟨c, inner, rfl⟩ := h.exists_eq
    -- the first cell of the cycle has dependencies, so it is one of the two
    have held : c ∈ s := by
      obtain ⟨b, step, -⟩ := TransGen.head'_iff.1 (h.transGen List.mem_cons_self List.mem_cons_self)
      by_contra absent
      exact not_depends_of_not_mem absent step
    simp only [s, Std.ExtTreeMap.mem_insert, Address.compare_eq_iff, Std.ExtTreeMap.not_mem_empty,
      or_false] at held
    rcases held with rfl | rfl
    · exact ⟨⟨0, 1⟩, by simp, List.mem_cons_self⟩
    · exact ⟨⟨0, 0⟩, by simp, List.mem_cons_self⟩
  exact ⟨cycle, meets, (circularReferences_of_isCycle cycle).2 fun other h _ => meets other h⟩

/-- A cycle that leads to a listed one may have no cell in common with any: the walk from the second cell comes to the
first one, which names itself and is listed, before it comes to the third. -/
theorem circularReferences_disjoint :
    let s : Sheet := (((∅ : Sheet).insert ⟨0, 0⟩ (.formula {} "=A1".toList)).insert ⟨0, 1⟩
      (.formula {} "=A1+C1".toList)).insert ⟨0, 2⟩ (.formula {} "=B1".toList)
    s.IsCycle [⟨0, 1⟩, ⟨0, 2⟩, ⟨0, 1⟩] ∧
      ∀ listed ∈ s.circularReferences, ∀ a ∈ [⟨0, 1⟩, ⟨0, 2⟩, ⟨0, 1⟩], a ∉ listed := by
  intro s
  have first : s.findCycle ⟨0, 0⟩ = some [⟨0, 0⟩, ⟨0, 0⟩] :=
    Moment.run_of_answerWithin? (show Moment.answerWithin? s 1 _ = _ by decide +kernel)
  have second : s.findCycle ⟨0, 1⟩ = some [⟨0, 1⟩, ⟨0, 0⟩, ⟨0, 0⟩] :=
    Moment.run_of_answerWithin? (show Moment.answerWithin? s 2 _ = _ by decide +kernel)
  have third : s.findCycle ⟨0, 2⟩ = some [⟨0, 2⟩, ⟨0, 1⟩, ⟨0, 0⟩, ⟨0, 0⟩] :=
    Moment.run_of_answerWithin? (show Moment.answerWithin? s 3 _ = _ by decide +kernel)
  have starts : (s.toList.filterMap fun (a, cell) => if cell.dependsOn.isEmpty then none else some a) =
      [⟨0, 0⟩, ⟨0, 1⟩, ⟨0, 2⟩] := by decide +kernel
  -- only the first cell adds a cycle; the walks from the other two end in it
  have one : CycleList.visit s ⟨∅, []⟩ ⟨0, 0⟩ = ⟨(∅ : Std.ExtTreeSet Address).insert ⟨0, 0⟩, [[⟨0, 0⟩, ⟨0, 0⟩]]⟩ := by
    rw [CycleList.visit, if_neg (by decide +kernel), first]
    exact if_neg (by decide +kernel)
  have two : CycleList.visit s ⟨(∅ : Std.ExtTreeSet Address).insert ⟨0, 0⟩, [[⟨0, 0⟩, ⟨0, 0⟩]]⟩ ⟨0, 1⟩ =
      ⟨(∅ : Std.ExtTreeSet Address).insert ⟨0, 0⟩, [[⟨0, 0⟩, ⟨0, 0⟩]]⟩ := by
    rw [CycleList.visit, if_neg (by decide +kernel), second]
    exact if_pos (by decide +kernel)
  have three : CycleList.visit s ⟨(∅ : Std.ExtTreeSet Address).insert ⟨0, 0⟩, [[⟨0, 0⟩, ⟨0, 0⟩]]⟩ ⟨0, 2⟩ =
      ⟨(∅ : Std.ExtTreeSet Address).insert ⟨0, 0⟩, [[⟨0, 0⟩, ⟨0, 0⟩]]⟩ := by
    rw [CycleList.visit, if_neg (by decide +kernel), third]
    exact if_pos (by decide +kernel)
  have all : s.circularReferences = [[⟨0, 0⟩, ⟨0, 0⟩]] := by
    rw [circularReferences, starts, List.foldl_cons, List.foldl_cons, List.foldl_cons, List.foldl_nil, one, two,
      three]
    rfl
  refine ⟨⟨by decide +kernel, by decide, rfl⟩, ?_⟩
  rw [all]
  decide

end Spreadsheet.Sheet
