import Spreadsheet.Sheet

/-!
# What a sheet and its reverse map hold

A sheet is built by putting cells in one after another, and the map of dependents by noting dependencies one
after another.  Both are characterised by what is found in them.

* `Sheet.getElem?_insertAll` — what is found in a sheet after many cells have been put in.
* `Dependents.has_add`, `Sheet.has_dependents_iff` — the dependents of a cell are the cells that depend on it.
* `Sheet.tight_dependents` — no cell is listed as having no dependents.
-/

namespace Spreadsheet

/-! ### The order of cells -/

@[simp] theorem Address.compare_eq_iff {a b : Address} : compare a b = .eq ↔ a = b :=
  Std.LawfulEqCmp.compare_eq_iff_eq

/-- One cell stands in front of another when cells are listed row by row. -/
def Address.Before (a b : Address) : Prop :=
  a.row < b.row ∨ a.row = b.row ∧ a.column < b.column

theorem Address.Before.ne {a b : Address} (h : a.Before b) : a ≠ b := by
  rintro rfl
  rcases h with less | ⟨-, less⟩ <;> exact Nat.lt_irrefl _ less

theorem Address.compare_eq_lt_iff {a b : Address} : compare a b = .lt ↔ a.Before b := by
  have rowThenColumn : compare a b = (compare a.row b.row).then (compare a.column b.column) := rfl
  rw [rowThenColumn, Ordering.then_eq_lt, Nat.compare_eq_lt, Nat.compare_eq_eq, Nat.compare_eq_lt, Before]

theorem Address.before_of_not_before {a b : Address} (other : a ≠ b) (h : ¬b.Before a) : a.Before b := by
  obtain ⟨row, column⟩ := a
  obtain ⟨row', column'⟩ := b
  simp only [ne_eq, Address.mk.injEq, Before] at *
  omega

/-! ### Tokens of cells -/

namespace Cell

/-- The tokens of a formula; none for other cells. -/
def tokens (cell : Cell) : List Token :=
  cell.tokens?.getD []

theorem tokens_of_content {cell : Cell} {source : List Char} {ts : List Token}
    (h : cell.content = .formula source ts) : cell.tokens = ts := by
  rw [tokens, tokens?, h]
  rfl

theorem tokens_of_ne {cell : Cell} (h : ∀ source ts, cell.content ≠ .formula source ts) :
    cell.tokens = [] := by
  rw [tokens, tokens?]
  split
  · next source ts content => exact absurd content (h source ts)
  · rfl

theorem tokens_formula {options : Formula.Options} {source : List Char} {ts : List Token}
    (h : Formula.tokenize options source = .ok ts) : (Cell.formula options source).tokens = ts := by
  refine @tokens_of_content _ source ts ?_
  rw [formula, h]

end Cell

namespace Sheet

/-- The tokens of the formula at an address; none if there is no formula. -/
def tokensAt (s : Sheet) (a : Address) : List Token :=
  match s[a]? with
  | some cell => cell.tokens
  | none => []

/-! ### Putting cells in -/

/-- Where there is no cell, none can be taken out. -/
theorem erase_eq_self {s : Sheet} {a : Address} (h : s[a]? = none) : s.erase a = s := by
  refine Std.ExtTreeMap.ext_getElem? fun b => ?_
  rw [Std.ExtTreeMap.getElem?_erase]
  split
  · next same => rw [← Address.compare_eq_iff.1 same, h]
  · rfl

theorem insertAll_cons (s : Sheet) (a : Address) (cell : Cell) (cells : List (Address × Cell)) :
    s.insertAll ((a, cell) :: cells) = insertAll (s.insert a cell) cells :=
  rfl

/-- Whatever is found was there before or has been put in. -/
theorem mem_of_getElem?_insertAll {s : Sheet} {cells : List (Address × Cell)} {a : Address} {cell : Cell}
    (h : (s.insertAll cells)[a]? = some cell) : s[a]? = some cell ∨ (a, cell) ∈ cells := by
  induction cells generalizing s with
  | nil => exact .inl h
  | cons first cells ih =>
    obtain ⟨b, other⟩ := first
    rw [insertAll_cons] at h
    rcases ih h with found | mem
    · rw [Std.ExtTreeMap.getElem?_insert] at found
      split at found
      · next same =>
        rw [Address.compare_eq_iff] at same
        cases found
        exact .inr (by simp [same])
      · exact .inl found
    · exact .inr (List.mem_cons_of_mem _ mem)

/-- Putting in cells changes nothing at other addresses. -/
theorem getElem?_insertAll_of_ne {s : Sheet} {cells : List (Address × Cell)} {a : Address}
    (h : ∀ entry ∈ cells, entry.1 ≠ a) : (s.insertAll cells)[a]? = s[a]? := by
  induction cells generalizing s with
  | nil => rfl
  | cons entry cells ih =>
    obtain ⟨here, behind⟩ := List.forall_mem_cons.1 h
    rw [insertAll_cons, ih behind, Std.ExtTreeMap.getElem?_insert, if_neg (mt Address.compare_eq_iff.1 here)]

/-- A sheet lists no address twice. -/
theorem pairwise_toList (s : Sheet) : s.toList.Pairwise fun x y => x.1 ≠ y.1 :=
  Std.ExtTreeMap.distinct_keys_toList.imp fun distinct same => distinct (Address.compare_eq_iff.2 same)

/-- If no address occurs twice, what is put in is found, and nothing else has changed. -/
theorem getElem?_insertAll {s : Sheet} {cells : List (Address × Cell)} {a : Address} {cell : Cell}
    (apart : cells.Pairwise fun x y => x.1 ≠ y.1) :
    (s.insertAll cells)[a]? = some cell ↔
      (a, cell) ∈ cells ∨ ((∀ entry ∈ cells, entry.1 ≠ a) ∧ s[a]? = some cell) := by
  induction cells generalizing s with
  | nil => simp [insertAll]
  | cons first cells ih =>
    obtain ⟨b, other⟩ := first
    obtain ⟨here, behind⟩ := List.pairwise_cons.1 apart
    rw [insertAll_cons, ih behind, Std.ExtTreeMap.getElem?_insert]
    by_cases same : b = a
    · subst same
      rw [if_pos (Address.compare_eq_iff.2 rfl), Option.some.injEq]
      constructor
      · rintro (mem | ⟨-, rfl⟩)
        · exact absurd rfl (here (b, cell) mem)
        · exact .inl List.mem_cons_self
      · rintro (mem | ⟨others, -⟩)
        · rcases List.mem_cons.1 mem with eq | mem
          · cases eq
            exact .inr ⟨fun entry mem => (here entry mem).symm, rfl⟩
          · exact absurd rfl (here (b, cell) mem)
        · exact absurd rfl (others _ List.mem_cons_self)
    · rw [if_neg (mt Address.compare_eq_iff.1 same)]
      constructor
      · rintro (mem | ⟨others, found⟩)
        · exact .inl (List.mem_cons_of_mem _ mem)
        · exact .inr ⟨List.forall_mem_cons.2 ⟨same, others⟩, found⟩
      · rintro (mem | ⟨others, found⟩)
        · rcases List.mem_cons.1 mem with eq | mem
          · cases eq
            exact absurd rfl same
          · exact .inl mem
        · exact .inr ⟨(List.forall_mem_cons.1 others).2, found⟩

end Sheet

/-! ### The reverse map -/

namespace Dependents

/-- The map says that the cell at `q` depends on the cell at `p`. -/
def Has (d : Dependents) (p q : Address) : Prop :=
  ∃ set, d[p]? = some set ∧ q ∈ set

/-- No cell occurs without a cell that depends on it. -/
def Tight (d : Dependents) : Prop :=
  ∀ (p : Address) set, d[p]? = some set → ∃ q, q ∈ set

theorem not_has_empty (p q : Address) : ¬(∅ : Dependents).Has p q := by
  rintro ⟨set, found, -⟩
  simp at found

theorem mem_listAt {d : Dependents} {p q : Address} : q ∈ d.listAt p ↔ d.Has p q := by
  rw [listAt, Std.ExtTreeSet.mem_toList, Std.ExtTreeMap.getD_eq_getD_getElem?, Has]
  cases d[p]? with
  | none => simp
  | some set => simp

theorem has_add {d : Dependents} {a on p q : Address} :
    (d.add a on).Has p q ↔ (p = on ∧ q = a) ∨ d.Has p q := by
  by_cases same : on = p
  · subst same
    have found : (d.add a on)[on]? = some ((d.getD on ∅).insert a) :=
      Std.ExtTreeMap.getElem?_insert_self
    rw [Has, found, ← mem_listAt, listAt]
    simp only [Option.some.injEq, exists_eq_left', Std.ExtTreeSet.mem_insert,
      Std.ExtTreeSet.mem_toList, Address.compare_eq_iff, true_and]
    rw [@eq_comm _ a q]
  · have kept : (d.add a on)[p]? = d[p]? := by
      rw [add, Std.ExtTreeMap.getElem?_insert, if_neg (by simpa using same)]
    rw [Has, kept, Has]
    simp [Ne.symm same]

theorem Tight.add {d : Dependents} (h : d.Tight) (a on : Address) : (d.add a on).Tight := by
  intro p set found
  rw [Dependents.add, Std.ExtTreeMap.getElem?_insert] at found
  split at found
  · cases found
    exact ⟨a, Std.ExtTreeSet.mem_insert_self⟩
  · exact h p set found

/-- The map with all dependencies of one cell. -/
def addAll (d : Dependents) (a : Address) (dependsOn : List Address) : Dependents :=
  dependsOn.foldl (fun d on => d.add a on) d

theorem has_addAll {d : Dependents} {a p q : Address} {dependsOn : List Address} :
    (d.addAll a dependsOn).Has p q ↔ (p ∈ dependsOn ∧ q = a) ∨ d.Has p q := by
  induction dependsOn generalizing d with
  | nil => simp [addAll]
  | cons on dependsOn ih =>
    have step : d.addAll a (on :: dependsOn) = (d.add a on).addAll a dependsOn := rfl
    rw [step, ih, has_add, List.mem_cons, or_and_right, or_left_comm, or_assoc]

theorem Tight.addAll {d : Dependents} (h : d.Tight) (a : Address) (dependsOn : List Address) :
    (d.addAll a dependsOn).Tight := by
  induction dependsOn generalizing d with
  | nil => exact h
  | cons on dependsOn ih => exact ih (h.add a on)

end Dependents

namespace Sheet

/-- The map is built cell by cell. -/
theorem dependents_eq_foldl (s : Sheet) :
    s.dependents = s.toList.foldl (fun d entry => d.addAll entry.1 entry.2.dependsOn) ∅ := by
  rw [dependents, Std.ExtTreeMap.foldl_eq_foldl_toList]
  rfl

theorem has_foldl {d : Dependents} {cells : List (Address × Cell)} {p q : Address} :
    (cells.foldl (fun d entry => d.addAll entry.1 entry.2.dependsOn) d).Has p q ↔
      (∃ cell, (q, cell) ∈ cells ∧ p ∈ cell.dependsOn) ∨ d.Has p q := by
  induction cells generalizing d with
  | nil => simp
  | cons entry cells ih =>
    obtain ⟨a, cell⟩ := entry
    rw [List.foldl_cons, ih, Dependents.has_addAll]
    constructor
    · rintro (⟨other, mem, depends⟩ | ⟨depends, rfl⟩ | has)
      · exact .inl ⟨other, List.mem_cons_of_mem _ mem, depends⟩
      · exact .inl ⟨cell, by simp, depends⟩
      · exact .inr has
    · rintro (⟨other, mem, depends⟩ | has)
      · rcases List.mem_cons.1 mem with same | mem
        · obtain ⟨rfl, rfl⟩ := Prod.mk.inj same
          exact .inr (.inl ⟨depends, rfl⟩)
        · exact .inl ⟨other, mem, depends⟩
      · exact .inr (.inr has)

/-- The map of dependents turns the dependencies of the cells round. -/
theorem has_dependents_iff {s : Sheet} {p q : Address} :
    s.dependents.Has p q ↔ ∃ cell, s[q]? = some cell ∧ p ∈ cell.dependsOn := by
  rw [dependents_eq_foldl, has_foldl]
  simp only [Std.ExtTreeMap.mem_toList_iff_getElem?_eq_some, Dependents.not_has_empty, or_false]

theorem tight_dependents (s : Sheet) : s.dependents.Tight := by
  have all (cells : List (Address × Cell)) (d : Dependents) (h : d.Tight) :
      (cells.foldl (fun d entry => d.addAll entry.1 entry.2.dependsOn) d).Tight := by
    induction cells generalizing d with
    | nil => exact h
    | cons entry cells ih => exact ih _ (h.addAll entry.1 entry.2.dependsOn)
  rw [dependents_eq_foldl]
  refine all _ _ fun p set found => ?_
  simp at found

end Sheet

end Spreadsheet
