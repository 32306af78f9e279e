/-!
# Bounded nesting

The subexpressions that are open at some place, innermost first, together with the number of further ones
that may still be opened. Opening uses up room and closing gives it back, so the limit, which is the sum of
depth and room, never changes.
-/

namespace Spreadsheet

/-- Open items, innermost first, and the room that is left for more. -/
structure Nesting (α : Type) where
  items : List α
  room : Nat
deriving DecidableEq

namespace Nesting

variable {α : Type}

/-- The limit on nesting when none is given. -/
def defaultLimit : Nat := 1024

/-- Nothing is open yet. -/
def empty (limit : Nat) : Nesting α :=
  ⟨[], limit⟩

/-- The number of open items. -/
def depth (n : Nesting α) : Nat :=
  n.items.length

/-- The number of items that may be open at once. -/
def limit (n : Nesting α) : Nat :=
  n.depth + n.room

/-- The innermost item. -/
def innermost? (n : Nesting α) : Option α :=
  n.items.head?

/-- Opens an item, unless the limit is reached. -/
def push? (n : Nesting α) (item : α) : Option (Nesting α) :=
  match n.room with
  | 0 => none
  | room + 1 => some ⟨item :: n.items, room⟩

/-- Closes the innermost item. -/
def pop? (n : Nesting α) : Option (α × Nesting α) :=
  match n.items with
  | [] => none
  | item :: items => some (item, ⟨items, n.room + 1⟩)

@[simp] theorem limit_empty (limit : Nat) : (empty limit : Nesting α).limit = limit := by
  simp [Nesting.limit, empty, depth]

theorem limit_push? {n m : Nesting α} {item : α} (h : n.push? item = some m) : m.limit = n.limit := by
  rcases n with ⟨items, _ | room⟩
  · simp [push?] at h
  · simp only [push?, Option.some.injEq] at h
    subst h
    simp only [limit, depth, List.length_cons]
    omega

theorem limit_pop? {n m : Nesting α} {item : α} (h : n.pop? = some (item, m)) :
    m.limit = n.limit := by
  rcases n with ⟨_ | ⟨top, items⟩, room⟩
  · simp [pop?] at h
  · simp only [pop?, Option.some.injEq, Prod.mk.injEq] at h
    obtain ⟨rfl, rfl⟩ := h
    simp only [limit, depth, List.length_cons]
    omega

theorem items_of_push? {n m : Nesting α} {item : α} (h : n.push? item = some m) : m.items = item :: n.items := by
  rcases n with ⟨items, _ | room⟩
  · simp [push?] at h
  · simp only [push?, Option.some.injEq] at h
    subst h
    rfl

theorem items_of_pop? {n m : Nesting α} {item : α} (h : n.pop? = some (item, m)) : n.items = item :: m.items := by
  rcases n with ⟨_ | ⟨top, items⟩, room⟩
  · simp [pop?] at h
  · simp only [pop?, Option.some.injEq, Prod.mk.injEq] at h
    obtain ⟨rfl, rfl⟩ := h
    rfl

/-- An item is refused exactly at the limit. -/
theorem push?_eq_none_iff {n : Nesting α} {item : α} :
    n.push? item = none ↔ n.depth = n.limit := by
  rcases n with ⟨items, _ | room⟩ <;> simp [push?, limit, depth]

end Nesting

end Spreadsheet
