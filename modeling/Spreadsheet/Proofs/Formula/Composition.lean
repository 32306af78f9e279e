import Spreadsheet.Proofs.Formula.References

/-!
# Moving references twice

Moving the references of a formula twice is moving them once, each coordinate in two steps.  In between the moved
references are written down and read again, so the coordinates must stay below the bound; then a reference without a
new place is an error after both steps, whichever of them it falls to.

* `Relocation.andThen` — first one relocation, then another one.
* `Relocation.Agrees` — two relocations do the same to all coordinates below a bound.
* `Relocation.StaysWith` — a relocation leaves in place whatever another one leaves there.
* `moveToken_moveToken`, `moveToken_congr`, `moveToken_eq_self` — what this means for one token.
* `relocate_relocate`, `relocate_congr`, `relocate_eq_self` — what it means for a formula.
-/

namespace Spreadsheet

namespace Relocation

/-! ### Areas -/

theorem moveBoth?_eq_bind {α β : Type} (move : α → Option α) (make : α → α → β) (first last : α) :
    moveBoth? move make first last = (move first).bind fun a => (move last).map (make a) := by
  rw [moveBoth?]
  cases move first <;> cases move last <;> rfl

/-- First one relocation, then another one. -/
def andThen (m m' : Relocation) : Relocation :=
  ⟨fun c => (m.column c).bind m'.column, fun c => (m.row c).bind m'.row⟩

theorem moveCell?_andThen (m m' : Relocation) (c : CellReference) :
    (m.andThen m').moveCell? c = (m.moveCell? c).bind m'.moveCell? := by
  simp only [moveCell?, andThen]
  cases m.column c.column with
  | none => rfl
  | some column =>
    cases m.row c.row with
    | none => simp
    | some row => rfl

theorem moveBoth?_bind {α β : Type} (move move' : α → Option α) (make : α → α → β) (again : β → Option β)
    (h : ∀ a b, again (make a b) = moveBoth? move' make a b) (first last : α) :
    moveBoth? (fun a => (move a).bind move') make first last = (moveBoth? move make first last).bind again := by
  simp only [moveBoth?_eq_bind] at h ⊢
  cases move first with
  | none => rfl
  | some a =>
    cases move last with
    | none => simp
    | some b => simp [h]

theorem moveArea?_andThen (m m' : Relocation) (area : Area) :
    (m.andThen m').moveArea? area = (m.moveArea? area).bind m'.moveArea? := by
  have cells : (m.andThen m').moveCell? = fun c => (m.moveCell? c).bind m'.moveCell? :=
    funext (moveCell?_andThen m m')
  cases area with
  | cell c =>
    simp only [moveArea?, moveCell?_andThen]
    cases m.moveCell? c <;> rfl
  | cells a b =>
    simp only [moveArea?, cells]
    exact moveBoth?_bind m.moveCell? m'.moveCell? Area.cells m'.moveArea? (fun _ _ => rfl) a b
  | columns a b => exact moveBoth?_bind m.column m'.column Area.columns m'.moveArea? (fun _ _ => rfl) a b
  | rows a b => exact moveBoth?_bind m.row m'.row Area.rows m'.moveArea? (fun _ _ => rfl) a b

variable {m n : Relocation} {bound : Nat}

/-- An area is moved part by part. -/
theorem moveArea?_eq_bind (m : Relocation) (a : Area) :
    m.moveArea? a = (a.parts.mapM m.movePart?).bind Area.ofParts? := by
  cases a with
  | cell c => cases moved : m.moveCell? c <;> simp [moveArea?, Area.parts, movePart?, Area.ofParts?, moved]
  | cells x y =>
    cases first : m.moveCell? x <;> cases last : m.moveCell? y <;>
      simp [moveArea?, moveBoth?, Area.parts, movePart?, Area.ofParts?, first, last]
  | columns x y =>
    cases first : m.column x <;> cases last : m.column y <;>
      simp [moveArea?, moveBoth?, Area.parts, movePart?, Area.ofParts?, first, last]
  | rows x y =>
    cases first : m.row x <;> cases last : m.row y <;>
      simp [moveArea?, moveBoth?, Area.parts, movePart?, Area.ofParts?, first, last]

theorem movePart?_congr {part : ReferencePart} (columns : ∀ c ∈ part.columnCoordinates, m.column c = n.column c)
    (rows : ∀ c ∈ part.rowCoordinates, m.row c = n.row c) : m.movePart? part = n.movePart? part := by
  cases part with
  | cell c =>
    simp only [movePart?, moveCell?, columns c.column List.mem_cons_self, rows c.row List.mem_cons_self]
  | column c => simp only [movePart?, columns c List.mem_cons_self]
  | row c => simp only [movePart?, rows c List.mem_cons_self]

/-- Two relocations do the same to an area if they do the same to its coordinates. -/
theorem moveArea?_congr {a : Area} (columns : ∀ c ∈ a.columnCoordinates, m.column c = n.column c)
    (rows : ∀ c ∈ a.rowCoordinates, m.row c = n.row c) : m.moveArea? a = n.moveArea? a := by
  have parts : ∀ part ∈ a.parts, m.movePart? part = n.movePart? part := fun part mem =>
    movePart?_congr (fun c hc => columns c (List.mem_flatMap.2 ⟨part, mem, hc⟩))
      fun c hc => rows c (List.mem_flatMap.2 ⟨part, mem, hc⟩)
  rw [moveArea?_eq_bind, moveArea?_eq_bind, mapM_congr parts]

/-- Two relocations do the same to all coordinates below a bound. -/
def Agrees (m n : Relocation) (bound : Nat) : Prop :=
  ∀ c : Coordinate, c.index < bound → m.column c = n.column c ∧ m.row c = n.row c

theorem Agrees.moveArea? (h : m.Agrees n bound) {a : Area} (below : a.Below bound) :
    m.moveArea? a = n.moveArea? a := by
  obtain ⟨columns, rows⟩ := Area.below_iff.1 below
  exact moveArea?_congr (fun c mem => (h c (columns c mem)).1) fun c mem => (h c (rows c mem)).2

/-- Whatever the other relocation leaves in its place, this one leaves there. -/
def StaysWith (m n : Relocation) : Prop :=
  ∀ c : Coordinate, (n.column c = some c → m.column c = some c) ∧ (n.row c = some c → m.row c = some c)

theorem StaysWith.moveCell? (h : m.StaysWith n) {c : CellReference} (stays : n.moveCell? c = some c) :
    m.moveCell? c = some c := by
  rw [Relocation.moveCell?] at stays ⊢
  split at stays
  · next column row moveColumn moveRow =>
    cases stays
    rw [(h column).1 moveColumn, (h row).2 moveRow]
  · cases stays

theorem moveBoth?_eq_self {α β : Type} {move move' : α → Option α} {make : α → α → β} {first last : α}
    (injective : ∀ a b, make a b = make first last → a = first ∧ b = last)
    (stays : ∀ a, move' a = some a → move a = some a) (h : moveBoth? move' make first last = some (make first last)) :
    moveBoth? move make first last = some (make first last) := by
  obtain ⟨a, b, moveFirst, moveLast, same⟩ := moveBoth?_eq_some h
  obtain ⟨rfl, rfl⟩ := injective a b same
  rw [moveBoth?, stays a moveFirst, stays b moveLast]

theorem StaysWith.moveArea? (h : m.StaysWith n) {area : Area} (stays : n.moveArea? area = some area) :
    m.moveArea? area = some area := by
  cases area with
  | cell c =>
    obtain ⟨c', moved, same⟩ := Option.map_eq_some_iff.1 stays
    obtain rfl : c' = c := Area.cell.inj same
    rw [Relocation.moveArea?, h.moveCell? moved, Option.map_some]
  | cells a b => exact moveBoth?_eq_self (fun _ _ => Area.cells.inj) (fun _ => h.moveCell?) stays
  | columns a b => exact moveBoth?_eq_self (fun _ _ => Area.columns.inj) (fun c => (h c).1) stays
  | rows a b => exact moveBoth?_eq_self (fun _ _ => Area.rows.inj) (fun c => (h c).2) stays

/-! ### Tokens -/

/-- A token is moved as the reference that it is. -/
theorem moveToken_eq (m : Relocation) (t : Token) :
    m.moveToken t =
      match Formula.referenceOf? t with
      | some r => .operand (m.moveText r)
      | none => t := by
  rw [moveToken, Formula.referenceOf?]
  split
  · cases Reference.read? t.value <;> rfl
  · rfl

theorem moveToken_congr {t : Token}
    (same : ∀ r, Formula.referenceOf? t = some r → m.moveArea? r.area = n.moveArea? r.area) :
    m.moveToken t = n.moveToken t := by
  rw [moveToken_eq, moveToken_eq]
  cases read : Formula.referenceOf? t with
  | none => rfl
  | some r => simp only [moveText, same r read]

/-- An operand that is moved twice is moved by the two relocations one after the other. -/
theorem moveToken_moveToken (h : bound < indexBound) {v : List Char}
    (lands : ∀ r, Formula.referenceOf? (.operand v) = some r → m.Lands bound r.area) (m' : Relocation) :
    m'.moveToken (m.moveToken (.operand v)) = (m.andThen m').moveToken (.operand v) := by
  have again := Formula.referenceOf?_moveOperand h lands
  rw [m.moveToken_operand, moveToken_eq, moveToken_eq, again, ← m.moveToken_operand, moveToken_eq]
  cases Formula.referenceOf? (.operand v) with
  | none => rfl
  | some r =>
    simp only [Option.bind_some, moveReference?, moveText, moveArea?_andThen]
    cases m.moveArea? r.area <;> rfl

/-- An operand that one relocation leaves as it is, canonical spelling included, is left by the other one too. -/
theorem moveToken_eq_self (h : m.StaysWith n) (bounds : n.Bounds (indexBound - 1) indexBound) {v : List Char}
    (stays : n.moveToken (.operand v) = .operand v) :
    m.moveToken (.operand v) = .operand v := by
  rw [moveToken_eq] at stays ⊢
  cases read : Formula.referenceOf? (.operand v) with
  | none => rfl
  | some r =>
    simp only [read] at stays ⊢
    -- the operand is the text of a moved reference, so it is read as one, and that is the reference itself
    have same : n.moveOperand v = v := by
      rw [moveOperand, moveToken_eq, read]
      exact congrArg Token.value stays
    obtain ⟨r', read', moved⟩ := Formula.exists_of_referenceOf?_moveOperand bounds (same.symm ▸ read)
    obtain rfl : r' = r := Option.some.inj (read'.symm.trans read)
    obtain ⟨area, moveArea, eq⟩ := Option.map_eq_some_iff.1 moved
    obtain rfl : area = r'.area := congrArg Reference.area eq
    rw [← stays, moveText, moveText, moveArea, h.moveArea? moveArea]

end Relocation

namespace Formula

/-! ### Formulas -/

variable {options : Options} {m : Relocation} {bound : Nat} {formula : List Char} {tokens : List Token}

theorem mem_references {t : Token} (mem : t ∈ tokens) {r : Reference} (read : referenceOf? t = some r) :
    r ∈ references tokens :=
  List.mem_filterMap.2 ⟨t, mem, read⟩

theorem relocate_congr {n : Relocation} (split : tokenize { options with preserveWhitespace := true } formula = .ok tokens)
    (same : ∀ r ∈ references tokens, m.moveArea? r.area = n.moveArea? r.area) :
    relocate options m formula = relocate options n formula := by
  have moved : tokens.map m.moveToken = tokens.map n.moveToken :=
    List.map_congr_left fun t mem => Relocation.moveToken_congr fun r read => same r (mem_references mem read)
  rw [relocate, relocate, split, Except.map, Except.map, moved]

/-- A formula that one relocation leaves as it is is left by the other one too. -/
theorem relocate_eq_self {n : Relocation} (h : m.StaysWith n) (bounds : n.Bounds (indexBound - 1) indexBound)
    (split : tokenize { options with preserveWhitespace := true } formula = .ok tokens)
    (stays : relocate options n formula = .ok formula) : relocate options m formula = .ok formula := by
  obtain ⟨text, moved, again⟩ := tokenize_relocate split n
  obtain rfl : formula = text := Except.ok.inj (stays.symm.trans moved)
  have fixed : tokens.map n.moveToken = tokens := Except.ok.inj (again.symm.trans split)
  have same : tokens.map m.moveToken = tokens.map n.moveToken := by
    refine List.map_congr_left fun t mem => ?_
    have stays : n.moveToken t = t := List.map_inj_left.1 (fixed.trans (List.map_id tokens).symm) t mem
    rcases operand_or_of_tokenize split t mem with ⟨v, rfl⟩ | other
    · rw [stays, Relocation.moveToken_eq_self h bounds stays]
    · rw [m.moveToken_of_ne other, n.moveToken_of_ne other]
  rw [relocate, split, Except.map] at stays ⊢
  rw [same]
  exact stays

/-- A formula that is moved twice is moved by the two relocations one after the other. -/
theorem relocate_relocate (h : bound < indexBound)
    (split : tokenize { options with preserveWhitespace := true } formula = .ok tokens)
    (lands : ∀ r ∈ references tokens, m.Lands bound r.area) (m' : Relocation) :
    ∃ text, relocate options m formula = .ok text ∧
      relocate options m' text = relocate options (m.andThen m') formula := by
  obtain ⟨text, moved, again⟩ := tokenize_relocate split m
  have twice : (tokens.map m.moveToken).map m'.moveToken = tokens.map (m.andThen m').moveToken := by
    rw [List.map_map]
    refine List.map_congr_left fun t mem => ?_
    rw [Function.comp_apply]
    rcases operand_or_of_tokenize split t mem with ⟨v, rfl⟩ | other
    · exact Relocation.moveToken_moveToken h (fun r read => lands r (mem_references mem read)) m'
    · rw [m.moveToken_of_ne other, m'.moveToken_of_ne other, (m.andThen m').moveToken_of_ne other]
  refine ⟨text, moved, ?_⟩
  rw [relocate, relocate, again, split, Except.map, Except.map, twice]

end Formula

end Spreadsheet
