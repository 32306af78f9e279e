import Spreadsheet.Proofs.Formula.Lexeme
import Spreadsheet.Proofs.Formula.Operand
import Spreadsheet.Proofs.Reference.Spelling
import Spreadsheet.Proofs.Sheet
import Spreadsheet.Proofs.Text
import Spreadsheet.Sheet.Grd

/-!
# Lines are read one by one

A line is blank, a comment, or the name of a cell and a value with a colon in between.  A text is read if all of its
lines are of these kinds, and otherwise the first one that is not is reported.  The lines of a text behind those of
another one are read as if they stood alone, and what they say replaces what was said before.

* `ValueText`, `LineText` — the values and the lines; `readValue_eq_ok_iff` and `readLine?_eq_ok_iff`.
* `LastValue` — the value behind the last line that names a cell; `getElem?_of_readLines`, `getElem?_of_read`.
* `readLines_append`, `readLines_union` — lines behind other lines.
* `read_linewise` — the three together for whole texts.
-/

namespace Spreadsheet

/-- A text between double quotes. -/
theorem Cell.unquoted?_eq_some_iff {s quoted : List Char} :
    unquoted? s = some quoted ↔ s = '"' :: (quoted ++ ['"']) := by
  constructor
  · intro h
    rw [unquoted?.eq_def] at h
    split at h
    · next s =>
      obtain ⟨last, same⟩ := Option.ite_none_right_eq_some.1 h
      rw [← Option.some.inj same, List.dropLast_append_getLast? _ last]
    · cases h
  · rintro rfl
    simp [unquoted?]

namespace Grd

open Text

variable {options : Formula.Options}

/-! ### Values -/

/-- The cells that a value stands for.  Blanks around it do not count. -/
inductive ValueText (options : Formula.Options) (value : List Char) : Cell → Prop
  | empty : trim value = [] → ValueText options value .empty
  | formula {body : List Char} : trim value = '=' :: body → ValueText options value (.formula options ('=' :: body))
  | text {quoted : List Char} : trim value = '"' :: (quoted ++ ['"']) → ValueText options value (.text (unescape quoted))
  | number {n : Number} : Number.read? (trim value) = some n → ValueText options value (.number n)

/-- A value is read as the cell that it stands for. -/
theorem readValue_eq_ok_iff {value : List Char} {cell : Cell} :
    readValue options value = .ok cell ↔ ValueText options value cell := by
  have none {c : Char} {s : List Char} (other : c.isDigit = false ∧ c ∉ ['+', '-', '.']) (letter : c.isAlpha = false) :
      Number.read? (c :: s) = none := Number.read?_eq_none rfl other List.mem_cons_self letter
  constructor
  · intro h
    simp only [readValue] at h
    split at h
    · next empty =>
      cases h
      exact .empty empty
    · split at h
      · next head =>
        obtain ⟨body, eq⟩ := List.head?_eq_some_iff.1 head
        cases h
        rw [eq]
        exact .formula eq
      · split at h
        · next unquoted =>
          cases h
          exact .text (Cell.unquoted?_eq_some_iff.1 unquoted)
        · split at h
          · next read =>
            cases h
            exact .number read
          · cases h
  · intro h
    cases h with
    | empty eq => simp only [readValue, eq, if_true]
    | formula eq => simp [readValue, eq]
    | text eq => simp only [readValue, Cell.unquoted?_eq_some_iff.2 eq]; simp [eq]
    | number read =>
      have ne : trim value ≠ [] := by
        intro empty
        have nothing : Number.read? [] = Option.none := by decide
        rw [empty, nothing] at read
        cases read
      have head : (trim value).head? ≠ some '=' := by
        intro head
        obtain ⟨body, eq⟩ := List.head?_eq_some_iff.1 head
        rw [eq, none (by decide) (by decide)] at read
        cases read
      have unquoted : Cell.unquoted? (trim value) = Option.none := by
        refine Option.eq_none_iff_forall_ne_some.2 fun quoted eq => ?_
        rw [Cell.unquoted?_eq_some_iff.1 eq, none (by decide) (by decide)] at read
        cases read
      simp only [readValue, if_neg ne, if_neg head, unquoted, read]

theorem ValueText.unique {value : List Char} {cell cell' : Cell} (h : ValueText options value cell)
    (h' : ValueText options value cell') : cell = cell' :=
  Except.ok.inj ((readValue_eq_ok_iff.2 h).symm.trans (readValue_eq_ok_iff.2 h'))

/-! ### Lines -/

/-- A line says that a cell has a value. -/
def Assigns (line : List Char) (a : Address) (value : List Char) : Prop :=
  ∃ name, line = name ++ ':' :: value ∧ a.NamedBy (trim name)

/-- The lines of a text, and what each of them says: nothing, or that an address has a cell. -/
inductive LineText (options : Formula.Options) (line : List Char) : Option (Address × Cell) → Prop
  | blank : (∀ c ∈ line, isBlank c = true) → LineText options line none
  | comment {front rest : List Char} : (∀ c ∈ front, isBlank c = true) → line = front ++ '#' :: rest →
      LineText options line none
  | cell {a : Address} {value : List Char} {cell : Cell} : Assigns line a value → ValueText options value cell →
      LineText options line (some (a, cell))

/-- There is no colon in front of the one behind the name. -/
theorem colon_not_mem_of_namedBy_trim {name : List Char} {a : Address} (h : a.NamedBy (trim name)) : ':' ∉ name :=
  fun mem => h.colon_not_mem (mem_trim (by decide) mem)

/-- A line with a value begins neither with nothing nor with a comment. -/
theorem trim_of_assigns {name value : List Char} {a : Address} (named : a.NamedBy (trim name)) :
    let s := trim (name ++ ':' :: value)
    ¬(s = [] ∨ s.head? = some '#') ∧ s.takeWhile (· ≠ ':') = name.dropWhile isBlank ∧
      s.dropWhile (· ≠ ':') = ':' :: trimEnd value := by
  intro s
  have whole : s = name.dropWhile isBlank ++ ':' :: trimEnd value := trim_append_cons (by decide) name value
  have plain : ∀ c ∈ name.dropWhile isBlank, decide (c ≠ ':') = true := fun c mem =>
    decide_eq_true fun same => colon_not_mem_of_namedBy_trim named (same ▸ (List.dropWhile_sublist _).mem mem)
  refine ⟨?_, ?_, ?_⟩
  · rw [← trim_dropWhile] at named
    rw [whole]
    rintro (empty | mark)
    · simp at empty
    · cases start : name.dropWhile isBlank with
      | nil => simp [start] at mark
      | cons c rest =>
        rw [start] at named mark
        obtain rfl : c = '#' := by simpa using mark
        have kept : '#' ∈ trim ('#' :: rest) := mem_trim (by decide) List.mem_cons_self
        obtain ⟨r, read, -⟩ := Option.map_eq_some_iff.1 (Address.read?_eq_some_iff.2 named)
        exact absurd (CellReference.isPlain_of_read? read '#' kept) (by decide)
  · rw [whole, List.takeWhile_append_of_pos plain]
    simp
  · rw [whole, List.dropWhile_append_of_pos plain]
    simp

/-- A line is read as what it says. -/
theorem readLine?_eq_ok_iff {line : List Char} {entry : Option (Address × Cell)} :
    readLine? options line = .ok entry ↔ LineText options line entry := by
  constructor
  · intro h
    obtain ⟨front, back, whole, first, last⟩ := exists_eq_append_trim line
    simp only [readLine?] at h
    split at h
    · next silent =>
      cases h
      rcases silent with empty | mark
      · exact .blank (trim_eq_nil_iff.1 empty)
      · obtain ⟨rest, eq⟩ := List.head?_eq_some_iff.1 mark
        exact @LineText.comment options line front (rest ++ back) first (by rw [whole, eq]; simp)
    · split at h
      · cases h
      · next colon value behind =>
        split at h
        · cases h
        · next a named =>
          have divides := head_dropWhile (fun c => decide (c ≠ ':')) (trim line) colon (by rw [behind]; rfl)
          obtain rfl : colon = ':' := by simpa using divides
          have parts : trim line = (trim line).takeWhile (· ≠ ':') ++ ':' :: value := by
            rw [← behind, List.takeWhile_append_dropWhile]
          have outer : trim (front ++ (trim line).takeWhile (· ≠ ':')) = trim ((trim line).takeWhile (· ≠ ':')) := by
            simpa using @trim_append_of_blank front [] first (by simp) ((trim line).takeWhile (· ≠ ':'))
          have inner : trim (value ++ back) = trim value := by
            simpa using @trim_append_of_blank [] back (by simp) last value
          cases read : readValue options value with
          | error fault =>
            rw [read] at h
            cases h
          | ok cell =>
            rw [read] at h
            cases h
            rw [readValue, ← inner, ← readValue] at read
            refine .cell ⟨front ++ (trim line).takeWhile (· ≠ ':'), ?_, ?_⟩ (readValue_eq_ok_iff.1 read)
            · conv => lhs; rw [whole, parts]
              simp
            · rw [outer]
              exact Address.read?_eq_some_iff.1 named
  · intro h
    cases h with
    | blank all => simp only [readLine?, trim_eq_nil_iff.2 all, true_or, if_true]
    | @comment front rest all eq =>
      have start : (trim line).head? = some '#' := by
        rw [eq, trim_append_cons (by decide), List.dropWhile_eq_nil_iff.2 all]
        rfl
      simp only [readLine?, start, or_true, if_true]
    | @cell a value cell assigns text =>
      obtain ⟨name, rfl, named⟩ := assigns
      obtain ⟨counts, before, behind⟩ := @trim_of_assigns name value a named
      have read : readValue options (trimEnd value) = .ok cell := by
        rw [readValue, trim_trimEnd, ← readValue]
        exact readValue_eq_ok_iff.2 text
      simp only [readLine?, if_neg counts, before, behind, trim_dropWhile, Address.read?_eq_some_iff.2 named, read]
      rfl

/-- A line is in order if it says anything or nothing. -/
def InOrder (options : Formula.Options) (line : List Char) : Prop :=
  ∃ entry, LineText options line entry

theorem not_inOrder_of_readLine? {line : List Char} {fault : LineFault} (h : readLine? options line = .error fault) :
    ¬InOrder options line := by
  rintro ⟨entry, text⟩
  cases h.symm.trans (readLine?_eq_ok_iff.2 text)

/-! ### The cells of lines -/

/-- The value that the last line for a cell gives it. -/
def LastValue (lines : List (List Char)) (a : Address) (value : List Char) : Prop :=
  ∃ before line behind, lines = before ++ line :: behind ∧ Assigns line a value ∧
    ∀ later ∈ behind, ∀ value', ¬Assigns later a value'

theorem lastValue_cons_iff {line : List Char} {lines : List (List Char)} {a : Address} {value : List Char} :
    LastValue (line :: lines) a value ↔
      LastValue lines a value ∨ (Assigns line a value ∧ ∀ later ∈ lines, ∀ value', ¬Assigns later a value') := by
  constructor
  · rintro ⟨before, last, behind, whole, assigns, none⟩
    cases before with
    | nil =>
      obtain ⟨rfl, rfl⟩ := List.cons.inj whole
      exact .inr ⟨assigns, none⟩
    | cons first before =>
      obtain ⟨rfl, rfl⟩ := List.cons.inj whole
      exact .inl ⟨before, last, behind, rfl, assigns, none⟩
  · rintro (⟨before, last, behind, rfl, assigns, none⟩ | ⟨assigns, none⟩)
    · exact ⟨line :: before, last, behind, rfl, assigns, none⟩
    · exact ⟨[], line, lines, rfl, assigns, none⟩

/-- A line gives a value to one cell only. -/
theorem Assigns.unique {line value value' : List Char} {a a' : Address} (h : Assigns line a value)
    (h' : Assigns line a' value') : a = a' ∧ value = value' := by
  obtain ⟨name, rfl, named⟩ := h
  obtain ⟨name', whole, named'⟩ := h'
  -- both names end at the first colon
  have parts {name value : List Char} (plain : ':' ∉ name) : Text.split (· = ':') (name ++ ':' :: value) =
      name :: Text.split (· = ':') value :=
    split_append_cons value (fun c mem => decide_eq_false fun same => plain (same ▸ mem)) (by decide)
  have same := @parts name value (colon_not_mem_of_namedBy_trim named)
  rw [whole, parts (colon_not_mem_of_namedBy_trim named')] at same
  obtain rfl := (List.cons.inj same).1
  obtain rfl := (List.cons.inj (List.append_cancel_left whole)).2
  have read := Address.read?_eq_some_iff.2 named
  rw [Address.read?_eq_some_iff.2 named'] at read
  exact ⟨(Option.some.inj read).symm, rfl⟩

theorem not_assigns_of_silent {line : List Char} (h : LineText options line none) (a : Address) (value : List Char) :
    ¬Assigns line a value := by
  rintro ⟨name, rfl, named⟩
  have read := readLine?_eq_ok_iff.2 h
  simp only [readLine?, if_neg (trim_of_assigns named).1, (trim_of_assigns named).2, trim_dropWhile,
    Address.read?_eq_some_iff.2 named] at read
  cases value : readValue options (trimEnd value) with
  | ok | error =>
    rw [value] at read
    cases read

/-- **The last line for a cell decides.** A cell is found if it stands for the value in the last line for its address,
or if it was there before and no line is for that address. -/
theorem getElem?_of_readLines {lines : List (List Char)} {number : Nat} {s t : Sheet}
    (h : readLines options number s lines = .ok t) {a : Address} {cell : Cell} :
    t[a]? = some cell ↔ (∃ value, LastValue lines a value ∧ ValueText options value cell) ∨
      ((∀ line ∈ lines, ∀ value, ¬Assigns line a value) ∧ s[a]? = some cell) := by
  induction lines generalizing number s with
  | nil =>
    cases h
    simp [LastValue]
  | cons line lines ih =>
    simp only [lastValue_cons_iff, List.forall_mem_cons]
    rw [readLines] at h
    split at h
    · cases h
    · next read =>
      have silent := not_assigns_of_silent (readLine?_eq_ok_iff.1 read)
      simp only [ih h, silent, false_and, or_false, not_false_eq_true, implies_true, true_and]
    · next b made read =>
      cases readLine?_eq_ok_iff.1 read with
      | @cell _ value _ assigns text =>
        rw [ih h, Std.ExtTreeMap.getElem?_insert]
        by_cases same : b = a
        · subst same
          have here : ¬∀ value, ¬Assigns line b value := fun none => none value assigns
          rw [if_pos (Address.compare_eq_iff.2 rfl), Option.some.injEq]
          simp only [here, false_and, or_false]
          constructor
          · rintro (⟨value', last, stands⟩ | ⟨none, rfl⟩)
            · exact ⟨value', .inl last, stands⟩
            · exact ⟨value, .inr ⟨assigns, none⟩, text⟩
          · rintro ⟨value', last | ⟨assigns', none⟩, stands⟩
            · exact .inl ⟨value', last, stands⟩
            · obtain ⟨-, rfl⟩ := assigns.unique assigns'
              exact .inr ⟨none, text.unique stands⟩
        · have other (value' : List Char) : ¬Assigns line a value' := fun assigns' => same (assigns.unique assigns').1
          rw [if_neg (mt Address.compare_eq_iff.1 same)]
          simp only [other, false_and, or_false, not_false_eq_true, implies_true, true_and]

/-- Lines are read exactly if all of them are in order. -/
theorem exists_readLines_iff {lines : List (List Char)} {number : Nat} {s : Sheet} :
    (∃ t, readLines options number s lines = .ok t) ↔ ∀ line ∈ lines, InOrder options line := by
  induction lines generalizing number s with
  | nil => simp [readLines]
  | cons line lines ih =>
    rw [List.forall_mem_cons, readLines]
    cases read : readLine? options line with
    | error fault => simpa using fun inOrder => absurd inOrder (not_inOrder_of_readLine? read)
    | ok entry =>
      have inOrder : InOrder options line := ⟨entry, readLine?_eq_ok_iff.1 read⟩
      cases entry <;> simp [ih, inOrder]

/-- The first line that is not in order is reported. -/
theorem readLines_eq_error_iff {lines : List (List Char)} {number : Nat} {s : Sheet} {e : ParseError} :
    readLines options number s lines = .error e ↔
      ∃ before line behind, lines = before ++ line :: behind ∧ (∀ earlier ∈ before, InOrder options earlier) ∧
        readLine? options line = .error e.fault ∧ e.line = number + before.length := by
  induction lines generalizing number s with
  | nil => simp [readLines]
  | cons line lines ih =>
    rw [readLines]
    constructor
    · intro h
      split at h
      · next fault read =>
        cases h
        exact ⟨[], line, lines, rfl, by simp, read, rfl⟩
      all_goals
        next read =>
        obtain ⟨before, failing, behind, rfl, inOrder, fails, place⟩ := ih.1 h
        refine ⟨line :: before, failing, behind, rfl, List.forall_mem_cons.2 ⟨⟨_, readLine?_eq_ok_iff.1 read⟩, inOrder⟩,
          fails, ?_⟩
        rw [place, List.length_cons]
        omega
    · rintro ⟨before, failing, behind, whole, inOrder, fails, place⟩
      cases before with
      | nil =>
        obtain ⟨rfl, rfl⟩ := List.cons.inj whole
        rw [fails]
        exact congrArg Except.error (congrArg₂ ParseError.mk place.symm rfl)
      | cons first before =>
        obtain ⟨rfl, rfl⟩ := List.cons.inj whole
        obtain ⟨⟨entry, text⟩, inOrder⟩ := List.forall_mem_cons.1 inOrder
        rw [List.length_cons] at place
        have rest {s : Sheet} := (@ih (number + 1) s).2 ⟨before, failing, behind, rfl, inOrder, fails, by omega⟩
        rw [readLine?_eq_ok_iff.2 text]
        cases entry <;> exact rest

/-! ### Lines behind lines -/

/-- Lines behind others are read into the sheet that those have left, and counted on. -/
theorem readLines_append (lines more : List (List Char)) (number : Nat) (s : Sheet) :
    readLines options number s (lines ++ more) =
      (readLines options number s lines).bind fun t => readLines options (number + lines.length) t more := by
  induction lines generalizing number s with
  | nil => rfl
  | cons line lines ih =>
    rw [List.cons_append, readLines, readLines]
    have count : number + 1 + lines.length = number + (line :: lines).length := by
      rw [List.length_cons]
      omega
    cases readLine? options line with
    | error fault => rfl
    | ok entry =>
      cases entry with
      | none => simp only [ih, count]
      | some found => simp only [ih, count]

/-- Lines that are read into a sheet lay over it what they say by themselves. -/
theorem readLines_union (lines : List (List Char)) (skipped number : Nat) (s t : Sheet) :
    readLines options (skipped + number) (s ∪ t) lines =
      match readLines options number t lines with
      | .ok made => .ok (s ∪ made)
      | .error e => .error ⟨skipped + e.line, e.fault⟩ := by
  induction lines generalizing number t with
  | nil => rfl
  | cons line lines ih =>
    rw [readLines, readLines]
    cases readLine? options line with
    | error fault => rfl
    | ok entry =>
      cases entry with
      | none => exact ih (number + 1) t
      | some found =>
        obtain ⟨a, cell⟩ := found
        have inserted : s ∪ t.insert a cell = (s ∪ t).insert a cell :=
          Std.ExtTreeMap.union_insert_right_eq_insert_union (p := ⟨a, cell⟩)
        have behind := ih (number + 1) (t.insert a cell)
        rwa [inserted] at behind

/-! ### Whole texts -/

/-- A cell is found in a sheet that has been read if it stands for the value in the last line for its address. -/
theorem getElem?_of_read {text : List Char} {s : Sheet} (h : read options text = .ok s) {a : Address} {cell : Cell} :
    s[a]? = some cell ↔
      ∃ value, LastValue (Text.split (· = '\n') text) a value ∧ ValueText options value cell := by
  simpa using @getElem?_of_readLines options _ 1 ∅ s h a cell

/-- **Texts are read line by line.** Behind a text that is read and a line break, another text is read as by itself, its
cells replace those of the first one, and if it is refused it is so for the same reason, with the lines of the first one
counted.  A text is refused exactly if some line is not in order, and the first such line is reported.  If it is read,
all its lines are in order, and the cells of the sheet stand for the values in the last lines for their addresses. -/
theorem read_linewise (options : Formula.Options) :
    (∀ first second s, read options first = .ok s →
      (∀ t, read options second = .ok t →
        read options (first ++ '\n' :: second) = .ok (s ∪ t) ∧ ∀ a : Address, (s ∪ t)[a]? = t[a]?.or s[a]?) ∧
      ∀ e, read options second = .error e →
        read options (first ++ '\n' :: second) = .error ⟨first.count '\n' + 1 + e.line, e.fault⟩) ∧
    (∀ text e, read options text = .error e ↔
      ∃ before line behind, Text.split (· = '\n') text = before ++ line :: behind ∧
        (∀ earlier ∈ before, InOrder options earlier) ∧ ¬InOrder options line ∧
        readLine? options line = .error e.fault ∧ e.line = before.length + 1) ∧
    ∀ text s, read options text = .ok s →
      (∀ line ∈ Text.split (· = '\n') text, InOrder options line) ∧
      ∀ (a : Address) cell, s[a]? = some cell ↔
        ∃ value, LastValue (Text.split (· = '\n') text) a value ∧ ValueText options value cell := by
  refine ⟨fun first second s h => ?_, fun text e => ?_, fun text s h =>
    ⟨exists_readLines_iff.1 ⟨s, h⟩, fun a cell => getElem?_of_read h⟩⟩
  · have behind := @readLines_union options (Text.split (· = '\n') second) (first.count '\n' + 1) 1 s ∅
    have whole : read options (first ++ '\n' :: second) =
        readLines options (first.count '\n' + 1 + 1) (s ∪ ∅) (Text.split (· = '\n') second) := by
      rw [read, split_append (by decide), readLines_append, ← read, h, length_split]
      have nothing : s ∪ ∅ = s := Std.ExtTreeMap.ext_getElem? fun a => by
        rw [Std.ExtTreeMap.getElem?_union]
        simp
      rw [nothing, Nat.add_comm]
      rfl
    rw [whole, behind, ← read]
    refine ⟨fun t h' => ?_, fun e h' => ?_⟩
    · rw [h']
      exact ⟨rfl, fun a => Std.ExtTreeMap.getElem?_union⟩
    · rw [h']
  · rw [read, readLines_eq_error_iff]
    refine exists_congr fun before => exists_congr fun line => exists_congr fun behind => ?_
    rw [Nat.add_comm before.length]
    exact and_congr_right fun _ => and_congr_right fun _ =>
      ⟨fun ⟨fails, place⟩ => ⟨not_inOrder_of_readLine? fails, fails, place⟩, fun ⟨_, fails, place⟩ => ⟨fails, place⟩⟩

/-- Behind four lines with their different endings, a cell that is spelled in another way is replaced, and the fault of
a second line is one of the sixth. -/
theorem read_linewise_endings :
    let first := "# c\r\n\r\nA1: 1\r\nB1: =A1".toList
    (∃ s t, read {} first = .ok s ∧ read {} (first ++ '\n' :: "$a01: \"x\"".toList) = .ok t ∧
      t[(⟨0, 0⟩ : Address)]? = some (.text ['x']) ∧ t[(⟨0, 1⟩ : Address)]? = s[(⟨0, 1⟩ : Address)]?) ∧
      read {} (first ++ '\n' :: "$a01: \"x\"\nnot a cell".toList) = .error ⟨6, .missingColon⟩ := by
  intro first
  have accepted : ((read {} first).toOption.map fun _ => ()) = some () := by decide +kernel
  have here : ((read {} "$a01: \"x\"".toList).toOption.bind fun t => t[(⟨0, 0⟩ : Address)]?) =
      some (.text ['x']) := by decide +kernel
  have beside : ((read {} "$a01: \"x\"".toList).toOption.map fun t => t[(⟨0, 1⟩ : Address)]?) = some none := by
    decide +kernel
  have cut : Text.split (· = '\n') "$a01: \"x\"\nnot a cell".toList =
      ["$a01: \"x\"".toList] ++ "not a cell".toList :: [] := by decide +kernel
  have good : (readLine? {} "$a01: \"x\"".toList).toOption = some (some (⟨0, 0⟩, .text ['x'])) := by decide +kernel
  have bad : readLine? {} "not a cell".toList = .error .missingColon := rfl
  obtain ⟨s, ok, -⟩ := Option.map_eq_some_iff.1 accepted
  obtain ⟨t, ok', text⟩ := Option.bind_eq_some_iff.1 here
  rw [ok', Option.map_some] at beside
  obtain ⟨both, refuses, -⟩ := read_linewise {}
  have inOrder := readLine?_eq_ok_iff.1 (Formula.toOption_eq_some_iff.1 good)
  have refused := (refuses _ ⟨2, .missingColon⟩).2
    ⟨_, _, _, cut, by simpa using ⟨_, inOrder⟩, not_inOrder_of_readLine? bad, bad, rfl⟩
  obtain ⟨joined, -⟩ := both first _ s (Formula.toOption_eq_some_iff.1 ok)
  obtain ⟨whole, overlaid⟩ := joined t (Formula.toOption_eq_some_iff.1 ok')
  obtain ⟨-, fault⟩ := both first _ s (Formula.toOption_eq_some_iff.1 ok)
  refine ⟨⟨s, s ∪ t, Formula.toOption_eq_some_iff.1 ok, whole, ?_, ?_⟩, fault _ refused⟩
  · rw [overlaid, text]
    rfl
  · rw [overlaid, Option.some.inj beside]
    rfl

end Grd

end Spreadsheet
