import Spreadsheet.Proofs.Document.Copying
import Spreadsheet.Proofs.Formula.Displacement

/-!
# Copying over any distance

The way between two cells is the difference of two signed numbers of 64 bits that have the bits of the indices.  It is
the true distance as long as both indices lie in the same half of the grid on each axis.  Then copying a formula
rewrites it by the true distance, wherever in the grid the two cells lie.  From one half to the other the difference
does not fit, and references go the other way.

* `SameHalf` — two indices in the same half; `exact_of_sameHalf` — what this is good for.
* `copy_exact` — the text that is entered at the target of a copy.
* `copy_far` — a copy from one half of the columns to the other.
-/

namespace Spreadsheet.Document

/-! ### Distances -/

/-- The signed number of 64 bits that has the bits of an index. -/
def signed (index : Nat) : Int :=
  Int.bmod index indexBound

/-- Two indices lie in the same half of all indices. -/
def SameHalf (source target : Nat) : Prop :=
  source < 2 ^ 63 ↔ target < 2 ^ 63

instance (source target : Nat) : Decidable (SameHalf source target) :=
  inferInstanceAs (Decidable (_ ↔ _))

/-- The difference of the signed numbers is a signed number again, and it is the true distance. -/
structure Exact (source target : Nat) : Prop where
  signed : signed target - signed source = target - source
  low : -2 ^ 63 ≤ (target : Int) - source
  high : (target : Int) - source < 2 ^ 63
  distance : distance source target = target - source

theorem signed_eq {index : Nat} (below : index < indexBound) :
    signed index = if index < 2 ^ 63 then (index : Int) else index - indexBound := by
  have bound : indexBound = 2 ^ 64 := rfl
  rw [bound] at below ⊢
  rw [signed, bound, Int.bmod_def, Int.emod_eq_of_lt (Int.natCast_nonneg index) (by omega)]
  by_cases half : index < 2 ^ 63
  · rw [if_pos half, if_pos (by omega)]
  · rw [if_neg half, if_neg (by omega)]

theorem exact_of_sameHalf {source target : Nat} (hs : source < indexBound) (ht : target < indexBound)
    (same : SameHalf source target) : Exact source target := by
  have bound : indexBound = 2 ^ 64 := rfl
  rw [SameHalf] at same
  have low : -2 ^ 63 ≤ (target : Int) - source := by omega
  have high : (target : Int) - source < 2 ^ 63 := by omega
  refine ⟨?_, low, high, ?_⟩
  · rw [signed_eq hs, signed_eq ht]
    by_cases half : source < 2 ^ 63
    · rw [if_pos half, if_pos (same.1 half)]
    · rw [if_neg half, if_neg (mt same.2 half)]
      omega
  · rw [Document.distance, bound]
    exact Int.bmod_eq_of_le (by omega) (by omega)

/-! ### The copy of a formula -/

/-- The whole-number distance of two cells, for the coordinates of references. -/
def displacement (source target : Address) : Displacement :=
  .offset (target.column - source.column) (target.row - source.row)

theorem eq_of_offset_zero {source target : Address} (column : (target.column : Int) - source.column = 0)
    (row : (target.row : Int) - source.row = 0) : target = source := by
  rcases source with ⟨row, column⟩
  rcases target with ⟨row', column'⟩
  rw [Address.mk.injEq]
  dsimp only at column row
  omega

/-- **Copies move by the true distance.** A formula that is copied to another cell in the same half of the columns and
in the same half of the rows is entered there with each coordinate that is not anchored moved by the whole-number
distance, which does not overflow on the way, and with an error for each reference of which a coordinate would have no
index.  If nothing would land on the last index, whose name is not read again (`Address.rowName`), these are the
coordinates that would go below the first index or beyond the last one with a name that is read. -/
theorem copy_exact {d : Document} {source target : Address} {cell : Cell} {text : List Char} {ts tokens : List Token}
    (found : d.sheet[source]? = some cell) (content : cell.content = .formula text ts)
    (split : Formula.tokenize { d.options with preserveWhitespace := true } text = .ok tokens) (other : target ≠ source)
    (below : ∀ a ∈ [source, target], a.column + 1 < indexBound ∧ a.row + 1 < indexBound)
    (columns : SameHalf source.column target.column) (rows : SameHalf source.row target.row) :
    Exact source.column target.column ∧ Exact source.row target.row ∧
      ∃ tokens', d.copy source target = d.setInput target (Formula.render tokens') ∧
        Formula.offset d.options (target.column - source.column) (target.row - source.row) text =
          .ok (Formula.render tokens') ∧
        Formula.tokenize { d.options with preserveWhitespace := true } (Formula.render tokens') = .ok tokens' ∧
        List.Forall₂ ((displacement source target).Rewrites indexBound) tokens tokens' ∧
        ((∀ r ∈ Formula.references tokens, ∀ part ∈ r.area.parts,
            (displacement source target).Misses (indexBound - 1) part) →
          List.Forall₂ ((displacement source target).Rewrites (indexBound - 1)) tokens tokens') := by
  obtain ⟨sourceColumn, sourceRow⟩ := below source (by simp)
  obtain ⟨targetColumn, targetRow⟩ := below target (by simp)
  have column := exact_of_sameHalf (by omega) (by omega) columns
  have row := exact_of_sameHalf (by omega) (by omega) rows
  have moves : ¬((target.column : Int) - source.column = 0 ∧ (target.row : Int) - source.row = 0) :=
    fun still => other (eq_of_offset_zero still.1 still.2)
  have realizes : ∀ r ∈ Formula.references tokens, ∀ part ∈ r.area.parts,
      (Relocation.offset (target.column - source.column) (target.row - source.row)).Realizes
        (displacement source target) indexBound part :=
    fun r mem part listed => Relocation.realizes_offset _ _ (Formula.below_of_mem_parts mem listed)
  obtain ⟨tokens', rewritten, again, related⟩ := Formula.exists_rewrites split realizes
  have offset := (Formula.offset_of_ne moves).trans rewritten
  refine ⟨column, row, tokens', ?_, offset, again, related, fun misses => ?_⟩
  · simp only [copy, found, content, column.distance, row.distance, offset]
  · have tight : ∀ r ∈ Formula.references tokens, ∀ part ∈ r.area.parts,
        (Relocation.offset (target.column - source.column) (target.row - source.row)).Realizes
          (displacement source target) (indexBound - 1) part :=
      fun r mem part listed => (realizes r mem part listed).tighten (misses r mem part listed)
    -- the same text, with nothing on the last index
    obtain ⟨tokens'', rewritten'', again'', related''⟩ := Formula.exists_rewrites split tight
    have same : Formula.render tokens' = Formula.render tokens'' := Except.ok.inj (rewritten.symm.trans rewritten'')
    rw [← same, again] at again''
    cases again''
    exact related''

/-- The document with one formula in it. -/
theorem entered_formula {a : Address} {text : List Char} {ts : List Token}
    (made : Cell.ofInput {} text = ⟨.formula text ts, Formula.dependencies ts⟩)
    (free : a ∉ Formula.dependencies ts) :
    ((new {}).perform (.setInput a text)).options = {} ∧
      ((new {}).perform (.setInput a text)).sheet[a]? = some ⟨.formula text ts, Formula.dependencies ts⟩ := by
  have entered : (new {}).perform (.setInput a text) = (new {}).edited ((∅ : Sheet).insert a (.ofInput {} text)) :=
    perform_setInput_new (by rw [made]; simp) (by rw [made]; exact free)
  rw [entered]
  refine ⟨rfl, ?_⟩
  rw [← made]
  exact Std.ExtTreeMap.getElem?_insert_self

/-- Far out a column comes closer, an anchored row stays, and of two references at the other end of the grid one is
lost. -/
theorem copy_exact_far_out :
    let text := "=GKGWBYLWRXTLPN$9+B3+A3".toList
    let d := (new {}).perform (.setInput ⟨3, indexBound - 3⟩ text)
    let tokens := [.operand "GKGWBYLWRXTLPN$9".toList, ⟨['+'], .infixOperator⟩, .operand "B3".toList,
      ⟨['+'], .infixOperator⟩, .operand "A3".toList]
    let moved := [.operand "GKGWBYLWRXTLPM$9".toList, ⟨['+'], .infixOperator⟩, .operand "A1".toList,
      ⟨['+'], .infixOperator⟩, .operand "#REF!".toList]
    d.copy ⟨3, indexBound - 3⟩ ⟨1, indexBound - 4⟩ =
        d.setInput ⟨1, indexBound - 4⟩ "=GKGWBYLWRXTLPM$9+A1+#REF!".toList ∧
      List.Forall₂ ((displacement ⟨3, indexBound - 3⟩ ⟨1, indexBound - 4⟩).Rewrites (indexBound - 1)) tokens moved := by
  intro text d tokens moved
  have split : Formula.tokenize { ({} : Formula.Options) with preserveWhitespace := true } text = .ok tokens :=
    Formula.toOption_eq_some_iff.1 (by decide +kernel)
  have made : Cell.ofInput {} text = ⟨.formula text tokens, Formula.dependencies tokens⟩ := by decide +kernel
  obtain ⟨options, found⟩ := entered_formula (a := ⟨3, indexBound - 3⟩) made (by decide +kernel)
  have written : Formula.offset {} (-1) (-2) text = .ok "=GKGWBYLWRXTLPM$9+A1+#REF!".toList :=
    Formula.toOption_eq_some_iff.1 (by decide +kernel)
  have reread : Formula.tokenize { ({} : Formula.Options) with preserveWhitespace := true }
      "=GKGWBYLWRXTLPM$9+A1+#REF!".toList = .ok moved := Formula.toOption_eq_some_iff.1 (by decide +kernel)
  obtain ⟨-, -, tokens', copied, rewritten, again, -, related⟩ :=
    copy_exact found rfl (by rw [options]; exact split)
      (show (⟨1, indexBound - 4⟩ : Address) ≠ ⟨3, indexBound - 3⟩ by decide) (by decide +kernel) (by decide +kernel)
      (by decide +kernel)
  have same : Formula.render tokens' = "=GKGWBYLWRXTLPM$9+A1+#REF!".toList := by
    rw [options] at rewritten
    exact Except.ok.inj (rewritten.symm.trans written)
  rw [options, same, reread] at again
  obtain rfl : moved = tokens' := Except.ok.inj again
  rw [same] at copied
  exact ⟨copied, related (by decide +kernel)⟩

/-- A copy from the second column to the last one that can be read: the reference in it goes to the left, out of the
grid, and not by the true distance to the right. -/
theorem copy_far :
    let d := (new {}).perform (.setInput ⟨0, 1⟩ "=A1".toList)
    d.copy ⟨0, 1⟩ ⟨1, indexBound - 2⟩ = d.setInput ⟨1, indexBound - 2⟩ "=#REF!".toList ∧
      distance 1 (indexBound - 2) = -3 ∧
      Formula.offset {} ((indexBound - 2 : Nat) - (1 : Nat)) 1 "=A1".toList = .ok "=GKGWBYLWRXTLPN2".toList := by
  intro d
  have made : Cell.ofInput {} "=A1".toList =
      ⟨.formula "=A1".toList [.operand "A1".toList], Formula.dependencies [.operand "A1".toList]⟩ := by decide +kernel
  obtain ⟨options, found⟩ := entered_formula (a := ⟨0, 1⟩) made (by decide +kernel)
  have left : distance 1 (indexBound - 2) = -3 := by decide +kernel
  have down : distance 0 1 = 1 := by decide +kernel
  have lost : Formula.offset {} (-3) 1 "=A1".toList = .ok "=#REF!".toList :=
    Formula.toOption_eq_some_iff.1 (by decide +kernel)
  refine ⟨?_, left, Formula.toOption_eq_some_iff.1 (by decide +kernel)⟩
  simp only [copy, found, d, options, left, down, lost]

end Spreadsheet.Document
