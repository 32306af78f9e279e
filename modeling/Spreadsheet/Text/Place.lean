import Spreadsheet.Text.Bytes

/-!
# Places in a text

A place in a text is the number of bytes in front of one of its characters, or in front of its end. A text is
cut at its places only: at any other number of bytes a character would be torn, or the text is too short.

* `cutAt?_eq_some_iff` says what is cut off; `isPlace_iff` says that the places are where a text is cut.
* `find?_append` and `find?_eq_none_iff`: the place of the first mark of a kind.
* `not_mem_utf8EncodeChar`: no other character has the byte of an ASCII character in its encoding.
-/

namespace Spreadsheet.Text

/-! ### Cutting -/

/-- The first `n` bytes of a text and the rest, unless this tears a character or the text is shorter. -/
def cutAt? : Nat → List Char → Option (List Char × List Char)
  | 0, s => some ([], s)
  | _ + 1, [] => none
  | n + 1, c :: s =>
    if c.utf8Size ≤ n + 1 then
      (cutAt? (n + 1 - c.utf8Size) s).map fun (front, behind) => (c :: front, behind)
    else none

/-- Whether there are `n` bytes in front of a character of a text, or in front of its end. -/
def IsPlace (s : List Char) (n : Nat) : Prop :=
  ∃ front behind, s = front ++ behind ∧ byteLength front = n

theorem cutAt?_byteLength_append (front behind : List Char) :
    cutAt? (byteLength front) (front ++ behind) = some (front, behind) := by
  induction front with
  | nil => rw [byteLength_nil, cutAt?, List.nil_append]
  | cons c front ih =>
    -- the equations of `cutAt?` ask for a successor
    obtain ⟨n, size⟩ := Nat.exists_eq_succ_of_ne_zero (Nat.ne_of_gt c.utf8Size_pos)
    have left : n + byteLength front + 1 - (n + 1) = byteLength front := by omega
    rw [byteLength_cons, size, List.cons_append, Nat.succ_add, cutAt?, size, left, ih,
      if_pos (by omega)]
    rfl

theorem append_of_cutAt? {n : Nat} {s front behind : List Char}
    (h : cutAt? n s = some (front, behind)) : s = front ++ behind ∧ byteLength front = n := by
  fun_induction cutAt? n s generalizing front behind with
  | case1 s =>
    obtain ⟨rfl, rfl⟩ := by simpa using h
    exact ⟨rfl, rfl⟩
  | case2 => cases h
  | case3 n c s fits ih =>
    obtain ⟨⟨front, behind⟩, cut, same⟩ := Option.map_eq_some_iff.1 h
    obtain ⟨rfl, rfl⟩ := Prod.mk.inj same
    obtain ⟨rfl, length⟩ := ih cut
    exact ⟨rfl, by rw [byteLength_cons]; omega⟩
  | case4 => cases h

theorem cutAt?_eq_some_iff {n : Nat} {s front behind : List Char} :
    cutAt? n s = some (front, behind) ↔ s = front ++ behind ∧ byteLength front = n := by
  constructor
  · exact append_of_cutAt?
  · rintro ⟨rfl, rfl⟩
    exact cutAt?_byteLength_append front behind

theorem isPlace_iff {s : List Char} {n : Nat} : IsPlace s n ↔ (cutAt? n s).isSome := by
  simp only [IsPlace, Option.isSome_iff_exists, Prod.exists, cutAt?_eq_some_iff]

instance (s : List Char) (n : Nat) : Decidable (IsPlace s n) :=
  decidable_of_iff _ isPlace_iff.symm

theorem IsPlace.le {s : List Char} {n : Nat} (h : IsPlace s n) : n ≤ byteLength s := by
  obtain ⟨front, behind, rfl, rfl⟩ := h
  rw [byteLength_append]
  exact Nat.le_add_right _ _

/-- A character of two bytes has no place inside. -/
example : IsPlace "aéü".toList 3 ∧ ¬IsPlace "aéü".toList 2 := by decide

/-! ### Searching -/

/-- The place of the first character `mark`. -/
def find? (mark : Char) : List Char → Option Nat
  | [] => none
  | c :: s => if c = mark then some 0 else (find? mark s).map (c.utf8Size + ·)

theorem find?_eq_none_iff {mark : Char} {s : List Char} : find? mark s = none ↔ mark ∉ s := by
  induction s with
  | nil => simp [find?]
  | cons c s ih =>
    rw [find?]
    split
    · next same => simp [same]
    · next other => simp [ih, Ne.symm other]

theorem find?_append {mark : Char} {front : List Char} (other : mark ∉ front) (behind : List Char) :
    find? mark (front ++ mark :: behind) = some (byteLength front) := by
  induction front with
  | nil => simp [find?]
  | cons c front ih =>
    obtain ⟨first, others⟩ := by simpa only [List.mem_cons, not_or] using other
    rw [List.cons_append, find?, if_neg (Ne.symm first), ih others, byteLength_cons]
    rfl

/-! ### Bytes -/

/-- The encoding of a text. -/
def bytes (s : List Char) : List UInt8 :=
  s.flatMap String.utf8EncodeChar

@[simp] theorem bytes_nil : bytes [] = [] := rfl

theorem bytes_cons (c : Char) (s : List Char) :
    bytes (c :: s) = String.utf8EncodeChar c ++ bytes s :=
  List.flatMap_cons

/-- An ASCII character is one byte. -/
theorem utf8EncodeChar_of_ascii {c : Char} (ascii : c.utf8Size = 1) :
    String.utf8EncodeChar c = [c.toUInt8] :=
  String.utf8EncodeChar_eq_singleton ascii

theorem toNat_toUInt8_of_ascii {c : Char} (ascii : c.utf8Size = 1) : c.toUInt8.toNat = c.toNat := by
  have small : c.val ≤ 127 := Char.utf8Size_eq_one_iff.1 ascii
  have small' : c.val.toNat ≤ 127 := UInt32.le_iff_toNat_le.1 small
  rw [Char.toUInt8, UInt32.toNat_toUInt8, Nat.mod_eq_of_lt (by omega)]
  rfl

/-- The bytes of a character that is not ASCII are above those of ASCII. -/
theorem le_toNat_of_mem_utf8EncodeChar {c : Char} (wide : c.utf8Size ≠ 1) {b : UInt8}
    (h : b ∈ String.utf8EncodeChar c) : 128 ≤ b.toNat := by
  have large : ¬c.val.toNat ≤ 127 := fun small =>
    wide (Char.utf8Size_eq_one_iff.2 (UInt32.le_iff_toNat_le.2 small))
  rw [String.utf8EncodeChar] at h
  simp only [large, if_false] at h
  split at h
  · simp only [List.mem_cons, List.not_mem_nil, or_false] at h
    rcases h with rfl | rfl <;> rw [UInt8.toNat_ofNat'] <;> omega
  · split at h
    · simp only [List.mem_cons, List.not_mem_nil, or_false] at h
      rcases h with rfl | rfl | rfl <;> rw [UInt8.toNat_ofNat'] <;> omega
    · simp only [List.mem_cons, List.not_mem_nil, or_false] at h
      rcases h with rfl | rfl | rfl | rfl <;> rw [UInt8.toNat_ofNat'] <;> omega

/-- No other character has the byte of an ASCII character in its encoding. -/
theorem not_mem_utf8EncodeChar {c d : Char} (ascii : d.utf8Size = 1) (other : c ≠ d) :
    d.toUInt8 ∉ String.utf8EncodeChar c := by
  intro h
  by_cases single : c.utf8Size = 1
  · rw [utf8EncodeChar_of_ascii single, List.mem_singleton] at h
    have same := congrArg UInt8.toNat h
    rw [toNat_toUInt8_of_ascii ascii, toNat_toUInt8_of_ascii single] at same
    exact other (Char.toNat_inj.1 same.symm)
  · have high := le_toNat_of_mem_utf8EncodeChar single h
    have low : d.val.toNat ≤ 127 := UInt32.le_iff_toNat_le.1 (Char.utf8Size_eq_one_iff.1 ascii)
    rw [toNat_toUInt8_of_ascii ascii] at high
    exact absurd (Nat.le_trans high low) (by decide)

end Spreadsheet.Text
