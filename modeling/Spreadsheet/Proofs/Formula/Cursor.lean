import Spreadsheet.Proofs.Formula.Consumers

/-!
# The scan with a cursor never goes astray

A turn of the scan with a cursor takes the first piece of the rest, so the cursor always stands where a piece begins,
which is in front of a character, and a turn moves it by at least one byte.  From the single turn the whole loop
follows by induction on the number of turns; the scan with a cursor and the scan by pieces have the same outcome.

* `turn_cursor` — one turn, and `loop_cursor` — as many turns as are needed.
* `exists_of_reaches` — every cursor that is reached goes with a scan by pieces.
* `Cursor.Safe` — what a turn may do; `cursor_safe` — every turn is safe, and there are fewer turns than bytes.
-/

namespace Spreadsheet

namespace Formula

/-! ### Turns -/

section

variable {options : Options} {p : Progress}

/-- The piece of an exponent's sign is the sign alone, which is one byte. -/
theorem firstPiece_of_isExponentSign {ch : Char} (sign : isExponentSign p ch = true) (s : List Char) :
    firstPiece ch s = (.operator ch none, s) ∧ Text.byteLength (Piece.operator ch none).text = 1 := by
  obtain ⟨sign, -⟩ := by simpa [isExponentSign] using sign
  have alone {d : Char} : (ch, d) ∉ comparisons := by
    have all : ∀ pair ∈ comparisons, ¬(pair.1 = '+' ∨ pair.1 = '-') := by decide
    exact fun h => all _ h sign
  have cut : operatorPiece ch s = (.operator ch none, s) := by
    cases s with
    | nil => rfl
    | cons d s => exact if_neg alone
  rcases sign with rfl | rfl
  · exact ⟨cut, rfl⟩
  · exact ⟨cut, rfl⟩

/-- One turn takes the first piece of the rest. -/
theorem turn_cursor (front : List Char) (ch : Char) (s : List Char) :
    (p.cursor (Text.byteLength front)).turn options (front ++ ch :: s) =
      match accept options p (firstPiece ch s).1 with
      | .ok q => .ok (q.cursor (Text.byteLength (front ++ (firstPiece ch s).1.text)))
      | .error fault => .error (.fault fault (Text.byteLength front)) := by
  have cut : Text.cutAt? (p.cursor (Text.byteLength front)).offset (front ++ ch :: s) = some (front, ch :: s) :=
    Text.cutAt?_byteLength_append front (ch :: s)
  rw [Cursor.turn, cut]
  simp only [Progress.awaits_cursor, Text.byteLength_append]
  cases sign : isExponentSign p ch with
  | true =>
    obtain ⟨piece, length⟩ := firstPiece_of_isExponentSign sign s
    rw [piece, accept, if_pos sign, length, Progress.hold_cursor]
    rfl
  | false =>
    rw [consume_cursor options sign]
    cases accept options p (firstPiece ch s).1 <;> rfl

/-- The first piece of a text, and what is left behind it, by their bytes. -/
theorem byteLength_firstPiece (ch : Char) (s : List Char) :
    1 ≤ Text.byteLength (firstPiece ch s).1.text ∧
      Text.byteLength (firstPiece ch s).1.text + Text.byteLength (firstPiece ch s).2 = Text.byteLength (ch :: s) := by
  obtain ⟨whole, ne⟩ := text_firstPiece ch s
  obtain ⟨c, t, text⟩ := List.exists_cons_of_ne_nil ne
  have positive := c.utf8Size_pos
  rw [← Text.byteLength_append, whole, text, Text.byteLength_cons]
  exact ⟨by omega, rfl⟩

theorem loop_of_finished {formula : List Char} {c : Cursor} (finished : ¬c.offset < Text.byteLength formula)
    (turns : Nat) : Cursor.loop options formula turns c = .ok c := by
  cases turns <;> exact if_neg finished

/-- As many turns as there are bytes left take all pieces of the rest. -/
theorem loop_cursor (turns : Nat) (front s : List Char) (p : Progress) (enough : Text.byteLength s ≤ turns) :
    Cursor.loop options (front ++ s) turns (p.cursor (Text.byteLength front)) =
      ((acceptAll options (pieces s) (Text.byteLength front) p).map
        (·.cursor (Text.byteLength (front ++ s)))).mapError fun (fault, place) => .fault fault place := by
  induction turns generalizing front s p with
  | zero =>
    cases s with
    | nil =>
      rw [List.append_nil, pieces_nil, loop_of_finished (Nat.lt_irrefl _)]
      rfl
    | cons ch s =>
      have positive := ch.utf8Size_pos
      rw [Text.byteLength_cons] at enough
      omega
  | succ turns ih =>
    cases s with
    | nil =>
      rw [List.append_nil, pieces_nil, loop_of_finished (Nat.lt_irrefl _)]
      rfl
    | cons ch s =>
      obtain ⟨positive, whole⟩ := byteLength_firstPiece ch s
      have more : (p.cursor (Text.byteLength front)).offset < Text.byteLength (front ++ ch :: s) := by
        rw [Text.byteLength_append]
        show Text.byteLength front < _
        omega
      rw [Cursor.loop, if_pos more, turn_cursor, pieces_cons, acceptAll]
      cases accept options p (firstPiece ch s).1 with
      | error fault => rfl
      | ok q =>
        -- the piece has at least one byte, so one turn less is enough for what is behind it
        have next := ih (front ++ (firstPiece ch s).1.text) (firstPiece ch s).2 q (by omega)
        rw [List.append_assoc, (text_firstPiece ch s).1] at next
        rw [← Text.byteLength_append]
        exact next

/-- What a cursor has reached is how far a scan by pieces has come. -/
theorem exists_of_reaches {turns : Nat} {c : Cursor} {body : List Char}
    (h : Cursor.Reaches options ('=' :: body) turns c) :
    ∃ front behind, ∃ p : Progress, '=' :: body = front ++ behind ∧ c = p.cursor (Text.byteLength front) ∧
      turns + 1 ≤ Text.byteLength front := by
  induction h with
  | start => exact ⟨['='], body, .start options.maxDepth, rfl, rfl, Nat.le_refl _⟩
  | @turn turns c c' _ more step ih =>
    obtain ⟨front, behind, p, whole, rfl, turns⟩ := ih
    cases behind with
    | nil =>
      rw [whole, List.append_nil] at more
      exact absurd more (Nat.lt_irrefl _)
    | cons ch behind =>
      rw [whole, turn_cursor] at step
      have piece := byteLength_firstPiece ch behind
      split at step
      · next q _ =>
        cases step
        refine ⟨front ++ (firstPiece ch behind).1.text, (firstPiece ch behind).2, q, ?_, rfl, ?_⟩
        · rw [whole, List.append_assoc, (text_firstPiece ch behind).1]
        · rw [Text.byteLength_append]
          omega
      · cases step

theorem finish_cursor (p : Progress) (offset length : Nat) :
    (p.cursor offset).finish length = (finish p length).mapError fun (fault, place) => .fault fault place := by
  rw [Cursor.finish, finish, Progress.flush_cursor]
  simp only [Progress.cursor, innermost?_openTokens]
  cases p.nesting.innermost? <;> rfl

/-- With enough turns the scan with a cursor gives what the scan by pieces gives. -/
theorem scanWithin_eq (options : Options) (body : List Char) {turns : Nat} (enough : Text.byteLength body ≤ turns) :
    scanWithin options ('=' :: body) turns =
      (tokenize options ('=' :: body)).mapError fun e => .fault e.fault e.offset := by
  have run : Cursor.loop options ('=' :: body) turns (.start options.maxDepth) =
      ((acceptAll options (pieces body) 1 (.start options.maxDepth)).map
        (·.cursor (Text.byteLength ('=' :: body)))).mapError fun (fault, place) => .fault fault place :=
    loop_cursor turns ['='] body (.start options.maxDepth) enough
  have length : Text.byteLength ('=' :: body) = 1 + Text.byteLength body := Text.byteLength_cons _ _
  rw [scanWithin, run, tokenize, scan, ← length]
  cases acceptAll options (pieces body) 1 (.start options.maxDepth) with
  | error located => rfl
  | ok q =>
    show (q.cursor _).finish _ = ((finish q _).mapError _).mapError _
    rw [finish_cursor]
    cases finish q (Text.byteLength ('=' :: body)) <;> rfl

/-- What a turn may do at a cursor in front of the end of a formula. -/
structure Cursor.Safe (options : Options) (formula : List Char) (c : Cursor) : Prop where
  /-- The `=` has been passed. -/
  begun : 1 ≤ c.offset
  /-- The cursor stands in front of a character. -/
  stands : ∃ front ch behind, Text.cutAt? c.offset formula = some (front, ch :: behind)
  /-- A consumer that succeeds has taken something, and what it has taken ends at a place of the formula. -/
  takes : ∀ front ch behind c' taken, Text.cutAt? c.offset formula = some (front, ch :: behind) →
    c.awaits ch = false → (c.before ch).consume options ch (ch :: behind) = .ok (c', taken) →
      1 ≤ taken ∧ c.offset + taken ≤ Text.byteLength formula ∧ Text.IsPlace formula (c.offset + taken)
  /-- So does a turn, also when it takes the sign of an exponent. -/
  moves : ∀ c', c.turn options formula = .ok c' →
    c.offset < c'.offset ∧ c'.offset ≤ Text.byteLength formula ∧ Text.IsPlace formula c'.offset
  /-- A turn stops only because the formula has a fault there: no text is cut inside of a character, and no token is
  refused. -/
  stops : ∀ stop, c.turn options formula = .error stop → ∃ fault, stop = .fault fault c.offset

/-- A cursor in front of a character is safe if it goes with a scan by pieces. -/
theorem safe_cursor (options : Options) (p : Progress) {front : List Char} (begun : 1 ≤ Text.byteLength front)
    (ch : Char) (behind : List Char) :
    (p.cursor (Text.byteLength front)).Safe options (front ++ ch :: behind) := by
  obtain ⟨positive, length⟩ := byteLength_firstPiece ch behind
  have cut := Text.cutAt?_byteLength_append front (ch :: behind)
  have whole : front ++ ch :: behind = (front ++ (firstPiece ch behind).1.text) ++ (firstPiece ch behind).2 := by
    rw [List.append_assoc, (text_firstPiece ch behind).1]
  have place : Text.IsPlace (front ++ ch :: behind)
      (Text.byteLength front + Text.byteLength (firstPiece ch behind).1.text) :=
    ⟨_, _, whole, Text.byteLength_append _ _⟩
  refine ⟨begun, ⟨front, ch, behind, cut⟩, fun front' ch' behind' c' taken here other step => ?_,
    fun c' step => ?_, fun stop step => ?_⟩
  · obtain ⟨rfl, same⟩ := Prod.mk.inj (Option.some.inj (here.symm.trans cut))
    obtain ⟨rfl, rfl⟩ := List.cons.inj same
    rw [Progress.awaits_cursor] at other
    rw [consume_cursor options other] at step
    cases accepted : accept options p (firstPiece ch' behind').1 with
    | error fault =>
      rw [accepted] at step
      cases step
    | ok q =>
      rw [accepted] at step
      cases step
      exact ⟨positive, place.le, place⟩
  · rw [turn_cursor] at step
    split at step
    · next q _ =>
      cases step
      rw [Text.byteLength_append]
      exact ⟨Nat.lt_add_of_pos_right positive, place.le, place⟩
    · cases step
  · rw [turn_cursor] at step
    split at step
    · cases step
    · next fault _ =>
      cases step
      exact ⟨fault, rfl⟩

/-- **The scan with a cursor is safe and ends.** However many bytes its characters have and whatever the options are,
each turn finds the cursor in front of a character behind the `=`; what it takes is not empty and ends in front of a
character or at the end of the formula; and it stops for nothing but a fault of the formula that shows there.  So there
are fewer turns than bytes; that many are always enough; and the outcome is that of cutting the formula into pieces. -/
theorem cursor_safe (options : Options) (body : List Char) :
    let formula := '=' :: body
    let length := Text.byteLength formula
    (∀ turns c, Cursor.Reaches options formula turns c →
      turns ≤ length - 1 ∧ (c.offset < length → c.Safe options formula)) ∧
    scanWithin options formula (length - 1) =
      (tokenize options formula).mapError fun e => .fault e.fault e.offset := by
  intro formula length
  have bound : Text.byteLength body ≤ length - 1 := by
    show _ ≤ Text.byteLength ('=' :: body) - 1
    rw [Text.byteLength_cons]
    exact Nat.le_of_eq (Nat.add_sub_cancel_left ..).symm
  refine ⟨fun turns c reached => ?_, scanWithin_eq options body bound⟩
  obtain ⟨front, behind, p, whole, rfl, few⟩ := exists_of_reaches reached
  have total : length = Text.byteLength front + Text.byteLength behind := by
    rw [← Text.byteLength_append, ← whole]
  refine ⟨by omega, fun more => ?_⟩
  cases behind with
  | nil => exact absurd more (Nat.not_lt.2 (Nat.le_of_eq total))
  | cons ch behind =>
    show Cursor.Safe options ('=' :: body) _
    rw [whole]
    exact safe_cursor options p (by omega) ch behind

/-- A formula of plain characters needs a turn for each of them. -/
example : scanWithin {} "=ab".toList 1 = .error .unfinished ∧
    scanWithin {} "=ab".toList 2 = .ok [⟨"ab".toList, .operand .range⟩] := by
  decide +kernel

end

end Formula

end Spreadsheet
