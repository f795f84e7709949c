import Interop.Proofs.Token.Place
import Interop.Proofs.Form.Spans

/-! Tokens on both sides of a line break. When the text in front of a line break consists of tokens
only, its tokens stay what they are, and after them come those of the text behind the line break,
moved on and down. -/

namespace Interop

namespace Cursor

variable {lines lines' : LineIndex} {f : Span → Span} {distance : Nat} {cursor : Cursor}

/-! ## Moving on -/

def forward (distance : Nat) (cursor : Cursor) : Cursor :=
  { cursor with offset := distance + cursor.offset }

theorem skipBlanks_go_forward (inComment : Bool) (offset : Nat) (text : List Char) :
    skipBlanks.go inComment (distance + offset) text =
      (skipBlanks.go inComment offset text).forward distance := by
  fun_induction skipBlanks.go inComment offset text with
  | case1 => rfl
  | case2 offset c rest ih => simpa [skipBlanks.go, Nat.add_assoc] using ih
  | case3 inComment offset c rest hcomment hblank ih =>
    simpa [skipBlanks.go, hcomment, hblank, Nat.add_assoc] using ih
  | case4 inComment offset rest hcomment hblank ih =>
    simpa [skipBlanks.go, hcomment, hblank, Nat.add_assoc] using ih
  | case5 inComment offset c rest hcomment hblank hsemicolon =>
    simp [skipBlanks.go, hcomment, hblank, hsemicolon, forward]

theorem skipBlanks_forward : (cursor.forward distance).skipBlanks =
    cursor.skipBlanks.forward distance := skipBlanks_go_forward false cursor.offset cursor.rest

theorem result_forward
    (hspan : ∀ start stop, lines'.span (distance + start) (distance + stop) =
      f (lines.span start stop)) (start : Nat) (lexeme : Lexeme) :
    result lines' (distance + start) lexeme = (result lines start lexeme).mapSpan f := by
  simp only [result, Nat.add_assoc, hspan]
  cases lexeme.kind <;> rfl

theorem next?_forward
    (hspan : ∀ start stop, lines'.span (distance + start) (distance + stop) =
      f (lines.span start stop)) :
    (cursor.forward distance).next? lines' =
      (cursor.next? lines).map fun (item, after) => (item.mapSpan f, after.forward distance) := by
  cases hrest : cursor.skipBlanks.rest with
  | nil =>
    have hrest' : (cursor.forward distance).skipBlanks.rest = [] := by
      rw [skipBlanks_forward]
      exact hrest
    rw [next?_eq_none hrest, next?_eq_none hrest']
    rfl
  | cons c rest =>
    have hrest' : (cursor.forward distance).skipBlanks.rest = c :: rest := by
      rw [skipBlanks_forward]
      exact hrest
    rw [next?_eq_some hrest, next?_eq_some hrest', skipBlanks_forward]
    simp only [forward, result_forward hspan, Nat.add_assoc, Option.map_some]

/-- A text further on has the tokens of the text, with the spans it has there. -/
theorem tokens_forward
    (hspan : ∀ start stop, lines'.span (distance + start) (distance + stop) =
      f (lines.span start stop)) :
    (cursor.forward distance).tokens lines' = (cursor.tokens lines).map (·.mapSpan f) := by
  induction cursor using tokens.induct lines with
  | case1 cursor hnone =>
    rw [tokens_of_next?_none hnone, tokens_of_next?_none]
    · rfl
    · rw [next?_forward hspan, hnone]
      rfl
  | case2 cursor item after hsome ih =>
    have hsome' : (cursor.forward distance).next? lines' =
        some (item.mapSpan f, after.forward distance) := by
      rw [next?_forward hspan, hsome]
      rfl
    rw [tokens_of_next?_some hsome, tokens_of_next?_some hsome', ih, List.map_cons]

/-! ## In front of a line break -/

/-- Goes on with more text after a line break. -/
def withLine (more : List Char) (cursor : Cursor) : Cursor :=
  { cursor with rest := cursor.rest ++ '\n' :: more }

/-- How far the text reaches. -/
def reach (cursor : Cursor) : Nat := cursor.offset + byteLength cursor.rest

/-- The cursor behind the line break. -/
def nextLine (more : List Char) (cursor : Cursor) : Cursor :=
  { offset := cursor.reach + 1, rest := more }

theorem reach_skipBlanks_go (inComment : Bool) (offset : Nat) (text : List Char) :
    (skipBlanks.go inComment offset text).reach = offset + byteLength text := by
  fun_induction skipBlanks.go inComment offset text with
  | case1 => rfl
  | case2 offset c rest ih => rw [ih, byteLength_cons, Nat.add_assoc]
  | case3 inComment offset c rest hcomment hblank ih => rw [ih, byteLength_cons, Nat.add_assoc]
  | case4 inComment offset rest hcomment hblank ih => rw [ih, byteLength_cons, Nat.add_assoc]
  | case5 => rfl

theorem reach_skipBlanks : cursor.skipBlanks.reach = cursor.reach :=
  reach_skipBlanks_go false cursor.offset cursor.rest

/-- Blanks and comments that reach the line break are skipped together with it. -/
theorem skipBlanks_go_append_of_nil {inComment : Bool} {offset : Nat} {text : List Char}
    (h : (skipBlanks.go inComment offset text).rest = []) (more : List Char) :
    skipBlanks.go inComment offset (text ++ '\n' :: more) =
      skipBlanks.go false (offset + byteLength text + 1) more := by
  fun_induction skipBlanks.go inComment offset text with
  | case1 inComment offset =>
    -- The newline ends a comment, and it is a blank outside one.
    have hblank : isBlank '\n' = true := rfl
    have hsize : '\n'.utf8Size = 1 := rfl
    cases inComment <;> simp [skipBlanks.go, hblank, hsize]
  | case2 offset c rest ih => simpa [skipBlanks.go, Nat.add_assoc] using ih h
  | case3 inComment offset c rest hcomment hblank ih =>
    simpa [skipBlanks.go, hcomment, hblank, Nat.add_assoc] using ih h
  | case4 inComment offset rest hcomment hblank ih =>
    simpa [skipBlanks.go, hcomment, hblank, Nat.add_assoc] using ih h
  | case5 => cases h

/-- Blanks and comments that end before the line break end in the same place. -/
theorem skipBlanks_go_append_of_ne_nil {inComment : Bool} {offset : Nat} {text : List Char}
    (h : (skipBlanks.go inComment offset text).rest ≠ []) (more : List Char) :
    skipBlanks.go inComment offset (text ++ '\n' :: more) =
      (skipBlanks.go inComment offset text).withLine more := by
  fun_induction skipBlanks.go inComment offset text with
  | case1 => exact absurd rfl h
  | case2 offset c rest ih => simpa [skipBlanks.go] using ih h
  | case3 inComment offset c rest hcomment hblank ih =>
    simpa [skipBlanks.go, hcomment, hblank] using ih h
  | case4 inComment offset rest hcomment hblank ih =>
    simpa [skipBlanks.go, hcomment, hblank] using ih h
  | case5 inComment offset c rest hcomment hblank hsemicolon =>
    simp [skipBlanks.go, hcomment, hblank, hsemicolon, withLine]

theorem skipBlanks_rest_eq_nil (h : cursor.next? lines = none) : cursor.skipBlanks.rest = [] := by
  cases hrest : cursor.skipBlanks.rest with
  | nil => rfl
  | cons c rest =>
    rw [next?_eq_some hrest] at h
    cases h

/-- Without a token in front of the line break, reading begins behind it. -/
theorem next?_withLine_of_none (h : cursor.next? lines = none) (more : List Char) :
    (cursor.withLine more).next? lines' = (cursor.nextLine more).next? lines' := by
  have hskip : (cursor.withLine more).skipBlanks = (cursor.nextLine more).skipBlanks :=
    skipBlanks_go_append_of_nil (skipBlanks_rest_eq_nil h) more
  simp only [next?, hskip]

/-- A token in front of the line break is read as without one. -/
theorem next?_withLine_of_ok {token : Token} {after : Cursor}
    (hlines : ∀ offset ≤ cursor.reach, lines'.position offset = lines.position offset)
    (h : cursor.next? lines = some (.ok token, after)) (more : List Char) :
    (cursor.withLine more).next? lines' = some (.ok token, after.withLine more) ∧
      after.reach = cursor.reach := by
  obtain ⟨c, rest, hrest, hitem, rfl⟩ := next?_cases h
  obtain ⟨hkind, -, -⟩ := result_eq_ok hitem.symm
  have hextent := Lexeme.extent_of_kind_ok hkind
  have hne : cursor.skipBlanks.rest ≠ [] := by
    rw [hrest]
    exact List.cons_ne_nil c rest
  have hskip : (cursor.withLine more).skipBlanks = cursor.skipBlanks.withLine more :=
    skipBlanks_go_append_of_ne_nil hne more
  have hreach : cursor.skipBlanks.offset + byteLength (Lexeme.scan c rest).1.text +
      byteLength (Lexeme.scan c rest).2 = cursor.reach := by
    rw [Nat.add_assoc, ← byteLength_append, Lexeme.scan_append, ← hrest]
    exact reach_skipBlanks
  have hspan : lines'.span cursor.skipBlanks.offset
        (cursor.skipBlanks.offset + (Lexeme.scan c rest).1.extent) =
      lines.span cursor.skipBlanks.offset
        (cursor.skipBlanks.offset + (Lexeme.scan c rest).1.extent) := by
    rw [LineIndex.span, LineIndex.span, hlines _ (by omega), hlines _ (by omega)]
  have hrest' : (cursor.withLine more).skipBlanks.rest = c :: (rest ++ '\n' :: more) := by
    rw [hskip, withLine, hrest]
    rfl
  refine ⟨?_, hreach⟩
  rw [next?_eq_some hrest', Lexeme.scan_append_break hkind, hskip, hitem]
  simp only [withLine, result, hspan]

/-- **Tokens over a line break.** A text that has tokens only keeps them when more text follows
after a line break. -/
theorem tokens_withLine
    (hlines : ∀ offset ≤ cursor.reach, lines'.position offset = lines.position offset)
    (hok : ∀ item ∈ cursor.tokens lines, ∃ token, item = .ok token) (more : List Char) :
    (cursor.withLine more).tokens lines' =
      cursor.tokens lines ++ (cursor.nextLine more).tokens lines' := by
  induction cursor using tokens.induct lines with
  | case1 cursor hnone =>
    rw [tokens_of_next?_none hnone, tokens, next?_withLine_of_none hnone, ← tokens]
    rfl
  | case2 cursor item after hsome ih =>
    rw [tokens_of_next?_some hsome] at hok ⊢
    obtain ⟨⟨token, rfl⟩, hlater⟩ := List.forall_mem_cons.mp hok
    obtain ⟨hnext, hreach⟩ := next?_withLine_of_ok hlines hsome more
    rw [tokens_of_next?_some hnext, ih (hreach ▸ hlines) hlater, List.cons_append, nextLine, hreach]
    rfl

end Cursor

end Interop
