import Interop.Token.Lexeme
import Mathlib.Data.List.TakeWhile

/-! Lexemes that are tokens. What a quoted token, a name between bars and a character literal look
like is said once; from it follow the extent of a token, the shape of a delimiter, and that a line
break after a token changes nothing about it. -/

namespace Interop

namespace Lexeme

variable {c : Char} {rest : List Char} {kind : TokenKind}

theorem quoted_cases (h : (quoted rest).1.kind = .ok kind) :
    ∃ body after, closeQuote? rest = some (body, after) ∧
      quoted rest = ({ kind := .ok (.leaf .quoted), text := '"' :: body }, after) := by
  revert h
  fun_cases quoted rest with
  | case1 body after hclose => exact fun _ => ⟨body, after, hclose, rfl⟩
  | case2 => exact nofun

theorem verbatim_cases (h : (verbatim rest).1.kind = .ok kind) :
    ∃ name after, rest = name ++ '|' :: after ∧ (∀ d ∈ name, d ≠ '|' ∧ d ≠ '\n') ∧
      verbatim rest = ({ kind := .ok (.leaf .verbatim), text := '|' :: name ++ ['|'] }, after) := by
  revert h
  fun_cases verbatim rest with
  | case1 inside after hafter =>
    intro _
    refine ⟨rest.takeWhile inside, after, ?_, ?_, rfl⟩
    · rw [← hafter, List.takeWhile_append_dropWhile]
    · intro d hd
      simpa [inside] using List.mem_takeWhile_imp hd
  | case2 => exact nofun

theorem character_cases (h : (character rest).1.kind = .ok kind) :
    ∃ c after, rest = c :: after ∧ isSpace c = false ∧
      ((isBoundary c = true ∧
          character rest = ({ kind := .ok (.leaf .character), text := ['\\', c] }, after)) ∨
        (isBoundary c = false ∧
          character rest = ({ kind := .ok (.leaf .character),
                              text := '\\' :: c :: after.takeWhile fun d => !isBoundary d },
            after.dropWhile fun d => !isBoundary d))) := by
  revert h
  fun_cases character rest with
  | case1 => exact nofun
  | case2 => exact nofun
  | case3 c after hspace hboundary =>
    exact fun _ => ⟨c, after, rfl, by simpa using hspace, .inl ⟨hboundary, rfl⟩⟩
  | case4 c after hspace hboundary =>
    exact fun _ => ⟨c, after, rfl, by simpa using hspace, .inr ⟨by simpa using hboundary, rfl⟩⟩

theorem kind_of_quoted (h : (quoted rest).1.kind = .ok kind) : kind = .leaf .quoted := by
  obtain ⟨body, after, -, heq⟩ := quoted_cases h
  rw [heq] at h
  exact (Except.ok.inj h).symm

theorem kind_of_verbatim (h : (verbatim rest).1.kind = .ok kind) : kind = .leaf .verbatim := by
  obtain ⟨name, after, -, -, heq⟩ := verbatim_cases h
  rw [heq] at h
  exact (Except.ok.inj h).symm

theorem kind_of_character (h : (character rest).1.kind = .ok kind) :
    kind = .leaf .character := by
  obtain ⟨d, after, -, -, ⟨-, heq⟩ | ⟨-, heq⟩⟩ := character_cases h <;>
  · rw [heq] at h
    exact (Except.ok.inj h).symm

/-- A piece of text that is a token is covered as a whole. -/
theorem extent_of_kind_ok (h : (scan c rest).1.kind = .ok kind) :
    (scan c rest).1.extent = byteLength (scan c rest).1.text := by
  fun_cases scan c rest with
  | case5 => obtain ⟨body, after, -, heq⟩ := quoted_cases h; rw [heq]
  | case6 => obtain ⟨body, after, -, -, heq⟩ := verbatim_cases h; rw [heq]
  | case7 => obtain ⟨d, after, -, -, ⟨-, heq⟩ | ⟨-, heq⟩⟩ := character_cases h <;> rw [heq]
  | _ => rfl

/-- A token that is no leaf is the one character that it starts with. -/
theorem leaf_or_text_eq (h : (scan c rest).1.kind = .ok kind) :
    (∃ leaf, kind = .leaf leaf) ∨ (scan c rest).1.text = [c] ∧ c.utf8Size = 1 ∧ c ≠ '\n' := by
  revert h
  fun_cases scan c rest with
  | case1 => exact fun _ => .inr ⟨rfl, rfl, by decide⟩
  | case2 => exact fun _ => .inr ⟨rfl, rfl, by decide⟩
  | case3 => exact fun _ => .inr ⟨rfl, rfl, by decide⟩
  | case4 => exact fun _ => .inr ⟨rfl, rfl, by decide⟩
  | case5 => exact fun h => .inl ⟨_, kind_of_quoted h⟩
  | case6 => exact fun h => .inl ⟨_, kind_of_verbatim h⟩
  | case7 => exact fun h => .inl ⟨_, kind_of_character h⟩
  | case8 =>
    intro h
    cases h
  | case9 => exact fun h => .inl ⟨_, (Except.ok.inj h).symm⟩

/-- What closes a quote closes it whatever comes behind. -/
theorem closeQuote?_body {text body after : List Char} (more : List Char)
    (h : closeQuote? text = some (body, after)) :
    closeQuote? (body ++ more) = some (body, more) := by
  fun_induction closeQuote? text generalizing body after with
  | case1 => cases h
  | case2 rest =>
    cases h
    rfl
  | case3 c rest ih =>
    obtain ⟨⟨inner, left⟩, hinner, heq⟩ := Option.map_eq_some_iff.1 h
    cases heq
    simp [closeQuote?, ih hinner]
  | case4 c rest hquote hslash ih =>
    obtain ⟨⟨inner, left⟩, hinner, heq⟩ := Option.map_eq_some_iff.1 h
    cases heq
    have hc : c ≠ '\\' := by
      intro hc
      cases rest with
      | nil => cases hinner
      | cons d rest => exact hslash d rest hc rfl
    rw [List.cons_append, closeQuote?, ih hinner]
    · rfl
    · exact hquote
    · exact fun _ _ hc' => absurd hc' hc

theorem closeQuote?_append_right {text body after : List Char} (more : List Char)
    (h : closeQuote? text = some (body, after)) :
    closeQuote? (text ++ more) = some (body, after ++ more) := by
  rw [← closeQuote?_append h, List.append_assoc]
  exact closeQuote?_body (after ++ more) h

/-! ## Line breaks

A newline is a part of no token but a quoted one, and that has to be closed before. -/

theorem takeWhile_append_newline {p : Char → Bool} (hstop : p '\n' = false)
    (text more : List Char) :
    (text ++ '\n' :: more).takeWhile p = text.takeWhile p := by
  rw [List.takeWhile_append, List.takeWhile_cons_of_neg (by simp [hstop]), List.append_nil]
  split
  · rename_i hall
    exact ((List.takeWhile_prefix _).eq_of_length hall).symm
  · rfl

theorem dropWhile_append_newline {p : Char → Bool} (hstop : p '\n' = false)
    (text more : List Char) :
    (text ++ '\n' :: more).dropWhile p = text.dropWhile p ++ '\n' :: more := by
  rw [List.dropWhile_append, List.dropWhile_cons_of_neg (by simp [hstop])]
  split
  · rename_i hall
    rw [List.isEmpty_iff.mp hall, List.nil_append]
  · rfl

/-- A token that ends by itself or with the text ends the same when the text goes on after a
line break. -/
theorem scan_append_break (h : (scan c rest).1.kind = .ok kind) (more : List Char) :
    scan c (rest ++ '\n' :: more) = ((scan c rest).1, (scan c rest).2 ++ '\n' :: more) := by
  revert h
  fun_cases scan c rest with
  | case5 =>
    intro h
    obtain ⟨body, after, hclose, -⟩ := quoted_cases h
    simp [scan, quoted, hclose, closeQuote?_append_right _ hclose]
  | case6 =>
    intro h
    obtain ⟨name, after, rfl, hname, heq⟩ := verbatim_cases h
    rw [heq]
    have hpos : ∀ d ∈ name, (decide (d ≠ '|') && decide (d ≠ '\n')) = true := by simpa using hname
    simp only [scan, verbatim, List.append_assoc, List.cons_append,
      List.dropWhile_append_of_pos hpos, List.takeWhile_append_of_pos hpos]
    simp
  | case7 =>
    intro h
    obtain ⟨d, after, rfl, hspace, ⟨hboundary, heq⟩ | ⟨hboundary, heq⟩⟩ := character_cases h
    · rw [heq]
      simp [scan, character, hspace, hboundary]
    · rw [heq]
      simp [scan, character, hspace, hboundary,
        takeWhile_append_newline (p := fun d => !isBoundary d) (by decide),
        dropWhile_append_newline (p := fun d => !isBoundary d) (by decide)]
  | case8 =>
    intro h
    cases h
  | case9 =>
    intro h
    have hstop : isAtomPart '\n' = false := by decide
    simp [scan, *, takeWhile_append_newline hstop, dropWhile_append_newline hstop]
  | _ => exact fun _ => rfl

end Lexeme

end Interop
