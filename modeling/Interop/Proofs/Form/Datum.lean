import Interop.Form.Printer
import Interop.Proofs.Decimal.Literal
import Interop.Proofs.Token.Separation

/-! Datums that read back. The text of such a datum is one token in front of any boundary, and the
token means the datum again. -/

namespace Interop

/-! ## Numbers -/

section

variable {c : Char} {text : List Char}

theorem ne_of_isDigit (h : c.isDigit = true) {d : Char} (hd : d.isDigit = false) : c ≠ d := by
  rintro rfl
  rw [h] at hd
  cases hd

theorem isAtomPart_of_isDigit (h : c.isDigit = true) : isAtomPart c = true := by
  simp only [isAtomPart, isBoundary, isBlank, isSpace, Bool.not_eq_true', Bool.or_eq_false_iff,
    decide_eq_false_iff_not]
  refine ⟨⟨⟨⟨⟨⟨⟨⟨⟨⟨⟨⟨⟨⟨?_, ?_⟩, ?_⟩, ?_⟩, ?_⟩, ?_⟩, ?_⟩, ?_⟩, ?_⟩, ?_⟩, ?_⟩, ?_⟩, ?_⟩, ?_⟩, ?_⟩ <;>
    exact ne_of_isDigit h (by decide)

theorem hexadecimal?_of_isDigit (h : ∀ c ∈ text, c.isDigit = true) : hexadecimal? text = none := by
  unfold hexadecimal?
  split
  · exact absurd (h 'x' (by simp)) (by decide)
  · exact absurd (h 'X' (by simp)) (by decide)
  · rfl

/-- The text of an integer is a number, and the number is that integer. -/
theorem number?_toString {value : Int} (h : isSigned64 value = true) :
    number? (toString value).toList = some (.int value) := by
  have hdigits : ∀ c ∈ Nat.toDigits 10 value.natAbs, c.isDigit = true := fun _ =>
    isDigit_of_mem_toDigits
  have hplain : (Nat.toDigits 10 value.natAbs).any
      (fun c => c = '.' || c = 'e' || c = 'E') = false := by
    rw [List.any_eq_false]
    intro c hc
    have hpoint := ne_of_isDigit (hdigits c hc) (d := '.') (by decide)
    have hlower := ne_of_isDigit (hdigits c hc) (d := 'e') (by decide)
    have hupper := ne_of_isDigit (hdigits c hc) (d := 'E') (by decide)
    simp [hpoint, hlower, hupper]
  simp only [number?, splitSign_toString, hexadecimal?_of_isDigit hdigits, hplain,
    signedLiteral?_toString h]
  rfl

theorem looksNumeric_toString (value : Int) : looksNumeric (toString value).toList = true := by
  rw [looksNumeric, splitSign_toString]
  cases hdigits : Nat.toDigits 10 value.natAbs with
  | nil => exact absurd hdigits Nat.toDigits_ne_nil
  | cons c rest => exact isDigit_of_mem_toDigits (hdigits ▸ List.mem_cons_self)

theorem isAtomPart_toString (value : Int) :
    ∀ c ∈ (toString value).toList, isAtomPart c = true := by
  have hdigits : ∀ c ∈ Nat.toDigits 10 value.natAbs, isAtomPart c = true := fun c hc =>
    isAtomPart_of_isDigit (isDigit_of_mem_toDigits hc)
  rw [toList_toString]
  split
  · exact List.forall_mem_cons.mpr ⟨by decide, hdigits⟩
  · exact hdigits

/-- What looks like a number is neither a constant nor a name. -/
theorem atomDatum_of_looksNumeric (h : looksNumeric text = true) :
    atomDatum text = match number? text with
      | some datum => .ok datum
      | none => .error (.invalidNumber (String.ofList text)) := by
  have hne : ∀ other, looksNumeric other = false → text ≠ other := by
    rintro other hother rfl
    rw [h] at hother
    cases hother
  unfold atomDatum
  rw [if_neg (hne _ rfl), if_neg (hne _ rfl), if_neg (hne _ rfl)]
  split
  · exact absurd h (by decide)
  · simp [looksNumeric, splitSign] at h
  · exact if_pos h

/-! ## Names -/

/-- A name is the text that it was read from. -/
theorem Symbol.toString_ofText (text : List Char) :
    toString (Symbol.ofText text) = String.ofList text := by
  have hsplit := List.takeWhile_append_dropWhile (p := fun c => decide (c ≠ '/')) (l := text)
  have hslash := List.head?_dropWhile_not (fun c => decide (c ≠ '/')) text
  unfold Symbol.ofText
  generalize text.takeWhile (fun c => decide (c ≠ '/')) = before at hsplit ⊢
  generalize text.dropWhile (fun c => decide (c ≠ '/')) = rest at hsplit hslash ⊢
  subst hsplit
  cases rest with
  | nil => simp [toString]
  | cons d after =>
    obtain rfl : d = '/' := by simpa using hslash
    simp only [List.drop_succ_cons, List.drop_zero]
    split
    · rfl
    · refine String.toList_inj.mp ?_
      simp [toString]

theorem number?_cases {datum : Datum} (h : number? text = some datum) :
    (∃ value, datum = .int value) ∨ ∃ value, datum = .float value := by
  simp only [number?] at h
  split at h
  · obtain ⟨value, -, rfl⟩ := Option.map_eq_some_iff.mp h
    exact .inl ⟨value, rfl⟩
  · split at h
    · obtain ⟨value, -, rfl⟩ := Option.map_eq_some_iff.mp h
      exact .inr ⟨value, rfl⟩
    · obtain ⟨value, -, rfl⟩ := Option.map_eq_some_iff.mp h
      exact .inl ⟨value, rfl⟩

theorem atomDatum_cases {datum : Datum} (h : atomDatum text = .ok datum) :
    datum = .nil ∨ (∃ value, datum = .bool value) ∨ number? text = some datum ∨
      (∃ name, text = ':' :: name ∧ datum = .keyword (.ofText name)) ∨
      datum = .symbol (.ofText text) := by
  unfold atomDatum at h
  repeat' split at h
  all_goals first | cases h
  · exact .inl rfl
  · exact .inr (.inl ⟨true, rfl⟩)
  · exact .inr (.inl ⟨false, rfl⟩)
  · exact .inr (.inr (.inr (.inl ⟨_, rfl, rfl⟩)))
  · exact .inr (.inr (.inl ‹_›))
  · exact .inr (.inr (.inr (.inr rfl)))

/-- An atom that means a name is the text of that name. -/
theorem text_of_atomDatum {datum : Datum} {name : Symbol} (h : atomDatum text = .ok datum)
    (hname : datum = .symbol name ∨ datum = .keyword name) : datum.text.toList = text := by
  rcases atomDatum_cases h with rfl | ⟨value, rfl⟩ | hnumber | ⟨rest, rfl, rfl⟩ | rfl
  · rcases hname with hname | hname <;> cases hname
  · rcases hname with hname | hname <;> cases hname
  · rcases number?_cases hnumber with ⟨value, rfl⟩ | ⟨value, rfl⟩ <;>
      rcases hname with hname | hname <;> cases hname
  · simp [Datum.text, Symbol.toString_ofText]
  · simp [Datum.text, Symbol.toString_ofText]

end

/-! ## Strings -/

/-- Whether a character is written between quotes as itself, or as a backslash and one character. -/
def IsPlain (c : Char) : Prop :=
  escapeChar '"' c = [c] ∨ c ∈ ['"', '\\', '\n', '\r', '\t', '\x00']

theorem IsPlain.escape_cases {c : Char} (h : IsPlain c) :
    (escapeChar '"' c = [c] ∧ c ≠ '"' ∧ c ≠ '\\') ∨
      ∃ d, escapeChar '"' c = ['\\', d] ∧ escapedChar? d = some c := by
  by_cases hquote : c = '"'
  · exact .inr ⟨'"', by rw [hquote]; rfl, by rw [hquote]; rfl⟩
  by_cases hslash : c = '\\'
  · exact .inr ⟨'\\', by rw [hslash]; rfl, by rw [hslash]; rfl⟩
  rcases h with hself | hmem
  · exact .inl ⟨hself, hquote, hslash⟩
  · simp only [List.mem_cons, List.not_mem_nil, or_false, hquote, hslash, false_or] at hmem
    rcases hmem with rfl | rfl | rfl | rfl <;> exact .inr ⟨_, rfl, rfl⟩

variable {cs : List Char}

/-- No quote in an escaped text closes it. -/
theorem closeQuote?_escaped (h : ∀ c ∈ cs, IsPlain c) (rest : List Char) :
    Lexeme.closeQuote? (cs.flatMap (escapeChar '"') ++ '"' :: rest) =
      some (cs.flatMap (escapeChar '"') ++ ['"'], rest) := by
  induction cs with
  | nil => rfl
  | cons c cs ih =>
    obtain ⟨hc, hcs⟩ := List.forall_mem_cons.mp h
    rcases hc.escape_cases with ⟨hself, hquote, hslash⟩ | ⟨d, hescape, -⟩
    · rw [List.flatMap_cons, hself, List.append_assoc, List.singleton_append, Lexeme.closeQuote?,
        ih hcs]
      · rfl
      · exact hquote
      · exact fun _ _ hc _ => hslash hc
    · rw [List.flatMap_cons, hescape, List.append_assoc, List.cons_append, List.singleton_append,
        Lexeme.closeQuote?, ih hcs]
      rfl

theorem unescape_escaped (h : ∀ c ∈ cs, IsPlain c) :
    unescape (cs.flatMap (escapeChar '"')) = .ok cs := by
  induction cs with
  | nil => rfl
  | cons c cs ih =>
    obtain ⟨hc, hcs⟩ := List.forall_mem_cons.mp h
    rcases hc.escape_cases with ⟨hself, -, hslash⟩ | ⟨d, hescape, hmeant⟩
    · rw [List.flatMap_cons, hself, List.singleton_append, unescape, ih hcs]
      · rfl
      · exact fun hc _ => hslash hc
      · exact fun _ _ hc _ => hslash hc
    · rw [List.flatMap_cons, hescape, List.cons_append, List.singleton_append, unescape, hmeant,
        ih hcs]
      rfl

/-! ## Datums -/

namespace Datum

/-- Whether reading some text gives the datum for an atom in it. -/
def IsAtom (datum : Datum) : Prop :=
  ∃ source token, .ok token ∈ tokenize source ∧ token.kind = .leaf .atom ∧
    LeafKind.atom.datum token.text = .ok datum

/-- The datums that read back: constants, integers of 64 bits, characters that are no space, strings
of plain characters, and names that come from a text. -/
inductive Readable : Datum → Prop
  | nil : Readable .nil
  | bool (value : Bool) : Readable (.bool value)
  | int {value : Int} : isSigned64 value = true → Readable (.int value)
  | char {value : Char} : isSpace value = false → Readable (.char value)
  | string {text : String} : (∀ c ∈ text.toList, IsPlain c) → Readable (.string text)
  | symbol {name : Symbol} : IsAtom (.symbol name) → Readable (.symbol name)
  | keyword {name : Symbol} : IsAtom (.keyword name) → Readable (.keyword name)

/-- The kind of token that the text of a datum is. -/
def leafKind : Datum → LeafKind
  | .string _ => .quoted
  | .char _ => .character
  | _ => .atom

/-- Whether the text of a datum is a token that means the datum, in front of any boundary. -/
def ReadsBack (datum : Datum) : Prop :=
  datum.leafKind.datum datum.text.toList = .ok datum ∧ ∀ rest, Separated rest →
    Lexeme.IsTokenBefore rest (.leaf datum.leafKind) datum.text.toList

variable {datum : Datum}

theorem readsBack_atom (hkind : datum.leafKind = .atom) (hne : datum.text.toList ≠ [])
    (htext : ∀ c ∈ datum.text.toList, isAtomPart c = true)
    (hdatum : atomDatum datum.text.toList = .ok datum) : datum.ReadsBack := by
  rw [ReadsBack, hkind]
  exact ⟨hdatum, fun _ => Lexeme.isToken_atom hne htext⟩

/-- A name that comes from a text is written as it was there. -/
theorem IsAtom.readsBack {name : Symbol} (h : datum.IsAtom)
    (hname : datum = .symbol name ∨ datum = .keyword name) : datum.ReadsBack := by
  obtain ⟨source, token, htoken, hkind, hdatum⟩ := h
  have htext := text_of_atomDatum hdatum hname
  obtain ⟨hne, hparts⟩ := isAtomPart_of_mem_tokenize htoken hkind
  rw [← htext] at hne hparts hdatum
  refine readsBack_atom ?_ hne hparts hdatum
  rcases hname with rfl | rfl <;> rfl

theorem Readable.readsBack (h : datum.Readable) : datum.ReadsBack := by
  cases h with
  | nil => exact readsBack_atom rfl (List.cons_ne_nil _ _) (List.all_eq_true.mp rfl) rfl
  | bool value =>
    cases value <;>
      exact readsBack_atom rfl (List.cons_ne_nil _ _) (List.all_eq_true.mp rfl) rfl
  | @int value hvalue =>
    have hnumeric := looksNumeric_toString value
    have hread : atomDatum (toString value).toList = .ok (.int value) := by
      rw [atomDatum_of_looksNumeric hnumeric, number?_toString hvalue]
    refine readsBack_atom rfl ?_ (isAtomPart_toString value) hread
    intro hnil
    rw [show (toString value).toList = [] from hnil] at hnumeric
    cases hnumeric
  | @char value hvalue =>
    have htext : (Datum.char value).text.toList = ['\\', value] := by simp [text]
    rw [ReadsBack, htext]
    exact ⟨rfl, fun _ => Lexeme.isToken_character hvalue⟩
  | @string text htext =>
    have hquoted : (Datum.string text).text.toList =
        '"' :: text.toList.flatMap (escapeChar '"') ++ ['"'] := String.toList_ofList
    rw [ReadsBack, hquoted]
    refine ⟨?_, fun rest _ => Lexeme.isToken_quoted (closeQuote?_escaped htext rest)⟩
    simp [leafKind, LeafKind.datum, betweenMarks, unescape_escaped htext, Except.map]
  | symbol hatom => exact hatom.readsBack (.inl rfl)
  | keyword hatom => exact hatom.readsBack (.inr rfl)

end Datum

end Interop
