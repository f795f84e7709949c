import Interop.Form.Leaf
import Interop.Proofs.Text.Bytes
import Interop.Proofs.Token.Lexeme

/-! Strings in bytes and in characters. The quote that closes a string is looked for among bytes, and a
backslash is skipped with one byte after it, be that only the first of a longer character. What is found
is the same as among characters: no byte of a longer character is a quote or a backslash. So the text
before the quote consists of plain characters and of pairs of a backslash and a character, which is how
escapes are read. -/

namespace Interop

/-! ## Parts of a string -/

/-- A part of a string: a character that stands for itself, or a backslash with the character after
it. -/
inductive StringPart where
  | plain (c : Char) (isPlain : c ≠ '"' ∧ c ≠ '\\')
  | escape (c : Char)
deriving DecidableEq

namespace StringPart

def text : StringPart → List Char
  | .plain c _ => [c]
  | .escape c => ['\\', c]

/-- The text of parts after each other. -/
def textOf (parts : List StringPart) : List Char := parts.flatMap text

/-- The characters that can be escaped, and what they stand for. -/
def escapes : List (Char × Char) :=
  [('n', '\n'), ('t', '\t'), ('r', '\r'), ('0', '\x00'), ('\\', '\\'), ('"', '"')]

def meaning? : StringPart → Option Char
  | .plain c _ => some c
  | .escape c => escapes.lookup c

@[simp] theorem textOf_nil : textOf [] = [] := rfl

@[simp] theorem textOf_plain (c : Char) (h : c ≠ '"' ∧ c ≠ '\\') (parts : List StringPart) :
    textOf (.plain c h :: parts) = c :: textOf parts := rfl

@[simp] theorem textOf_escape (c : Char) (parts : List StringPart) :
    textOf (.escape c :: parts) = '\\' :: c :: textOf parts := rfl

/-- A text is split into parts in one way only. -/
theorem textOf_injective : textOf.Injective := by
  intro parts others h
  induction parts generalizing others with
  | nil =>
    rcases others with _ | ⟨other | other, others⟩
    · rfl
    · cases h
    · cases h
  | cons part parts ih =>
    rcases part with ⟨c, hc⟩ | c
    · rcases others with _ | ⟨⟨d, hd⟩ | d, others⟩
      · cases h
      · obtain ⟨rfl, hrest⟩ := List.cons.inj h
        rw [ih hrest]
      · exact absurd (List.cons.inj h).1 hc.2
    · rcases others with _ | ⟨⟨d, hd⟩ | d, others⟩
      · cases h
      · exact absurd (List.cons.inj h).1.symm hd.2
      · obtain ⟨rfl, hrest⟩ := List.cons.inj (List.cons.inj h).2
        rw [ih hrest]

/-! ## Among characters -/

/-- The first quote behind parts closes the string. -/
theorem closeQuote?_textOf (parts : List StringPart) (after : List Char) :
    Lexeme.closeQuote? (textOf parts ++ '"' :: after) = some (textOf parts ++ ['"'], after) := by
  induction parts with
  | nil => rfl
  | cons part parts ih =>
    rcases part with ⟨c, hquote, hslash⟩ | c
    · rw [textOf_plain, List.cons_append, Lexeme.closeQuote?, ih]
      · rfl
      · exact hquote
      · exact fun _ _ hc _ => hslash hc
    · rw [textOf_escape, List.cons_append, List.cons_append, Lexeme.closeQuote?, ih]
      rfl

/-- What is in front of the quote that closes a string consists of parts. -/
theorem exists_parts_of_closeQuote? {rest body after : List Char}
    (h : Lexeme.closeQuote? rest = some (body, after)) :
    ∃ parts, body = textOf parts ++ ['"'] := by
  fun_induction Lexeme.closeQuote? rest generalizing body after with
  | case1 => cases h
  | case2 rest =>
    cases h
    exact ⟨[], rfl⟩
  | case3 c rest ih =>
    obtain ⟨⟨inner, left⟩, hinner, heq⟩ := Option.map_eq_some_iff.1 h
    cases heq
    obtain ⟨parts, rfl⟩ := ih hinner
    exact ⟨.escape c :: parts, rfl⟩
  | case4 c rest hquote hslash ih =>
    obtain ⟨⟨inner, left⟩, hinner, heq⟩ := Option.map_eq_some_iff.1 h
    cases heq
    obtain ⟨parts, rfl⟩ := ih hinner
    have hc : c ≠ '\\' := by
      rintro rfl
      cases rest with
      | nil => cases hinner
      | cons d rest => exact hslash d rest rfl rfl
    exact ⟨.plain c ⟨hquote, hc⟩ :: parts, rfl⟩

theorem escapedChar?_eq_lookup (c : Char) : escapedChar? c = escapes.lookup c := by
  fun_cases escapedChar? c with
  | case7 =>
    refine (List.lookup_eq_none_iff.mpr ?_).symm
    simp only [escapes, List.forall_mem_cons, bne_iff_ne, ne_eq, List.not_mem_nil]
    simp_all
  | _ => rfl

/-- Parts are unescaped one by one, up to the first that stands for nothing. -/
theorem unescape_textOf (parts : List StringPart) :
    (∃ meant, unescape (textOf parts) = .ok meant ∧ parts.map meaning? = meant.map some) ∨
      ∃ c, .escape c ∈ parts ∧ escapes.lookup c = none ∧
        unescape (textOf parts) = .error (.invalidEscape (String.ofList ['\\', c])) := by
  induction parts with
  | nil => exact .inl ⟨[], rfl, rfl⟩
  | cons part parts ih =>
    have hgoesOn : ∀ c, part.meaning? = some c →
        unescape (textOf (part :: parts)) = (unescape (textOf parts)).map (c :: ·) →
        (∃ meant, unescape (textOf (part :: parts)) = .ok meant ∧
          (part :: parts).map meaning? = meant.map some) ∨
        ∃ c, .escape c ∈ part :: parts ∧ escapes.lookup c = none ∧
          unescape (textOf (part :: parts)) =
            .error (.invalidEscape (String.ofList ['\\', c])) := by
      intro c hmeaning hstep
      rcases ih with ⟨meant, hrest, hmeant⟩ | ⟨d, hmem, hnone, hrest⟩
      · exact .inl ⟨c :: meant, by rw [hstep, hrest]; rfl, by simp [hmeaning, hmeant]⟩
      · exact .inr ⟨d, List.mem_cons_of_mem _ hmem, hnone, by rw [hstep, hrest]; rfl⟩
    cases part with
    | plain c hc =>
      refine hgoesOn c rfl ?_
      rw [textOf_plain, unescape]
      · exact fun hslash _ => hc.2 hslash
      · exact fun _ _ hslash _ => hc.2 hslash
    | escape c =>
      cases hlookup : escapes.lookup c with
      | some meant =>
        refine hgoesOn meant hlookup ?_
        rw [textOf_escape, unescape, escapedChar?_eq_lookup, hlookup]
      | none =>
        refine .inr ⟨c, .head _, hlookup, ?_⟩
        rw [textOf_escape, unescape, escapedChar?_eq_lookup, hlookup]

/-- The escape of a lone backslash is no part, and is never met. -/
theorem unescape_ne_lone (parts : List StringPart) :
    unescape (textOf parts) ≠ .error (.invalidEscape "\\") := by
  rcases unescape_textOf parts with ⟨meant, hok, -⟩ | ⟨c, -, -, herror⟩
  · simp [hok]
  · rw [herror]
    intro h
    injection h with h
    injection h with h
    simpa using congrArg String.length h

theorem map_meaning?_of_unescape {parts : List StringPart} {meant : List Char}
    (h : unescape (textOf parts) = .ok meant) : parts.map meaning? = meant.map some := by
  rcases unescape_textOf parts with ⟨others, hok, hmeant⟩ | ⟨c, -, -, herror⟩
  · rwa [Except.ok.inj (h.symm.trans hok)]
  · cases h.symm.trans herror

theorem lookup_escapes_eq_none {c : Char} :
    escapes.lookup c = none ↔ c ∉ ['n', 't', 'r', '0', '\\', '"'] := by
  rw [List.lookup_eq_none_iff]
  simp [escapes]

/-- Unescaping fails only for want of a meaning. -/
theorem exists_unescape_iff (parts : List StringPart) :
    (∃ meant, unescape (textOf parts) = .ok meant) ↔
      ∀ c, .escape c ∈ parts → c ∈ ['n', 't', 'r', '0', '\\', '"'] := by
  constructor
  · rintro ⟨meant, hok⟩ c hc
    by_contra hnone
    have hmem : none ∈ parts.map meaning? :=
      List.mem_map.mpr ⟨.escape c, hc, lookup_escapes_eq_none.mpr hnone⟩
    rw [map_meaning?_of_unescape hok] at hmem
    simp at hmem
  · intro hall
    rcases unescape_textOf parts with ⟨meant, hok, -⟩ | ⟨c, hc, hnone, -⟩
    · exact ⟨meant, hok⟩
    · exact absurd (hall c hc) (lookup_escapes_eq_none.mp hnone)

end StringPart

/-! ## Among bytes -/

def quoteByte : UInt8 := 34

def backslashByte : UInt8 := 92

def isMark (byte : UInt8) : Bool := byte == backslashByte || byte == quoteByte

/-- Looks in the bytes of a source, from an offset on, for the quote that closes a string, and gives the
offset behind it. The search goes from mark to mark, and a backslash is passed with the byte after it.
Without such a quote it gives how far it has come behind the last backslash. -/
def scanToClose (bytes : List UInt8) (offset : Nat) : Except Nat Nat :=
  if offset < bytes.length then
    match (bytes.drop offset).findIdx? isMark with
    | none => .error offset
    | some skipped =>
      if bytes[offset + skipped]? = some backslashByte then scanToClose bytes (offset + skipped + 2)
      else .ok (offset + skipped + 1)
  else .error bytes.length
termination_by bytes.length - offset

/-! No byte of a character is a mark, unless the character is one. -/

theorem isMark_utf8EncodeChar {c : Char} (hquote : c ≠ '"') (hslash : c ≠ '\\') :
    ∀ byte ∈ String.utf8EncodeChar c, isMark byte = false := by
  intro byte hbyte
  by_contra hmark
  rw [Bool.not_eq_false, isMark, Bool.or_eq_true, beq_iff_eq, beq_iff_eq] at hmark
  rcases hmark with rfl | rfl
  · exact hslash ((mem_utf8EncodeChar_iff (a := '\\') rfl).mp hbyte)
  · exact hquote ((mem_utf8EncodeChar_iff (a := '"') rfl).mp hbyte)

theorem isMark_utf8EncodeChar_drop (c : Char) :
    ∀ byte ∈ (String.utf8EncodeChar c).drop 1, isMark byte = false := by
  intro byte hbyte
  by_cases hquote : c = '"'
  · subst hquote
    cases hbyte
  by_cases hslash : c = '\\'
  · subst hslash
    cases hbyte
  exact isMark_utf8EncodeChar hquote hslash byte (List.mem_of_mem_drop hbyte)

variable {bytes run more : List UInt8} {mark : UInt8} {offset : Nat}

/-- The search stops at the first mark. -/
theorem scanToClose_of_mark (hbytes : bytes.drop offset = run ++ mark :: more)
    (hrun : ∀ byte ∈ run, isMark byte = false) (hmark : isMark mark = true) :
    scanToClose bytes offset =
      if mark = backslashByte then scanToClose bytes (offset + run.length + 2)
      else .ok (offset + run.length + 1) := by
  have hfind : (bytes.drop offset).findIdx? isMark = some run.length := by
    rw [hbytes, List.findIdx?_append, List.findIdx?_eq_none_iff.mpr hrun, List.findIdx?_cons,
      if_pos hmark]
    simp
  have hget : bytes[offset + run.length]? = some mark := by
    rw [← List.getElem?_drop, hbytes]
    simp
  have hinside : offset < bytes.length := by
    have := (List.getElem?_eq_some_iff.mp hget).1
    omega
  rw [scanToClose, if_pos hinside, hfind]
  simp [hget]

theorem scanToClose_of_no_mark (hrun : ∀ byte ∈ bytes.drop offset, isMark byte = false) :
    scanToClose bytes offset = .error (min offset bytes.length) := by
  rw [scanToClose, List.findIdx?_eq_none_iff.mpr hrun]
  split
  · next hinside => rw [Nat.min_eq_left (Nat.le_of_lt hinside)]
  · next houtside => rw [Nat.min_eq_right (Nat.le_of_not_lt houtside)]

/-- A backslash takes the character after it along, of which the search skips the first byte. -/
theorem scanToClose_of_pair {c : Char}
    (hbytes : bytes.drop offset = run ++ backslashByte :: (String.utf8EncodeChar c ++ more))
    (hrun : ∀ byte ∈ run, isMark byte = false) :
    scanToClose bytes offset = scanToClose bytes (offset + run.length + 2) ∧
      bytes.drop (offset + run.length + 2) = (String.utf8EncodeChar c).drop 1 ++ more := by
  have hone : 1 ≤ (String.utf8EncodeChar c).length := by
    rw [String.length_utf8EncodeChar]
    exact c.utf8Size_pos
  refine ⟨scanToClose_of_mark hbytes hrun rfl, ?_⟩
  rw [Nat.add_assoc, ← List.drop_drop, hbytes, ← List.drop_append_of_le_length hone]
  exact List.drop_length_add_append 2

/-- A backslash with nothing behind takes the search past the end. -/
theorem scanToClose_of_lone (hbytes : bytes.drop offset = run ++ [backslashByte])
    (hrun : ∀ byte ∈ run, isMark byte = false) :
    scanToClose bytes offset = .error (offset + run.length + 1) := by
  have hlength : bytes.length = offset + run.length + 1 := by
    have h := congrArg List.length hbytes
    rw [List.length_drop, List.length_append, List.length_singleton] at h
    omega
  have hend : bytes.drop (offset + run.length + 2) = [] := List.drop_eq_nil_iff.mpr (by omega)
  have hskip : scanToClose bytes offset = scanToClose bytes (offset + run.length + 2) :=
    scanToClose_of_mark hbytes hrun rfl
  rw [hskip, scanToClose_of_no_mark (by simp [hend]), Nat.min_eq_right (by omega), hlength]

/-- **Bytes and characters.** In front of the characters may be bytes that are no marks: what is left of
a character that a backslash took along, and plain characters after that. -/
theorem scanToClose_eq {rest : List Char} (hbytes : bytes.drop offset = run ++ bytesOf rest)
    (hrun : ∀ byte ∈ run, isMark byte = false) (hinside : offset ≤ bytes.length) :
    scanToClose bytes offset =
      match Lexeme.closeQuote? rest with
      | some (body, _) => .ok (offset + run.length + byteLength body)
      | none => .error (max offset (Lexeme.lastEscape (offset + run.length) rest)) := by
  have hlength : bytes.length = offset + (run.length + byteLength rest) := by
    have h := congrArg List.length hbytes
    rw [List.length_drop, List.length_append, length_bytesOf] at h
    omega
  have hsize : '\\'.utf8Size = 1 := rfl
  fun_induction Lexeme.closeQuote? rest generalizing offset run with
  | case1 =>
    rw [bytesOf_nil, List.append_nil] at hbytes
    rw [scanToClose_of_no_mark (hbytes ▸ hrun), Nat.min_eq_left hinside]
    simp [Lexeme.lastEscape]
  | case2 rest => exact scanToClose_of_mark hbytes hrun rfl
  | case3 c rest ih =>
    obtain ⟨hskip, hnext⟩ := scanToClose_of_pair hbytes hrun
    have hpos := c.utf8Size_pos
    have hleft : ((String.utf8EncodeChar c).drop 1).length = c.utf8Size - 1 := by
      rw [List.length_drop, String.length_utf8EncodeChar]
    rw [byteLength_cons, byteLength_cons, hsize] at hlength
    rw [hskip, ih hnext (isMark_utf8EncodeChar_drop c) (by omega) (by omega), hleft]
    have hbehind : offset + run.length + 2 + (c.utf8Size - 1) =
        offset + run.length + 1 + c.utf8Size := by omega
    rw [hbehind]
    cases Lexeme.closeQuote? rest with
    | none =>
      simp only [Option.map_none, Lexeme.lastEscape]
      congr 1
      omega
    | some found =>
      simp only [Option.map_some, byteLength_cons, hsize]
      congr 1
      omega
  | case4 c rest hquote hpair ih =>
    by_cases hslash : c = '\\'
    · subst hslash
      cases rest with
      | cons d rest => exact absurd rfl (hpair d rest rfl)
      | nil =>
        rw [scanToClose_of_lone hbytes hrun]
        simp only [Lexeme.closeQuote?, Option.map_none, Lexeme.lastEscape]
        congr 1
        omega
    · rw [bytesOf_cons, ← List.append_assoc] at hbytes
      have hmore : ∀ byte ∈ run ++ String.utf8EncodeChar c, isMark byte = false :=
        fun byte hbyte => (List.mem_append.mp hbyte).elim (hrun byte)
          (isMark_utf8EncodeChar hquote hslash byte)
      rw [byteLength_cons] at hlength
      rw [ih hbytes hmore hinside (by simp; omega), Lexeme.lastEscape, List.length_append,
        String.length_utf8EncodeChar, ← Nat.add_assoc]
      · cases Lexeme.closeQuote? rest with
        | none => rfl
        | some found =>
          simp only [Option.map_some, byteLength_cons]
          congr 1
          omega
      · exact fun _ _ hc _ => hslash hc
      · exact fun hc _ => hslash hc

/-! ## In a source -/

/-- An offset before the text moves all the ends of its escapes. -/
theorem Lexeme.max_lastEscape_add (before least offset : Nat) (text : List Char) :
    max (before + least) (lastEscape (before + offset) text) =
      before + max least (lastEscape offset text) := by
  fun_induction lastEscape offset text generalizing least with
  | case1 => simp [lastEscape]
  | case2 offset c rest ih =>
    rw [lastEscape, ← Nat.max_assoc, ← Nat.max_assoc, ← ih]
    congr 2 <;> omega
  | case3 offset => rw [lastEscape]; omega
  | case4 offset c rest hpair hlone ih =>
    rw [lastEscape, Nat.add_assoc, ih]
    · exact hpair
    · exact hlone

open StringPart

variable {source : String} {before rest : List Char}

/-- The search behind an opening quote finds what the lexeme that starts there says. -/
theorem scanToClose_source (h : source.toList = before ++ '"' :: rest) :
    scanToClose source.toByteArray.data.toList (byteLength before + 1) =
      match Lexeme.closeQuote? rest with
      | some (body, _) => .ok (byteLength before + 1 + byteLength body)
      | none => .error (byteLength before + (Lexeme.quoted rest).1.extent) := by
  have hbytes : source.toByteArray.data.toList.drop (byteLength before + 1) =
      [] ++ bytesOf rest := by
    rw [← bytesOf_toList, h, bytesOf_append, ← length_bytesOf]
    exact List.drop_length_add_append 1
  have hinside : byteLength before + 1 ≤ source.toByteArray.data.toList.length := by
    rw [← bytesOf_toList, h, length_bytesOf, byteLength_append, byteLength_cons]
    have hpos := '"'.utf8Size_pos
    omega
  rw [scanToClose_eq hbytes (by simp) hinside, Lexeme.quoted]
  cases Lexeme.closeQuote? rest with
  | some found => rfl
  | none => exact congrArg Except.error (Lexeme.max_lastEscape_add _ 1 1 rest)

/-- **A string is found among bytes and read among characters.** Behind an opening quote, the search among
bytes gives the place behind the first quote that is in no pair of a backslash and a character, on the
boundary of a character, and the text before that quote is split into parts in one way. Unescaping the
parts meets no lone backslash, fails only for a pair that stands for nothing, and else gives what each
part stands for. Where the search finds nothing, no quote closes the string. Either way the search and
the lexeme that starts with the opening quote agree. -/
theorem scanToClose_unescape (h : source.toList = before ++ '"' :: rest) :
    (∀ stop, scanToClose source.toByteArray.data.toList (byteLength before + 1) = .ok stop →
      ∃ parts after, rest = textOf parts ++ '"' :: after ∧
        stop = byteLength (before ++ '"' :: textOf parts ++ ['"']) ∧
        (∀ others left, rest = textOf others ++ '"' :: left → others = parts) ∧
        (∀ others, textOf others = textOf parts → others = parts) ∧
        unescape (textOf parts) ≠ .error (.invalidEscape "\\") ∧
        ((∃ meant, unescape (textOf parts) = .ok meant) ↔
          ∀ c, .escape c ∈ parts → c ∈ ['n', 't', 'r', '0', '\\', '"']) ∧
        (∀ meant, unescape (textOf parts) = .ok meant →
          parts.map meaning? = meant.map some) ∧
        Lexeme.quoted rest =
          ({ kind := .ok (.leaf .quoted), text := '"' :: (textOf parts ++ ['"']) }, after) ∧
        betweenMarks ('"' :: (textOf parts ++ ['"'])) = textOf parts) ∧
    ∀ reached, scanToClose source.toByteArray.data.toList (byteLength before + 1) =
        .error reached →
      (∀ parts after, rest ≠ textOf parts ++ '"' :: after) ∧
        (Lexeme.quoted rest).1.kind = .error .unterminatedString ∧
        reached = byteLength before + (Lexeme.quoted rest).1.extent := by
  rw [scanToClose_source h]
  cases hclose : Lexeme.closeQuote? rest with
  | some found =>
    obtain ⟨body, after⟩ := found
    refine ⟨fun stop hstop => ?_, fun _ hreached => by cases hreached⟩
    obtain ⟨parts, rfl⟩ := exists_parts_of_closeQuote? hclose
    have hrest : rest = textOf parts ++ '"' :: after := by
      rw [← Lexeme.closeQuote?_append hclose, List.append_assoc, List.singleton_append]
    refine ⟨parts, after, hrest, ?_, ?_, fun _ => (textOf_injective ·), unescape_ne_lone parts,
      exists_unescape_iff parts, fun _ => map_meaning?_of_unescape, ?_, ?_⟩
    · rw [← Except.ok.inj hstop]
      simp only [byteLength_append, byteLength_cons, byteLength_nil]
      have hquote : '"'.utf8Size = 1 := rfl
      omega
    · intro others left heq
      rw [heq, closeQuote?_textOf] at hclose
      have hsame := (Prod.mk.inj (Option.some.inj hclose)).1
      exact textOf_injective (List.append_cancel_right hsame)
    · rw [Lexeme.quoted, hclose]
    · simp [betweenMarks]
  | none =>
    refine ⟨fun _ hstop => (by cases hstop), fun reached hreached => ?_⟩
    refine ⟨?_, ?_, (Except.error.inj hreached).symm⟩
    · rintro parts after rfl
      cases hclose.symm.trans (closeQuote?_textOf parts after)
    · rw [Lexeme.quoted, hclose]

theorem scanToClose_unescape_multibyte :
    (∃ parts after, "é\\é\\\"\"b".toList = textOf parts ++ '"' :: after ∧
      11 = byteLength (['é'] ++ '"' :: textOf parts ++ ['"']) ∧
      ((∃ meant, unescape (textOf parts) = .ok meant) ↔
        ∀ c, .escape c ∈ parts → c ∈ ['n', 't', 'r', '0', '\\', '"'])) ∧
    ∀ parts after, "\\\"é".toList ≠ textOf parts ++ '"' :: after := by
  constructor
  · have hsource : "é\"é\\é\\\"\"b".toList = ['é'] ++ '"' :: "é\\é\\\"\"b".toList := by decide
    obtain ⟨parts, after, hrest, hstop, -, -, -, hmeant, -⟩ :=
      (scanToClose_unescape hsource).1 11 (by decide +kernel)
    exact ⟨parts, after, hrest, hstop, hmeant⟩
  · have hsource : "\"\\\"é".toList = [] ++ '"' :: "\\\"é".toList := by decide
    exact ((scanToClose_unescape hsource).2 3 (by decide +kernel)).1

end Interop
