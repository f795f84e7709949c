import Interop.Form.Printer
import Interop.Proofs.Form.Resumption

/-! Reading does not look at spans. When every span of the tokens is replaced, and joined spans are
replaced by the join of what their ends are replaced by, the forms that are read change in nothing
but their spans, and an error in nothing but its place. -/

namespace Interop

def Token.mapSpan (f : Span → Span) (token : Token) : Token := { token with span := f token.span }

def ReadError.mapSpan (f : Span → Span) (e : ReadError) : ReadError := { e with span := f e.span }

def TokenResult.mapSpan (f : Span → Span) : TokenResult → TokenResult
  | .ok token => .ok (token.mapSpan f)
  | .error e => .error (e.mapSpan f)

/-- What a token is, wherever it stands; `none` where none could be read. -/
def TokenResult.lexeme? : TokenResult → Option (TokenKind × List Char)
  | .ok token => some (token.kind, token.text)
  | .error _ => none

/-- A token that stands nowhere. -/
def unplaced (lexeme : TokenKind × List Char) : TokenResult :=
  .ok { kind := lexeme.1, span := {}, text := lexeme.2 }

/-- Without their places, tokens are their lexemes. -/
theorem map_mapSpan_eq_unplaced {items : List TokenResult}
    {lexemes : List (TokenKind × List Char)} (h : items.map TokenResult.lexeme? = lexemes.map some) :
    items.map (·.mapSpan fun _ => {}) = lexemes.map unplaced := by
  induction items generalizing lexemes with
  | nil =>
    cases lexemes with
    | nil => rfl
    | cons lexeme lexemes => cases h
  | cons item items ih =>
    cases lexemes with
    | nil => cases h
    | cons lexeme lexemes =>
      obtain ⟨hfirst, hrest⟩ := List.cons.inj h
      rw [List.map_cons, List.map_cons, ih hrest]
      cases item with
      | error e => cases hfirst
      | ok token =>
        obtain rfl : (token.kind, token.text) = lexeme := Option.some.inj hfirst
        rfl

namespace Form

mutual

/-- Replaces every span in a form. -/
def mapSpans (f : Span → Span) : Form → Form
  | .leaf datum span => .leaf datum (f span)
  | .group delimiter items span => .group delimiter (mapSpansList f items) (f span)

def mapSpansList (f : Span → Span) : List Form → List Form
  | [] => []
  | form :: forms => form.mapSpans f :: mapSpansList f forms

end

theorem mapSpansList_eq_map (f : Span → Span) (forms : List Form) :
    mapSpansList f forms = forms.map (mapSpans f) := by
  induction forms with
  | nil => rfl
  | cons form forms ih => rw [mapSpansList, ih, List.map_cons]

mutual

@[simp] theorem mapSpans_id : (form : Form) → form.mapSpans id = form
  | .leaf _ _ => rfl
  | .group _ items _ => by
    have hitems := mapSpansList_id items
    simp only [mapSpans, hitems, id_eq]

theorem mapSpansList_id : (forms : List Form) → mapSpansList id forms = forms
  | [] => rfl
  | form :: forms => by
    have hrest := mapSpansList_id forms
    simp only [mapSpansList, mapSpans_id form, hrest]

end

/-! ### What a form is apart from its spans -/

variable (f : Span → Span) (form : Form)

@[simp] theorem span_mapSpans : (form.mapSpans f).span = f form.span := by
  cases form <;> rfl

@[simp] theorem symbol?_mapSpans : (form.mapSpans f).symbol? = form.symbol? := by
  cases form with
  | leaf datum span => cases datum <;> rfl
  | group => rfl

@[simp] theorem list?_mapSpans :
    (form.mapSpans f).list? = form.list?.map (List.map (mapSpans f)) := by
  cases form with
  | leaf => rfl
  | group delimiter items span =>
    cases delimiter with
    | paren =>
      show some (mapSpansList f items) = some (items.map (mapSpans f))
      rw [mapSpansList_eq_map]
    | bracket => rfl

@[simp] theorem isHeadedBy_mapSpans (name : String) :
    (form.mapSpans f).isHeadedBy name = form.isHeadedBy name := by
  have hhead : (form.mapSpans f).head? = form.head? := by
    unfold head?
    rw [list?_mapSpans]
    rcases form.list? with _ | _ | ⟨first, rest⟩
    · rfl
    · rfl
    · exact symbol?_mapSpans f first
  unfold isHeadedBy
  rw [hhead]

@[simp] theorem shape_mapSpans : (form.mapSpans f).shape = form.shape := by
  cases form with
  | leaf datum span => cases datum <;> rfl
  | group delimiter items span => cases delimiter <;> rfl

mutual

@[simp] theorem text_mapSpans : (form : Form) → (form.mapSpans f).text = form.text
  | .leaf _ _ => rfl
  | .group delimiter items _ => by
    have hitems := textList_mapSpansList items
    simp only [mapSpans, text, hitems]

theorem textList_mapSpansList :
    (forms : List Form) → textList (mapSpansList f forms) = textList forms
  | [] => rfl
  | form :: forms => by
    have hrest := textRest_mapSpansList forms
    simp only [mapSpansList, textList, text_mapSpans form, hrest]

theorem textRest_mapSpansList :
    (forms : List Form) → textRest (mapSpansList f forms) = textRest forms
  | [] => rfl
  | form :: forms => by
    have hrest := textRest_mapSpansList forms
    simp only [mapSpansList, textRest, text_mapSpans form, hrest]

end

mutual

@[simp] theorem depth_mapSpans : (form : Form) → (form.mapSpans f).depth = form.depth
  | .leaf _ _ => rfl
  | .group _ items _ => by
    have hitems := depthList_mapSpansList items
    simp only [mapSpans, depth, hitems]

theorem depthList_mapSpansList :
    (forms : List Form) → depthList (mapSpansList f forms) = depthList forms
  | [] => rfl
  | form :: forms => by
    have hrest := depthList_mapSpansList forms
    simp only [mapSpansList, depthList, depth_mapSpans form, hrest]

end

end Form

/-- Replaces every span of what was read. -/
def mapReadSpans (f : Span → Span) : Except ReadError (List Form) → Except ReadError (List Form)
  | .ok forms => .ok (forms.map (Form.mapSpans f))
  | .error e => .error (e.mapSpan f)

def OpenGroup.mapSpans (f : Span → Span) (group : OpenGroup) : OpenGroup :=
  { group with span := f group.span, items := group.items.map (Form.mapSpans f) }

/-- Replaces every span of a form that was read, or of an error in its place. -/
def mapFormSpans (f : Span → Span) : Except ReadError Form → Except ReadError Form
  | .ok form => .ok (form.mapSpans f)
  | .error e => .error (e.mapSpan f)

abbrev mapStepSpans (f : Span → Span) : ReadStep → ReadStep :=
  Prod.map (mapFormSpans f) (List.map (·.mapSpan f))

variable {f : Span → Span} {atEnd : Span} {group : OpenGroup} {outer : List OpenGroup}

theorem mapReadSpans_map_cons (form : Form) (read : Except ReadError (List Form)) :
    mapReadSpans f (read.map (form :: ·)) = (mapReadSpans f read).map (form.mapSpans f :: ·) := by
  cases read <;> rfl

theorem OpenGroup.mapSpans_close (hf : ∀ a b, f (a.through b) = (f a).through (f b))
    (group : OpenGroup) (closing : Span) :
    (group.close closing).mapSpans f = (group.mapSpans f).close (f closing) := by
  simp [close, OpenGroup.mapSpans, Form.mapSpans, Form.mapSpansList_eq_map, hf]

theorem readWithin_mapSpans (hf : ∀ a b, f (a.through b) = (f a).through (f b))
    (items : List TokenResult) :
    readWithin (f atEnd) (group.mapSpans f) (outer.map (·.mapSpans f))
        (items.map (·.mapSpan f)) =
      mapStepSpans f (readWithin atEnd group outer items) := by
  induction items generalizing group outer with
  | nil => rfl
  | cons item items ih =>
    cases item with
    | error e => rfl
    | ok token =>
      have hkind : (token.mapSpan f).kind = token.kind := rfl
      have htext : (token.mapSpan f).text = token.text := rfl
      simp only [List.map_cons, TokenResult.mapSpan, readWithin, hkind, htext]
      cases token.kind with
      | opening delimiter => exact @ih { delimiter, span := token.span } (group :: outer)
      | closing delimiter =>
        have hdelimiter : (group.mapSpans f).delimiter = group.delimiter := rfl
        simp only [hdelimiter]
        split
        · have hclosed := OpenGroup.mapSpans_close hf group token.span
          cases outer with
          | nil => exact Prod.ext (congrArg Except.ok hclosed.symm) rfl
          | cons next others =>
            rw [← @ih (next.add (group.close token.span)) others]
            simp only [List.map_cons, OpenGroup.add, OpenGroup.mapSpans, hclosed]
            rfl
        · rfl
      | leaf kind =>
        cases hdatum : kind.datum token.text with
        | ok datum =>
          simp only [hdatum]
          exact @ih (group.add (.leaf datum token.span)) outer
        | error fault =>
          simp only [hdatum]
          rfl

theorem readNext?_mapSpans (hf : ∀ a b, f (a.through b) = (f a).through (f b))
    (items : List TokenResult) :
    readNext? (f atEnd) (items.map (·.mapSpan f)) =
      (readNext? atEnd items).map (mapStepSpans f) := by
  rcases items with _ | ⟨e | token, rest⟩
  · rfl
  · rfl
  · have hkind : (token.mapSpan f).kind = token.kind := rfl
    have htext : (token.mapSpan f).text = token.text := rfl
    simp only [List.map_cons, TokenResult.mapSpan, readNext?, hkind, htext]
    cases token.kind with
    | opening delimiter =>
      have hwithin :=
        @readWithin_mapSpans f atEnd { delimiter, span := token.span } [] hf rest
      exact congrArg some hwithin
    | closing delimiter => rfl
    | leaf kind => cases hdatum : kind.datum token.text <;> simp only [hdatum] <;> rfl

/-- **Spans are only carried along.** -/
theorem readForms_mapSpans (hf : ∀ a b, f (a.through b) = (f a).through (f b))
    (items : List TokenResult) :
    readForms (f atEnd) (items.map (·.mapSpan f)) = mapReadSpans f (readForms atEnd items) := by
  fun_induction readForms atEnd items with
  | case1 items hnext =>
    rw [readForms_eq, readNext?_mapSpans hf, hnext]
    rfl
  | case2 items e rest hnext =>
    rw [readForms_eq, readNext?_mapSpans hf, hnext]
    rfl
  | case3 items form rest hnext ih =>
    rw [readForms_eq, readNext?_mapSpans hf, hnext, mapReadSpans_map_cons, ← ih]
    rfl

/-- The only form of the tokens. -/
def readOnly (atEnd : Span) (items : List TokenResult) : Except ReadError Form :=
  match readNext? atEnd items with
  | none => .error { fault := .missingForm, span := atEnd }
  | some (.error e, _) => .error e
  | some (.ok form, rest) =>
    match readNext? atEnd rest with
    | none => .ok form
    | some (.error e, _) => .error e
    | some (.ok extra, _) => .error { fault := .trailingForm form.shape, span := extra.span }

theorem readOne_eq_readOnly (source : String) :
    readOne source = readOnly (endSpan source) (tokenize source) := rfl

theorem readOnly_mapSpans (hf : ∀ a b, f (a.through b) = (f a).through (f b))
    (items : List TokenResult) :
    readOnly (f atEnd) (items.map (·.mapSpan f)) = mapFormSpans f (readOnly atEnd items) := by
  unfold readOnly
  rw [readNext?_mapSpans hf]
  rcases readNext? atEnd items with _ | ⟨e | form, rest⟩
  · rfl
  · rfl
  · simp only [Option.map_some, Prod.map_apply, mapFormSpans]
    rw [readNext?_mapSpans hf]
    rcases readNext? atEnd rest with _ | ⟨e | extra, after⟩
    · rfl
    · rfl
    · simp only [Option.map_some, Prod.map_apply, mapFormSpans, Form.shape_mapSpans,
        Form.span_mapSpans]
      rfl

end Interop
