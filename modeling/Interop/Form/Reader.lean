import Interop.Token.Lexer
import Interop.Form.Leaf

/-! Reading forms from tokens. The groups that are open at a place are kept innermost first,
each with the items it has so far, so one pass over the tokens reads a form of any depth.
An error ends the form that is being read, and reading goes on after it. -/

namespace Interop

/-- A group whose closing delimiter has not come yet, last item first. -/
structure OpenGroup where
  delimiter : Delimiter
  span : Span
  items : List Form := []

namespace OpenGroup

def add (group : OpenGroup) (form : Form) : OpenGroup :=
  { group with items := form :: group.items }

def close (group : OpenGroup) (closing : Span) : Form :=
  .group group.delimiter group.items.reverse (group.span.through closing)

end OpenGroup

/-- Where a form ended, and the tokens after it. -/
abbrev ReadStep := Except ReadError Form × List TokenResult

/-- Reads on inside the open groups until the outermost one is complete. The span `atEnd` is
where the text ends. -/
def readWithin (atEnd : Span) (group : OpenGroup) (outer : List OpenGroup) :
    List TokenResult → ReadStep
  | [] => (.error { fault := .unclosed group.delimiter, span := atEnd }, [])
  | .error e :: rest => (.error e, rest)
  | .ok token :: rest =>
    match token.kind with
    | .opening delimiter =>
      readWithin atEnd { delimiter, span := token.span } (group :: outer) rest
    | .closing delimiter =>
      if delimiter = group.delimiter then
        match outer with
        | [] => (.ok (group.close token.span), rest)
        | next :: others => readWithin atEnd (next.add (group.close token.span)) others rest
      else (unexpected token, rest)
    | .leaf kind =>
      match kind.datum token.text with
      | .ok datum => readWithin atEnd (group.add (.leaf datum token.span)) outer rest
      | .error fault => (.error { fault, span := token.span }, rest)
where
  unexpected (token : Token) : Except ReadError Form :=
    .error { fault := .unexpectedToken (String.ofList token.text), span := token.span }

/-- Reads the next form, or gives the error in its place; `none` when no token is left. -/
def readNext? (atEnd : Span) : List TokenResult → Option ReadStep
  | [] => none
  | .error e :: rest => some (.error e, rest)
  | .ok token :: rest =>
    match token.kind with
    | .opening delimiter => some (readWithin atEnd { delimiter, span := token.span } [] rest)
    | .closing _ => some (readWithin.unexpected token, rest)
    | .leaf kind =>
      match kind.datum token.text with
      | .ok datum => some (.ok (.leaf datum token.span), rest)
      | .error fault => some (.error { fault, span := token.span }, rest)

theorem length_readWithin_le (atEnd : Span) (group : OpenGroup) (outer : List OpenGroup)
    (tokens : List TokenResult) :
    (readWithin atEnd group outer tokens).2.length ≤ tokens.length := by
  fun_induction readWithin atEnd group outer tokens <;> simp_all <;> omega

theorem length_readNext?_lt {atEnd : Span} {tokens rest : List TokenResult}
    {outcome : Except ReadError Form} (h : readNext? atEnd tokens = some (outcome, rest)) :
    rest.length < tokens.length := by
  unfold readNext? at h
  split at h
  · contradiction
  · simp_all
  · rename_i token tail
    split at h
    · have := length_readWithin_le atEnd { delimiter := ‹_›, span := token.span } [] tail
      simp only [Option.some.injEq] at h
      simp only [h] at this
      exact Nat.lt_succ_of_le this
    · simp_all
    · split at h <;> simp_all

/-- Reads every form, up to the first error. -/
def readForms (atEnd : Span) (tokens : List TokenResult) : Except ReadError (List Form) :=
  match _h : readNext? atEnd tokens with
  | none => .ok []
  | some (.error e, _) => .error e
  | some (.ok form, rest) => (readForms atEnd rest).map (form :: ·)
termination_by tokens.length
decreasing_by exact length_readNext?_lt ‹_›

/-- Every form of a source text. -/
def readAll (source : String) : Except ReadError (List Form) :=
  readForms (endSpan source) (tokenize source)

/-- The only form of a source text. -/
def readOne (source : String) : Except ReadError Form :=
  let atEnd := endSpan source
  match readNext? atEnd (tokenize source) with
  | none => .error { fault := .missingForm, span := atEnd }
  | some (.error e, _) => .error e
  | some (.ok form, rest) =>
    match readNext? atEnd rest with
    | none => .ok form
    | some (.error e, _) => .error e
    | some (.ok extra, _) => .error { fault := .trailingForm form.shape, span := extra.span }

end Interop
