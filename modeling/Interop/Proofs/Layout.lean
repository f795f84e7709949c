import Interop.Session
import Interop.Proofs.Analysis.Relabel
import Interop.Proofs.Code.Relabel

/-! What a source text says apart from its layout. Blanks, commas and comments between two tokens
move the spans of what comes after them and nothing else, so texts with the same tokens have the
same code, the same expressions but for the places in them, and the same errors but for theirs. -/

namespace Interop

def SessionError.mapSpan (f : Span → Span) : SessionError → SessionError
  | .read e => .read (e.mapSpan f)
  | .interop e => .interop (e.mapSpan f)
  | .catalog e => .catalog e

def SessionError.withoutSpan (e : SessionError) : SessionError := e.mapSpan fun _ => {}

def Expr.withoutSpans (expr : Expr) : Expr := expr.relabel { span := fun _ => {} }

variable {lexemes : List (TokenKind × List Char)} {a b : String}

/-! ## From the tokens on -/

namespace Session

variable (session : Session) (locals : LexicalEnv)

theorem analyzeForm_mapSpans (f : Span → Span) (form : Form) :
    session.analyzeForm locals (form.mapSpans f) =
      ((session.analyzeForm locals form).map (Expr.relabel { span := f })).mapError
        (SessionError.mapSpan f) := by
  have h := analyze_relabel { span := f } (session.context locals) form
  have hcontext : (session.context locals).relabel { span := f } = session.context locals := rfl
  unfold analyzeForm
  rw [hcontext] at h
  rw [h]
  simp only [Logged.mapAll]
  cases (analyze (session.context locals) form).result <;> rfl

/-- What becomes of tokens that stand nowhere. -/
def analyzeUnplaced (lexemes : List (TokenKind × List Char)) : Except SessionError Expr := do
  let form ← (readOnly {} (lexemes.map unplaced)).mapError .read
  session.analyzeForm locals form

/-- The expression of a text depends on its tokens and on where they stand, and where they stand
is only seen in spans. -/
theorem analyzeText_withoutSpans (h : (tokenize a).map TokenResult.lexeme? = lexemes.map some) :
    ((session.analyzeText locals a).map Expr.withoutSpans).mapError SessionError.withoutSpan =
      session.analyzeUnplaced locals lexemes := by
  have hread := @readOnly_mapSpans (fun _ => {}) (endSpan a) (fun _ _ => rfl) (tokenize a)
  rw [map_mapSpan_eq_unplaced h] at hread
  unfold analyzeUnplaced analyzeText
  rw [hread, readOne_eq_readOnly]
  cases readOnly (endSpan a) (tokenize a) with
  | error e => rfl
  | ok form => exact (session.analyzeForm_mapSpans locals (fun _ => {}) form).symm

theorem emitText_withoutSpans (h : (tokenize a).map TokenResult.lexeme? = lexemes.map some) :
    (session.emitText locals a).mapError SessionError.withoutSpan =
      session.analyzeUnplaced locals lexemes >>= fun expr => expr.code.mapError .interop := by
  unfold emitText
  rw [← session.analyzeText_withoutSpans locals h]
  cases session.analyzeText locals a with
  | error e => rfl
  | ok expr =>
    have hcode := expr.code_mapSpans fun _ => {}
    show (expr.code.mapError SessionError.interop).mapError SessionError.withoutSpan =
      expr.withoutSpans.code.mapError .interop
    rw [Expr.withoutSpans, hcode]
    cases expr.code <;> rfl

end Session

/-- **Layout does not change the program.** In every session and with any locals, two texts of the
same tokens have the same expression but for its spans, or the same error but for its place; they
have the same code, or the same error but for its place. -/
theorem layout_irrelevant (session : Session) (locals : LexicalEnv)
    (ha : (tokenize a).map TokenResult.lexeme? = lexemes.map some)
    (hb : (tokenize b).map TokenResult.lexeme? = lexemes.map some) :
    ((session.analyzeText locals a).map Expr.withoutSpans).mapError SessionError.withoutSpan =
        ((session.analyzeText locals b).map Expr.withoutSpans).mapError SessionError.withoutSpan ∧
      (session.emitText locals a).mapError SessionError.withoutSpan =
        (session.emitText locals b).mapError SessionError.withoutSpan := by
  have hanalyzed := session.analyzeText_withoutSpans locals ha
  have hemitted := session.emitText_withoutSpans locals ha
  refine ⟨?_, ?_⟩
  · rw [hanalyzed, session.analyzeText_withoutSpans locals hb]
  · rw [hemitted, session.emitText_withoutSpans locals hb]

/-- `(. "x" Length)` with a comment, commas and a line break in it. -/
theorem layout_irrelevant_commented :
    let text := "(. \"x\" Length)"
    let spread := ", ( .\n\"x\" ; of a string\n,Length )"
    let lexemes : List (TokenKind × List Char) :=
      [(.opening .paren, ['(']), (.leaf .atom, ['.']), (.leaf .quoted, ['"', 'x', '"']),
        (.leaf .atom, "Length".toList), (.closing .paren, [')'])]
    let session := Session.ofCatalog {} .builtin
    (tokenize text).map TokenResult.lexeme? = lexemes.map some ∧
      (tokenize spread).map TokenResult.lexeme? = lexemes.map some ∧
      ((session.analyzeText {} text).map Expr.withoutSpans).mapError SessionError.withoutSpan =
        ((session.analyzeText {} spread).map Expr.withoutSpans).mapError
          SessionError.withoutSpan ∧
      (session.emitText {} text).mapError SessionError.withoutSpan =
        (session.emitText {} spread).mapError SessionError.withoutSpan := by
  intro text spread lexemes session
  have htext : (tokenize text).map TokenResult.lexeme? = lexemes.map some := by decide +kernel
  have hspread : (tokenize spread).map TokenResult.lexeme? = lexemes.map some := by
    decide +kernel
  exact ⟨htext, hspread, layout_irrelevant session {} htext hspread⟩

end Interop
