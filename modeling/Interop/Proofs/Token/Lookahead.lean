import Interop.Proofs.Token.Partition

/-! Looking ahead. Whatever a lexer has read ahead of time, what it has yet to give is the list of items
from its place on. A call takes the first of these or leaves the list as it is, and answers by the list
alone; so no order of calls can change, repeat or lose an item. -/

namespace Interop

namespace Lexer

/-- What can be asked of a lexer. An iteration over the lexer takes the next result as well. -/
inductive Call where
  | peek
  | next
  | iterate
  | isAtEnd
deriving DecidableEq, Repr

/-- Whether a call takes what it answers with. -/
def Call.takes : Call → Bool
  | .next | .iterate => true
  | .peek | .isAtEnd => false

inductive Answer where
  | item (result : Option TokenResult)
  | flag (atEnd : Bool)
deriving DecidableEq, Repr

/-- One call: its answer, and the lexer after it. -/
def answer (lexer : Lexer) : Call → Answer × Lexer
  | .peek => lexer.peek.map .item id
  | .next | .iterate => lexer.next.map .item id
  | .isAtEnd => lexer.isAtEnd.map .flag id

/-- Calls one after the other, each with its answer, and the lexer after the last. -/
def run (lexer : Lexer) : List Call → List (Call × Answer) × Lexer
  | [] => ([], lexer)
  | call :: calls =>
    let step := lexer.answer call
    let rest := step.2.run calls
    ((call, step.1) :: rest.1, rest.2)

/-- What the calls of a log have taken. -/
def taken (log : List (Call × Answer)) : List TokenResult :=
  log.filterMap fun
    | (call, .item result) => if call.takes then result else none
    | (_, .flag _) => none

/-- Taking results until there is none. -/
inductive TakesAll : Lexer → List TokenResult → Prop
  | done {lexer after : Lexer} : lexer.next = (none, after) → TakesAll lexer []
  | more {lexer after : Lexer} {result : TokenResult} {results : List TokenResult} :
      lexer.next = (some result, after) → TakesAll after results → TakesAll lexer (result :: results)

variable {lexer : Lexer}

/-! ## One call -/

/-- What a call answers when the given items are left. -/
def Call.reply (left : List TokenResult) : Call → Answer
  | .peek | .next | .iterate => .item left.head?
  | .isAtEnd => .flag left.isEmpty

theorem Call.reply_of_takes {call : Call} (h : call.takes = true) (left : List TokenResult) :
    call.reply left = .item left.head? := by
  cases call with
  | next | iterate => rfl
  | peek | isAtEnd => cases h

theorem read_cases (lexer : Lexer) :
    (lexer.cursor.tokens lexer.lines = [] ∧ lexer.read.1 = none ∧
        lexer.read.2.ahead = lexer.ahead ∧
        lexer.read.2.cursor.tokens lexer.read.2.lines = []) ∨
      ∃ result results, lexer.cursor.tokens lexer.lines = result :: results ∧
        lexer.read.1 = some result ∧ lexer.read.2.ahead = lexer.ahead ∧
        lexer.read.2.cursor.tokens lexer.read.2.lines = results := by
  unfold read
  cases hnext : lexer.cursor.next? lexer.lines with
  | none =>
    have hrest : lexer.cursor.skipBlanks.rest = [] := Cursor.skipBlanks_rest_eq_nil hnext
    exact .inl ⟨Cursor.tokens_of_next?_none hnext, rfl, rfl, Cursor.tokens_of_rest_nil hrest⟩
  | some step => exact .inr ⟨_, _, Cursor.tokens_of_next?_some hnext, rfl, rfl, rfl⟩

theorem next_spec (lexer : Lexer) :
    lexer.next.1 = lexer.takeAll.head? ∧ lexer.next.2.takeAll = lexer.takeAll.tail := by
  cases hahead : lexer.ahead with
  | some result => simp [next, takeAll, hahead]
  | none =>
    rcases lexer.read_cases with ⟨hleft, hresult, hafter, hlast⟩ |
      ⟨result, results, hleft, hresult, hafter, hlast⟩ <;>
    · rw [hahead] at hafter
      simp [next, takeAll, hahead, hleft, hresult, hafter, hlast]

/-- After a peek the result is ahead of the cursor, and will be given before the rest. -/
theorem peek_spec (lexer : Lexer) :
    lexer.peek.1 = lexer.takeAll.head? ∧ lexer.peek.2.takeAll = lexer.takeAll := by
  cases hahead : lexer.ahead with
  | some result => simp [peek, takeAll, hahead]
  | none =>
    rcases lexer.read_cases with ⟨hleft, hresult, hafter, hlast⟩ |
      ⟨result, results, hleft, hresult, hafter, hlast⟩ <;>
    simp [peek, takeAll, hahead, hleft, hresult, hlast]

/-- **One call.** A call answers by the items that are left, and what it takes of them is the first. -/
theorem answer_spec (lexer : Lexer) (call : Call) :
    (lexer.answer call).1 = call.reply lexer.takeAll ∧
      taken [(call, (lexer.answer call).1)] ++ (lexer.answer call).2.takeAll = lexer.takeAll := by
  obtain ⟨hnext, hafterNext⟩ := lexer.next_spec
  obtain ⟨hpeek, hafterPeek⟩ := lexer.peek_spec
  have hone : taken [(Call.next, .item lexer.next.1)] ++ lexer.next.2.takeAll = lexer.takeAll := by
    rw [hnext, hafterNext]
    cases lexer.takeAll <;> rfl
  cases call with
  | peek => exact ⟨congrArg Answer.item hpeek, hafterPeek⟩
  | next => exact ⟨congrArg Answer.item hnext, hone⟩
  | iterate => exact ⟨congrArg Answer.item hnext, hone⟩
  | isAtEnd =>
    refine ⟨?_, hafterPeek⟩
    show Answer.flag lexer.peek.1.isNone = .flag lexer.takeAll.isEmpty
    rw [hpeek]
    cases lexer.takeAll <;> rfl

/-! ## A run of calls -/

theorem taken_append (log later : List (Call × Answer)) :
    taken (log ++ later) = taken log ++ taken later := List.filterMap_append

/-- Calls that take nothing leave nothing in the list of what was taken. -/
theorem taken_eq_nil {log : List (Call × Answer)} (h : ∀ entry ∈ log, entry.1.takes = false) :
    taken log = [] := by
  rw [taken, List.filterMap_eq_nil_iff]
  rintro ⟨call, result | atEnd⟩ hentry
  · exact if_neg (by simp [h _ hentry])
  · rfl

theorem taken_cons_of_not_takes {call : Call} (h : call.takes = false) {answer : Answer}
    {later : List (Call × Answer)} : taken ((call, answer) :: later) = taken later := by
  have hfirst : taken [(call, answer)] = [] := taken_eq_nil (by simp [h])
  rw [← List.singleton_append, taken_append, hfirst, List.nil_append]

/-- Whether every call of a log has answered by what was left then: what is taken from this call on, and
the rest. -/
def AnswersBy (rest : List TokenResult) (log : List (Call × Answer)) : Prop :=
  ∀ earlier call answer later, log = earlier ++ (call, answer) :: later →
    answer = call.reply (taken ((call, answer) :: later) ++ rest)

/-- **A run.** What the calls of a run have taken comes in front of what the lexer has yet to give, and
every call has answered by what was left then. -/
theorem run_spec {calls : List Call} {log : List (Call × Answer)} {last : Lexer}
    (h : lexer.run calls = (log, last)) :
    taken log ++ last.takeAll = lexer.takeAll ∧ AnswersBy last.takeAll log := by
  induction calls generalizing lexer log last with
  | nil =>
    cases h
    refine ⟨rfl, fun earlier call answer later hlog => ?_⟩
    simp at hlog
  | cons call calls ih =>
    obtain ⟨hanswer, hleft⟩ := lexer.answer_spec call
    rcases hrun : (lexer.answer call).2.run calls with ⟨rest, last'⟩
    obtain ⟨hrest, hreplies⟩ := ih hrun
    simp only [run, hrun] at h
    obtain ⟨rfl, rfl⟩ := Prod.mk.inj h
    have hall : taken ((call, (lexer.answer call).1) :: rest) ++ last'.takeAll = lexer.takeAll := by
      rw [← List.singleton_append, taken_append, List.append_assoc, hrest, hleft]
    refine ⟨hall, fun earlier call' answer later hlog => ?_⟩
    cases earlier with
    | nil =>
      obtain ⟨hentry, rfl⟩ := List.cons.inj hlog
      obtain ⟨rfl, rfl⟩ := Prod.mk.inj hentry
      rw [hall]
      exact hanswer
    | cons first earlier => exact hreplies earlier call' answer later (List.cons.inj hlog).2

/-- Taking one result after the other gives all that is left. -/
theorem takesAll_takeAll (lexer : Lexer) : lexer.TakesAll lexer.takeAll := by
  generalize hleft : lexer.takeAll = left
  induction left generalizing lexer with
  | nil =>
    obtain ⟨hnext, -⟩ := lexer.next_spec
    rw [hleft] at hnext
    exact .done (Prod.ext hnext rfl)
  | cons result left ih =>
    obtain ⟨hnext, hafter⟩ := lexer.next_spec
    rw [hleft] at hnext hafter
    exact .more (Prod.ext hnext rfl) (ih _ hafter)

/-- What the next taking call of a log answers; without one the first of the rest that is left. -/
def nextTaken (log : List (Call × Answer)) (rest : List TokenResult) : Answer :=
  match log.find? (·.1.takes) with
  | some entry => entry.2
  | none => .item rest.head?

namespace AnswersBy

variable {rest : List TokenResult} {earlier later log : List (Call × Answer)}

theorem of_append (h : AnswersBy rest (earlier ++ later)) : AnswersBy rest later := by
  intro front call answer back hlater
  exact h (earlier ++ front) call answer back (by rw [hlater, List.append_assoc])

theorem tail {entry : Call × Answer} (h : AnswersBy rest (entry :: later)) : AnswersBy rest later :=
  @of_append rest [entry] later h

theorem reply {call : Call} {answer : Answer} (h : AnswersBy rest ((call, answer) :: later)) :
    answer = call.reply (taken ((call, answer) :: later) ++ rest) :=
  h [] call answer later rfl

/-- The next call that takes anything takes the first of what is left. -/
theorem nextTaken_eq (h : AnswersBy rest log) :
    nextTaken log rest = .item (taken log ++ rest).head? := by
  cases hfind : log.find? (·.1.takes) with
  | none =>
    have hnone : taken log = [] := taken_eq_nil (by simpa using hfind)
    rw [nextTaken, hfind, hnone, List.nil_append]
  | some entry =>
    obtain ⟨htakes, between, after, rfl, hbetween⟩ := List.find?_eq_some_iff_append.mp hfind
    have hnone : taken between = [] := taken_eq_nil (by simpa using hbetween)
    rw [nextTaken, hfind, taken_append, hnone, List.nil_append]
    exact h.of_append.reply.trans (Call.reply_of_takes htakes _)

/-- Where nothing is left, nothing is taken. -/
theorem eq_none_of_nil (h : AnswersBy rest log) (hnil : taken log ++ rest = []) :
    ∀ entry ∈ log, entry.1.takes = true → entry.2 = .item none := by
  intro entry hentry htakes
  obtain ⟨earlier, later, rfl⟩ := List.append_of_mem hentry
  rw [taken_append, List.append_assoc, List.append_eq_nil_iff] at hnil
  rw [h.of_append.reply, Call.reply_of_takes htakes, hnil.2]
  rfl

end AnswersBy

/-- **Looking ahead changes nothing.** In whatever order a lexer is asked to show or take the next
result or whether it is at the end, what is taken and then all the rest are the items of the text. What
a peek has shown is what is taken next. The lexer is at its end when every item has been taken, and once
there was nothing to take there never is again. -/
theorem lookahead_transparent (source : String) (calls : List Call) {log : List (Call × Answer)}
    {last : Lexer} (h : (ofSource source).run calls = (log, last)) :
    (taken log ++ last.takeAll = tokenize source ∧ last.TakesAll last.takeAll) ∧
    (∀ earlier shown later, log = earlier ++ (.peek, shown) :: later →
      shown = nextTaken later last.takeAll) ∧
    (∀ earlier answer later, log = earlier ++ (.isAtEnd, answer) :: later →
      ∃ atEnd, answer = .flag atEnd ∧ (atEnd = true ↔ taken earlier = tokenize source)) ∧
    ∀ earlier call later, log = earlier ++ (call, .item none) :: later → call.takes = true →
      (∀ entry ∈ later, entry.1.takes = true → entry.2 = .item none) ∧ last.takeAll = [] := by
  obtain ⟨hall, hanswers⟩ := run_spec h
  refine ⟨⟨hall, last.takesAll_takeAll⟩, ?_, ?_, ?_⟩
  · rintro earlier shown later rfl
    have hshown := hanswers.of_append.reply
    rw [taken_cons_of_not_takes rfl] at hshown
    exact hshown.trans hanswers.of_append.tail.nextTaken_eq.symm
  · rintro earlier answer later rfl
    have hsource : (ofSource source).takeAll = tokenize source := rfl
    rw [taken_append, List.append_assoc] at hall
    refine ⟨_, hanswers.of_append.reply, ?_⟩
    rw [← hsource, ← hall, List.isEmpty_iff, List.self_eq_append_right]
  · rintro earlier call later rfl hcall
    have hnone := hanswers.of_append.reply
    rw [Call.reply_of_takes hcall, Answer.item.injEq, eq_comm, List.head?_eq_none_iff] at hnone
    have hentries := hanswers.of_append.eq_none_of_nil hnone
    exact ⟨fun entry hentry => hentries entry (.tail _ hentry), (List.append_eq_nil_iff.mp hnone).2⟩

/-- Peeks at a string that is not closed, in front of taking it, and calls at the end. -/
theorem lookahead_transparent_unclosed :
    let calls : List Call := [.isAtEnd, .next, .peek, .peek, .iterate, .isAtEnd, .next, .peek, .next]
    let log := ((ofSource "a \"b").run calls).1
    let last := ((ofSource "a \"b").run calls).2
    let shown : Answer := .item (some (.error
      { fault := .unterminatedString
        span := { start := 2, stop := 3, first := ⟨1, 3⟩, last := ⟨1, 4⟩ } }))
    log.map (·.1) = calls ∧ (taken log).length = 2 ∧
      taken log ++ last.takeAll = tokenize "a \"b" ∧
      log.drop 2 = (.peek, shown) :: log.drop 3 ∧ shown = nextTaken (log.drop 3) last.takeAll ∧
      log.drop 6 = (.next, .item none) :: log.drop 7 ∧
      ∀ entry ∈ log.drop 7, entry.1.takes = true → entry.2 = .item none := by
  intro calls log last shown
  have hrun : log.map (·.1) = calls ∧ (taken log).length = 2 ∧
      log.drop 2 = (.peek, shown) :: log.drop 3 ∧
      log.drop 6 = (.next, .item none) :: log.drop 7 := by
    decide +kernel
  obtain ⟨hcalls, hcount, hpeek, hnone⟩ := hrun
  have hpeek' := (List.take_append_drop 2 log).symm
  have hnone' := (List.take_append_drop 6 log).symm
  rw [hpeek] at hpeek'
  rw [hnone] at hnone'
  obtain ⟨⟨hall, -⟩, hshown, -, hover⟩ := lookahead_transparent "a \"b" calls rfl
  exact ⟨hcalls, hcount, hall, hpeek, hshown _ _ _ hpeek', hnone, (hover _ _ _ hnone' rfl).1⟩

end Lexer

end Interop
