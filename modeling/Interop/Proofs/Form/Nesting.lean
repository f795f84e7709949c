import Interop.Proofs.Form.Pieces

/-! Nesting of delimiters, and what offends it. Nested tokens are given by a grammar. The groups
that are open at a place follow from the tokens before it, innermost first; an item that cannot
stand inside them offends. Without an offence the tokens are nested once every group is closed. -/

namespace Interop

/-- Leaves and groups after each other, each group with such tokens between two delimiters of
one kind. -/
inductive Nested : List TokenKind → Prop
  | nil : Nested []
  | leaf {kind : LeafKind} {rest : List TokenKind} : Nested rest → Nested (.leaf kind :: rest)
  | group {delimiter : Delimiter} {inside rest : List TokenKind} : Nested inside → Nested rest →
      Nested (.opening delimiter :: (inside ++ .closing delimiter :: rest))

/-- The tokens that are left to come inside open groups: those of the innermost group, its closing
delimiter, and so on outwards. -/
def NestedWithin : List Delimiter → List TokenKind → Prop
  | [], kinds => Nested kinds
  | delimiter :: outer, kinds =>
    ∃ inside rest, kinds = inside ++ .closing delimiter :: rest ∧ Nested inside ∧
      NestedWithin outer rest

variable {groups : List Delimiter} {kinds : List TokenKind} {delimiter : Delimiter}

theorem nestedWithin_nil : NestedWithin groups [] ↔ groups = [] := by
  cases groups with
  | nil => simp [NestedWithin, Nested.nil]
  | cons => simp [NestedWithin]

theorem nestedWithin_leaf {kind : LeafKind} :
    NestedWithin groups (.leaf kind :: kinds) ↔ NestedWithin groups kinds := by
  cases groups with
  | nil =>
    constructor
    · rintro (_ | h)
      exact h
    · exact .leaf
  | cons delimiter outer =>
    constructor
    · rintro ⟨inside, rest, heq, hinside, hrest⟩
      cases hinside with
      | nil => cases heq
      | leaf hinside =>
        cases heq
        exact ⟨_, rest, rfl, hinside, hrest⟩
      | group => cases heq
    · rintro ⟨inside, rest, rfl, hinside, hrest⟩
      exact ⟨_, rest, rfl, .leaf hinside, hrest⟩

theorem nestedWithin_opening :
    NestedWithin groups (.opening delimiter :: kinds) ↔
      NestedWithin (delimiter :: groups) kinds := by
  cases groups with
  | nil =>
    constructor
    · intro h
      cases h with
      | group hinside hrest => exact ⟨_, _, rfl, hinside, hrest⟩
    · rintro ⟨inside, rest, rfl, hinside, hrest⟩
      exact .group hinside hrest
  | cons next outer =>
    constructor
    · rintro ⟨inside, rest, heq, hinside, hrest⟩
      cases hinside with
      | nil => cases heq
      | leaf => cases heq
      | group hfirst hmiddle =>
        simp only [List.cons_append, List.append_assoc, List.cons.injEq,
          TokenKind.opening.injEq] at heq
        obtain ⟨rfl, rfl⟩ := heq
        exact ⟨_, _, rfl, hfirst, _, rest, rfl, hmiddle, hrest⟩
    · rintro ⟨first, _, rfl, hfirst, middle, rest, rfl, hmiddle, hrest⟩
      refine ⟨.opening delimiter :: (first ++ .closing delimiter :: middle), rest, ?_,
        .group hfirst hmiddle, hrest⟩
      simp

theorem nestedWithin_closing :
    NestedWithin groups (.closing delimiter :: kinds) ↔
      ∃ outer, groups = delimiter :: outer ∧ NestedWithin outer kinds := by
  cases groups with
  | nil =>
    constructor
    · rintro ⟨⟩
    · rintro ⟨outer, h, -⟩
      cases h
  | cons next outer =>
    constructor
    · rintro ⟨inside, rest, heq, hinside, hrest⟩
      cases hinside with
      | nil =>
        cases heq
        exact ⟨outer, rfl, hrest⟩
      | leaf => cases heq
      | group => cases heq
    · rintro ⟨_, heq, hrest⟩
      cases heq
      exact ⟨[], kinds, rfl, .nil, hrest⟩

/-! ## Offences -/

namespace TokenResult

/-- The groups that are open after an item, innermost first. -/
def openAfter (groups : List Delimiter) : TokenResult → List Delimiter
  | .error _ => groups
  | .ok token =>
    match token.kind with
    | .opening delimiter => delimiter :: groups
    | .closing _ => groups.tail
    | .leaf _ => groups

/-- The groups that are open after some items. -/
def openGroups (groups : List Delimiter) (items : List TokenResult) : List Delimiter :=
  items.foldl openAfter groups

/-- Why an item cannot stand inside the given open groups: it is an error by itself, it closes
another group than the innermost, or it is a leaf without a datum. -/
def offence? (groups : List Delimiter) : TokenResult → Option ReadError
  | .error e => some e
  | .ok token =>
    match token.kind with
    | .opening _ => none
    | .closing delimiter =>
      if groups.head? = some delimiter then none
      else some { fault := .unexpectedToken (String.ofList token.text), span := token.span }
    | .leaf kind =>
      match kind.datum token.text with
      | .ok _ => none
      | .error fault => some { fault, span := token.span }

/-- Why the item at an index cannot stand there, when the given groups are open in front of all
items. -/
def offenceAt? (groups : List Delimiter) (items : List TokenResult) (i : Nat) : Option ReadError :=
  items[i]?.bind (offence? (openGroups groups (items.take i)))

/-- The offence of the first item that offends. -/
def IsFirstOffence (groups : List Delimiter) (items : List TokenResult) (e : ReadError) : Prop :=
  ∃ i, offenceAt? groups items i = some e ∧ ∀ j < i, offenceAt? groups items j = none

def NoOffence (groups : List Delimiter) (items : List TokenResult) : Prop :=
  ∀ i, offenceAt? groups items i = none

variable {items : List TokenResult} {item : TokenResult} {token : Token}

@[simp] theorem openGroups_cons :
    openGroups groups (item :: items) = openGroups (openAfter groups item) items := rfl

theorem noOffence_nil : NoOffence groups [] := fun _ => rfl

theorem noOffence_cons :
    NoOffence groups (item :: items) ↔
      offence? groups item = none ∧ NoOffence (openAfter groups item) items := by
  constructor
  · intro h
    exact ⟨h 0, fun i => h (i + 1)⟩
  · rintro ⟨hfirst, hrest⟩ i
    cases i with
    | zero => exact hfirst
    | succ i => exact hrest i

theorem isFirstOffence_cons {e : ReadError} :
    IsFirstOffence groups (item :: items) e ↔
      offence? groups item = some e ∨
        (offence? groups item = none ∧ IsFirstOffence (openAfter groups item) items e) := by
  constructor
  · rintro ⟨i, hat, hbefore⟩
    cases i with
    | zero => exact .inl hat
    | succ i =>
      exact .inr ⟨hbefore 0 (by omega), i, hat, fun j hj => hbefore (j + 1) (by omega)⟩
  · rintro (hfirst | ⟨hfirst, i, hat, hbefore⟩)
    · exact ⟨0, hfirst, fun j hj => absurd hj (Nat.not_lt_zero j)⟩
    · refine ⟨i + 1, hat, fun j hj => ?_⟩
      cases j with
      | zero => exact hfirst
      | succ j => exact hbefore j (by omega)

theorem IsFirstOffence.unique {e e' : ReadError} (h : IsFirstOffence groups items e)
    (h' : IsFirstOffence groups items e') : e = e' := by
  obtain ⟨i, hat, hbefore⟩ := h
  obtain ⟨j, hat', hbefore'⟩ := h'
  rcases Nat.lt_trichotomy i j with hlt | rfl | hlt
  · rw [hbefore' i hlt] at hat
    cases hat
  · rw [hat] at hat'
    exact Option.some.inj hat'
  · rw [hbefore j hlt] at hat'
    cases hat'

theorem IsFirstOffence.not_noOffence {e : ReadError} (h : IsFirstOffence groups items e) :
    ¬ NoOffence groups items := by
  obtain ⟨i, hat, -⟩ := h
  intro hnone
  rw [hnone i] at hat
  cases hat

/-- A token that does not offend and leaves what follows nested is itself nested, and a piece. -/
theorem offence?_eq_none_and_nestedWithin :
    offence? groups (.ok token) = none ∧ NestedWithin (openAfter groups (.ok token)) kinds ↔
      NestedWithin groups (token.kind :: kinds) ∧ token.piece?.isSome := by
  cases hkind : token.kind with
  | opening delimiter => simp [offence?, openAfter, Token.piece?, hkind, nestedWithin_opening]
  | closing delimiter =>
    rw [nestedWithin_closing]
    cases groups with
    | nil => simp [offence?, hkind]
    | cons next outer => simp [offence?, openAfter, Token.piece?, hkind, and_assoc]
  | leaf kind =>
    rw [nestedWithin_leaf]
    cases hdatum : kind.datum token.text with
    | ok datum => simp [offence?, openAfter, Token.piece?, hkind, hdatum, Except.toOption]
    | error fault => simp [offence?, Token.piece?, hkind, hdatum, Except.toOption]

/-- Nothing offends and no group is left open exactly when there are tokens only, nested inside
the open groups, and every leaf has a datum. -/
theorem noOffence_iff_nestedWithin :
    NoOffence groups items ∧ openGroups groups items = [] ↔
      ∃ tokens : List Token, items = tokens.map .ok ∧ NestedWithin groups (tokens.map (·.kind)) ∧
        ∀ token ∈ tokens, token.piece?.isSome := by
  induction items generalizing groups with
  | nil =>
    constructor
    · rintro ⟨-, hopen⟩
      exact ⟨[], rfl, nestedWithin_nil.mpr hopen, by simp⟩
    · rintro ⟨tokens, htokens, hnested, -⟩
      rw [List.map_eq_nil_iff.mp htokens.symm] at hnested
      exact ⟨noOffence_nil, nestedWithin_nil.mp hnested⟩
  | cons item items ih =>
    rw [noOffence_cons, openGroups_cons, and_assoc, ih]
    constructor
    · rintro ⟨hfirst, tokens, rfl, hnested, hpieces⟩
      cases item with
      | error e => cases hfirst
      | ok token =>
        obtain ⟨hnested, hpiece⟩ := offence?_eq_none_and_nestedWithin.mp ⟨hfirst, hnested⟩
        exact ⟨token :: tokens, rfl, hnested, List.forall_mem_cons.mpr ⟨hpiece, hpieces⟩⟩
    · rintro ⟨tokens, htokens, hnested, hpieces⟩
      cases tokens with
      | nil => cases htokens
      | cons token tokens =>
        obtain ⟨rfl, rfl⟩ := List.cons.inj htokens
        obtain ⟨hpiece, hpieces⟩ := List.forall_mem_cons.mp hpieces
        obtain ⟨hfirst, hnested⟩ := offence?_eq_none_and_nestedWithin.mpr ⟨hnested, hpiece⟩
        exact ⟨hfirst, tokens, rfl, hnested, hpieces⟩

end TokenResult

end Interop
