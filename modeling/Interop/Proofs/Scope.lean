import Interop.Scope
import Mathlib.Data.List.Induction

/-! The local variables after any bindings in order. Slots number the bindings from the outermost one,
and a name that is bound more than once stands for its last binding. -/

namespace Interop

namespace LexicalEnv

/-- The local variables after bindings, the first of which is the outermost one. -/
def after (binds : List (String × Option HostType)) : LexicalEnv :=
  binds.foldl (fun env bound => env.bind bound.1 bound.2) {}

/-- The entry at a slot. -/
def slot? (env : LexicalEnv) (slot : Nat) : Option LocalBinding := env.bindings.reverse[slot]?

theorem after_append (binds : List (String × Option HostType)) (bound : String × Option HostType) :
    after (binds ++ [bound]) = (after binds).bind bound.1 bound.2 := by
  rw [after, List.foldl_append]
  rfl

theorem size_after (binds : List (String × Option HostType)) :
    (after binds).size = binds.length := by
  induction binds using List.reverseRecOn with
  | nil => rfl
  | append_singleton binds bound ih =>
    rw [after_append, List.length_append, ← ih]
    rfl

theorem slot?_bind_size (env : LexicalEnv) (name : String) (tag : Option HostType) :
    (env.bind name tag).slot? env.size = some { name, index := env.size, tag } := by
  simp [slot?, bind, size]

theorem slot?_bind {env : LexicalEnv} {slot : Nat} {binding : LocalBinding}
    (h : env.slot? slot = some binding) (name : String) (tag : Option HostType) :
    (env.bind name tag).slot? slot = some binding := by
  obtain ⟨hslot, _⟩ := List.getElem?_eq_some_iff.mp h
  rw [slot?, bind, List.reverse_cons, List.getElem?_append_left hslot]
  exact h

/-- Only an unqualified symbol stands for a local variable, for one of its name. -/
theorem lookup?_symbol {env : LexicalEnv} {symbol : Symbol} {binding : LocalBinding}
    (h : env.lookup? symbol = some binding) : symbol = { name := binding.name } := by
  unfold lookup? at h
  split at h
  · cases h
  · rename_i hunqualified
    have hname : binding.name = symbol.name := by simpa using List.find?_some h
    rcases symbol with ⟨_ | qualifier, name⟩
    · rw [hname]
    · exact absurd rfl hunqualified

/-- What a symbol stands for inside one more binding. -/
theorem lookup?_bind_cases {env : LexicalEnv} {name : String} {tag : Option HostType}
    {symbol : Symbol} {binding : LocalBinding}
    (h : (env.bind name tag).lookup? symbol = some binding) :
    name = symbol.name ∧ binding = { name, index := env.size, tag } ∨
      name ≠ symbol.name ∧ env.lookup? symbol = some binding := by
  unfold lookup? at h ⊢
  split at h
  · cases h
  · rename_i hunqualified
    rw [if_neg hunqualified]
    by_cases hname : name = symbol.name
    · rw [bind, List.find?_cons_of_pos (by simpa using hname)] at h
      exact .inl ⟨hname, (Option.some.inj h).symm⟩
    · rw [bind, List.find?_cons_of_neg (by simpa using hname)] at h
      exact .inr ⟨hname, h⟩

/-- Among bindings in order, one is the entry at its own index, and the last one of its name. -/
structure Innermost (binds : List (String × Option HostType)) (binding : LocalBinding) : Prop where
  bound : binds[binding.index]? = some (binding.name, binding.tag)
  entry : (after binds).slot? binding.index = some binding
  last : ∀ later ∈ binds.drop (binding.index + 1), later.1 ≠ binding.name

namespace Innermost

variable {binds : List (String × Option HostType)} {binding : LocalBinding}

theorem index_lt (h : Innermost binds binding) : binding.index < binds.length :=
  (List.getElem?_eq_some_iff.mp h.bound).1

theorem append_self (binds : List (String × Option HostType)) (bound : String × Option HostType) :
    Innermost (binds ++ [bound]) { name := bound.1, index := (after binds).size, tag := bound.2 } where
  bound := by simp [size_after]
  entry := by rw [after_append]; exact slot?_bind_size _ _ _
  last := by simp [size_after]

/-- A binding stays innermost until its name is bound again. -/
theorem append (h : Innermost binds binding) {bound : String × Option HostType}
    (hname : bound.1 ≠ binding.name) : Innermost (binds ++ [bound]) binding where
  bound := by rw [List.getElem?_append_left h.index_lt, h.bound]
  entry := by rw [after_append]; exact slot?_bind h.entry _ _
  last := by
    intro later hlater
    rw [List.drop_append_of_le_length h.index_lt] at hlater
    rcases List.mem_append.mp hlater with hlater | hlater
    · exact h.last later hlater
    · rwa [List.mem_singleton.mp hlater]

end Innermost

/-- A symbol that stands for a local variable stands for the innermost one. -/
theorem lookup?_after {binds : List (String × Option HostType)} {symbol : Symbol}
    {binding : LocalBinding} (h : (after binds).lookup? symbol = some binding) :
    Innermost binds binding := by
  induction binds using List.reverseRecOn with
  | nil =>
    unfold lookup? at h
    split at h <;> cases h
  | append_singleton binds bound ih =>
    rw [after_append] at h
    rcases lookup?_bind_cases h with ⟨_, rfl⟩ | ⟨hname, h⟩
    · exact .append_self binds bound
    · rw [lookup?_symbol h] at hname
      exact (ih h).append hname

end LexicalEnv

end Interop
