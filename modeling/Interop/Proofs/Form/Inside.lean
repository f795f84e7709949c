import Interop.Form.Basic

/-! Forms inside forms. What stands inside a group is less deep than the group, so depth is a
measure for everything that goes from a form to its parts. -/

namespace Interop

/-- A form is inside itself, and what is inside an item is inside the group. -/
inductive Form.Inside (inner : Form) : Form → Prop
  | self : Inside inner inner
  | item {delimiter : Delimiter} {items : List Form} {span : Span} {form : Form} :
      form ∈ items → Inside inner form → Inside inner (.group delimiter items span)

namespace Form

theorem Inside.trans {a b c : Form} (hab : a.Inside b) (hbc : b.Inside c) : a.Inside c := by
  induction hbc with
  | self => exact hab
  | item hmem _ ih => exact .item hmem ih

theorem Inside.of_mem {delimiter : Delimiter} {items : List Form} {span : Span} {form : Form}
    (h : form ∈ items) : form.Inside (.group delimiter items span) := .item h .self

/-- The items of a list are inside it. -/
theorem list?_eq_some {form : Form} {items : List Form} (h : form.list? = some items) :
    ∃ span, form = .group .paren items span := by
  cases form with
  | leaf => cases h
  | group delimiter items' span =>
    cases delimiter with
    | paren => cases h; exact ⟨span, rfl⟩
    | bracket => cases h

theorem Inside.of_list? {form item : Form} {items : List Form} (h : form.list? = some items)
    (hmem : item ∈ items) : item.Inside form := by
  obtain ⟨span, rfl⟩ := list?_eq_some h
  exact .of_mem hmem

theorem depth_le_depthList {form : Form} {forms : List Form} (h : form ∈ forms) :
    form.depth ≤ depthList forms := by
  induction forms with
  | nil => cases h
  | cons first rest ih =>
    simp only [depthList]
    rcases List.mem_cons.mp h with rfl | h
    · omega
    · have := ih h
      omega

theorem depth_lt_of_mem {delimiter : Delimiter} {items : List Form} {span : Span} {form : Form}
    (h : form ∈ items) : form.depth < (Form.group delimiter items span).depth := by
  have := depth_le_depthList h
  simp only [depth]
  omega

theorem depth_lt_of_list? {form item : Form} {items : List Form} (h : form.list? = some items)
    (hmem : item ∈ items) : item.depth < form.depth := by
  obtain ⟨span, rfl⟩ := list?_eq_some h
  exact depth_lt_of_mem hmem

end Form

end Interop
