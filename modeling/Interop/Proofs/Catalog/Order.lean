import Interop.Catalog.Document
import Interop.Proofs.Catalog.Reach

/-! Independence of order and grouping. Declarations that can be loaded document by document can
be loaded from one document, in any order, and give the same catalog. -/

namespace Interop

namespace Catalog

variable {C D : Catalog} {decls : List TypeDecl} (read : String → Option (List TypeDecl))

/-- Declarations that are loaded in several parts can be loaded as one list, in any order. -/
theorem exists_extend_of_perm {parts : List (List TypeDecl)} (hC : C.WellFormed)
    (hload : parts.foldlM extend C = .ok D) (hperm : decls.Perm parts.flatten) :
    ∃ D', C.extend decls = .ok D' ∧ C.Extends decls D' ∧ C.Extends decls D := by
  have hextends : C.Extends decls D := (extends_of_foldlM hC.settled hload).perm hperm.symm
  obtain ⟨D', hextend⟩ := hextends.exists_extend
  exact ⟨D', hextend, extends_of_extend hextend, hextends⟩

/-- All declarations of some documents, in their order. -/
def declaredIn (sources : List String) : List TypeDecl :=
  sources.flatMap fun source => (read source).getD []

/-- Documents that are loaded one after another are loaded as the lists of their declarations. -/
theorem foldlM_extend_of_sources {sources : List String}
    (h : sources.foldlM (extendFrom read) C = .ok D) :
    (sources.map fun source => (read source).getD []).foldlM extend C = .ok D := by
  induction sources generalizing C with
  | nil => exact h
  | cons source sources ih =>
    rw [List.foldlM_cons, except_bind_eq_ok_iff] at h
    obtain ⟨C₁, hfirst, hrest⟩ := h
    obtain ⟨decls, hdecls, hextend⟩ := (extendFrom_eq_ok_iff read).mp hfirst
    rw [List.map_cons, List.foldlM_cons, except_bind_eq_ok_iff]
    exact ⟨C₁, by rw [hdecls]; exact hextend, ih hrest⟩

/-- **Order and grouping do not matter.** When documents extend a catalog one after another, the
same declarations in any order extend it at once, as a list or from any document that holds them.
The catalog that this gives has the same entries and the same declared names, up to their order,
and gives the same answers about types and members. -/
theorem extend_perm (history sources : List String) (decls : List TypeDecl) (D : Catalog)
    (hload : sources.foldlM (extendFrom read) (after read history) = .ok D)
    (hperm : decls.Perm (declaredIn read sources)) :
    ∃ D', (after read history).extend decls = .ok D' ∧
      (∀ whole, read whole = some decls → (after read history).extendFrom read whole = .ok D') ∧
      D'.entries.Perm D.entries ∧ D'.declared.Perm D.declared ∧ D'.host = D.host := by
  have hwell := wellFormed_after read history
  obtain ⟨D', hextend, hloaded, hparts⟩ :=
    exists_extend_of_perm hwell (foldlM_extend_of_sources read hload) hperm
  have hentries : D'.entries.Perm D.entries := hloaded.entries_perm hwell.unique hparts
  refine ⟨D', hextend, ?_, hentries, hloaded.declared_perm hparts, ?_⟩
  · intro whole hwhole
    exact (extendFrom_eq_ok_iff read).mpr ⟨decls, hwhole, hextend⟩
  · exact host_eq_of_perm (hloaded.unique hwell.unique) hentries

/-- Two documents, the second of which refers to the first, and one that declares the same the
other way round. -/
theorem extend_perm_forward_reference :
    ∃ D D',
      ["types = [\x7b name = \"Node\" \x7d]",
        "types = [\x7b name = \"Leaf\", base = \"Node\" \x7d]"].foldlM
          (extendFrom declarations?) (after declarations? []) = .ok D ∧
      (after declarations? []).extendFrom declarations?
        "types = [\x7b name = \"Leaf\", base = \"Node\" \x7d, \x7b name = \"Node\" \x7d]" =
          .ok D' ∧
      D'.entries.Perm D.entries ∧ D'.declared.Perm D.declared ∧ D'.host = D.host := by
  have hloads : (["types = [\x7b name = \"Node\" \x7d]",
      "types = [\x7b name = \"Leaf\", base = \"Node\" \x7d]"].foldlM
        (extendFrom declarations?) (after declarations? [])).isOk := by
    decide +kernel
  have hwhole : declarations?
      "types = [\x7b name = \"Leaf\", base = \"Node\" \x7d, \x7b name = \"Node\" \x7d]" =
        some [{ name := "Leaf", base := some "Node" }, { name := "Node" }] := by
    decide +kernel
  obtain ⟨D, hload⟩ := except_isOk_iff.mp hloads
  obtain ⟨D', -, htext, hsame⟩ := extend_perm declarations? [] _
    [{ name := "Leaf", base := some "Node" }, { name := "Node" }] D hload (by decide +kernel)
  exact ⟨D, D', hload, htext _ hwhole, hsame⟩

end Catalog

end Interop
