import Mathlib
import Gazetteer.Resource
/-!
Distributions that give access to the same thing, and which of several are new.
-/

namespace Gazetteer.Distribution

/-- Agreement in relation, address and label, where no label is the empty label. -/
def sameAccess (a b : Distribution) : Bool :=
  a.relation == b.relation && a.url == b.url && a.label.getD "" == b.label.getD ""

theorem sameAccess_comm (a b : Distribution) : a.sameAccess b = b.sameAccess a := by
  simp only [sameAccess, Bool.beq_comm (a := a.relation),
    Bool.beq_comm (a := a.url), Bool.beq_comm (a := a.label.getD "")]

theorem sameAccess_refl (d : Distribution) : d.sameAccess d = true := by
  simp [sameAccess]

/-- Those of several distributions that agree neither with one that is known nor with one before
them. -/
def newcomers (known : Distribution → Bool) : List Distribution → List Distribution
  | [] => []
  | d :: rest =>
      if known d then newcomers known rest
      else d :: newcomers (fun other => known other || other.sameAccess d) rest

theorem known_or_newcomer {known : Distribution → Bool} {ds : List Distribution} :
    ∀ d ∈ ds, known d = true ∨ ∃ e ∈ newcomers known ds, d.sameAccess e = true := by
  induction ds generalizing known with
  | nil => exact fun d hd => absurd hd List.not_mem_nil
  | cons first rest ih =>
      rw [newcomers]
      cases hknown : known first with
      | true => exact List.forall_mem_cons.mpr ⟨Or.inl hknown, ih⟩
      | false =>
          refine List.forall_mem_cons.mpr ⟨?_, fun d hd => ?_⟩
          · exact Or.inr ⟨first, List.mem_cons_self, first.sameAccess_refl⟩
          · obtain hknown | ⟨e, he, hsame⟩ :=
              @ih (fun other => known other || other.sameAccess first) d hd
            · rcases Bool.or_eq_true_iff.mp hknown with h | h
              · exact Or.inl h
              · exact Or.inr ⟨first, List.mem_cons_self, h⟩
            · exact Or.inr ⟨e, List.mem_cons_of_mem _ he, hsame⟩

end Gazetteer.Distribution
