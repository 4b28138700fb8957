import Mathlib
import Gazetteer.Proofs.Except
import Gazetteer.Store.Declaration
/-!
Names between quotes: one without a quote is read as it is, or not at all.
-/

namespace Gazetteer.Name

variable {name read : String}

private theorem unquoteChars?_cons {c : Char} (hquote : c ≠ '"') (cs : List Char) :
    unquoteChars? (c :: cs) =
      if c.toNat == 0 then none else (unquoteChars? cs).map (c :: ·) := by
  rw [unquoteChars?]
  · simp [hquote]
  · rintro rest rfl
    exact absurd rfl hquote

private theorem eq_of_unquoteChars? {cs found : List Char} (hquote : '"' ∉ cs)
    (h : unquoteChars? cs = some found) : found = cs := by
  induction cs generalizing found with
  | nil => exact (Option.some_inj.mp h).symm
  | cons c rest ih =>
      rw [List.mem_cons, not_or] at hquote
      rw [unquoteChars?_cons (Ne.symm hquote.1)] at h
      split at h
      · cases h
      · obtain ⟨others, hothers, rfl⟩ := Option.map_eq_some_iff.mp h
        rw [ih hquote.2 hothers]

theorem eq_of_unquote? (hquote : '"' ∉ name.toList) (h : unquote? name = some read) :
    read = name := by
  obtain ⟨found, hfound, rfl⟩ := Option.map_eq_some_iff.mp h
  rw [eq_of_unquoteChars? hquote hfound, String.ofList_toList]

section

variable {α : Type} {entries found : List (String × α)}

theorem unquoteAll_eq_self (h : ∀ entry ∈ entries, unquote? entry.1 = some entry.1) :
    unquoteAll entries = .ok entries := by
  induction entries with
  | nil => rfl
  | cons entry rest ih =>
      obtain ⟨hentry, hrest⟩ := List.forall_mem_cons.mp h
      simp only [unquoteAll, hentry, ih hrest]
      rfl

theorem exists_of_unquoteAll (h : unquoteAll entries = .ok found) :
    ∀ entry ∈ entries, ∃ read, unquote? entry.1 = some read ∧ (read, entry.2) ∈ found := by
  induction entries generalizing found with
  | nil => exact fun entry hentry => absurd hentry List.not_mem_nil
  | cons first rest ih =>
      rw [unquoteAll] at h
      split at h
      · cases h
      next read hread =>
        obtain ⟨others, hrest, rfl⟩ := map_eq_ok.mp h
        refine List.forall_mem_cons.mpr ⟨⟨read, hread, List.mem_cons_self⟩, ?_⟩
        intro entry hentry
        obtain ⟨other, hother, hmem⟩ := ih hrest entry hentry
        exact ⟨other, hother, List.mem_cons_of_mem _ hmem⟩

end

end Gazetteer.Name
