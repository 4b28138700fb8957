import Mathlib
/-! Lists of items that are told apart by a key. -/

namespace Gazetteer

variable {α β κ : Type}

theorem filter_key [BEq κ] [LawfulBEq κ] {keyOf : α → κ} {items : List α}
    (h : (items.map keyOf).Nodup) (key : κ) :
    (items.filter fun a => keyOf a == key) = (items.find? fun a => keyOf a == key).toList := by
  induction items with
  | nil => rfl
  | cons a rest ih =>
      obtain ⟨hnew, hrest⟩ := List.nodup_cons.mp h
      cases hkey : keyOf a == key with
      | true =>
          have hnone : rest.filter (fun a => keyOf a == key) = [] := by
            rw [List.filter_eq_nil_iff]
            intro other hother hsame
            rw [beq_iff_eq] at hkey hsame
            exact hnew (hkey.trans hsame.symm ▸ List.mem_map_of_mem hother)
          simp only [List.filter_cons, List.find?_cons, hkey, hnone, if_true, Option.toList_some]
      | false =>
          simp only [List.filter_cons, List.find?_cons, hkey, Bool.false_eq_true, if_false]
          exact ih hrest

theorem filter_without [BEq κ] [LawfulBEq κ] (keyOf : α → κ) (items : List α) (key other : κ) :
    (items.filter fun a => keyOf a != key).filter (fun a => keyOf a == other) =
      if other == key then [] else items.filter fun a => keyOf a == other := by
  rw [List.filter_filter]
  cases hother : other == key with
  | true =>
      rw [beq_iff_eq.mp hother, if_pos rfl, List.filter_eq_nil_iff]
      intro a _ ha
      simp at ha
  | false =>
      refine List.filter_congr fun a _ => ?_
      cases ha : keyOf a == other with
      | true => rw [beq_iff_eq.mp ha, bne, hother]; rfl
      | false => rfl

theorem find?_without [BEq κ] [LawfulBEq κ] (keyOf : α → κ) (items : List α) (key other : κ) :
    (items.filter fun a => keyOf a != key).find? (fun a => keyOf a == other) =
      if other == key then none else items.find? fun a => keyOf a == other := by
  rw [← List.head?_filter, filter_without, ← List.head?_filter]
  cases other == key <;> rfl

theorem find?_without_append [BEq κ] [LawfulBEq κ] (keyOf : α → κ) (items : List α) (a : α)
    (key : κ) :
    (items.filter (fun other => keyOf other != keyOf a) ++ [a]).find? (fun b => keyOf b == key) =
      if key == keyOf a then some a else items.find? fun b => keyOf b == key := by
  rw [List.find?_append, find?_without, BEq.comm]
  cases hkey : keyOf a == key <;> simp [hkey]

theorem nodup_eraseDups [BEq κ] [LawfulBEq κ] : ∀ keys : List κ, keys.eraseDups.Nodup
  | [] => List.nodup_nil
  | key :: rest => by
      rw [List.eraseDups_cons]
      refine List.nodup_cons.mpr ⟨fun hmem => ?_, nodup_eraseDups _⟩
      rw [List.mem_eraseDups] at hmem
      simpa using (List.mem_filter.mp hmem).2
termination_by keys => keys.length
decreasing_by exact Nat.lt_succ_of_le (List.length_filter_le _ _)

theorem eraseDups_of_nodup [BEq κ] [LawfulBEq κ] {keys : List κ} (h : keys.Nodup) :
    keys.eraseDups = keys := by
  induction keys with
  | nil => rfl
  | cons key rest ih =>
      obtain ⟨hnew, hrest⟩ := List.nodup_cons.mp h
      have hall : rest.filter (fun other => !other == key) = rest := by
        refine List.filter_eq_self.mpr fun other hother => ?_
        have hne : other ≠ key := fun heq => hnew (heq ▸ hother)
        simpa using hne
      rw [List.eraseDups_cons, hall, ih hrest]

theorem eraseDupsBy_of_pairwise {same : α → α → Bool} {items : List α}
    (h : items.Pairwise fun a b => same b a = false) : items.eraseDupsBy same = items := by
  have hloop (kept : List α) (hkept : ∀ a ∈ items, ∀ b ∈ kept, same a b = false) :
      List.eraseDupsBy.loop same items kept = kept.reverse ++ items := by
    induction items generalizing kept with
    | nil => rw [List.eraseDupsBy.loop, List.append_nil]
    | cons a rest ih =>
        obtain ⟨hhead, hrest⟩ := List.pairwise_cons.mp h
        obtain ⟨hnew, hlater⟩ := List.forall_mem_cons.mp hkept
        have hany : kept.any (same a) = false := by
          rw [List.any_eq_false]
          exact fun b hb => Bool.not_eq_true _ ▸ hnew b hb
        rw [List.eraseDupsBy.loop, hany]
        refine (ih hrest (a :: kept) fun b hb => ?_).trans ?_
        · exact List.forall_mem_cons.mpr ⟨hhead b hb, hlater b hb⟩
        · rw [List.reverse_cons, List.append_assoc, List.singleton_append]
  exact hloop [] fun _ _ => List.forall_mem_nil _

/-- Items made from others are selected by a key that they take over. -/
theorem filter_flatMap_key {keyOf : α → κ} {subkeyOf : β → κ} {make : α → List β}
    (h : ∀ a, ∀ b ∈ make a, subkeyOf b = keyOf a) (p : κ → Bool) (items : List α) :
    (items.flatMap make).filter (fun b => p (subkeyOf b)) =
      (items.filter fun a => p (keyOf a)).flatMap make := by
  induction items with
  | nil => rfl
  | cons a rest ih =>
      have hown : (make a).filter (fun b => p (subkeyOf b)) =
          if p (keyOf a) then make a else [] := by
        rw [List.filter_congr fun b hb => congrArg p (h a b hb)]
        cases p (keyOf a) <;> simp
      rw [List.flatMap_cons, List.filter_append, hown, ih, List.filter_cons]
      cases p (keyOf a) <;> simp

theorem flatMap_filter (p : α → Bool) (make : α → List β) (items : List α) :
    (items.flatMap fun a => if p a then make a else []) = (items.filter p).flatMap make := by
  induction items with
  | nil => rfl
  | cons a rest ih =>
      rw [List.flatMap_cons, ih, List.filter_cons]
      cases p a <;> rfl

theorem flatMap_if (p : α → Bool) (f : α → β) (items : List α) :
    (items.flatMap fun a => if p a then [f a] else []) = (items.filter p).map f := by
  rw [flatMap_filter p fun a => [f a], ← List.map_eq_flatMap]

/-- Items that stand in order among themselves are not moved past each other by sorting. -/
theorem filter_mergeSort {le : α → α → Bool}
    (htrans : ∀ a b c, le a b = true → le b c = true → le a c = true)
    (htotal : ∀ a b, (le a b || le b a) = true) {items : List α} {p : α → Bool}
    (h : (items.filter p).Pairwise fun a b => le a b = true) :
    (items.mergeSort le).filter p = items.filter p := by
  have hsublist := (List.sublist_mergeSort htrans htotal h List.filter_sublist).filter p
  rw [List.filter_filter] at hsublist
  simp only [Bool.and_self] at hsublist
  have hlength := ((List.mergeSort_perm items le).filter p).length_eq
  exact (hsublist.eq_of_length hlength.symm).symm

/-! Items of which at most one is selected -/

theorem eq_of_perm_of_length_le_one {a b : List α} (h : a.Perm b) (hlength : a.length ≤ 1) :
    a = b := by
  match a with
  | [] => exact h.nil_eq
  | [_] => exact (List.perm_singleton.mp h.symm).symm

theorem length_filter_le_one {p : α → Bool} {items : List α}
    (h : items.Pairwise fun a b => ¬(p a = true ∧ p b = true)) : (items.filter p).length ≤ 1 := by
  have hfilter := h.filter p
  match hitems : items.filter p with
  | [] => exact Nat.zero_le 1
  | [_] => exact Nat.le_refl 1
  | a :: b :: rest =>
      have hmem : ∀ c ∈ items.filter p, p c = true := fun c hc => (List.mem_filter.mp hc).2
      rw [hitems, List.forall_mem_cons, List.forall_mem_cons] at hmem
      rw [hitems] at hfilter
      exact absurd ⟨hmem.1, hmem.2.1⟩ (List.rel_of_pairwise_cons hfilter List.mem_cons_self)

theorem find?_eq_of_perm {p : α → Bool} {a b : List α} (h : a.Perm b)
    (hunique : a.Pairwise fun x y => ¬(p x = true ∧ p y = true)) : a.find? p = b.find? p := by
  rw [← List.head?_filter, ← List.head?_filter,
    eq_of_perm_of_length_le_one (h.filter p) (length_filter_le_one hunique)]

end Gazetteer
