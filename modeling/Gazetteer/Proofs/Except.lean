import Mathlib
/-! Results that are a value or an error. -/

namespace Gazetteer

variable {ε α β γ : Type}

@[simp] theorem ok_bind (a : α) (f : α → Except ε β) : (.ok a >>= f) = f a := rfl

@[simp] theorem error_bind (e : ε) (f : α → Except ε β) :
    ((.error e : Except ε α) >>= f) = .error e := rfl

theorem bind_eq_ok {result : Except ε α} {f : α → Except ε β} {b : β} :
    (result >>= f) = .ok b ↔ ∃ a, result = .ok a ∧ f a = .ok b := by
  cases result <;> simp

theorem map_eq_ok {result : Except ε α} {f : α → β} {b : β} :
    result.map f = .ok b ↔ ∃ a, result = .ok a ∧ f a = b := by
  cases result <;> simp [Except.map]

theorem mapError_eq_ok {ε' : Type} {result : Except ε α} {report : ε → ε'} {a : α} :
    result.mapError report = .ok a ↔ result = .ok a := by
  cases result <;> simp [Except.mapError]

theorem mapError_eq_error {ε' : Type} {result : Except ε α} {report : ε → ε'} {e : ε'} :
    result.mapError report = .error e ↔ ∃ fault, result = .error fault ∧ report fault = e := by
  cases result <;> simp [Except.mapError]

theorem toOption_eq_some {result : Except ε α} {a : α} :
    result.toOption = some a ↔ result = .ok a := by
  cases result <;> simp [Except.toOption]

theorem map_bind_except (result : Except ε α) (f : α → β) (g : β → Except ε γ) :
    (result.map f >>= g) = (result >>= fun a => g (f a)) := by
  cases result <;> rfl

theorem bind_map_except (result : Except ε α) (f : β → γ) (g : α → Except ε β) :
    (result >>= g).map f = (result >>= fun a => (g a).map f) := by
  cases result <;> rfl

theorem map_map_except (result : Except ε α) (f : α → β) (g : β → γ) :
    (result.map f).map g = result.map fun a => g (f a) := by
  cases result <;> rfl

/-- Reading gives what each item was written from. -/
theorem mapM_map_eq_ok {write : α → β} {read : β → Except ε γ} {value : α → γ}
    (h : ∀ a, read (write a) = .ok (value a)) (items : List α) :
    (items.map write).mapM read = .ok (items.map value) := by
  induction items with
  | nil => rfl
  | cons a rest ih =>
      rw [List.map_cons, List.mapM_cons, h, ih]
      rfl

/-- Where all that can fail fails alike, a list of steps of which one fails does so. -/
theorem mapM_eq_error {f : α → Except ε β} {e : ε} {items : List α}
    (hall : ∀ a ∈ items, ∀ e', f a = .error e' → e' = e)
    (hone : ∃ a ∈ items, ∃ e', f a = .error e') : items.mapM f = .error e := by
  induction items with
  | nil =>
      obtain ⟨a, ha, -⟩ := hone
      exact absurd ha List.not_mem_nil
  | cons a rest ih =>
      obtain ⟨hfirst, hrest⟩ := List.forall_mem_cons.mp hall
      rw [List.mapM_cons]
      cases ha : f a with
      | error e' =>
          rw [hfirst e' ha]
          rfl
      | ok b =>
          obtain ⟨other, hother, e', he'⟩ := hone
          rcases List.mem_cons.mp hother with rfl | hother
          · rw [ha] at he'
            cases he'
          · rw [ih hrest ⟨other, hother, e', he'⟩]
            rfl

end Gazetteer
