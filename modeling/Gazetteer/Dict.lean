/-!
Dictionaries with text keys: the entries stand in ascending order of their keys, one for each key,
so that equal dictionaries are equal lists.
-/

namespace Gazetteer

/-- The entries with `value` under `key`, in the place of any entry that stood there. -/
def insertEntry {α : Type} (key : String) (value : α) :
    List (String × α) → List (String × α)
  | [] => [(key, value)]
  | (k, v) :: rest =>
      if key < k then (key, value) :: (k, v) :: rest
      else if key = k then (key, value) :: rest
      else (k, v) :: insertEntry key value rest

def findEntry {α : Type} (key : String) (entries : List (String × α)) : Option α :=
  (entries.find? fun entry => entry.1 == key).map Prod.snd

def Ascending {α : Type} (entries : List (String × α)) : Prop :=
  entries.Pairwise fun a b => a.1 < b.1

theorem fst_mem_insertEntry {α : Type} {key : String} {value : α}
    {entries : List (String × α)} {entry : String × α}
    (h : entry ∈ insertEntry key value entries) : entry.1 = key ∨ entry ∈ entries := by
  induction entries with
  | nil => simp_all [insertEntry]
  | cons head rest ih =>
      simp only [insertEntry] at h
      split at h
      · rcases List.mem_cons.mp h with h | h
        · exact Or.inl (by simp [h])
        · exact Or.inr h
      · split at h
        · rcases List.mem_cons.mp h with h | h
          · exact Or.inl (by simp [h])
          · exact Or.inr (List.mem_cons_of_mem _ h)
        · rcases List.mem_cons.mp h with h | h
          · exact Or.inr (by simp [h])
          · exact (ih h).imp id (List.mem_cons_of_mem _)

private theorem lt_of_not {a b : String} (hlt : ¬a < b) (hne : a ≠ b) : b < a := by
  rcases Decidable.em (b < a) with h | h
  · exact h
  · exact absurd (String.le_antisymm (String.not_lt.mp h) (String.not_lt.mp hlt)) hne

theorem ascending_insertEntry {α : Type} (key : String) (value : α)
    {entries : List (String × α)} (h : Ascending entries) :
    Ascending (insertEntry key value entries) := by
  induction entries with
  | nil => simp [insertEntry, Ascending]
  | cons head rest ih =>
      obtain ⟨hhead, hrest⟩ := List.pairwise_cons.mp h
      simp only [insertEntry]
      split
      next hlt =>
        refine List.pairwise_cons.mpr ⟨?_, h⟩
        intro entry hentry
        rcases List.mem_cons.mp hentry with rfl | hentry
        · exact hlt
        · exact String.lt_trans hlt (hhead entry hentry)
      next hlt =>
        split
        next heq =>
          refine List.pairwise_cons.mpr ⟨?_, hrest⟩
          intro entry hentry
          exact heq ▸ hhead entry hentry
        next hne =>
          refine List.pairwise_cons.mpr ⟨?_, ih hrest⟩
          intro entry hentry
          rcases fst_mem_insertEntry hentry with hkey | hentry
          · exact hkey ▸ lt_of_not hlt hne
          · exact hhead entry hentry

structure Dict (α : Type) where
  entries : List (String × α)
  ascending : Ascending entries

namespace Dict

variable {α β : Type}

@[ext] theorem ext {a b : Dict α} (h : a.entries = b.entries) : a = b := by
  cases a
  cases b
  cases h
  rfl

instance [DecidableEq α] : DecidableEq (Dict α) := fun a b =>
  decidable_of_iff (a.entries = b.entries) ⟨ext, fun h => h ▸ rfl⟩

def empty : Dict α :=
  ⟨[], List.Pairwise.nil⟩

instance : Inhabited (Dict α) :=
  ⟨empty⟩

def insert (d : Dict α) (key : String) (value : α) : Dict α :=
  ⟨insertEntry key value d.entries, ascending_insertEntry key value d.ascending⟩

def get? (d : Dict α) (key : String) : Option α :=
  findEntry key d.entries

def contains (d : Dict α) (key : String) : Bool :=
  (d.get? key).isSome

/-- Entries given in any order; of two for one key the later one stays. -/
def ofList (entries : List (String × α)) : Dict α :=
  entries.foldl (fun d entry => d.insert entry.1 entry.2) empty

def keys (d : Dict α) : List String :=
  d.entries.map Prod.fst

def size (d : Dict α) : Nat :=
  d.entries.length

def modify (d : Dict α) (key : String) (f : α → α) : Dict α :=
  match d.get? key with
  | some value => d.insert key (f value)
  | none => d

@[simp] theorem entries_empty : (empty : Dict α).entries = [] := rfl

@[simp] theorem entries_insert (d : Dict α) (key : String) (value : α) :
    (d.insert key value).entries = insertEntry key value d.entries := rfl

@[simp] theorem get?_empty (key : String) : (empty : Dict α).get? key = none := rfl

end Dict

theorem findEntry_insertEntry_self {α : Type} (key : String) (value : α)
    (entries : List (String × α)) : findEntry key (insertEntry key value entries) = some value := by
  induction entries with
  | nil => simp [insertEntry, findEntry]
  | cons head rest ih =>
      simp only [insertEntry]
      split
      · simp [findEntry]
      · split
        · simp [findEntry]
        next hne =>
          have : (head.1 == key) = false := by simpa using fun h => hne h.symm
          simpa [findEntry, List.find?_cons, this] using ih

theorem findEntry_insertEntry_of_ne {α : Type} {key other : String} (value : α)
    (entries : List (String × α)) (hne : other ≠ key) :
    findEntry other (insertEntry key value entries) = findEntry other entries := by
  have hkey : (key == other) = false := by simpa using fun h => hne h.symm
  induction entries with
  | nil => simp [insertEntry, findEntry, hkey]
  | cons head rest ih =>
      simp only [insertEntry]
      split
      · simp [findEntry, List.find?_cons, hkey]
      · split
        next heq =>
          have hhead : (head.1 == other) = false := heq ▸ hkey
          simp [findEntry, hkey, hhead]
        · by_cases hhead : head.1 = other
          · simp [findEntry, hhead]
          · have : (head.1 == other) = false := by simpa using hhead
            simpa [findEntry, List.find?_cons, this] using ih

namespace Dict

variable {α : Type}

@[simp] theorem get?_insert_self (d : Dict α) (key : String) (value : α) :
    (d.insert key value).get? key = some value :=
  findEntry_insertEntry_self key value d.entries

theorem get?_insert_of_ne (d : Dict α) {key other : String} (value : α) (hne : other ≠ key) :
    (d.insert key value).get? other = d.get? other :=
  findEntry_insertEntry_of_ne value d.entries hne

end Dict

/-- The texts in ascending order, each once. -/
def distinctTexts (texts : List String) : List String :=
  (Dict.ofList (texts.map fun text => (text, ()))).keys

end Gazetteer
