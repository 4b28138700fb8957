import Mathlib
import Gazetteer.Json.Reader
import Gazetteer.Proofs.Dict
/-!
Compact text reads back as the value that it was written from, for values made of texts, lists and
records.
-/

namespace Gazetteer.Json

/-! Tokens -/

theorem run_cons {state next : Lexing} {c : Char} {ts : List Token}
    (h : state.step c = some (next, ts)) (cs : List Char) :
    state.run (c :: cs) = (next.run cs).map (ts ++ ·) := by
  rw [Lexing.run, h]

/-- A character that completes no token only changes the state. -/
theorem run_silent {state next : Lexing} {c : Char} (h : state.step c = some (next, []))
    (cs : List Char) : state.run (c :: cs) = next.run cs := by
  rw [run_cons h]
  exact Option.map_id_apply

/-- Characters that give certain tokens, whatever follows them. -/
def Lexes (cs : List Char) (ts : List Token) : Prop :=
  ∀ rest, Lexing.ground.run (cs ++ rest) = (Lexing.ground.run rest).map (ts ++ ·)

theorem Lexes.append {as bs : List Char} {ts us : List Token} (ha : Lexes as ts)
    (hb : Lexes bs us) : Lexes (as ++ bs) (ts ++ us) := by
  intro rest
  rw [List.append_assoc, ha, hb, Option.map_map]
  congr 1
  funext vs
  exact (List.append_assoc ts us vs).symm

theorem lexes_punctuation {c : Char} {t : Token} (hspace : isSpace c = false) (hquote : c ≠ '"')
    (h : punctuation? c = some t) : Lexes [c] [t] := by
  intro rest
  rw [List.singleton_append, Lexing.run, Lexing.step, Lexing.begin, hspace, if_neg hquote, h]
  rfl

theorem lexes_openList : Lexes ['['] [.openList] :=
  lexes_punctuation (by decide) (by decide) (by decide)

theorem lexes_closeList : Lexes [']'] [.closeList] :=
  lexes_punctuation (by decide) (by decide) (by decide)

theorem lexes_openRecord : Lexes [Char.ofNat 0x7B] [.openRecord] :=
  lexes_punctuation (by decide) (by decide) (by decide)

theorem lexes_closeRecord : Lexes [Char.ofNat 0x7D] [.closeRecord] :=
  lexes_punctuation (by decide) (by decide) (by decide)

theorem lexes_comma : Lexes [','] [.comma] :=
  lexes_punctuation (by decide) (by decide) (by decide)

theorem lexes_colon : Lexes [':'] [.colon] :=
  lexes_punctuation (by decide) (by decide) (by decide)

/-! Quoted texts -/

theorem hexValue?_hexDigit {n : Nat} (h : n < 16) : hexValue? (Text.hexDigit n) = some n := by
  have hall : ∀ n < 16, hexValue? (Text.hexDigit n) = some n := by decide
  exact hall n h

private def taking (taken : List Char) : Quoted :=
  ⟨taken, none, true⟩

private theorem run_plain {taken : List Char} {c : Char} (hquote : c ≠ '"') (hslash : c ≠ '\\')
    (hcontrol : ¬c.toNat < 0x20) (rest : List Char) :
    Lexing.run (.quoted (taking taken)) (c :: rest) =
      Lexing.run (.quoted (taking (c :: taken))) rest := by
  refine run_silent ?_ rest
  rw [Lexing.step, if_neg hquote, if_neg hslash, if_neg hcontrol]
  rfl

private theorem run_backslash (taken rest : List Char) :
    Lexing.run (.quoted (taking taken)) ('\\' :: rest) = Lexing.run (.escape (taking taken)) rest :=
  run_silent rfl rest

private theorem run_escape {taken : List Char} {c e : Char} (hunit : c ≠ 'u')
    (he : escaped? c = some e) (rest : List Char) :
    Lexing.run (.quoted (taking taken)) ('\\' :: c :: rest) =
      Lexing.run (.quoted (taking (e :: taken))) rest := by
  rw [run_backslash]
  refine run_silent ?_ rest
  rw [Lexing.step, if_neg hunit, he]
  rfl

private theorem run_digit {q : Quoted} {left value digit : Nat} {c : Char}
    (hc : hexValue? c = some digit) (rest : List Char) :
    Lexing.run (.unit q (left + 1) value) (c :: rest) =
      Lexing.run (.unit q left (16 * value + digit)) rest := by
  refine run_silent ?_ rest
  rw [Lexing.step, hc]
  rfl

private theorem run_lastDigit {q : Quoted} {value digit : Nat} {c : Char}
    (hc : hexValue? c = some digit) (rest : List Char) :
    Lexing.run (.unit q 0 value) (c :: rest) =
      Lexing.run (.quoted (q.pushUnit (16 * value + digit))) rest := by
  refine run_silent ?_ rest
  rw [Lexing.step, hc]
  rfl

private theorem run_unit {taken : List Char} {c : Char} (hc : c.toNat < 0x20) (rest : List Char) :
    Lexing.run (.quoted (taking taken))
        ('\\' :: 'u' :: '0' :: '0' :: Text.hexDigit (c.toNat / 16) :: Text.hexDigit (c.toNat % 16) ::
          rest) =
      Lexing.run (.quoted (taking (c :: taken))) rest := by
  have hzero : hexValue? '0' = some 0 := rfl
  have hhigh : hexValue? (Text.hexDigit (c.toNat / 16)) = some (c.toNat / 16) :=
    hexValue?_hexDigit (by omega)
  have hlow : hexValue? (Text.hexDigit (c.toNat % 16)) = some (c.toNat % 16) :=
    hexValue?_hexDigit (by omega)
  have hvalue : 16 * (16 * (16 * (16 * 0 + 0) + 0) + c.toNat / 16) + c.toNat % 16 = c.toNat := by
    omega
  have hpush : (taking taken).pushUnit c.toNat = taking (c :: taken) := by
    rw [Quoted.pushUnit, if_neg (by omega), if_neg (by omega), Char.ofNat_toNat]
    rfl
  rw [run_backslash]
  refine (run_silent rfl _).trans ?_
  rw [run_digit hzero, run_digit hzero, run_digit hhigh, run_lastDigit hlow, hvalue, hpush]

private theorem run_escapeChar (taken : List Char) (c : Char) (rest : List Char) :
    Lexing.run (.quoted (taking taken)) (escapeChar c ++ rest) =
      Lexing.run (.quoted (taking (c :: taken))) rest := by
  have hcode {n : Nat} (h : c.toNat = n) : c = Char.ofNat n := by
    rw [← h, Char.ofNat_toNat]
  rw [escapeChar]
  split
  next h => subst h; exact run_escape (by decide) (by decide) rest
  next hquote =>
    split
    next h => subst h; exact run_escape (by decide) (by decide) rest
    next hslash =>
      split
      next h => subst h; exact run_escape (by decide) (by decide) rest
      split
      next h => subst h; exact run_escape (by decide) (by decide) rest
      split
      next h => subst h; exact run_escape (by decide) (by decide) rest
      split
      next h => rw [hcode h]; exact run_escape (by decide) (by decide) rest
      split
      next h => rw [hcode h]; exact run_escape (by decide) (by decide) rest
      split
      next hcontrol => exact run_unit hcontrol rest
      next hcontrol => exact run_plain hquote hslash hcontrol rest

private theorem run_escaped (cs taken rest : List Char) :
    Lexing.run (.quoted (taking taken)) (cs.flatMap escapeChar ++ rest) =
      Lexing.run (.quoted (taking (cs.reverse ++ taken))) rest := by
  induction cs generalizing taken with
  | nil => rfl
  | cons c cs ih =>
      rw [List.flatMap_cons, List.append_assoc, run_escapeChar, ih, List.reverse_cons,
        List.append_assoc, List.singleton_append]

theorem lexes_quoted (s : String) : Lexes (quoted s) [.text (some s)] := by
  intro rest
  have hvalue : (taking s.toList.reverse).value = some s := by
    simp [taking, Quoted.value, String.ofList_toList]
  have hclose : Lexing.step (.quoted (taking s.toList.reverse)) '"' =
      some (.ground, [.text (some s)]) := by
    rw [Lexing.step, if_pos rfl, hvalue]
  have hopen : Lexing.step .ground '"' = some (.quoted (taking []), []) := rfl
  rw [quoted, List.cons_append, List.append_assoc, run_silent hopen, run_escaped, List.append_nil]
  exact run_cons hclose rest

/-! Trees -/

/-- Tokens that make up one tree wherever a value may stand. -/
def Builds (ts : List Token) (t : Tree) : Prop :=
  ∀ awaited, awaited = .value ∨ awaited = .valueOrEnd → ∀ frames rest,
    Builder.run ⟨awaited, frames⟩ (ts ++ rest) = (Builder.put frames t).run rest

theorem builds_text (value : Option String) : Builds [.text value] (.text value) := by
  rintro _ (rfl | rfl) frames rest <;> rfl

theorem builds_emptyList : Builds [.openList, .closeList] (.list []) := by
  rintro _ (rfl | rfl) frames rest <;> rfl

theorem builds_emptyRecord : Builds [.openRecord, .closeRecord] (.record []) := by
  rintro _ (rfl | rfl) frames rest <;> rfl

/-- Tokens that go on after an item of a list, up to the end of the list. -/
def BuildsItems (ts : List Token) (trees : List Tree) : Prop :=
  ∀ taken frames rest, Builder.run ⟨.next, .list taken :: frames⟩ (ts ++ rest) =
    (Builder.put frames (.list (taken.reverse ++ trees))).run rest

theorem buildsItems_nil : BuildsItems [.closeList] [] := by
  intro taken frames rest
  rw [List.append_nil]
  rfl

theorem Builds.cons_items {ts us : List Token} {t : Tree} {trees : List Tree} (h : Builds ts t)
    (hrest : BuildsItems us trees) : BuildsItems (.comma :: (ts ++ us)) (t :: trees) := by
  intro taken frames rest
  rw [List.cons_append, List.append_assoc]
  refine (h .value (.inl rfl) (.list taken :: frames) (us ++ rest)).trans ?_
  refine (hrest (t :: taken) frames rest).trans ?_
  rw [List.reverse_cons, List.append_assoc, List.singleton_append]

theorem Builds.list {ts us : List Token} {t : Tree} {trees : List Tree} (h : Builds ts t)
    (hrest : BuildsItems us trees) : Builds (.openList :: (ts ++ us)) (.list (t :: trees)) := by
  have hopen (frames : List Frame) (rest : List Token) :
      Builder.run ⟨.valueOrEnd, .list [] :: frames⟩ (ts ++ (us ++ rest)) =
        (Builder.put frames (.list (t :: trees))).run rest :=
    (h .valueOrEnd (.inr rfl) (.list [] :: frames) (us ++ rest)).trans (hrest [t] frames rest)
  rintro _ (rfl | rfl) frames rest
  all_goals
    rw [List.cons_append, List.append_assoc]
    exact hopen frames rest

/-- Tokens that go on after a field of a record, up to the end of the record. -/
def BuildsFields (ts : List Token) (trees : List (Option String × Tree)) : Prop :=
  ∀ taken name frames rest, Builder.run ⟨.next, .record taken name :: frames⟩ (ts ++ rest) =
    (Builder.put frames (.record (taken.reverse ++ trees))).run rest

theorem buildsFields_nil : BuildsFields [.closeRecord] [] := by
  intro taken name frames rest
  rw [List.append_nil]
  rfl

theorem Builds.cons_fields {ts us : List Token} {t : Tree} {trees : List (Option String × Tree)}
    (h : Builds ts t) (hrest : BuildsFields us trees) (name : Option String) :
    BuildsFields (.comma :: .text name :: .colon :: (ts ++ us)) ((name, t) :: trees) := by
  intro taken old frames rest
  simp only [List.cons_append, List.append_assoc]
  refine (h .value (.inl rfl) (.record taken name :: frames) (us ++ rest)).trans ?_
  refine (hrest ((name, t) :: taken) none frames rest).trans ?_
  rw [List.reverse_cons, List.append_assoc, List.singleton_append]

theorem Builds.record {ts us : List Token} {t : Tree} {trees : List (Option String × Tree)}
    (h : Builds ts t) (hrest : BuildsFields us trees) (name : Option String) :
    Builds (.openRecord :: .text name :: .colon :: (ts ++ us)) (.record ((name, t) :: trees)) := by
  have hopen (frames : List Frame) (rest : List Token) :
      Builder.run ⟨.value, .record [] name :: frames⟩ (ts ++ (us ++ rest)) =
        (Builder.put frames (.record ((name, t) :: trees))).run rest :=
    (h .value (.inl rfl) (.record [] name :: frames) (us ++ rest)).trans
      (hrest [(name, t)] none frames rest)
  rintro _ (rfl | rfl) frames rest
  all_goals
    simp only [List.cons_append, List.append_assoc]
    exact hopen frames rest

/-! Values -/

/-- Values made of texts, lists and records, with at most so many levels of lists and records. -/
inductive Textual : Nat → Json → Prop
  | text {depth : Nat} (s : String) : Textual depth (.text s)
  | list {depth : Nat} {items : List Json} (h : ∀ item ∈ items, Textual depth item) :
      Textual (depth + 1) (.list items)
  | record {depth : Nat} {fields : List (String × Json)} (hasc : Ascending fields)
      (h : ∀ field ∈ fields, Textual depth field.2) : Textual (depth + 1) (.record fields)

theorem ofFields_eq (fields : List (String × Json)) :
    ofFields fields = .record (Dict.ofList fields).entries := by
  have hentries (d : Dict Json) :
      fields.foldl (fun entries field => insertEntry field.1 field.2 entries) d.entries =
        (fields.foldl (fun d field => d.insert field.1 field.2) d).entries := by
    induction fields generalizing d with
    | nil => rfl
    | cons field rest ih => exact ih (d.insert field.1 field.2)
  exact congrArg record (hentries .empty)

theorem Textual.ofFields {depth : Nat} {fields : List (String × Json)}
    (h : ∀ field ∈ fields, Textual depth field.2) : Textual (depth + 1) (ofFields fields) := by
  rw [ofFields_eq]
  exact .record (Dict.ofList fields).ascending fun field hfield =>
    h field (Dict.mem_of_mem_ofList hfield)

def Reads (depth : Nat) (j : Json) : Prop :=
  ∃ ts t, Lexes j.write ts ∧ Builds ts t ∧ t.value? depth = some j

theorem ofFields_of_ascending {fields : List (String × Json)} (h : Ascending fields) :
    ofFields fields = .record fields := by
  rw [ofFields_eq, Dict.ofList_entries ⟨fields, h⟩]

private theorem reads_items {depth : Nat} {items : List Json}
    (h : ∀ item ∈ items, Reads depth item) :
    ∃ ts trees, Lexes (writeItems items) ts ∧ BuildsItems ts trees ∧
      Tree.values? depth trees = some items := by
  induction items with
  | nil => exact ⟨_, [], lexes_closeList, buildsItems_nil, by rw [Tree.values?]⟩
  | cons item rest ih =>
      obtain ⟨ts, t, hlex, hbuild, hvalue⟩ := h item List.mem_cons_self
      obtain ⟨us, trees, hlexes, hbuilds, hvalues⟩ := ih fun j hj => h j (List.mem_cons_of_mem _ hj)
      refine ⟨_, _, lexes_comma.append (hlex.append hlexes), hbuild.cons_items hbuilds, ?_⟩
      rw [Tree.values?, hvalue, hvalues]
      rfl

private theorem reads_fields {depth : Nat} {fields : List (String × Json)}
    (h : ∀ field ∈ fields, Reads depth field.2) :
    ∃ ts trees, Lexes (writeFields fields) ts ∧ BuildsFields ts trees ∧
      Tree.entries? depth trees = some fields := by
  induction fields with
  | nil => exact ⟨_, [], lexes_closeRecord, buildsFields_nil, by rw [Tree.entries?]⟩
  | cons field rest ih =>
      obtain ⟨name, value⟩ := field
      obtain ⟨ts, t, hlex, hbuild, hvalue⟩ := h (name, value) List.mem_cons_self
      obtain ⟨us, trees, hlexes, hbuilds, hvalues⟩ := ih fun j hj => h j (List.mem_cons_of_mem _ hj)
      refine ⟨_, _, lexes_comma.append ((lexes_quoted name).append
        (lexes_colon.append (hlex.append hlexes))), hbuild.cons_fields hbuilds (some name), ?_⟩
      rw [Tree.entries?, Option.bind_some, hvalue, hvalues]
      rfl

theorem Textual.reads {depth : Nat} {j : Json} (h : Textual depth j) : Reads depth j := by
  induction h with
  | text s => exact ⟨_, _, lexes_quoted s, builds_text _, by rw [Tree.value?]; rfl⟩
  | @list depth items _ ih =>
      cases items with
      | nil =>
          exact ⟨_, _, lexes_openList.append lexes_closeList, builds_emptyList, rfl⟩
      | cons item rest =>
          obtain ⟨ts, t, hlex, hbuild, hvalue⟩ := ih item List.mem_cons_self
          obtain ⟨us, trees, hlexes, hbuilds, hvalues⟩ :=
            reads_items fun j hj => ih j (List.mem_cons_of_mem _ hj)
          refine ⟨_, _, lexes_openList.append (hlex.append hlexes), hbuild.list hbuilds, ?_⟩
          rw [Tree.value?, Tree.values?, hvalue, hvalues]
          rfl
  | @record depth fields hasc _ ih =>
      cases fields with
      | nil =>
          exact ⟨_, _, lexes_openRecord.append lexes_closeRecord, builds_emptyRecord, rfl⟩
      | cons field rest =>
          obtain ⟨name, value⟩ := field
          obtain ⟨ts, t, hlex, hbuild, hvalue⟩ := ih (name, value) List.mem_cons_self
          obtain ⟨us, trees, hlexes, hbuilds, hvalues⟩ :=
            reads_fields fun j hj => ih j (List.mem_cons_of_mem _ hj)
          refine ⟨_, _, lexes_openRecord.append ((lexes_quoted name).append
            (lexes_colon.append (hlex.append hlexes))), hbuild.record hbuilds (some name), ?_⟩
          rw [Tree.value?, Tree.entries?, Option.bind_some, hvalue, hvalues]
          exact congrArg some (ofFields_of_ascending hasc)

/-- The compact text of a value made of texts, lists and records reads back as this value. -/
theorem ofText?_compact {j : Json} (h : Textual depthLimit j) : ofText? j.compact = some j := by
  obtain ⟨ts, t, hlex, hbuild, hvalue⟩ := h.reads
  have htokens : tokens? j.compact.toList = some ts := by
    have hrun := hlex []
    rw [List.append_nil] at hrun
    rw [tokens?, compact, String.toList_ofList, hrun]
    exact congrArg some (List.append_nil ts)
  have htree : Builder.start.run ts = some ⟨.nothing t, []⟩ := by
    have hrun := hbuild .value (.inl rfl) [] []
    rwa [List.append_nil] at hrun
  rw [ofText?, Tree.ofText?, htokens, Option.bind_some, htree]
  exact hvalue

end Gazetteer.Json
