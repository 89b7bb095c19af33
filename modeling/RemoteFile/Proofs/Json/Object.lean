import Mathlib.Data.List.Forall2
import RemoteFile.Proofs.Json.Token

/-!
# Objects in text

How the text of an object spells its members, and what a record is loaded from it: the default with
the fields replaced that are given, one by one in the order of the text. Blanks may stand between
any two tokens. Members of other names have any values that the grammar derives.

Main statements:

* `objectText_object` : what is written is the text of an object with these members.
* `load_of_object` : what is loaded from the text of an object.
* `load_of_partial` : what is loaded from some of the members that are written.
-/

namespace RemoteFile

namespace Json

/-! ### Members -/

/-- What stands between the braces of an object, given the names and the values of its members. -/
inductive Members : List (String × List Char) → List Char → Prop
  /-- The last member. -/
  | last {name : String} {b k b₁ b₂ v b' : List Char} (hb : Blanks b)
      (hk : Spelling k name.toList) (hb₁ : Blanks b₁) (hb₂ : Blanks b₂) (hb' : Blanks b') :
      Members [(name, v)] (b ++ '"' :: (k ++ '"' :: (b₁ ++ ':' :: (b₂ ++ (v ++ b')))))
  /-- A member and those after it. -/
  | cons {name : String} {b k b₁ b₂ v b' s : List Char} {l : List (String × List Char)}
      (hb : Blanks b) (hk : Spelling k name.toList) (hb₁ : Blanks b₁) (hb₂ : Blanks b₂)
      (hb' : Blanks b') (hs : Members l s) :
      Members ((name, v) :: l)
        (b ++ '"' :: (k ++ '"' :: (b₁ ++ ':' :: (b₂ ++ (v ++ (b' ++ ',' :: s))))))

/-- The text of an object, given the names and the values of its members. -/
inductive ObjectText : List (String × List Char) → List Char → Prop
  /-- It has no members. -/
  | empty {b b₁ b' : List Char} (hb : Blanks b) (hb₁ : Blanks b₁) (hb' : Blanks b') :
      ObjectText [] (b ++ '\x7b' :: (b₁ ++ '\x7d' :: b'))
  /-- It has members. -/
  | members {l : List (String × List Char)} {b s b' : List Char} (hb : Blanks b)
      (hs : Members l s) (hb' : Blanks b') :
      ObjectText l (b ++ '\x7b' :: (s ++ '\x7d' :: b'))

variable {b r s : List Char} {ρ : Type} {fields : List (RecordField ρ)} {put : String → ρ → ρ}
  {l : List (String × List Char)} {seen : List String} {record : ρ}

/-- The field reads its value from this text and puts it into the record. -/
def RecordField.Reads (f : RecordField ρ) (v : List Char) (put : ρ → ρ) : Prop :=
  ∀ record b r, Blanks b → Closes r → f.read record (b ++ (v ++ r)) = .ok (put record, r)

/-- A member that can be read: either it has the name of a field, which puts its value into the
record, or its value is passed over. -/
structure Understood (fields : List (RecordField ρ)) (put : String → ρ → ρ)
    (e : String × List Char) : Prop where
  /-- A field. -/
  known : ∀ f, fields.find? (·.name == e.1) = some f → f.Reads e.2 (put e.1)
  /-- No field. -/
  unknown : fields.find? (·.name == e.1) = none →
    Spells .value e.2 ∧ ∀ record, put e.1 record = record

/-- The names of fields among those of the members. -/
def given (fields : List (RecordField ρ)) (l : List (String × List Char)) : List String :=
  (l.map Prod.fst).filter fun name => (fields.find? (·.name == name)).isSome

theorem Members.length_le (h : Members l s) : l.length ≤ s.length := by
  induction h with
  | last => simp only [List.length_append, List.length_cons, List.length_nil]; omega
  | cons _ _ _ _ _ _ ih => simp only [List.length_append, List.length_cons] at ih ⊢; omega

theorem nextKey_first (hb : Blanks b) : nextKey true (b ++ '"' :: r) = .ok (true, r) := by
  unfold nextKey
  rw [skipBlanks_append hb rfl]
  rfl

theorem nextKey_later {b' : List Char} (hb : Blanks b) (hb' : Blanks b') :
    nextKey false (b ++ ',' :: (b' ++ '"' :: r)) = .ok (true, r) := by
  have hcomma := skipBlanks_append (r := b' ++ '"' :: r) hb (c := ',') rfl
  have hquote := skipBlanks_append (r := r) hb' (c := '"') rfl
  simp only [nextKey, hcomma, hquote]

theorem nextKey_end {first : Bool} (hb : Blanks b) :
    nextKey first (b ++ '\x7d' :: r) = .ok (false, r) := by
  unfold nextKey
  rw [skipBlanks_append hb rfl]
  rfl

/-- The next member is looked for after a comma as the first one is without. -/
theorem Members.nextKey_eq (h : Members l s) (hb : Blanks b) :
    nextKey false (b ++ ',' :: (s ++ r)) = nextKey true (s ++ r) := by
  cases h with
  | last hb₀ | cons hb₀ =>
    rw [List.append_assoc, List.cons_append, nextKey_later hb hb₀, nextKey_first hb₀]

theorem colon_blanks (hb : Blanks b) : colon (b ++ ':' :: r) = .ok r := by
  unfold colon
  rw [skipBlanks_append hb rfl]
  rfl

theorem given_cons (e : String × List Char) (l : List (String × List Char)) :
    given fields (e :: l) = given fields [e] ++ given fields l := by
  simp only [given, List.map_cons, List.map_nil]
  exact List.filter_append [e.1] _

theorem member_understood (record : ρ) {e : String × List Char} {b₁ b₂ : List Char}
    (he : Understood fields put e) (hseen : ∀ name ∈ given fields [e], name ∉ seen)
    (hb₁ : Blanks b₁) (hb₂ : Blanks b₂) (hr : Closes r) :
    member fields seen e.1 record (b₁ ++ ':' :: (b₂ ++ (e.2 ++ r))) =
      .ok (given fields [e] ++ seen, put e.1 record, r) := by
  have hgiven : given fields [e] =
      if (fields.find? (·.name == e.1)).isSome then [e.1] else [] := by
    simp [given, List.filter_cons]
  rw [hgiven] at hseen
  rw [member, hgiven]
  cases hf : fields.find? (·.name == e.1) with
  | none =>
    obtain ⟨hspells, hput⟩ := he.unknown hf
    simp only [colon_blanks hb₁, bind, Except.bind, skip_value hb₂ hspells hr, hput]
    rfl
  | some f =>
    have hnot : seen.contains e.1 = false := by
      rw [hf] at hseen
      simpa using hseen e.1 List.mem_cons_self
    simp only [hnot, colon_blanks hb₁, bind, Except.bind, he.known f hf record b₂ r hb₂ hr]
    rfl

theorem members_turn {name : String} {v k b₁ b₂ x : List Char} {first : Bool} {fuel : Nat}
    (hkey : nextKey first x = .ok (true, k ++ '"' :: (b₁ ++ ':' :: (b₂ ++ (v ++ r)))))
    (hk : Spelling k name.toList) (he : Understood fields put (name, v))
    (hseen : ∀ name' ∈ given fields [(name, v)], name' ∉ seen)
    (hb₁ : Blanks b₁) (hb₂ : Blanks b₂) (hr : Closes r) :
    members fields (fuel + 1) first seen record x =
      members fields fuel false (given fields [(name, v)] ++ seen) (put name record) r := by
  have hmember := member_understood record he hseen hb₁ hb₂ hr
  simp only [members, hkey, quotedString_spelling hk, hmember, bind, Except.bind]
  rfl

theorem members_eq {x : List Char} {first : Bool} {fuel : Nat} (h : Members l s)
    (hl : ∀ e ∈ l, Understood fields put e) (hgiven : (given fields l ++ seen).Nodup)
    (hfuel : l.length < fuel) (hkey : nextKey first x = nextKey true (s ++ '\x7d' :: r)) :
    members fields fuel first seen record x =
      .ok (l.foldl (fun record e => put e.1 record) record, r) := by
  have hclose {b c t} (hb : Blanks b) (hc : c = ',' ∨ c = '\x7d') : Closes (b ++ c :: t) := by
    refine hb.closes ?_
    rintro c' ⟨⟩
    rcases hc with rfl | rfl <;> decide
  induction h generalizing fuel first seen record x with
  | @last name b k b₁ b₂ v b' hb hk hb₁ hb₂ hb' =>
    obtain ⟨fuel, rfl⟩ : ∃ n, fuel = n + 2 := ⟨fuel - 2, by simp at hfuel; omega⟩
    have hseen := (List.nodup_append.1 hgiven).2.2
    simp only [List.append_assoc, List.cons_append] at hkey
    rw [nextKey_first hb] at hkey
    rw [members_turn hkey hk (hl _ List.mem_cons_self) (fun _ h h' => hseen _ h _ h' rfl) hb₁ hb₂
      (hclose hb' (.inr rfl)), members, nextKey_end hb']
    rfl
  | @cons name b k b₁ b₂ v b' s l hb hk hb₁ hb₂ hb' hs ih =>
    obtain ⟨fuel, rfl⟩ : ∃ n, fuel = n + 1 := ⟨fuel - 1, by simp at hfuel; omega⟩
    rw [given_cons, List.append_assoc] at hgiven
    have hseen := (List.nodup_append.1 hgiven).2.2
    simp only [List.append_assoc, List.cons_append] at hkey
    rw [nextKey_first hb] at hkey
    rw [members_turn hkey hk (hl _ List.mem_cons_self)
      (fun _ h h' => hseen _ h _ (List.mem_append_right _ h') rfl) hb₁ hb₂ (hclose hb' (.inl rfl))]
    refine ih (fun e he => hl e (List.mem_cons_of_mem _ he)) ?_ (Nat.lt_of_succ_lt_succ hfuel)
      (hs.nextKey_eq hb')
    -- the name has moved from the members that are still to come to those that were seen
    rw [← List.append_assoc]
    refine (List.Perm.nodup_iff ?_).2 hgiven
    rw [← List.append_assoc]
    exact List.perm_append_comm.append_right _

/-! ### Written objects -/

/-- The members as they are given: names, and texts of values. -/
def texts (ms : List (String × String)) : List (String × List Char) :=
  ms.map fun m => (m.1, m.2.toList)

theorem texts_cons (m : String × String) (ms : List (String × String)) :
    texts (m :: ms) = (m.1, m.2.toList) :: texts ms := rfl

theorem members_texts (m : String × String) (ms : List (String × String)) :
    Members (texts (m :: ms))
      ((String.intercalate "," ((m :: ms).map fun m => string m.1 ++ ":" ++ m.2)).toList) := by
  induction ms generalizing m with
  | nil =>
    obtain ⟨k, htext, hk⟩ := spelling_string m.1
    have hlast := Members.last (v := m.2.toList) blanks_nil hk blanks_nil blanks_nil blanks_nil
    simpa [texts, htext] using hlast
  | cons m' ms ih =>
    obtain ⟨k, htext, hk⟩ := spelling_string m.1
    have hcons :=
      Members.cons (v := m.2.toList) blanks_nil hk blanks_nil blanks_nil blanks_nil (ih m')
    simpa [texts_cons, htext, String.toList_intercalate, List.intercalate_cons_cons] using hcons

/-- What is written is the text of an object with these members. -/
theorem objectText_object (ms : List (String × String)) :
    ObjectText (texts ms) (object ms).toList := by
  cases ms with
  | nil => exact .empty blanks_nil blanks_nil blanks_nil
  | cons m ms =>
    have hobject := ObjectText.members blanks_nil (members_texts m ms) blanks_nil
    simpa [object] using hobject

/-! ### Records -/

/-- **What a record is loaded from.** From the text of an object whose members can be read, no field
being given twice, comes the default with one member after the other put into it. -/
theorem load_of_object {text : String} {default : ρ} (h : ObjectText l text.toList)
    (hl : ∀ e ∈ l, Understood fields put e) (hgiven : (given fields l).Nodup) :
    load fields default text = .ok (l.foldl (fun record e => put e.1 record) default) := by
  have hblank {b : List Char} (hb : Blanks b) : (skipBlanks b).isEmpty = true := by
    have hdrop : (b ++ []).dropWhile isBlank = [] := List.dropWhile_append_of_pos hb
    rw [List.append_nil] at hdrop
    rw [skipBlanks, hdrop]
    rfl
  have hopen {b t : List Char} (hb : Blanks b) :
      record fields default (b ++ '\x7b' :: t) =
        members fields (t.length + 1) true [] default t := by
    rw [record, skipBlanks_append hb rfl]
    rfl
  generalize htext : text.toList = s at h
  rw [load, htext]
  cases h with
  | empty hb hb₁ hb' =>
    rw [hopen hb, members, nextKey_end hb₁]
    exact if_pos (hblank hb')
  | @members l b s b' hb hs hb' =>
    have hlength := hs.length_le
    rw [hopen hb, members_eq hs hl (by rwa [List.append_nil])
      (by rw [List.length_append]; omega) rfl]
    exact if_pos (hblank hb')

/-! ### Some of the members -/

/-- The members of an object that gives some of the fields that are written, in any order and each
at most once, among members of other names with any values. -/
structure Partial (written : List (String × String)) (l : List (String × List Char)) : Prop where
  /-- A field is given by what is written for it. -/
  known : ∀ e ∈ l, e.1 ∈ written.map Prod.fst → (e.1, String.ofList e.2) ∈ written
  /-- Anything else is a value. -/
  unknown : ∀ e ∈ l, e.1 ∉ written.map Prod.fst → Spells .value e.2
  /-- No field is given twice. -/
  once : ((l.map Prod.fst).filter (· ∈ written.map Prod.fst)).Nodup

theorem partial_texts {written : List (String × String)} (h : (written.map Prod.fst).Nodup) :
    Partial written (texts written) := by
  have hnames : (texts written).map Prod.fst = written.map Prod.fst := by
    simp [texts, Function.comp_def]
  refine ⟨?_, ?_, ?_⟩
  · rintro e he -
    obtain ⟨m, hm, rfl⟩ := List.mem_map.1 he
    rwa [String.ofList_toList]
  · intro e he hnot
    exact absurd (hnames ▸ List.mem_map_of_mem he) hnot
  · rw [hnames]
    exact h.filter _

/-- Fields of a record are replaced by their names, one after the other. -/
structure Replaces (names : List String) (take : List String → ρ → ρ) : Prop where
  /-- None. -/
  nil : ∀ record, take [] record = record
  /-- One and then the others. -/
  cons : ∀ name rest record, take (name :: rest) record = take rest (take [name] record)
  /-- There are no other fields. -/
  unknown : ∀ name ∉ names, ∀ record, take [name] record = record

/-- The field has the name of this member, and reads its value. -/
def RecordField.Restores (take : List String → ρ → ρ) (f : RecordField ρ)
    (m : String × String) : Prop :=
  f.name = m.1 ∧ f.Reads m.2.toList (take [m.1])

variable {take : List String → ρ → ρ} {written : List (String × String)} {name v : String}

theorem Replaces.foldl_eq {names : List String} (h : Replaces names take) :
    l.foldl (fun record e => take [e.1] record) record = take (l.map Prod.fst) record := by
  induction l generalizing record with
  | nil => exact (h.nil record).symm
  | cons e l ih => rw [List.foldl_cons, ih, List.map_cons, ← h.cons]

theorem find?_isSome_iff (h : List.Forall₂ (RecordField.Restores take) fields written) :
    (fields.find? (·.name == name)).isSome = true ↔ name ∈ written.map Prod.fst := by
  have hnames : fields.map (·.name) = written.map Prod.fst := by
    induction h with
    | nil => rfl
    | cons hf _ ih => rw [List.map_cons, List.map_cons, hf.1, ih]
  rw [List.find?_isSome, ← hnames, List.mem_map]
  simp only [beq_iff_eq]

theorem reads_of_mem (h : List.Forall₂ (RecordField.Restores take) fields written)
    (hnames : (written.map Prod.fst).Nodup) {f : RecordField ρ}
    (hf : fields.find? (·.name == name) = some f) (hv : (name, v) ∈ written) :
    f.Reads v.toList (take [name]) := by
  induction h with
  | nil => cases hf
  | @cons f' m _ _ hfirst _ ih =>
    rw [List.map_cons, List.nodup_cons] at hnames
    rcases List.mem_cons.1 hv with rfl | hlater
    · rw [List.find?_cons_of_pos (by simpa using hfirst.1)] at hf
      cases hf
      exact hfirst.2
    · have hne : m.1 ≠ name := by
        rintro rfl
        exact hnames.1 (List.mem_map.2 ⟨_, hlater, rfl⟩)
      rw [List.find?_cons_of_neg (by simpa [hfirst.1] using hne)] at hf
      exact ih hnames.2 hf hlater

/-- **What is loaded from some of the members.** From an object that gives some of the fields that
are written for a record comes the default with these fields replaced. -/
theorem load_of_partial {text : String} {default : ρ} (htake : Replaces (written.map Prod.fst) take)
    (hfields : List.Forall₂ (RecordField.Restores take) fields written)
    (hnames : (written.map Prod.fst).Nodup) (h : ObjectText l text.toList)
    (hl : Partial written l) :
    load fields default text = .ok (take (l.map Prod.fst) default) := by
  have hfound (name : String) :
      (fields.find? (·.name == name)).isSome = true ↔ name ∈ written.map Prod.fst :=
    find?_isSome_iff hfields
  have hunderstood : ∀ e ∈ l, Understood fields (fun name => take [name]) e := by
    intro e he
    refine ⟨fun f hf => ?_, fun hf => ?_⟩
    · have hmem := hl.known e he ((hfound e.1).1 (by rw [hf]; rfl))
      simpa using reads_of_mem hfields hnames hf hmem
    · have hnot : e.1 ∉ written.map Prod.fst := fun hmem => by
        have hsome := (hfound e.1).2 hmem
        rw [hf] at hsome
        cases hsome
      exact ⟨hl.unknown e he hnot, htake.unknown e.1 hnot⟩
  have hgiven : (given fields l).Nodup := by
    have hsame : given fields l = (l.map Prod.fst).filter (· ∈ written.map Prod.fst) :=
      List.filter_congr fun name _ => by
        rw [Bool.eq_iff_iff, hfound name, decide_eq_true_eq]
    rw [hsame]
    exact hl.once
  rw [load_of_object h hunderstood hgiven, htake.foldl_eq]

end Json

end RemoteFile
