import HeapWatch.Proofs.Json.Passing
/-!
# Records are read by their fields

From an object a record takes the members that it has fields for, wherever they stand, and passes
over the others. From a list it takes the values of its first fields, one after the other. What is
not given has its default, in both forms, and the record is complete if every field then has a
value.
-/

namespace HeapWatch.Json

namespace Shape

variable {α : Type} {n : Nat}

/-! ## Found values -/

theorem ext_get {β : Type} {first second : Vector β n} (h : ∀ i : Fin n, first.get i = second.get i) :
    first = second := Vector.ext fun i hi => h ⟨i, hi⟩

@[simp] theorem get_ofFn {β : Type} (f : Fin n → β) (i : Fin n) : (Vector.ofFn f).get i = f i :=
  Vector.getElem_ofFn i.isLt

theorem get_set_self {β : Type} (values : Vector β n) (i : Fin n) (value : β) :
    (values.set i value i.isLt).get i = value := Vector.getElem_set_self i.isLt

theorem get_set_of_ne {β : Type} (values : Vector β n) {i j : Fin n} (h : i ≠ j) (value : β) :
    (values.set i value i.isLt).get j = values.get j :=
  Vector.getElem_set_ne i.isLt j.isLt fun e => h (Fin.ext e)

@[simp] theorem get_nothing (i : Fin n) : (Vector.replicate n (none : Option α)).get i = none :=
  Vector.getElem_replicate i.isLt

@[simp] theorem get_keep_self (found : Vector (Option α) n) (i : Fin n) (value : α) :
    (keep found i value).get i = some value := Vector.getElem_set_self i.isLt

theorem keep_keep_self (found : Vector (Option α) n) (i : Fin n) (a b : α) :
    keep (keep found i a) i b = keep found i b := by
  refine ext_get fun j => ?_
  by_cases hij : i = j
  · subst hij
    simp
  · rw [get_keep_of_ne _ hij, get_keep_of_ne found hij, get_keep_of_ne found hij]

theorem keep_comm (found : Vector (Option α) n) {i j : Fin n} (h : i ≠ j) (a b : α) :
    keep (keep found i a) j b = keep (keep found j b) i a :=
  Vector.set_comm (some a) (some b) fun e => h (Fin.ext e)

/-- What was found, and what is given where nothing was found. -/
def together (found given : Vector (Option α) n) : Vector (Option α) n :=
  Vector.ofFn fun i => (found.get i).or (given.get i)

@[simp] theorem get_together (found given : Vector (Option α) n) (i : Fin n) :
    (together found given).get i = (found.get i).or (given.get i) := get_ofFn _ i

theorem together_nothing (found : Vector (Option α) n) :
    together found (Vector.replicate n none) = found := ext_get fun i => by simp

theorem nothing_together (given : Vector (Option α) n) :
    together (Vector.replicate n none) given = given := ext_get fun i => by simp

/-- A value may be found before the others or given with them. -/
theorem together_keep {found : Vector (Option α) n} {i : Fin n} (h : found.get i = none)
    (given : Vector (Option α) n) (value : α) :
    together (keep found i value) given = together found (keep given i value) := by
  refine ext_get fun j => ?_
  rw [get_together, get_together]
  by_cases hij : i = j
  · subst hij
    simp [h]
  · rw [get_keep_of_ne found hij, get_keep_of_ne given hij]

/-- **A record is complete** if every field has a value or a default. -/
theorem complete_eq_ok_iff {sh : Shape α n} {found : Vector (Option α) n} {values : Vector α n} :
    sh.complete found = .ok values ↔ ∀ i : Fin n, sh.value? found i = some (values.get i) := by
  unfold complete
  split
  · rename_i i hi
    constructor
    · intro h
      cases h
    · intro h
      have missing := List.find?_some hi
      rw [h i] at missing
      exact absurd missing Bool.false_ne_true
  · rw [Except.ok.injEq]
    constructor
    · rintro rfl i
      rw [get_ofFn]
      exact (Option.some_get _).symm
    · intro h
      refine ext_get fun i => ?_
      rw [get_ofFn]
      exact Option.get_of_eq_some _ (h i)

/-- **An incomplete record lacks its first field** without a value. -/
theorem complete_eq_error {sh : Shape α n} {found : Vector (Option α) n} {i : Fin n}
    (h : sh.value? found i = none) :
    ∃ j, sh.complete found = .error j ∧ sh.value? found j = none ∧
      ∀ k < j, sh.value? found k ≠ none := by
  unfold complete
  split
  · rename_i j hj
    obtain ⟨missing, before, after, e, present⟩ := List.find?_eq_some_iff_append.1 hj
    refine ⟨j, rfl, Option.isNone_iff_eq_none.1 missing, fun k hk => ?_⟩
    have mem := List.mem_finRange k
    have sorted := List.pairwise_lt_finRange n
    rw [e] at mem sorted
    rcases List.mem_append.1 mem with hb | ha
    · intro none
      have value := present k hb
      rw [none] at value
      exact Bool.false_ne_true value
    · -- the fields after `j` are greater
      obtain ⟨-, after, -⟩ := List.pairwise_append.1 sorted
      rcases List.mem_cons.1 ha with rfl | ha
      · exact absurd hk (Nat.lt_irrefl _)
      · exact absurd hk (Nat.lt_asymm ((List.pairwise_cons.1 after).1 k ha))
  · rename_i hnone
    have present := List.find?_eq_none.1 hnone i (List.mem_finRange i)
    rw [h] at present
    exact absurd rfl present

theorem objectOutcome_eq_ok_iff {sh : Shape α n} {found : Vector (Option α) n}
    {values : Vector α n} :
    sh.objectOutcome found = .ok values ↔ ∀ i : Fin n, sh.value? found i = some (values.get i) := by
  rw [← complete_eq_ok_iff, objectOutcome]
  split <;> simp_all

theorem listOutcome_eq_ok_iff {sh : Shape α n} {found : Vector (Option α) n} {length : Nat}
    {values : Vector α n} :
    sh.listOutcome found length = .ok values ↔
      ∀ i : Fin n, sh.value? found i = some (values.get i) := by
  rw [← complete_eq_ok_iff, listOutcome]
  split <;> simp_all

/-! ## Objects -/

/-- **What the members of an object give** to the fields of a record. A member that is named like a
field gives the field a value that is accepted for it, and no other member gives one to that field.
The others may be anything. -/
inductive Gives (sh : Shape α n) (accepted : Tokens → α → Prop) :
    List Member → Vector (Option α) n → Prop where
  | none : Gives sh accepted [] (Vector.replicate n none)
  | field {m : Member} {members : List Member} {given : Vector (Option α) n} {i : Fin n} {value : α}
      (name : Spells m.key (ascii (sh.fields.get i))) (ha : accepted m.value value)
      (new : given.get i = Option.none) (others : Gives sh accepted members given) :
      Gives sh accepted (m :: members) (keep given i value)
  | other {m : Member} {members : List Member} {given : Vector (Option α) n} {name : Bytes}
      (hk : Spells m.key name) (hn : ∀ i : Fin n, ascii (sh.fields.get i) ≠ name)
      (hv : IsValue m.value) (others : Gives sh accepted members given) :
      Gives sh accepted (m :: members) given

theorem Gives.mono {sh : Shape α n} {accepted accepted' : Tokens → α → Prop}
    (hm : ∀ {tokens : Tokens} {value : α}, accepted tokens value → accepted' tokens value)
    {members : List Member} {given : Vector (Option α) n} (h : sh.Gives accepted members given) :
    sh.Gives accepted' members given := by
  induction h with
  | none => exact none
  | field name ha new _ ih => exact field name (hm ha) new ih
  | other hk hn hv _ ih => exact other hk hn hv ih

/-- **One member among others**, named like a field: the field has the value that is accepted for it,
and has another if another is accepted in its place. -/
theorem Gives.focus {sh : Shape α n} {accepted : Tokens → α → Prop} (hw : sh.WellNamed)
    {before after : List Member} {key : Bytes} {part : Tokens} {i : Fin n}
    (name : Spells key (ascii (sh.fields.get i))) {given : Vector (Option α) n}
    (h : sh.Gives accepted (before ++ ⟨key, part⟩ :: after) given) :
    ∃ a, accepted part a ∧ given.get i = some a ∧ ∀ {part' : Tokens} {b : α}, accepted part' b →
      sh.Gives accepted (before ++ ⟨key, part'⟩ :: after) (keep given i b) := by
  induction before generalizing given with
  | nil =>
    cases h with
    | @field _ _ given j a name' ha new others =>
      obtain rfl : j = i := hw.distinct j i (name'.unique name)
      refine ⟨a, ha, get_keep_self given j a, fun {part' b} hb => ?_⟩
      rw [keep_keep_self]
      exact field name hb new others
    | other hk hn hv others => exact absurd (name.unique hk) (hn i)
  | cons first before ih =>
    cases h with
    | @field _ _ given j value name' hvalue new others =>
      obtain ⟨a, ha, hi, replaced⟩ := ih others
      have hji : j ≠ i := by
        rintro rfl
        exact Option.some_ne_none a (hi.symm.trans new)
      refine ⟨a, ha, (get_keep_of_ne given hji value).trans hi, fun {part' b} hb => ?_⟩
      rw [keep_comm given hji]
      exact field name' hvalue ((get_keep_of_ne given (Ne.symm hji) b).trans new) (replaced hb)
    | other hk hn hv others =>
      obtain ⟨a, ha, hi, replaced⟩ := ih others
      exact ⟨a, ha, hi, fun hb => other hk hn hv (replaced hb)⟩

theorem nextKey_member {m : Member} {more : Tokens} {first : Bool} {text rest : Bytes}
    (ht : Begins (separator first ++ (m.tokens ++ more)) text rest) :
    ∃ s, nextKey first text = .ok (true, m.key ++ Byte.quote :: s) ∧
      Begins ([Byte.colon] :: (m.value ++ more)) s rest := by
  obtain ⟨s, hk, hs⟩ := nextKey_item ht
  rw [List.append_assoc] at hk
  exact ⟨s, hk, hs⟩

/-- **A member that is named like a field** and that no other came before is found. -/
theorem readMembers_named {sh : Shape α n} (hw : sh.WellNamed) {first : Bool}
    {found : Vector (Option α) n} {i : Fin n} (hf : found.get i = none) {m : Member} {value : α}
    (name : Spells m.key (ascii (sh.fields.get i))) (ha : sh.reader.Accepts m.value value)
    {more : Tokens} (he : EndsValue more) {text rest : Bytes}
    (ht : Begins (separator first ++ (m.tokens ++ more)) text rest) :
    ∃ s, sh.readMembers first found text = sh.readMembers false (keep found i value) s ∧
      Begins more s rest := by
  obtain ⟨s, hk, hs⟩ := nextKey_member ht
  obtain ⟨s₁, hc, hs₁⟩ := hs.skipBlanks_cons rfl
  obtain ⟨s₂, hv, hmore⟩ := hs₁.of_append
  have read : sh.readField s = .ok (value, s₂) := by
    rw [readField, scanColon_of_skipBlanks hc]
    exact ha.reads hv (he.endsNumber hmore)
  exact ⟨s₂, readMembers_field hk (scanText_append name s) (hw.index?_name i) hf read, hmore⟩

/-- **A member of another name** is passed over. -/
theorem readMembers_other {sh : Shape α n} {first : Bool} {found : Vector (Option α) n} {m : Member}
    {name : Bytes} (spelled : Spells m.key name) (hn : ∀ i : Fin n, ascii (sh.fields.get i) ≠ name)
    (hv : IsValue m.value) {more : Tokens} (he : EndsValue more) {text rest : Bytes}
    (ht : Begins (separator first ++ (m.tokens ++ more)) text rest) :
    ∃ s, sh.readMembers first found text = sh.readMembers false found s ∧ Begins more s rest := by
  obtain ⟨s, hk, hs⟩ := nextKey_member ht
  obtain ⟨s₁, hc, hs₁⟩ := hs.skipBlanks_cons rfl
  obtain ⟨s₂, hb, hmore⟩ := hs₁.of_append
  have passed : skipMember s = .ok s₂ := by
    rw [skipMember, scanColon_of_skipBlanks hc]
    exact skipValue_of_isValue hv hb (he.endsNumber hmore)
  refine ⟨s₂, ?_, hmore⟩
  rw [readMembers_of_key hk, scanText_append spelled s]
  dsimp only
  rw [index?_eq_none_iff.2 hn]
  dsimp only
  rw [passed]

/-- **What the members give is found**, in whatever order they come. -/
theorem readMembers_of_gives {sh : Shape α n} (hw : sh.WellNamed) {members : List Member}
    {given : Vector (Option α) n} (h : sh.Gives sh.reader.Accepts members given) {first : Bool}
    {found : Vector (Option α) n} (hf : ∀ i : Fin n, given.get i ≠ none → found.get i = none)
    {more : Tokens} {text rest : Bytes}
    (ht : Begins (separated first (members.map Member.tokens) ++ [Byte.closeObject] :: more)
      text rest) :
    ∃ s, sh.readMembers first found text =
        .ok (sh.objectOutcome (together found given), Byte.closeObject :: s) ∧
      Begins more s rest := by
  induction h generalizing first found text with
  | none =>
    obtain ⟨s, hk, hr⟩ := nextKey_closeObject first ht
    exact ⟨s, by rw [readMembers_end hk, together_nothing], hr⟩
  | @field m members given i value name ha new _ ih =>
    have free : found.get i = Option.none := hf i (by simp)
    rw [List.map_cons, separated, List.append_assoc, List.append_assoc] at ht
    obtain ⟨s, hm, hs⟩ :=
      readMembers_named hw free name ha (endsValue_separated _ (Or.inr rfl)) ht
    -- the field was not found yet, so its value may as well be found first
    have rest : ∀ j : Fin n, given.get j ≠ Option.none →
        (keep found i value).get j = Option.none := by
      intro j hj
      have hij : i ≠ j := by
        rintro rfl
        exact hj new
      rw [get_keep_of_ne found hij]
      exact hf j (by rwa [get_keep_of_ne given hij])
    obtain ⟨s', hl, hr⟩ := ih rest hs
    exact ⟨s', by rw [hm, hl, together_keep free], hr⟩
  | other hk hn hv _ ih =>
    rw [List.map_cons, separated, List.append_assoc, List.append_assoc] at ht
    obtain ⟨s, hm, hs⟩ := readMembers_other hk hn hv (endsValue_separated _ (Or.inr rfl)) ht
    obtain ⟨s', hl, hr⟩ := ih hf hs
    exact ⟨s', hm.trans hl, hr⟩

theorem opens_object (members : List Member) : Opens (objectTokens members) :=
  ⟨Byte.openObject, [], _, rfl, rfl, by decide⟩

theorem readRecord_of_gives {sh : Shape α n} (hw : sh.WellNamed) {members : List Member}
    {given : Vector (Option α) n} (h : sh.Gives sh.reader.Accepts members given)
    {text rest : Bytes} (ht : Begins (objectTokens members) text rest) :
    sh.readRecord text = concluded (sh.objectOutcome given) (none, rest) := by
  rw [objectTokens_eq] at ht
  obtain ⟨s, hs, hr⟩ := ht.skipBlanks_cons rfl
  obtain ⟨s', hl, hmore⟩ := readMembers_of_gives hw h (fun i _ => get_nothing i) hr
  cases hmore
  rw [readRecord_object hs, List.nil_append, hl, nothing_together]
  rfl

/-- **A complete object is read**, whatever comes after it: each field has the value that it was
given, or its default. -/
theorem read_object {sh : Shape α n} (hw : sh.WellNamed) {members : List Member}
    {given : Vector (Option α) n} (h : sh.Gives sh.reader.Accepts members given)
    {values : Vector α n} (hv : ∀ i : Fin n, sh.value? given i = some (values.get i))
    {text rest : Bytes} (ht : Begins (objectTokens members) text rest) :
    sh.record.read text = .ok (values, rest) := by
  change readRecord sh _ = _
  rw [readRecord_of_gives hw h ht, objectOutcome_eq_ok_iff.2 hv]
  rfl

/-- **An object that leaves out a field** without a default is missing it, or one before it. -/
theorem read_object_lacking {sh : Shape α n} (hw : sh.WellNamed) {members : List Member}
    {given : Vector (Option α) n} (h : sh.Gives sh.reader.Accepts members given) {i : Fin n}
    (hi : sh.value? given i = none) {text rest : Bytes} (ht : Begins (objectTokens members) text rest) :
    ∃ j, sh.record.read text = .error (.before (.missingField (sh.fields.get j)) rest) ∧
      sh.value? given j = none ∧ ∀ k < j, sh.value? given k ≠ none := by
  obtain ⟨j, hj, lacks, present⟩ := complete_eq_error hi
  refine ⟨j, ?_, lacks, present⟩
  change readRecord sh _ = _
  rw [readRecord_of_gives hw h ht, objectOutcome, hj]
  rfl

theorem accepts_object {sh : Shape α n} (hw : sh.WellNamed) {members : List Member}
    {given : Vector (Option α) n} (h : sh.Gives sh.reader.Accepts members given)
    {values : Vector α n} (hv : ∀ i : Fin n, sh.value? given i = some (values.get i)) :
    sh.record.Accepts (objectTokens members) values :=
  ⟨opens_object members, fun ht _ => read_object hw h hv ht⟩

/-- The members of a written record. -/
def written (sh : Shape α n) (write : α → Tokens) (values : Vector α n) (fields : List (Fin n)) :
    List Member :=
  fields.map fun i => ⟨ascii (sh.fields.get i), write (values.get i)⟩

/-- **Fields that are written once each** give their values, and the others nothing. -/
theorem gives_written {sh : Shape α n} (hw : sh.WellNamed) {accepted : Tokens → α → Prop}
    {write : α → Tokens} {values : Vector α n}
    (ha : ∀ i : Fin n, accepted (write (values.get i)) (values.get i)) {fields : List (Fin n)}
    (hd : fields.Nodup) :
    ∃ given, sh.Gives accepted (sh.written write values fields) given ∧
      ∀ i : Fin n, (i ∈ fields → given.get i = some (values.get i)) ∧
        (i ∉ fields → given.get i = none) := by
  induction fields with
  | nil =>
    exact ⟨_, Gives.none, fun i => ⟨fun hi => absurd hi List.not_mem_nil, fun _ => get_nothing i⟩⟩
  | cons i fields ih =>
    obtain ⟨hi, hd⟩ := List.nodup_cons.1 hd
    obtain ⟨given, hg, found⟩ := ih hd
    have name := spells_of_isPlain (hw.plain i)
    refine ⟨_, Gives.field name (ha i) ((found i).2 hi) hg, fun j => ?_⟩
    by_cases hij : i = j
    · subst hij
      exact ⟨fun _ => get_keep_self given i _, fun hi => absurd List.mem_cons_self hi⟩
    · rw [get_keep_of_ne given hij]
      refine ⟨fun hj => (found j).1 ?_, fun hj => (found j).2 fun h => hj ?_⟩
      · exact (List.mem_cons.1 hj).resolve_left (Ne.symm hij)
      · exact List.mem_cons_of_mem i h

theorem write_eq_objectTokens (sh : Shape α n) (write : α → Tokens) (values : Vector α n) :
    sh.write write values = objectTokens (sh.written write values (List.finRange n)) := by
  rw [objectTokens, written, List.map_map]
  rfl

/-- **A written record is read**, whatever comes after it, if each of its values is accepted. -/
theorem read_write {sh : Shape α n} (hw : sh.WellNamed) (write : α → Tokens) {values : Vector α n}
    (ha : ∀ i : Fin n, sh.reader.Accepts (write (values.get i)) (values.get i))
    {text rest : Bytes} (ht : Begins (sh.write write values) text rest) :
    sh.record.read text = .ok (values, rest) := by
  rw [write_eq_objectTokens] at ht
  obtain ⟨given, hg, found⟩ := gives_written hw ha (List.nodup_finRange n)
  refine read_object hw hg (fun i => ?_) ht
  rw [value?, (found i).1 (List.mem_finRange i)]
  rfl

/-- **A written record is accepted** if each of its values is. -/
theorem accepts_record {sh : Shape α n} (hw : sh.WellNamed) (write : α → Tokens)
    (values : Vector α n)
    (ha : ∀ i : Fin n, sh.reader.Accepts (write (values.get i)) (values.get i)) :
    sh.record.Accepts (sh.write write values) values :=
  ⟨⟨Byte.openObject, [], _, rfl, rfl, by decide⟩, fun ht _ => read_write hw write ha ht⟩

/-! ## Lists -/

/-- **What the items of a list give** to the fields from the `k`-th on: each item gives one field a
value that is accepted for it. -/
inductive GivesFrom (sh : Shape α n) (accepted : Tokens → α → Prop) :
    Nat → List Tokens → Vector (Option α) n → Prop where
  | none {k : Nat} : GivesFrom sh accepted k [] (Vector.replicate n none)
  | item {k : Nat} {item : Tokens} {items : List Tokens} {given : Vector (Option α) n} {value : α}
      (hk : k < n) (ha : accepted item value) (others : GivesFrom sh accepted (k + 1) items given) :
      GivesFrom sh accepted k (item :: items) (keep given ⟨k, hk⟩ value)

theorem GivesFrom.mono {sh : Shape α n} {accepted accepted' : Tokens → α → Prop}
    (hm : ∀ {tokens : Tokens} {value : α}, accepted tokens value → accepted' tokens value)
    {k : Nat} {items : List Tokens} {given : Vector (Option α) n}
    (h : sh.GivesFrom accepted k items given) : sh.GivesFrom accepted' k items given := by
  induction h with
  | none => exact none
  | item hk ha _ ih => exact item hk (hm ha) ih

/-- **One item among others**: the field in its place has the value that is accepted for it, and has
another if another is accepted there. -/
theorem GivesFrom.focus {sh : Shape α n} {accepted : Tokens → α → Prop} {k : Nat}
    {before after : List Tokens} {part : Tokens} {i : Fin n} (place : k + before.length = i)
    {given : Vector (Option α) n} (h : sh.GivesFrom accepted k (before ++ part :: after) given) :
    ∃ a, accepted part a ∧ given.get i = some a ∧ ∀ {part' : Tokens} {b : α}, accepted part' b →
      sh.GivesFrom accepted k (before ++ part' :: after) (keep given i b) := by
  induction before generalizing k given with
  | nil =>
    cases h with
    | @item _ _ _ given a hk ha others =>
      obtain rfl : ⟨k, hk⟩ = i := Fin.ext place
      refine ⟨a, ha, get_keep_self given _ a, fun {part' b} hb => ?_⟩
      rw [keep_keep_self]
      exact item hk hb others
  | cons first before ih =>
    cases h with
    | @item _ _ _ given value hk hvalue others =>
      rw [List.length_cons] at place
      obtain ⟨a, ha, hi, replaced⟩ := ih (by omega) others
      have hki : (⟨k, hk⟩ : Fin n) ≠ i := by
        intro e
        have same : k = i := congrArg Fin.val e
        omega
      refine ⟨a, ha, (get_keep_of_ne given hki value).trans hi, fun {part' b} hb => ?_⟩
      rw [keep_comm given hki]
      exact item hk hvalue (replaced hb)

theorem closeList_begins {more : Tokens} {text rest : Bytes}
    (ht : Begins ([Byte.closeList] :: more) text rest) :
    ∃ s, closeList text = (none, s) ∧ Begins more s rest := by
  obtain ⟨s, hs, hr⟩ := ht.skipBlanks_cons rfl
  refine ⟨s, ?_, hr⟩
  rw [closeList, hs]
  rfl

/-- **What the items give is found**, field by field. -/
theorem readPositions_of_givesFrom {sh : Shape α n} {k : Nat} {items : List Tokens}
    {given : Vector (Option α) n} (h : sh.GivesFrom sh.reader.Accepts k items given)
    {found : Vector (Option α) n} (hf : ∀ i : Fin n, k ≤ i → found.get i = none) {more : Tokens}
    {text rest : Bytes}
    (ht : Begins (separated (k == 0) items ++ [Byte.closeList] :: more) text rest) :
    ∃ s, sh.readPositions found k text =
        .ok ((together found given, k + items.length), s) ∧
      Begins ([Byte.closeList] :: more) s rest := by
  induction h generalizing found text with
  | @none k =>
    rw [readPositions, together_nothing]
    split
    · obtain ⟨s, hn, hr⟩ := Reader.nextElement_closeList (k == 0) ht
      exact ⟨_, by rw [hn]; rfl, begins_cons hr⟩
    · exact ⟨text, rfl, ht⟩
  | @item k item items given value hk ha _ ih =>
    rw [separated, List.append_assoc, List.append_assoc] at ht
    obtain ⟨s, hn, hs⟩ := Reader.nextElement_item ha.opens ht
    obtain ⟨middle, hitem, hmore⟩ := hs.of_append
    have hr := ha.reads hitem ((endsValue_separated _ (Or.inl rfl)).endsNumber hmore)
    have later : ∀ i : Fin n, k + 1 ≤ i → (keep found ⟨k, hk⟩ value).get i = Option.none := by
      intro i hi
      have hne : (⟨k, hk⟩ : Fin n) ≠ i := by
        rintro rfl
        exact Nat.lt_irrefl k hi
      rw [get_keep_of_ne found hne]
      exact hf i (Nat.le_of_succ_le hi)
    obtain ⟨s', hl, hrest⟩ := ih later hmore
    refine ⟨s', ?_, hrest⟩
    rw [readPositions, dif_pos hk, hn]
    dsimp only
    rw [hr]
    dsimp only
    rw [hl, together_keep (hf ⟨k, hk⟩ (Nat.le_refl k)), List.length_cons, Nat.add_right_comm,
      Nat.add_assoc]

theorem opens_list (items : List Tokens) : Opens (listTokens items) :=
  ⟨Byte.openList, [], _, rfl, rfl, by decide⟩

theorem readRecord_list {sh : Shape α n} {text s : Bytes}
    (h : skipBlanks text = Byte.openList :: s) :
    sh.readRecord text =
      match sh.readPositions (Vector.replicate n none) 0 s with
      | .error fault => .error fault
      | .ok ((found, length), rest) => concluded (sh.listOutcome found length) (closeList rest) := by
  rw [readRecord, h]
  dsimp only
  rewrite [if_pos rfl]
  rfl

theorem readRecord_of_givesFrom {sh : Shape α n} {items : List Tokens}
    {given : Vector (Option α) n} (h : sh.GivesFrom sh.reader.Accepts 0 items given)
    {text rest : Bytes} (ht : Begins (listTokens items) text rest) :
    sh.readRecord text = concluded (sh.listOutcome given items.length) (none, rest) := by
  rw [listTokens_eq] at ht
  obtain ⟨s, hs, hr⟩ := ht.skipBlanks_cons rfl
  obtain ⟨s', hl, hend⟩ := readPositions_of_givesFrom h (fun i _ => get_nothing i) hr
  obtain ⟨s'', hclose, hmore⟩ := closeList_begins hend
  cases hmore
  rw [readRecord_list hs, List.nil_append, hl, nothing_together, Nat.zero_add]
  dsimp only
  rw [hclose]

/-- **A list that is long enough is accepted**: each field has the value in its place, or its
default. -/
theorem accepts_items {sh : Shape α n} {items : List Tokens} {given : Vector (Option α) n}
    (h : sh.GivesFrom sh.reader.Accepts 0 items given) {values : Vector α n}
    (hv : ∀ i : Fin n, sh.value? given i = some (values.get i)) :
    sh.record.Accepts (listTokens items) values := by
  refine ⟨opens_list items, fun ht _ => ?_⟩
  change readRecord sh _ = _
  rw [readRecord_of_givesFrom h ht, listOutcome_eq_ok_iff.2 hv]
  rfl

/-- **A list that leaves out a field** without a default is too short. -/
theorem read_items_lacking {sh : Shape α n} {items : List Tokens} {given : Vector (Option α) n}
    (h : sh.GivesFrom sh.reader.Accepts 0 items given) {i : Fin n} (hi : sh.value? given i = none)
    {text rest : Bytes} (ht : Begins (listTokens items) text rest) :
    sh.record.read text = .error (.before (.wrongLength items.length sh.wantedLength) rest) := by
  obtain ⟨j, hj, -⟩ := complete_eq_error hi
  change readRecord sh _ = _
  rw [readRecord_of_givesFrom h ht, listOutcome, hj]
  rfl

end Shape

end HeapWatch.Json
