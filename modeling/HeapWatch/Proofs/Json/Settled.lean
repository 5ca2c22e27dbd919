import HeapWatch.Proofs.Json.Records
/-!
# A value settles what is read of it

Whether a value is read, and as what, does not depend on the text around it or on how it is spaced.
If a reader finds something in one text that begins with the value, it finds the same in all, and
leaves what comes after the value (`Reader.Settled`). For a record this says as well where its fields
come from: from members of which no two name the same field.
-/

namespace HeapWatch.Json

/-! ## What a value is told by -/

/-- What a value is if it starts with a byte. -/
structure ToldBy (b : UInt8) (tokens : Tokens) : Prop where
  number : b = Byte.minus ∨ Byte.isDigit b → ∃ n : Numeral, n.WellFormed ∧ tokens = [n.write]
  list : b = Byte.openList → ∃ items, tokens = listTokens items ∧ ∀ item ∈ items, IsValue item
  object : b = Byte.openObject →
    ∃ members, tokens = objectTokens members ∧ ∀ m ∈ members, m.IsMember

/-- **A value is told by its first byte.** -/
theorem IsValue.told {tokens : Tokens} (h : IsValue tokens) {text rest : Bytes}
    (ht : Begins tokens text rest) : ∃ b s, skipBlanks text = b :: s ∧ ToldBy b tokens := by
  cases h with
  | word h =>
    obtain ⟨b, letters, found, rfl, hw⟩ := exists_word? h
    have others : Byte.isBlank b = false ∧ ¬ (b = Byte.minus ∨ Byte.isDigit b) ∧
        b ≠ Byte.openList ∧ b ≠ Byte.openObject := by
      rcases letter_of_word? hw with rfl | rfl | rfl <;> decide
    obtain ⟨blank, number, list, object⟩ := others
    obtain ⟨s, hs, -⟩ := ht.skipBlanks_cons blank
    exact ⟨b, _, hs, fun h => absurd h number, fun h => absurd h list, fun h => absurd h object⟩
  | @number n h =>
    obtain ⟨b, token, hw, hb⟩ := Numeral.exists_write_eq_cons h
    obtain ⟨blank, -, list, object, -⟩ := Reader.ne_of_startsNumber hb
    have ht' := ht
    rw [hw] at ht'
    obtain ⟨s, hs, -⟩ := ht'.skipBlanks_cons blank
    exact ⟨b, _, hs, fun _ => ⟨n, h, rfl⟩, fun h => absurd h list, fun h => absurd h object⟩
  | text h =>
    obtain ⟨s, hs, -⟩ := ht.skipBlanks_cons rfl
    exact ⟨_, _, hs, fun h => absurd h (by decide), fun h => absurd h (by decide),
      fun h => absurd h (by decide)⟩
  | @list items h =>
    obtain ⟨s, hs, -⟩ := ht.skipBlanks_cons rfl
    exact ⟨_, _, hs, fun h => absurd h (by decide), fun _ => ⟨items, rfl, h⟩,
      fun h => absurd h (by decide)⟩
  | @object members hk hv =>
    obtain ⟨s, hs, -⟩ := ht.skipBlanks_cons rfl
    exact ⟨_, _, hs, fun h => absurd h (by decide), fun h => absurd h (by decide),
      fun _ => ⟨members, rfl, fun m hm => ⟨hk m hm, hv m hm⟩⟩⟩

namespace Reader

variable {α β : Type}

/-- **Readers for which a value settles what is read of it.** -/
structure Settled (r : Reader α) : Prop where
  accepts : ∀ {tokens : Tokens} {text rest rest' : Bytes} {value : α}, IsValue tokens →
    Begins tokens text rest → Numeral.EndsNumber rest → r.read text = .ok (value, rest') →
    r.Accepts tokens value

/-- The value that a reader finds in some text that has these tokens and no others. -/
def Takes (r : Reader α) (tokens : Tokens) (value : α) : Prop :=
  IsValue tokens ∧ ∃ text, Spaced tokens text ∧ r.decode text = .ok value

theorem takes_of_accepts {r : Reader α} {tokens : Tokens} {value : α} (hv : IsValue tokens)
    (h : r.Accepts tokens value) : r.Takes tokens value :=
  ⟨hv, compact tokens, spaced_compact tokens, decode_of_accepts h (spaced_compact tokens)⟩

theorem read_of_decode {r : Reader α} {text : Bytes} {value : α} (h : r.decode text = .ok value) :
    ∃ rest, r.read text = .ok (value, rest) := by
  unfold decode at h
  split at h
  · cases h
  · split at h
    · cases h
      exact ⟨_, ‹_›⟩
    · cases h

/-- **Tokens that settle what is read of them**, be it that nothing ever is. -/
structure Settles (r : Reader α) (tokens : Tokens) : Prop where
  opens : Opens tokens
  accepts : ∀ {text rest rest' : Bytes} {value : α}, Begins tokens text rest →
    Numeral.EndsNumber rest → r.read text = .ok (value, rest') → r.Accepts tokens value

theorem Settled.settles {r : Reader α} (hs : r.Settled) {tokens : Tokens} (hv : IsValue tokens) :
    r.Settles tokens := ⟨hv.opens, fun ht he h => hs.accepts hv ht he h⟩

/-- What is found is accepted, and what is left is what comes after it. -/
theorem Settles.accepts_rest {r : Reader α} {tokens : Tokens} (hs : r.Settles tokens)
    {text rest rest' : Bytes} {value : α} (ht : Begins tokens text rest)
    (he : Numeral.EndsNumber rest) (h : r.read text = .ok (value, rest')) :
    r.Accepts tokens value ∧ rest' = rest := by
  have accepted := hs.accepts ht he h
  have same := h.symm.trans (accepted.reads ht he)
  exact ⟨accepted, (Prod.mk.inj (Except.ok.inj same)).2⟩

/-- What is found in one text of such tokens is found in all texts that begin with them. -/
theorem Settles.accepts_of_decode {r : Reader α} {tokens : Tokens} (hs : r.Settles tokens)
    {text : Bytes} {value : α} (ht : Spaced tokens text) (h : r.decode text = .ok value) :
    r.Accepts tokens value := by
  obtain ⟨rest, hb, blank⟩ := ht.begins
  obtain ⟨rest', hr⟩ := read_of_decode h
  have ends : Numeral.EndsNumber rest := by simpa using endsNumber_blanks blank endsNumber_nil
  exact hs.accepts hb ends hr

theorem Settled.accepts_of_takes {r : Reader α} (hs : r.Settled) {tokens : Tokens} {value : α}
    (h : r.Takes tokens value) : r.Accepts tokens value := by
  obtain ⟨hv, text, ht, hd⟩ := h
  exact (hs.settles hv).accepts_of_decode ht hd

/-! ## Words -/

/-- A number that is read is the word that it is read as. -/
theorem quantity_of_read {n : Numeral} (hn : n.WellFormed) {text rest rest' : Bytes} {value : UInt64}
    (ht : Begins [n.write] text rest) (he : Numeral.EndsNumber rest)
    (h : word.read text = .ok (value, rest')) : n.quantity = .ok (.natural value) := by
  rw [read_number hn ht he] at h
  split at h
  · cases h
  · rename_i quantity hq
    cases quantity with
    | natural value' =>
      cases h
      exact hq
    | negative => cases h
    | real => cases h

theorem settled_word : word.Settled := by
  refine ⟨fun {tokens text rest rest' value} hv ht he h => ?_⟩
  obtain ⟨b, s, hs, told⟩ := hv.told ht
  have number : b = Byte.minus ∨ Byte.isDigit b := by
    by_contra hb
    change readWord text = _ at h
    rw [readWord, hs] at h
    dsimp only at h
    rw [if_neg hb] at h
    cases h
  obtain ⟨n, hn, rfl⟩ := told.number number
  exact accepts_number hn (quantity_of_read hn ht he h)

theorem Settled.map {r : Reader α} (hs : r.Settled) (f : α → β) : (r.map f).Settled := by
  refine ⟨fun hv ht he h => ?_⟩
  rw [read_map] at h
  split at h
  · cases h
  · rename_i hr
    cases h
    exact (hs.accepts hv ht he hr).map f

/-! ## Lists -/

theorem accepts_of_readElements {r : Reader α} {items : List Tokens}
    (hs : ∀ item ∈ items, r.Settles item) {first : Bool} {found values : Array α} {more : Tokens}
    {text rest rest' : Bytes}
    (ht : Begins (separated first items ++ [Byte.closeList] :: more) text rest)
    (h : r.readElements first found text = .ok (values, rest')) :
    ∃ added, List.Forall₂ r.Accepts items added := by
  induction items generalizing first found text with
  | nil => exact ⟨[], List.Forall₂.nil⟩
  | cons item items ih =>
    obtain ⟨hitem, hitems⟩ := List.forall_mem_cons.1 hs
    rw [separated, List.append_assoc, List.append_assoc] at ht
    obtain ⟨s, hn, hb⟩ := nextElement_item hitem.opens ht
    obtain ⟨middle, hfirst, hmore⟩ := hb.of_append
    have ends := (endsValue_separated items (Or.inl rfl)).endsNumber hmore
    rw [readElements_of_item hn] at h
    split at h
    · cases h
    · rename_i value s₂ hr
      obtain ⟨accepted, rfl⟩ := hitem.accepts_rest hfirst ends hr
      obtain ⟨added, ha⟩ := ih hitems hmore h
      exact ⟨value :: added, List.Forall₂.cons accepted ha⟩

theorem forall₂_accepts_of_readList {r : Reader α} {items : List Tokens}
    (hs : ∀ item ∈ items, r.Settles item) {text rest rest' : Bytes} {values : Array α}
    (ht : Begins (listTokens items) text rest) (he : Numeral.EndsNumber rest)
    (h : r.list.read text = .ok (values, rest')) :
    List.Forall₂ r.Accepts items values.toList := by
  have whole := ht
  rw [listTokens_eq] at whole
  obtain ⟨s, hb, hr⟩ := whole.skipBlanks_cons rfl
  have read : readList r text = .ok (values, rest') := h
  rw [readList, hb] at read
  dsimp only at read
  rw [if_pos rfl] at read
  obtain ⟨added, ha⟩ := accepts_of_readElements hs hr read
  have accepted := accepts_separated ha
  rw [← listTokens_eq] at accepted
  obtain rfl : values = added.toArray :=
    (Prod.mk.inj (Except.ok.inj (h.symm.trans (accepted.reads ht he)))).1
  exact ha

theorem accepts_items {r : Reader α} {items : List Tokens} {values : List α}
    (h : List.Forall₂ r.Accepts items values) :
    r.list.Accepts (listTokens items) values.toArray :=
  listTokens_eq items ▸ accepts_separated h

theorem Settled.list {r : Reader α} (hs : r.Settled) : r.list.Settled := by
  refine ⟨fun {tokens text rest rest' values} hv ht he h => ?_⟩
  obtain ⟨b, s, hb, told⟩ := hv.told ht
  by_cases list : b = Byte.openList
  · obtain ⟨items, rfl, hitems⟩ := told.list list
    exact accepts_items
      (forall₂_accepts_of_readList (fun item hi => hs.settles (hitems item hi)) ht he h)
  · change readList r text = _ at h
    rw [readList, hb] at h
    dsimp only at h
    rw [if_neg list] at h
    cases h

end Reader

/-! ## Records -/

namespace Shape

variable {α : Type} {n : Nat}

/-- A member that settles what a record reads of it. If it is no field, it is passed over, and so has
to be a value. -/
structure SettlesMember (sh : Shape α n) (m : Member) : Prop where
  key : IsContent m.key
  value : sh.reader.Settles m.value
  other : (∀ i : Fin n, ¬ Spells m.key (ascii (sh.fields.get i))) → IsValue m.value

theorem settlesMember_of_isMember {sh : Shape α n} (hs : sh.reader.Settled) {m : Member}
    (hm : m.IsMember) : sh.SettlesMember m :=
  ⟨hm.key, hs.settles hm.value, fun _ => hm.value⟩

/-- **What was found in the members of an object was given by them**, each field by one. -/
theorem gives_of_readMembers {sh : Shape α n} {members : List Member}
    (hm : ∀ m ∈ members, sh.SettlesMember m) {first : Bool} {found : Vector (Option α) n} {more : Tokens}
    {text rest rest' : Bytes} {values : Vector α n}
    (ht : Begins (separated first (members.map Member.tokens) ++ [Byte.closeObject] :: more)
      text rest)
    (h : sh.readMembers first found text = .ok (.ok values, rest')) :
    ∃ given, sh.Gives sh.reader.Accepts members given ∧
      ∀ i : Fin n, found.get i ≠ none → given.get i = none := by
  induction members generalizing first found text with
  | nil => exact ⟨_, Gives.none, fun i _ => get_nothing i⟩
  | cons m members ih =>
    obtain ⟨⟨content, settles, value⟩, hmembers⟩ := List.forall_mem_cons.1 hm
    rw [List.map_cons, separated, List.append_assoc, List.append_assoc] at ht
    obtain ⟨s, hk, hcolon⟩ := nextKey_member ht
    obtain ⟨s₁, hc, hb⟩ := hcolon.skipBlanks_cons rfl
    obtain ⟨middle, hvalue, hmore⟩ := hb.of_append
    have ends := (endsValue_separated (members.map Member.tokens) (Or.inr rfl)).endsNumber hmore
    rw [readMembers_of_key hk] at h
    split at h
    · cases h
    · rename_i name s₂ scanned
      obtain ⟨spelled, rfl⟩ := spells_of_scanText content scanned
      split at h
      · rename_i i hi
        split at h
        · -- a field that comes twice has no outcome but a fault
          cases h
        · rename_i free
          split at h
          · cases h
          · rename_i value s₃ hr
            rw [readField, scanColon_of_skipBlanks hc] at hr
            obtain ⟨accepted, rfl⟩ := settles.accepts_rest hvalue ends hr
            obtain ⟨given, hg, disjoint⟩ := ih hmembers hmore h
            have new : given.get i = none := disjoint i (by simp)
            refine ⟨_, Gives.field (name_of_index? hi ▸ spelled) accepted new hg, fun j hj => ?_⟩
            have hij : i ≠ j := by
              rintro rfl
              exact free (Option.isSome_iff_ne_none.2 hj)
            rw [get_keep_of_ne given hij]
            exact disjoint j (by rwa [get_keep_of_ne found hij])
      · rename_i hi
        have named := index?_eq_none_iff.1 hi
        have hv : IsValue m.value := value fun i name => named i (name.unique spelled)
        rw [skipMember, scanColon_of_skipBlanks hc] at h
        dsimp only [List.nil_append] at h
        rw [skipValue_of_isValue hv hvalue ends] at h
        obtain ⟨given, hg, disjoint⟩ := ih hmembers hmore h
        exact ⟨given, Gives.other spelled named hv hg, disjoint⟩

theorem closeList_item {item more : Tokens} (h : Opens item) {first : Bool} {text rest : Bytes}
    (ht : Begins (separator first ++ (item ++ more)) text rest) : (closeList text).1 ≠ none := by
  have front : ∃ b s, skipBlanks text = b :: s ∧ b ≠ Byte.closeList := by
    cases first with
    | true =>
      obtain ⟨b, s, hs, hb, -⟩ := h.front ht
      exact ⟨b, s, hs, hb⟩
    | false =>
      obtain ⟨s, hs, -⟩ := ht.skipBlanks_cons rfl
      exact ⟨Byte.comma, _, hs, by decide⟩
  obtain ⟨b, s, hs, hb⟩ := front
  rw [closeList, hs]
  dsimp only
  rw [if_neg hb]
  split
  · exact Option.some_ne_none _
  · exact Option.some_ne_none _

/-- **What was found in the items of a list was given by them**, if the list ends after them. -/
theorem givesFrom_of_readPositions {sh : Shape α n} {items : List Tokens}
    (hs : ∀ item ∈ items, sh.reader.Settles item) {k : Nat} {found : Vector (Option α) n} {more : Tokens}
    {text rest rest' : Bytes} {result : Vector (Option α) n × Nat}
    (ht : Begins (separated (k == 0) items ++ [Byte.closeList] :: more) text rest)
    (h : sh.readPositions found k text = .ok (result, rest')) (hc : (closeList rest').1 = none) :
    ∃ given, sh.GivesFrom sh.reader.Accepts k items given := by
  induction items generalizing k found text with
  | nil => exact ⟨_, GivesFrom.none⟩
  | cons item items ih =>
    obtain ⟨hitem, hitems⟩ := List.forall_mem_cons.1 hs
    rw [separated, List.append_assoc, List.append_assoc] at ht
    rw [readPositions] at h
    split at h
    · rename_i hk
      obtain ⟨s, hn, hb⟩ := Reader.nextElement_item hitem.opens ht
      obtain ⟨middle, hfirst, hmore⟩ := hb.of_append
      have ends := (endsValue_separated items (Or.inl rfl)).endsNumber hmore
      rw [hn] at h
      dsimp only at h
      split at h
      · cases h
      · rename_i value s₂ hr
        obtain ⟨accepted, rfl⟩ := hitem.accepts_rest hfirst ends hr
        obtain ⟨given, hg⟩ := ih (k := k + 1) hitems hmore h
        exact ⟨_, GivesFrom.item hk accepted hg⟩
    · -- there is no field left for the item, so the list ought to have ended before it
      cases h
      exact absurd hc (closeList_item hitem.opens ht)

theorem concluded_eq_ok_iff {outcome : Outcome α n} {closed : Option Cause × Bytes}
    {values : Vector α n} {rest : Bytes} :
    concluded outcome closed = .ok (values, rest) ↔ outcome = .ok values ∧ closed = (none, rest) := by
  fun_cases concluded outcome closed with
  | case1 => simp
  | case2 => simp
  | case3 => simp

theorem gives_of_readRecord {sh : Shape α n} (hw : sh.WellNamed) {members : List Member}
    (hm : ∀ m ∈ members, sh.SettlesMember m) {text rest rest' : Bytes}
    {values : Vector α n} (ht : Begins (objectTokens members) text rest)
    (h : sh.readRecord text = .ok (values, rest')) :
    ∃ given, sh.Gives sh.reader.Accepts members given ∧
      ∀ i : Fin n, sh.value? given i = some (values.get i) := by
  have members' := ht
  rw [objectTokens_eq] at members'
  obtain ⟨s, hb, hr⟩ := members'.skipBlanks_cons rfl
  have read := h
  rw [readRecord_object hb] at read
  split at read
  · cases read
  · rename_i outcome rest₁ hl
    obtain ⟨rfl, -⟩ := concluded_eq_ok_iff.1 read
    obtain ⟨given, hg, -⟩ := gives_of_readMembers hm hr hl
    refine ⟨given, hg, ?_⟩
    rw [readRecord_of_gives hw hg ht] at h
    obtain ⟨outcome, -⟩ := concluded_eq_ok_iff.1 h
    exact objectOutcome_eq_ok_iff.1 outcome

theorem givesFrom_of_readRecord {sh : Shape α n} {items : List Tokens}
    (hs : ∀ item ∈ items, sh.reader.Settles item) {text rest rest' : Bytes} {values : Vector α n}
    (ht : Begins (listTokens items) text rest) (h : sh.readRecord text = .ok (values, rest')) :
    ∃ given, sh.GivesFrom sh.reader.Accepts 0 items given ∧
      ∀ i : Fin n, sh.value? given i = some (values.get i) := by
  have items' := ht
  rw [listTokens_eq] at items'
  obtain ⟨s, hb, hr⟩ := items'.skipBlanks_cons rfl
  have read := h
  rw [readRecord_list hb] at read
  split at read
  · cases read
  · rename_i found length rest₁ hl
    obtain ⟨-, closed⟩ := concluded_eq_ok_iff.1 read
    obtain ⟨given, hg⟩ := givesFrom_of_readPositions (k := 0) hs hr hl (congrArg Prod.fst closed)
    refine ⟨given, hg, ?_⟩
    rw [readRecord_of_givesFrom hg ht] at h
    obtain ⟨outcome, -⟩ := concluded_eq_ok_iff.1 h
    exact listOutcome_eq_ok_iff.1 outcome

/-- **A value settles what record is read of it.** -/
theorem settled_record {sh : Shape α n} (hw : sh.WellNamed) (hs : sh.reader.Settled) :
    sh.record.Settled := by
  refine ⟨fun {tokens text rest rest' values} hv ht he h => ?_⟩
  obtain ⟨b, s, hb, told⟩ := hv.told ht
  change sh.readRecord text = _ at h
  by_cases list : b = Byte.openList
  · obtain ⟨items, rfl, hitems⟩ := told.list list
    obtain ⟨given, hg, complete⟩ :=
      givesFrom_of_readRecord (fun item hi => hs.settles (hitems item hi)) ht h
    exact accepts_items hg complete
  · by_cases object : b = Byte.openObject
    · obtain ⟨members, rfl, hmembers⟩ := told.object object
      obtain ⟨given, hg, complete⟩ :=
        gives_of_readRecord hw (fun m hm => settlesMember_of_isMember hs (hmembers m hm)) ht h
      exact accepts_object hw hg complete
    · rw [readRecord, hb] at h
      dsimp only at h
      rw [if_neg list, if_neg object] at h
      cases h

end Shape

end HeapWatch.Json
