import HeapWatch.Proofs.Json.Settled
/-!
# Values with a gap

The tokens of a value may be known but for one part: the value of a field, or an element of a list.
If some value in the gap makes the whole valid, then what stands in the gap decides alone what is read
of the whole. The same is found as before but for the one part, which is what is accepted in the gap;
and if nothing is accepted there, nothing is found.
-/

namespace HeapWatch.Json

namespace Reader

variable {α β γ : Type}

theorem Accepts.exists_read {r : Reader α} {tokens : Tokens} {a : α} (h : r.Accepts tokens a) :
    ∃ text, Begins tokens text [] ∧ r.read text = .ok (a, []) :=
  ⟨_, begins_compact tokens [], h.reads (begins_compact tokens []) endsNumber_nil⟩

theorem Accepts.unique {r : Reader α} {tokens : Tokens} {a b : α} (h : r.Accepts tokens a)
    (h' : r.Accepts tokens b) : a = b := by
  obtain ⟨text, begins, read⟩ := h.exists_read
  have same := read.symm.trans (h'.reads begins endsNumber_nil)
  exact (Prod.mk.inj (Except.ok.inj same)).1

/-- What is accepted as a value of another type was accepted before. -/
theorem Settled.exists_of_accepts_map {r : Reader α} (hs : r.Settled) {tokens : Tokens}
    (hv : IsValue tokens) {f : α → β} {b : β} (h : (r.map f).Accepts tokens b) :
    ∃ a, r.Accepts tokens a ∧ b = f a := by
  obtain ⟨text, begins, read⟩ := h.exists_read
  rw [read_map] at read
  split at read
  · cases read
  · rename_i a rest hr
    obtain ⟨rfl, -⟩ := Prod.mk.inj (Except.ok.inj read)
    exact ⟨a, hs.accepts hv begins endsNumber_nil hr, rfl⟩

/-- **A gap in what `outer` reads**, for a part that `inner` reads. `fill` puts the tokens of a part
in, `make` makes the whole of the part. -/
structure Gap (inner : Reader α) (outer : Reader β) (fill : Tokens → Tokens) (make : α → β) :
    Prop where
  opens : ∀ part, Opens (fill part)
  accepts : ∀ {part : Tokens} {a : α}, inner.Accepts part a → outer.Accepts (fill part) (make a)
  exists_accepted : ∀ {part : Tokens} {text rest rest' : Bytes} {b : β}, inner.Settles part →
    Begins (fill part) text rest → Numeral.EndsNumber rest → outer.read text = .ok (b, rest') →
    ∃ a, inner.Accepts part a

namespace Gap

variable {inner : Reader α} {middle : Reader β} {outer : Reader γ} {fill fill' : Tokens → Tokens}
  {make : α → β} {make' : β → γ}

/-- The whole settles what is read of it if the part does. -/
theorem settles (g : Gap inner middle fill make) {part : Tokens} (hs : inner.Settles part) :
    middle.Settles (fill part) := by
  refine ⟨g.opens part, fun {text rest rest' b} ht he h => ?_⟩
  obtain ⟨a, ha⟩ := g.exists_accepted hs ht he h
  have whole := g.accepts ha
  obtain ⟨rfl, -⟩ := Prod.mk.inj (Except.ok.inj (h.symm.trans (whole.reads ht he)))
  exact whole

/-- **The whole is made of the part**, and of nothing else. -/
theorem accepts_iff (g : Gap inner middle fill make) {part : Tokens} (hs : inner.Settles part)
    {b : β} : middle.Accepts (fill part) b ↔ ∃ a, inner.Accepts part a ∧ b = make a := by
  constructor
  · intro h
    obtain ⟨text, begins, read⟩ := h.exists_read
    obtain ⟨a, ha⟩ := g.exists_accepted hs begins endsNumber_nil read
    exact ⟨a, ha, h.unique (g.accepts ha)⟩
  · rintro ⟨a, ha, rfl⟩
    exact g.accepts ha

theorem congr (g : Gap inner middle fill make) {made : α → β} (h : ∀ a, make a = made a) :
    Gap inner middle fill made := funext h ▸ g

theorem comp (g : Gap inner middle fill make) (g' : Gap middle outer fill' make') :
    Gap inner outer (fun part => fill' (fill part)) fun a => make' (make a) where
  opens part := g'.opens (fill part)
  accepts h := g'.accepts (g.accepts h)
  exists_accepted hs ht he h := by
    obtain ⟨b, hb⟩ := g'.exists_accepted (g.settles hs) ht he h
    obtain ⟨a, ha, -⟩ := (g.accepts_iff hs).1 hb
    exact ⟨a, ha⟩

theorem map (g : Gap inner middle fill make) (f : β → γ) :
    Gap inner (middle.map f) fill fun a => f (make a) where
  opens := g.opens
  accepts h := (g.accepts h).map f
  exists_accepted hs ht he h := by
    rw [read_map] at h
    split at h
    · cases h
    · rename_i hr
      exact g.exists_accepted hs ht he hr

/-- **What is decoded of a text with a gap in it**: what is made of the part, if the part is
accepted, and nothing otherwise. -/
theorem decode_eq_ok_iff (g : Gap inner middle fill make) {part : Tokens} (hs : inner.Settles part)
    {text : Bytes} (ht : Spaced (fill part) text) {b : β} :
    middle.decode text = .ok b ↔ ∃ a, inner.Accepts part a ∧ b = make a := by
  rw [← g.accepts_iff hs]
  exact ⟨(g.settles hs).accepts_of_decode ht, fun h => decode_of_accepts h ht⟩

end Gap

end Reader

/-! ## Lists -/

theorem forall_mem_filled {β : Type} {p : β → Prop} {before after : List β} {part : β}
    (others : ∀ other ∈ before ++ after, p other) (h : p part) :
    ∀ other ∈ before ++ part :: after, p other := by
  obtain ⟨hbefore, hafter⟩ := List.forall_mem_append.1 others
  exact List.forall_mem_append.2 ⟨hbefore, List.forall_mem_cons.2 ⟨h, hafter⟩⟩

/-- **One element among others** is related to the one in its place, and so is any other that takes
its place. -/
theorem forall₂_focus {β γ : Type} {related : β → γ → Prop} {before after : List β} {part : β}
    {values : List γ} (h : List.Forall₂ related (before ++ part :: after) values) :
    ∃ a, related part a ∧ values[before.length]? = some a ∧ ∀ {part' : β} {b : γ},
      related part' b →
      List.Forall₂ related (before ++ part' :: after) (values.set before.length b) := by
  induction before generalizing values with
  | nil =>
    cases h with
    | cons ha others => exact ⟨_, ha, rfl, fun hb => .cons hb others⟩
  | cons first before ih =>
    cases h with
    | cons hfirst others =>
      obtain ⟨a, ha, place, replaced⟩ := ih others
      exact ⟨a, ha, place, fun hb => .cons hfirst (replaced hb)⟩

/-- The gap for the element number `k` of a list. -/
inductive ElementGap (k : Nat) : (Tokens → Tokens) → Prop where
  | among {before after : List Tokens} (place : before.length = k)
      (others : ∀ item ∈ before ++ after, IsValue item) :
      ElementGap k fun part => listTokens (before ++ part :: after)

namespace ElementGap

variable {α : Type} {r : Reader α} {k : Nat} {fill : Tokens → Tokens}

theorem isValue (g : ElementGap k fill) {part : Tokens} (h : IsValue part) : IsValue (fill part) := by
  cases g with
  | among place others => exact IsValue.list (forall_mem_filled others h)

/-- **The gap of an element.** A list that is accepted has such an element, and is accepted with any
other in its place. -/
theorem gap (g : ElementGap k fill) (hs : r.Settled) {sample : Tokens} (hv : IsValue sample)
    {values : Array α} (h : r.list.Accepts (fill sample) values) :
    (∃ a, r.Accepts sample a ∧ values[k]? = some a) ∧
      Reader.Gap r r.list fill fun a => values.setIfInBounds k a := by
  cases g with
  | @among before after place others =>
    have settles {part : Tokens} (hp : r.Settles part) :
        ∀ item ∈ before ++ part :: after, r.Settles item :=
      forall_mem_filled (fun item hi => hs.settles (others item hi)) hp
    obtain ⟨text, begins, read⟩ := h.exists_read
    obtain ⟨a, ha, found, replaced⟩ := forall₂_focus (Reader.forall₂_accepts_of_readList
      (settles (hs.settles hv)) begins endsNumber_nil read)
    rw [place, Array.getElem?_toList] at found
    refine ⟨⟨a, ha, found⟩, fun part => Shape.opens_list _, fun {part b} hb => ?_,
      fun {part text rest rest' b} hp ht he h => ?_⟩
    · have whole := Reader.accepts_items (replaced hb)
      rwa [place, ← Array.toList_setIfInBounds] at whole
    · obtain ⟨b, hb, -⟩ := forall₂_focus (Reader.forall₂_accepts_of_readList (settles hp) ht he h)
      exact ⟨b, hb⟩

end ElementGap

/-! ## Records -/

namespace Shape

variable {α : Type} {n : Nat} {sh : Shape α n}

/-- **The gap for the value of a field**: in a member of the field's name among any others, or in the
field's place in a list. -/
inductive FieldGap (sh : Shape α n) (i : Fin n) : (Tokens → Tokens) → Prop where
  | member {before after : List Member} {key : Bytes}
      (name : Spells key (ascii (sh.fields.get i))) (others : ∀ m ∈ before ++ after, m.IsMember) :
      FieldGap sh i fun part => objectTokens (before ++ ⟨key, part⟩ :: after)
  | item {before after : List Tokens} (place : before.length = i)
      (others : ∀ item ∈ before ++ after, IsValue item) :
      FieldGap sh i fun part => listTokens (before ++ part :: after)

/-- A field that is given another value has it, and every other field has what it had. -/
theorem value?_keep {given : Vector (Option α) n} {values : Vector α n}
    (h : ∀ j : Fin n, sh.value? given j = some (values.get j)) (i : Fin n) (a : α) (j : Fin n) :
    sh.value? (keep given i a) j = some ((values.set i a i.isLt).get j) := by
  by_cases hij : i = j
  · subst hij
    rw [value?, get_keep_self, get_set_self]
    rfl
  · rw [value?, get_keep_of_ne given hij, get_set_of_ne values hij]
    exact h j

namespace FieldGap

variable {i : Fin n} {fill : Tokens → Tokens}

theorem isValue (g : sh.FieldGap i fill) {part : Tokens} (h : IsValue part) :
    IsValue (fill part) := by
  cases g with
  | @member before after key name others =>
    have filled : Member.IsMember ⟨key, part⟩ := ⟨name.isContent, h⟩
    have members := forall_mem_filled others filled
    exact IsValue.object (fun m hm => (members m hm).key) fun m hm => (members m hm).value
  | item place others => exact IsValue.list (forall_mem_filled others h)

/-- **The gap of a field.** If a record is accepted, the field has what is accepted in the gap, and
the record is accepted with any other value there. -/
theorem gap (g : sh.FieldGap i fill) (hw : sh.WellNamed) (hs : sh.reader.Settled) {sample : Tokens}
    (hv : IsValue sample) {values : Vector α n} (h : sh.record.Accepts (fill sample) values) :
    sh.reader.Accepts sample (values.get i) ∧
      Reader.Gap sh.reader sh.record fill fun a => values.set i a i.isLt := by
  -- what was given for the field is what the field has
  have given_eq {given : Vector (Option α) n} {a : α} (found : given.get i = some a)
      (complete : ∀ j : Fin n, sh.value? given j = some (values.get j)) : values.get i = a := by
    have value := complete i
    rw [value?, found] at value
    exact (Option.some.inj value).symm
  cases g with
  | @member before after key name others =>
    have settles {part : Tokens} (hp : sh.reader.Settles part) :
        ∀ m ∈ before ++ ⟨key, part⟩ :: after, sh.SettlesMember m :=
      forall_mem_filled (fun m hm => settlesMember_of_isMember hs (others m hm))
        ⟨name.isContent, hp, fun unnamed => absurd name (unnamed i)⟩
    obtain ⟨text, begins, read⟩ := h.exists_read
    obtain ⟨given, hg, complete⟩ :=
      gives_of_readRecord hw (settles (hs.settles hv)) begins read
    obtain ⟨a, ha, found, replaced⟩ := hg.focus hw name
    rw [given_eq found complete]
    refine ⟨ha, fun part => opens_object _, fun {part b} hb => ?_,
      fun {part text rest rest' b} hp ht he h => ?_⟩
    · exact accepts_object hw (replaced hb) (value?_keep complete i b)
    · obtain ⟨given', hg', -⟩ := gives_of_readRecord hw (settles hp) ht h
      obtain ⟨b, hb, -⟩ := hg'.focus hw name
      exact ⟨b, hb⟩
  | @item before after place others =>
    have settles {part : Tokens} (hp : sh.reader.Settles part) :
        ∀ item ∈ before ++ part :: after, sh.reader.Settles item :=
      forall_mem_filled (fun item hi => hs.settles (others item hi)) hp
    have place' : 0 + before.length = i := (Nat.zero_add _).trans place
    obtain ⟨text, begins, read⟩ := h.exists_read
    obtain ⟨given, hg, complete⟩ :=
      givesFrom_of_readRecord (settles (hs.settles hv)) begins read
    obtain ⟨a, ha, found, replaced⟩ := hg.focus place'
    rw [given_eq found complete]
    refine ⟨ha, fun part => opens_list _, fun {part b} hb => ?_,
      fun {part text rest rest' b} hp ht he h => ?_⟩
    · exact accepts_items (replaced hb) (value?_keep complete i b)
    · obtain ⟨given', hg', -⟩ := givesFrom_of_readRecord (settles hp) ht h
      obtain ⟨b, hb, -⟩ := hg'.focus place'
      exact ⟨b, hb⟩

/-- The gap of a field of a record that is taken as a value of another type. -/
theorem gap_map {β : Type} (g : sh.FieldGap i fill) (hw : sh.WellNamed) (hs : sh.reader.Settled)
    {sample : Tokens} (hv : IsValue sample) {make : Vector α n → β} {whole : β}
    (h : (sh.record.map make).Accepts (fill sample) whole) :
    ∃ values, whole = make values ∧ sh.reader.Accepts sample (values.get i) ∧
      Reader.Gap sh.reader (sh.record.map make) fill fun a => make (values.set i a i.isLt) := by
  obtain ⟨values, accepted, made⟩ :=
    (settled_record hw hs).exists_of_accepts_map (g.isValue hv) h
  obtain ⟨value, gap⟩ := g.gap hw hs hv accepted
  exact ⟨values, made, value, gap.map make⟩

end FieldGap

end Shape

end HeapWatch.Json
