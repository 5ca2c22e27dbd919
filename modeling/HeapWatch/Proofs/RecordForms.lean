import HeapWatch.Proofs.Codecs
/-!
# Records are decoded by their fields

What is decoded of an object depends on the members that the record has fields for and on nothing
else: not on their order, not on the members between them, not on blanks and not on how the names
are escaped. What is not given has its default, and is an error without one; what is given twice is
never accepted. A list of the values in the order of the fields stands for the same.
-/

namespace HeapWatch

open Json

namespace Json

/-! ## Any record -/

theorem Reader.decode_map_of_error {α β : Type} {r : Reader α} {text : Bytes} {fault : Fault}
    (h : r.read text = .error fault) (f : α → β) :
    (r.map f).decode text = .error (.ofFault text fault) := by
  rw [decode, read_map, h]

namespace Shape

variable {α β : Type} {n : Nat}

/-- **Decoding by fields**: what is decoded of an object or of a list, by what it gives to the fields
of a record, where a field that is given nothing has its default. -/
structure DecodesByFields (sh : Shape α n) (r : Reader β) (make : Vector α n → β)
    (defaults : Vector (Option α) n) : Prop where
  /-- The members may come in any order and among any others. -/
  object : ∀ {members : List Member} {given : Vector (Option α) n} {values : Vector α n}
    {text : Bytes}, sh.Gives sh.reader.Takes members given →
    (∀ i : Fin n, (given.get i).or (defaults.get i) = some (values.get i)) →
    Spaced (objectTokens members) text → r.decode text = .ok (make values)
  /-- Of the fields that have no value, the first is missed. -/
  missing : ∀ {members : List Member} {given : Vector (Option α) n} {i : Fin n} {text : Bytes},
    sh.Gives sh.reader.Takes members given → (given.get i).or (defaults.get i) = none →
    Spaced (objectTokens members) text →
    ∃ j refusal, r.decode text = .error refusal ∧
      refusal.cause = .missingField (sh.fields.get j) ∧ refusal.cause.kind = .mistyped ∧
      (given.get j).or (defaults.get j) = none ∧
      ∀ k < j, (given.get k).or (defaults.get k) ≠ none
  /-- Two members of one field are refused, whatever their values are and wherever they stand. -/
  twice : ∀ {before between after : List Member} {m m' : Member} {i : Fin n} {text : Bytes},
    (∀ member ∈ before ++ m :: (between ++ m' :: after), member.IsMember) →
    Spells m.key (ascii (sh.fields.get i)) → Spells m'.key (ascii (sh.fields.get i)) →
    Spaced (objectTokens (before ++ m :: (between ++ m' :: after))) text →
    ∀ value, r.decode text ≠ .ok value
  /-- A list stands for an object that gives the fields the same values. -/
  list : ∀ {items : List Tokens} {given : Vector (Option α) n} {values : Vector α n} {text : Bytes},
    sh.GivesFrom sh.reader.Takes 0 items given →
    (∀ i : Fin n, (given.get i).or (defaults.get i) = some (values.get i)) →
    Spaced (listTokens items) text → r.decode text = .ok (make values)
  /-- A list that leaves out a field without a default is too short. -/
  short : ∀ {items : List Tokens} {given : Vector (Option α) n} {i : Fin n} {text : Bytes},
    sh.GivesFrom sh.reader.Takes 0 items given → (given.get i).or (defaults.get i) = none →
    Spaced (listTokens items) text →
    ∃ refusal, r.decode text = .error refusal ∧
      refusal.cause = .wrongLength items.length sh.wantedLength ∧ refusal.cause.kind = .mistyped

/-- No object gives one field two values. -/
theorem not_gives_twice {sh : Shape α n} {accepted : Tokens → α → Prop} (hw : sh.WellNamed)
    {before between after : List Member} {m m' : Member} {i : Fin n}
    (name : Spells m.key (ascii (sh.fields.get i))) (name' : Spells m'.key (ascii (sh.fields.get i)))
    {given : Vector (Option α) n} :
    ¬ sh.Gives accepted (before ++ m :: (between ++ m' :: after)) given := by
  intro h
  induction before generalizing given with
  | nil =>
    cases h with
    | @field _ _ given j value name'' ha new others =>
      obtain rfl : j = i := hw.distinct j i (name''.unique name)
      obtain ⟨a, -, hj, -⟩ := others.focus hw name'
      exact Option.some_ne_none a (hj.symm.trans new)
    | other hk hn hv others => exact hn i (name.unique hk)
  | cons first before ih =>
    cases h with
    | field name ha new others => exact ih others
    | other hk hn hv others => exact ih others

/-- **Every record is decoded by its fields** if a value settles what is read for one. -/
theorem decodesByFields {sh : Shape α n} (hw : sh.WellNamed) (hs : sh.reader.Settled)
    (make : Vector α n → β) : sh.DecodesByFields (sh.record.map make) make sh.defaults where
  object hg hv ht :=
    Reader.decode_of_accepts ((accepts_object hw (hg.mono hs.accepts_of_takes) hv).map make) ht
  list hg hv ht :=
    Reader.decode_of_accepts ((accepts_items (hg.mono hs.accepts_of_takes) hv).map make) ht
  missing hg hi ht := by
    obtain ⟨rest, hb, -⟩ := ht.begins
    obtain ⟨j, hr, lacks, present⟩ :=
      read_object_lacking hw (hg.mono hs.accepts_of_takes) hi hb
    exact ⟨j, _, Reader.decode_map_of_error hr make, rfl, rfl, lacks, present⟩
  short hg hi ht := by
    obtain ⟨rest, hb, -⟩ := ht.begins
    have hr := read_items_lacking (hg.mono hs.accepts_of_takes) hi hb
    exact ⟨_, Reader.decode_map_of_error hr make, rfl, rfl⟩
  twice {before between after m m' i text} hm name name' ht value h := by
    obtain ⟨rest, hb, -⟩ := ht.begins
    obtain ⟨rest', hr⟩ := Reader.read_of_decode h
    rw [Reader.read_map] at hr
    split at hr
    · cases hr
    · rename_i hrecord
      obtain ⟨given, hg, -⟩ :=
        gives_of_readRecord hw (fun m hi => settlesMember_of_isMember hs (hm m hi)) hb hrecord
      exact not_gives_twice hw name name' hg

end Shape

end Json

/-! ## Readings, profiles, alarms and thresholds -/

theorem Reading.settled_reader : Reading.reader.Settled :=
  (Shape.settled_record Reading.wellNamed_shape Reader.settled_word).map _

theorem Profile.settled_reader : Profile.reader.Settled :=
  (Shape.settled_record Profile.wellNamed_shape Reading.settled_reader.list).map _

theorem Threshold.settled_reader : Threshold.reader.Settled :=
  (Shape.settled_record Threshold.wellNamed_shape Reader.settled_word).map _

/-- **Every form of a record is decoded by its fields.** A threshold has defaults for all of its
fields, the others for none. -/
theorem decode_by_fields :
    Profile.shape.DecodesByFields Profile.reader (fun v => ⟨v.get 0⟩) #v[none] ∧
      Reading.shape.DecodesByFields Reading.reader (fun v => ⟨v.get 0, v.get 1⟩)
        #v[none, none] ∧
      Alarm.shape.DecodesByFields Alarm.reader (fun v => ⟨v.get 0, v.get 1, v.get 2⟩)
        #v[none, none, none] ∧
      Threshold.shape.DecodesByFields Threshold.reader (fun v => ⟨v.get 0, v.get 1⟩)
        #v[some ({} : Threshold).leastSize, some ({} : Threshold).growthFactor] :=
  ⟨Shape.decodesByFields Profile.wellNamed_shape Reading.settled_reader.list _,
    Shape.decodesByFields Reading.wellNamed_shape Reader.settled_word _,
    Shape.decodesByFields Alarm.wellNamed_shape Reader.settled_word _,
    Shape.decodesByFields Threshold.wellNamed_shape Reader.settled_word _⟩

/-- A threshold's text names one field with an escape and leaves the other out. Before it stands a
nested value with half of a surrogate pair in it. -/
theorem decode_by_fields_escaped :
    let text := ascii "\x7b\"x\":[\x7b\"\\ud800\":-0.5e9\x7d],\"min\\u005fsize\":7\x7d"
    Threshold.reader.decode text = .ok ⟨7, ({} : Threshold).growthFactor⟩ := by
  intro text
  let number : Numeral := ⟨true, ascii "0", ascii "5", some ⟨0x65, none, ascii "9"⟩⟩
  let half : Member := ⟨ascii "\\ud800", [number.write]⟩
  let foreign : Member := ⟨ascii "x", listTokens [objectTokens [half]]⟩
  let named : Member := ⟨ascii "min\\u005fsize", writeWord 7⟩
  have number_wellFormed : number.WellFormed := by
    refine ⟨by decide +kernel, by decide +kernel, fun _ => rfl, by decide +kernel, ?_⟩
    rintro e ⟨⟩
    refine ⟨by decide, ?_, by decide +kernel, by decide +kernel⟩
    rintro b ⟨⟩
  have half_isContent : IsContent half.key :=
    IsContent.unit (GivesUnit.digits rfl rfl rfl rfl) IsContent.nil
  have half_isValue : IsValue (objectTokens [half]) :=
    IsValue.object (List.forall_mem_singleton.2 half_isContent)
      (List.forall_mem_singleton.2 (IsValue.number number_wellFormed))
  have foreign_isValue : IsValue foreign.value :=
    IsValue.list (List.forall_mem_singleton.2 half_isValue)
  have foreign_key : Spells foreign.key (ascii "x") := spells_iff.2 (by decide +kernel)
  have named_key : Spells named.key (ascii "min_size") := spells_iff.2 (by decide +kernel)
  have seven : Reader.word.Takes named.value 7 :=
    Reader.takes_of_accepts (isValue_writeWord 7) (Reader.accepts_word 7)
  have gives : Threshold.shape.Gives Reader.word.Takes [foreign, named]
      (Shape.keep (Vector.replicate 2 none) 0 7) :=
    Shape.Gives.other foreign_key (by decide +kernel) foreign_isValue
      (Shape.Gives.field named_key seven rfl Shape.Gives.none)
  have complete : ∀ i : Fin 2, ((Shape.keep (Vector.replicate 2 none) 0 7).get i).or
      (Threshold.shape.defaults.get i) =
        some ((#v[7, ({} : Threshold).growthFactor] : Vector UInt64 2).get i) := by decide
  have whole : compact (objectTokens [foreign, named]) = text := by decide +kernel
  exact decode_by_fields.2.2.2.object gives complete (whole ▸ spaced_compact _)

end HeapWatch
