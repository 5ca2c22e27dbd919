import HeapWatch.Proofs.Json.Accepts
/-!
# Texts that have lost their end

Of what was written, a text may have only a part: it stops before a token, within one, or among the
blanks between two. A list or a record does not end before its last bracket, so its reader finds
that the text ends too early, wherever that is. Only a number can be cut without anyone seeing it,
since the first digits of a number are a number; but then what comes after it is missing
(`Reader.breaks_word`).
-/

namespace HeapWatch.Json

/-! ## Torn texts -/

/-- Texts of some tokens that lack their end. -/
inductive Torn : Tokens → Bytes → Prop where
  | before {blanks token : Bytes} {tokens : Tokens} (h : ∀ b ∈ blanks, Byte.isBlank b) :
      Torn (token :: tokens) blanks
  | within {blanks token front back : Bytes} {tokens : Tokens} (h : ∀ b ∈ blanks, Byte.isBlank b)
      (e : token = front ++ back) (hf : front ≠ []) (hb : back ≠ []) :
      Torn (token :: tokens) (blanks ++ front)
  | after {blanks token text : Bytes} {tokens : Tokens} (h : ∀ b ∈ blanks, Byte.isBlank b)
      (rest : Torn tokens text) : Torn (token :: tokens) (blanks ++ (token ++ text))

theorem not_torn_nil (text : Bytes) : ¬ Torn [] text := by
  intro h
  cases h

theorem isBlank_of_mem_nil : ∀ b ∈ ([] : Bytes), Byte.isBlank b :=
  fun _ hb => absurd hb List.not_mem_nil

theorem torn_cons (token : Bytes) {tokens : Tokens} {text : Bytes} (h : Torn tokens text) :
    Torn (token :: tokens) (token ++ text) :=
  Torn.after isBlank_of_mem_nil h

/-- **Every beginning of a compact text is torn**, unless it is the whole. -/
theorem torn_of_prefix {tokens : Tokens} {text : Bytes} (hp : text <+: compact tokens)
    (hne : text ≠ compact tokens) : Torn tokens text := by
  induction tokens generalizing text with
  | nil => exact absurd (List.prefix_nil.1 hp) hne
  | cons token tokens ih =>
    have whole : compact (token :: tokens) = token ++ compact tokens := List.flatten_cons
    rw [whole] at hp hne
    rcases List.prefix_or_prefix_of_prefix hp (List.prefix_append token _) with ⟨back, e⟩ | h
    · by_cases hf : text = []
      · rw [hf]
        exact Torn.before isBlank_of_mem_nil
      · by_cases hb : back = []
        · -- the text is the whole token, and something is missing after it
          obtain rfl : text = token := by rw [← e, hb, List.append_nil]
          have missing : [] ≠ compact tokens := by
            intro h
            rw [← h, List.append_nil] at hne
            exact hne rfl
          simpa using torn_cons text (ih List.nil_prefix missing)
        · exact Torn.within isBlank_of_mem_nil e.symm hf hb
    · obtain ⟨rest, rfl⟩ := h
      have hp' : rest <+: compact tokens := (List.prefix_append_right_inj token).1 hp
      exact torn_cons token (ih hp' fun h => hne (h ▸ rfl))

/-- What lacks the end of some tokens and then others lacks the end of the first ones, or it has
these and lacks the end of the others. -/
theorem Torn.of_append {first second : Tokens} {text : Bytes} (h : Torn (first ++ second) text) :
    Torn first text ∨ ∃ middle, Begins first text middle ∧ Torn second middle := by
  induction first generalizing text with
  | nil => exact Or.inr ⟨text, Begins.done, h⟩
  | cons token first ih =>
    cases h with
    | before blank => exact Or.inl (Torn.before blank)
    | within blank e hf hb => exact Or.inl (Torn.within blank e hf hb)
    | after blank rest =>
      rcases ih rest with h | ⟨middle, hf, hs⟩
      · exact Or.inl (Torn.after blank h)
      · exact Or.inr ⟨middle, Begins.token blank hf, hs⟩

/-- Blanks are skipped up to the end, to a piece of the next token, or to the whole of it. -/
theorem Torn.skipBlanks_cons {b : UInt8} {token text : Bytes} {tokens : Tokens}
    (hb : Byte.isBlank b = false) (h : Torn ((b :: token) :: tokens) text) :
    skipBlanks text = [] ∨
      (∃ front back, token = front ++ back ∧ back ≠ [] ∧ skipBlanks text = b :: front) ∨
      ∃ s, skipBlanks text = b :: (token ++ s) ∧ Torn tokens s := by
  have start (s : Bytes) : skipBlanks (b :: s) = b :: s := by
    rw [HeapWatch.Json.skipBlanks_cons, hb]
    rfl
  cases h with
  | before blank => exact Or.inl (skipBlanks_eq_nil blank)
  | @within _ _ front back _ blank e hf hback =>
    obtain ⟨c, front, rfl⟩ := List.exists_cons_of_ne_nil hf
    obtain ⟨rfl, tail⟩ := List.cons.inj e
    refine Or.inr (Or.inl ⟨front, back, tail, hback, ?_⟩)
    rw [skipBlanks_append blank, start]
  | @after _ _ s _ blank rest =>
    refine Or.inr (Or.inr ⟨s, ?_, rest⟩)
    rw [skipBlanks_append blank, List.cons_append, start]

theorem Torn.skipBlanks_byte {b : UInt8} {text : Bytes} {tokens : Tokens}
    (hb : Byte.isBlank b = false) (h : Torn ([b] :: tokens) text) :
    skipBlanks text = [] ∨ ∃ s, skipBlanks text = b :: s ∧ Torn tokens s := by
  rcases h.skipBlanks_cons hb with h | ⟨front, back, e, hback, -⟩ | ⟨s, hs, ht⟩
  · exact Or.inl h
  · exact absurd (List.append_eq_nil_iff.1 e.symm).2 hback
  · exact Or.inr ⟨s, hs, ht⟩

theorem Torn.skipBlanks {b : UInt8} {token text : Bytes} {tokens : Tokens}
    (hb : Byte.isBlank b = false) (h : Torn ((b :: token) :: tokens) text) :
    HeapWatch.Json.skipBlanks text = [] ∨
      ∃ s, HeapWatch.Json.skipBlanks text = b :: s ∧ Torn ((b :: token) :: tokens) (b :: s) := by
  rcases h.skipBlanks_cons hb with h | ⟨front, back, rfl, hback, hs⟩ | ⟨s, hs, ht⟩
  · exact Or.inl h
  · exact Or.inr ⟨front, hs,
      Torn.within isBlank_of_mem_nil rfl (List.cons_ne_nil b front) hback⟩
  · exact Or.inr ⟨token ++ s, hs, torn_cons (b :: token) ht⟩

theorem EndsValue.endsNumber_torn {more : Tokens} {text : Bytes} (he : EndsValue more)
    (ht : Torn more text) : Numeral.EndsNumber text := by
  cases he with
  | @cons b _ h =>
    have blank {blanks : Bytes} (hb : ∀ b ∈ blanks, Byte.isBlank b) : Numeral.EndsNumber blanks := by
      simpa using endsNumber_blanks hb endsNumber_nil
    cases ht with
    | before hb => exact blank hb
    | within hb e hf hback =>
      rcases List.append_eq_cons_iff.1 e.symm with ⟨h, -⟩ | ⟨front, rfl, tail⟩
      · exact absurd h hf
      · exact absurd (List.append_eq_nil_iff.1 tail.symm).2 hback
    | after hb rest => exact endsNumber_blanks hb (endsNumber_cons _ h)

/-! ## Texts that end too early -/

/-- It was found that the text ends too early. -/
def EndsEarly {α : Type} (found : Except Fault α) : Prop :=
  ∃ fault, found = .error fault ∧ fault.cause.kind = .ended

theorem endsEarly_error {α : Type} {fault : Fault} (h : fault.cause.kind = .ended) :
    EndsEarly (.error fault : Except Fault α) := ⟨fault, rfl, h⟩

namespace Reader

variable {α β : Type}

/-- **Readers that find that a value is torn**, unless what is left of it is a value by itself, with
nothing after it. -/
def Breaks (r : Reader α) (tokens : Tokens) : Prop :=
  ∀ text, Torn tokens text →
    EndsEarly (r.read text) ∨ ∃ value rest, r.read text = .ok (value, rest) ∧ skipBlanks rest = []

/-- **Readers that find that a value is torn.** -/
def Stops (r : Reader α) (tokens : Tokens) : Prop :=
  ∀ text, Torn tokens text → EndsEarly (r.read text)

theorem Stops.breaks {r : Reader α} {tokens : Tokens} (h : r.Stops tokens) : r.Breaks tokens :=
  fun text ht => Or.inl (h text ht)

theorem Stops.map {r : Reader α} {tokens : Tokens} (h : r.Stops tokens) (f : α → β) :
    (r.map f).Stops tokens := by
  intro text ht
  obtain ⟨fault, hr, hk⟩ := h text ht
  rw [read_map, hr]
  exact endsEarly_error hk

theorem decode_of_stops {r : Reader α} {tokens : Tokens} {text : Bytes} (h : r.Stops tokens)
    (ht : Torn tokens text) :
    ∃ refusal, r.decode text = .error refusal ∧ refusal.cause.kind = .ended := by
  obtain ⟨fault, hr, hk⟩ := h text ht
  refine ⟨Refusal.ofFault text fault, ?_, hk⟩
  rw [decode, hr]

/-- A value in a torn text: it is torn itself, or it is read and what comes after it is torn. -/
theorem Accepts.read_torn {r : Reader α} {tokens more : Tokens} {value : α} {text : Bytes}
    (ha : r.Accepts tokens value) (hb : r.Breaks tokens) (he : EndsValue more)
    (ht : Torn (tokens ++ more) text) :
    EndsEarly (r.read text) ∨ ∃ found rest, r.read text = .ok (found, rest) ∧ Torn more rest := by
  rcases ht.of_append with h | ⟨middle, hbegins, hmore⟩
  · rcases hb text h with early | ⟨found, rest, hr, hrest⟩
    · exact Or.inl early
    · refine Or.inr ⟨found, rest, hr, ?_⟩
      cases he with
      | cons _ => exact Torn.before (isBlank_of_skipBlanks hrest)
  · exact Or.inr ⟨value, middle, ha.reads hbegins (he.endsNumber_torn hmore), hmore⟩

/-! ## Words -/

theorem endsEarly_readWord {text : Bytes} (h : skipBlanks text = []) :
    EndsEarly (readWord text) := by
  rw [readWord, h]
  exact endsEarly_error rfl

/-- **A torn word** has no digits, or the first digits of it, which are a word. -/
theorem breaks_word (value : UInt64) : word.Breaks (writeWord value) := by
  intro text ht
  cases ht with
  | before blank => exact Or.inl (endsEarly_readWord (skipBlanks_eq_nil blank))
  | @within blanks _ front back _ blank e hf hb =>
    obtain ⟨digits, others, hd, rfl, -⟩ := List.map_eq_append_iff.1 e
    have hne : digits ≠ [] := fun h => hf (h ▸ rfl)
    obtain ⟨n, hle, hn⟩ := Digits.exists_ofNat_of_append hd hne
    have hlt : n < UInt64.size := Nat.lt_of_le_of_lt hle value.toNat_lt
    have written : writeWord n.toUInt64 = [digits.map Digits.toByte] := by
      rw [writeWord, Nat.toUInt64_eq, UInt64.toNat_ofNat_of_lt' hlt, hn]
    have begins : Begins [digits.map Digits.toByte]
        (blanks ++ (digits.map Digits.toByte ++ [])) [] := Begins.token blank Begins.done
    rw [List.append_nil, ← written] at begins
    exact Or.inr ⟨n.toUInt64, [], (accepts_word _).reads begins endsNumber_nil, rfl⟩
  | after blank rest => exact absurd rest (not_torn_nil _)

/-! ## Lists -/

theorem endsEarly_readElements {r : Reader α} {first : Bool} {found : Array α} {s : Bytes}
    (h : EndsEarly (nextElement first s)) : EndsEarly (r.readElements first found s) := by
  obtain ⟨fault, hn, hk⟩ := h
  rw [readElements]
  split <;> simp_all [EndsEarly]

theorem endsEarly_readElements_read {r : Reader α} {first : Bool} {found : Array α}
    {s s' : Bytes} (hn : nextElement first s = .ok (true, s')) (h : EndsEarly (r.read s')) :
    EndsEarly (r.readElements first found s) := by
  obtain ⟨fault, hr, hk⟩ := h
  rw [readElements_of_item hn, hr]
  exact endsEarly_error hk

theorem endsEarly_nextElement (first : Bool) {text : Bytes} (h : skipBlanks text = []) :
    EndsEarly (nextElement first text) := by
  rw [nextElement, h]
  exact endsEarly_error rfl

theorem endsEarly_nextElement_comma {text s : Bytes} (h : skipBlanks text = Byte.comma :: s)
    (h' : skipBlanks s = []) : EndsEarly (nextElement false text) := by
  have comma : Byte.comma ≠ Byte.closeList := by decide
  rw [nextElement, h]
  dsimp only
  rw [if_neg comma, if_neg Bool.false_ne_true, if_pos rfl, h']
  exact endsEarly_error rfl

theorem Accepts.front_torn {r : Reader α} {tokens more : Tokens} {value : α} {text : Bytes}
    (h : r.Accepts tokens value) (ht : Torn (tokens ++ more) text) :
    skipBlanks text = [] ∨
      ∃ b s, skipBlanks text = b :: s ∧ b ≠ Byte.closeList ∧ Torn (tokens ++ more) (b :: s) := by
  obtain ⟨b, token, others, rfl, hb, hl⟩ := h.opens
  rcases ht.skipBlanks hb with h | ⟨s, hs, hr⟩
  · exact Or.inl h
  · exact Or.inr ⟨b, s, hs, hl, hr⟩

/-- Before an accepted value the reader finds that another element comes, if anything of it is
left. -/
theorem Accepts.nextElement_torn {r : Reader α} {tokens more : Tokens} {value : α} {first : Bool}
    {text : Bytes} (h : r.Accepts tokens value)
    (ht : Torn (separator first ++ (tokens ++ more)) text) :
    EndsEarly (nextElement first text) ∨
      ∃ s, nextElement first text = .ok (true, s) ∧ Torn (tokens ++ more) s := by
  cases first with
  | true =>
    rcases h.front_torn ht with hs | ⟨b, s, hs, hl, hr⟩
    · exact Or.inl (endsEarly_nextElement true hs)
    · exact Or.inr ⟨b :: s, nextElement_first hs hl, hr⟩
  | false =>
    rcases ht.skipBlanks_byte rfl with hs | ⟨s, hs, hr⟩
    · exact Or.inl (endsEarly_nextElement false hs)
    · rcases h.front_torn hr with hs' | ⟨b, s', hs', hl, hr'⟩
      · exact Or.inl (endsEarly_nextElement_comma hs hs')
      · exact Or.inr ⟨b :: s', nextElement_comma hs hs' hl, hr'⟩

/-- **The elements of a torn list** are read up to where it ends too early. -/
theorem endsEarly_readElements_separated {r : Reader α} {write : α → Tokens} {values : List α}
    (ha : ∀ v ∈ values, r.Accepts (write v) v) (hb : ∀ v ∈ values, r.Breaks (write v))
    {first : Bool} (found : Array α) {text : Bytes}
    (ht : Torn (separated first (values.map write) ++ [[Byte.closeList]]) text) :
    EndsEarly (r.readElements first found text) := by
  -- an element that is there whole leaves a torn list of those after it
  induction values generalizing first found text with
  | nil =>
    rcases ht.skipBlanks_byte rfl with hs | ⟨s, -, hs⟩
    · exact endsEarly_readElements (endsEarly_nextElement first hs)
    · exact absurd hs (not_torn_nil s)
  | cons v values ih =>
    rw [List.forall_mem_cons] at ha hb
    rw [List.map_cons, separated, List.append_assoc, List.append_assoc] at ht
    rcases ha.1.nextElement_torn ht with early | ⟨s, hn, hs⟩
    · exact endsEarly_readElements early
    · rcases ha.1.read_torn hb.1 (endsValue_separated _ (Or.inl rfl)) hs with
        early | ⟨value, rest, hr, hrest⟩
      · exact endsEarly_readElements_read hn early
      · rw [readElements_more hn hr]
        exact ih ha.2 hb.2 (found.push value) hrest

/-- **A torn list ends too early.** -/
theorem stops_list {r : Reader α} {write : α → Tokens} {values : List α}
    (ha : ∀ v ∈ values, r.Accepts (write v) v) (hb : ∀ v ∈ values, r.Breaks (write v)) :
    r.list.Stops (writeList write values) := by
  intro text ht
  rw [writeList_eq] at ht
  change EndsEarly (readList r text)
  rcases ht.skipBlanks_byte rfl with hs | ⟨s, hs, hr⟩
  · rw [readList, hs]
    exact endsEarly_error rfl
  · rw [readList, hs]
    dsimp only
    rw [if_pos rfl]
    exact endsEarly_readElements_separated ha hb #[] hr

end Reader

/-! ## Names -/

theorem endsEarly_scanText {bytes : Bytes} (h : IsPlain bytes) : EndsEarly (scanText bytes) := by
  induction bytes with
  | nil =>
    rw [scanText]
    exact endsEarly_error rfl
  | cons b bytes ih =>
    obtain ⟨hquote, hslash, hcontrol⟩ := h b List.mem_cons_self
    obtain ⟨fault, hs, hk⟩ := ih fun c hc => h c (List.mem_cons_of_mem _ hc)
    refine ⟨fault, ?_, hk⟩
    simp [scanText, hquote, hslash, hcontrol, hs]

theorem endsEarly_scanText_name {name front back : Bytes} (h : IsPlain name)
    (e : name ++ [Byte.quote] = front ++ back) (hb : back ≠ []) : EndsEarly (scanText front) := by
  have hp : front <+: name ++ [Byte.quote] := ⟨back, e.symm⟩
  have inside : front <+: name := by
    rcases List.prefix_concat_iff.1 hp with whole | inside
    · rw [whole] at e
      exact absurd (List.self_eq_append_right.1 e) hb
    · exact inside
  exact endsEarly_scanText fun b hmem => h b (inside.subset hmem)

theorem endsEarly_nextKey (first : Bool) {text : Bytes} (h : skipBlanks text = []) :
    EndsEarly (nextKey first text) := by
  rw [nextKey, h]
  exact endsEarly_error rfl

theorem endsEarly_nextKey_comma {text s : Bytes} (h : skipBlanks text = Byte.comma :: s)
    (h' : skipBlanks s = []) : EndsEarly (nextKey false text) := by
  rw [nextKey, h]
  dsimp only
  rw [h']
  exact endsEarly_error rfl

/-- Before a name the reader finds that another member comes, if anything of the name is left. -/
theorem nextKey_torn {first : Bool} {token text : Bytes} {more : Tokens}
    (ht : Torn (separator first ++ (Byte.quote :: token) :: more) text) :
    EndsEarly (nextKey first text) ∨
      (∃ front back, token = front ++ back ∧ back ≠ [] ∧ nextKey first text = .ok (true, front)) ∨
      ∃ s, nextKey first text = .ok (true, token ++ s) ∧ Torn more s := by
  cases first with
  | true =>
    rcases ht.skipBlanks_cons rfl with hs | ⟨front, back, e, hb, hs⟩ | ⟨s, hs, hr⟩
    · exact Or.inl (endsEarly_nextKey true hs)
    · exact Or.inr (Or.inl ⟨front, back, e, hb, nextKey_first hs⟩)
    · exact Or.inr (Or.inr ⟨s, nextKey_first hs, hr⟩)
  | false =>
    rcases ht.skipBlanks_byte rfl with hs | ⟨s, hs, hr⟩
    · exact Or.inl (endsEarly_nextKey false hs)
    · rcases hr.skipBlanks_cons rfl with hs' | ⟨front, back, e, hb, hs'⟩ | ⟨s', hs', hr'⟩
      · exact Or.inl (endsEarly_nextKey_comma hs hs')
      · exact Or.inr (Or.inl ⟨front, back, e, hb, nextKey_comma hs hs'⟩)
      · exact Or.inr (Or.inr ⟨s', nextKey_comma hs hs', hr'⟩)

/-! ## Records -/

namespace Shape

variable {α : Type} {n : Nat}

theorem endsEarly_readMembers {sh : Shape α n} {first : Bool} {found : Vector (Option α) n}
    {s : Bytes} (h : EndsEarly (nextKey first s)) : EndsEarly (sh.readMembers first found s) := by
  obtain ⟨fault, hn, hk⟩ := h
  rw [readMembers]
  split <;> simp_all [EndsEarly]

theorem endsEarly_readMembers_name {sh : Shape α n} {first : Bool} {found : Vector (Option α) n}
    {s s' : Bytes} (hk : nextKey first s = .ok (true, s')) (h : EndsEarly (scanText s')) :
    EndsEarly (sh.readMembers first found s) := by
  obtain ⟨fault, ht, hkind⟩ := h
  rw [readMembers_of_key hk, ht]
  exact endsEarly_error hkind

theorem endsEarly_readMembers_field {sh : Shape α n} {first : Bool} {found : Vector (Option α) n}
    {s s₁ s₂ key : Bytes} {i : Fin n} (hk : nextKey first s = .ok (true, s₁))
    (ht : scanText s₁ = .ok (key, s₂)) (hi : sh.index? key = some i) (hf : found.get i = none)
    (h : EndsEarly (sh.readField s₂)) : EndsEarly (sh.readMembers first found s) := by
  obtain ⟨fault, hv, hkind⟩ := h
  rw [readMembers_of_key hk, ht]
  dsimp only
  rw [hi]
  dsimp only
  rw [hf, if_neg (by simp), hv]
  exact endsEarly_error hkind

theorem endsEarly_readField {sh : Shape α n} {s : Bytes} (h : skipBlanks s = []) :
    EndsEarly (sh.readField s) := by
  rw [readField, scanColon, h]
  exact endsEarly_error rfl

/-- **One torn member** of a field that was not found before: the text ends in it, or its value is
found and what comes after it is torn. -/
theorem readMembers_torn {sh : Shape α n} (hw : sh.WellNamed) {first : Bool}
    {found : Vector (Option α) n} {i : Fin n} (hf : found.get i = none) {tokens more : Tokens}
    {value : α} (ha : sh.reader.Accepts tokens value) (hb : sh.reader.Breaks tokens)
    (he : EndsValue more) {text : Bytes}
    (ht : Torn (separator first ++ (writeMember (sh.fields.get i) tokens ++ more)) text) :
    EndsEarly (sh.readMembers first found text) ∨
      ∃ value rest, sh.readMembers first found text =
        sh.readMembers false (keep found i value) rest ∧ Torn more rest := by
  have plain := hw.plain i
  rcases nextKey_torn ht with early | ⟨front, back, e, hback, hk⟩ | ⟨s, hk, hs⟩
  · exact Or.inl (endsEarly_readMembers early)
  · exact Or.inl (endsEarly_readMembers_name hk (endsEarly_scanText_name plain e hback))
  · have name : scanText (ascii (sh.fields.get i) ++ [Byte.quote] ++ s) =
        .ok (ascii (sh.fields.get i), s) := by
      rw [List.append_assoc]
      exact scanText_plain plain s
    have field (h : EndsEarly (sh.readField s)) : EndsEarly (sh.readMembers first found text) :=
      endsEarly_readMembers_field hk name (hw.index?_name i) hf h
    rcases hs.skipBlanks_byte rfl with hc | ⟨s₁, hc, hs₁⟩
    · exact Or.inl (field (endsEarly_readField hc))
    · have read : sh.readField s = sh.reader.read s₁ := by
        rw [readField, scanColon_of_skipBlanks hc]
      rcases ha.read_torn hb he hs₁ with early | ⟨found', rest, hr, hrest⟩
      · exact Or.inl (field (read ▸ early))
      · have hv := read.trans hr
        exact Or.inr ⟨found', rest,
          readMembers_field hk name (hw.index?_name i) hf hv, hrest⟩

/-- **The members of a torn object** are read up to where it ends too early. -/
theorem endsEarly_readMembers_separated {sh : Shape α n} (hw : sh.WellNamed) {write : α → Tokens}
    {values : Vector α n}
    (ha : ∀ i : Fin n, sh.reader.Accepts (write (values.get i)) (values.get i))
    (hb : ∀ i : Fin n, sh.reader.Breaks (write (values.get i)))
    {todo : List (Fin n)} (hd : todo.Nodup) {first : Bool} {found : Vector (Option α) n}
    (hf : ∀ i ∈ todo, found.get i = none) {text : Bytes}
    (ht : Torn (separated first (sh.members write values todo) ++ [[Byte.closeObject]]) text) :
    EndsEarly (sh.readMembers first found text) := by
  induction todo generalizing first found text with
  | nil =>
    rcases ht.skipBlanks_byte rfl with hs | ⟨s, -, hs⟩
    · exact endsEarly_readMembers (endsEarly_nextKey first hs)
    · exact absurd hs (not_torn_nil s)
  | cons i todo ih =>
    obtain ⟨hi, hd⟩ := List.nodup_cons.1 hd
    rw [List.forall_mem_cons] at hf
    rw [members, List.map_cons, separated, List.append_assoc, List.append_assoc] at ht
    rcases readMembers_torn hw hf.1 (ha i) (hb i) (endsValue_separated _ (Or.inr rfl)) ht with
      early | ⟨value, rest, hm, hrest⟩
    · exact early
    · rw [hm]
      refine ih hd (fun j hj => ?_) hrest
      have hne : i ≠ j := by
        rintro rfl
        exact hi hj
      rw [get_keep_of_ne found hne]
      exact hf.2 j hj

/-- **A torn record ends too early.** -/
theorem stops_write {sh : Shape α n} (hw : sh.WellNamed) (write : α → Tokens)
    {values : Vector α n}
    (ha : ∀ i : Fin n, sh.reader.Accepts (write (values.get i)) (values.get i))
    (hb : ∀ i : Fin n, sh.reader.Breaks (write (values.get i))) :
    sh.record.Stops (sh.write write values) := by
  intro text ht
  rw [write_eq] at ht
  change EndsEarly (readRecord sh text)
  rcases ht.skipBlanks_byte rfl with hs | ⟨s, hs, hr⟩
  · rw [readRecord, hs]
    exact endsEarly_error rfl
  · have nothing : ∀ i ∈ List.finRange n, (Vector.replicate n (none : Option α)).get i = none :=
      fun i _ => Vector.getElem_replicate i.isLt
    obtain ⟨fault, hm, hk⟩ :=
      endsEarly_readMembers_separated hw ha hb (List.nodup_finRange n) nothing hr
    rw [readRecord_object hs, hm]
    exact endsEarly_error hk

end Shape

end HeapWatch.Json
