import Mathlib.Data.List.Forall2
import HeapWatch.Json.Writer
import HeapWatch.Proofs.Json.Numerals
/-!
# Readers take what was written

A reader *accepts* the tokens of a value (`Reader.Accepts`) if it finds the value at the front of
every text that begins with these tokens, however they are spaced, and leaves exactly what comes
after them. A number would swallow any more digits, so what comes after a number must not go on with
it; after a list or a record anything may come.
-/

namespace HeapWatch.Json

/-! ## Texts that begin with some tokens -/

/-- Texts that begin with some tokens, blanks in front of each, and go on with `rest`. -/
inductive Begins : Tokens → Bytes → Bytes → Prop where
  | done {rest : Bytes} : Begins [] rest rest
  | token {blanks token text rest : Bytes} {tokens : Tokens} (h : ∀ b ∈ blanks, Byte.isBlank b)
      (more : Begins tokens text rest) : Begins (token :: tokens) (blanks ++ (token ++ text)) rest

/-- A text that starts with its first token. -/
theorem begins_cons {token text rest : Bytes} {tokens : Tokens} (h : Begins tokens text rest) :
    Begins (token :: tokens) (token ++ text) rest :=
  Begins.token (fun _ hb => absurd hb List.not_mem_nil) h

theorem begins_compact (tokens : Tokens) (rest : Bytes) :
    Begins tokens (compact tokens ++ rest) rest := by
  induction tokens with
  | nil => exact Begins.done
  | cons token tokens ih =>
    rw [compact, List.flatten_cons, List.append_assoc]
    exact begins_cons ih

/-- A text that has some tokens begins with them, and only blanks come after. -/
theorem Spaced.begins {tokens : Tokens} {text : Bytes} (h : Spaced tokens text) :
    ∃ rest, Begins tokens text rest ∧ ∀ b ∈ rest, Byte.isBlank b := by
  induction h with
  | @done blanks h => exact ⟨blanks, Begins.done, h⟩
  | token h _ ih =>
    obtain ⟨rest, hb, blank⟩ := ih
    exact ⟨rest, Begins.token h hb, blank⟩

theorem Begins.of_append {first second : Tokens} {text rest : Bytes}
    (h : Begins (first ++ second) text rest) :
    ∃ middle, Begins first text middle ∧ Begins second middle rest := by
  induction first generalizing text with
  | nil => exact ⟨text, Begins.done, h⟩
  | cons token first ih =>
    cases h with
    | token blank more =>
      obtain ⟨middle, hf, hs⟩ := ih more
      exact ⟨middle, Begins.token blank hf, hs⟩

theorem Begins.skipBlanks_cons {b : UInt8} {token text rest : Bytes} {tokens : Tokens}
    (hb : Byte.isBlank b = false) (h : Begins ((b :: token) :: tokens) text rest) :
    ∃ s, skipBlanks text = b :: (token ++ s) ∧ Begins tokens s rest := by
  cases h with
  | token blank more =>
    refine ⟨_, ?_, more⟩
    rw [skipBlanks_append blank, List.cons_append, HeapWatch.Json.skipBlanks_cons, hb]
    rfl

theorem skipBlanks_eq_nil {text : Bytes} (h : ∀ b ∈ text, Byte.isBlank b) :
    skipBlanks text = [] := by
  simpa using skipBlanks_append h []

theorem isBlank_of_skipBlanks {text : Bytes} (h : skipBlanks text = []) :
    ∀ b ∈ text, Byte.isBlank b := by
  induction text with
  | nil => exact fun b hb => absurd hb List.not_mem_nil
  | cons b text ih =>
    rw [HeapWatch.Json.skipBlanks_cons] at h
    split at h
    · rename_i hb
      exact List.forall_mem_cons.2 ⟨hb, ih h⟩
    · cases h

/-- Tokens that start with a byte that ends neither blanks nor a list. -/
def Opens (tokens : Tokens) : Prop :=
  ∃ b token rest, tokens = (b :: token) :: rest ∧ Byte.isBlank b = false ∧ b ≠ Byte.closeList

/-- What comes after the blanks in front of such tokens. -/
theorem Opens.front {tokens more : Tokens} {text rest : Bytes} (h : Opens tokens)
    (ht : Begins (tokens ++ more) text rest) :
    ∃ b s, skipBlanks text = b :: s ∧ b ≠ Byte.closeList ∧ Begins (tokens ++ more) (b :: s) rest := by
  obtain ⟨b, token, others, rfl, hb, hl⟩ := h
  obtain ⟨s, hs, hr⟩ := ht.skipBlanks_cons hb
  exact ⟨b, token ++ s, hs, hl, begins_cons hr⟩

/-! ## What may come after a number -/

theorem isDigit_of_isBlank {b : UInt8} (h : Byte.isBlank b) :
    Byte.isDigit b = false ∧ b ≠ Byte.point ∧ Byte.isExponentMark b = false := by
  simp only [Byte.isBlank, Bool.or_eq_true, beq_iff_eq] at h
  rcases h with ((rfl | rfl) | rfl) | rfl <;> decide

theorem endsNumber_nil : Numeral.EndsNumber [] := by
  intro b hb
  cases hb

theorem endsNumber_blanks {blanks rest : Bytes} (h : ∀ b ∈ blanks, Byte.isBlank b)
    (hr : Numeral.EndsNumber rest) : Numeral.EndsNumber (blanks ++ rest) := by
  cases blanks with
  | nil => exact hr
  | cons b blanks =>
    intro c hc
    obtain rfl : b = c := Option.some.inj hc
    exact isDigit_of_isBlank (h b List.mem_cons_self)

/-- The tokens that may come after a value: a comma, or the end of what the value is in. -/
inductive EndsValue : Tokens → Prop where
  | cons {b : UInt8} {more : Tokens}
      (h : b = Byte.comma ∨ b = Byte.closeList ∨ b = Byte.closeObject) : EndsValue ([b] :: more)

/-- No number goes on into a byte that may come after a value. -/
theorem endsNumber_cons {b : UInt8} (s : Bytes)
    (h : b = Byte.comma ∨ b = Byte.closeList ∨ b = Byte.closeObject) :
    Numeral.EndsNumber (b :: s) := by
  intro c hc
  obtain rfl : b = c := Option.some.inj hc
  rcases h with rfl | rfl | rfl <;> decide

theorem EndsValue.endsNumber {more : Tokens} {text rest : Bytes} (he : EndsValue more)
    (ht : Begins more text rest) : Numeral.EndsNumber text := by
  cases he with
  | cons h =>
    cases ht with
    | token blank _ => exact endsNumber_blanks blank (endsNumber_cons _ h)

/-! ## Items with commas between them -/

/-- What stands before an item: a comma, unless it is the first. -/
def separator (first : Bool) : Tokens := if first then [] else [[Byte.comma]]

/-- Items, with a comma before each but the first. -/
def separated (first : Bool) : List Tokens → Tokens
  | [] => []
  | item :: items => separator first ++ (item ++ separated false items)

theorem joined_eq_separated (items : List Tokens) : joined items = separated true items := by
  fun_induction joined items with
  | case1 => rfl
  | case2 item => simp [separated, separator]
  | case3 item next rest ih =>
    rw [ih]
    simp [separated, separator]

/-- After an item come a comma or the end. -/
theorem endsValue_separated (items : List Tokens) {b : UInt8} {more : Tokens}
    (h : b = Byte.closeList ∨ b = Byte.closeObject) :
    EndsValue (separated false items ++ [b] :: more) := by
  cases items with
  | nil => exact EndsValue.cons (Or.inr h)
  | cons item items => exact EndsValue.cons (Or.inl rfl)

namespace Reader

variable {α β : Type}

/-- **Readers that accept the tokens of a value.** -/
structure Accepts (r : Reader α) (tokens : Tokens) (value : α) : Prop where
  /-- The tokens start with a byte that ends neither blanks nor a list. -/
  opens : ∃ b token rest, tokens = (b :: token) :: rest ∧ Byte.isBlank b = false ∧
    b ≠ Byte.closeList
  reads : ∀ {text rest : Bytes}, Begins tokens text rest → Numeral.EndsNumber rest →
    r.read text = .ok (value, rest)

/-- The value of a text with these tokens and no others. -/
theorem decode_of_accepts {r : Reader α} {tokens : Tokens} {value : α} {text : Bytes}
    (h : r.Accepts tokens value) (ht : Spaced tokens text) : r.decode text = .ok value := by
  obtain ⟨rest, hb, blank⟩ := ht.begins
  have ends : Numeral.EndsNumber rest := by simpa using endsNumber_blanks blank endsNumber_nil
  rw [decode, h.reads hb ends]
  dsimp only
  rw [skipBlanks_eq_nil blank]

theorem Accepts.map {r : Reader α} {tokens : Tokens} {value : α} (h : r.Accepts tokens value)
    (f : α → β) : (r.map f).Accepts tokens (f value) := by
  refine ⟨h.opens, fun ht he => ?_⟩
  rw [read_map, h.reads ht he]

/-! ## Words -/

theorem writeWord_eq (value : UInt64) : writeWord value = [(Numeral.ofWord value).write] := by
  simp [writeWord, Numeral.write, Numeral.ofWord]

theorem isBlank_of_isDigit {b : UInt8} (hb : Byte.isDigit b) : Byte.isBlank b = false := by
  refine Bool.eq_false_iff.2 fun h => ?_
  rw [(isDigit_of_isBlank h).1] at hb
  exact Bool.false_ne_true hb

theorem ne_of_startsNumber {b : UInt8} (hb : b = Byte.minus ∨ Byte.isDigit b) :
    Byte.isBlank b = false ∧ b ≠ Byte.closeList ∧ b ≠ Byte.openList ∧ b ≠ Byte.openObject ∧
      b ≠ Byte.quote := by
  rcases hb with rfl | hd
  · decide
  · exact ⟨isBlank_of_isDigit hd, Byte.ne_of_isDigit hd rfl, Byte.ne_of_isDigit hd rfl,
      Byte.ne_of_isDigit hd rfl, Byte.ne_of_isDigit hd rfl⟩

theorem opens_number {n : Numeral} (hn : n.WellFormed) : Opens [n.write] := by
  obtain ⟨b, token, hw, hb⟩ := Numeral.exists_write_eq_cons hn
  obtain ⟨blank, list, -⟩ := ne_of_startsNumber hb
  exact ⟨b, token, [], by rw [hw], blank, list⟩

/-- **A number is read** as the word that its quantity is, if it is one. -/
theorem read_number {n : Numeral} (hn : n.WellFormed) {text rest : Bytes}
    (ht : Begins [n.write] text rest) (he : Numeral.EndsNumber rest) :
    word.read text =
      match n.quantity with
      | .error unread => .error ⟨.numberTooLarge, rest.length + unread⟩
      | .ok quantity =>
        match wordOf quantity with
        | .error cause => .error (.before cause rest)
        | .ok value => .ok (value, rest) := by
  obtain ⟨b, token, hw, hb⟩ := Numeral.exists_write_eq_cons hn
  have scanned := Numeral.scan_write .endInValue hn he
  rw [hw] at ht scanned
  obtain ⟨s, hs, hr⟩ := ht.skipBlanks_cons (ne_of_startsNumber hb).1
  cases hr
  change readWord text = _
  rw [readWord, hs]
  dsimp only
  rw [if_pos hb, scanQuantity, ← List.cons_append, scanned]
  dsimp only
  cases n.quantity <;> rfl

theorem accepts_number {n : Numeral} (hn : n.WellFormed) {value : UInt64}
    (hq : n.quantity = .ok (.natural value)) : word.Accepts [n.write] value := by
  refine ⟨opens_number hn, fun ht he => ?_⟩
  rw [read_number hn ht he, hq]
  rfl

/-- **A written word is accepted.** -/
theorem accepts_word (value : UInt64) : word.Accepts (writeWord value) value := by
  rw [writeWord_eq]
  exact accepts_number (Numeral.wellFormed_ofWord value) (Numeral.quantity_ofWord value)

/-! ## Lists -/

theorem readElements_end {r : Reader α} {first : Bool} {found : Array α} {s rest : Bytes}
    (h : nextElement first s = .ok (false, rest)) :
    r.readElements first found s = .ok (found, rest.tail) := by
  fun_cases readElements r first found s with
  | case1 fault hn => cases hn.symm.trans h
  | case2 rest' hn =>
    cases hn.symm.trans h
    rfl
  | case3 s₁ hn => cases hn.symm.trans h
  | case4 s₁ hn => cases hn.symm.trans h

theorem readElements_of_item {r : Reader α} {first : Bool} {found : Array α} {s s₁ : Bytes}
    (h : nextElement first s = .ok (true, s₁)) :
    r.readElements first found s =
      match r.read s₁ with
      | .error fault => .error fault
      | .ok (value, s₂) => r.readElements false (found.push value) s₂ := by
  rw [readElements]
  split
  · cases ‹nextElement first s = _›.symm.trans h
  · cases ‹nextElement first s = _›.symm.trans h
  · rename_i s₁' hn
    cases hn.symm.trans h
    split <;> simp_all

theorem readElements_more {r : Reader α} {first : Bool} {found : Array α} {s s₁ s₂ : Bytes}
    {value : α} (h : nextElement first s = .ok (true, s₁)) (hr : r.read s₁ = .ok (value, s₂)) :
    r.readElements first found s = r.readElements false (found.push value) s₂ := by
  rw [readElements_of_item h, hr]

theorem nextElement_closeList (first : Bool) {more : Tokens} {text rest : Bytes}
    (ht : Begins ([Byte.closeList] :: more) text rest) :
    ∃ s, nextElement first text = .ok (false, Byte.closeList :: s) ∧ Begins more s rest := by
  obtain ⟨s, hs, hr⟩ := ht.skipBlanks_cons rfl
  refine ⟨s, ?_, hr⟩
  rw [nextElement, hs]
  rfl

theorem nextElement_first {text s : Bytes} {b : UInt8} (hs : skipBlanks text = b :: s)
    (hb : b ≠ Byte.closeList) : nextElement true text = .ok (true, b :: s) := by
  rw [nextElement, hs]
  dsimp only
  rw [if_neg hb, if_pos rfl]

theorem nextElement_comma {text s s' : Bytes} {b : UInt8} (hs : skipBlanks text = Byte.comma :: s)
    (hs' : skipBlanks s = b :: s') (hb : b ≠ Byte.closeList) :
    nextElement false text = .ok (true, b :: s') := by
  have comma : Byte.comma ≠ Byte.closeList := by decide
  rw [nextElement, hs]
  dsimp only
  rw [if_neg comma, if_neg Bool.false_ne_true, if_pos rfl, hs']
  dsimp only
  rw [if_neg hb]

/-- Before a value the reader finds that another element comes. -/
theorem nextElement_item {tokens more : Tokens} {first : Bool} {text rest : Bytes}
    (h : Opens tokens) (ht : Begins (separator first ++ (tokens ++ more)) text rest) :
    ∃ s, nextElement first text = .ok (true, s) ∧ Begins (tokens ++ more) s rest := by
  cases first with
  | true =>
    obtain ⟨b, s, hs, hl, hr⟩ := h.front ht
    exact ⟨b :: s, nextElement_first hs hl, hr⟩
  | false =>
    obtain ⟨s, hs, hr⟩ := ht.skipBlanks_cons rfl
    obtain ⟨b, s', hs', hl, hr'⟩ := h.front hr
    exact ⟨b :: s', nextElement_comma hs hs' hl, hr'⟩

/-- **The elements of a list** are read up to its end. -/
theorem readElements_separated {r : Reader α} {items : List Tokens} {values : List α}
    (h : List.Forall₂ r.Accepts items values) {first : Bool} (found : Array α) {more : Tokens}
    {text rest : Bytes}
    (ht : Begins (separated first items ++ [Byte.closeList] :: more) text rest) :
    ∃ s, r.readElements first found text = .ok ((found.toList ++ values).toArray, s) ∧
      Begins more s rest := by
  induction h generalizing first found text with
  | nil =>
    obtain ⟨s, hn, hr⟩ := nextElement_closeList first ht
    refine ⟨s, ?_, hr⟩
    rw [readElements_end hn, List.append_nil]
    rfl
  | @cons item v items values hv _ ih =>
    rw [separated, List.append_assoc, List.append_assoc] at ht
    obtain ⟨s, hn, hs⟩ := nextElement_item hv.opens ht
    obtain ⟨middle, hitem, hmore⟩ := hs.of_append
    have hr := hv.reads hitem ((endsValue_separated _ (Or.inl rfl)).endsNumber hmore)
    obtain ⟨s', hl, hrest⟩ := ih (found.push v) hmore
    refine ⟨s', ?_, hrest⟩
    rw [readElements_more hn hr, hl]
    simp

/-- **A list is accepted** if each of its elements is. -/
theorem accepts_separated {r : Reader α} {items : List Tokens} {values : List α}
    (h : List.Forall₂ r.Accepts items values) :
    r.list.Accepts ([Byte.openList] :: (separated true items ++ [[Byte.closeList]]))
      values.toArray := by
  refine ⟨⟨Byte.openList, [], _, rfl, rfl, by decide⟩, fun ht _ => ?_⟩
  obtain ⟨s, hs, hr⟩ := ht.skipBlanks_cons rfl
  obtain ⟨s', hl, hmore⟩ := readElements_separated h #[] hr
  cases hmore
  change readList r _ = _
  rw [readList, hs]
  dsimp only
  rw [if_pos rfl, List.nil_append, hl]
  rfl

theorem writeList_eq (write : α → Tokens) (values : List α) :
    writeList write values =
      [Byte.openList] :: (separated true (values.map write) ++ [[Byte.closeList]]) := by
  rw [writeList, joined_eq_separated, List.cons_append]

/-- **A written list is accepted** if each of its elements is. -/
theorem accepts_list {r : Reader α} {write : α → Tokens} {values : Array α}
    (h : ∀ v ∈ values.toList, r.Accepts (write v) v) :
    r.list.Accepts (writeList write values.toList) values := by
  rw [writeList_eq]
  exact accepts_separated (List.forall₂_map_left_iff.2 (List.forall₂_same.2 h))

end Reader

/-! ## Names -/

/-- Bytes that stand for themselves in a string. -/
def IsPlain (bytes : Bytes) : Prop :=
  ∀ b ∈ bytes, b ≠ Byte.quote ∧ b ≠ Byte.backslash ∧ Byte.isControl b = false

instance (bytes : Bytes) : Decidable (IsPlain bytes) :=
  inferInstanceAs (Decidable (∀ b ∈ bytes, _))

theorem scanText_plain {bytes : Bytes} (h : IsPlain bytes) (s : Bytes) :
    scanText (bytes ++ Byte.quote :: s) = .ok (bytes, s) := by
  induction bytes with
  | nil => simp [scanText]
  | cons b bytes ih =>
    obtain ⟨hquote, hslash, hcontrol⟩ := h b List.mem_cons_self
    have ih := ih fun c hc => h c (List.mem_cons_of_mem _ hc)
    simp [scanText, hquote, hslash, hcontrol, ih]

theorem nextKey_closeObject (first : Bool) {more : Tokens} {text rest : Bytes}
    (ht : Begins ([Byte.closeObject] :: more) text rest) :
    ∃ s, nextKey first text = .ok (false, Byte.closeObject :: s) ∧ Begins more s rest := by
  obtain ⟨s, hs, hr⟩ := ht.skipBlanks_cons rfl
  refine ⟨s, ?_, hr⟩
  rw [nextKey, hs]
  rfl

theorem nextKey_first {text s : Bytes} (hs : skipBlanks text = Byte.quote :: s) :
    nextKey true text = .ok (true, s) := by
  rw [nextKey, hs]
  rfl

theorem nextKey_comma {text s s' : Bytes} (hs : skipBlanks text = Byte.comma :: s)
    (hs' : skipBlanks s = Byte.quote :: s') : nextKey false text = .ok (true, s') := by
  rw [nextKey, hs]
  dsimp only
  rw [hs']
  rfl

/-- Before a name the reader finds that another member comes. -/
theorem nextKey_item {first : Bool} {token text rest : Bytes} {more : Tokens}
    (ht : Begins (separator first ++ (Byte.quote :: token) :: more) text rest) :
    ∃ s, nextKey first text = .ok (true, token ++ s) ∧ Begins more s rest := by
  cases first with
  | true =>
    obtain ⟨s, hs, hr⟩ := ht.skipBlanks_cons rfl
    exact ⟨s, nextKey_first hs, hr⟩
  | false =>
    obtain ⟨s, hs, hr⟩ := ht.skipBlanks_cons rfl
    obtain ⟨s', hs', hr'⟩ := hr.skipBlanks_cons rfl
    exact ⟨s', nextKey_comma hs hs', hr'⟩

/-! ## Records -/

namespace Shape

variable {α : Type} {n : Nat}

/-- The names of the fields can be told apart and are written without escapes. -/
structure WellNamed (sh : Shape α n) : Prop where
  plain : ∀ i : Fin n, IsPlain (ascii (sh.fields.get i))
  distinct : ∀ i j : Fin n, ascii (sh.fields.get i) = ascii (sh.fields.get j) → i = j

theorem WellNamed.index?_name {sh : Shape α n} (hw : sh.WellNamed) (i : Fin n) :
    sh.index? (ascii (sh.fields.get i)) = some i := by
  rw [index?]
  cases hf : (List.finRange n).find? fun j => ascii (sh.fields.get j) == ascii (sh.fields.get i) with
  | none => exact absurd (beq_self_eq_true _) (List.find?_eq_none.1 hf i (List.mem_finRange i))
  | some j =>
    have same := List.find?_some hf
    rw [hw.distinct j i (eq_of_beq same)]

theorem name_of_index? {sh : Shape α n} {key : Bytes} {i : Fin n} (h : sh.index? key = some i) :
    ascii (sh.fields.get i) = key := by
  have same := List.find?_some h
  exact eq_of_beq same

theorem index?_eq_none_iff {sh : Shape α n} {key : Bytes} :
    sh.index? key = none ↔ ∀ i : Fin n, ascii (sh.fields.get i) ≠ key := by
  simp [index?]

theorem get_keep_of_ne (found : Vector (Option α) n) {i j : Fin n} (h : i ≠ j) (value : α) :
    (keep found i value).get j = found.get j :=
  Vector.getElem_set_ne i.isLt j.isLt fun e => h (Fin.ext e)

theorem readMembers_end {sh : Shape α n} {first : Bool} {found : Vector (Option α) n}
    {s rest : Bytes} (h : nextKey first s = .ok (false, rest)) :
    sh.readMembers first found s = .ok (sh.objectOutcome found, rest) := by
  rw [readMembers]
  split <;> simp_all

/-- If another member comes, the reader takes its name and goes on with the field of that name, or
with a member to pass over. -/
theorem readMembers_of_key {sh : Shape α n} {first : Bool} {found : Vector (Option α) n}
    {s s₁ : Bytes} (h : nextKey first s = .ok (true, s₁)) :
    sh.readMembers first found s =
      match scanText s₁ with
      | .error fault => .error fault
      | .ok (key, s₂) =>
        match sh.index? key with
        | some i =>
          if (found.get i).isSome then .ok (.error (.duplicateField (sh.fields.get i)), s₂)
          else
            match sh.readField s₂ with
            | .error fault => .error fault
            | .ok (value, s₃) => sh.readMembers false (keep found i value) s₃
        | none =>
          match skipMember s₂ with
          | .error fault => .error fault
          | .ok s₃ => sh.readMembers false found s₃ := by
  rw [readMembers]
  split
  · cases ‹nextKey first s = _›.symm.trans h
  · cases ‹nextKey first s = _›.symm.trans h
  · rename_i s₁' hk
    cases hk.symm.trans h
    split
    · rename_i fault ht
      rw [ht]
    · rename_i key s₂ ht
      dsimp only
      rw [ht]
      dsimp only
      cases sh.index? key with
      | none =>
        dsimp only
        split <;> simp_all
      | some i =>
        dsimp only
        split
        · rfl
        · split <;> simp_all

theorem readMembers_field {sh : Shape α n} {first : Bool} {found : Vector (Option α) n}
    {s s₁ s₂ s₃ key : Bytes} {i : Fin n} {value : α} (hk : nextKey first s = .ok (true, s₁))
    (ht : scanText s₁ = .ok (key, s₂)) (hi : sh.index? key = some i) (hf : found.get i = none)
    (hv : sh.readField s₂ = .ok (value, s₃)) :
    sh.readMembers first found s = sh.readMembers false (keep found i value) s₃ := by
  rw [readMembers_of_key hk, ht]
  dsimp only
  rw [hi]
  dsimp only
  rw [hf, if_neg (by simp), hv]

theorem scanColon_of_skipBlanks {s s' : Bytes} (h : skipBlanks s = Byte.colon :: s') :
    scanColon s = .ok s' := by
  rw [scanColon, h]
  rfl

/-- The written members of some fields. -/
def members (sh : Shape α n) (write : α → Tokens) (values : Vector α n) (fields : List (Fin n)) :
    List Tokens :=
  fields.map fun i => writeMember (sh.fields.get i) (write (values.get i))

theorem write_eq (sh : Shape α n) (write : α → Tokens) (values : Vector α n) :
    sh.write write values = [Byte.openObject] ::
      (separated true (sh.members write values (List.finRange n)) ++ [[Byte.closeObject]]) := by
  rw [Shape.write, joined_eq_separated, List.cons_append, members]

theorem readRecord_object {sh : Shape α n} {text s : Bytes}
    (h : skipBlanks text = Byte.openObject :: s) :
    sh.readRecord text =
      match sh.readMembers true (Vector.replicate n none) s with
      | .error fault => .error fault
      | .ok (outcome, rest) => concluded outcome (closeObject rest) := by
  have object : Byte.openObject ≠ Byte.openList := by decide
  rw [readRecord, h]
  dsimp only
  rewrite [if_neg object, if_pos rfl]
  rfl

end Shape

end HeapWatch.Json
