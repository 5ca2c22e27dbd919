import HeapWatch.Codec
import HeapWatch.Proofs.Json.Settled
import HeapWatch.Proofs.Json.Torn
/-!
# What is written of profiles, readings, alarms and thresholds

Each is read from the tokens that it is written in, and what is written is plain ASCII. If the end of
a reading or a profile is missing, the reader finds that.
-/

namespace HeapWatch

open Json

/-! ## ASCII -/

theorem Text.Utf8.isValid_append_of_lt {bytes : Bytes} (h : ∀ b ∈ bytes, b < 0x80) (rest : Bytes) :
    Text.Utf8.isValid (bytes ++ rest) = Text.Utf8.isValid rest := by
  rw [isValid_eq, isValid_eq]
  induction bytes with
  | nil => rfl
  | cons b bytes ih =>
    have hb := pieces_cons_of_lt (h b List.mem_cons_self) (bytes ++ rest)
    rw [List.cons_append, hb, List.all_cons, ih fun c hc => h c (List.mem_cons_of_mem _ hc)]
    rfl

theorem Text.Utf8.isValid_of_lt {bytes : Bytes} (h : ∀ b ∈ bytes, b < 0x80) :
    Text.Utf8.isValid bytes = true := by
  have nothing := isValid_append_of_lt h []
  rw [List.append_nil] at nothing
  rw [nothing, isValid_eq]
  simp [pieces]

namespace Json

/-- Tokens of bytes below 0x80. -/
def IsAscii (tokens : Tokens) : Prop := ∀ token ∈ tokens, ∀ b ∈ token, b < 0x80

theorem isAscii_nil : IsAscii [] := fun _ h => absurd h List.not_mem_nil

theorem isAscii_cons {token : Bytes} {tokens : Tokens} (h : ∀ b ∈ token, b < 0x80)
    (hs : IsAscii tokens) : IsAscii (token :: tokens) := List.forall_mem_cons.2 ⟨h, hs⟩

theorem isAscii_byte {b : UInt8} {tokens : Tokens} (h : b < 0x80) (hs : IsAscii tokens) :
    IsAscii ([b] :: tokens) := isAscii_cons (List.forall_mem_singleton.2 h) hs

theorem isAscii_append {first second : Tokens} (h : IsAscii first) (h' : IsAscii second) :
    IsAscii (first ++ second) := List.forall_mem_append.2 ⟨h, h'⟩

theorem isAscii_joined {items : List Tokens} (h : ∀ item ∈ items, IsAscii item) :
    IsAscii (joined items) := by
  fun_induction joined items with
  | case1 => exact isAscii_nil
  | case2 item => exact h item List.mem_cons_self
  | case3 item next rest ih =>
    refine isAscii_append (h item List.mem_cons_self) (isAscii_byte (by decide) ?_)
    exact ih fun other ho => h other (List.mem_cons_of_mem _ ho)

theorem isAscii_writeWord (value : UInt64) : IsAscii (writeWord value) := by
  refine isAscii_cons (fun b hb => ?_) isAscii_nil
  obtain ⟨d, hd, rfl⟩ := List.mem_map.1 hb
  have hten := Digits.lt_of_mem_ofNat (by decide : 2 ≤ 10) hd
  rw [UInt8.lt_iff_toNat_lt, Numeral.toNat_toByte hten]
  have : (0x80 : UInt8).toNat = 128 := rfl
  omega

theorem isAscii_writeList {α : Type} {write : α → Tokens} {values : List α}
    (h : ∀ v ∈ values, IsAscii (write v)) : IsAscii (writeList write values) := by
  refine isAscii_byte (by decide) (isAscii_append (isAscii_joined fun item hi => ?_) ?_)
  · obtain ⟨v, hv, rfl⟩ := List.mem_map.1 hi
    exact h v hv
  · exact isAscii_byte (by decide) isAscii_nil

theorem isAscii_write {α : Type} {n : Nat} {sh : Shape α n} {write : α → Tokens}
    {values : Vector α n} (hn : ∀ i : Fin n, ∀ b ∈ ascii (sh.fields.get i), b < 0x80)
    (h : ∀ i : Fin n, IsAscii (write (values.get i))) : IsAscii (sh.write write values) := by
  refine isAscii_byte (by decide) (isAscii_append (isAscii_joined fun item hi => ?_) ?_)
  · obtain ⟨i, -, rfl⟩ := List.mem_map.1 hi
    refine isAscii_cons (fun b hb => ?_) (isAscii_byte (by decide) (h i))
    rcases List.mem_append.1 hb with hb | hb
    · rcases List.mem_cons.1 hb with rfl | hb
      · decide
      · exact hn i b hb
    · rw [List.mem_singleton.1 hb]
      decide
  · exact isAscii_byte (by decide) isAscii_nil

theorem Spaced.lt_of_isAscii {tokens : Tokens} {text : Bytes} (h : Spaced tokens text)
    (ha : IsAscii tokens) : ∀ b ∈ text, b < 0x80 := by
  have blank : ∀ {b : UInt8}, Byte.isBlank b → b < 0x80 := by
    intro b hb
    simp only [Byte.isBlank, Bool.or_eq_true, beq_iff_eq] at hb
    rcases hb with ((rfl | rfl) | rfl) | rfl <;> decide
  induction h with
  | done hb => exact fun b h => blank (hb b h)
  | token hb _ ih =>
    obtain ⟨first, others⟩ := List.forall_mem_cons.1 ha
    intro b h
    rcases List.mem_append.1 h with h | h
    · exact blank (hb b h)
    · rcases List.mem_append.1 h with h | h
      · exact first b h
      · exact ih others b h

end Json

/-! ## Readings and profiles -/

theorem Reading.wellNamed_shape : Reading.shape.WellNamed :=
  ⟨by decide +kernel, by decide +kernel⟩

theorem Reading.accepts_tokens (r : Reading) : Reading.reader.Accepts r.tokens r :=
  (Shape.accepts_record Reading.wellNamed_shape writeWord #v[r.slot, r.size] fun _ =>
    Reader.accepts_word _).map fun v => (⟨v[0], v[1]⟩ : Reading)

theorem Reading.isAscii_tokens (r : Reading) : IsAscii r.tokens :=
  isAscii_write (by decide +kernel) fun _ => isAscii_writeWord _

theorem Profile.wellNamed_shape : Profile.shape.WellNamed :=
  ⟨by decide +kernel, by decide +kernel⟩

theorem Profile.accepts_readings (readings : Array Reading) :
    Reading.reader.list.Accepts (writeList Reading.tokens readings.toList) readings :=
  Reader.accepts_list fun r _ => r.accepts_tokens

/-- **A written profile is read**, whatever its readings and their order, and whatever comes after
it. -/
theorem Profile.read_tokens (p : Profile) {text rest : Bytes} (h : Begins p.tokens text rest) :
    Profile.reader.read text = .ok (p, rest) := by
  have record := Shape.read_write Profile.wellNamed_shape
    (fun readings => writeList Reading.tokens readings.toList) (fun _ => accepts_readings _) h
  rw [Profile.reader, Reader.read_map, record]
  rfl

theorem Profile.accepts_tokens (p : Profile) : Profile.reader.Accepts p.tokens p :=
  ⟨⟨Byte.openObject, [], _, rfl, rfl, by decide⟩, fun h _ => p.read_tokens h⟩

theorem Profile.isAscii_tokens (p : Profile) : IsAscii p.tokens :=
  isAscii_write (by decide +kernel) fun _ => isAscii_writeList fun r _ => r.isAscii_tokens

theorem Profile.isValid_spaced (p : Profile) {text : Bytes} (h : Spaced p.tokens text) :
    Text.Utf8.isValid text = true := Text.Utf8.isValid_of_lt (h.lt_of_isAscii p.isAscii_tokens)

theorem Profile.decode_spaced (p : Profile) {text : Bytes} (h : Spaced p.tokens text) :
    Profile.reader.decode text = .ok p := Reader.decode_of_accepts p.accepts_tokens h

/-! ## Alarms and thresholds -/

theorem Alarm.wellNamed_shape : Alarm.shape.WellNamed :=
  ⟨by decide +kernel, by decide +kernel⟩

theorem Alarm.accepts_tokens (a : Alarm) : Alarm.reader.Accepts a.tokens a :=
  (Shape.accepts_record Alarm.wellNamed_shape writeWord #v[a.slot, a.baseline, a.observed] fun _ =>
    Reader.accepts_word _).map fun v => (⟨v[0], v[1], v[2]⟩ : Alarm)

theorem Alarm.isAscii_tokens (a : Alarm) : IsAscii a.tokens :=
  isAscii_write (by decide +kernel) fun _ => isAscii_writeWord _

theorem Threshold.wellNamed_shape : Threshold.shape.WellNamed :=
  ⟨by decide +kernel, by decide +kernel⟩

theorem Threshold.accepts_tokens (t : Threshold) : Threshold.reader.Accepts t.tokens t :=
  (Shape.accepts_record Threshold.wellNamed_shape writeWord #v[t.leastSize, t.growthFactor] fun _ =>
    Reader.accepts_word _).map fun v => (⟨v[0], v[1]⟩ : Threshold)

theorem Threshold.isAscii_tokens (t : Threshold) : IsAscii t.tokens :=
  isAscii_write (by decide +kernel) fun _ => isAscii_writeWord _

/-! ## Round trips -/

/-- **What is written is read back**, for every value: as it was written, or with blanks between its
tokens. -/
structure ReadsBack {α : Type} (r : Reader α) (tokens : α → Tokens) (json : α → Bytes) : Prop where
  /-- The text of a value is its tokens with nothing between them. -/
  json_eq : ∀ value, json value = compact (tokens value)
  decode_json : ∀ value, r.decode (json value) = .ok value
  decode_spaced : ∀ value text, Spaced (tokens value) text → r.decode text = .ok value
  isValid_spaced : ∀ value text, Spaced (tokens value) text → Text.Utf8.isValid text = true
  /-- No two values are written alike. -/
  injective : Function.Injective json
  /-- Whatever text a value was read from, the value is read again from its own. -/
  decode_again : ∀ text value, r.decode text = .ok value → r.decode (json value) = .ok value

theorem readsBack_of_accepts {α : Type} {r : Reader α} {tokens : α → Tokens}
    (ha : ∀ value, r.Accepts (tokens value) value) (hb : ∀ value, IsAscii (tokens value)) :
    ReadsBack r tokens fun value => compact (tokens value) := by
  have back (value : α) : r.decode (compact (tokens value)) = .ok value :=
    Reader.decode_of_accepts (ha value) (spaced_compact _)
  refine ⟨fun _ => rfl, back, fun value _ h => Reader.decode_of_accepts (ha value) h,
    fun value _ h => Text.Utf8.isValid_of_lt (h.lt_of_isAscii (hb value)), ?_,
    fun _ value _ => back value⟩
  intro value value' (h : compact (tokens value) = compact (tokens value'))
  have same := back value
  rw [h] at same
  exact Except.ok.inj (same.symm.trans (back value'))

/-- **Profiles, readings, alarms and thresholds are read back** as they were written. -/
theorem forms_read_back :
    ReadsBack Profile.reader Profile.tokens Profile.json ∧
      ReadsBack Reading.reader Reading.tokens Reading.json ∧
      ReadsBack Alarm.reader Alarm.tokens Alarm.json ∧
      ReadsBack Threshold.reader Threshold.tokens Threshold.json :=
  ⟨readsBack_of_accepts Profile.accepts_tokens Profile.isAscii_tokens,
    readsBack_of_accepts Reading.accepts_tokens Reading.isAscii_tokens,
    readsBack_of_accepts Alarm.accepts_tokens Alarm.isAscii_tokens,
    readsBack_of_accepts Threshold.accepts_tokens Threshold.isAscii_tokens⟩

/-- A profile out of order, with a size of 0, from a text that is spread over lines, and from one with
the members of a reading the other way round and one that is not known; and a threshold from a text
that leaves the least size out. -/
theorem forms_read_back_spread :
    let p : Profile := ⟨#[⟨7, 23⟩, ⟨3, 0⟩]⟩
    let spread := ascii ("\n \x7b\n \"slots\"\n :\n ["
      ++ "\n \x7b\n \"index\"\n :\n 7\n ,\n \"size\"\n :\n 23\n \x7d\n ,"
      ++ "\n \x7b\n \"index\"\n :\n 3\n ,\n \"size\"\n :\n 0\n \x7d\n ]\n \x7d\n ")
    let reordered := ascii "[[\x7b\"size\":23,\"by\":null,\"index\":7\x7d,[3,0]]]"
    let t : Threshold := ⟨0x100000, 9⟩
    let lacking := ascii "\x7b\"growth_factor\":9\x7d"
    (Spaced p.tokens spread ∧ Profile.reader.decode spread = .ok p ∧
      Text.Utf8.isValid spread = true) ∧
    (Profile.reader.decode reordered = .ok p ∧ Profile.reader.decode p.json = .ok p) ∧
    Threshold.reader.decode lacking = .ok t ∧ Threshold.reader.decode t.json = .ok t := by
  intro p spread reordered t lacking
  obtain ⟨profiles, -, -, thresholds⟩ := forms_read_back
  have spaced : Spaced p.tokens spread := by
    have blank : ∀ b ∈ ([0x0A, 0x20] : Bytes), Byte.isBlank b := by simp [Byte.isBlank]
    have text : (p.tokens.map ([0x0A, 0x20] ++ ·)).flatten ++ [0x0A, 0x20] = spread := by
      decide +kernel
    exact text ▸ spaced_spread blank p.tokens
  have other : Profile.reader.decode reordered = .ok p := by decide +kernel
  have least : Threshold.reader.decode lacking = .ok t := by decide +kernel
  exact ⟨⟨spaced, profiles.decode_spaced p spread spaced, profiles.isValid_spaced p spread spaced⟩,
    ⟨other, profiles.decode_again reordered p other⟩, least, thresholds.decode_again lacking t least⟩

/-! ## Torn readings and profiles -/

/-- **A torn reading ends too early.** -/
theorem Reading.stops_tokens (r : Reading) : Reading.reader.Stops r.tokens := by
  have record : Reading.shape.record.Stops r.tokens :=
    Shape.stops_write Reading.wellNamed_shape writeWord (fun _ => Reader.accepts_word _)
      fun _ => Reader.breaks_word _
  exact record.map fun v => (⟨v[0], v[1]⟩ : Reading)

/-- **A torn profile ends too early**, wherever it was cut. -/
theorem Profile.stops_tokens (p : Profile) : Profile.reader.Stops p.tokens := by
  have readings (readings : Array Reading) :
      Reading.reader.list.Stops (writeList Reading.tokens readings.toList) :=
    Reader.stops_list (fun r _ => r.accepts_tokens) fun r _ => r.stops_tokens.breaks
  have record : Profile.shape.record.Stops p.tokens :=
    Shape.stops_write Profile.wellNamed_shape _ (fun _ => accepts_readings _)
      fun _ => (readings _).breaks
  exact record.map fun v => (⟨v[0]⟩ : Profile)

end HeapWatch
