import HeapWatch.Comparison
/-!
# Reading a report back

What a comparison prints is one text, a line for each alarm. The text can be cut into its lines, since
no line has a line end within, and a line into its three numbers, since no number runs into what
follows it (`Digits.Written.take?_append`). So the alarms can be read back from the text, whatever
their numbers, and two comparisons with different alarms never print the same.
-/

namespace HeapWatch

namespace Digits

/-! ## One number -/

/-- The text is the number `n` in digits of a base, at least `width` of them. There is a 0 in front
only where the width asks for it. -/
structure Written (base width n : Nat) (text : List Char) : Prop where
  digits : ∀ c ∈ text, isDigitOf base c = true
  width_le : width ≤ text.length
  value : toNat base (text.filterMap ofChar?) = n
  padding : text.head? = some '0' → text.length = width

theorem ofChar?_toChar : ∀ d < 16, ofChar? (toChar d) = some d := by decide

theorem eq_zero_of_toChar : ∀ d < 16, toChar d = '0' → d = 0 := by decide

theorem ofNat_zero {base : Nat} (hb : 2 ≤ base) : ofNat base 0 = [0] := by
  rw [ofNat, dif_pos (Or.inr (by omega))]

theorem filterMap_ofChar? {digits : List Nat} (h : ∀ d ∈ digits, d < 16) :
    (digits.map toChar).filterMap ofChar? = digits := by
  induction digits with
  | nil => rfl
  | cons d digits ih =>
    obtain ⟨hd, h⟩ := List.forall_mem_cons.1 h
    rw [List.map_cons, List.filterMap_cons_some (ofChar?_toChar d hd), ih h]

theorem toNat_replicate_append (base count : Nat) (digits : List Nat) :
    toNat base (List.replicate count 0 ++ digits) = toNat base digits := by
  induction count with
  | zero => rfl
  | succ count ih =>
    rw [List.replicate_succ, List.cons_append, ← ih]
    simp [toNat]

/-- Only 0 itself is written with a 0 in front, and that is its only digit. -/
theorem length_of_leading_zero {base n : Nat} (hb : 2 ≤ base) (hb' : base ≤ 16)
    (hz : ((ofNat base n).map toChar).head? = some '0') : (ofNat base n).length = 1 := by
  rw [List.head?_map] at hz
  obtain ⟨d, hd, hzero⟩ := Option.map_eq_some_iff.1 hz
  have hlt : d < 16 := Nat.lt_of_lt_of_le (lt_of_mem_ofNat hb (List.mem_of_mem_head? hd)) hb'
  rw [eq_zero_of_toChar d hlt hzero] at hd
  rw [eq_zero_of_head_ofNat hb hd, ofNat_zero hb]
  rfl

/-- **A number's digits behind zeros, up to a width,** are the number. -/
theorem written_padded {base width : Nat} (hb : 2 ≤ base) (hb' : base ≤ 16) (hw : 0 < width)
    (n : Nat) :
    Written base width n (List.replicate (width - ((ofNat base n).map toChar).length) '0' ++
      (ofNat base n).map toChar) := by
  have small : ∀ d ∈ ofNat base n, d < base := fun d hd => lt_of_mem_ofNat hb hd
  have nonempty : 0 < (ofNat base n).length := List.length_pos_iff.2 (ofNat_ne_nil base n)
  have isDigit : ∀ d < base, isDigitOf base (toChar d) = true := by
    intro d hd
    simp [isDigitOf, ofChar?_toChar d (by omega), hd]
  have back : ((ofNat base n).map toChar).filterMap ofChar? = ofNat base n :=
    filterMap_ofChar? fun d hd => Nat.lt_of_lt_of_le (small d hd) hb'
  refine ⟨?_, ?_, ?_, ?_⟩
  · intro c hc
    rcases List.mem_append.1 hc with hc | hc
    · rw [List.eq_of_mem_replicate hc]
      exact isDigit 0 (by omega)
    · obtain ⟨d, hd, rfl⟩ := List.mem_map.1 hc
      exact isDigit d (small d hd)
  · simp only [List.length_append, List.length_replicate]
    omega
  · rw [List.filterMap_append, back, List.filterMap_replicate]
    exact (toNat_replicate_append base _ _).trans (toNat_ofNat base n)
  · intro hz
    simp only [List.length_append, List.length_replicate, List.length_map]
    by_cases hlt : (ofNat base n).length < width
    · omega
    · -- nothing was put in front, so the leading 0 is the number's own
      rw [List.length_map, Nat.sub_eq_zero_of_le (by omega), List.replicate_zero,
        List.nil_append] at hz
      have one := length_of_leading_zero hb hb' hz
      omega

theorem written_decimal (n : Nat) : Written 10 1 n (decimal n).toList := by
  have h : Written 10 1 n _ := written_padded (by decide) (by decide) Nat.one_pos n
  have nonempty : 0 < (ofNat 10 n).length := List.length_pos_iff.2 (ofNat_ne_nil 10 n)
  rw [List.length_map, Nat.sub_eq_zero_of_le nonempty, List.replicate_zero, List.nil_append] at h
  rwa [decimal, String.toList_ofList]

theorem written_hexPadded {width : Nat} (hw : 0 < width) (n : Nat) :
    Written 16 width n (hexPadded width n).toList := by
  rw [hexPadded, String.toList_ofList]
  exact written_padded (by decide) (by decide) hw n

/-- **A written number is taken off the front** of a text if what follows it does not start with a
digit. -/
theorem Written.take?_append {base width n : Nat} {text rest : List Char}
    (h : Written base width n text) (hw : 0 < width)
    (hrest : rest.head?.any (isDigitOf base) = false) :
    take? base (text ++ rest) = some (n, rest) := by
  have ends : rest.takeWhile (isDigitOf base) = [] ∧ rest.dropWhile (isDigitOf base) = rest := by
    cases rest with
    | nil => exact ⟨rfl, rfl⟩
    | cons c rest =>
      have hc : isDigitOf base c = false := hrest
      simp [hc]
  have front : (text ++ rest).takeWhile (isDigitOf base) = text := by
    rw [List.takeWhile_append_of_pos h.digits, ends.1, List.append_nil]
  have back : (text ++ rest).dropWhile (isDigitOf base) = rest := by
    rw [List.dropWhile_append_of_pos h.digits, ends.2]
  have hne : text ≠ [] := List.length_pos_iff.1 (Nat.lt_of_lt_of_le hw h.width_le)
  rw [take?, front, back]
  cases text with
  | nil => exact absurd rfl hne
  | cons d digits => rw [← h.value]

end Digits

namespace Alarm

/-! ## One line -/

theorem stripped?_append (text rest : List Char) : stripped? text (text ++ rest) = some rest := by
  induction text with
  | nil => rfl
  | cons c text ih => rw [List.cons_append, stripped?, if_pos rfl, ih]

/-- **The form of a line.** The slot stands in hexadecimal in lower case, in four digits or more, and
the two sizes stand in decimal. -/
theorem line_form (a : Alarm) : ∃ slot baseline observed : List Char,
    Digits.Written 16 4 a.slot.toNat slot ∧ Digits.Written 10 1 a.baseline.toNat baseline ∧
    Digits.Written 10 1 a.observed.toNat observed ∧
    a.line.toList = "slot 0x".toList ++ (slot ++ (": ".toList ++ (baseline ++ (" -> ".toList ++
      (observed ++ " bytes".toList))))) := by
  refine ⟨_, _, _, Digits.written_hexPadded (by decide) _, Digits.written_decimal _,
    Digits.written_decimal _, ?_⟩
  simp only [line, String.toList_append, List.append_assoc]

/-- A slot with two digits, a slot with more than four, and sizes at both ends. -/
example : (Alarm.line ⟨0x1F, 0, 0xFFFFFFFFFFFFFFFF⟩, Alarm.line ⟨0x12345, 10, 11⟩) =
    ("slot 0x001f: 0 -> 18446744073709551615 bytes", "slot 0x12345: 10 -> 11 bytes") := by
  decide +kernel

/-- **A line is read back as its alarm.** -/
theorem ofLine?_line (a : Alarm) : ofLine? a.line = some a := by
  obtain ⟨slot, baseline, observed, hslot, hbaseline, hobserved, hline⟩ := a.line_form
  -- none of the separators starts with a digit
  have takesSlot : ∀ rest, Digits.take? 16 (slot ++ (": ".toList ++ rest)) =
      some (a.slot.toNat, ": ".toList ++ rest) := fun rest => hslot.take?_append (by decide) rfl
  have takesBaseline : ∀ rest, Digits.take? 10 (baseline ++ (" -> ".toList ++ rest)) =
      some (a.baseline.toNat, " -> ".toList ++ rest) :=
    fun rest => hbaseline.take?_append (by decide) rfl
  have takesObserved : Digits.take? 10 (observed ++ " bytes".toList) =
      some (a.observed.toNat, " bytes".toList) := hobserved.take?_append (by decide) rfl
  rw [ofLine?, hline]
  -- the closing words are only compared with themselves
  generalize " bytes".toList = closing at takesObserved ⊢
  simp only [Option.bind_eq_bind, Option.bind_some, stripped?_append, takesSlot, takesBaseline,
    takesObserved, if_true]
  simp only [Nat.toUInt64, UInt64.ofNat_toNat]

theorem newline_notMem_line (a : Alarm) : '\n' ∉ a.line.toList := by
  obtain ⟨slot, baseline, observed, hslot, hbaseline, hobserved, hline⟩ := a.line_form
  have hex : '\n' ∉ slot := fun h => absurd (hslot.digits _ h) (by decide)
  have first : '\n' ∉ baseline := fun h => absurd (hbaseline.digits _ h) (by decide)
  have second : '\n' ∉ observed := fun h => absurd (hobserved.digits _ h) (by decide)
  have between : '\n' ∉ "slot 0x".toList ∧ '\n' ∉ ": ".toList ∧ '\n' ∉ " -> ".toList ∧
      '\n' ∉ " bytes".toList := by decide
  simp only [hline, List.mem_append, between, hex, first, second, or_self, not_false_eq_true]

end Alarm

namespace Report

/-! ## The text -/

/-- Lines as they are printed, each with its end. -/
def printed (lines : List String) : String := String.join (lines.map (· ++ "\n"))

/-- The lines of a printed text. -/
def linesOf (text : String) : List String := (text.toList.splitOn '\n').dropLast.map String.ofList

/-- The alarms that a printed text reports, if each of its lines is an alarm's. -/
def alarms? (text : String) : Option (List Alarm) := (linesOf text).mapM Alarm.ofLine?

theorem toList_printed_cons (line : String) (lines : List String) :
    (printed (line :: lines)).toList = line.toList ++ '\n' :: (printed lines).toList := by
  simp [printed, String.toList_join, String.toList_append]

/-- A text is cut into the lines that it was printed from, if none of them has a line end within. -/
theorem linesOf_printed {lines : List String} (h : ∀ line ∈ lines, '\n' ∉ line.toList) :
    linesOf (printed lines) = lines := by
  induction lines with
  | nil => rfl
  | cons line lines ih =>
    obtain ⟨hline, h⟩ := List.forall_mem_cons.1 h
    rw [linesOf, toList_printed_cons, List.splitOn_append_cons_self_of_not_mem hline,
      List.dropLast_cons_of_ne_nil (List.splitOn_ne_nil _ _), List.map_cons, String.ofList_toList]
    exact congrArg (line :: ·) (ih h)

theorem mapM_ofLine?_lines (alarms : List Alarm) :
    (alarms.map Alarm.line).mapM Alarm.ofLine? = some alarms := by
  induction alarms with
  | nil => rfl
  | cons a alarms ih =>
    rw [List.map_cons, List.mapM_cons, Alarm.ofLine?_line, ih]
    rfl

/-- **A report is read back as its alarms.** -/
theorem alarms?_printed (alarms : List Alarm) :
    alarms? (printed (alarms.map Alarm.line)) = some alarms := by
  have ends : ∀ line ∈ alarms.map Alarm.line, '\n' ∉ line.toList := by
    intro line hline
    obtain ⟨a, -, rfl⟩ := List.mem_map.1 hline
    exact a.newline_notMem_line
  rw [alarms?, linesOf_printed ends, mapM_ofLine?_lines]

end Report

namespace Comparison

/-! ## The reports of comparisons -/

/-- **A report loses nothing.** A line is an alarm's slot in lower-case hexadecimal, in four digits or
more, and its two sizes in decimal. Whatever the alarms, they are read back from their lines, one by
one, and from the text that is printed; so what a comparison prints tells the alarms that it found, and
two comparisons print the same exactly if they found the same alarms. -/
theorem report_reads_back :
    (∀ a : Alarm, ∃ slot baseline observed : List Char,
      Digits.Written 16 4 a.slot.toNat slot ∧ Digits.Written 10 1 a.baseline.toNat baseline ∧
      Digits.Written 10 1 a.observed.toNat observed ∧
      a.line.toList = "slot 0x".toList ++ (slot ++ (": ".toList ++ (baseline ++ (" -> ".toList ++
        (observed ++ " bytes".toList)))))) ∧
    (∀ alarms : List Alarm, (alarms.map Alarm.line).mapM Alarm.ofLine? = some alarms ∧
      Report.alarms? (Report.printed (alarms.map Alarm.line)) = some alarms) ∧
    (∀ store arguments v, Report.alarms? (Report.printed (run store arguments v).output) =
      some (alarms (compare store arguments).value)) ∧
    ∀ store arguments v store' arguments' v',
      Report.printed (run store arguments v).output =
        Report.printed (run store' arguments' v').output ↔
      alarms (compare store arguments).value = alarms (compare store' arguments').value := by
  have told : ∀ store arguments v, Report.alarms? (Report.printed (run store arguments v).output) =
      some (alarms (compare store arguments).value) :=
    fun store arguments _ => Report.alarms?_printed (alarms (compare store arguments).value)
  refine ⟨Alarm.line_form, fun alarms => ⟨Report.mapM_ofLine?_lines alarms,
    Report.alarms?_printed alarms⟩, told, ?_⟩
  intro store arguments v store' arguments' v'
  constructor
  · intro same
    have read := congrArg Report.alarms? same
    rw [told, told] at read
    exact Option.some.inj read
  · intro same
    exact congrArg (fun found => Report.printed (found.map Alarm.line)) same

end Comparison

end HeapWatch
