import HeapWatch.Proofs.Json.Grammar
/-!
# Values are passed over

A value that nobody wants is passed over from its first byte to its last, whatever it is and however
deep it is nested. The work goes on from task to task with the open brackets beside it, so the
statement is about any brackets around a value: after the value comes what they have next.
-/

namespace HeapWatch.Json

namespace Task

/-- What is left once the next task and those after it are done. -/
def resume : Option Task → Bytes → Except Fault Bytes
  | none, s => .ok s
  | some task, s => run task s

theorem run_of_step {task : Task} {next : Option Task} {s rest : Bytes}
    (h : step task s = .ok (next, rest)) : run task s = resume next rest := by
  rw [run]
  split
  · rename_i hs
    cases hs.symm.trans h
  · rename_i hs
    cases hs.symm.trans h
    rfl
  · rename_i hs
    cases hs.symm.trans h
    rfl

theorem run_of_next {task next : Task} {s rest : Bytes}
    (h : step task s = .ok (some next, rest)) : run task s = run next rest := run_of_step h

/-- Tasks that do the same next go on in the same way. -/
theorem run_congr {task task' : Task} {s s' : Bytes} (h : step task s = step task' s') :
    run task s = run task' s' := by
  cases hs : step task s with
  | error fault =>
    rw [run, run]
    split <;> split <;> simp_all
  | ok result => rw [run_of_step hs, run_of_step (h ▸ hs)]

/-- **Values that are passed over**, whatever brackets are open around them. -/
def Passes (tokens : Tokens) : Prop :=
  ∀ (around : List Bracket) {text rest : Bytes}, Begins tokens text rest →
    Numeral.EndsNumber rest → run (.value around) text = resume (after around) rest

section Run

variable {around : List Bracket} {more : Tokens} {text rest : Bytes}

/-! ## Words, numbers and strings -/

theorem passes_word {token : Bytes}
    (h : token ∈ [ascii "null", ascii "true", ascii "false"]) : Passes [token] := by
  intro around text rest ht _
  obtain ⟨first, letters, found, rfl, hw⟩ := exists_word? h
  have others : Byte.isBlank first = false ∧ first ≠ Byte.openList ∧ first ≠ Byte.openObject ∧
      first ≠ Byte.quote ∧ ¬ (first = Byte.minus ∨ Byte.isDigit first) := by
    rcases letter_of_word? hw with rfl | rfl | rfl <;> decide
  obtain ⟨blank, list, object, quote, number⟩ := others
  obtain ⟨s, hs, hr⟩ := ht.skipBlanks_cons blank
  cases hr
  refine run_of_step ?_
  rw [step, takeValue, hs]
  dsimp only
  rw [if_neg list, if_neg object, if_neg quote, if_neg number, hw]
  dsimp only
  rw [scanLetters_append]

theorem passes_number {n : Numeral} (hn : n.WellFormed) : Passes [n.write] := by
  intro around text rest ht he
  obtain ⟨b, token, written, hb⟩ := Numeral.exists_write_eq_cons hn
  have scanned := Numeral.scan_write .badNumber hn he
  rw [written] at ht scanned
  obtain ⟨blank, -, list, object, quote⟩ := Reader.ne_of_startsNumber hb
  obtain ⟨s, hs, hr⟩ := ht.skipBlanks_cons blank
  cases hr
  refine run_of_step ?_
  rw [step, takeValue, hs]
  dsimp only
  rw [if_neg list, if_neg object, if_neg quote, if_pos hb, ← List.cons_append, scanned]

theorem passes_text {content : Bytes} (h : IsContent content) :
    Passes [Byte.quote :: (content ++ [Byte.quote])] := by
  intro around text rest ht _
  obtain ⟨s, hs, hr⟩ := ht.skipBlanks_cons rfl
  cases hr
  have list : Byte.quote ≠ Byte.openList := by decide
  have object : Byte.quote ≠ Byte.openObject := by decide
  refine run_of_step ?_
  rw [step, takeValue, hs, List.append_assoc]
  dsimp only
  rw [if_neg list, if_neg object, if_pos rfl, List.singleton_append, skipText_append h]

/-! ## Lists -/

/-- After a value in a bracket comes the bracket's end, and then what is around the bracket. -/
theorem run_continued_closing {within : Bracket}
    (ht : Begins ([closing within] :: more) text rest) :
    ∃ s, run (.continued within around) text = resume (after around) s ∧ Begins more s rest := by
  have blank : Byte.isBlank (closing within) = false := by cases within <;> rfl
  have comma : closing within ≠ Byte.comma := by cases within <;> decide
  obtain ⟨s, hs, hr⟩ := ht.skipBlanks_cons blank
  refine ⟨s, run_of_step ?_, hr⟩
  rw [step, hs]
  dsimp only
  rw [if_neg comma, if_pos rfl]
  rfl

theorem run_continued_comma {within : Bracket} (ht : Begins ([Byte.comma] :: more) text rest) :
    ∃ s, run (.continued within around) text =
        run (if within = .list then .value (.list :: around) else .member around) s ∧
      Begins more s rest := by
  obtain ⟨s, hs, hr⟩ := ht.skipBlanks_cons rfl
  refine ⟨s, run_of_next ?_, hr⟩
  rw [step, hs]
  rfl

/-- **The other elements of a list** are passed over with its end. -/
theorem run_elements {items : List Tokens} (h : ∀ item ∈ items, Passes item)
    (ht : Begins (separated false items ++ [Byte.closeList] :: more) text rest) :
    ∃ s, run (.continued .list around) text = resume (after around) s ∧ Begins more s rest := by
  induction items generalizing text with
  | nil => exact run_continued_closing ht
  | cons item items ih =>
    obtain ⟨hitem, hitems⟩ := List.forall_mem_cons.1 h
    rw [separated, List.append_assoc, List.append_assoc] at ht
    have comma : Begins ([Byte.comma] :: (item ++ (separated false items ++
      [Byte.closeList] :: more))) text rest := ht
    obtain ⟨s, hc, hs⟩ := run_continued_comma comma
    obtain ⟨middle, hbegins, hmore⟩ := hs.of_append
    have passed := hitem (.list :: around) hbegins
      ((endsValue_separated _ (Or.inl rfl)).endsNumber hmore)
    obtain ⟨s', hrun, hrest⟩ := ih hitems hmore
    exact ⟨s', hc.trans (passed.trans hrun), hrest⟩

theorem passes_list {items : List Tokens} (hv : ∀ item ∈ items, Opens item)
    (h : ∀ item ∈ items, Passes item) : Passes (listTokens items) := by
  intro around text rest ht _
  rw [listTokens_eq] at ht
  obtain ⟨s, hs, hr⟩ := ht.skipBlanks_cons rfl
  have entered : run (.value around) text = run (.firstElement around) s := by
    refine run_of_next ?_
    rw [step, takeValue, hs]
    rfl
  rw [entered]
  cases items with
  | nil =>
    obtain ⟨s', hs', hr'⟩ := hr.skipBlanks_cons rfl
    cases hr'
    refine run_of_step ?_
    rw [step, hs']
    rfl
  | cons item items =>
    obtain ⟨hitem, hitems⟩ := List.forall_mem_cons.1 h
    rw [separated, List.append_assoc, List.append_assoc] at hr
    obtain ⟨b, s', hs', hb, hr'⟩ := (hv item List.mem_cons_self).front hr
    -- what comes is a value and not the end, so it is passed over within the list
    have first : run (.firstElement around) s = run (.value (.list :: around)) (b :: s') := by
      refine run_congr ?_
      rw [step, step, hs']
      dsimp only
      rw [if_neg hb]
    obtain ⟨middle, hbegins, hmore⟩ := hr'.of_append
    have passed := hitem (.list :: around) hbegins
      ((endsValue_separated _ (Or.inl rfl)).endsNumber hmore)
    obtain ⟨s'', hrun, hrest⟩ := run_elements hitems hmore
    cases hrest
    exact first.trans (passed.trans hrun)

/-! ## Objects -/

theorem takeKey_member {m : Member} (hk : IsContent m.key) (around : List Bracket)
    (ht : Begins (m.tokens ++ more) text rest) :
    ∃ s, takeKey around text = .ok (some (.value (.object :: around)), s) ∧
      Begins (m.value ++ more) s rest := by
  rw [Member.tokens, List.cons_append, List.cons_append] at ht
  obtain ⟨s, hs, hr⟩ := ht.skipBlanks_cons rfl
  obtain ⟨s', hs', hr'⟩ := hr.skipBlanks_cons rfl
  refine ⟨s', ?_, hr'⟩
  rw [takeKey, hs, List.append_assoc]
  simp [skipText_append hk, hs']

theorem run_member {m : Member} (hk : IsContent m.key) (h : Passes m.value) {task : Task}
    {s : Bytes} (hstep : step task s = takeKey around text) (he : EndsValue more)
    (ht : Begins (m.tokens ++ more) text rest) :
    ∃ s', run task s = run (.continued .object around) s' ∧ Begins more s' rest := by
  obtain ⟨s', hkey, hs'⟩ := takeKey_member hk around ht
  obtain ⟨middle, hbegins, hmore⟩ := hs'.of_append
  have passed := h (.object :: around) hbegins (he.endsNumber hmore)
  exact ⟨middle, (run_of_step (hstep.trans hkey)).trans passed, hmore⟩

/-- **The other members of an object** are passed over with its end. -/
theorem run_members {members : List Member} (hk : ∀ m ∈ members, IsContent m.key)
    (h : ∀ m ∈ members, Passes m.value)
    (ht : Begins (separated false (members.map Member.tokens) ++ [Byte.closeObject] :: more)
      text rest) :
    ∃ s, run (.continued .object around) text = resume (after around) s ∧ Begins more s rest := by
  induction members generalizing text with
  | nil => exact run_continued_closing ht
  | cons m members ih =>
    obtain ⟨hkey, hkeys⟩ := List.forall_mem_cons.1 hk
    obtain ⟨hvalue, hvalues⟩ := List.forall_mem_cons.1 h
    rw [List.map_cons, separated, List.append_assoc, List.append_assoc] at ht
    have comma : Begins ([Byte.comma] :: (m.tokens ++ (separated false (members.map Member.tokens) ++
      [Byte.closeObject] :: more))) text rest := ht
    obtain ⟨s, hc, hs⟩ := run_continued_comma comma
    have key : step (.member around) s = takeKey around s := rfl
    obtain ⟨s', hmember, hmore⟩ :=
      run_member hkey hvalue key (endsValue_separated _ (Or.inr rfl)) hs
    obtain ⟨s'', hrun, hrest⟩ := ih hkeys hvalues hmore
    exact ⟨s'', hc.trans (hmember.trans hrun), hrest⟩

theorem passes_object {members : List Member} (hk : ∀ m ∈ members, IsContent m.key)
    (h : ∀ m ∈ members, Passes m.value) : Passes (objectTokens members) := by
  intro around text rest ht _
  rw [objectTokens_eq] at ht
  obtain ⟨s, hs, hr⟩ := ht.skipBlanks_cons rfl
  have entered : run (.value around) text = run (.firstMember around) s := by
    refine run_of_next ?_
    rw [step, takeValue, hs]
    rfl
  rw [entered]
  cases members with
  | nil =>
    obtain ⟨s', hs', hr'⟩ := hr.skipBlanks_cons rfl
    cases hr'
    refine run_of_step ?_
    rw [step, hs']
    rfl
  | cons m members =>
    obtain ⟨hkey, hkeys⟩ := List.forall_mem_cons.1 hk
    obtain ⟨hvalue, hvalues⟩ := List.forall_mem_cons.1 h
    rw [List.map_cons, separated, List.append_assoc, List.append_assoc] at hr
    have quoted : Begins ((Byte.quote :: (m.key ++ [Byte.quote])) :: [Byte.colon] :: (m.value ++
      (separated false (members.map Member.tokens) ++ [[Byte.closeObject]]))) s rest := hr
    obtain ⟨s', hs', hr'⟩ := quoted.skipBlanks_cons rfl
    have first : step (.firstMember around) s =
        takeKey around (Byte.quote :: (m.key ++ [Byte.quote] ++ s')) := by
      rw [step, hs']
      rfl
    obtain ⟨middle, hmember, hmore⟩ :=
      run_member hkey hvalue first (endsValue_separated _ (Or.inr rfl)) (begins_cons hr')
    obtain ⟨last, hrun, hrest⟩ := run_members hkeys hvalues hmore
    cases hrest
    exact hmember.trans hrun

end Run

/-- **Every value is passed over**, within any brackets. -/
theorem passes_of_isValue {tokens : Tokens} (h : IsValue tokens) : Passes tokens := by
  induction h with
  | word h => exact passes_word h
  | number h => exact passes_number h
  | text h => exact passes_text h
  | list h ih => exact passes_list (fun item hi => (h item hi).opens) ih
  | object hk _ ih => exact passes_object hk ih

end Task

/-- A value that nobody wants is passed over to its end and no further. -/
theorem skipValue_of_isValue {tokens : Tokens} (h : IsValue tokens) {text rest : Bytes}
    (ht : Begins tokens text rest) (he : Numeral.EndsNumber rest) : skipValue text = .ok rest :=
  Task.passes_of_isValue h [] ht he

end HeapWatch.Json
