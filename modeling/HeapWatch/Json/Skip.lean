import HeapWatch.Json.Numeral
import HeapWatch.Json.Strings
import HeapWatch.Json.Word
/-!
# Passing over a value

A value that nobody wants is passed over without being kept. Its brackets may be nested to any
depth, so the open ones are kept in a list and the work goes on from one task to the next, each of
which takes at least one byte.

* `skipValue`: what follows a value.
-/

namespace HeapWatch.Json

/-- A bracket that is still open. -/
inductive Bracket where
  | list
  | object
deriving DecidableEq, Repr

/-- What comes next while a value is passed over, with the brackets open around it. -/
inductive Task where
  /-- A value. -/
  | value (around : List Bracket)
  /-- What follows an opening bracket of a list: its end or a value. -/
  | firstElement (around : List Bracket)
  /-- What follows an opening bracket of an object: its end or a key. -/
  | firstMember (around : List Bracket)
  /-- A key. -/
  | member (around : List Bracket)
  /-- What follows a value within a bracket: a comma or the bracket's end. -/
  | continued (within : Bracket) (around : List Bracket)
deriving DecidableEq, Repr

namespace Task

/-- What comes after a value with some brackets open around it: nothing, if there are none. -/
def after : List Bracket → Option Task
  | [] => none
  | within :: around => some (.continued within around)

/-- What a text that ends within a bracket lacks. -/
def endWithin : Bracket → Cause
  | .list => .endInList
  | .object => .endInObject

/-- What anything but a comma or the bracket's end means. -/
def goesOn : Bracket → Cause
  | .list => .listGoesOn
  | .object => .objectGoesOn

/-- The byte that ends a bracket. -/
def closing : Bracket → UInt8
  | .list => Byte.closeList
  | .object => Byte.closeObject

/-- A value, or the opening bracket of one. -/
def takeValue (around : List Bracket) (s : Bytes) : Scan (Option Task) :=
  match skipBlanks s with
  | [] => .error (.within .endInValue [])
  | b :: s =>
    if b = Byte.openList then .ok (some (.firstElement around), s)
    else if b = Byte.openObject then .ok (some (.firstMember around), s)
    else if b = Byte.quote then
      match skipText s with
      | .error fault => .error fault
      | .ok s => .ok (after around, s)
    else if b = Byte.minus ∨ Byte.isDigit b then
      match Numeral.scan .badNumber (b :: s) with
      | .error fault => .error fault
      | .ok (_, s) => .ok (after around, s)
    else
      match word? b with
      | none => .error (.within .valueWanted (b :: s))
      | some (_, letters) =>
        match scanLetters letters s with
        | .error fault => .error fault
        | .ok s => .ok (after around, s)

/-- A key with its colon. -/
def takeKey (around : List Bracket) (s : Bytes) : Scan (Option Task) :=
  match skipBlanks s with
  | [] => .error (.within .endInObject [])
  | b :: s =>
    if b = Byte.quote then
      match skipText s with
      | .error fault => .error fault
      | .ok s =>
        match skipBlanks s with
        | [] => .error (.within .endInObject [])
        | c :: s =>
          if c = Byte.colon then .ok (some (.value (.object :: around)), s)
          else .error (.within .colonWanted (c :: s))
    else .error (.within .keyWanted (b :: s))

/-- One task: what comes after it, if anything does, and the bytes left. -/
def step : Task → Bytes → Scan (Option Task)
  | .value around, s => takeValue around s
  | .firstElement around, s =>
    match skipBlanks s with
    | [] => .error (.within .endInList [])
    | b :: s => if b = Byte.closeList then .ok (after around, s) else takeValue (.list :: around) (b :: s)
  | .firstMember around, s =>
    match skipBlanks s with
    | [] => .error (.within .endInObject [])
    | b :: s => if b = Byte.closeObject then .ok (after around, s) else takeKey around (b :: s)
  | .member around, s => takeKey around s
  | .continued within around, s =>
    match skipBlanks s with
    | [] => .error (.within (endWithin within) [])
    | b :: s =>
      if b = Byte.comma then
        .ok (some (if within = .list then .value (.list :: around) else .member around), s)
      else if b = closing within then .ok (after around, s)
      else .error (.within (goesOn within) (b :: s))

theorem length_takeValue {around : List Bracket} {s rest : Bytes} {next : Option Task}
    (h : takeValue around s = .ok (next, rest)) : rest.length < s.length := by
  have hb := length_skipBlanks_le s
  unfold takeValue at h
  split at h
  · simp at h
  · rename_i b s' hs
    rw [hs, List.length_cons] at hb
    split at h
    · simp at h; rw [← h.2]; omega
    · split at h
      · simp at h; rw [← h.2]; omega
      · split at h
        · split at h
          · simp at h
          · rename_i hr
            have := length_skipText hr
            simp at h; rw [← h.2]; omega
        · split at h
          · split at h
            · simp at h
            · rename_i hr
              have := Numeral.length_scan hr
              simp only [List.length_cons] at this
              simp at h; rw [← h.2]; omega
          · split at h
            · simp at h
            · split at h
              · simp at h
              · rename_i hr
                have := length_scanLetters hr
                simp at h; rw [← h.2]; omega

theorem length_takeKey {around : List Bracket} {s rest : Bytes} {next : Option Task}
    (h : takeKey around s = .ok (next, rest)) : rest.length < s.length := by
  have hb := length_skipBlanks_le s
  unfold takeKey at h
  split at h
  · simp at h
  · rename_i b s' hs
    rw [hs, List.length_cons] at hb
    split at h
    · split at h
      · simp at h
      · rename_i s₁ hr
        have h₁ := length_skipText hr
        have h₂ := length_skipBlanks_le s₁
        split at h
        · simp at h
        · rename_i c s₂ hs₂
          rw [hs₂, List.length_cons] at h₂
          split at h
          · simp at h; rw [← h.2]; omega
          · simp at h
    · simp at h

theorem length_step {task : Task} {s rest : Bytes} {next : Option Task}
    (h : step task s = .ok (next, rest)) : rest.length < s.length := by
  have hb := length_skipBlanks_le s
  unfold step at h
  split at h
  · exact length_takeValue h
  · split at h
    · simp at h
    · rename_i b s' hs
      rw [hs] at hb
      split at h
      · simp only [List.length_cons] at hb; simp at h; rw [← h.2]; omega
      · have := length_takeValue h; omega
  · split at h
    · simp at h
    · rename_i b s' hs
      rw [hs] at hb
      split at h
      · simp only [List.length_cons] at hb; simp at h; rw [← h.2]; omega
      · have := length_takeKey h; omega
  · exact length_takeKey h
  · split at h
    · simp at h
    · rename_i b s' hs
      rw [hs, List.length_cons] at hb
      split at h
      · simp at h; rw [← h.2]; omega
      · split at h
        · simp at h; rw [← h.2]; omega
        · simp at h

/-- Works from one task to the next until none is left. -/
def run (task : Task) (s : Bytes) : Except Fault Bytes :=
  match h : step task s with
  | .error fault => .error fault
  | .ok (none, rest) => .ok rest
  | .ok (some next, rest) =>
    have := length_step h
    run next rest
termination_by s.length

theorem length_run {task : Task} {s rest : Bytes} (h : run task s = .ok rest) :
    rest.length < s.length := by
  fun_induction run task s generalizing rest with
  | case1 => simp at h
  | case2 task s rest' hs => simp at h; exact h ▸ length_step hs
  | case3 task s next rest' hs hlt ih => have := ih h; omega

end Task

/-- Passes over a value, with the blanks in front of it. -/
def skipValue (s : Bytes) : Except Fault Bytes := Task.run (.value []) s

theorem length_skipValue {s rest : Bytes} (h : skipValue s = .ok rest) : rest.length < s.length :=
  Task.length_run h

end HeapWatch.Json
