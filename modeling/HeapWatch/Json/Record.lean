import HeapWatch.Json.Sequence
import HeapWatch.Json.Skip
/-!
# Records

A record has a fixed number of named fields, all of one type. It is written as an object whose
members are the fields, in any order and among members of other names, or as a list of the fields'
values in their own order. A field that is left out takes its default, if it has one.

* `Shape`: the names, the defaults and the type of a record's fields.
* `Shape.record`: reads a record in either form.
* `Shape.write`: a record as an object.
-/

namespace HeapWatch.Json

/-- The fields of a record: what the record is called when another value is found, and the name and
the default of each field, in order. -/
structure Shape (α : Type) (n : Nat) where
  name : String
  fields : Vector String n
  defaults : Vector (Option α) n
  reader : Reader α

namespace Shape

variable {α : Type} {n : Nat}

/-- What is wanted where a list is too short. -/
def wantedLength (sh : Shape α n) : String :=
  sh.name ++ " with " ++ Digits.decimal n ++ (if n = 1 then " element" else " elements")

/-- The field of a name. -/
def index? (sh : Shape α n) (key : Bytes) : Option (Fin n) :=
  (List.finRange n).find? fun i => ascii (sh.fields.get i) == key

/-- What a field has: its value if one was found, and its default otherwise. -/
def value? (sh : Shape α n) (found : Vector (Option α) n) (i : Fin n) : Option α :=
  (found.get i).or (sh.defaults.get i)

/-- What was found, and the value of one more field. -/
def keep (found : Vector (Option α) n) (i : Fin n) (value : α) : Vector (Option α) n :=
  found.set i (some value)

/-- The values of all fields, or the first field that has none. -/
def complete (sh : Shape α n) (found : Vector (Option α) n) : Except (Fin n) (Vector α n) :=
  match h : (List.finRange n).find? fun i => (sh.value? found i).isNone with
  | some i => .error i
  | none => .ok (Vector.ofFn fun i => (sh.value? found i).get (by
      have := List.find?_eq_none.1 h i (List.mem_finRange i)
      simpa [Option.isSome_iff_ne_none] using this))

/-- A record's values, or what is wrong with the record as a whole. -/
abbrev Outcome (α : Type) (n : Nat) := Except Cause (Vector α n)

/-! ## The list form -/

/-- Reads the values of the fields from `k` on, as far as the list has them. -/
def readPositions (sh : Shape α n) (found : Vector (Option α) n) (k : Nat) (s : Bytes) :
    Scan (Vector (Option α) n × Nat) :=
  if h : k < n then
    match nextElement (k == 0) s with
    | .error fault => .error fault
    | .ok (false, rest) => .ok ((found, k), rest)
    | .ok (true, s₁) =>
      match sh.reader.read s₁ with
      | .error fault => .error fault
      | .ok (value, s₂) => sh.readPositions (keep found ⟨k, h⟩ value) (k + 1) s₂
  else .ok ((found, k), s)
termination_by n - k

/-- The outcome of a list of values. A list is too short if a field without a default is left out. -/
def listOutcome (sh : Shape α n) (found : Vector (Option α) n) (length : Nat) : Outcome α n :=
  match sh.complete found with
  | .ok values => .ok values
  | .error _ => .error (.wrongLength length sh.wantedLength)

/-! ## The object form -/

/-- The outcome of an object's members. -/
def objectOutcome (sh : Shape α n) (found : Vector (Option α) n) : Outcome α n :=
  match sh.complete found with
  | .ok values => .ok values
  | .error i => .error (.missingField (sh.fields.get i))

/-- Reads the colon and the value of a field. -/
def readField (sh : Shape α n) (s : Bytes) : Scan α :=
  match scanColon s with
  | .error fault => .error fault
  | .ok s => sh.reader.read s

/-- Passes over the colon and the value of a member that is no field. -/
def skipMember (s : Bytes) : Except Fault Bytes :=
  match scanColon s with
  | .error fault => .error fault
  | .ok s => skipValue s

theorem length_readField {sh : Shape α n} {s rest : Bytes} {value : α}
    (h : sh.readField s = .ok (value, rest)) : rest.length < s.length := by
  unfold readField at h
  split at h
  · simp at h
  · rename_i hc
    have := length_scanColon hc
    have := sh.reader.shorter h
    omega

theorem length_skipMember {s rest : Bytes} (h : skipMember s = .ok rest) :
    rest.length < s.length := by
  unfold skipMember at h
  split at h
  · simp at h
  · rename_i hc
    have := length_scanColon hc
    have := length_skipValue h
    omega

/-- Reads the members of an object up to its end, after those in `found`. A field that comes twice
ends the reading. -/
def readMembers (sh : Shape α n) (first : Bool) (found : Vector (Option α) n) (s : Bytes) :
    Scan (Outcome α n) :=
  match hk : nextKey first s with
  | .error fault => .error fault
  | .ok (false, rest) => .ok (sh.objectOutcome found, rest)
  | .ok (true, s₁) =>
    match ht : scanText s₁ with
    | .error fault => .error fault
    | .ok (key, s₂) =>
      have := length_nextKey hk
      have := length_scanText ht
      match sh.index? key with
      | some i =>
        if (found.get i).isSome then .ok (.error (.duplicateField (sh.fields.get i)), s₂)
        else
          match hv : sh.readField s₂ with
          | .error fault => .error fault
          | .ok (value, s₃) =>
            have := length_readField hv
            sh.readMembers false (keep found i value) s₃
      | none =>
        match hv : skipMember s₂ with
        | .error fault => .error fault
        | .ok s₃ =>
          have := length_skipMember hv
          sh.readMembers false found s₃
termination_by s.length

/-! ## Both forms -/

/-- The record, once its end was looked for. What is wrong with the record as a whole comes before a
missing end, and its place is after what was passed over to find the end. -/
def concluded (outcome : Outcome α n) (closed : Option Cause × Bytes) : Scan (Vector α n) :=
  match outcome, closed with
  | .error cause, (_, rest) => .error (.before cause rest)
  | .ok _, (some cause, rest) => .error (.within cause rest)
  | .ok values, (none, rest) => .ok (values, rest)

/-- Reads a record. -/
def readRecord (sh : Shape α n) (s : Bytes) : Scan (Vector α n) :=
  match skipBlanks s with
  | [] => .error (.within .endInValue [])
  | b :: s =>
    if b = Byte.openList then
      match sh.readPositions (Vector.replicate n none) 0 s with
      | .error fault => .error fault
      | .ok ((found, length), rest) => concluded (sh.listOutcome found length) (closeList rest)
    else if b = Byte.openObject then
      match sh.readMembers true (Vector.replicate n none) s with
      | .error fault => .error fault
      | .ok (outcome, rest) => concluded outcome (closeObject rest)
    else .error (wrongKind sh.name b s)

theorem length_readPositions {sh : Shape α n} {found : Vector (Option α) n} {k : Nat}
    {s rest : Bytes} {result : Vector (Option α) n × Nat}
    (h : sh.readPositions found k s = .ok (result, rest)) : rest.length ≤ s.length := by
  fun_induction readPositions sh found k s with
  | case1 => simp at h
  | case2 found k s _ rest' hn =>
    have := length_nextElement hn
    simp at h; rw [← h.2]; omega
  | case3 => simp at h
  | case4 found k s _ s₁ hn value s₂ hr ih =>
    have := length_nextElement hn
    have := sh.reader.shorter hr
    have := ih h
    omega
  | case5 => simp at h; simp [← h.2]

theorem length_readMembers {sh : Shape α n} {first : Bool} {found : Vector (Option α) n}
    {s rest : Bytes} {outcome : Outcome α n}
    (h : sh.readMembers first found s = .ok (outcome, rest)) : rest.length ≤ s.length := by
  fun_induction readMembers sh first found s with
  | case1 => simp at h
  | case2 first found s rest' hk =>
    have := length_nextKey hk
    simp at h; rw [← h.2]; omega
  | case3 => simp at h
  | case4 => simp at h; rw [← h.2]; omega
  | case5 => simp_all
  | case6 => rename_i ih; have := ih h; omega
  | case7 => simp_all
  | case8 => rename_i ih; have := ih h; omega

theorem length_concluded {outcome : Outcome α n} {closed : Option Cause × Bytes} {rest : Bytes}
    {values : Vector α n} (h : concluded outcome closed = .ok (values, rest)) : rest = closed.2 := by
  revert h
  fun_cases concluded outcome closed with
  | case1 => simp
  | case2 => simp
  | case3 => simp +contextual

theorem length_readRecord {sh : Shape α n} {s rest : Bytes} {values : Vector α n}
    (h : sh.readRecord s = .ok (values, rest)) : rest.length < s.length := by
  have hb := length_skipBlanks_le s
  unfold readRecord at h
  split at h
  · simp at h
  · rename_i b s' hs
    rw [hs] at hb
    simp only [List.length_cons] at hb
    split at h
    · split at h
      · simp at h
      · rename_i found length rest' hr
        have h₁ := length_readPositions hr
        have h₂ := length_closeList rest'
        have h₃ := length_concluded h
        rw [h₃]; omega
    · split at h
      · split at h
        · simp at h
        · rename_i outcome rest' hr
          have h₁ := length_readMembers hr
          have h₂ := length_closeObject rest'
          have h₃ := length_concluded h
          rw [h₃]; omega
      · simp at h

/-- A record in either form. -/
def record (sh : Shape α n) : Reader (Vector α n) := ⟨sh.readRecord, length_readRecord⟩

end Shape

end HeapWatch.Json
