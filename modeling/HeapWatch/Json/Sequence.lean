import HeapWatch.Json.Reader
/-!
# Elements, members and their ends

What stands between the elements of a list and between the members of an object, and what ends them.
A comma needs an element after it. The end of a list that is read as a record is looked for with more
patience than it is followed with, so that the fault can be placed after it.

* `nextElement`, `nextKey`: whether another element or member comes.
* `closeList`, `closeObject`: the end, or what is there instead.
* `Reader.list`: a list of any length.
-/

namespace HeapWatch.Json

/-- Whether another element comes, and the bytes from it on; or else from the end of the list on. -/
def nextElement (first : Bool) (s : Bytes) : Scan Bool :=
  match skipBlanks s with
  | [] => .error (.within .endInList [])
  | b :: s =>
    if b = Byte.closeList then .ok (false, b :: s)
    else if first then .ok (true, b :: s)
    else if b = Byte.comma then
      match skipBlanks s with
      | [] => .error (.within .endInValue [])
      | c :: s =>
        if c = Byte.closeList then .error (.within .trailingComma (c :: s)) else .ok (true, c :: s)
    else .error (.within .listGoesOn (b :: s))

/-- Whether another member comes, and the bytes after the opening quotation mark of its key; or else
the bytes from the end of the object on. -/
def nextKey (first : Bool) (s : Bytes) : Scan Bool :=
  match skipBlanks s with
  | [] => .error (.within .endInObject [])
  | b :: s =>
    if b = Byte.closeObject then .ok (false, b :: s)
    else if first then
      if b = Byte.quote then .ok (true, s) else .error (.within .keyWanted (b :: s))
    else if b = Byte.comma then
      match skipBlanks s with
      | [] => .error (.within .endInValue [])
      | c :: s =>
        if c = Byte.quote then .ok (true, s)
        else if c = Byte.closeObject then .error (.within .trailingComma (c :: s))
        else .error (.within .keyWanted (c :: s))
    else .error (.within .objectGoesOn (b :: s))

/-- Passes over the colon after a key. -/
def scanColon (s : Bytes) : Except Fault Bytes :=
  match skipBlanks s with
  | [] => .error (.within .endInObject [])
  | b :: s => if b = Byte.colon then .ok s else .error (.within .colonWanted (b :: s))

/-- Looks for the end of a list. What is there instead is said, and passed over if it is a comma. -/
def closeList (s : Bytes) : Option Cause × Bytes :=
  match skipBlanks s with
  | [] => (some .endInList, [])
  | b :: s =>
    if b = Byte.closeList then (none, s)
    else if b = Byte.comma then
      let rest := skipBlanks s
      (some (if rest.head? = some Byte.closeList then .trailingComma else .trailingCharacters), rest)
    else (some .trailingCharacters, b :: s)

/-- Looks for the end of an object. What is there instead is said. -/
def closeObject (s : Bytes) : Option Cause × Bytes :=
  match skipBlanks s with
  | [] => (some .endInObject, [])
  | b :: s =>
    if b = Byte.closeObject then (none, s)
    else (some (if b = Byte.comma then .trailingComma else .trailingCharacters), b :: s)

theorem length_nextElement {first more : Bool} {s rest : Bytes}
    (h : nextElement first s = .ok (more, rest)) : rest.length ≤ s.length := by
  have hb := length_skipBlanks_le s
  unfold nextElement at h
  split at h
  · simp at h
  · rename_i b s' hs
    rw [hs] at hb
    split at h
    · simp at h; rw [← h.2]; exact hb
    · split at h
      · simp at h; rw [← h.2]; exact hb
      · split at h
        · split at h
          · simp at h
          · rename_i c s'' hs'
            have hb' := length_skipBlanks_le s'
            rw [hs'] at hb'
            split at h
            · simp at h
            · simp at h; rw [← h.2]; simp only [List.length_cons] at *; omega
        · simp at h

theorem length_nextKey {first more : Bool} {s rest : Bytes}
    (h : nextKey first s = .ok (more, rest)) : rest.length ≤ s.length := by
  have hb := length_skipBlanks_le s
  unfold nextKey at h
  split at h
  · simp at h
  · rename_i b s' hs
    rw [hs] at hb
    simp only [List.length_cons] at hb
    split at h
    · simp at h; rw [← h.2]; simp only [List.length_cons]; omega
    · split at h
      · split at h
        · simp at h; rw [← h.2]; omega
        · simp at h
      · split at h
        · split at h
          · simp at h
          · rename_i c s'' hs'
            have hb' := length_skipBlanks_le s'
            rw [hs'] at hb'
            simp only [List.length_cons] at hb'
            split at h
            · simp at h; rw [← h.2]; omega
            · split at h <;> simp at h
        · simp at h

theorem length_scanColon {s rest : Bytes} (h : scanColon s = .ok rest) : rest.length < s.length := by
  have hb := length_skipBlanks_le s
  unfold scanColon at h
  split at h
  · simp at h
  · rename_i b s' hs
    rw [hs] at hb
    simp only [List.length_cons] at hb
    split at h
    · simp at h; rw [← h]; omega
    · simp at h

theorem length_closeList (s : Bytes) : (closeList s).2.length ≤ s.length := by
  have hb := length_skipBlanks_le s
  unfold closeList
  split
  · simp
  · rename_i b s' hs
    rw [hs] at hb
    simp only [List.length_cons] at hb
    split
    · simp only; omega
    · split
      · have := length_skipBlanks_le s'
        simp only; omega
      · simp only [List.length_cons]; omega

theorem length_closeObject (s : Bytes) : (closeObject s).2.length ≤ s.length := by
  have hb := length_skipBlanks_le s
  unfold closeObject
  split
  · simp
  · rename_i b s' hs
    rw [hs] at hb
    simp only [List.length_cons] at hb
    split
    · simp only; omega
    · simp only [List.length_cons]; omega

namespace Reader

variable {α : Type}

/-- Reads the elements of a list up to its end, after those in `found`. -/
def readElements (r : Reader α) (first : Bool) (found : Array α) (s : Bytes) : Scan (Array α) :=
  match h : nextElement first s with
  | .error fault => .error fault
  | .ok (false, rest) => .ok (found, rest.tail)
  | .ok (true, s₁) =>
    match h' : r.read s₁ with
    | .error fault => .error fault
    | .ok (value, s₂) =>
      have := length_nextElement h
      have := r.shorter h'
      r.readElements false (found.push value) s₂
termination_by s.length

theorem length_readElements {r : Reader α} {first : Bool} {found values : Array α} {s rest : Bytes}
    (h : r.readElements first found s = .ok (values, rest)) : rest.length ≤ s.length := by
  fun_induction readElements r first found s with
  | case1 => simp at h
  | case2 first found s rest' hn =>
    have := length_nextElement hn
    simp at h; rw [← h.2, List.length_tail]; omega
  | case3 => simp at h
  | case4 first found s s₁ hn value s₂ hr h₁ h₂ ih => have := ih h; omega

/-- Reads a list. -/
def readList (r : Reader α) (s : Bytes) : Scan (Array α) :=
  match skipBlanks s with
  | [] => .error (.within .endInValue [])
  | b :: s =>
    if b = Byte.openList then r.readElements true #[] s
    else .error (wrongKind "a sequence" b s)

theorem length_readList {r : Reader α} {s rest : Bytes} {values : Array α}
    (h : r.readList s = .ok (values, rest)) : rest.length < s.length := by
  have hb := length_skipBlanks_le s
  unfold readList at h
  split at h
  · simp at h
  · rename_i b s' hs
    rw [hs] at hb
    simp only [List.length_cons] at hb
    split at h
    · have := length_readElements h; omega
    · simp at h

/-- A list of any length. -/
def list (r : Reader α) : Reader (Array α) := ⟨r.readList, length_readList⟩

end Reader

end HeapWatch.Json
