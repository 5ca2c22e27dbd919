import HeapWatch.Json.Numeral
import HeapWatch.Json.Strings
import HeapWatch.Json.Word
/-!
# Reading typed values: `serde_json::from_str`

A reader takes one value of its type from the front of a text, with the blanks before it. It refuses
a value of another kind, and then names what it found; for that, words, numbers and strings are read
to their end, while lists and objects are not entered.

* `Reader`: reads a value and leaves a shorter text.
* `Reader.word`: a whole number below 2^64.
* `Reader.decode`: a text that holds one value and nothing else.
-/

namespace HeapWatch.Json

/-- Takes one value from the front of a text. -/
structure Reader (α : Type) where
  read : Bytes → Scan α
  shorter : ∀ {s : Bytes} {value : α} {rest : Bytes}, read s = .ok (value, rest) →
    rest.length < s.length

/-- The quantity of a number at the front of a text. One beyond the greatest finite number is refused
where that is known. -/
def scanQuantity (s : Bytes) : Scan Quantity :=
  match Numeral.scan .endInValue s with
  | .error fault => .error fault
  | .ok (numeral, rest) =>
    match numeral.quantity with
    | .error unread => .error ⟨.numberTooLarge, rest.length + unread⟩
    | .ok quantity => .ok (quantity, rest)

theorem length_scanQuantity {s rest : Bytes} {q : Quantity} (h : scanQuantity s = .ok (q, rest)) :
    rest.length < s.length := by
  revert h
  fun_cases scanQuantity s with
  | case1 => simp
  | case2 => simp
  | case3 numeral rest' hs quantity _ =>
    have := Numeral.length_scan hs
    simp; rintro - rfl; omega

/-- The fault of a value of another kind than the one wanted, by its first byte and what follows. -/
def wrongKind (wanted : String) (b : UInt8) (s : Bytes) : Fault :=
  if b = Byte.openList then .before (.wrongKind .list wanted) (b :: s)
  else if b = Byte.openObject then .before (.wrongKind .object wanted) (b :: s)
  else if b = Byte.quote then
    match scanText s with
    | .error fault => fault
    | .ok (text, rest) => .before (.wrongKind (.text text) wanted) rest
  else if b = Byte.minus ∨ Byte.isDigit b then
    match scanQuantity (b :: s) with
    | .error fault => fault
    | .ok (quantity, rest) => .before (.wrongKind quantity.found wanted) rest
  else
    match word? b with
    | none => .within .valueWanted (b :: s)
    | some (found, letters) =>
      match scanLetters letters s with
      | .error fault => fault
      | .ok rest => .before (.wrongKind found wanted) rest

namespace Reader

variable {α β : Type}

/-- What a reader of whole numbers below 2^64 calls them. -/
def wordWanted : String := "usize"

/-- The word that a quantity is, if it is one. -/
def wordOf : Quantity → Except Cause UInt64
  | .natural value => .ok value
  | .negative magnitude => .error (.wrongValue (.negative magnitude) wordWanted)
  | .real isNegative value => .error (.wrongKind (.real isNegative value) wordWanted)

/-- Reads a whole number below 2^64. A number that is not one is refused after it was read. -/
def readWord (s : Bytes) : Scan UInt64 :=
  match skipBlanks s with
  | [] => .error (.within .endInValue [])
  | b :: s =>
    if b = Byte.minus ∨ Byte.isDigit b then
      match scanQuantity (b :: s) with
      | .error fault => .error fault
      | .ok (quantity, rest) =>
        match wordOf quantity with
        | .error cause => .error (.before cause rest)
        | .ok value => .ok (value, rest)
    else .error (wrongKind wordWanted b s)

theorem length_readWord {s rest : Bytes} {value : UInt64} (h : readWord s = .ok (value, rest)) :
    rest.length < s.length := by
  have hb := length_skipBlanks_le s
  revert h
  fun_cases readWord s with
  | case1 => simp
  | case2 => simp
  | case3 => simp
  | case4 b s' hs _ quantity rest' hq value' _ =>
    have := length_scanQuantity hq
    rw [hs] at hb
    simp; rintro - rfl; omega
  | case5 => simp

/-- A whole number below 2^64. -/
def word : Reader UInt64 := ⟨readWord, length_readWord⟩

/-- The same values taken as values of another type. -/
def map (f : α → β) (r : Reader α) : Reader β where
  read s :=
    match r.read s with
    | .error fault => .error fault
    | .ok (value, rest) => .ok (f value, rest)
  shorter {s _ rest} h := by
    split at h
    · simp at h
    · rename_i hr
      simp at h
      exact h.2 ▸ r.shorter hr

theorem read_map (f : α → β) (r : Reader α) (s : Bytes) :
    (r.map f).read s =
      match r.read s with
      | .error fault => .error fault
      | .ok (value, rest) => .ok (f value, rest) := rfl

/-- The value of a text that holds one and nothing else but blanks. -/
def decode (r : Reader α) (text : Bytes) : Except Refusal α :=
  match r.read text with
  | .error fault => .error (.ofFault text fault)
  | .ok (value, rest) =>
    match skipBlanks rest with
    | [] => .ok value
    | b :: rest => .error (.ofFault text (.within .trailingCharacters (b :: rest)))

end Reader

end HeapWatch.Json
