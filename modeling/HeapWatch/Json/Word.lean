import HeapWatch.Json.Fault
/-!
# Words in JSON

The three words of JSON. A word is known by its first letter, and the letters after it have to
follow one by one.
-/

namespace HeapWatch.Json

/-- The word that starts with a letter: what it says, and its other letters. -/
def word? (first : UInt8) : Option (Found × Bytes) :=
  if first = 0x6E then some (.null, ascii "ull")
  else if first = 0x74 then some (.boolean true, ascii "rue")
  else if first = 0x66 then some (.boolean false, ascii "alse")
  else none

/-- Passes over the letters of a word. -/
def scanLetters : Bytes → Bytes → Except Fault Bytes
  | [], s => .ok s
  | _ :: _, [] => .error (.before .endInValue [])
  | letter :: letters, b :: s =>
    if b = letter then scanLetters letters s else .error (.before .unknownWord s)

theorem length_scanLetters {letters s rest : Bytes} (h : scanLetters letters s = .ok rest) :
    rest.length ≤ s.length := by
  revert h
  fun_induction scanLetters letters s with
  | case1 s => simp +contextual
  | case2 => simp
  | case3 letter letters s ih => intro h; have := ih h; simp only [List.length_cons]; omega
  | case4 => simp

/-- The letters of a word are passed over. -/
theorem scanLetters_append (letters s : Bytes) : scanLetters letters (letters ++ s) = .ok s := by
  induction letters with
  | nil => cases s <;> rfl
  | cons letter letters ih => simp [scanLetters, ih]

end HeapWatch.Json
