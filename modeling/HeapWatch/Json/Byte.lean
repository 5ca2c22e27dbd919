/-!
# The bytes of JSON

JSON texts are lists of bytes. The bytes that its grammar names, the blanks between its tokens, and
what skipping them leaves.
-/

namespace HeapWatch

/-- A text or a file as its bytes. -/
abbrev Bytes := List UInt8

/-- The bytes of a text in ASCII. -/
def ascii (text : String) : Bytes := text.toList.map fun c => c.toNat.toUInt8

namespace Json

namespace Byte

abbrev openList : UInt8 := 0x5B
abbrev closeList : UInt8 := 0x5D
abbrev openObject : UInt8 := 0x7B
abbrev closeObject : UInt8 := 0x7D
abbrev comma : UInt8 := 0x2C
abbrev colon : UInt8 := 0x3A
abbrev quote : UInt8 := 0x22
abbrev backslash : UInt8 := 0x5C
abbrev minus : UInt8 := 0x2D
abbrev plus : UInt8 := 0x2B
abbrev point : UInt8 := 0x2E
abbrev zero : UInt8 := 0x30
abbrev newline : UInt8 := 0x0A

/-- Space, line feed, tab and carriage return may stand between tokens. -/
def isBlank (b : UInt8) : Bool := b == 0x20 || b == 0x0A || b == 0x09 || b == 0x0D

def isDigit (b : UInt8) : Bool := 0x30 ≤ b && b ≤ 0x39

/-- The letter that starts an exponent, in either case. -/
def isExponentMark (b : UInt8) : Bool := b == 0x65 || b == 0x45

/-- Controls may stand in no string. -/
def isControl (b : UInt8) : Bool := b < 0x20

/-- The value of a hexadecimal digit in either case. -/
def hexValue? (b : UInt8) : Option Nat :=
  if 0x30 ≤ b && b ≤ 0x39 then some (b.toNat - 0x30)
  else if 0x41 ≤ b && b ≤ 0x46 then some (b.toNat - 0x37)
  else if 0x61 ≤ b && b ≤ 0x66 then some (b.toNat - 0x57)
  else none

end Byte

/-- What is left after the blanks in front. -/
def skipBlanks (s : Bytes) : Bytes := s.dropWhile Byte.isBlank

@[simp] theorem skipBlanks_nil : skipBlanks [] = [] := rfl

theorem skipBlanks_cons (b : UInt8) (s : Bytes) :
    skipBlanks (b :: s) = if Byte.isBlank b then skipBlanks s else b :: s := by
  simp [skipBlanks, List.dropWhile_cons]

theorem length_skipBlanks_le (s : Bytes) : (skipBlanks s).length ≤ s.length :=
  (List.dropWhile_suffix _).length_le

/-- Blanks in front make no difference. -/
theorem skipBlanks_append {blanks : Bytes} (h : ∀ b ∈ blanks, Byte.isBlank b) (s : Bytes) :
    skipBlanks (blanks ++ s) = skipBlanks s := by
  induction blanks with
  | nil => rfl
  | cons b rest ih =>
    rw [List.cons_append, skipBlanks_cons, if_pos (h b (by simp)), ih fun c hc => h c (by simp [hc])]

end Json

end HeapWatch
