/-!
# UTF-8

Bytes read as characters. Where bytes form no character, the longest beginning of one that is there
counts as one broken piece, and if there is none, the byte by itself does.

* `Utf8.pieces`: the characters and the broken pieces of any bytes.
* `Utf8.isValid`: whether the bytes are text, which is whether no piece is broken.
* `Utf8.lossy`: the characters, with U+FFFD for each broken piece.
-/

namespace HeapWatch.Text.Utf8

/-- What the first byte of a character announces. -/
structure Lead where
  /-- How many bytes follow. -/
  follow : Nat
  /-- The least value of the next byte, which rules out needlessly long forms. -/
  least : UInt8
  /-- The greatest value of the next byte, which rules out surrogates and what lies beyond the last
  code point. -/
  greatest : UInt8
  /-- The leading bits of the code point. -/
  bits : Nat
deriving DecidableEq, Repr

/-- What a byte announces as the first of a character, if it can be that. -/
def lead? (byte : UInt8) : Option Lead :=
  if byte < 0x80 then some ⟨0, 0x80, 0xBF, byte.toNat⟩
  else if byte < 0xC2 then none
  else if byte < 0xE0 then some ⟨1, 0x80, 0xBF, byte.toNat - 0xC0⟩
  else if byte < 0xF0 then
    some ⟨2, if byte = 0xE0 then 0xA0 else 0x80, if byte = 0xED then 0x9F else 0xBF,
      byte.toNat - 0xE0⟩
  else if byte < 0xF5 then
    some ⟨3, if byte = 0xF0 then 0x90 else 0x80, if byte = 0xF4 then 0x8F else 0xBF,
      byte.toNat - 0xF0⟩
  else none

/-- Reads the bytes that follow a first one, the next of them from `least` to `greatest`, and returns
the code point, if all are there, with the bytes after them. -/
def follow (code : Nat) (least greatest : UInt8) : Nat → List UInt8 → Option Nat × List UInt8
  | 0, rest => (some code, rest)
  | _ + 1, [] => (none, [])
  | n + 1, byte :: rest =>
    if least ≤ byte && byte ≤ greatest then
      follow (code * 64 + (byte.toNat - 0x80)) 0x80 0xBF n rest
    else (none, byte :: rest)

theorem length_follow_le (code : Nat) (least greatest : UInt8) (n : Nat) (bytes : List UInt8) :
    (follow code least greatest n bytes).2.length ≤ bytes.length := by
  fun_induction follow code least greatest n bytes with
  | case1 => exact Nat.le_refl _
  | case2 => exact Nat.le_refl _
  | case3 => simp only [List.length_cons]; omega
  | case4 => exact Nat.le_refl _

/-- The characters of some bytes in order, with `none` for each broken piece. -/
def pieces : List UInt8 → List (Option Char)
  | [] => []
  | byte :: rest =>
    match lead? byte with
    | none => none :: pieces rest
    | some lead =>
      let found := follow lead.bits lead.least lead.greatest lead.follow rest
      found.1.map Char.ofNat :: pieces found.2
termination_by bytes => bytes.length
decreasing_by
  · simp
  · exact Nat.lt_succ_of_le (length_follow_le ..)

/-- Whether the bytes are characters throughout. -/
def isValid : List UInt8 → Bool
  | [] => true
  | byte :: rest =>
    match lead? byte with
    | none => false
    | some lead =>
      match h : follow lead.bits lead.least lead.greatest lead.follow rest with
      | (none, _) => false
      | (some _, rest') =>
        have : rest'.length ≤ rest.length := by
          have := length_follow_le lead.bits lead.least lead.greatest lead.follow rest
          rwa [h] at this
        isValid rest'
termination_by bytes => bytes.length

theorem isValid_eq (bytes : List UInt8) : isValid bytes = (pieces bytes).all Option.isSome := by
  fun_induction isValid bytes with
  | case1 => simp [pieces]
  | case2 => simp_all [pieces]
  | case3 => simp_all [pieces]
  | case4 => simp_all [pieces]

/-- The characters of some bytes, with U+FFFD in the place of each broken piece. -/
def lossy (bytes : List UInt8) : List Char := (pieces bytes).map (·.getD '\uFFFD')

/-- The bytes of one character, by its code point. -/
def encodeCode (code : Nat) : List UInt8 :=
  if code < 0x80 then [code.toUInt8]
  else if code < 0x800 then [(0xC0 + code / 64).toUInt8, (0x80 + code % 64).toUInt8]
  else if code < 0x10000 then
    [(0xE0 + code / 4096).toUInt8, (0x80 + code / 64 % 64).toUInt8, (0x80 + code % 64).toUInt8]
  else
    [(0xF0 + code / 262144).toUInt8, (0x80 + code / 4096 % 64).toUInt8,
      (0x80 + code / 64 % 64).toUInt8, (0x80 + code % 64).toUInt8]

/-- The bytes of a text. -/
def encode (text : String) : List UInt8 := text.toList.flatMap fun c => encodeCode c.toNat

/-- A byte below 0x80 is a character by itself. -/
theorem pieces_cons_of_lt {byte : UInt8} (h : byte < 0x80) (rest : List UInt8) :
    pieces (byte :: rest) = some (Char.ofNat byte.toNat) :: pieces rest := by
  rw [pieces]; simp [lead?, h, follow]

end HeapWatch.Text.Utf8
