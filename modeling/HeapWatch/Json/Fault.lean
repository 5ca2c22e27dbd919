import HeapWatch.Binary64.Shortest
import HeapWatch.Json.Byte
import HeapWatch.Text.Quoted
import HeapWatch.Text.Utf8
/-!
# Why a JSON text is refused

A fault has a cause and a place. While a text is read, the place is the number of bytes that were
left; once the whole text is known it becomes a line and a column, both counted from 1 and the
column in bytes.

* `Cause`: what is wrong, with `Cause.kind` and `Cause.message`.
* `Refusal`: a cause at a line and a column.
-/

namespace HeapWatch.Json

/-- A value found where another kind was wanted. -/
inductive Found where
  | null
  | boolean (value : Bool)
  | natural (value : UInt64)
  | negative (magnitude : Nat)
  | real (isNegative : Bool) (value : Binary64)
  | text (bytes : Bytes)
  | list
  | object
deriving DecidableEq, Repr

/-- What is wrong with a text. -/
inductive Cause where
  /-- The text ends where a value was wanted, or inside one. -/
  | endInValue
  | endInList
  | endInObject
  | endInString
  | trailingCharacters
  | trailingComma
  | valueWanted
  | colonWanted
  /-- After an element: neither a comma nor the end of the list. -/
  | listGoesOn
  /-- After a member: neither a comma nor the end of the object. -/
  | objectGoesOn
  | keyWanted
  /-- A word other than the three that JSON has. -/
  | unknownWord
  | badNumber
  /-- A number beyond the greatest finite one. -/
  | numberTooLarge
  | badEscape
  | controlInString
  /-- Half of a surrogate pair, or halves in the wrong order. -/
  | loneSurrogate
  /-- The first half of a surrogate pair without an escape after it. -/
  | halfSurrogatePair
  /-- A value of another kind. -/
  | wrongKind (found : Found) (wanted : String)
  /-- A value of the right kind that does not fit. -/
  | wrongValue (found : Found) (wanted : String)
  /-- A list with too few elements for a record. -/
  | wrongLength (length : Nat) (wanted : String)
  | missingField (name : String)
  | duplicateField (name : String)
deriving DecidableEq, Repr

/-- The three kinds of causes. -/
inductive CauseKind where
  /-- The text ends too early. -/
  | ended
  /-- The text is no JSON. -/
  | malformed
  /-- The text is JSON, but not of the type that was wanted. -/
  | mistyped
deriving DecidableEq, Repr

namespace Found

def shown : Found → String
  | .null => "null"
  | .boolean value => "boolean `" ++ (if value then "true" else "false") ++ "`"
  | .natural value => "integer `" ++ Digits.decimal value.toNat ++ "`"
  | .negative magnitude => "integer `-" ++ Digits.decimal magnitude ++ "`"
  | .real isNegative value => "floating point `" ++ value.text isNegative ++ "`"
  | .text bytes => "string " ++ Text.quoted (Text.Utf8.lossy bytes)
  | .list => "sequence"
  | .object => "map"

end Found

namespace Cause

def kind : Cause → CauseKind
  | .endInValue | .endInList | .endInObject | .endInString => .ended
  | .wrongKind .. | .wrongValue .. | .wrongLength .. | .missingField _ | .duplicateField _ =>
    .mistyped
  | _ => .malformed

/-- The wording of a cause. -/
def message : Cause → String
  | .endInValue => "EOF while parsing a value"
  | .endInList => "EOF while parsing a list"
  | .endInObject => "EOF while parsing an object"
  | .endInString => "EOF while parsing a string"
  | .trailingCharacters => "trailing characters"
  | .trailingComma => "trailing comma"
  | .valueWanted => "expected value"
  | .colonWanted => "expected `:`"
  | .listGoesOn => "expected `,` or `]`"
  | .objectGoesOn => "expected `,` or `\x7d`"
  | .keyWanted => "key must be a string"
  | .unknownWord => "expected ident"
  | .badNumber => "invalid number"
  | .numberTooLarge => "number out of range"
  | .badEscape => "invalid escape"
  | .controlInString => "control character (\\u0000-\\u001F) found while parsing a string"
  | .loneSurrogate => "lone leading surrogate in hex escape"
  | .halfSurrogatePair => "unexpected end of hex escape"
  | .wrongKind found wanted => "invalid type: " ++ found.shown ++ ", expected " ++ wanted
  | .wrongValue found wanted => "invalid value: " ++ found.shown ++ ", expected " ++ wanted
  | .wrongLength length wanted =>
    "invalid length " ++ Digits.decimal length ++ ", expected " ++ wanted
  | .missingField name => "missing field `" ++ name ++ "`"
  | .duplicateField name => "duplicate field `" ++ name ++ "`"

end Cause

/-- A cause, with the number of bytes that were left when it was found. -/
structure Fault where
  cause : Cause
  left : Nat
deriving DecidableEq, Repr

namespace Fault

/-- A fault before the bytes in `rest`. -/
def before (cause : Cause) (rest : Bytes) : Fault := ⟨cause, rest.length⟩

/-- A fault in the first of the bytes in `rest`, or at the end if there are none. -/
def within (cause : Cause) (rest : Bytes) : Fault := ⟨cause, rest.tail.length⟩

end Fault

/-- A cause with the line and the column of its place. -/
structure Refusal where
  cause : Cause
  line : Nat
  column : Nat
deriving DecidableEq, Repr

namespace Refusal

/-- The fault of a text at its line and column. -/
def ofFault (text : Bytes) (fault : Fault) : Refusal :=
  let consumed := text.take (text.length - fault.left)
  { cause := fault.cause
    line := 1 + consumed.count Byte.newline
    column := (consumed.reverse.takeWhile (· != Byte.newline)).length }

def message (r : Refusal) : String :=
  r.cause.message ++ " at line " ++ Digits.decimal r.line ++ " column " ++ Digits.decimal r.column

end Refusal

/-- What a scan finds at the front of a text, and the bytes after it. -/
abbrev Scan (α : Type) := Except Fault (α × Bytes)

end HeapWatch.Json
