import HeapWatch.Digits
import HeapWatch.Text.Extending
import HeapWatch.Text.Unprintable
/-!
# Quoted text

A text between quotation marks, on one line and in visible characters only: quotation marks and
backslashes get a backslash, a few controls have letters, and every other character that would not
show, or would show on its neighbour, is given by its code point.
-/

namespace HeapWatch.Text

/-- One character as it stands between quotation marks. -/
def quotedChar (c : Char) : List Char :=
  if c = '\x00' then ['\\', '0']
  else if c = '\t' then ['\\', 't']
  else if c = '\r' then ['\\', 'r']
  else if c = '\n' then ['\\', 'n']
  else if c = '\\' then ['\\', '\\']
  else if c = '"' then ['\\', '"']
  else if isExtending c || isUnprintable c then
    ['\\', 'u', '\x7b'] ++ (Digits.hex c.toNat).toList ++ ['\x7d']
  else [c]

/-- A text between quotation marks. -/
def quoted (text : List Char) : String := String.ofList ('"' :: text.flatMap quotedChar ++ ['"'])

end HeapWatch.Text
