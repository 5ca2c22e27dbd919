import HeapWatch.Digits
import HeapWatch.Text.Quoted
/-!
# What goes wrong with files

The reasons for which a file is not read or not written, most of them the system's own, with a
number each, and two of the program's: a path that no system can be asked for, and a file that holds
no text.

* `FileFault.message`: a fault in words.
* `FileFault.details`: a fault in all its parts.
-/

namespace HeapWatch

/-- Why a file cannot be read or written. -/
inductive FileFault where
  | notFound
  | notADirectory
  | isADirectory
  /-- The path, or a name on it, is longer than any name can be. -/
  | nameTooLong
  /-- The path contains a NUL, which ends a path. -/
  | nulInPath
  /-- The file is there but holds no text. -/
  | notText
deriving DecidableEq, Repr

namespace FileFault

/-- The system's number for a fault, if the fault is the system's. -/
def code? : FileFault → Option Nat
  | .notFound => some 2
  | .notADirectory => some 20
  | .isADirectory => some 21
  | .nameTooLong => some 36
  | .nulInPath => none
  | .notText => none

def kind : FileFault → String
  | .notFound => "NotFound"
  | .notADirectory => "NotADirectory"
  | .isADirectory => "IsADirectory"
  | .nameTooLong => "InvalidFilename"
  | .nulInPath => "InvalidInput"
  | .notText => "InvalidData"

/-- The wording of a fault, without the number. -/
def reason : FileFault → String
  | .notFound => "No such file or directory"
  | .notADirectory => "Not a directory"
  | .isADirectory => "Is a directory"
  | .nameTooLong => "File name too long"
  | .nulInPath => "file name contained an unexpected NUL byte"
  | .notText => "stream did not contain valid UTF-8"

/-- A fault in words, with the system's number. -/
def message (fault : FileFault) : String :=
  match fault.code? with
  | some code => fault.reason ++ " (os error " ++ Digits.decimal code ++ ")"
  | none => fault.reason

/-- A fault in all its parts. -/
def details (fault : FileFault) : String :=
  match fault.code? with
  | some code =>
    "Os \x7b code: " ++ Digits.decimal code ++ ", kind: " ++ fault.kind ++ ", message: "
      ++ Text.quoted fault.reason.toList ++ " \x7d"
  | none =>
    "Error \x7b kind: " ++ fault.kind ++ ", message: " ++ Text.quoted fault.reason.toList ++ " \x7d"

end FileFault

end HeapWatch
