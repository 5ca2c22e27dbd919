import HeapWatch.Json.Record
/-!
# Writing values: `serde_json::to_vec`

A value is written as its tokens: brackets, commas, colons, names and numbers. The compact form has
nothing between them; the members of an object come in the order of the record's fields. Blanks may
stand in front of every token and after the last without changing what is written.

* `compact`: the tokens with nothing between them.
* `Spaced`: the texts that have the same tokens, with blanks wherever they may stand.
-/

namespace HeapWatch.Json

/-- The tokens of a written value. -/
abbrev Tokens := List Bytes

/-- The text of tokens with nothing between them. -/
def compact (tokens : Tokens) : Bytes := tokens.flatten

/-- The texts of tokens with any blanks in front of each token and after the last. -/
inductive Spaced : Tokens → Bytes → Prop where
  | done {blanks : Bytes} (h : ∀ b ∈ blanks, Byte.isBlank b) : Spaced [] blanks
  | token {blanks token text : Bytes} {tokens : Tokens} (h : ∀ b ∈ blanks, Byte.isBlank b)
      (rest : Spaced tokens text) : Spaced (token :: tokens) (blanks ++ (token ++ text))

/-- The same blanks may stand in front of every token and after the last. -/
theorem spaced_spread {blanks : Bytes} (h : ∀ b ∈ blanks, Byte.isBlank b) (tokens : Tokens) :
    Spaced tokens ((tokens.map (blanks ++ ·)).flatten ++ blanks) := by
  induction tokens with
  | nil => exact .done h
  | cons token tokens ih =>
    rw [List.map_cons, List.flatten_cons, List.append_assoc, List.append_assoc]
    exact .token h ih

/-- The compact text is one with the same tokens. -/
theorem spaced_compact (tokens : Tokens) : Spaced tokens (compact tokens) := by
  have none : ∀ b ∈ ([] : Bytes), Byte.isBlank b := by simp
  simpa [compact] using spaced_spread none tokens

/-! ## The tokens of values -/

/-- Items with commas between them. -/
def joined : List Tokens → Tokens
  | [] => []
  | [item] => item
  | item :: next :: rest => item ++ [Byte.comma] :: joined (next :: rest)

/-- A whole number in decimal. -/
def writeWord (value : UInt64) : Tokens := [(Digits.ofNat 10 value.toNat).map Digits.toByte]

def writeList {α : Type} (write : α → Tokens) (values : List α) : Tokens :=
  [Byte.openList] :: joined (values.map write) ++ [[Byte.closeList]]

def writeMember (name : String) (value : Tokens) : Tokens :=
  (Byte.quote :: ascii name ++ [Byte.quote]) :: [Byte.colon] :: value

def Shape.write {α : Type} {n : Nat} (sh : Shape α n) (write : α → Tokens) (values : Vector α n) :
    Tokens :=
  [Byte.openObject] ::
    joined ((List.finRange n).map fun i => writeMember (sh.fields.get i) (write (values.get i)))
    ++ [[Byte.closeObject]]

end HeapWatch.Json
