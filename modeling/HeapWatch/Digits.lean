/-!
# Digits

Natural numbers as digits of a base, the most significant first. Zero has the one digit 0, and no
other number has a leading 0.

* `Digits.toNat_ofNat`: reading the digits of a number gives the number back.
* `Digits.decimal`, `Digits.hex`: the two written forms that reports use.
-/

namespace HeapWatch.Digits

/-- The digits of a number. A base below 2 has no digits to offer and leaves the number whole. -/
def ofNat (base n : Nat) : List Nat :=
  if _h : base < 2 ∨ n < base then [n] else ofNat base (n / base) ++ [n % base]
termination_by n
decreasing_by exact Nat.div_lt_self (by omega) (by omega)

/-- The number that digits stand for. -/
def toNat (base : Nat) (digits : List Nat) : Nat := digits.foldl (fun n d => n * base + d) 0

/-- The character of a digit below 16. -/
def toChar (digit : Nat) : Char := Char.ofNat (if digit < 10 then 48 + digit else 87 + digit)

/-- The digit of a character, in lower case. -/
def ofChar? (c : Char) : Option Nat :=
  if '0' ≤ c ∧ c ≤ '9' then some (c.toNat - 48)
  else if 'a' ≤ c ∧ c ≤ 'f' then some (c.toNat - 87)
  else none

/-- Whether a character is a digit of a base. -/
def isDigitOf (base : Nat) (c : Char) : Bool := (ofChar? c).any (· < base)

/-- The number that the digits in front of a text are, and what follows them. -/
def take? (base : Nat) (chars : List Char) : Option (Nat × List Char) :=
  match chars.takeWhile (isDigitOf base) with
  | [] => none
  | digits => some (toNat base (digits.filterMap ofChar?), chars.dropWhile (isDigitOf base))

/-- The byte of a digit below 10. -/
def toByte (digit : Nat) : UInt8 := 48 + digit.toUInt8

def decimal (n : Nat) : String := String.ofList ((ofNat 10 n).map toChar)

def hex (n : Nat) : String := String.ofList ((ofNat 16 n).map toChar)

/-- A number in lower-case hexadecimal, with zeros in front up to a width. -/
def hexPadded (width n : Nat) : String :=
  let digits := (ofNat 16 n).map toChar
  String.ofList (List.replicate (width - digits.length) '0' ++ digits)

/-! ## Laws -/

theorem toNat_append_singleton (base : Nat) (digits : List Nat) (d : Nat) :
    toNat base (digits ++ [d]) = toNat base digits * base + d := by
  simp [toNat]

theorem toNat_ofNat (base n : Nat) : toNat base (ofNat base n) = n := by
  fun_induction ofNat base n with
  | case1 n h => simp [toNat]
  | case2 n h ih =>
    rw [toNat_append_singleton, ih, Nat.mul_comm]
    exact Nat.div_add_mod n base

theorem lt_of_mem_ofNat {base n d : Nat} (hb : 2 ≤ base) (hd : d ∈ ofNat base n) : d < base := by
  fun_induction ofNat base n with
  | case1 n h => simp at hd; omega
  | case2 n h ih =>
    rcases List.mem_append.1 hd with hd | hd
    · exact ih hd
    · rw [List.mem_singleton.1 hd]; exact Nat.mod_lt _ (by omega)

theorem ofNat_ne_nil (base n : Nat) : ofNat base n ≠ [] := by
  fun_induction ofNat base n <;> simp

/-- Only 0 has a leading 0. -/
theorem eq_zero_of_head_ofNat {base n : Nat} (hb : 2 ≤ base) (h : (ofNat base n).head? = some 0) :
    n = 0 := by
  fun_induction ofNat base n with
  | case1 n _ => exact Option.some.inj h
  | case2 n hn ih =>
    obtain ⟨d, digits, hd⟩ := List.exists_cons_of_ne_nil (ofNat_ne_nil base (n / base))
    rw [hd] at ih h
    have := Nat.div_eq_zero_iff.1 (ih h)
    omega

/-- The first digits of a number are a number. -/
theorem exists_ofNat_of_append {base n : Nat} {front back : List Nat}
    (h : ofNat base n = front ++ back) (hf : front ≠ []) : ∃ m, m ≤ n ∧ ofNat base m = front := by
  rcases List.eq_nil_or_concat back with rfl | ⟨others, last, rfl⟩
  · exact ⟨n, Nat.le_refl n, by rw [h, List.append_nil]⟩
  · fun_induction ofNat base n generalizing others last with
    | case1 n hn =>
      have length := congrArg List.length h
      have := List.length_pos_iff.2 hf
      simp at length
      omega
    | case2 n hn ih =>
      -- the last digit is cut off, and any more of them are those of the quotient
      rw [List.concat_eq_append, ← List.append_assoc] at h
      obtain ⟨h, -⟩ := List.append_inj' h rfl
      rcases List.eq_nil_or_concat others with rfl | ⟨others, last', rfl⟩
      · exact ⟨n / base, Nat.div_le_self n base, by rw [h, List.append_nil]⟩
      · obtain ⟨m, hm, e⟩ := ih others last' h
        exact ⟨m, Nat.le_trans hm (Nat.div_le_self n base), e⟩

end HeapWatch.Digits
