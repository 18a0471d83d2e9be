/-!
# Numerals

Natural numbers in positional notation.  Writing uses the digits `0` to `9` and then the capital
letters; reading takes letters of either case and, as number readers commonly do, one plus sign
in front.  Main statement: what is written reads back (`valueOf?_write`).
-/

namespace EmojiPatterns.Numeral

/-- The value of a digit in a base of at most 36. -/
def digitValue? (base : Nat) (c : Char) : Option Nat :=
  let value? :=
    if '0' ≤ c ∧ c ≤ '9' then some (c.toNat - '0'.toNat)
    else if 'a' ≤ c ∧ c ≤ 'z' then some (c.toNat - 'a'.toNat + 10)
    else if 'A' ≤ c ∧ c ≤ 'Z' then some (c.toNat - 'A'.toNat + 10)
    else none
  value?.filter (· < base)

/-- The value of digits that follow on a number already read. -/
def valueFrom? (base : Nat) (value : Nat) : List Char → Option Nat
  | [] => some value
  | c :: rest =>
    match digitValue? base c with
    | some digit => valueFrom? base (value * base + digit) rest
    | none => none

/-- The value of a text of at least one digit. -/
def valueOf? (base : Nat) : List Char → Option Nat
  | [] => none
  | digits => valueFrom? base 0 digits

/-- A text without the plus sign that it may start with. -/
def unsigned : List Char → List Char
  | '+' :: rest => rest
  | text => text

/-- Reads a number below `limit`, which may have a plus sign in front. -/
def read? (base limit : Nat) (text : List Char) : Option Nat :=
  (valueOf? base (unsigned text)).filter (· < limit)

/-- Reads a hexadecimal number of at most 32 bits, as code points are written. -/
def readCodePoint? (text : List Char) : Option Nat :=
  read? 16 0x100000000 text

/-- The digit of a value below 36. -/
def digit (value : Nat) : Char :=
  if value < 10 then Char.ofNat ('0'.toNat + value)
  else Char.ofNat ('A'.toNat + (value - 10))

/-- The digits of a number, with no zero in front of another digit. -/
def write (base value : Nat) : List Char :=
  if _hvalue : base < 2 ∨ value < base then [digit value]
  else write base (value / base) ++ [digit (value % base)]
termination_by value
decreasing_by exact Nat.div_lt_self (by omega) (by omega)

/-- Decimal notation. -/
def decimal (value : Nat) : String :=
  String.ofList (write 10 value)

/-- Hexadecimal notation of at least four digits, as code points are usually written. -/
def codePoint (value : Nat) : String :=
  String.ofList ((write 16 value).leftpad 4 '0')

theorem digitValue?_digit {base value : Nat} (hbase : base ≤ 36) (hvalue : value < base) :
    digitValue? base (digit value) = some value := by
  have hall : ∀ v : Fin 36, digitValue? 36 (digit v) = some v.val := by decide
  have hone := hall ⟨value, by omega⟩
  simp only [digitValue?, Option.filter_eq_some_iff] at hone ⊢
  exact ⟨hone.1, by simpa using hvalue⟩

theorem valueFrom?_append {base value : Nat} (front back : List Char) :
    valueFrom? base value (front ++ back) =
      (valueFrom? base value front).bind fun front => valueFrom? base front back := by
  induction front generalizing value with
  | nil => rfl
  | cons c rest ih =>
    simp only [List.cons_append, valueFrom?]
    cases digitValue? base c with
    | none => rfl
    | some digit => exact ih

theorem write_ne_nil (base value : Nat) : write base value ≠ [] := by
  unfold write
  split <;> simp

theorem valueFrom?_write {base : Nat} (hlow : 2 ≤ base) (hhigh : base ≤ 36) (value : Nat) :
    valueFrom? base 0 (write base value) = some value := by
  fun_induction write base value with
  | case1 value hvalue =>
    simp [valueFrom?, digitValue?_digit hhigh (show value < base by omega)]
  | case2 value hvalue ih =>
    have hdigit := digitValue?_digit hhigh (Nat.mod_lt value (show 0 < base by omega))
    simp only [valueFrom?_append, ih, Option.bind_some, valueFrom?, hdigit, Option.some.injEq]
    exact Nat.div_add_mod' value base

/-- What is written reads back. -/
theorem valueOf?_write {base : Nat} (hlow : 2 ≤ base) (hhigh : base ≤ 36) (value : Nat) :
    valueOf? base (write base value) = some value := by
  have hread := valueFrom?_write hlow hhigh value
  unfold valueOf?
  split
  · next hnil => exact absurd hnil (write_ne_nil base value)
  · exact hread

example : read? 16 0x110000 "+1f600".toList = some 0x1F600 := by decide

example : read? 16 0x110000 "++1".toList = none ∧ read? 16 0x110000 "+".toList = none := by decide

end EmojiPatterns.Numeral
