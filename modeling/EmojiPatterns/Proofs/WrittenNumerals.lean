import EmojiPatterns.Unicode.WhiteSpace
import EmojiPatterns.Version

/-!
# Numerals that are read back

Written numerals have digits only, so that they are told apart from the signs around them, and zeros
in front do not change what they are read as.  Main statements:
`Numeral.readCodePoint?_codePoint`, `Version.read?_toString`.
-/

namespace EmojiPatterns

namespace Numeral

/-! ### Digits -/

/-- A text of digits only, of any base up to 36. -/
def Digits (text : List Char) : Prop :=
  ∀ c ∈ text, ∃ value : Fin 36, digit value = c

theorem Digits.append {front back : List Char} (hfront : Digits front) (hback : Digits back) :
    Digits (front ++ back) :=
  List.forall_mem_append.mpr ⟨hfront, hback⟩

/-- A sign that is no digit is not among digits. -/
theorem Digits.not_mem {text : List Char} (hdigits : Digits text) {x : Char}
    (hx : ∀ value : Fin 36, digit value ≠ x) : x ∉ text := by
  intro hmem
  obtain ⟨value, hvalue⟩ := hdigits x hmem
  exact hx value hvalue

theorem Digits.isWhiteSpace_eq_false {text : List Char} (hdigits : Digits text) :
    ∀ c ∈ text, Unicode.isWhiteSpace c = false := by
  have hall : ∀ value : Fin 36, Unicode.isWhiteSpace (digit value) = false := by decide
  intro c hmem
  obtain ⟨value, rfl⟩ := hdigits c hmem
  exact hall value

theorem digits_write {base : Nat} (hlow : 2 ≤ base) (hhigh : base ≤ 36) (value : Nat) :
    Digits (write base value) := by
  have hone : ∀ value < base, Digits [digit value] := by
    intro value hvalue c hmem
    rw [List.mem_singleton.mp hmem]
    exact ⟨⟨value, by omega⟩, rfl⟩
  fun_induction write base value with
  | case1 value hvalue => exact hone value (by omega)
  | case2 value hvalue ih => exact ih.append (hone _ (Nat.mod_lt value (by omega)))

theorem digits_decimal (value : Nat) : Digits (decimal value).toList := by
  rw [decimal, String.toList_ofList]
  exact digits_write (by omega) (by omega) value

theorem decimal_ne_nil (value : Nat) : (decimal value).toList ≠ [] := by
  rw [decimal, String.toList_ofList]
  exact write_ne_nil 10 value

theorem toList_codePoint (value : Nat) :
    (codePoint value).toList =
      List.replicate (4 - (write 16 value).length) '0' ++ write 16 value := by
  rw [codePoint, String.toList_ofList, List.leftpad]

theorem digits_codePoint (value : Nat) : Digits (codePoint value).toList := by
  have hzeros : ∀ count, Digits (List.replicate count '0') := by
    intro count c hmem
    rw [List.eq_of_mem_replicate hmem]
    exact ⟨0, rfl⟩
  rw [toList_codePoint]
  exact (hzeros _).append (digits_write (by omega) (by omega) value)

theorem codePoint_ne_nil (value : Nat) : (codePoint value).toList ≠ [] := by
  rw [toList_codePoint]
  exact List.append_ne_nil_of_right_ne_nil _ (write_ne_nil 16 value)

/-! ### Reading -/

theorem valueOf?_of_ne_nil {base : Nat} {text : List Char} (htext : text ≠ []) :
    valueOf? base text = valueFrom? base 0 text := by
  cases text with
  | nil => exact absurd rfl htext
  | cons c rest => rfl

/-- Zeros in front do not count. -/
theorem valueFrom?_replicate_append {base : Nat} (hbase : 0 < base) (count : Nat)
    (text : List Char) :
    valueFrom? base 0 (List.replicate count '0' ++ text) = valueFrom? base 0 text := by
  have hzero : digitValue? base '0' = some 0 := by simp [digitValue?, hbase]
  induction count with
  | zero => rfl
  | succ count ih =>
    rw [List.replicate_succ, List.cons_append, valueFrom?, hzero]
    simpa using ih

/-- Digits have no sign in front. -/
theorem unsigned_of_digits {text : List Char} (hdigits : Digits text) : unsigned text = text := by
  have hplus : '+' ∉ text := hdigits.not_mem (by decide)
  rw [unsigned]
  rintro rest rfl
  exact hplus List.mem_cons_self

theorem read?_decimal {limit value : Nat} (hvalue : value < limit) :
    read? 10 limit (decimal value).toList = some value := by
  rw [read?, unsigned_of_digits (digits_decimal value), decimal, String.toList_ofList,
    valueOf?_write (by omega) (by omega)]
  simp [hvalue]

theorem readCodePoint?_codePoint {value : Nat} (hvalue : value < 0x100000000) :
    readCodePoint? (codePoint value).toList = some value := by
  rw [readCodePoint?, read?, unsigned_of_digits (digits_codePoint value),
    valueOf?_of_ne_nil (codePoint_ne_nil value), toList_codePoint,
    valueFrom?_replicate_append (by omega), valueFrom?_write (by omega) (by omega)]
  simp [hvalue]

end Numeral

namespace Version

theorem readNumber?_decimal (number : UInt8) :
    readNumber? (Numeral.decimal number.toNat).toList = some number := by
  rw [readNumber?, Numeral.read?_decimal number.toNat_lt]
  simp

/-- A written version reads back. -/
theorem read?_toString (version : Version) : read? version.toString.toList = some version := by
  have hpoint : ∀ number : Nat, '.' ∉ (Numeral.decimal number).toList :=
    fun number => (Numeral.digits_decimal number).not_mem (by decide)
  have hparts : version.toString.toList.splitOn '.' =
      [(Numeral.decimal version.major.toNat).toList,
        (Numeral.decimal version.minor.toNat).toList] := by
    have htext : version.toString.toList = (Numeral.decimal version.major.toNat).toList ++
        '.' :: (Numeral.decimal version.minor.toNat).toList := by
      simp [toString]
    rw [htext, List.splitOn_append_cons_self_of_not_mem (hpoint _),
      List.splitOn_eq_singleton (hpoint _)]
  rw [read?, hparts]
  simp only [readNumber?_decimal]

end Version

end EmojiPatterns
