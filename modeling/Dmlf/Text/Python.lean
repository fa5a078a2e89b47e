import Dmlf.Text.Basic
import Mathlib.Data.Nat.Basic

/-!
# Python's texts

The methods of `str` that the sources use, on the characters that Python takes for blanks and for
decimal digits, which are not only those of ASCII.

* `strip_eq_iff` : the texts that `strip` makes a given text.
* `decimalValue_repr` : the digits of a printed number have its value.
-/

namespace Dmlf

variable {text start m : String} {c : Char}

/-! ### Blanks -/

/-- The characters that `str.strip` removes. -/
def isSpace (c : Char) : Bool :=
  (9 ≤ c.toNat && c.toNat ≤ 13) || (28 ≤ c.toNat && c.toNat ≤ 32) ||
    (8192 ≤ c.toNat && c.toNat ≤ 8202) ||
    c.toNat ∈ [133, 160, 5760, 8232, 8233, 8239, 8287, 12288]

/-- `text.strip()`. -/
def strip (text : String) : String :=
  String.ofList ((text.toList.dropWhile isSpace).reverse.dropWhile isSpace).reverse

/-- `text.removeprefix(start)`. -/
def removePrefix (text start : String) : String :=
  if start.toList.isPrefixOf text.toList then String.ofList (text.toList.drop start.length)
  else text

/-- `text.split()`: what is between blanks. -/
def splitBlanks (text : String) : List String :=
  ((text.toList.splitOnP isSpace).filter fun word => word ≠ []).map String.ofList

/-- A text of blanks only. -/
def Blank (text : String) : Prop := ∀ c ∈ text.toList, isSpace c

theorem toList_strip (text : String) : (strip text).toList = trim isSpace text.toList :=
  String.toList_ofList

/-- **The texts that are stripped to a given one** have it between blanks. -/
theorem strip_eq_iff (h : strip m = m) :
    strip text = m ↔ ∃ w₁ w₂, Blank w₁ ∧ Blank w₂ ∧ text = w₁ ++ m ++ w₂ := by
  have hm : trim isSpace m.toList = m.toList := by rw [← toList_strip, h]
  rw [← String.toList_inj, toList_strip, trim_eq_iff hm]
  constructor
  · rintro ⟨l₁, l₂, h₁, h₂, heq⟩
    refine ⟨.ofList l₁, .ofList l₂, ?_, ?_, ?_⟩
    · simpa [Blank] using h₁
    · simpa [Blank] using h₂
    · rw [← String.toList_inj]
      simpa using heq
  · rintro ⟨w₁, w₂, h₁, h₂, rfl⟩
    exact ⟨w₁.toList, w₂.toList, h₁, h₂, by simp⟩

theorem prefix_iff : start.toList <+: text.toList ↔ ∃ rest, text = start ++ rest := by
  constructor
  · rintro ⟨rest, hrest⟩
    refine ⟨.ofList rest, ?_⟩
    rw [← String.toList_inj, String.toList_append, String.toList_ofList, hrest]
  · rintro ⟨rest, rfl⟩
    rw [String.toList_append]
    exact List.prefix_append _ _

theorem removePrefix_append (start text : String) : removePrefix (start ++ text) start = text := by
  have hpre : start.toList.isPrefixOf (start ++ text).toList := by simp
  rw [removePrefix, if_pos hpre, ← String.toList_inj, String.toList_ofList, String.toList_append,
    ← String.length_toList, List.drop_left]

theorem removePrefix_of_not (h : ¬ start.toList <+: text.toList) :
    removePrefix text start = text := by
  rw [removePrefix, if_neg]
  simpa using h

/-! ### Digits -/

/-- The zeros of the decimal digits; the other nine of each follow it. -/
def decimalZeros : List ℕ :=
  [48, 1632, 1776, 1984, 2406, 2534, 2662, 2790, 2918, 3046, 3174, 3302, 3430, 3558, 3664, 3792,
    3872, 4160, 4240, 6112, 6160, 6470, 6608, 6784, 6800, 6992, 7088, 7232, 7248, 42528, 43216,
    43264, 43472, 43504, 43600, 44016, 65296, 66720, 68912, 69734, 69872, 69942, 70096, 70384,
    70736, 70864, 71248, 71360, 71472, 71904, 72016, 72784, 73040, 73120, 92768, 92864, 93008,
    120782, 120792, 120802, 120812, 120822, 123200, 123632, 125264, 130032]

/-- The zero that a decimal digit is counted from. -/
def decimalZero (c : Char) : Option ℕ :=
  decimalZeros.find? fun first => first ≤ c.toNat && c.toNat < first + 10

/-- The characters that `\d` matches. -/
def isDecimal (c : Char) : Bool := (decimalZero c).isSome

/-- The value of a decimal digit. -/
def decimalDigit (c : Char) : ℕ := c.toNat - (decimalZero c).getD 0

/-- The number that decimal digits are read as. -/
def decimalValue (digits : List Char) : ℕ :=
  digits.foldl (fun value c => 10 * value + decimalDigit c) 0

theorem decimalZero_of_isDigit (h : c.isDigit) : decimalZero c = some 48 := by
  obtain ⟨hge, hle⟩ := Char.isDigit_iff_toNat.1 h
  rw [decimalZero, decimalZeros, List.find?_cons_of_pos]
  have hlt : c.toNat < 48 + 10 := Nat.lt_succ_of_le hle
  simp only [Bool.and_eq_true, decide_eq_true_eq]
  exact ⟨hge, hlt⟩

theorem isDecimal_of_isDigit (h : c.isDigit) : isDecimal c := by
  rw [isDecimal, decimalZero_of_isDigit h]
  rfl

theorem decimalDigit_of_isDigit (h : c.isDigit) : decimalDigit c = c.toNat - 48 := by
  rw [decimalDigit, decimalZero_of_isDigit h, Option.getD_some]

theorem isDigit_of_mem_repr {n : ℕ} (h : c ∈ n.repr.toList) : c.isDigit := by
  rw [Nat.toList_repr] at h
  exact Nat.isDigit_of_mem_toDigits (by decide) (by decide) h

theorem toList_repr_ne_nil (n : ℕ) : n.repr.toList ≠ [] := by
  rw [Nat.toList_repr]
  exact Nat.toDigits_ne_nil

/-- **The digits of a printed number** have its value. -/
theorem decimalValue_repr (n : ℕ) : decimalValue n.repr.toList = n := by
  have hdigits : decimalValue n.repr.toList = Nat.ofDigitChars 10 n.repr.toList 0 := by
    rw [decimalValue, Nat.ofDigitChars_eq_foldl]
    refine List.foldl_ext _ _ _ fun value c hc => ?_
    rw [decimalDigit_of_isDigit (isDigit_of_mem_repr hc)]
    rfl
  rw [hdigits, Nat.toList_repr, Nat.ofDigitChars_ten_toDigits]

/-- `text.upper()`.  Characters outside ASCII stay as they are here; Python never makes one of
them a letter of ASCII that is looked for, a digit or a blank. -/
def upper (text : String) : String := text.map Char.toUpper

end Dmlf
