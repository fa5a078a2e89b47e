import Dmlf.Manager.Allocator
import Mathlib.Tactic.Linarith
import Mathlib.Tactic.Ring

/-!
# The memory of a node

An agent prints the memory of its machine in gigabytes with one decimal
(`dmlf/agent/hardware.py`); the allocator reads the text again.  Sizes are exact here, and the
decimal is the nearest one, the even one of two that are equally near.

* `parseMemory_getRamTotal` : what the allocator reads is what the agent printed.
* `memory_roundTrip` : how far that is from the memory of the machine.
-/

namespace Dmlf

/-- The integer nearest to `n / d`, the even one of two that are equally near. -/
def roundDiv (n d : ℕ) : ℕ :=
  let q := n / d
  let r := n % d
  if 2 * r < d then q
  else if d < 2 * r then q + 1
  else q + q % 2

/-- The tenths of a gigabyte that `{gb:.1f}` prints. -/
def ramTenths (totalBytes : ℕ) : ℕ := roundDiv (10 * totalBytes) (1024 ^ 3)

/-- A number of tenths, printed with a point. -/
def printTenths (n : ℕ) : String := (n / 10).repr ++ "." ++ (n % 10).repr

/-- `get_ram_total`. -/
def getRamTotal (totalBytes : ℕ) : String := printTenths (ramTenths totalBytes) ++ "GB"

/-! ### Rounding -/

variable {n m d : ℕ}

theorem div_le_roundDiv (n d : ℕ) : n / d ≤ roundDiv n d := by
  simp only [roundDiv]
  split_ifs <;> omega

theorem roundDiv_le (n d : ℕ) : roundDiv n d ≤ n / d + 1 := by
  simp only [roundDiv]
  split_ifs <;> omega

theorem roundDiv_bounds (hd : 0 < d) (n : ℕ) :
    2 * n ≤ 2 * (d * roundDiv n d) + d ∧ 2 * (d * roundDiv n d) ≤ 2 * n + d := by
  have hdiv := Nat.div_add_mod n d
  have hmod := Nat.mod_lt n hd
  simp only [roundDiv]
  split_ifs with hlow hhigh
  · omega
  · rw [Nat.mul_add, Nat.mul_one]
    omega
  · rcases Nat.mod_two_eq_zero_or_one (n / d) with heven | hodd
    · rw [heven, Nat.add_zero]
      omega
    · rw [hodd, Nat.mul_add, Nat.mul_one]
      omega

theorem roundDiv_mono (h : n ≤ m) : roundDiv n d ≤ roundDiv m d := by
  rcases (Nat.div_le_div_right (c := d) h).lt_or_eq with hlt | heq
  · calc roundDiv n d ≤ n / d + 1 := roundDiv_le n d
      _ ≤ m / d := hlt
      _ ≤ roundDiv m d := div_le_roundDiv m d
  · -- with one floor the remainders are in the order of the numbers
    have hn := Nat.div_add_mod n d
    have hm := Nat.div_add_mod m d
    rw [heq] at hn
    simp only [roundDiv, heq]
    split_ifs <;> omega

/-! ### Reading -/

theorem toUpper_of_isDigit {c : Char} (h : c.isDigit) : c.toUpper = c := by
  obtain ⟨-, hle⟩ := Char.isDigit_iff_toNat.1 h
  refine dif_neg ?_
  rintro ⟨hge, -⟩
  have hnat : 97 ≤ c.toNat := hge
  have hnat' : c.toNat ≤ 57 := hle
  omega

theorem map_toUpper_repr (n : ℕ) : n.repr.toList.map Char.toUpper = n.repr.toList := by
  calc n.repr.toList.map Char.toUpper
      = n.repr.toList.map id :=
        List.map_congr_left fun c hc => toUpper_of_isDigit (isDigit_of_mem_repr hc)
    _ = n.repr.toList := List.map_id _

theorem toList_upper_getRamTotal (b : ℕ) :
    (upper (getRamTotal b)).toList =
      (ramTenths b / 10).repr.toList ++ '.' :: ((ramTenths b % 10).repr.toList ++ "GB".toList) := by
  rw [upper, String.toList_map, getRamTotal, printTenths]
  simp only [String.toList_append, List.map_append, map_toUpper_repr]
  rw [List.append_assoc, List.append_assoc]
  rfl

/-- **The search matches the whole text**: the digits before the point, those behind it, and the
unit. -/
theorem search_memoryPattern (n m : ℕ) :
    memoryPattern.search (n.repr.toList ++ '.' :: (m.repr.toList ++ "GB".toList)) =
      some ((n.repr.toList, some m.repr.toList), .gb) := by
  have hdigits : ∀ k : ℕ, ∀ c ∈ k.repr.toList, isDecimal c := fun k c hc =>
    isDecimal_of_isDigit (isDigit_of_mem_repr hc)
  have hpoint : ∀ c ∈ ('.' :: (m.repr.toList ++ "GB".toList)).head?, ¬ isDecimal c := by
    rintro c ⟨⟩
    decide
  have hunit : ∀ c ∈ "GB".toList.head?, ¬ isDecimal c := by
    rintro c ⟨⟩
    decide
  have hwhole := Pattern.head?_many₁ (toList_repr_ne_nil n) (hdigits n) hpoint
  have hone : (Pattern.one (fun c => decide (c = '.'))
      ('.' :: (m.repr.toList ++ "GB".toList))).head? = some ('.', m.repr.toList ++ "GB".toList) :=
    Pattern.head?_one (by decide)
  have hfraction : (Pattern.optional (.seq (.one fun c => c = '.') fun _ => .many₁ isDecimal)
      ('.' :: (m.repr.toList ++ "GB".toList))).head? =
        some (some m.repr.toList, "GB".toList) := by
    refine Pattern.head?_optional (Pattern.head?_seq hone ?_)
    exact Pattern.head?_many₁ (toList_repr_ne_nil m) (hdigits m) hunit
  have hmatch : (memoryPattern (n.repr.toList ++ '.' :: (m.repr.toList ++ "GB".toList))).head? =
      some (((n.repr.toList, some m.repr.toList), .gb), []) := by
    refine Pattern.head?_seq hwhole ?_
    refine Pattern.head?_seq hfraction ?_
    rfl
  exact Pattern.search_of_head? hmatch

theorem search_getRamTotal (b : ℕ) :
    memoryPattern.search (upper (getRamTotal b)).toList =
      some (((ramTenths b / 10).repr.toList, some (ramTenths b % 10).repr.toList), .gb) := by
  rw [toList_upper_getRamTotal, search_memoryPattern]

theorem getRamTotal_ne_empty (b : ℕ) : getRamTotal b ≠ "" := by
  intro h
  have htoList := congrArg String.toList h
  simp [getRamTotal] at htoList

/-- **The allocator reads what the agent printed.** -/
theorem parseMemory_getRamTotal (b : ℕ) :
    parseMemory (getRamTotal b) = (ramTenths b : ℚ) / 10 * 1024 := by
  have hlen : (ramTenths b % 10).repr.toList.length = 1 := by
    rw [Nat.toList_repr, Nat.toDigits_of_lt_base (Nat.mod_lt _ (by decide))]
    rfl
  have hdiv : ((10 * (ramTenths b / 10) + ramTenths b % 10 : ℕ) : ℚ) = ramTenths b := by
    rw [Nat.div_add_mod]
  push_cast at hdiv
  rw [parseMemory, if_neg (getRamTotal_ne_empty b), search_getRamTotal]
  simp only [decimalNumber, Option.getD_some, decimalValue_repr, hlen]
  rw [← hdiv]
  ring

theorem getRamTotal_eq_zero_iff (b : ℕ) : getRamTotal b = "0.0GB" ↔ ramTenths b = 0 := by
  constructor
  · intro h
    have hparse := parseMemory_getRamTotal b
    rw [h, show parseMemory "0.0GB" = 0 by decide +kernel] at hparse
    have hzero : (ramTenths b : ℚ) = 0 := by linarith
    exact_mod_cast hzero
  · intro h
    rw [getRamTotal, h]
    rfl

theorem abs_parseMemory_sub_le (b : ℕ) : |parseMemory (getRamTotal b) - b / 2 ^ 20| ≤ 51.2 := by
  obtain ⟨hlow, hhigh⟩ := roundDiv_bounds (show 0 < 1024 ^ 3 by norm_num) (10 * b)
  change 2 * (10 * b) ≤ 2 * (1024 ^ 3 * ramTenths b) + 1024 ^ 3 at hlow
  change 2 * (1024 ^ 3 * ramTenths b) ≤ 2 * (10 * b) + 1024 ^ 3 at hhigh
  have hlow' : (2 * (10 * b) : ℚ) ≤ 2 * (1024 ^ 3 * ramTenths b) + 1024 ^ 3 := by
    exact_mod_cast hlow
  have hhigh' : (2 * (1024 ^ 3 * ramTenths b) : ℚ) ≤ 2 * (10 * b) + 1024 ^ 3 := by
    exact_mod_cast hhigh
  rw [parseMemory_getRamTotal, abs_le]
  constructor <;> linarith

theorem parseMemory_eq_zero_iff (b : ℕ) :
    parseMemory (getRamTotal b) = 0 ↔ getRamTotal b = "0.0GB" := by
  rw [getRamTotal_eq_zero_iff, parseMemory_getRamTotal]
  constructor
  · intro h
    have hzero : (ramTenths b : ℚ) = 0 := by linarith
    exact_mod_cast hzero
  · intro h
    rw [h]
    norm_num

theorem parseMemory_mono {b c : ℕ} (hbc : b ≤ c) :
    parseMemory (getRamTotal b) ≤ parseMemory (getRamTotal c) := by
  have htenths : (ramTenths b : ℚ) ≤ ramTenths c := by
    exact_mod_cast roundDiv_mono (Nat.mul_le_mul_left 10 hbc)
  rw [parseMemory_getRamTotal, parseMemory_getRamTotal]
  linarith

theorem NodeAllocator.score_mono {al : NodeAllocator} (hweight : 0 ≤ al.ramWeight)
    {ram ram' : String} (h : parseMemory ram ≤ parseMemory ram') (gpuModel : Option String)
    (cpuCount : Option ℤ) :
    al.score gpuModel cpuCount (some ram) ≤ al.score gpuModel cpuCount (some ram') := by
  simp only [score, Option.getD_some]
  gcongr

/-- **Printed and read again**, the memory of a machine is at most 51.2 megabytes off; the text
always matches, so it is read as zero only if it says zero; and more memory is never read as
less, so it never scores less. -/
theorem memory_roundTrip (al : NodeAllocator) (b : ℕ) :
    |parseMemory (getRamTotal b) - b / 2 ^ 20| ≤ 51.2 ∧
      (getRamTotal b ≠ "" ∧ memoryPattern.search (upper (getRamTotal b)).toList ≠ none ∧
        (parseMemory (getRamTotal b) = 0 ↔ getRamTotal b = "0.0GB")) ∧
      ∀ c, b ≤ c → parseMemory (getRamTotal b) ≤ parseMemory (getRamTotal c) ∧
        (0 ≤ al.ramWeight → ∀ gpuModel cpuCount,
          al.score gpuModel cpuCount (some (getRamTotal b)) ≤
            al.score gpuModel cpuCount (some (getRamTotal c))) := by
  refine ⟨abs_parseMemory_sub_le b, ⟨getRamTotal_ne_empty b, ?_, parseMemory_eq_zero_iff b⟩,
    fun c hbc => ⟨parseMemory_mono hbc, fun hweight => ?_⟩⟩
  · rw [search_getRamTotal]
    exact Option.some_ne_none _
  · exact NodeAllocator.score_mono hweight (parseMemory_mono hbc)

end Dmlf
