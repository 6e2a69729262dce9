import Mathlib.Algebra.Order.Field.Power
import Mathlib.Algebra.Order.Field.Rat
import Mathlib.Tactic.Linarith
import Mathlib.Tactic.NormNum
import Mathlib.Tactic.Positivity
import Mathlib.Tactic.Ring
import NatRelay.Number.Shortest

/-! What decimals and floating-point numbers are worth, as fractions, and the number that is nearest
to a decimal. Main statement: `approximates_ofDecimal`. -/
namespace NatRelay.Binary64

-- Powers are those of the core library in every scope.
attribute [local instance(5000)] instPowNat

variable {d : Decimal} {m : Nat} {q : Int} {v : ℚ}

/-! ### Values -/

/-- What a decimal is worth. -/
def Decimal.value (d : Decimal) : ℚ := d.digits * 10 ^ d.exponent

/-- What a mantissa with an exponent is worth. -/
def worth (m : Nat) (q : Int) : ℚ := m * 2 ^ q

/-- A power whose exponent has a sign, by powers that have none. -/
theorem zpow_mul_pow {b : ℚ} (hb : b ≠ 0) (e : Int) : b ^ e * b ^ (-e).toNat = b ^ e.toNat := by
  rw [← zpow_natCast, ← zpow_natCast, ← zpow_add₀ hb]
  congr 1
  omega

/-- Whole numbers are compared in place of the values, both made greater alike. -/
theorem Decimal.compareWith_eq (d : Decimal) (a : Nat) (q : Int) :
    d.compareWith a q = compare d.value (worth a q) := by
  have hscale : (0 : ℚ) < 10 ^ (-d.exponent).toNat * 2 ^ (-q).toNat := by positivity
  have hvalue : ((d.digits * 10 ^ d.exponent.toNat * 2 ^ (-q).toNat : Nat) : ℚ) =
      d.value * (10 ^ (-d.exponent).toNat * 2 ^ (-q).toNat) := by
    have hten := zpow_mul_pow (show (10 : ℚ) ≠ 0 by norm_num) d.exponent
    push_cast
    rw [← hten, value]
    ring
  have hworth : ((a * 2 ^ q.toNat * 10 ^ (-d.exponent).toNat : Nat) : ℚ) =
      worth a q * (10 ^ (-d.exponent).toNat * 2 ^ (-q).toNat) := by
    have htwo := zpow_mul_pow (show (2 : ℚ) ≠ 0 by norm_num) q
    push_cast
    rw [← htwo, worth]
    ring
  rw [← cmp_eq_compare, ← cmp_mul_pos_right hscale, ← hvalue, ← hworth,
    Nat.strictMono_cast.cmp_map_eq, cmp_eq_compare]
  rfl

/-! ### Rounding -/

/-- A value that the number is the nearest to; half way it is if its mantissa is even. Below a power
of two the numbers lie twice as close. -/
structure Rounds (v : ℚ) (m : Nat) (q : Int) : Prop where
  low : worth (quarters m q).1 (q - 2) ≤ v
  high : v ≤ worth (quarters m q).2 (q - 2)
  strict : m % 2 ≠ 0 → worth (quarters m q).1 (q - 2) < v ∧ v < worth (quarters m q).2 (q - 2)

theorem Decimal.roundsTo_iff : d.roundsTo m q ↔ Rounds d.value m q := by
  have hunfold : d.roundsTo m q =
      if m % 2 = 0 then
        d.compareWith (quarters m q).1 (q - 2) != .lt &&
          d.compareWith (quarters m q).2 (q - 2) != .gt
      else
        d.compareWith (quarters m q).1 (q - 2) == .gt &&
          d.compareWith (quarters m q).2 (q - 2) == .lt := rfl
  rw [hunfold, compareWith_eq, compareWith_eq]
  split
  · rename_i heven
    rw [Bool.and_eq_true, bne_iff_ne, bne_iff_ne, compare_ge_iff_ge, compare_le_iff_le]
    exact ⟨fun ⟨hlow, hhigh⟩ => ⟨hlow, hhigh, fun hodd => absurd heven hodd⟩,
      fun h => ⟨h.low, h.high⟩⟩
  · rename_i hodd
    rw [Bool.and_eq_true, beq_iff_eq, beq_iff_eq, compare_gt_iff_gt, compare_lt_iff_lt]
    exact ⟨fun ⟨hlow, hhigh⟩ => ⟨hlow.le, hhigh.le, fun _ => ⟨hlow, hhigh⟩⟩,
      fun h => h.strict hodd⟩

/-- The whole number is at most half away; half way it is even. -/
structure Nearest (n : Nat) (v : ℚ) : Prop where
  low : (n : ℚ) - 1 / 2 ≤ v
  high : v ≤ n + 1 / 2
  strict : n % 2 ≠ 0 → (n : ℚ) - 1 / 2 < v ∧ v < n + 1 / 2

theorem quotient_eq (num : Nat) {den : Nat} (hden : 0 < den) :
    (num / den : ℚ) = (num / den : Nat) + (num % den : Nat) / den := by
  have hpos : (0 : ℚ) < den := Nat.cast_pos.2 hden
  rw [← mul_left_inj' hpos.ne', add_mul, div_mul_cancel₀ _ hpos.ne', div_mul_cancel₀ _ hpos.ne']
  exact_mod_cast (Nat.div_add_mod' num den).symm

theorem quotient_spec (num : Nat) {den : Nat} (hden : 0 < den) :
    ((num / den : Nat) : ℚ) ≤ num / den ∧ (num / den : ℚ) < (num / den : Nat) + 1 := by
  have hpos : (0 : ℚ) < den := Nat.cast_pos.2 hden
  have hrest : ((num % den : Nat) / den : ℚ) < 1 := by
    rw [div_lt_one hpos]
    exact_mod_cast Nat.mod_lt num hden
  have hnonneg : (0 : ℚ) ≤ (num % den : Nat) / den := by positivity
  rw [quotient_eq num hden]
  exact ⟨by linarith, by linarith⟩

theorem nearest_roundHalfEven (num : Nat) {den : Nat} (hden : 0 < den) :
    Nearest (roundHalfEven num den) (num / den) := by
  have hpos : (0 : ℚ) < den := Nat.cast_pos.2 hden
  have hrest : (0 : ℚ) ≤ (num % den : Nat) / den := by positivity
  have hmod : num % den < den := Nat.mod_lt num hden
  rw [quotient_eq num hden, roundHalfEven]
  generalize num / den = n, num % den = rest at hrest hmod ⊢
  split
  · rename_i hless
    have hhalf : (rest / den : ℚ) < 1 / 2 := by
      rw [div_lt_div_iff₀ hpos two_pos]
      exact_mod_cast (by omega : rest * 2 < 1 * den)
    exact ⟨by linarith, by linarith, fun _ => ⟨by linarith, by linarith⟩⟩
  split
  · rename_i hmore
    have hhalf : (1 / 2 : ℚ) < rest / den := by
      rw [div_lt_div_iff₀ two_pos hpos]
      exact_mod_cast (by omega : 1 * den < rest * 2)
    have hless : (rest / den : ℚ) < 1 := by
      rw [div_lt_one hpos]
      exact_mod_cast hmod
    refine ⟨?_, ?_, fun _ => ⟨?_, ?_⟩⟩ <;> rw [Nat.cast_succ] <;> linarith
  · rename_i hless hmore
    have hhalf : (rest / den : ℚ) = 1 / 2 := by
      rw [div_eq_div_iff hpos.ne' two_ne_zero]
      exact_mod_cast (by omega : rest * 2 = 1 * den)
    rcases Nat.mod_two_eq_zero_or_one n with heven | hodd
    · rw [hhalf, heven, Nat.add_zero]
      exact ⟨by linarith, by linarith, fun hodd => absurd heven hodd⟩
    · rw [hhalf, hodd]
      refine ⟨?_, ?_, fun hnot => absurd (by omega) hnot⟩ <;> rw [Nat.cast_succ] <;> linarith

theorem floorLog2_spec {num den : Nat} (hnum : 0 < num) (hden : 0 < den) :
    (2 : ℚ) ^ floorLog2 num den ≤ num / den ∧ (num / den : ℚ) < 2 ^ (floorLog2 num den + 1) := by
  have hpos : (0 : ℚ) < den := Nat.cast_pos.2 hden
  have hlog {n : Nat} (hn : 0 < n) : (2 : ℚ) ^ (n.log2 : Int) ≤ n ∧
      (n : ℚ) < 2 ^ ((n.log2 : Int) + 1) := by
    constructor
    · exact_mod_cast Nat.log2_self_le (Nat.ne_of_gt hn)
    · exact_mod_cast Nat.lt_log2_self (n := n)
  obtain ⟨hnum_low, hnum_high⟩ := hlog hnum
  obtain ⟨hden_low, hden_high⟩ := hlog hden
  generalize hs : (num.log2 : Int) = s at hnum_low hnum_high
  generalize ht : (den.log2 : Int) = t at hden_low hden_high
  have htwo : (2 : ℚ) ≠ 0 := two_ne_zero
  have hlow : (2 : ℚ) ^ (s - t - 1) ≤ num / den := by
    rw [sub_sub, zpow_sub₀ htwo]
    exact div_le_div₀ (by positivity) hnum_low hpos hden_high.le
  have hhigh : (num / den : ℚ) < 2 ^ (s - t + 1) := by
    rw [sub_add_eq_add_sub, zpow_sub₀ htwo]
    exact div_lt_div₀ hnum_high hden_low (by positivity) (by positivity)
  have hreaches : (if s - t ≥ 0 then den * 2 ^ (s - t).toNat ≤ num
      else den ≤ num * 2 ^ (-(s - t)).toNat) ↔ (2 : ℚ) ^ (s - t) ≤ num / den := by
    rw [le_div_iff₀ hpos]
    generalize s - t = e
    split
    · rename_i he
      obtain ⟨i, rfl⟩ := Int.eq_ofNat_of_zero_le he
      rw [mul_comm]
      exact_mod_cast Iff.rfl
    · rename_i he
      obtain ⟨i, rfl⟩ : ∃ i : Nat, e = -i := ⟨(-e).toNat, by omega⟩
      rw [zpow_neg, inv_mul_le_iff₀ (by positivity), neg_neg, mul_comm]
      exact_mod_cast Iff.rfl
  rw [floorLog2, hs, ht, if_congr hreaches rfl rfl]
  split
  · rename_i hle
    exact ⟨hle, hhigh⟩
  · rename_i hlt
    rw [sub_add_cancel]
    exact ⟨hlow, not_le.1 hlt⟩

theorem worth_quarters (n : Nat) (q : Int) : worth n (q - 2) = n / 4 * 2 ^ q := by
  rw [worth, zpow_sub₀ two_ne_zero]
  norm_num
  ring

/-- The lower end is half a unit away, or a quarter. -/
theorem quarters_low (hm : 0 < m) : ((quarters m q).1 : ℚ) = 4 * m - 2 ∨
    ((quarters m q).1 : ℚ) = 4 * m - 1 ∧ m = leastMantissa := by
  rw [quarters]
  split
  · rename_i hleast
    right
    refine ⟨?_, hleast.1⟩
    rw [Nat.cast_sub (by omega)]
    push_cast
    ring
  · left
    rw [Nat.cast_sub (by omega)]
    push_cast
    ring

theorem quarters_high : ((quarters m q).2 : ℚ) = 4 * m + 2 := by
  rw [quarters]
  push_cast
  ring

theorem rounds_iff : Rounds v m q ↔
    ((quarters m q).1 / 4 ≤ v / 2 ^ q ∧ v / 2 ^ q ≤ (quarters m q).2 / 4) ∧
      (m % 2 ≠ 0 → (quarters m q).1 / 4 < v / 2 ^ q ∧ v / 2 ^ q < (quarters m q).2 / 4) := by
  have hpower : (0 : ℚ) < 2 ^ q := by positivity
  rw [le_div_iff₀ hpower, div_le_iff₀ hpower, lt_div_iff₀ hpower, div_lt_iff₀ hpower]
  simp only [← worth_quarters]
  exact ⟨fun h => ⟨⟨h.low, h.high⟩, h.strict⟩, fun h => ⟨h.1.1, h.1.2, h.2⟩⟩

theorem Nearest.rounds (h : Nearest m (v / 2 ^ q)) (hm : 0 < m) (hv : leastMantissa ≤ v / 2 ^ q) :
    Rounds v m q := by
  obtain ⟨hlow, hhigh, hstrict⟩ := h
  rw [rounds_iff, quarters_high]
  generalize v / 2 ^ q = w at *
  rcases quarters_low (q := q) hm with hquarter | ⟨hquarter, rfl⟩
  · rw [hquarter]
    refine ⟨⟨by linarith, by linarith⟩, fun hodd => ?_⟩
    obtain ⟨hlow, hhigh⟩ := hstrict hodd
    exact ⟨by linarith, by linarith⟩
  · rw [hquarter]
    exact ⟨⟨by linarith, by linarith⟩, fun hodd => absurd rfl hodd⟩

/-- Rounded up to a power of two, a number has the next exponent. -/
theorem Nearest.rounds_carry (h : Nearest (2 * leastMantissa) (v / 2 ^ q))
    (hq : minExponent < q + 1) (hv : v / 2 ^ q < 2 * leastMantissa) :
    Rounds v leastMantissa (q + 1) := by
  have hscale : v / 2 ^ (q + 1) = v / 2 ^ q / 2 := by rw [zpow_add_one₀ two_ne_zero, div_div]
  have hquarter : ((quarters leastMantissa (q + 1)).1 : ℚ) = 4 * leastMantissa - 1 := by
    rw [quarters, if_pos ⟨rfl, hq⟩, Nat.cast_sub (by decide)]
    push_cast
    rfl
  have hlow := h.low
  rw [rounds_iff, hquarter, quarters_high, hscale]
  generalize v / 2 ^ q = w at *
  push_cast at hlow
  exact ⟨⟨by linarith, by linarith⟩, fun hodd => absurd rfl hodd⟩

theorem Nearest.le_of_le {n k : Nat} (h : Nearest n v) (hk : (k : ℚ) ≤ v) : k ≤ n := by
  have hlt : (k : ℚ) < n + 1 := by
    have := h.high
    linarith
  exact Nat.lt_succ_iff.1 (by exact_mod_cast hlt)

theorem nearest_scaled (num : Nat) {den : Nat} (hden : 0 < den) (q : Int) :
    Nearest (if q ≥ 0 then roundHalfEven num (den * 2 ^ q.toNat)
      else roundHalfEven (num * 2 ^ (-q).toNat) den) (num / den / 2 ^ q) := by
  split
  · rename_i hq
    have hvalue : (num / den / 2 ^ q : ℚ) = num / (den * 2 ^ q.toNat : Nat) := by
      rw [Nat.cast_mul, Nat.cast_pow, ← div_div, ← zpow_natCast, Int.toNat_of_nonneg hq]
      rfl
    rw [hvalue]
    exact nearest_roundHalfEven num (by positivity)
  · rename_i hq
    have hvalue : (num / den / 2 ^ q : ℚ) = (num * 2 ^ (-q).toNat : Nat) / den := by
      rw [Nat.cast_mul, Nat.cast_pow, ← zpow_natCast, Int.toNat_of_nonneg (by omega), zpow_neg,
        div_right_comm, div_eq_mul_inv (num : ℚ)]
      rfl
    rw [hvalue]
    exact nearest_roundHalfEven _ hden

/-- A number with a whole mantissa that is the nearest to a value, but for the sign. -/
inductive Approximates (v : ℚ) (negative : Bool) : Binary64 → Prop where
  | mk {m : Nat} {q : Int} (hm : leastMantissa ≤ m) (hrounds : Rounds v m q) :
    Approximates v negative (finite negative m q)

/-- The nearest number to a quotient whose exponent is neither too small nor too great. -/
theorem approximates_ofQuotient (negative : Bool) {num den : Nat} (hnum : 0 < num) (hden : 0 < den)
    (hleast : minExponent < floorLog2 num den - 52)
    (hgreatest : floorLog2 num den - 52 < maxExponent) :
    Approximates (num / den) negative (ofQuotient negative num den) := by
  obtain ⟨hlow, hhigh⟩ := floorLog2_spec hnum hden
  have hnearest := nearest_scaled num hden (floorLog2 num den - 52)
  have hfloor : floorLog2 num den = floorLog2 num den - 52 + 52 := by omega
  rw [hfloor] at hlow hhigh
  rw [ofQuotient, max_eq_left hleast.le]
  generalize floorLog2 num den - 52 = q at *
  have hpower : (0 : ℚ) < 2 ^ q := by positivity
  have hmantissa : (leastMantissa : ℚ) = 2 ^ (52 : Int) := by
    rw [leastMantissa]
    norm_num
  have hlow : leastMantissa ≤ (num / den : ℚ) / 2 ^ q := by
    rw [le_div_iff₀ hpower, hmantissa, ← zpow_add₀ two_ne_zero, add_comm]
    exact hlow
  have hhigh : (num / den : ℚ) / 2 ^ q < 2 * leastMantissa := by
    rw [div_lt_iff₀ hpower, hmantissa, mul_assoc, ← zpow_add₀ two_ne_zero, add_comm 52,
      mul_comm, ← zpow_add_one₀ two_ne_zero]
    exact hhigh
  have hle := hnearest.le_of_le hlow
  generalize (if q ≥ 0 then roundHalfEven num (den * 2 ^ q.toNat)
    else roundHalfEven (num * 2 ^ (-q).toNat) den) = n at hnearest hle ⊢
  by_cases hcarry : n = 2 * leastMantissa
  · subst hcarry
    dsimp only
    rw [if_pos rfl, if_neg (by omega)]
    exact .mk le_rfl (hnearest.rounds_carry (by omega) hhigh)
  · dsimp only
    rw [if_neg hcarry, if_neg (by omega)]
    exact .mk hle (hnearest.rounds (by omega) hlow)

/-! ### Decimals -/

/-- Values that are neither too small nor too great for numbers with a whole mantissa. -/
structure InRange (v : ℚ) : Prop where
  least : 10 ^ (-300 : Int) ≤ v
  greatest : v < 10 ^ (300 : Int)

theorem ten_pow_le_two_pow : (10 : ℚ) ^ (300 : Int) ≤ 2 ^ (1000 : Int) := by
  have hten : (10 : ℚ) ^ (3 * 100 : Nat) ≤ 2 ^ (10 * 100 : Nat) := by
    rw [pow_mul, pow_mul]
    exact pow_le_pow_left₀ (by norm_num) (by norm_num) 100
  exact hten

theorem InRange.floorLog2 {num den : Nat} (h : InRange (num / den)) (hnum : 0 < num)
    (hden : 0 < den) : -1001 < floorLog2 num den ∧ floorLog2 num den < 1000 := by
  have htwo : (1 : ℚ) < 2 := by norm_num
  obtain ⟨hlow, hhigh⟩ := floorLog2_spec hnum hden
  have hsmall : (2 : ℚ) ^ (-1000 : Int) ≤ 10 ^ (-300 : Int) := by
    rw [zpow_neg, zpow_neg]
    exact inv_anti₀ (by positivity) ten_pow_le_two_pow
  have hbelow : (2 : ℚ) ^ (-1000 : Int) < 2 ^ (Binary64.floorLog2 num den + 1) :=
    lt_of_le_of_lt (hsmall.trans h.least) hhigh
  have habove : (2 : ℚ) ^ Binary64.floorLog2 num den < 2 ^ (1000 : Int) :=
    lt_of_le_of_lt hlow (h.greatest.trans_le ten_pow_le_two_pow)
  rw [zpow_lt_zpow_iff_right₀ htwo] at hbelow habove
  omega

theorem decimalLength_spec {n : Nat} (hn : 0 < n) :
    (10 : ℚ) ^ ((decimalLength n : Int) - 1) ≤ n ∧ (n : ℚ) < 10 ^ (decimalLength n : Int) := by
  have hpos : 0 < (Nat.toDigits 10 n).length := List.length_pos_of_ne_nil Nat.toDigits_ne_nil
  rw [decimalLength, if_neg hn.ne']
  generalize hlength : (Nat.toDigits 10 n).length = k at hpos
  have hle (i : Nat) (hi : 0 < i) := Nat.length_toDigits_le_iff (n := n) (by decide : 1 < 10) hi
  constructor
  · obtain ⟨i, rfl⟩ := Nat.exists_eq_succ_of_ne_zero hpos.ne'
    rw [Nat.cast_succ, add_sub_cancel_right]
    rcases Nat.eq_zero_or_pos i with rfl | hi
    · rw [Nat.cast_zero, zpow_zero]
      exact Nat.one_le_cast.2 hn
    · have hnot : ¬ n < 10 ^ i := by
        rw [← hle i hi]
        omega
      exact_mod_cast not_lt.1 hnot
  · exact_mod_cast (hle k hpos).1 hlength.le

theorem InRange.magnitude {n : Nat} {e : Int} (h : InRange (Decimal.value ⟨n, e⟩)) (hn : 0 < n) :
    -300 < (decimalLength n : Int) + e ∧ (decimalLength n : Int) + e ≤ 300 := by
  have hten : (1 : ℚ) < 10 := by norm_num
  have hpower : (0 : ℚ) < 10 ^ e := by positivity
  obtain ⟨hlow, hhigh⟩ := decimalLength_spec hn
  have hbelow : (10 : ℚ) ^ (-300 : Int) < 10 ^ ((decimalLength n : Int) + e) := by
    rw [zpow_add₀ (by norm_num)]
    exact lt_of_le_of_lt h.least (mul_lt_mul_of_pos_right hhigh hpower)
  have habove : (10 : ℚ) ^ ((decimalLength n : Int) - 1 + e) < 10 ^ (300 : Int) := by
    rw [zpow_add₀ (by norm_num)]
    exact lt_of_le_of_lt (mul_le_mul_of_nonneg_right hlow hpower.le) h.greatest
  rw [zpow_lt_zpow_iff_right₀ hten] at hbelow habove
  omega

/-- The nearest number to a decimal in the range. -/
theorem approximates_ofDecimal (negative : Bool) {n : Nat} {e : Int} (hn : 0 < n)
    (h : InRange (Decimal.value ⟨n, e⟩)) :
    Approximates (Decimal.value ⟨n, e⟩) negative (ofDecimal negative n e) := by
  obtain ⟨hleast, hgreatest⟩ := h.magnitude hn
  have hquotient {num den : Nat} (hnum : 0 < num) (hden : 0 < den)
      (hvalue : Decimal.value ⟨n, e⟩ = (num / den : ℚ)) :
      Approximates (Decimal.value ⟨n, e⟩) negative (ofQuotient negative num den) := by
    rw [hvalue] at h ⊢
    obtain ⟨hleast, hgreatest⟩ := h.floorLog2 hnum hden
    have hmin : minExponent = -1074 := rfl
    have hmax : maxExponent = 971 := rfl
    exact approximates_ofQuotient negative hnum hden (by omega) (by omega)
  rw [ofDecimal, if_neg (by omega), if_neg (by omega)]
  split
  · rename_i he
    refine hquotient (by positivity) Nat.one_pos ?_
    rw [Nat.cast_one, div_one, Nat.cast_mul, Nat.cast_pow, ← zpow_natCast, Int.toNat_of_nonneg he]
    rfl
  · rename_i he
    refine hquotient hn (by positivity) ?_
    rw [Nat.cast_pow, ← zpow_natCast, Int.toNat_of_nonneg (by omega), zpow_neg, div_inv_eq_mul]
    rfl

end NatRelay.Binary64
