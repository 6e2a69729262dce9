import NatRelay.Proofs.Number.Rounding
import NatRelay.Proofs.Numeral

/-! The shortest decimal of a floating-point number. Main statement: `text_ofDecimal`, that a
decimal of at most fifteen digits comes back from the number nearest to it. -/
namespace NatRelay.Binary64
open Numeral (Stops stops_cons dropWhile_front)

-- Powers are those of the core library in every scope.
attribute [local instance(5000)] instPowNat

variable {d r : Decimal} {m : Nat} {q : Int} {v : ℚ}

/-! ### The shortest decimal -/

theorem scaled_spec (m : Nat) (q p : Int) : 0 < (scaled m q p).2 ∧
    ((scaled m q p).1 / (scaled m q p).2 : ℚ) = worth m q / 10 ^ p := by
  have htwo := zpow_mul_pow (two_ne_zero (α := ℚ)) q
  have hten := zpow_mul_pow (show (10 : ℚ) ≠ 0 by norm_num) p
  rw [scaled]
  refine ⟨by positivity, ?_⟩
  rw [div_eq_div_iff (by positivity) (by positivity), worth]
  push_cast
  rw [← htwo, ← hten]
  ring

theorem pointPlace_spec (hleast : (10 : ℚ) ^ (-400 : Int) ≤ worth m q) :
    (10 : ℚ) ^ (pointPlace m q - 1) ≤ worth m q ∧ worth m q < 10 ^ pointPlace m q := by
  have hten : (10 : ℚ) ≠ 0 := by norm_num
  obtain ⟨hden, hvalue⟩ := scaled_spec m q (-400)
  rw [pointPlace]
  dsimp only
  generalize (scaled m q (-400)).1 = num, (scaled m q (-400)).2 = den at hden hvalue ⊢
  obtain ⟨hlow, hhigh⟩ := quotient_spec num hden
  have hworth : worth m q = (num / den : ℚ) * 10 ^ (-400 : Int) := by
    rw [hvalue, div_mul_cancel₀ _ (zpow_ne_zero _ hten)]
  have hpower : (0 : ℚ) < 10 ^ (-400 : Int) := by positivity
  have hpos : 0 < num / den := by
    have hone : (1 : ℚ) ≤ num / den := by rwa [hvalue, one_le_div hpower]
    have hlt : 1 < num / den + 1 := by exact_mod_cast lt_of_le_of_lt hone hhigh
    omega
  obtain ⟨hleast, hgreatest⟩ := decimalLength_spec hpos
  have hsucc : ((num / den : Nat) : ℚ) + 1 ≤ 10 ^ (decimalLength (num / den) : Int) := by
    rw [zpow_natCast] at hgreatest ⊢
    exact_mod_cast hgreatest
  rw [hworth]
  constructor
  · rw [sub_right_comm, sub_eq_add_neg _ 400, zpow_add₀ hten]
    exact mul_le_mul_of_nonneg_right (hleast.trans hlow) hpower.le
  · rw [sub_eq_add_neg _ 400, zpow_add₀ hten]
    exact mul_lt_mul_of_pos_right (hhigh.trans_le hsucc) hpower

theorem onGrid?_eq_some {p : Int} (h : onGrid? m q p = some r) :
    r.exponent = p ∧ Rounds r.value m q := by
  rw [onGrid?] at h
  have hrounds := List.find?_some h
  have hmem := List.mem_of_find?_eq_some h
  refine ⟨?_, Decimal.roundsTo_iff.1 hrounds⟩
  split at hmem
  · rcases List.mem_pair.1 hmem with rfl | rfl <;> rfl
  · rcases List.mem_pair.1 hmem with rfl | rfl <;> rfl

/-- One of the two neighbours on the grid is the decimal. -/
theorem onGrid?_isSome {p : Int} (hd : Rounds d.value m q) (hexponent : d.exponent = p)
    (hclose : |d.value - worth m q| < 10 ^ p) : (onGrid? m q p).isSome := by
  obtain ⟨hden, hvalue⟩ := scaled_spec m q p
  rw [onGrid?]
  dsimp only
  generalize (scaled m q p).1 = num, (scaled m q p).2 = den at hden hvalue ⊢
  obtain ⟨hlow, hhigh⟩ := quotient_spec num hden
  have hpower : (0 : ℚ) < 10 ^ p := by positivity
  obtain ⟨n, e⟩ := d
  obtain rfl : e = p := hexponent
  have hdigits : n = num / den ∨ n = num / den + 1 := by
    rw [Decimal.value, abs_lt, ← div_mul_cancel₀ (worth m q) hpower.ne', ← hvalue] at hclose
    obtain ⟨hbelow, habove⟩ := hclose
    have hless : (n : ℚ) < num / den + 1 := by
      refine lt_of_mul_lt_mul_right ?_ hpower.le
      dsimp only at habove
      linarith
    have hmore : (num / den : ℚ) < n + 1 := by
      refine lt_of_mul_lt_mul_right ?_ hpower.le
      dsimp only at hbelow
      linarith
    have hupper : n < num / den + 2 := by
      have : (n : ℚ) < (num / den : Nat) + 2 := by linarith
      exact_mod_cast this
    have hlower : num / den < n + 1 := by
      have : ((num / den : Nat) : ℚ) < n + 1 := by linarith
      exact_mod_cast this
    omega
  rw [List.find?_isSome]
  refine ⟨⟨n, e⟩, ?_, Decimal.roundsTo_iff.2 hd⟩
  split <;> rcases hdigits with rfl | rfl <;> simp

/-- What is rounded to a number is at most half a unit away from it. -/
theorem Rounds.close (h : Rounds v m q) (hm : 0 < m) : |v - worth m q| ≤ 2 ^ q / 2 := by
  have hpower : (0 : ℚ) < 2 ^ q := by positivity
  obtain ⟨⟨hlow, hhigh⟩, -⟩ := rounds_iff.1 h
  rw [le_div_iff₀ hpower] at hlow
  rw [div_le_iff₀ hpower, quarters_high] at hhigh
  rw [abs_le, worth]
  have hquarter : (4 * m - 2 : ℚ) ≤ (quarters m q).1 := by
    rcases quarters_low (q := q) hm with heq | ⟨heq, -⟩ <;> rw [heq]
    linarith
  have hscaled := mul_le_mul_of_nonneg_right hquarter hpower.le
  constructor <;> linarith

theorem eq_of_close {n k : Nat} {unit : ℚ} (hunit : 0 < unit)
    (h : |(n : ℚ) * unit - k * unit| < unit) : n = k := by
  obtain ⟨hbelow, habove⟩ := abs_lt.1 h
  have hless : (n : ℚ) < k + 1 := lt_of_mul_lt_mul_right (by linarith) hunit.le
  have hmore : (k : ℚ) < n + 1 := lt_of_mul_lt_mul_right (by linarith) hunit.le
  have hless : n < k + 1 := by exact_mod_cast hless
  have hmore : k < n + 1 := by exact_mod_cast hmore
  omega

/-- A decimal of at most fifteen digits is rounded to a number that has a whole mantissa. -/
structure IsShort (d : Decimal) (m : Nat) (q : Int) : Prop where
  rounds : Rounds d.value m q
  mantissa : leastMantissa ≤ m
  digits : d.digits < 10 ^ 15

namespace IsShort
variable (h : IsShort d m q)
include h

theorem mantissa_pos : 0 < m := Nat.lt_of_lt_of_le (by decide) h.mantissa

theorem value_lt : d.value < 10 ^ 15 * 10 ^ d.exponent := by
  refine mul_lt_mul_of_pos_right ?_ (by positivity)
  exact_mod_cast h.digits

/-- The last place of the decimal is more than two units of the number. -/
theorem unit_lt : (2 : ℚ) ^ q < 10 ^ d.exponent / 2 := by
  have hpower : (0 : ℚ) < 2 ^ q := by positivity
  have hten : (0 : ℚ) < 10 ^ d.exponent := by positivity
  have hclose := abs_le.1 (h.rounds.close h.mantissa_pos)
  have hmantissa : (2 ^ 52 : ℚ) * 2 ^ q ≤ worth m q := by
    refine mul_le_mul_of_nonneg_right ?_ hpower.le
    exact_mod_cast h.mantissa
  have hvalue := h.value_lt
  norm_num at hmantissa hvalue
  linarith

theorem near : |d.value - worth m q| < 10 ^ d.exponent / 4 := by
  have hclose := h.rounds.close h.mantissa_pos
  have hunit := h.unit_lt
  linarith

/-- On the grid of the decimal or on a coarser one, nothing but the decimal is rounded alike. -/
theorem digits_eq (hr : Rounds r.value m q) (hcoarser : d.exponent ≤ r.exponent) :
    d.digits = r.digits * 10 ^ (r.exponent - d.exponent).toNat := by
  have hten : (0 : ℚ) < 10 ^ d.exponent := by positivity
  have hvalue : r.value =
      (r.digits * 10 ^ (r.exponent - d.exponent).toNat : Nat) * 10 ^ d.exponent := by
    rw [Nat.cast_mul, Nat.cast_pow, ← zpow_natCast, Int.toNat_of_nonneg (by omega), mul_assoc,
      Nat.cast_ofNat, ← zpow_add₀ (by norm_num), sub_add_cancel]
    rfl
  have hunit := h.unit_lt
  have hclose := abs_lt.1 h.near
  have hclose' := abs_le.1 (hr.close h.mantissa_pos)
  refine eq_of_close hten ?_
  rw [← hvalue]
  change |d.value - r.value| < _
  exact abs_lt.2 ⟨by linarith, by linarith⟩

theorem onGrid?_eq : onGrid? m q d.exponent = some d := by
  have hten : (0 : ℚ) < 10 ^ d.exponent := by positivity
  have hclose : |d.value - worth m q| < 10 ^ d.exponent := h.near.trans (by linarith)
  obtain ⟨r, hr⟩ := Option.isSome_iff_exists.1 (onGrid?_isSome h.rounds rfl hclose)
  obtain ⟨hexponent, hrounds⟩ := onGrid?_eq_some hr
  have hdigits := h.digits_eq hrounds hexponent.ge
  rw [hr]
  obtain ⟨n, e⟩ := r
  obtain rfl : e = d.exponent := hexponent
  obtain rfl : d.digits = n := by simpa using hdigits
  rfl

theorem onGrid?_eq_none (hlast : d.digits % 10 ≠ 0) {p : Int} (hp : d.exponent < p) :
    onGrid? m q p = none := by
  rw [Option.eq_none_iff_forall_ne_some]
  intro r hr
  obtain ⟨rfl, hrounds⟩ := onGrid?_eq_some hr
  have hdigits := h.digits_eq hrounds hp.le
  obtain ⟨k, hk⟩ := Nat.exists_eq_succ_of_ne_zero (n := (r.exponent - d.exponent).toNat) (by omega)
  rw [hk, Nat.pow_succ, ← Nat.mul_assoc] at hdigits
  exact hlast (by rw [hdigits, Nat.mul_mod_left])

theorem le_worth (hpos : 0 < d.digits) (hrange : InRange d.value) :
    (10 : ℚ) ^ (-400 : Int) ≤ worth m q := by
  have hpower : (0 : ℚ) < 10 ^ d.exponent := by positivity
  have hnear := abs_lt.1 h.near
  have hvalue : 1 * 10 ^ d.exponent ≤ d.value := by
    refine mul_le_mul_of_nonneg_right ?_ hpower.le
    exact_mod_cast hpos
  have hsmall : (10 : ℚ) ^ (-400 : Int) * 2 ≤ 10 ^ (-300 : Int) := by
    have hfold : (10 : ℚ) ^ (-300 : Int) = 10 ^ (-400 : Int) * 10 ^ (100 : Int) := by
      rw [← zpow_add₀ (by norm_num)]
      rfl
    rw [hfold]
    exact mul_le_mul_of_nonneg_left (by norm_num) (by positivity)
  have htiny : (0 : ℚ) < 10 ^ (-400 : Int) := by positivity
  have hleast := hrange.least
  linarith

theorem pointPlace_le (hleast : (10 : ℚ) ^ (-400 : Int) ≤ worth m q) :
    pointPlace m q ≤ d.exponent + 16 := by
  have hten : (1 : ℚ) < 10 := by norm_num
  have hpower : (0 : ℚ) < 10 ^ d.exponent := by positivity
  have hclose := abs_lt.1 h.near
  have hvalue := h.value_lt
  have hlt : (10 : ℚ) ^ (pointPlace m q - 1) < 10 ^ (d.exponent + 16) := by
    rw [zpow_add₀ (by norm_num)]
    refine lt_of_le_of_lt (pointPlace_spec hleast).1 ?_
    norm_num at hvalue ⊢
    linarith
  rw [zpow_lt_zpow_iff_right₀ hten] at hlt
  omega

/-- A number less than the last place of the decimal is nearest to a one in that place. -/
theorem eq_one (hlast : d.digits % 10 ≠ 0) (hleast : (10 : ℚ) ^ (-400 : Int) ≤ worth m q)
    (hplace : pointPlace m q ≤ d.exponent) : d.digits = 1 ∧ pointPlace m q = d.exponent := by
  have hten : (1 : ℚ) < 10 := by norm_num
  have hpower : (0 : ℚ) < 10 ^ d.exponent := by positivity
  have hclose := abs_lt.1 h.near
  have hvalue : d.value = d.digits * 10 ^ d.exponent := rfl
  obtain ⟨-, hhigh⟩ := pointPlace_spec hleast
  have hone : d.digits = 1 := by
    have hless : worth m q < 10 ^ d.exponent := hhigh.trans_le (zpow_le_zpow_right₀ hten.le hplace)
    have hdigits : (d.digits : ℚ) < 2 := lt_of_mul_lt_mul_right (by linarith) hpower.le
    have hdigits : d.digits < 2 := by exact_mod_cast hdigits
    omega
  have hlt : (10 : ℚ) ^ (d.exponent - 1) < 10 ^ pointPlace m q := by
    refine lt_trans ?_ hhigh
    rw [hone, Nat.cast_one, one_mul] at hvalue
    rw [zpow_sub_one₀ (by norm_num)]
    linarith
  rw [zpow_lt_zpow_iff_right₀ hten] at hlt
  exact ⟨hone, by omega⟩

theorem tenth (hone : d.digits = 1) : IsShort ⟨10, d.exponent - 1⟩ m q where
  rounds := by
    have hvalue : Decimal.value ⟨10, d.exponent - 1⟩ = d.value := by
      rw [Decimal.value, Decimal.value, hone, zpow_sub_one₀ (by norm_num)]
      push_cast
      ring
    exact hvalue ▸ h.rounds
  mantissa := h.mantissa
  digits := by norm_num

end IsShort

theorem findSome?_range {α : Type} {f : Nat → Option α} {a : α} {i n : Nat} (hi : i < n)
    (hbefore : ∀ j < i, f j = none) (ha : f i = some a) : (List.range n).findSome? f = some a := by
  obtain ⟨k, rfl⟩ : ∃ k, n = i + (k + 1) := ⟨n - i - 1, by omega⟩
  have hfront : (List.range i).findSome? f = none := by
    rw [List.findSome?_eq_none_iff]
    exact fun j hj => hbefore j (List.mem_range.1 hj)
  rw [List.range_add, List.findSome?_append, hfront, List.range_succ_eq_map, List.map_cons,
    Nat.add_zero, List.findSome?_cons_of_isSome, ha]
  · rfl
  · rw [ha]
    rfl

/-- The first place where there is a decimal makes the shortest one. -/
theorem shortest_of_onGrid? {i : Nat} (hi : i < 17)
    (hbefore : ∀ j < i, onGrid? m q (pointPlace m q - (j + 1 : Nat)) = none)
    (hfound : onGrid? m q (pointPlace m q - (i + 1 : Nat)) = some d) : shortest m q = d := by
  rw [shortest, findSome?_range hi hbefore hfound]
  rfl

/-- A decimal of at most fifteen digits is the shortest of the number nearest to it. A one alone may
be found as a ten of the next place. -/
theorem IsShort.shortest_eq (h : IsShort d m q) (hlast : d.digits % 10 ≠ 0)
    (hleast : (10 : ℚ) ^ (-400 : Int) ≤ worth m q) :
    shortest m q = d ∨ d.digits = 1 ∧ shortest m q = ⟨10, d.exponent - 1⟩ := by
  by_cases hfront : d.exponent < pointPlace m q
  · left
    have hplace := h.pointPlace_le hleast
    have hindex :
        pointPlace m q - ((pointPlace m q - 1 - d.exponent).toNat + 1 : Nat) = d.exponent := by
      omega
    refine shortest_of_onGrid? (i := (pointPlace m q - 1 - d.exponent).toNat) (by omega) ?_ ?_
    · exact fun j hj => h.onGrid?_eq_none hlast (by omega)
    · rw [hindex]
      exact h.onGrid?_eq
  · right
    obtain ⟨hone, hplace⟩ := h.eq_one hlast hleast (not_lt.1 hfront)
    refine ⟨hone, shortest_of_onGrid? (i := 0) (by decide) ?_ ?_⟩
    · exact fun j hj => absurd hj (Nat.not_lt_zero j)
    · rw [hplace]
      exact (h.tenth hone).onGrid?_eq

/-! ### Its text -/

/-- The digits of a number behind zeros, so many that they fill the places. -/
def padded (n places : Nat) : List Char :=
  List.replicate (places - (Nat.toDigits 10 n).length) '0' ++ Nat.toDigits 10 n

/-- The text of a decimal with places behind the point. The zeros at the end are dropped. -/
theorem Decimal.text_eq {n k zeros : Nat} {places : List Char} (hk : 0 < k)
    (hpadded : padded (n % 10 ^ k) k = places ++ List.replicate zeros '0') (hne : places ≠ [])
    (hlast : Stops (· == '0') places.reverse) :
    (Decimal.mk n (-k)).text = toString (n / 10 ^ k) ++ "." ++ String.ofList places := by
  have hplaces : (-(-(k : Int))).toNat = k := by omega
  have hdropped : ((padded (n % 10 ^ k) k).reverse.dropWhile (· == '0')).reverse = places := by
    rw [hpadded, List.reverse_append, dropWhile_front (by simp) hlast, List.reverse_reverse]
  rw [padded] at hdropped
  rw [text, if_neg (by dsimp only; omega)]
  dsimp only
  rw [hplaces, hdropped]
  exact if_neg (by simpa using hne)

/-- One tenth of ten is written as one. -/
theorem text_tenth (e : Int) : (Decimal.mk 10 (e - 1)).text = (Decimal.mk 1 e).text := by
  rcases lt_trichotomy e 0 with he | rfl | he
  · obtain ⟨k, rfl⟩ : ∃ k : Nat, e = -(k + 1 : Nat) := ⟨(-e).toNat - 1, by omega⟩
    have hexponent : (-(k + 1 : Nat) - 1 : Int) = -(k + 2 : Nat) := by omega
    have hlast : Stops (· == '0') (List.replicate k '0' ++ ['1']).reverse := by
      rw [List.reverse_append]
      exact stops_cons rfl
    have hless_ten : 10 < 10 ^ (k + 2) :=
      Nat.lt_of_lt_of_le (by decide : 10 < 10 ^ 2)
        (Nat.pow_le_pow_right (by decide) (Nat.le_add_left 2 k))
    have hless_one : 1 < 10 ^ (k + 1) := Nat.one_lt_pow (Nat.succ_ne_zero k) (by decide)
    have hten : padded (10 % 10 ^ (k + 2)) (k + 2) =
        (List.replicate k '0' ++ ['1']) ++ List.replicate 1 '0' := by
      rw [Nat.mod_eq_of_lt hless_ten, padded, List.append_assoc]
      rfl
    have hone : padded (1 % 10 ^ (k + 1)) (k + 1) =
        (List.replicate k '0' ++ ['1']) ++ List.replicate 0 '0' := by
      rw [Nat.mod_eq_of_lt hless_one, padded, List.replicate_zero, List.append_nil]
      rfl
    have hne : List.replicate k '0' ++ ['1'] ≠ [] := by simp
    rw [hexponent, Decimal.text_eq (Nat.succ_pos _) hten hne hlast,
      Decimal.text_eq (Nat.succ_pos _) hone hne hlast, Nat.div_eq_of_lt hless_ten,
      Nat.div_eq_of_lt hless_one]
  · decide
  · obtain ⟨k, rfl⟩ : ∃ k : Nat, e = (k + 1 : Nat) := ⟨e.toNat - 1, by omega⟩
    have hexponent : ((k + 1 : Nat) - 1 : Int) = (k : Nat) := by omega
    rw [hexponent, Decimal.text, Decimal.text, if_pos (Int.natCast_nonneg k),
      if_pos (Int.natCast_nonneg (k + 1)), Int.toNat_natCast, Int.toNat_natCast, Nat.pow_succ',
      Nat.one_mul]

/-- A decimal of at most fifteen digits comes back from the number nearest to it. -/
theorem text_ofDecimal (negative : Bool) {n : Nat} {e : Int} (hn : n < 10 ^ 15) (hlast : n % 10 ≠ 0)
    (hrange : InRange (Decimal.value ⟨n, e⟩)) :
    (ofDecimal negative n e).text = (if negative then "-" else "") ++ (Decimal.mk n e).text := by
  have hpos : 0 < n := by omega
  have happroximates := approximates_ofDecimal negative hpos hrange
  generalize ofDecimal negative n e = x at happroximates ⊢
  obtain @⟨m, q, hm, hrounds⟩ := happroximates
  have hshort : IsShort ⟨n, e⟩ m q := ⟨hrounds, hm, hn⟩
  rw [text, if_neg hshort.mantissa_pos.ne']
  congr 1
  rcases hshort.shortest_eq hlast (hshort.le_worth hpos hrange) with hshortest | ⟨hone, hshortest⟩
  · rw [hshortest]
  · obtain rfl : n = 1 := hone
    rw [hshortest, text_tenth]

end NatRelay.Binary64
