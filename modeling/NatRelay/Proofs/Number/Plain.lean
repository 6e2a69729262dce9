import NatRelay.Proofs.Number.Reading
import NatRelay.Proofs.Number.Shortest

/-! Plain decimals: digits with a point among them, as few as can be, and with or without a minus.
Main statement: `text_of_plainText`, that those of at most fifteen digits are read into a number
that is written out as they are. -/
namespace NatRelay.Binary64
open JsonText (digitsValue digitsValue_cons digitsValue_toDigits)
open Numeral (Stops)

-- Powers are those of the core library in every scope.
attribute [local instance(5000)] instPowNat

variable {cs whole places : List Char}

/-! ### Digits -/

theorem digitChar_of_isDigit {c : Char} (h : c.isDigit) :
    c.toNat - '0'.toNat < 10 ∧ Nat.digitChar (c.toNat - '0'.toNat) = c := by
  have hrange : 48 ≤ c.toNat ∧ c.toNat ≤ 57 := by
    simpa [Char.isDigit, UInt32.le_iff_toNat_le] using h
  have hall : ∀ n < 58, 48 ≤ n →
      n - '0'.toNat < 10 ∧ Nat.digitChar (n - '0'.toNat) = Char.ofNat n := by decide
  have hc := hall c.toNat (by omega) hrange.1
  rwa [Char.ofNat_toNat] at hc

theorem digitsValue_append (cs ds : List Char) :
    digitsValue (cs ++ ds) = digitsValue cs * 10 ^ ds.length + digitsValue ds := by
  rw [digitsValue, List.map_append, Numeral.value, List.foldl_append, Numeral.foldl_eq,
    List.length_map]
  rfl

theorem digitsValue_concat (cs : List Char) (c : Char) :
    digitsValue (cs ++ [c]) = 10 * digitsValue cs + (c.toNat - '0'.toNat) := by
  rw [digitsValue_append, Nat.mul_comm]
  simp [digitsValue, Numeral.value]

theorem digitsValue_lt (h : IsDigits cs) : digitsValue cs < 10 ^ cs.length := by
  have hdigits : ∀ d ∈ cs.map fun c => c.toNat - '0'.toNat, d < 10 := by
    intro d hd
    obtain ⟨c, hc, rfl⟩ := List.mem_map.1 hd
    exact (digitChar_of_isDigit (h c hc)).1
  have hlt := Numeral.value_lt _ hdigits
  rwa [List.length_map] at hlt

/-- Digits without a zero in front are those of their number. -/
theorem toDigits_digitsValue (h : IsDigits cs) (hne : cs ≠ [])
    (hfront : cs.head? = some '0' → cs = ['0']) : Nat.toDigits 10 (digitsValue cs) = cs := by
  induction cs using List.reverseRecOn with
  | nil => exact absurd rfl hne
  | append_singleton cs c ih =>
    obtain ⟨hcs, hc⟩ := List.forall_mem_append.1 h
    obtain ⟨hlt, hchar⟩ := digitChar_of_isDigit (hc c (List.mem_singleton_self c))
    rw [digitsValue_concat]
    by_cases hempty : cs = []
    · subst hempty
      rw [digitsValue, List.map_nil, Numeral.value_nil, Nat.mul_zero, Nat.zero_add,
        Nat.toDigits_of_lt_base hlt, hchar, List.nil_append]
    · have hhead : cs.head? ≠ some '0' := by
        intro hzero
        have hone := congrArg List.length (hfront (by rw [List.head?_append, hzero]; rfl))
        exact hempty (by simpa using hone)
      have ih := ih hcs hempty fun hzero => absurd hzero hhead
      have hpos : 0 < digitsValue cs := by
        refine Nat.pos_of_ne_zero fun hzero => hhead ?_
        rw [← ih, hzero]
        rfl
      rw [← Nat.toDigits_append_toDigits (by decide) hpos hlt, ih, Nat.toDigits_of_lt_base hlt,
        hchar]

/-- Digits are those of their number, with zeros in front. -/
theorem padded_digitsValue (h : IsDigits cs) (hne : cs ≠ []) :
    padded (digitsValue cs) cs.length = cs := by
  induction cs with
  | nil => exact absurd rfl hne
  | cons c cs ih =>
    by_cases hzero : c = '0'
    · subst hzero
      have hvalue : digitsValue ('0' :: cs) = digitsValue cs := by
        rw [digitsValue_cons, Nat.sub_self, Nat.zero_mul, Nat.zero_add]
      rw [hvalue]
      by_cases hempty : cs = []
      · subst hempty
        rfl
      · have hcs : IsDigits cs := fun d hd => h d (List.mem_cons_of_mem _ hd)
        have hfits : (Nat.toDigits 10 (digitsValue cs)).length ≤ cs.length :=
          (Nat.length_toDigits_le_iff (by decide) (List.length_pos_of_ne_nil hempty)).2
            (digitsValue_lt hcs)
        have ih := ih hcs hempty
        rw [padded] at ih ⊢
        rw [List.length_cons, Nat.succ_sub hfits, List.replicate_succ, List.cons_append, ih]
    · have hdigits := toDigits_digitsValue h (List.cons_ne_nil c cs) fun hhead =>
        absurd (Option.some.inj hhead) hzero
      rw [padded, hdigits, Nat.sub_self]
      rfl

/-! ### Plain decimals -/

/-- Digits on both sides of a point, with no zero in front but a single one and none at the end,
fifteen at most; with a minus or without. -/
inductive PlainText : List Char → Prop where
  | mk {sign whole places : List Char} (hsign : sign = [] ∨ sign = ['-']) (hwhole : IsDigits whole)
    (hne : whole ≠ []) (hfront : whole.head? = some '0' → whole = ['0']) (hplaces : IsDigits places)
    (hne' : places ≠ []) (hlast : Stops (· == '0') places.reverse)
    (hlength : (whole ++ places).length ≤ 15) : PlainText (sign ++ (whole ++ '.' :: places))

theorem digitsValue_mod (h : IsDigits cs) (hne : cs ≠ []) (hlast : Stops (· == '0') cs.reverse) :
    digitsValue cs % 10 ≠ 0 := by
  obtain rfl | ⟨front, c, rfl⟩ := cs.eq_nil_or_concat'
  · exact absurd rfl hne
  obtain ⟨hlt, hchar⟩ := digitChar_of_isDigit (h c (by simp))
  have hc : c ≠ '0' := by simpa [Stops] using hlast
  rw [digitsValue_concat, Nat.mul_add_mod, Nat.mod_eq_of_lt hlt]
  intro hzero
  rw [hzero] at hchar
  exact hc hchar.symm

theorem ofText?_of_not_word {sign rest : List Char} (hsign : IsSign sign)
    (hrest : Stops isSign rest) (hword : String.ofList (rest.map Char.toLower) ∉ words) :
    ofText? (sign ++ rest) = ofUnsigned? (decide (sign = ['-'])) rest := by
  rw [ofText?_eq, splitSign_append hsign hrest]
  dsimp only
  generalize String.ofList (rest.map Char.toLower) = word at hword ⊢
  rw [words, List.mem_cons, List.mem_cons, List.mem_singleton, ← or_assoc, not_or] at hword
  rw [if_neg hword.1, if_neg hword.2]

theorem ofText?_plain {sign : List Char} (hsign : IsSign sign) (hwhole : IsDigits whole)
    (hne : whole ≠ []) (hplaces : IsDigits places) :
    ofText? (sign ++ (whole ++ '.' :: places)) =
      some (ofDecimal (decide (sign = ['-'])) (digitsValue (whole ++ places))
        (-places.length)) := by
  have hfraction : IsFraction ('.' :: places) places := .point places hplaces
  have hdigits : whole ++ places ≠ [] := by simp [hne]
  have hstops : Stops isSign (whole ++ '.' :: places) := by
    simpa using @stops_of_decimal whole _ places [] hwhole hfraction hdigits
  have hword : String.ofList ((whole ++ '.' :: places).map Char.toLower) ∉ words := by
    intro hmem
    have hpoint : '.' ∈ (String.ofList ((whole ++ '.' :: places).map Char.toLower)).toList := by
      rw [String.toList_ofList]
      exact List.mem_map.2 ⟨'.', by simp, rfl⟩
    have hwords : ∀ s ∈ words, '.' ∉ s.toList := by decide
    exact hwords _ hmem hpoint
  have hnumber : natOfDigits? (whole ++ places) = some (digitsValue (whole ++ places)) := by
    rw [natOfDigits?, if_neg (readable_iff.2 ⟨hdigits, List.forall_mem_append.2 ⟨hwhole, hplaces⟩⟩)]
    rfl
  have hread := ofUnsigned?_append (decide (sign = ['-'])) hwhole hfraction .none
  rw [List.append_nil, hnumber] at hread
  rw [ofText?_of_not_word hsign hstops hword, hread, ← Int.zero_sub]
  rfl

/-- Fifteen digits and places or less are neither too small nor too great. -/
theorem inRange_value {n k : Nat} (hn : 0 < n) (hlt : n < 10 ^ 15) (hk : k ≤ 15) :
    InRange (Decimal.value ⟨n, -k⟩) := by
  have hten : (1 : ℚ) ≤ 10 := by norm_num
  have hone : (1 : ℚ) ≤ n := Nat.one_le_cast.2 hn
  have hdigits : (n : ℚ) < 10 ^ (15 : Int) := by exact_mod_cast hlt
  have hleast : (10 : ℚ) ^ (-300 : Int) ≤ 10 ^ (-k : Int) := zpow_le_zpow_right₀ hten (by omega)
  have hgreatest : (10 : ℚ) ^ (-k : Int) ≤ 10 ^ (0 : Int) := zpow_le_zpow_right₀ hten (by omega)
  have hpower : (0 : ℚ) < 10 ^ (-k : Int) := by positivity
  rw [Decimal.value]
  dsimp only
  constructor
  · exact hleast.trans (le_mul_of_one_le_left hpower.le hone)
  · calc (n : ℚ) * 10 ^ (-k : Int) ≤ n * 10 ^ (0 : Int) := by gcongr
      _ = n := by rw [zpow_zero, mul_one]
      _ < 10 ^ (15 : Int) := hdigits
      _ ≤ 10 ^ (300 : Int) := zpow_le_zpow_right₀ hten (by decide)

theorem Decimal.text_digits (hwhole : IsDigits whole) (hne : whole ≠ [])
    (hfront : whole.head? = some '0' → whole = ['0']) (hplaces : IsDigits places)
    (hne' : places ≠ []) (hlast : Stops (· == '0') places.reverse) :
    (Decimal.mk (digitsValue (whole ++ places)) (-places.length)).text =
      String.ofList whole ++ "." ++ String.ofList places := by
  have hfits := digitsValue_lt hplaces
  have hpadded : padded (digitsValue (whole ++ places) % 10 ^ places.length) places.length =
      places ++ List.replicate 0 '0' := by
    rw [digitsValue_append, Nat.mul_add_mod_self_right, Nat.mod_eq_of_lt hfits,
      padded_digitsValue hplaces hne', List.replicate_zero, List.append_nil]
  have hquotient : digitsValue (whole ++ places) / 10 ^ places.length = digitsValue whole := by
    rw [digitsValue_append, Nat.mul_comm, Nat.mul_add_div (Nat.pow_pos (by decide)),
      Nat.div_eq_of_lt hfits, Nat.add_zero]
  have hfirst : toString (digitsValue whole) = String.ofList whole := by
    change String.ofList (Nat.toDigits 10 (digitsValue whole)) = _
    rw [toDigits_digitsValue hwhole hne hfront]
  rw [Decimal.text_eq (List.length_pos_of_ne_nil hne') hpadded hne' hlast, hquotient, hfirst]

/-- A plain decimal is read into a number that is written out in the same way. -/
theorem text_of_plainText (h : PlainText cs) :
    ∃ x, ofText? cs = some x ∧ x.text = String.ofList cs := by
  obtain ⟨hsign, hwhole, hne, hfront, hplaces, hne', hlast, hlength⟩ := h
  rename_i sign whole places
  have hsigned : IsSign sign := by
    rcases hsign with rfl | rfl
    · exact .none
    · exact .minus
  refine ⟨_, ofText?_plain hsigned hwhole hne hplaces, ?_⟩
  have hdigits : IsDigits (whole ++ places) := List.forall_mem_append.2 ⟨hwhole, hplaces⟩
  have hmod : digitsValue (whole ++ places) % 10 ≠ 0 := by
    refine digitsValue_mod hdigits (by simp [hne]) ?_
    rw [List.reverse_append, Stops, List.head?_append_of_ne_nil _ (by simpa using hne')]
    exact hlast
  have hlt : digitsValue (whole ++ places) < 10 ^ 15 :=
    Nat.lt_of_lt_of_le (digitsValue_lt hdigits) (Nat.pow_le_pow_right (by decide) hlength)
  rw [List.length_append] at hlength
  have hrange := inRange_value (k := places.length) (by omega) hlt (by omega)
  rw [text_ofDecimal (decide (sign = ['-'])) hlt hmod hrange,
    Decimal.text_digits hwhole hne hfront hplaces hne' hlast, ← String.toList_inj]
  rcases hsign with rfl | rfl <;> simp

end NatRelay.Binary64
