import NatRelay.JsonText.Read
import NatRelay.Proofs.Numeral

/-! Quoted texts and numbers. Every text is read back from between its quotes (`string_quote`), and
every number that is not too great for 64 bits of floating point from its digits (`number_integer`,
`number_decimal`). -/
namespace NatRelay.JsonText
open Numeral

-- Powers are those of the core library in every scope.
attribute [local instance(5000)] instPowNat

variable {rest : List Char}

theorem ok_bind {α β : Type} (a : α) (f : α → Except Fault β) : Except.ok a >>= f = f a := rfl

/-! ### Texts -/

theorem hexDigit?_digitChar {d : Nat} (h : d < 16) : hexDigit? (Nat.digitChar d) = some d := by
  have hall : ∀ d < 16, hexDigit? (Nat.digitChar d) = some d := by decide
  exact hall d h

/-- A character in front of what is read behind it. -/
def andThen (c : Char) (read : Except Fault (List Char × List Char)) :
    Except Fault (List Char × List Char) :=
  read.map fun s => (c :: s.1, s.2)

theorem chars_mark {c d : Char} (hu : c ≠ 'u') (hd : unescape? c = some d) (cs : List Char) :
    chars .none ('\\' :: c :: cs) = andThen d (chars .none cs) := by
  have hquote : '\\' ≠ '"' := by decide
  rw [chars, if_neg hquote, if_pos rfl, chars, if_neg hu, hd]
  rfl

theorem chars_plain {c : Char} (hquote : c ≠ '"') (hmark : c ≠ '\\') (hcontrol : ¬ c.toNat < 0x20)
    (cs : List Char) : chars .none (c :: cs) = andThen c (chars .none cs) := by
  rw [chars, if_neg hquote, if_neg hmark, if_neg hcontrol]
  rfl

/-- Four hexadecimal digits of a control are no surrogate. -/
theorem chars_unit {c : Char} (hc : c.toNat < 0x20) (cs : List Char) :
    chars .none ('\\' :: 'u' :: '0' :: '0' :: Nat.digitChar (c.toNat / 16) ::
      Nat.digitChar (c.toNat % 16) :: cs) = andThen c (chars .none cs) := by
  have hquote : '\\' ≠ '"' := by decide
  have hsize : ∀ d < 16, (Nat.digitChar d).utf8Size = 1 := by decide
  have hhigh : c.toNat / 16 < 16 := by omega
  have hlow : c.toNat % 16 < 16 := Nat.mod_lt _ (by decide)
  have hlength : ¬ utf8Length (('0' :: '0' :: Nat.digitChar (c.toNat / 16) ::
      Nat.digitChar (c.toNat % 16) :: cs).take 4) < 4 := by
    simp only [utf8Length, List.take_succ_cons, List.take_zero, List.foldl_cons, List.foldl_nil,
      hsize _ hhigh, hsize _ hlow]
    decide
  have hzero : hexDigit? '0' = some 0 := rfl
  have hvalue : (((0 * 16 + 0) * 16 + 0) * 16 + c.toNat / 16) * 16 + c.toNat % 16 = c.toNat := by
    omega
  have hlowSurrogate : isLowSurrogate c.toNat = false := by
    simp only [isLowSurrogate, Bool.and_eq_false_iff, decide_eq_false_iff_not]
    omega
  have hhighSurrogate : isHighSurrogate c.toNat = false := by
    simp only [isHighSurrogate, Bool.and_eq_false_iff, decide_eq_false_iff_not]
    omega
  rw [chars, if_neg hquote, if_pos rfl, chars, if_pos rfl, if_neg hlength]
  simp only [chars, hzero, hexDigit?_digitChar hhigh, hexDigit?_digitChar hlow, gt_iff_lt,
    Nat.reduceLT, Nat.reduceSub, if_true, Nat.lt_irrefl, if_false, hvalue, hlowSurrogate,
    hhighSurrogate, Bool.false_eq_true, Char.ofNat_toNat]
  rfl

/-- Escaped or not, a character is read as itself. -/
theorem chars_escape (c : Char) (cs : List Char) :
    chars .none (escape c ++ cs) = andThen c (chars .none cs) := by
  fun_cases escape c with
  | case8 _ _ _ _ _ _ _ hcontrol => exact chars_unit hcontrol cs
  | case9 hquote hmark _ _ _ _ _ hcontrol => exact chars_plain hquote hmark hcontrol cs
  -- Seven characters have a letter of their own behind the mark.
  | _ =>
    rename_i heq
    subst heq
    exact chars_mark (by decide) rfl cs

theorem chars_flatMap_escape (s rest : List Char) :
    chars .none (s.flatMap escape ++ '"' :: rest) = .ok (s, rest) := by
  induction s with
  | nil => rfl
  | cons c s ih => rw [List.flatMap_cons, List.append_assoc, chars_escape, ih]; rfl

/-- What stands behind the opening quote. -/
theorem quote_append (s : String) (rest : List Char) :
    quote s ++ rest = '"' :: (s.toList.flatMap escape ++ '"' :: rest) := by
  simp [quote]

/-- A quoted text is read back. -/
theorem string_quote (s : String) (rest : List Char) :
    string (s.toList.flatMap escape ++ '"' :: rest) = .ok (s, rest) := by
  simp only [string, chars_flatMap_escape, ok_bind, String.ofList_toList]
  rfl

/-! ### Numbers -/

theorem digitsValue_toDigits (n : Nat) : digitsValue (Nat.toDigits 10 n) = n := by
  have hdigit : ∀ d < 10, (Nat.digitChar d).toNat - '0'.toNat = d := by decide
  rw [digitsValue, ← List.filterMap_eq_map']
  exact value_toDigits (by decide) (fun d hd => congrArg some (hdigit d hd)) n

theorem digits_toDigits (n : Nat) (hrest : Stops Char.isDigit rest) :
    digits (Nat.toDigits 10 n ++ rest) = .ok (Nat.toDigits 10 n, rest) := by
  have hdigits : ∀ c ∈ Nat.toDigits 10 n, c.isDigit :=
    fun c hc => Nat.isDigit_of_mem_toDigits (by decide) (by decide) hc
  have htake := takeWhile_front hdigits hrest
  have hdrop := dropWhile_front hdigits hrest
  obtain ⟨c, cs, hcs⟩ := List.exists_cons_of_ne_nil (Nat.toDigits_ne_nil (n := n) (b := 10))
  rw [hcs] at hdigits htake hdrop ⊢
  rw [List.cons_append] at htake hdrop ⊢
  rw [digits, if_pos (hdigits c List.mem_cons_self), htake, hdrop]

/-- What may stand behind a value. -/
def Ends (rest : List Char) : Prop := ∀ c ∈ rest.head?, c = ',' ∨ c = ']' ∨ c = '\x7d'

/-- No number goes on there. -/
theorem Ends.noPart (h : Ends rest) : Stops Char.isDigit rest ∧ fraction rest = .ok (none, rest) ∧
    exponent rest = .ok (none, rest) := by
  cases rest with
  | nil => exact ⟨stops_nil, rfl, rfl⟩
  | cons c rest =>
    rcases h c rfl with rfl | rfl | rfl
    · exact ⟨stops_cons rfl, rfl, rfl⟩
    · exact ⟨stops_cons rfl, rfl, rfl⟩
    · exact ⟨stops_cons rfl, rfl, rfl⟩

/-- The digits of a number have no leading zero. -/
theorem not_leadingZero (n : Nat) :
    ¬ ((Nat.toDigits 10 n).length > 1 ∧ (Nat.toDigits 10 n).head? = some '0') :=
  fun h => head?_toDigits (by decide) h.1 h.2

/-- A whole number is read from its digits. -/
theorem number_integer {negative : Bool} {n : Nat} (hsign : ¬ (negative ∧ n = 0))
    (hfits : tooGreat (Nat.toDigits 10 n) [] 0 = false) (hrest : Ends rest) :
    number negative (Nat.toDigits 10 n ++ rest) =
      .ok (.integer (if negative then -(n : Int) else n), rest) := by
  obtain ⟨hstops, hfraction, hexponent⟩ := hrest.noPart
  rw [number, digits_toDigits n hstops]
  simp only [ok_bind, not_leadingZero, if_false, hfraction, hexponent, Option.getD_none,
    List.append_nil, digitsValue_toDigits, List.length_nil]
  rw [if_neg (by simp [hfits]), if_neg (by simpa using hsign)]
  rfl

/-- A whole number as text. -/
theorem toList_toString_int (n : Int) : (toString n).toList =
    (if n < 0 then ['-'] else []) ++ Nat.toDigits 10 n.natAbs := by
  rw [Int.toString_eq_repr, Int.repr_eq_if]
  split
  · rename_i hn
    have habs : n.toNat = n.natAbs := by omega
    rw [if_neg (Int.not_lt.2 hn), Nat.toList_repr, habs]
    rfl
  · rename_i hn
    have habs : (-n).toNat = n.natAbs := by omega
    rw [if_pos (Int.not_le.1 hn), String.toList_append, Nat.toList_repr, habs]
    rfl

theorem sign_digits (n : Nat) (rest : List Char) :
    sign (Nat.toDigits 10 n ++ rest) = (false, Nat.toDigits 10 n ++ rest) := by
  obtain ⟨c, cs, hcs⟩ := List.exists_cons_of_ne_nil (Nat.toDigits_ne_nil (n := n) (b := 10))
  have hdigit : c.isDigit :=
    Nat.isDigit_of_mem_toDigits (b := 10) (n := n) (by decide) (by decide) (by simp [hcs])
  rw [hcs, List.cons_append, sign.eq_def]
  split
  · rename_i heq
    rw [(List.cons.inj heq).1] at hdigit
    cases hdigit
  · rename_i heq
    rw [(List.cons.inj heq).1] at hdigit
    cases hdigit
  · rfl

theorem exponent_toString (e : Int) (hrest : Stops Char.isDigit rest) :
    exponent ('e' :: ((toString e).toList ++ rest)) = .ok (some e, rest) := by
  have hread := digits_toDigits e.natAbs hrest
  rw [exponent, if_pos (.inl rfl), toList_toString_int]
  by_cases he : e < 0
  · have hsign : sign ((if e < 0 then ['-'] else []) ++ Nat.toDigits 10 e.natAbs ++ rest) =
        (true, Nat.toDigits 10 e.natAbs ++ rest) := by
      rw [if_pos he]
      rfl
    have hvalue : -(e.natAbs : Int) = e := by omega
    simp only [hsign, hread, ok_bind, digitsValue_toDigits, if_true, hvalue]
    rfl
  · have hsign : sign ((if e < 0 then ['-'] else []) ++ Nat.toDigits 10 e.natAbs ++ rest) =
        (false, Nat.toDigits 10 e.natAbs ++ rest) := by
      rw [if_neg he]
      exact sign_digits ..
    have hvalue : (e.natAbs : Int) = e := by omega
    simp only [hsign, hread, ok_bind, digitsValue_toDigits, Bool.false_eq_true, if_false, hvalue]
    rfl

/-- A number with an exponent is read from its digits. -/
theorem number_decimal (negative : Bool) {n : Nat} {e : Int}
    (hfits : tooGreat (Nat.toDigits 10 n) [] e = false) (hrest : Ends rest) :
    number negative (Nat.toDigits 10 n ++ 'e' :: ((toString e).toList ++ rest)) =
      .ok (.decimal negative n e, rest) := by
  have hfraction : fraction ('e' :: ((toString e).toList ++ rest)) =
      .ok (none, 'e' :: ((toString e).toList ++ rest)) := rfl
  rw [number, digits_toDigits n (stops_cons rfl)]
  simp only [ok_bind, not_leadingZero, if_false, hfraction, exponent_toString e hrest.noPart.1,
    Option.getD_none, Option.getD_some, List.append_nil, digitsValue_toDigits, List.length_nil]
  rw [if_neg (by simp [hfits])]
  simp
  rfl

/-! ### Range -/

theorem digitsValue_cons (c : Char) (cs : List Char) :
    digitsValue (c :: cs) = (c.toNat - '0'.toNat) * 10 ^ cs.length + digitsValue cs := by
  rw [digitsValue, List.map_cons, value_cons, List.length_map]
  rfl

/-- Digits are all taken in if the number that they make fits 64 bits. -/
theorem gather_of_lt {n : Nat} {ds : List Char}
    (h : n * 10 ^ ds.length + digitsValue ds < 0x10000000000000000) :
    gather n ds = (n * 10 ^ ds.length + digitsValue ds, ds.length) := by
  induction ds generalizing n with
  | nil => simp [gather, digitsValue]
  | cons c cs ih =>
    have hvalue : n * 10 ^ (c :: cs).length + digitsValue (c :: cs) =
        (n * 10 + (c.toNat - '0'.toNat)) * 10 ^ cs.length + digitsValue cs := by
      rw [digitsValue_cons, List.length_cons, Nat.pow_succ', Nat.add_mul, Nat.mul_assoc,
        Nat.add_assoc]
    have hpower : 0 < 10 ^ cs.length := Nat.pow_pos (by decide)
    have hgrown := Nat.le_mul_of_pos_right (n * 10 + (c.toNat - '0'.toNat)) hpower
    rw [hvalue] at h ⊢
    rw [gather, if_pos (by omega), ih h]
    rfl

theorem roundWhole_le (n : Nat) : Binary64.roundWhole n ≤ 2 * n := by
  rcases Nat.eq_zero_or_pos n with rfl | hn
  · decide
  have hunit : 2 ^ (n.log2 - 52) ≤ n :=
    Nat.le_trans (Nat.pow_le_pow_right (by decide) (Nat.sub_le ..))
      (Nat.log2_self_le (Nat.ne_of_gt hn))
  have hround (unit : Nat) : Binary64.roundHalfEven n unit ≤ n / unit + 1 := by
    rw [Binary64.roundHalfEven]
    split
    · omega
    split <;> omega
  calc Binary64.roundWhole n
      ≤ (n / 2 ^ (n.log2 - 52) + 1) * 2 ^ (n.log2 - 52) := Nat.mul_le_mul_right _ (hround _)
    _ = n / 2 ^ (n.log2 - 52) * 2 ^ (n.log2 - 52) + 2 ^ (n.log2 - 52) := Nat.succ_mul ..
    _ ≤ n + n := Nat.add_le_add (Nat.div_mul_le_self ..) hunit
    _ = 2 * n := (Nat.two_mul n).symm

/-- A whole number of 64 bits is in the range. -/
theorem overflows_zero {n : Nat} (h : n < 0x10000000000000000) :
    Binary64.overflows n 0 = false := by
  have hround := roundWhole_le n
  have hone : Binary64.roundWhole (10 ^ 0) = 1 := by decide
  have hfirst : 2 * 0x10000000000000000 < Binary64.firstInfinite := by decide +kernel
  have hproduct : ¬ Binary64.firstInfinite ≤ Binary64.roundWhole n * 1 := by
    rw [Nat.mul_one, Nat.not_le]
    exact Nat.lt_of_le_of_lt (by omega) hfirst
  have hzero : ¬ 0 > 308 := by decide
  rw [Binary64.overflows, hone, decide_eq_false hproduct, decide_eq_false hzero]
  exact Bool.and_false _

theorem tooGreat_toDigits {n : Nat} (h : n < 0x10000000000000000) :
    tooGreat (Nat.toDigits 10 n) [] 0 = false := by
  have hvalue : 0 * 10 ^ (Nat.toDigits 10 n).length + digitsValue (Nat.toDigits 10 n) = n := by
    rw [Nat.zero_mul, Nat.zero_add, digitsValue_toDigits]
  have hgather : gather 0 (Nat.toDigits 10 n) = _ := gather_of_lt (by rwa [hvalue])
  rw [hvalue] at hgather
  rw [tooGreat, hgather]
  simp [gather, overflows_zero h]

end NatRelay.JsonText
