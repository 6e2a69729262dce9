import NatRelay.Numeral

/-! Numerals as text: the shortest digits of a number, in front of whatever is no digit, are taken
whole and denote the number again. -/
namespace NatRelay.Numeral

section Front
variable {α : Type} {p : α → Bool} {front rest : List α}

/-- Whether nothing, or something that fails the test, comes first. -/
def Stops (p : α → Bool) (rest : List α) : Prop := ∀ x ∈ rest.head?, p x = false

theorem stops_nil : Stops p ([] : List α) := by simp [Stops]

theorem stops_cons {x : α} (h : p x = false) : Stops p (x :: rest) := by simpa [Stops] using h

theorem takeWhile_of_stops (h : Stops p rest) : rest.takeWhile p = [] := by
  cases rest with
  | nil => rfl
  | cons x rest => exact List.takeWhile_cons_of_neg (by simpa [Stops] using h)

theorem takeWhile_front (hfront : ∀ x ∈ front, p x) (hrest : Stops p rest) :
    (front ++ rest).takeWhile p = front := by
  rw [List.takeWhile_append_of_pos hfront, takeWhile_of_stops hrest, List.append_nil]

theorem dropWhile_front (hfront : ∀ x ∈ front, p x) (hrest : Stops p rest) :
    (front ++ rest).dropWhile p = rest := by
  rw [List.dropWhile_append_of_pos hfront]
  cases rest with
  | nil => rfl
  | cons x rest => exact List.dropWhile_cons_of_neg (by simpa [Stops] using hrest)

end Front

section Digits
variable {base n : Nat}

theorem mem_toDigits (hbase : 1 < base) {c : Char} (h : c ∈ Nat.toDigits base n) :
    ∃ d < base, c = Nat.digitChar d := by
  induction n using Nat.strongRecOn with
  | ind n ih =>
    by_cases hn : n < base
    · rw [Nat.toDigits_of_lt_base hn, List.mem_singleton] at h
      exact ⟨n, hn, h⟩
    · rw [Nat.toDigits_of_base_le hbase (Nat.not_lt.1 hn), List.mem_append,
        List.mem_singleton] at h
      rcases h with h | h
      · exact ih (n / base) (Nat.div_lt_self (by omega) hbase) h
      · exact ⟨n % base, Nat.mod_lt n (by omega), h⟩

/-- The digits of a number denote it, for whoever knows the digits. -/
theorem value_toDigits (hbase : 1 < base) {digit? : Char → Option Nat}
    (hdigit : ∀ d < base, digit? (Nat.digitChar d) = some d) (n : Nat) :
    value base ((Nat.toDigits base n).filterMap digit?) = n := by
  induction n using Nat.strongRecOn with
  | ind n ih =>
    by_cases hn : n < base
    · rw [Nat.toDigits_of_lt_base hn]
      simp [hdigit n hn, value]
    · have hdigit := hdigit (n % base) (Nat.mod_lt n (by omega))
      have hfront := ih (n / base) (Nat.div_lt_self (by omega) hbase)
      rw [Nat.toDigits_of_base_le hbase (Nat.not_lt.1 hn), List.filterMap_append,
        List.filterMap_cons_some hdigit, List.filterMap_nil, value_concat, hfront]
      exact Nat.div_add_mod' n base

/-- Of two or more digits the first is not zero. -/
theorem head?_toDigits (hbase : 1 < base) (hlong : 1 < (Nat.toDigits base n).length) :
    (Nat.toDigits base n).head? ≠ some '0' := by
  have hle : base ≤ n := by
    refine Nat.not_lt.1 fun hn => ?_
    rw [Nat.toDigits_of_lt_base hn] at hlong
    exact Nat.lt_irrefl 1 hlong
  clear hlong
  induction n using Nat.strongRecOn with
  | ind n ih =>
    have hpos : 0 < n / base := Nat.div_pos hle (by omega)
    have hhead : (Nat.toDigits base n).head? = (Nat.toDigits base (n / base)).head? := by
      rw [Nat.toDigits_of_base_le hbase hle, List.head?_append,
        List.head?_eq_some_head Nat.toDigits_ne_nil]
      rfl
    rw [hhead]
    by_cases hn : n / base < base
    · rw [Nat.toDigits_of_lt_base hn]
      simp only [List.head?_cons, ne_eq, Option.some.injEq, Nat.digitChar_eq_zero]
      omega
    · exact ih (n / base) (Nat.div_lt_self (by omega) hbase) (Nat.not_lt.1 hn)

end Digits
end NatRelay.Numeral
