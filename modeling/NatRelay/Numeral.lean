/-! Positional numerals of fixed width, most significant digit first. `digits` and `value` are
inverse to each other on the numbers that fit the width. -/
namespace NatRelay.Numeral

-- Powers are those of the core library in every scope.
attribute [local instance(5000)] instPowNat

/-- The `width` low-order digits of `n`. -/
def digits (base : Nat) : Nat → Nat → List Nat
  | 0, _ => []
  | width + 1, n => digits base width (n / base) ++ [n % base]

/-- The number that a list of digits denotes. -/
def value (base : Nat) (ds : List Nat) : Nat :=
  ds.foldl (fun n d => n * base + d) 0

@[simp] theorem length_digits (base width n : Nat) : (digits base width n).length = width := by
  induction width generalizing n with
  | zero => rfl
  | succ w ih => simp [digits, ih]

@[simp] theorem value_nil (base : Nat) : value base [] = 0 := rfl

@[simp] theorem value_concat (base : Nat) (ds : List Nat) (d : Nat) :
    value base (ds ++ [d]) = value base ds * base + d := by simp [value]

theorem foldl_eq (base : Nat) (ds : List Nat) (a : Nat) :
    ds.foldl (fun n d => n * base + d) a = a * base ^ ds.length + value base ds := by
  induction ds generalizing a with
  | nil => simp [value]
  | cons d ds ih =>
    simp only [value, List.foldl_cons, List.length_cons, Nat.pow_succ]
    rw [ih (a * base + d), ih (0 * base + d), Nat.zero_mul, Nat.zero_add, Nat.add_mul,
      Nat.mul_assoc, Nat.mul_comm base]
    omega

@[simp] theorem value_cons (base d : Nat) (ds : List Nat) :
    value base (d :: ds) = d * base ^ ds.length + value base ds := by
  rw [value, List.foldl_cons, Nat.zero_mul, Nat.zero_add, foldl_eq]

theorem lt_of_mem_digits {base width n d : Nat} (hb : 0 < base) (h : d ∈ digits base width n) :
    d < base := by
  induction width generalizing n with
  | zero => simp [digits] at h
  | succ w ih =>
    rcases List.mem_append.1 h with h | h
    · exact ih h
    · rw [List.mem_singleton.1 h]; exact Nat.mod_lt _ hb

theorem value_digits {base width n : Nat} (h : n < base ^ width) :
    value base (digits base width n) = n := by
  induction width generalizing n with
  | zero => simp at h; simp [digits, h]
  | succ w ih =>
    rw [digits, value_concat, ih (Nat.div_lt_of_lt_mul (by rwa [Nat.pow_succ, Nat.mul_comm] at h))]
    exact Nat.div_add_mod' n base

theorem value_lt {base : Nat} (ds : List Nat) (h : ∀ d ∈ ds, d < base) :
    value base ds < base ^ ds.length := by
  induction ds with
  | nil => simp
  | cons d ds ih =>
    have hd := h d (by simp)
    have hs := ih fun x hx => h x (by simp [hx])
    rw [value_cons, List.length_cons, Nat.pow_succ, Nat.mul_comm _ base]
    calc d * base ^ ds.length + value base ds
        < d * base ^ ds.length + base ^ ds.length := by omega
      _ = (d + 1) * base ^ ds.length := by rw [Nat.add_mul, Nat.one_mul]
      _ ≤ base * base ^ ds.length := Nat.mul_le_mul_right _ hd

theorem digits_value {base : Nat} (ds : List Nat) (h : ∀ d ∈ ds, d < base) :
    digits base ds.length (value base ds) = ds := by
  generalize hn : ds.length = n
  induction n generalizing ds with
  | zero => simp [List.eq_nil_of_length_eq_zero hn, digits]
  | succ n ih =>
    obtain ⟨es, e, rfl⟩ : ∃ es e, ds = es ++ [e] :=
      ⟨ds.dropLast, ds.getLast (by rintro rfl; simp at hn), (List.dropLast_concat_getLast _).symm⟩
    have he : e < base := h e (by simp)
    have hb : 0 < base := by omega
    rw [value_concat, digits, Nat.mul_comm, Nat.mul_add_div hb, Nat.mul_add_mod,
      Nat.div_eq_of_lt he, Nat.mod_eq_of_lt he, Nat.add_zero,
      ih es (fun d hd => h d (by simp [hd])) (by simpa using hn)]

end NatRelay.Numeral
