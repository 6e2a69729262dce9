import NatRelay.Proofs.JsonText.Scalar

/-! Arrays and objects. A value that nests no deeper than the reader looks, with numbers in the
range of 64-bit floating point, is read back from its text (`value_chars`), and the members of an
object go through any step function in turn (`members_chars`). -/
namespace NatRelay.JsonText

variable {rest : List Char} {v : Value}

/-- Values that may stand where arrays and objects may be nested `depth` deep. -/
inductive Value.Fits : Nat → Value → Prop
  | null (depth : Nat) : Fits depth .null
  | bool (depth : Nat) (b : Bool) : Fits depth (.bool b)
  | integer (depth : Nat) {n : Int}
    (hrange : tooGreat (Nat.toDigits 10 n.natAbs) [] 0 = false) : Fits depth (.integer n)
  | decimal (depth : Nat) {negative : Bool} {digits : Nat} {exponent : Int}
    (hrange : tooGreat (Nat.toDigits 10 digits) [] exponent = false) :
    Fits depth (.decimal negative digits exponent)
  | text (depth : Nat) (s : String) : Fits depth (.text s)
  | array {depth : Nat} {elements : List Value} (hinside : ∀ v ∈ elements, Fits depth v) :
    Fits (depth + 1) (.array elements)
  | object {depth : Nat} {members : List (String × Value)}
    (hinside : ∀ m ∈ members, Fits depth m.2) : Fits (depth + 1) (.object members)

/-! ### What comes first -/

/-- Whether a character may come first in the text of a value. -/
def Leads (c : Char) : Prop := isSpace c = false ∧ c ≠ ',' ∧ c ≠ ']' ∧ c ≠ '\x7d'

theorem leads_of_isDigit {c : Char} (h : c.isDigit) : Leads c := by
  have hne (d : Char) (hd : d.isDigit = false) : c ≠ d := by
    rintro rfl
    rw [hd] at h
    cases h
  refine ⟨?_, hne _ rfl, hne _ rfl, hne _ rfl⟩
  simp [isSpace, hne ' ' rfl, hne '\n' rfl, hne '\t' rfl, hne '\r' rfl]

theorem exists_digit (n : Nat) : ∃ c cs, Nat.toDigits 10 n = c :: cs ∧ c.isDigit := by
  obtain ⟨c, cs, hcs⟩ := List.exists_cons_of_ne_nil (Nat.toDigits_ne_nil (n := n) (b := 10))
  exact ⟨c, cs, hcs, Nat.isDigit_of_mem_toDigits (b := 10) (n := n) (by decide) (by decide)
    (by simp [hcs])⟩

/-- A value begins with a character of its own. -/
theorem chars_leads (v : Value) : ∃ c cs, v.chars = c :: cs ∧ Leads c := by
  cases v with
  | null => exact ⟨'n', _, rfl, by unfold Leads; decide⟩
  | bool b => cases b <;> exact ⟨_, _, rfl, by unfold Leads; decide⟩
  | integer n =>
    obtain ⟨c, cs, hcs, hc⟩ := exists_digit n.natAbs
    rw [Value.chars, toList_toString_int, hcs]
    split
    · exact ⟨'-', _, rfl, by unfold Leads; decide⟩
    · exact ⟨c, cs, rfl, leads_of_isDigit hc⟩
  | decimal negative digits exponent =>
    obtain ⟨c, cs, hcs, hc⟩ := exists_digit digits
    rw [Value.chars, Nat.toString_eq_repr, Nat.toList_repr, hcs]
    split
    · exact ⟨'-', _, rfl, by unfold Leads; decide⟩
    · exact ⟨c, _, rfl, leads_of_isDigit hc⟩
  | text s => exact ⟨'"', _, rfl, by unfold Leads; decide⟩
  | array elements => exact ⟨'[', _, rfl, by unfold Leads; decide⟩
  | object members => exact ⟨'\x7b', _, rfl, by unfold Leads; decide⟩

theorem skip_of_leads {c : Char} (h : Leads c) (cs : List Char) : skip (c :: cs) = c :: cs :=
  List.dropWhile_cons_of_neg (by simp [h.1])

/-! ### Parts in turn -/

variable {σ : Type}

/-- A part that comes first, or behind a comma. -/
theorem next_leads {c : Char} (h : Leads c) (close : Char) (hclose : c ≠ close)
    (hcomma : close ≠ ',') (first : Bool) (cs : List Char) :
    next close first ((if first then [] else [',']) ++ c :: cs) = .ok (some (c :: cs), []) := by
  cases first with
  | true => simp [next, skip_of_leads h, hclose]
  | false =>
    have hskip : skip (',' :: c :: cs) = ',' :: c :: cs := rfl
    simp [next, hskip, skip_of_leads h, hclose, hcomma.symm]

theorem ends_elements (vs : List Value) (rest : List Char) :
    Ends (elementChars false vs ++ ']' :: rest) := by
  cases vs with
  | nil => exact fun c hc => .inr (.inl (Option.some.inj hc).symm)
  | cons v vs => exact fun c hc => .inl (Option.some.inj hc).symm

theorem ends_members (vs : List (String × Value)) (rest : List Char) :
    Ends (memberChars false vs ++ '\x7d' :: rest) := by
  cases vs with
  | nil => exact fun c hc => .inr (.inr (Option.some.inj hc).symm)
  | cons v vs => exact fun c hc => .inl (Option.some.inj hc).symm

/-- Elements go through a step function in turn. -/
theorem elements_chars {step : σ → Reader σ} {f : σ → Value → Except Fault σ} {vs : List Value}
    (hstep : ∀ v ∈ vs, ∀ s rest, Ends rest →
      step s (v.chars ++ rest) = (f s v).map fun s => (s, rest))
    (bound : Nat) (hbound : vs.length ≤ bound) (first : Bool) (s : σ) (rest : List Char) :
    elements step (bound + 1) first s (elementChars first vs ++ ']' :: rest) =
      (vs.foldlM f s).map fun s => (s, rest) := by
  induction vs generalizing bound first s with
  | nil => rfl
  | cons v vs ih =>
    obtain ⟨bound, rfl⟩ := Nat.exists_eq_add_of_le' hbound
    obtain ⟨c, cs, hcs, hc⟩ := chars_leads v
    have hnext := next_leads hc ']' hc.2.2.1 (by decide) first
      (cs ++ (elementChars false vs ++ ']' :: rest))
    have hread := hstep v List.mem_cons_self s _ (ends_elements vs rest)
    rw [hcs, List.cons_append] at hread
    rw [elementChars, hcs, List.append_assoc, List.append_assoc, List.cons_append, elements, hnext,
      ok_bind]
    dsimp only
    rw [hread, List.foldlM_cons]
    cases f s v with
    | error e => rfl
    | ok s =>
      exact ih (fun v hv => hstep v (List.mem_cons_of_mem _ hv)) _ (Nat.le_add_left ..) false s

theorem key_quote (k : String) (cs : List Char) : key (quote k ++ ':' :: cs) = .ok (k, cs) := by
  have hskip : skip (':' :: cs) = ':' :: cs := rfl
  rw [quote_append, key, string_quote, ok_bind]
  dsimp only
  rw [hskip]
  rfl

/-- Members go through a step function in turn. -/
theorem members_chars {step : σ → String → Reader σ} {f : σ → String × Value → Except Fault σ}
    {ms : List (String × Value)}
    (hstep : ∀ m ∈ ms, ∀ s rest, Ends rest →
      step s m.1 (m.2.chars ++ rest) = (f s m).map fun s => (s, rest))
    (bound : Nat) (hbound : ms.length ≤ bound) (first : Bool) (s : σ) (rest : List Char) :
    members step (bound + 1) first s (memberChars first ms ++ '\x7d' :: rest) =
      (ms.foldlM f s).map fun s => (s, rest) := by
  induction ms generalizing bound first s with
  | nil => rfl
  | cons m ms ih =>
    obtain ⟨k, v⟩ := m
    obtain ⟨bound, rfl⟩ := Nat.exists_eq_add_of_le' hbound
    have hkey := key_quote k (v.chars ++ (memberChars false ms ++ '\x7d' :: rest))
    rw [quote_append] at hkey
    have hnext := next_leads (c := '"') (by unfold Leads; decide) '\x7d' (by decide) (by decide)
      first (k.toList.flatMap escape ++
        '"' :: ':' :: (v.chars ++ (memberChars false ms ++ '\x7d' :: rest)))
    have hread := hstep (k, v) List.mem_cons_self s _ (ends_members ms rest)
    have htext : memberChars first ((k, v) :: ms) ++ '\x7d' :: rest =
        (if first then [] else [',']) ++ '"' :: (k.toList.flatMap escape ++
          '"' :: ':' :: (v.chars ++ (memberChars false ms ++ '\x7d' :: rest))) := by
      simp [memberChars, quote]
    rw [htext, members, hnext, ok_bind]
    dsimp only
    rw [hkey, ok_bind]
    dsimp only
    rw [hread, List.foldlM_cons]
    cases f s (k, v) with
    | error e => rfl
    | ok s =>
      exact ih (fun m hm => hstep m (List.mem_cons_of_mem _ hm)) _ (Nat.le_add_left ..) false s

/-- A step that takes every part as it is collects them. -/
theorem foldlM_collect {α : Type} (l s : List α) :
    l.foldlM (fun s a => (.ok (s ++ [a]) : Except Fault (List α))) s = .ok (s ++ l) := by
  induction l generalizing s with
  | nil => rw [List.append_nil]; rfl
  | cons a l ih => rw [List.foldlM_cons, ok_bind, ih, List.append_assoc]; rfl

/-- Only the parts that there are matter to a step. -/
theorem foldlM_congr {α : Type} {f g : σ → α → Except Fault σ} {l : List α}
    (h : ∀ a ∈ l, ∀ s, f s a = g s a) (s : σ) : l.foldlM f s = l.foldlM g s := by
  induction l generalizing s with
  | nil => rfl
  | cons a l ih =>
    rw [List.foldlM_cons, List.foldlM_cons, h a List.mem_cons_self]
    exact bind_congr fun s => ih (fun a ha => h a (List.mem_cons_of_mem _ ha)) s

theorem length_le_elementChars (first : Bool) (vs : List Value) :
    vs.length ≤ (elementChars first vs).length := by
  induction vs generalizing first with
  | nil => exact Nat.le_refl 0
  | cons v vs ih =>
    obtain ⟨c, cs, hcs, -⟩ := chars_leads v
    have hmore := ih false
    simp only [elementChars, hcs, List.length_append, List.length_cons]
    omega

theorem length_le_memberChars (first : Bool) (ms : List (String × Value)) :
    ms.length ≤ (memberChars first ms).length := by
  induction ms generalizing first with
  | nil => exact Nat.le_refl 0
  | cons m ms ih =>
    have hmore := ih false
    simp only [memberChars, quote, List.length_append, List.length_cons]
    omega

/-! ### Values -/

/-- A digit in front makes a number. -/
theorem value_digits (depth n : Nat) (rest : List Char) :
    value (depth + 1) (Nat.toDigits 10 n ++ rest) = number false (Nat.toDigits 10 n ++ rest) := by
  obtain ⟨c, cs, hcs, hc⟩ := exists_digit n
  have hne (d : Char) (hd : d.isDigit = false) : c ≠ d := by
    rintro rfl
    rw [hd] at hc
    cases hc
  rw [hcs, List.cons_append, value, skip_of_leads (leads_of_isDigit hc)]
  simp only [hne 'n' rfl, hne 't' rfl, hne 'f' rfl, hne '"' rfl, hne '[' rfl, hne '\x7b' rfl,
    hne '-' rfl, false_and, if_false, hc, if_true]

/-- A minus in front makes a negative number. -/
theorem value_minus (depth : Nat) (cs : List Char) :
    value (depth + 1) ('-' :: cs) = number true cs := rfl

theorem value_quote {depth : Nat} (s : String) (rest : List Char) :
    value (depth + 1) (quote s ++ rest) = .ok (.text s, rest) := by
  have hvalue (cs : List Char) : value (depth + 1) ('"' :: cs) =
      (string cs >>= fun s => .ok (.text s.1, s.2)) := rfl
  rw [quote_append, hvalue, string_quote]
  rfl

/-- One more element. -/
def takeElement (depth : Nat) (vs : List Value) : Reader (List Value) := fun cs => do
  let (v, rest) ← value depth cs
  pure (vs ++ [v], rest)

/-- One more member. -/
def takeMember (depth : Nat) (ms : List (String × Value)) (k : String) :
    Reader (List (String × Value)) := fun cs => do
  let (v, rest) ← value depth cs
  pure (ms ++ [(k, v)], rest)

theorem value_array {depth : Nat} (cs : List Char) :
    value (depth + 2) ('[' :: cs) =
      (elements (takeElement (depth + 1)) (cs.length + 1) true [] cs).map
        fun s => (.array s.1, s.2) := by
  have hskip : skip ('[' :: cs) = '[' :: cs := rfl
  rw [value, hskip]
  simp only [Char.reduceEq, if_false, true_and, Nat.succ_pos, if_true, gt_iff_lt]
  rfl

theorem value_object {depth : Nat} (cs : List Char) :
    value (depth + 2) ('\x7b' :: cs) =
      (members (takeMember (depth + 1)) (cs.length + 1) true [] cs).map
        fun s => (.object s.1, s.2) := by
  have hskip : skip ('\x7b' :: cs) = '\x7b' :: cs := rfl
  rw [value, hskip]
  simp only [Char.reduceEq, if_false, false_and, true_and, Nat.succ_pos, if_true, gt_iff_lt]
  rfl

/-- An array is read by taking its elements in turn. -/
theorem value_arrayChars {depth : Nat} {f : List Value → Value → Except Fault (List Value)}
    {vs : List Value} (hstep : ∀ v ∈ vs, ∀ s rest, Ends rest →
      takeElement (depth + 1) s (v.chars ++ rest) = (f s v).map fun s => (s, rest))
    (rest : List Char) : value (depth + 2) ((Value.array vs).chars ++ rest) =
      (vs.foldlM f []).map fun vs => (.array vs, rest) := by
  have hlength := length_le_elementChars true vs
  have hread := elements_chars hstep (elementChars true vs ++ ']' :: rest).length
    (by rw [List.length_append]; omega) true [] rest
  have htext : (Value.array vs).chars ++ rest = '[' :: (elementChars true vs ++ ']' :: rest) := by
    simp [Value.chars]
  rw [htext, value_array, hread]
  cases vs.foldlM f [] <;> rfl

/-- An object is read by taking its members in turn. -/
theorem value_objectChars {depth : Nat}
    {f : List (String × Value) → String × Value → Except Fault (List (String × Value))}
    {ms : List (String × Value)} (hstep : ∀ m ∈ ms, ∀ s rest, Ends rest →
      takeMember (depth + 1) s m.1 (m.2.chars ++ rest) = (f s m).map fun s => (s, rest))
    (rest : List Char) : value (depth + 2) ((Value.object ms).chars ++ rest) =
      (ms.foldlM f []).map fun ms => (.object ms, rest) := by
  have hlength := length_le_memberChars true ms
  have hread := members_chars hstep (memberChars true ms ++ '\x7d' :: rest).length
    (by rw [List.length_append]; omega) true [] rest
  have htext : (Value.object ms).chars ++ rest =
      '\x7b' :: (memberChars true ms ++ '\x7d' :: rest) := by
    simp [Value.chars]
  rw [htext, value_object, hread]
  cases ms.foldlM f [] <;> rfl

/-- A value that fits is read back from its text. -/
theorem value_chars {depth : Nat} (h : v.Fits depth) (hrest : Ends rest) :
    value (depth + 1) (v.chars ++ rest) = .ok (v, rest) := by
  induction h generalizing rest with
  | null => rfl
  | bool depth b => cases b <;> rfl
  | @integer depth n hrange =>
    rw [Value.chars, toList_toString_int]
    by_cases hn : n < 0
    · have hzero : ¬ (true ∧ n.natAbs = 0) := by simp; omega
      have hvalue : -(n.natAbs : Int) = n := by omega
      rw [if_pos hn, List.singleton_append, List.cons_append, value_minus,
        number_integer hzero hrange hrest, if_pos rfl, hvalue]
    · have hvalue : (n.natAbs : Int) = n := by omega
      rw [if_neg hn, List.nil_append, value_digits, number_integer (by simp) hrange hrest,
        if_neg Bool.false_ne_true, hvalue]
  | @decimal depth negative digits exponent hrange =>
    have hread := number_decimal negative hrange hrest
    cases negative with
    | true =>
      rw [← hread, ← value_minus depth]
      simp [Value.chars]
    | false =>
      rw [← hread, ← value_digits depth]
      simp [Value.chars]
  | text depth s => exact value_quote s rest
  | @array depth vs hinside ih =>
    have hstep : ∀ v ∈ vs, ∀ s rest, Ends rest → takeElement (depth + 1) s (v.chars ++ rest) =
        (.ok (s ++ [v]) : Except Fault _).map fun s => (s, rest) := by
      intro v hv s rest hrest
      rw [takeElement, ih v hv hrest]
      rfl
    rw [value_arrayChars hstep, foldlM_collect]
    rfl
  | @object depth ms hinside ih =>
    have hstep : ∀ m ∈ ms, ∀ s rest, Ends rest →
        takeMember (depth + 1) s m.1 (m.2.chars ++ rest) =
          (.ok (s ++ [m]) : Except Fault _).map fun s => (s, rest) := by
      intro m hm s rest hrest
      rw [takeMember, ih m hm hrest]
      rfl
    rw [value_objectChars hstep, foldlM_collect]
    rfl

end NatRelay.JsonText
