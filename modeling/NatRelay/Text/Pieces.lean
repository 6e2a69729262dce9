/-! Cutting texts into pieces and the blanks off their ends. Blank is what has the property
White_Space of Unicode. -/
namespace NatRelay.Text

/-- Whether the character has the property White_Space. -/
def isBlank (c : Char) : Bool :=
  let n := c.toNat
  (0x09 ≤ n && n ≤ 0x0D) || n == 0x20 || n == 0x85 || n == 0xA0 || n == 0x1680 ||
    (0x2000 ≤ n && n ≤ 0x200A) || n == 0x2028 || n == 0x2029 || n == 0x202F || n == 0x205F ||
    n == 0x3000

theorem isBlank_of_isWhitespace {c : Char} (h : c.isWhitespace = true) : isBlank c = true := by
  simp only [Char.isWhitespace, Bool.or_eq_true, decide_eq_true_eq] at h
  rcases h with ((h | h) | h) | h <;> subst h <;> decide

/-- Drop the blanks at both ends. -/
def trim (cs : List Char) : List Char :=
  ((cs.dropWhile isBlank).reverse.dropWhile isBlank).reverse

/-- The pieces between the given separators; there is one more piece than separators. -/
def splitAt (sep : Char) : List Char → List (List Char)
  | [] => [[]]
  | c :: cs =>
    match splitAt sep cs with
    | piece :: pieces => if c = sep then [] :: piece :: pieces else (c :: piece) :: pieces
    | [] => [[c]]

/-- The pieces of a list separated by commas, trimmed, without the empty ones. -/
def items (s : String) : List (List Char) :=
  ((splitAt ',' s.toList).map trim).filter (!·.isEmpty)

/-- What is before and behind the first separator. -/
def splitOnce (sep : Char) (cs : List Char) : Option (List Char × List Char) :=
  match cs.dropWhile (· ≠ sep) with
  | _ :: rest => some (cs.takeWhile (· ≠ sep), rest)
  | [] => none

/-- What is behind the given front. -/
def behind? : List Char → List Char → Option (List Char)
  | [], cs => some cs
  | _ :: _, [] => none
  | f :: front, c :: cs => if f = c then behind? front cs else none

end NatRelay.Text
