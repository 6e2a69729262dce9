import NatRelay.JsonText.Basic
import NatRelay.Numeral
import NatRelay.Number.Binary64

/-! Reading JSON. A reader takes a value from the front of a text and leaves the rest. Arrays and
objects are walked by a step function that sees one element or member at a time, so that a caller
may judge a member before it looks at the next one. -/
namespace NatRelay.JsonText

/-- Why a text is refused. -/
inductive Fault where
  /-- The text is no JSON. -/
  | malformed
  /-- The text is JSON of another kind than asked for. -/
  | mismatch
  /-- The text ends early. -/
  | truncated
  deriving DecidableEq

/-- What is read, and the rest of the text. -/
abbrev Reader (α : Type) := List Char → Except Fault (α × List Char)

/-- Blanks between the parts of a value. -/
def isSpace (c : Char) : Bool := c == ' ' || c == '\n' || c == '\t' || c == '\r'

def skip (cs : List Char) : List Char := cs.dropWhile isSpace

/-- Exactly the given characters. -/
def word : List Char → Reader Unit
  | [], cs => .ok ((), cs)
  | _ :: _, [] => .error .truncated
  | w :: ws, c :: cs => if c = w then word ws cs else .error .malformed

/-- A value that is written as one word. -/
def literal (letters : String) (v : Value) : Reader Value := fun cs => do
  let (_, rest) ← word letters.toList cs
  pure (v, rest)

/-- At least one decimal digit. -/
def digits : Reader (List Char) := fun cs =>
  match cs with
  | [] => .error .truncated
  | c :: _ =>
    if c.isDigit then .ok (cs.takeWhile Char.isDigit, cs.dropWhile Char.isDigit)
    else .error .malformed

/-- The number that digits denote. -/
def digitsValue (ds : List Char) : Nat := Numeral.value 10 (ds.map fun c => c.toNat - '0'.toNat)

/-- The digits behind a point, if there is one. -/
def fraction : Reader (Option (List Char))
  | '.' :: cs => do
    let (ds, rest) ← digits cs
    pure (some ds, rest)
  | cs => .ok (none, cs)

/-- A sign, absent for a positive number. -/
def sign : List Char → Bool × List Char
  | '-' :: cs => (true, cs)
  | '+' :: cs => (false, cs)
  | cs => (false, cs)

/-- The exponent behind its letter, if there is one. -/
def exponent (cs : List Char) : Except Fault (Option Int × List Char) :=
  match cs with
  | c :: rest =>
    if c = 'e' ∨ c = 'E' then do
      let (negative, rest) := sign rest
      let (ds, rest) ← digits rest
      let n : Int := digitsValue ds
      pure (some (if negative then -n else n), rest)
    else .ok (none, cs)
  | [] => .ok (none, cs)

/-- Digits behind a number for as long as it fits 64 bits: the number that they make, and how many
they are. -/
def gather (n : Nat) : List Char → Nat × Nat
  | [] => (n, 0)
  | c :: cs =>
    let grown := n * 10 + (c.toNat - '0'.toNat)
    if grown < 0x10000000000000000 then
      let (m, count) := gather grown cs
      (m, count + 1)
    else (n, 0)

/-- Whether a number is too great for 64 bits of floating point. Of its digits only those count
that 64 bits take in; the power of ten makes up for the others in front of the point. -/
def tooGreat (whole places : List Char) (exponent : Int) : Bool :=
  let (n, count) := gather 0 whole
  let (n, placeCount) := gather n places
  Binary64.overflows n (exponent + (whole.length - count : Nat) - placeCount).toNat

/-- A number without its minus sign. No zero leads the digits of another number. -/
def number (negative : Bool) : Reader Value := fun cs => do
  let (whole, cs) ← digits cs
  if whole.length > 1 ∧ whole.head? = some '0' then .error .malformed
  let (fraction?, cs) ← fraction cs
  let (exponent?, cs) ← exponent cs
  let places := fraction?.getD []
  let n := digitsValue (whole ++ places)
  let e : Int := exponent?.getD 0 - places.length
  if tooGreat whole places (exponent?.getD 0) then .error .malformed
  else if fraction?.isSome ∨ exponent?.isSome ∨ (negative ∧ n = 0) then
    pure (.decimal negative n e, cs)
  else pure (.integer (if negative then -(n : Int) else n), cs)

/-- Value of a hexadecimal digit. -/
def hexDigit? (c : Char) : Option Nat :=
  if '0' ≤ c ∧ c ≤ '9' then some (c.toNat - '0'.toNat)
  else if 'a' ≤ c ∧ c ≤ 'f' then some (c.toNat - 'a'.toNat + 10)
  else if 'A' ≤ c ∧ c ≤ 'F' then some (c.toNat - 'A'.toNat + 10)
  else none

/-- The character of a one-letter escape. -/
def unescape? : Char → Option Char
  | '"' => some '"'
  | '\\' => some '\\'
  | '/' => some '/'
  | 'b' => some '\x08'
  | 'f' => some '\x0c'
  | 'n' => some '\n'
  | 'r' => some '\r'
  | 't' => some '\t'
  | _ => none

/-- What a text is in the middle of. -/
inductive Escape where
  | none
  /-- Behind a backslash. -/
  | mark
  /-- Inside the digits of a UTF-16 unit; a high surrogate may stand in front. -/
  | unit (high? : Option Nat) (owed value : Nat)
  /-- Behind a high surrogate. -/
  | pair (high : Nat)
  /-- Behind a high surrogate and a backslash. -/
  | pairMark (high : Nat)

def isHighSurrogate (n : Nat) : Bool := 0xD800 ≤ n && n ≤ 0xDBFF

def isLowSurrogate (n : Nat) : Bool := 0xDC00 ≤ n && n ≤ 0xDFFF

/-- The character of a surrogate pair. -/
def joinSurrogates (high low : Nat) : Char :=
  Char.ofNat ((high - 0xD800) * 0x400 + (low - 0xDC00) + 0x10000)

/-- Bytes of the characters in UTF-8. -/
def utf8Length (cs : List Char) : Nat := cs.foldl (fun n c => n + c.utf8Size) 0

/-- A text behind its opening quote. -/
def chars : Escape → Reader (List Char)
  | _, [] => .error .truncated
  | .none, c :: cs =>
    if c = '"' then .ok ([], cs)
    else if c = '\\' then chars .mark cs
    else if c.toNat < 0x20 then .error .malformed
    else do
      let (s, rest) ← chars .none cs
      pure (c :: s, rest)
  | .mark, c :: cs =>
    if c = 'u' then
      if utf8Length (cs.take 4) < 4 then .error .truncated else chars (.unit .none 4 0) cs
    else
      match unescape? c with
      | some d => do
        let (s, rest) ← chars .none cs
        pure (d :: s, rest)
      | none => .error .malformed
  | .unit high? owed value, c :: cs =>
    match hexDigit? c with
    | none => .error .malformed
    | some d =>
      let value := value * 16 + d
      if owed > 1 then chars (.unit high? (owed - 1) value) cs
      else
        match high? with
        | some high =>
          if isLowSurrogate value then do
            let (s, rest) ← chars .none cs
            pure (joinSurrogates high value :: s, rest)
          else .error .malformed
        | none =>
          if isLowSurrogate value then .error .malformed
          else if isHighSurrogate value then chars (.pair value) cs
          else do
            let (s, rest) ← chars .none cs
            pure (Char.ofNat value :: s, rest)
  | .pair high, c :: cs => if c = '\\' then chars (.pairMark high) cs else .error .malformed
  | .pairMark high, c :: cs =>
    if c ≠ 'u' then .error .malformed
    else if utf8Length (cs.take 4) < 4 then .error .truncated
    else chars (.unit (some high) 4 0) cs

/-- A text behind its opening quote. -/
def string : Reader String := fun cs => do
  let (s, rest) ← chars .none cs
  pure (String.ofList s, rest)

variable {σ : Type}

/-- The place of the next part of an array or object, behind the comma that all but the first
need; `none` at the closing mark. -/
def next (close : Char) (first : Bool) (cs : List Char) :
    Except Fault (Option (List Char) × List Char) :=
  match skip cs with
  | [] => .error .truncated
  | c :: rest =>
    if c = close then .ok (none, rest)
    else if first then .ok (some (c :: rest), [])
    else if c ≠ ',' then .error .malformed
    else
      match skip rest with
      | [] => .error .truncated
      | d :: rest => if d = close then .error .malformed else .ok (some (d :: rest), [])

/-- The elements of an array behind its bracket, each read by `step`. The first argument bounds
their number. -/
def elements (step : σ → Reader σ) : Nat → Bool → σ → Reader σ
  | 0, _, _, _ => .error .truncated
  | bound + 1, first, s, cs => do
    match ← next ']' first cs with
    | (none, rest) => pure (s, rest)
    | (some cs, _) =>
      let (s, rest) ← step s cs
      elements step bound false s rest

/-- The key of a member and the colon. -/
def key : Reader String
  | '"' :: cs => do
    let (k, rest) ← string cs
    match skip rest with
    | [] => .error .truncated
    | c :: rest => if c = ':' then pure (k, rest) else .error .malformed
  | _ => .error .malformed

/-- The members of an object behind its brace, the value of each read by `step`, which is given the
key. The first argument bounds their number. -/
def members (step : σ → String → Reader σ) : Nat → Bool → σ → Reader σ
  | 0, _, _, _ => .error .truncated
  | bound + 1, first, s, cs => do
    match ← next '\x7d' first cs with
    | (none, rest) => pure (s, rest)
    | (some cs, _) =>
      let (k, cs) ← key cs
      let (s, rest) ← step s k cs
      members step bound false s rest

/-- A value in which fewer arrays and objects than `depth` stand inside each other. -/
def value : Nat → Reader Value
  | 0, _ => .error .malformed
  | depth + 1, cs =>
    match skip cs with
    | [] => .error .truncated
    | c :: cs =>
      if c = 'n' then literal "ull" .null cs
      else if c = 't' then literal "rue" (.bool true) cs
      else if c = 'f' then literal "alse" (.bool false) cs
      else if c = '"' then do
        let (s, rest) ← string cs
        pure (.text s, rest)
      else if c = '[' ∧ depth > 0 then do
        let (vs, rest) ← elements
          (fun vs cs => do
            let (v, rest) ← value depth cs
            pure (vs ++ [v], rest)) (cs.length + 1) true [] cs
        pure (.array vs, rest)
      else if c = '\x7b' ∧ depth > 0 then do
        let (vs, rest) ← members
          (fun vs k cs => do
            let (v, rest) ← value depth cs
            pure (vs ++ [(k, v)], rest)) (cs.length + 1) true [] cs
        pure (.object vs, rest)
      else if c = '-' then number true cs
      else if c.isDigit then number false (c :: cs)
      else .error .malformed

/-- Nothing but blanks may follow. -/
def finish {α : Type} : α × List Char → Except Fault α
  | (a, rest) => if skip rest = [] then .ok a else .error .malformed

end NatRelay.JsonText
