/-! JSON values and their compact text: no blanks, and members in their order. -/
namespace NatRelay.JsonText

inductive Value where
  | null
  | bool (b : Bool)
  | integer (n : Int)
  /-- A number with a point or an exponent: a whole number times a power of ten. -/
  | decimal (negative : Bool) (digits : Nat) (exponent : Int)
  | text (s : String)
  | array (elements : List Value)
  | object (members : List (String × Value))

/-- A character inside quotes. Quote, backslash and the controls below the blank are escaped. -/
def escape (c : Char) : List Char :=
  if c = '"' then ['\\', '"']
  else if c = '\\' then ['\\', '\\']
  else if c = '\x08' then ['\\', 'b']
  else if c = '\x0c' then ['\\', 'f']
  else if c = '\n' then ['\\', 'n']
  else if c = '\r' then ['\\', 'r']
  else if c = '\t' then ['\\', 't']
  else if c.toNat < 0x20 then
    ['\\', 'u', '0', '0', Nat.digitChar (c.toNat / 16), Nat.digitChar (c.toNat % 16)]
  else [c]

/-- A text between quotes. -/
def quote (s : String) : List Char := '"' :: s.toList.flatMap escape ++ ['"']

mutual

/-- The text of a value. -/
def Value.chars : Value → List Char
  | .null => "null".toList
  | .bool b => (if b then "true" else "false").toList
  | .integer n => (toString n).toList
  | .decimal negative digits exponent =>
    (if negative then ['-'] else []) ++ (toString digits).toList ++
      'e' :: (toString exponent).toList
  | .text s => quote s
  | .array elements => '[' :: elementChars true elements ++ [']']
  | .object members => '\x7b' :: memberChars true members ++ ['\x7d']

/-- Elements, with a comma in front of all but the first. -/
def elementChars (first : Bool) : List Value → List Char
  | [] => []
  | v :: vs => (if first then [] else [',']) ++ v.chars ++ elementChars false vs

/-- Members, with a comma in front of all but the first. -/
def memberChars (first : Bool) : List (String × Value) → List Char
  | [] => []
  | (key, v) :: vs =>
    (if first then [] else [',']) ++ quote key ++ ':' :: v.chars ++ memberChars false vs

end

def Value.render (v : Value) : String := String.ofList v.chars

end NatRelay.JsonText
