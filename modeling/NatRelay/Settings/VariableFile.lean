import NatRelay.Assoc
import NatRelay.Text.Alphanumeric
import NatRelay.Text.Pieces

/-! Files that set variables, one assignment a line. A value may stand between quotes and then go
over several lines, a blank and a hash sign start a comment, and a dollar sign stands for the value
of another variable. A variable that is set already stays as it is, and nothing behind the first
faulty line counts. -/
namespace NatRelay.Settings.VariableFile

/-- Variables and their values. -/
abbrev Env := List (String × String)

/-- What a statement is in the middle of. -/
inductive Quote where
  | none
  /-- Behind a blank. -/
  | blank
  /-- Behind a backslash. -/
  | escape
  /-- Between single quotes. -/
  | strong
  | strongEscape
  /-- Between double quotes. -/
  | weak
  | weakEscape
  deriving DecidableEq

/-- Where a character leads to. -/
def Quote.after (q : Quote) (c : Char) : Quote :=
  let opening : Quote :=
    if c = '\\' then .escape else if c = '"' then .weak else if c = '\'' then .strong else .none
  match q with
  | .none => if Text.isBlank c ∧ c ≠ '\n' ∧ c ≠ '\r' then .blank else opening
  | .blank => opening
  | .escape => .none
  | .strong => if c = '\\' then .strongEscape else if c = '\'' then .none else .strong
  | .strongEscape => .strong
  | .weak => if c = '\\' then .weakEscape else if c = '"' then .none else .weak
  | .weakEscape => .weak

/-- What a line leads to; or what is in front of the comment in it. -/
def scan (q : Quote) : List Char → Except (List Char) Quote
  | [] => .ok q
  | c :: cs =>
    if q = .blank ∧ c = '#' then .error []
    else (scan (q.after c) cs).mapError (c :: ·)

/-- The lines of a text, each with the mark that ends it. -/
def lines : List Char → List (List Char)
  | [] => []
  | c :: cs =>
    if c = '\n' then ['\n'] :: lines cs
    else
      match lines cs with
      | l :: ls => (c :: l) :: ls
      | [] => [[c]]

/-- Without the mark at the end. -/
def withoutMark (l : List Char) : List Char :=
  match l.reverse with
  | '\n' :: '\r' :: rest => rest.reverse
  | '\n' :: rest => rest.reverse
  | _ => l

/-- The statements of the lines, the first of which goes on from `front`. The last one is missing
if the text ends inside it. -/
def statements (front : List Char) (q : Quote) : List (List Char) → List (Option (List Char))
  | [] => if q = .none then [] else [none]
  | l :: ls =>
    let all := front ++ l
    if (all.dropWhile Text.isBlank).head? = some '#' then some [] :: statements [] .none ls
    else
      match scan q l with
      | .error kept => some (front ++ kept) :: statements [] .none ls
      | .ok .none => some (withoutMark all) :: statements [] .none ls
      | .ok q => statements all q ls

/-- A dollar sign that is being read. -/
inductive Reference where
  | none
  /-- The name of a variable so far. -/
  | bare (name : List Char)
  /-- A name between braces so far. -/
  | braced (name : List Char)

/-- A value that is being read. -/
structure Draft where
  value : List Char := []
  strong : Bool := false
  weak : Bool := false
  escaped : Bool := false
  reference : Reference := .none
  /-- Behind a blank, where only a comment may follow. -/
  ended : Bool := false

namespace Draft

def add (d : Draft) (cs : List Char) : Draft := { d with value := d.value ++ cs }

/-- Put in the value of a variable; one that is not set is empty. -/
def refer (env : Env) (d : Draft) (name : List Char) : Draft :=
  { d.add ((env.lookup (String.ofList name)).getD "").toList with reference := .none }

/-- A character outside of everything special. -/
def plain (d : Draft) (c : Char) : Draft :=
  if d.weak then
    if c = '"' then { d with weak := false }
    else if c = '\\' then { d with escaped := true }
    else d.add [c]
  else if c = '\'' then { d with strong := true }
  else if c = '"' then { d with weak := true }
  else if c = '\\' then { d with escaped := true }
  else if c = ' ' ∨ c = '\t' then { d with ended := true }
  else d.add [c]

/-- One more character. -/
def step (env : Env) (d : Draft) (c : Char) : Option Draft :=
  if d.escaped then
    if c ∈ ['\\', '\'', '"', '$', ' '] then some { d.add [c] with escaped := false }
    else if c = 'n' then some { d.add ['\n'] with escaped := false }
    else none
  else if d.strong then some (if c = '\'' then { d with strong := false } else d.add [c])
  else
    match d.reference with
    | .bare name =>
      if Text.isAlphanumeric c then some { d with reference := .bare (name ++ [c]) }
      else if c = '\x7b' ∧ name.isEmpty then some { d with reference := .braced [] }
      else
        let d := d.refer env name
        some (if c = '$' then { d with reference := .bare [] } else d.add [c])
    | .braced name =>
      if c = '\x7d' ∧ !Text.isAlphanumeric c then some (d.refer env name)
      else some { d with reference := .braced (name ++ [c]) }
    | .none => some (if c = '$' then { d with reference := .bare [] } else d.plain c)

/-- Read a value to its end. -/
def read (env : Env) (d : Draft) : List Char → Option String
  | [] =>
    match d.reference, d.strong || d.weak with
    | .braced _, _ | _, true => none
    | .bare name, _ => some (String.ofList (d.refer env name).value)
    | .none, _ => some (String.ofList d.value)
  | c :: cs =>
    if d.ended then
      if c = ' ' ∨ c = '\t' then read env d cs
      else if c = '#' then read env d []
      else none
    else
      match d.step env c with
      | some d => read env d cs
      | none => none

end Draft

/-- The name of a variable in front. -/
def name? (cs : List Char) : Option (String × List Char) :=
  let inside (c : Char) : Bool := c.isAlphanum || c == '_' || c == '.'
  match cs with
  | c :: _ =>
    if c.isAlpha ∨ c = '_' then some (String.ofList (cs.takeWhile inside), cs.dropWhile inside)
    else none
  | [] => none

/-- What follows an equals sign behind blanks. -/
def equals? (cs : List Char) : Option (List Char) :=
  match cs.dropWhile Text.isBlank with
  | '=' :: rest => some (rest.dropWhile Text.isBlank)
  | _ => none

/-- The variable that a statement sets, if any; a faulty statement is `none`. The word `export` may
stand in front. -/
def assignment? (env : Env) (statement : List Char) : Option (Option (String × String)) :=
  match Text.trim statement with
  | [] | '#' :: _ => some none
  | cs => do
    let (name, rest) ← name? cs
    let (name, rest) ←
      match name, equals? rest with
      | name, some rest => some (name, rest)
      | "export", none => do
        let (name, rest) ← name? (rest.dropWhile Text.isBlank)
        some (name, ← equals? rest)
      | _, none => none
    let value ← if rest.head? = some '#' then some "" else Draft.read env {} rest
    pure (some (name, value))

/-- Carry out statements up to the first faulty one. -/
def run (env : Env) : List (Option (List Char)) → Env
  | [] => env
  | statement :: rest =>
    match statement.bind (assignment? env) with
    | none => env
    | some none => run env rest
    | some (some (name, value)) =>
      run (if (env.lookup name).isSome then env else env ++ [(name, value)]) rest

/-- The variables together with those of a file. -/
def load (env : Env) (text : String) : Env :=
  let cs := match text.toList with
    | c :: cs => if c = '\ufeff' then cs else c :: cs
    | [] => []
  run env (statements [] .none (lines cs))

end NatRelay.Settings.VariableFile
