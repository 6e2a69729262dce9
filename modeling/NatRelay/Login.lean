import NatRelay.Assoc
import NatRelay.Allocation.Basic
import NatRelay.Event.Basic

/-! Looking up the password of a user, with a bound on the time that the host may take. -/
namespace NatRelay

/-- What comes of asking for a password. -/
inductive PasswordReply where
  /-- The password is at hand; nothing where there is no such user. -/
  | known (password? : Option String)
  /-- The host answers after some time. -/
  | later (delay : Duration) (password? : Option String)
  /-- The host drops the question. -/
  | dropped
  /-- The host never answers. -/
  | silence
  deriving DecidableEq

/-- Where passwords come from, and how long to wait for them. -/
structure Login where
  ask : Endpoint → String → PasswordReply
  timeout : Duration := seconds 5

namespace Login

/-- A fixed list of users, for whom nobody waits. -/
def ofUsers (users : Assoc String String) (timeout : Duration) : Login :=
  { ask := fun _ username => .known (users.lookup username), timeout }

/-- A password, if one came in time, and how long the answer took. -/
structure Answer where
  password? : Option String
  elapsed : Duration := 0
  deriving DecidableEq

/-- What a reply is worth. -/
def settle (login : Login) : PasswordReply → Answer
  | .known password? => { password? }
  | .later delay password? =>
    if delay < login.timeout then { password?, elapsed := delay }
    else { password? := none, elapsed := login.timeout }
  | .dropped => { password? := none }
  | .silence => { password? := none, elapsed := login.timeout }

/-- The event that goes before every lookup. -/
def announcement (addr : Endpoint) (username : String) : Event := .passwordRequested addr username

def find (login : Login) (addr : Endpoint) (username : String) : Answer :=
  login.settle (login.ask addr username)

end Login
end NatRelay
