import NatRelay.Digest.Md5
import NatRelay.Stun.Integrity
import NatRelay.Text.Quoted

/-! Credentials of clients: the keys that are made of them, of a digest of all texts or of the
password alone, and how they are shown to people. `describe_eq` says that the password does not
show. -/
namespace NatRelay.Stun

/-- Username, realm and password of one client. -/
structure Credential where
  username : String
  realm : String
  password : String
  deriving DecidableEq

namespace Credential

/-- The MD5 digest of the three texts separated by colons. -/
def longTermKey (c : Credential) : Bytes :=
  Md5.hash (Bytes.ofText (c.username ++ ":" ++ c.realm ++ ":" ++ c.password))

/-- The key for a mechanism. -/
def key (c : Credential) : Mechanism → Key
  | .sha1 => ⟨.sha1, c.longTermKey⟩
  | .sha256 => ⟨.sha256, Bytes.ofText c.password⟩

@[simp] theorem mechanism_key (c : Credential) (m : Mechanism) : (c.key m).mechanism = m := by
  cases m <;> rfl

/-- Username and realm between quotes. -/
def describe (c : Credential) : String :=
  "Credential \x7b username: " ++ Text.quoted c.username ++ ", realm: " ++ Text.quoted c.realm ++
    ", .. \x7d"

theorem describe_eq (c : Credential) (password : String) :
    describe { c with password } = describe c := rfl

end Credential

end NatRelay.Stun
