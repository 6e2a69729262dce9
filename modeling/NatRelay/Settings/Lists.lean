import NatRelay.Assoc
import NatRelay.Net.EndpointText
import NatRelay.Service.Response
import NatRelay.Text.Pieces

/-! The two lists among the settings: listening interfaces and users. Items are separated by commas;
blanks around them and empty items do not count. -/
namespace NatRelay.Settings

/-- Read a transport address with blanks around it. -/
def endpoint? (cs : List Char) : Option Endpoint := Endpoint.ofText? (String.ofList (Text.trim cs))

/-- An interface is its listening address, an at sign and its external address, or one address for
both. Nobody can reach an unspecified external address. -/
def interface? (item : List Char) : Option Interface := do
  let (listening, external) := (Text.splitOnce '@' item).getD (item, item)
  let i : Interface := ⟨← endpoint? listening, ← endpoint? external⟩
  if i.external.ip.isUnspecified then none else some i

/-- The interfaces of a list that names at least one. -/
def readInterfaces? (s : String) : Option (List Interface) := do
  let is ← (Text.items s).mapM interface?
  if is.isEmpty then none else some is

/-- A user is a name, a colon and a password; the name is not empty. -/
def user? (item : List Char) : Option (String × String) := do
  let (name, password) ← Text.splitOnce ':' item
  if name.isEmpty then none else some (String.ofList name, String.ofList password)

/-- Add the users of a list one by one, the last password of a name counting; an item that is no
user is returned. -/
def addUsers (users : Assoc String String) : List (List Char) → Except String (Assoc String String)
  | [] => .ok users
  | item :: items =>
    match user? item with
    | some (name, password) => addUsers (users.put name password) items
    | none => .error (String.ofList item)

/-- The users of a list, or its first item that is none. -/
def readUsers (s : String) : Except String (Assoc String String) := addUsers [] (Text.items s)

end NatRelay.Settings
