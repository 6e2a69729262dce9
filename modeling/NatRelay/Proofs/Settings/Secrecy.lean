import Mathlib.Data.Option.Basic
import NatRelay.Proofs.Settings.Users
import NatRelay.Proofs.Settings.Value
import NatRelay.Proofs.Settings.Variables

/-! Passwords and what is shown of settings. Main statement: `load_conceals`, that passwords have no
part in it, but for those of an item without a name, which is shown as the fault that it is
(`load_betrays`). -/
namespace NatRelay.Settings
open Text (isBlank trim)

/-! ### What may differ -/

/-- Two pieces of a list that differ at most behind the first colon. -/
inductive SamePiece : List Char → List Char → Prop where
  | same (piece : List Char) : SamePiece piece piece
  | hidden {name : List Char} (password password' : List Char) (hname : ':' ∉ name) :
    SamePiece (name ++ ':' :: password) (name ++ ':' :: password')

/-- Two lists that differ at most between the first colon of a piece and the comma behind it. -/
def SameList (s s' : String) : Prop :=
  List.Forall₂ SamePiece (s.toList.splitOn ',') (s'.toList.splitOn ',')

/-- Two sets of variables that differ at most in the passwords of users. -/
def SameButPasswords (vars vars' : List (String × String)) : Prop :=
  List.Forall₂ (fun v v' => v.1 = v'.1 ∧
    (v.2 = v'.2 ∨ lower v.1 = "turn_users" ∧ SameList v.2 v'.2)) vars vars'

theorem SameList.refl (s : String) : SameList s s :=
  List.forall₂_same.2 fun piece _ => .same piece

/-! ### Lists of users -/

theorem SamePiece.trim {piece piece' : List Char} (h : SamePiece piece piece') :
    SamePiece (trim piece) (trim piece') := by
  cases h with
  | same => exact .same _
  | hidden password password' hname =>
    have hcolon : isBlank ':' = false := rfl
    rw [Text.trim_append_cons hcolon, Text.trim_append_cons hcolon]
    exact .hidden _ _ fun hmem => hname ((List.dropWhile_sublist _).subset hmem)

theorem SamePiece.isEmpty {piece piece' : List Char} (h : SamePiece piece piece') :
    piece.isEmpty = piece'.isEmpty := by
  cases h with
  | same => rfl
  | @hidden name => cases name <;> rfl

theorem SameList.items {s s' : String} (h : SameList s s') :
    List.Forall₂ SamePiece (Text.items s) (Text.items s') := by
  rw [Text.items, Text.items, Text.splitAt_eq_splitOn, Text.splitAt_eq_splitOn]
  rw [SameList] at h
  generalize s.toList.splitOn ',' = pieces, s'.toList.splitOn ',' = pieces' at h
  induction h with
  | nil => exact .nil
  | @cons piece piece' _ _ hpiece _ ih =>
    have hempty := hpiece.trim.isEmpty
    rw [List.map_cons, List.map_cons]
    by_cases hkept : (Text.trim piece).isEmpty
    · rw [List.filter_cons_of_neg (by simpa using hkept),
        List.filter_cons_of_neg (by simpa [← hempty] using hkept)]
      exact ih
    · rw [List.filter_cons_of_pos (by simpa using hkept),
        List.filter_cons_of_pos (by simpa [← hempty] using hkept)]
      exact .cons hpiece.trim ih

theorem user?_hidden {name : List Char} (hname : ':' ∉ name) (password : List Char) :
    user? (name ++ ':' :: password) =
      if name.isEmpty then none else some (String.ofList name, String.ofList password) := by
  rw [user?, Text.splitOnce_front hname]
  rfl

/-- What comes of two lists that differ in passwords: the same names, the same fault, or two items
that have a password but no name. -/
inductive SameReading :
    Except String (Assoc String String) → Except String (Assoc String String) → Prop where
  | ok {users users' : Assoc String String} (hkeys : users.keys = users'.keys) :
    SameReading (.ok users) (.ok users')
  | error (item : String) : SameReading (.error item) (.error item)
  | nameless (password password' : List Char) :
    SameReading (.error (String.ofList (':' :: password)))
      (.error (String.ofList (':' :: password')))

theorem keys_put_congr {users users' : Assoc String String} (h : users.keys = users'.keys)
    (name password password' : String) :
    (users.put name password).keys = (users'.put name password').keys := by
  have hremove (m : Assoc String String) :
      (m.remove name).keys = m.keys.filter fun k => k ≠ name := by
    rw [Assoc.keys, Assoc.keys, Assoc.remove, List.filter_map]
    rfl
  change name :: (users.remove name).keys = name :: (users'.remove name).keys
  rw [hremove, hremove, h]

theorem addUsers_same {items items' : List (List Char)} (h : List.Forall₂ SamePiece items items')
    {users users' : Assoc String String} (hkeys : users.keys = users'.keys) :
    SameReading (addUsers users items) (addUsers users' items') := by
  induction h generalizing users users' with
  | nil => exact .ok hkeys
  | @cons item item' _ _ hitem _ ih =>
    rw [addUsers, addUsers]
    cases hitem with
    | same =>
      cases user? item with
      | none => exact .error _
      | some u => exact ih (keys_put_congr hkeys u.1 u.2 u.2)
    | @hidden name password password' hname =>
      rw [user?_hidden hname, user?_hidden hname]
      by_cases hempty : name.isEmpty
      · obtain rfl := List.isEmpty_iff.1 hempty
        exact .nameless password password'
      · rw [if_neg hempty, if_neg hempty]
        exact ih (keys_put_congr hkeys _ _ _)

theorem readUsers_same {s s' : String} (h : SameList s s') :
    SameReading (readUsers s) (readUsers s') := addUsers_same h.items rfl

/-! ### Variables -/

theorem eq_or_colon {pieces pieces' : List (List Char)}
    (h : List.Forall₂ SamePiece pieces pieces') :
    pieces = pieces' ∨ (∃ piece ∈ pieces, ':' ∈ piece) ∧ ∃ piece ∈ pieces', ':' ∈ piece := by
  induction h with
  | nil => exact .inl rfl
  | cons hpiece _ ih =>
    cases hpiece with
    | hidden => exact .inr ⟨⟨_, List.mem_cons_self, by simp⟩, _, List.mem_cons_self, by simp⟩
    | same =>
      rcases ih with rfl | ⟨⟨piece, hpiece, hc⟩, piece', hpiece', hc'⟩
      · exact .inl rfl
      · exact .inr ⟨⟨piece, List.mem_cons_of_mem _ hpiece, hc⟩,
          piece', List.mem_cons_of_mem _ hpiece', hc'⟩

/-- Texts that differ have a colon. -/
theorem SameList.eq_or_colon {s s' : String} (h : SameList s s') :
    s = s' ∨ ':' ∈ s.toList ∧ ':' ∈ s'.toList := by
  have hjoin (s : String) : [','].intercalate (s.toList.splitOn ',') = s.toList :=
    List.intercalate_splitOn ','
  rcases Settings.eq_or_colon h with heq | ⟨⟨piece, hpiece, hc⟩, piece', hpiece', hc'⟩
  · left
    rw [← String.toList_inj, ← hjoin s, ← hjoin s', heq]
  · right
    rw [← hjoin s, ← hjoin s']
    exact ⟨Text.mem_intercalate hpiece hc, Text.mem_intercalate hpiece' hc'⟩

theorem SameList.taken {s s' : String} (h : SameList s s') : SameList (taken s) (taken s') := by
  rcases h.eq_or_colon with rfl | ⟨hs, hs'⟩
  · exact .refl _
  · rwa [taken_of_colon hs, taken_of_colon hs']

variable {vars vars' : List (String × String)}

theorem SameButPasswords.withoutUsers (h : SameButPasswords vars vars') :
    withoutUsers vars = withoutUsers vars' := by
  rw [SameButPasswords] at h
  induction h with
  | nil => rfl
  | @cons v v' vars vars' hv _ ih =>
    obtain ⟨hname, hvalue⟩ := hv
    by_cases husers : lower v.1 = nameFront ++ usersKey
    · have husers' : lower v'.1 = nameFront ++ usersKey := hname ▸ husers
      rw [withoutUsers_cons_of_users husers, withoutUsers_cons_of_users husers', ih]
    · have husers' : ¬ lower v'.1 = nameFront ++ usersKey := hname ▸ husers
      have heq : v.2 = v'.2 := hvalue.resolve_right fun hlist => husers hlist.1
      rw [withoutUsers_cons_of_other husers, withoutUsers_cons_of_other husers', ih,
        Prod.ext hname heq]

theorem SameButPasswords.given? (h : SameButPasswords vars vars') :
    Option.Rel SameList (given? vars usersKey) (given? vars' usersKey) := by
  rw [SameButPasswords] at h
  induction h with
  | nil => exact .none
  | @cons v v' vars vars' hv _ ih =>
    obtain ⟨hname, hvalue⟩ := hv
    rw [given?_cons, given?_cons, ← hname]
    have hlist : SameList v.2 v'.2 := by
      rcases hvalue with heq | ⟨-, hlist⟩
      · rw [heq]
        exact .refl _
      · exact hlist
    generalize Settings.given? vars usersKey = later, Settings.given? vars' usersKey = later' at ih
    cases ih with
    | some hlater => exact .some hlater
    | none =>
      split
      · exact .some hlist
      · exact .none

theorem SameButPasswords.usersText (h : SameButPasswords vars vars') :
    SameList (usersText vars) (usersText vars') := by
  rw [Settings.usersText, Settings.usersText, textAt_ofVariables, textAt_ofVariables]
  have hgiven := h.given?
  generalize Settings.given? vars usersKey = list, Settings.given? vars' usersKey = list' at hgiven
  cases hgiven with
  | none => exact .refl _
  | some hlist => exact hlist.taken

/-! ### What is printed -/

/-- Settings that are printed alike, or faults that are told alike. -/
inductive SamePrint : Except Error Settings → Except Error Settings → Prop where
  | ok {s s' : Settings} (h : s.describe = s'.describe) : SamePrint (.ok s) (.ok s')
  | error {e e' : Error} (hmessage : e.message = e'.message) (hcauses : e.causes = e'.causes) :
    SamePrint (.error e) (.error e')

/-- All that is printed of settings. Of the users it is the number. -/
theorem describe_congr {s s' : Settings} (hrealm : s.realm = s'.realm)
    (hinterfaces : s.interfaces = s'.interfaces) (husers : s.users.length = s'.users.length)
    (hfirst : s.firstPort = s'.firstPort) (hlast : s.lastPort = s'.lastPort)
    (hlifetime : s.maxLifetime = s'.maxLifetime) : s.describe = s'.describe := by
  unfold describe
  rw [hrealm, hinterfaces, husers, hfirst, hlast, hlifetime]

theorem ofList_colon (password : List Char) :
    String.ofList (':' :: password) = ":" ++ String.ofList password := by
  rw [← String.toList_inj]
  simp

/-- The list of users is at fault, and the first item of it that is no user has a password but no
name. It is shown. -/
def Betrays (vars : List (String × String)) (password : String) : Prop :=
  FirstFault (Text.items (usersText vars)) (":" ++ password) ∧
    load vars = .error (.invalid "TURN_USERS" (":" ++ password))

/-- Of variables that differ in passwords only, the settings are printed alike, and so is what is
wrong with them, unless that is a password without a name. -/
theorem load_conceals (h : SameButPasswords vars vars') : SamePrint (load vars) (load vars') ∨
    ∃ password password', Betrays vars password ∧ Betrays vars' password' := by
  have hload := load_eq_bind vars
  have hload' := load_eq_bind vars'
  rw [← h.withoutUsers] at hload'
  cases hrest : load (withoutUsers vars) with
  | error e =>
    rw [hrest] at hload hload'
    rw [hload, hload']
    exact .inl (.error rfl rfl)
  | ok s =>
    rw [hrest] at hload hload'
    have hreading := readUsers_same h.usersText
    generalize hread : readUsers (usersText vars) = reading,
      hread' : readUsers (usersText vars') = reading' at hreading
    rw [hread] at hload
    rw [hread'] at hload'
    cases hreading with
    | ok hkeys =>
      have hlength := congrArg List.length hkeys
      rw [Assoc.keys, Assoc.keys, List.length_map, List.length_map] at hlength
      rw [hload, hload']
      exact .inl (.ok (describe_congr rfl rfl hlength rfl rfl rfl))
    | error item =>
      rw [hload, hload']
      exact .inl (.error rfl rfl)
    | nameless password password' =>
      rw [ofList_colon] at hread hread' hload hload'
      exact .inr ⟨_, _, ⟨addUsers_eq_error.1 hread, hload⟩, addUsers_eq_error.1 hread', hload'⟩

/-- A list of users, and all else as it is by default. -/
def usersOnly (list : String) : List (String × String) := [("TURN_USERS", list)]

theorem sameButPasswords_usersOnly {list list' : String} (h : SameList list list') :
    SameButPasswords (usersOnly list) (usersOnly list') := by
  have hname : lower "TURN_USERS" = "turn_users" := by decide
  exact .cons ⟨rfl, .inr ⟨hname, h⟩⟩ .nil

/-- One password or another. -/
theorem load_conceals_password : SameButPasswords (usersOnly "u:p") (usersOnly "u:q") ∧
    (load (usersOnly "u:p")).isOk ∧
      SamePrint (load (usersOnly "u:p")) (load (usersOnly "u:q")) := by
  have hsame : SameButPasswords (usersOnly "u:p") (usersOnly "u:q") :=
    sameButPasswords_usersOnly (.cons (@SamePiece.hidden ['u'] ['p'] ['q'] (by decide)) .nil)
  have hok : (load (usersOnly "u:p")).isOk := by decide +kernel
  refine ⟨hsame, hok, (load_conceals hsame).resolve_right ?_⟩
  rintro ⟨password, -, ⟨-, hload⟩, -⟩
  rw [hload] at hok
  cases hok

theorem error_of_any (vars : List (String × String)) (key value : String)
    (h : (match load vars with
      | .error (.invalid k v) => decide (k = key ∧ v = value)
      | _ => false) = true) : load vars = .error (.invalid key value) := by
  split at h
  · rename_i hload
    obtain ⟨rfl, rfl⟩ := of_decide_eq_true h
    exact hload
  · cases h

/-- Passwords without a name are shown. -/
theorem load_betrays : SameButPasswords (usersOnly ":p") (usersOnly ":q") ∧
    load (usersOnly ":p") = .error (.invalid "TURN_USERS" ":p") ∧
    load (usersOnly ":q") = .error (.invalid "TURN_USERS" ":q") ∧
    ¬ ∀ vars vars', SameButPasswords vars vars' → SamePrint (load vars) (load vars') := by
  have hsame : SameButPasswords (usersOnly ":p") (usersOnly ":q") :=
    sameButPasswords_usersOnly (.cons (@SamePiece.hidden [] ['p'] ['q'] (by decide)) .nil)
  have hp : load (usersOnly ":p") = .error (.invalid "TURN_USERS" ":p") :=
    error_of_any _ _ _ (by decide +kernel)
  have hq : load (usersOnly ":q") = .error (.invalid "TURN_USERS" ":q") :=
    error_of_any _ _ _ (by decide +kernel)
  refine ⟨hsame, hp, hq, fun h => ?_⟩
  have hprint := h _ _ hsame
  rw [hp, hq] at hprint
  cases hprint with
  | error hmessage => exact absurd hmessage (by decide)

end NatRelay.Settings
