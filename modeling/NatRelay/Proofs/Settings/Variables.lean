import Mathlib.Logic.Basic
import NatRelay.Proofs.Assoc
import NatRelay.Settings.Basic

/-! Which variable a setting is read from: the last one whose name is the front and the key, in any
case. Main statements: `lookup_ofVariables` and `load_eq_bind`, that the users are read after all
else and have no part in it. -/
namespace NatRelay.Settings

variable {vars : List (String × String)} {key : String}

theorem behind?_eq_some {front cs rest : List Char} :
    Text.behind? front cs = some rest ↔ cs = front ++ rest := by
  induction front generalizing cs with
  | nil => simp [Text.behind?]
  | cons f front ih =>
    cases cs with
    | nil => simp [Text.behind?]
    | cons c cs =>
      rw [Text.behind?]
      split
      · rename_i hf
        simp [ih, hf]
      · rename_i hf
        simp [Ne.symm hf]

/-- The value of the last variable of a key. -/
def given? (vars : List (String × String)) (key : String) : Option String :=
  vars.reverse.findSome? fun v => if lower v.1 = nameFront ++ key then some v.2 else none

theorem given?_cons (v : String × String) (vars : List (String × String)) (key : String) :
    given? (v :: vars) key =
      (given? vars key).or (if lower v.1 = nameFront ++ key then some v.2 else none) := by
  rw [given?, List.reverse_cons, List.findSome?_append, List.findSome?_singleton]
  rfl

theorem behind?_nameFront (name key : String) :
    (Text.behind? nameFront.toList (lower name).toList).map String.ofList = some key ↔
      lower name = nameFront ++ key := by
  rw [Option.map_eq_some_iff]
  constructor
  · rintro ⟨rest, hrest, rfl⟩
    rw [← String.toList_inj, behind?_eq_some.1 hrest]
    simp
  · intro h
    refine ⟨key.toList, behind?_eq_some.2 ?_, String.ofList_toList⟩
    rw [h, String.toList_append]

/-- The values with one variable more. -/
def take (m : Assoc String Value) (v : String × String) : Assoc String Value :=
  match Text.behind? nameFront.toList (lower v.1).toList with
  | some key => m.put (String.ofList key) (Value.ofText v.2)
  | none => m

theorem ofVariables_eq (vars : List (String × String)) : ofVariables vars = vars.foldl take [] :=
  rfl

theorem lookup_take (m : Assoc String Value) (v : String × String) (key : String) :
    (take m v).lookup key =
      if lower v.1 = nameFront ++ key then some (Value.ofText v.2) else m.lookup key := by
  have hkey := behind?_nameFront v.1 key
  rw [take]
  split
  · rename_i rest hrest
    rw [hrest, Option.map_some, Option.some_inj] at hkey
    by_cases hname : String.ofList rest = key
    · rw [if_pos (hkey.1 hname), hname, Assoc.lookup_put_self]
    · rw [if_neg (hname ∘ hkey.2), Assoc.lookup_put_ne _ _ (Ne.symm hname)]
  · rename_i hnone
    rw [hnone] at hkey
    rw [if_neg fun hname => nomatch hkey.2 hname]

theorem lookup_foldl_take (m : Assoc String Value) (vars : List (String × String)) (key : String) :
    (vars.foldl take m).lookup key = ((given? vars key).map Value.ofText).or (m.lookup key) := by
  induction vars generalizing m with
  | nil => rfl
  | cons v vars ih =>
    rw [List.foldl_cons, ih, lookup_take, given?_cons, Option.map_or, Option.or_assoc]
    congr 1
    split <;> rfl

theorem lookup_ofVariables (vars : List (String × String)) (key : String) :
    (ofVariables vars).lookup key = (given? vars key).map Value.ofText := by
  rw [ofVariables_eq, lookup_foldl_take]
  exact Option.or_none

/-- A text among the settings, as it is written out again. -/
theorem textAt_ofVariables (vars : List (String × String)) (key default : String) :
    textAt (ofVariables vars) key default =
      ((given? vars key).map fun s => (Value.ofText s).render).getD default := by
  rw [textAt, lookup_ofVariables, Option.map_map]
  rfl

/-! ### Users apart -/

/-- The key of the users. -/
def usersKey : String := "users"

/-- The list of users. -/
def usersText (vars : List (String × String)) : String := textAt (ofVariables vars) usersKey ""

/-- The variables but those of users. -/
def withoutUsers (vars : List (String × String)) : List (String × String) :=
  vars.filter fun v => lower v.1 ≠ nameFront ++ usersKey

theorem withoutUsers_cons_of_users {v : String × String}
    (h : lower v.1 = nameFront ++ usersKey) : withoutUsers (v :: vars) = withoutUsers vars :=
  List.filter_cons_of_neg (by simp [h])

theorem withoutUsers_cons_of_other {v : String × String}
    (h : lower v.1 ≠ nameFront ++ usersKey) : withoutUsers (v :: vars) = v :: withoutUsers vars :=
  List.filter_cons_of_pos (by simp [h])

theorem given?_withoutUsers (vars : List (String × String)) (key : String) :
    given? (withoutUsers vars) key = if key = usersKey then none else given? vars key := by
  induction vars with
  | nil => simp [withoutUsers, given?]
  | cons v vars ih =>
    by_cases hv : lower v.1 = nameFront ++ usersKey
    · rw [withoutUsers_cons_of_users hv, ih, given?_cons, hv]
      split
      · rfl
      · rename_i hkey
        simp [Ne.symm hkey]
    · rw [withoutUsers_cons_of_other hv, given?_cons, ih, given?_cons]
      split
      · rename_i hkey
        simp [hkey, hv]
      · rfl

theorem lookup_withoutUsers (hkey : key ≠ usersKey) :
    (ofVariables (withoutUsers vars)).lookup key = (ofVariables vars).lookup key := by
  rw [lookup_ofVariables, lookup_ofVariables, given?_withoutUsers, if_neg hkey]

theorem textAt_withoutUsers (hkey : key ≠ usersKey) :
    textAt (ofVariables (withoutUsers vars)) key = textAt (ofVariables vars) key := by
  funext default
  rw [textAt, textAt, lookup_withoutUsers hkey]

theorem countAt_withoutUsers (hkey : key ≠ usersKey) :
    countAt (ofVariables (withoutUsers vars)) key = countAt (ofVariables vars) key := by
  funext default bits
  rw [countAt, countAt, lookup_withoutUsers hkey]

theorem usersText_withoutUsers (vars : List (String × String)) :
    usersText (withoutUsers vars) = "" := by
  rw [usersText, textAt_ofVariables, given?_withoutUsers, if_pos rfl]
  rfl

/-- The users are read when all else passed the checks. -/
theorem load_eq_bind (vars : List (String × String)) :
    load vars = load (withoutUsers vars) >>= fun s => (fun users => { s with users }) <$>
      (readUsers (usersText vars)).mapError (.invalid "TURN_USERS") := by
  have hnobody : readUsers (textAt (ofVariables (withoutUsers vars)) "users" "") = .ok [] := by
    change readUsers (usersText (withoutUsers vars)) = .ok []
    rw [usersText_withoutUsers]
    rfl
  rw [load, load]
  simp (disch := decide) only [hnobody, textAt_withoutUsers, countAt_withoutUsers]
  simp only [bind_assoc]
  -- Both sides read and check the same, one step after the other, up to the lists.
  iterate 17 refine bind_congr fun _ => ?_
  cases format? (textAt (ofVariables vars) "log_format" "console") with
  | none => rfl
  | some logFormat =>
    cases readInterfaces? (textAt (ofVariables vars) "interfaces"
      "0.0.0.0:3478@127.0.0.1:3478") with
    | none => rfl
    | some interfaces =>
      change _ = _ <$> (readUsers (textAt (ofVariables vars) "users" "")).mapError _
      cases readUsers (textAt (ofVariables vars) "users" "") with
      | error item => rfl
      | ok users => rfl

end NatRelay.Settings
