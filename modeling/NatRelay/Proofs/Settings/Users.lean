import NatRelay.Proofs.Assoc
import NatRelay.Proofs.Latest
import NatRelay.Proofs.Text.Pieces
import NatRelay.Settings.Lists

/-! The users of a list. Main statement: `readUsers_lossless`, that a list is read if every item is
a user, that the last password of a name counts, and that nothing of what was written is lost. -/
namespace NatRelay.Settings
open Numeral (Stops)
open Text (IsTrimmed IsItem Lists Spaced isBlank splitOnce_eq_some splitOnce_eq_none)

/-! ### Items -/

/-- An item is a user: a name that is not empty, the first colon, and the password behind it. -/
structure IsUser (item : List Char) (name password : String) : Prop where
  text : item = name.toList ++ ':' :: password.toList
  named : name ≠ ""
  colon : ':' ∉ name.toList

variable {item : List Char} {items : List (List Char)} {name password : String}
  {users : Assoc String String}

theorem user?_eq_some : user? item = some (name, password) ↔ IsUser item name password := by
  constructor
  · intro h
    obtain ⟨⟨front, rest⟩, hcut, hkept⟩ := Option.bind_eq_some_iff.1 h
    obtain ⟨rfl, hfront⟩ := splitOnce_eq_some.1 hcut
    dsimp only at hkept
    split at hkept
    · cases hkept
    · rename_i hne
      obtain ⟨rfl, rfl⟩ := Prod.mk.inj (Option.some.inj hkept)
      refine ⟨by simp, ?_, by simpa using hfront⟩
      rintro hempty
      exact hne (by simp_all)
  · rintro ⟨rfl, hnamed, hcolon⟩
    rw [user?, splitOnce_eq_some.2 ⟨rfl, hcolon⟩]
    simp [hnamed]

/-- Whether an item is a user. -/
theorem exists_isUser : (∃ name password, IsUser item name password) ↔ (user? item).isSome := by
  rw [Option.isSome_iff_exists]
  constructor
  · rintro ⟨name, password, h⟩
    exact ⟨(name, password), user?_eq_some.2 h⟩
  · rintro ⟨⟨name, password⟩, h⟩
    exact ⟨name, password, user?_eq_some.1 h⟩

/-! ### The last password of a name -/

/-- The users of a list as a map: one password for each name, the last one. -/
structure LastWins (users : Assoc String String) (us : List (String × String)) : Prop where
  nodup : users.keys.Nodup
  lookup : ∀ name, users.lookup name = us.reverse.lookup name

/-- Put in the users of a list one by one. -/
def putAll (users : Assoc String String) (us : List (String × String)) : Assoc String String :=
  us.foldl (fun users u => users.put u.1 u.2) users

theorem lookup_user_cons (u : String × String) (us : List (String × String)) (name : String) :
    (u :: us).lookup name = if name = u.1 then some u.2 else us.lookup name := by
  by_cases hname : name = u.1
  · rw [if_pos hname, hname, List.lookup_cons_self]
  · rw [if_neg hname, List.lookup_cons, beq_false_of_ne hname]

theorem lookup_putAll (users : Assoc String String) (us : List (String × String)) (name : String) :
    (putAll users us).lookup name = (us.reverse.lookup name).or (users.lookup name) := by
  induction us generalizing users with
  | nil => rfl
  | cons u us ih =>
    rw [putAll, List.foldl_cons, ← putAll, ih, List.reverse_cons, List.lookup_append,
      Option.or_assoc, lookup_user_cons]
    by_cases hname : name = u.1
    · subst hname
      simp
    · simp [Assoc.lookup_put_ne _ _ hname, hname]

theorem nodup_putAll (hnodup : users.keys.Nodup) (us : List (String × String)) :
    (putAll users us).keys.Nodup := by
  induction us generalizing users with
  | nil => exact hnodup
  | cons u us ih => exact ih (Assoc.nodup_keys_put hnodup u.1 u.2)

theorem lastWins_putAll (us : List (String × String)) : LastWins (putAll [] us) us where
  nodup := @nodup_putAll [] List.nodup_nil us
  lookup name := by simp [lookup_putAll]

/-- The last item that names a user has this password. -/
def LastNamed (items : List (List Char)) (name password : String) : Prop :=
  ∃ before item after, items = before ++ item :: after ∧
    (∀ other ∈ after, ¬ ∃ password', IsUser other name password') ∧ IsUser item name password

theorem lookup_reverse_filterMap (items : List (List Char)) (name password : String) :
    (items.filterMap user?).reverse.lookup name = some password ↔
      LastNamed items name password := by
  induction items using List.reverseRecOn with
  | nil => simp [LastNamed]
  | append_singleton items item ih =>
    rw [LastNamed, exists_latest_concat, ← LastNamed, ← ih, ← user?_eq_some]
    simp only [← user?_eq_some]
    rw [List.filterMap_append]
    cases hitem : user? item with
    | none => simp [List.filterMap_cons_none hitem]
    | some u =>
      rw [List.filterMap_cons_some hitem, List.filterMap_nil, List.reverse_concat,
        lookup_user_cons]
      by_cases hname : name = u.1
      · subst hname
        simp [Prod.ext_iff]
      · simp [hname, Ne.symm hname, Prod.ext_iff]

/-! ### Reading -/

theorem addUsers_of_users (h : ∀ item ∈ items, (user? item).isSome) :
    addUsers users items = .ok (putAll users (items.filterMap user?)) := by
  induction items generalizing users with
  | nil => rfl
  | cons item items ih =>
    obtain ⟨hitem, hitems⟩ := List.forall_mem_cons.1 h
    obtain ⟨u, hu⟩ := Option.isSome_iff_exists.1 hitem
    rw [addUsers, hu, List.filterMap_cons_some hu]
    exact ih hitems

theorem addUsers_of_not_user {before after : List (List Char)}
    (hbefore : ∀ other ∈ before, (user? other).isSome) (hitem : user? item = none) :
    addUsers users (before ++ item :: after) = .error (String.ofList item) := by
  induction before generalizing users with
  | nil => rw [List.nil_append, addUsers, hitem]
  | cons other before ih =>
    obtain ⟨hother, hbefore⟩ := List.forall_mem_cons.1 hbefore
    obtain ⟨u, hu⟩ := Option.isSome_iff_exists.1 hother
    rw [List.cons_append, addUsers, hu]
    exact ih hbefore

/-- All items are users, or there is a first one that is none. -/
theorem users_or_first (items : List (List Char)) : (∀ item ∈ items, (user? item).isSome) ∨
    ∃ before item after, items = before ++ item :: after ∧
      (∀ other ∈ before, (user? other).isSome) ∧ user? item = none := by
  induction items with
  | nil => exact .inl (List.forall_mem_nil _)
  | cons item items ih =>
    cases hitem : user? item with
    | none => exact .inr ⟨[], item, items, rfl, List.forall_mem_nil _, hitem⟩
    | some u =>
      have hsome : (user? item).isSome := by simp [hitem]
      rcases ih with hall | ⟨before, other, after, rfl, hbefore, hother⟩
      · exact .inl (List.forall_mem_cons.2 ⟨hsome, hall⟩)
      · exact .inr ⟨item :: before, other, after, rfl, List.forall_mem_cons.2 ⟨hsome, hbefore⟩,
          hother⟩

theorem addUsers_isOk : (∃ m, addUsers users items = .ok m) ↔
    ∀ item ∈ items, (user? item).isSome := by
  constructor
  · rintro ⟨m, hm⟩
    rcases users_or_first items with hall | ⟨before, item, after, rfl, hbefore, hitem⟩
    · exact hall
    · rw [addUsers_of_not_user hbefore hitem] at hm
      cases hm
  · intro hall
    exact ⟨_, addUsers_of_users hall⟩

/-- The first item that is no user. -/
def FirstFault (items : List (List Char)) (text : String) : Prop :=
  ∃ before item after, items = before ++ item :: after ∧
    (∀ other ∈ before, ∃ name password, IsUser other name password) ∧
    (¬ ∃ name password, IsUser item name password) ∧ text = String.ofList item

theorem addUsers_eq_error {text : String} :
    addUsers users items = .error text ↔ FirstFault items text := by
  simp only [FirstFault, exists_isUser, Bool.not_eq_true, Option.isSome_eq_false_iff,
    Option.isNone_iff_eq_none]
  constructor
  · intro h
    rcases users_or_first items with hall | ⟨before, item, after, rfl, hbefore, hitem⟩
    · rw [addUsers_of_users hall] at h
      cases h
    · rw [addUsers_of_not_user hbefore hitem] at h
      exact ⟨before, item, after, rfl, hbefore, hitem, (Except.error.inj h).symm⟩
  · rintro ⟨before, item, after, rfl, hbefore, hitem, rfl⟩
    exact addUsers_of_not_user hbefore hitem

/-! ### Writing -/

/-- A user whose name and password can stand in a list. -/
structure IsWritable (u : String × String) : Prop where
  named : u.1 ≠ ""
  name_comma : ',' ∉ u.1.toList
  name_colon : ':' ∉ u.1.toList
  name_blank : Stops isBlank u.1.toList
  password_comma : ',' ∉ u.2.toList
  password_blank : Stops isBlank u.2.toList.reverse

/-- The name, a colon and the password. -/
def userText (u : String × String) : List Char := u.1.toList ++ ':' :: u.2.toList

/-- A text in which users are written, with commas between them, and with blanks and blank pieces at
will. -/
def Writes (s : String) (us : List (String × String)) : Prop :=
  (∀ u ∈ us, IsWritable u) ∧
    ∃ pieces, Spaced pieces (us.map userText) ∧ s.toList = [','].intercalate pieces

theorem IsWritable.isUser {u : String × String} (h : IsWritable u) :
    IsUser (userText u) u.1 u.2 := ⟨rfl, h.named, h.name_colon⟩

theorem IsWritable.isItem {u : String × String} (h : IsWritable u) : IsItem (userText u) := by
  have hname : u.1.toList ≠ [] := by simpa using h.named
  refine ⟨by simp [userText], ⟨?_, ?_⟩, ?_⟩
  · rw [Stops, userText, List.head?_append_of_ne_nil _ hname]
    exact h.name_blank
  · intro c hc
    rw [userText, List.reverse_append, List.reverse_cons, List.append_assoc, List.head?_append,
      Option.mem_def, Option.or_eq_some_iff] at hc
    rcases hc with hc | ⟨-, hc⟩
    · exact h.password_blank c hc
    · obtain rfl : ':' = c := by simpa using hc
      decide
  · simp [userText, h.name_comma, h.password_comma]

theorem Writes.lists {s : String} {us : List (String × String)} (h : Writes s us) :
    Lists s (us.map userText) :=
  ⟨List.forall_mem_map.2 fun u hu => (h.1 u hu).isItem, h.2⟩

theorem filterMap_userText {us : List (String × String)} (h : ∀ u ∈ us, IsWritable u) :
    (us.map userText).filterMap user? = us := by
  induction us with
  | nil => rfl
  | cons u us ih =>
    obtain ⟨hu, hus⟩ := List.forall_mem_cons.1 h
    rw [List.map_cons, List.filterMap_cons_some (user?_eq_some.2 hu.isUser), ih hus]

theorem readUsers_of_writes {s : String} {us : List (String × String)} (h : Writes s us) :
    readUsers s = .ok (putAll [] us) := by
  have hall : ∀ item ∈ us.map userText, (user? item).isSome := by
    refine List.forall_mem_map.2 fun u hu => ?_
    exact exists_isUser.1 ⟨u.1, u.2, (h.1 u hu).isUser⟩
  rw [readUsers, ← Text.lists_iff.1 h.lists, addUsers_of_users hall, filterMap_userText h.1]

/-- A list is read just if every item of it is a user, and then into the last password of each name
that is named; otherwise its first item that is no user is told. Users that are written in a list
are read back. -/
theorem readUsers_lossless (s : String) :
    (∃ items, Lists s items ∧
      ((∃ users, readUsers s = .ok users) ↔
        ∀ item ∈ items, ∃ name password, IsUser item name password) ∧
      (∀ users, readUsers s = .ok users → users.keys.Nodup ∧
        ∀ name password, users.lookup name = some password ↔ LastNamed items name password) ∧
      ∀ text, readUsers s = .error text ↔ FirstFault items text) ∧
    ∀ us, Writes s us → ∃ users, readUsers s = .ok users ∧ LastWins users us := by
  refine ⟨⟨Text.items s, Text.lists_items s, ?_, ?_, fun text => addUsers_eq_error⟩, ?_⟩
  · simp only [exists_isUser]
    exact addUsers_isOk
  · intro users h
    rw [readUsers, addUsers_of_users (addUsers_isOk.1 ⟨users, h⟩)] at h
    obtain rfl := Except.ok.inj h
    obtain ⟨hnodup, hlookup⟩ := lastWins_putAll ((Text.items s).filterMap user?)
    refine ⟨hnodup, fun name password => ?_⟩
    rw [hlookup]
    exact lookup_reverse_filterMap (Text.items s) name password
  · intro us h
    exact ⟨putAll [] us, readUsers_of_writes h, lastWins_putAll us⟩

/-- Colons in a password, a blank piece, a password that is empty and a name that comes twice. -/
theorem readUsers_lossless_repeated :
    let us := [("a", "b:c"), ("d", ""), ("a", "e")]
    Writes " a:b:c,\t,d: , a:e" us ∧
      ∃ users, readUsers " a:b:c,\t,d: , a:e" = .ok users ∧ LastWins users us ∧
        users.lookup "a" = some "e" := by
  intro us
  have hspace : ∀ c ∈ [' '], isBlank c := by simp [isBlank]
  have hnone : ∀ c ∈ ([] : List Char), isBlank c := List.forall_mem_nil _
  have hwrites : Writes " a:b:c,\t,d: , a:e" us := by
    constructor
    · simp only [us, List.forall_mem_cons]
      refine ⟨?_, ?_, ?_, List.forall_mem_nil _⟩
      all_goals exact ⟨by decide, by decide, by decide, by rintro _ ⟨⟩; rfl, by decide,
        by simp [Stops, isBlank]⟩
    · refine ⟨[' ' :: userText ("a", "b:c"), ['\t'], userText ("d", "") ++ [' '],
        ' ' :: userText ("a", "e")], ?_, by decide⟩
      refine @Spaced.item [' '] (userText ("a", "b:c")) [] _ _ hspace hnone ?_
      refine .blank (by simp [isBlank]) ?_
      refine @Spaced.item [] (userText ("d", "")) [' '] _ _ hnone hspace ?_
      exact @Spaced.item [' '] (userText ("a", "e")) [] _ _ hspace hnone .nil
  obtain ⟨users, hread, hlast⟩ := (readUsers_lossless " a:b:c,\t,d: , a:e").2 us hwrites
  exact ⟨hwrites, users, hread, hlast, by rw [hlast.lookup]; rfl⟩

end NatRelay.Settings
