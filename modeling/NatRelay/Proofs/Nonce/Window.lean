import NatRelay.Nonce.Run
import NatRelay.Proofs.Latest
import NatRelay.Proofs.Nonce.Room

/-! A nonce is good for a fixed time from its issue on, whatever is verified, asked for again, swept
or evicted in between. Main statement: `run_faithful`. -/
namespace NatRelay.NonceTable

/-- An operation, when it ran, and the table that it found. -/
structure Exchange where
  table : NonceTable
  op : Op
  time : Time

namespace Exchange

def reply (x : Exchange) : Reply := (x.table.step x.op x.time).1

/-- The table that the operation left. -/
def after (x : Exchange) : NonceTable := (x.table.step x.op x.time).2

end Exchange

/-- The exchanges of a run, in order. -/
def history (t : NonceTable) : List (Op × Time) → List Exchange
  | [] => []
  | (op, now) :: rest => ⟨t, op, now⟩ :: (t.step op now).2.history rest

theorem map_reply_history (t : NonceTable) (ops : List (Op × Time)) :
    (t.history ops).map Exchange.reply = (t.run ops).1 := by
  induction ops generalizing t with
  | nil => rfl
  | cons o ops ih => exact congrArg _ (ih _)

/-- Times never go back, up to the present. -/
def Timely (ops : List (Op × Time)) (now : Time) : Prop :=
  (ops.map (·.2) ++ [now]).Pairwise (· ≤ ·)

instance (ops : List (Op × Time)) (now : Time) : Decidable (Timely ops now) :=
  inferInstanceAs (Decidable (List.Pairwise _ _))

/-- The client's nonce, if it is still good. -/
def good? (t : NonceTable) (addr : Endpoint) (now : Time) : Option IssuedNonce :=
  (t.nonces.lookup addr).filter (·.expiresAt > now)

namespace Exchange

/-- The client that a fresh nonce is generated for, and its value. -/
def issues (x : Exchange) : Option (Endpoint × String) :=
  match x.op with
  | .issue addr draw => some (addr, draw.value)
  | .getOrIssue addr draw =>
    if (x.table.good? addr x.time).isSome then none else some (addr, draw.value)
  | .verify .. | .sweep => none

def IssuesTo (addr : Endpoint) (x : Exchange) : Prop := ∃ value, x.issues = some (addr, value)

/-- A nonce is lost that was still good. -/
def Evicts (addr : Endpoint) (x : Exchange) : Prop :=
  (∃ n, x.table.good? addr x.time = some n) ∧ x.after.nonces.lookup addr = none

/-- An issue to another client took the place of the nonce. -/
def Displaces (addr : Endpoint) (x : Exchange) : Prop :=
  ∃ addr' value, addr' ≠ addr ∧ x.issues = some (addr', value) ∧
    x.table.Displaced addr' addr x.time x.after

end Exchange

/-- The value is the latest that was generated for the client; that was less than the lifetime ago,
and the client has not been evicted since. -/
def InForce (ttl : Duration) (addr : Endpoint) (value : String) (now : Time)
    (xs : List Exchange) : Prop :=
  ∃ before x after, xs = before ++ x :: after ∧
    (∀ y ∈ after, ¬ (y.IssuesTo addr ∨ y.Evicts addr)) ∧
    x.issues = some (addr, value) ∧ now < x.time + ttl

variable {ttl : Duration} {capacity : Nat} {t t' : NonceTable} {addr : Endpoint} {value : String}
  {draw : NonceDraw} {n : IssuedNonce} {last now : Time} {xs : List Exchange} {x : Exchange}

theorem good?_eq_some :
    t.good? addr now = some n ↔ t.nonces.lookup addr = some n ∧ now < n.expiresAt := by
  rw [good?, Option.filter_eq_some_iff, decide_eq_true_iff, gt_iff_lt]

theorem good?_eq_none :
    t.good? addr now = none ↔ ∀ n, t.nonces.lookup addr = some n → n.expiresAt ≤ now := by
  rw [good?, Option.filter_eq_none_iff]
  simp

theorem verify_iff :
    t.verify addr value now ↔ ∃ n, t.good? addr now = some n ∧ n.value = value := by
  simp only [verify, good?_eq_some, Option.any_eq_true, Bool.and_eq_true, decide_eq_true_iff]
  constructor
  · rintro ⟨n, hfound, hvalue, hgood⟩
    exact ⟨n, ⟨hfound, hgood⟩, hvalue⟩
  · rintro ⟨n, ⟨hfound, hgood⟩, hvalue⟩
    exact ⟨n, hfound, hvalue, hgood⟩

theorem getOrIssue_of_good (h : t.good? addr now = some n) :
    t.getOrIssue addr draw now = (n.value, t) := by
  obtain ⟨hfound, hgood⟩ := good?_eq_some.1 h
  rw [getOrIssue, hfound]
  dsimp only
  rw [if_pos hgood]

theorem getOrIssue_of_not_good (h : t.good? addr now = none) :
    t.getOrIssue addr draw now = t.issue addr draw now := by
  rw [getOrIssue]
  split
  · rename_i n hfound
    rw [if_neg (Nat.not_lt.2 (good?_eq_none.1 h n hfound))]
  · rfl

theorem not_inForce_nil : ¬ InForce ttl addr value now [] := by
  rintro ⟨before, x, after, h, -⟩
  simp at h

theorem inForce_concat (xs : List Exchange) (x : Exchange) :
    InForce ttl addr value now (xs ++ [x]) ↔
      (x.issues = some (addr, value) ∧ now < x.time + ttl) ∨
        (¬ (x.IssuesTo addr ∨ x.Evicts addr) ∧ InForce ttl addr value now xs) :=
  exists_latest_concat xs x

/-! ### What one operation does to the nonce of one client -/

/-- A fresh one takes its place, it goes, or it stays. -/
inductive Passage (x : Exchange) (addr : Endpoint) :
    Option IssuedNonce → Option IssuedNonce → Prop
  | issued {before value} (hissues : x.issues = some (addr, value)) :
    Passage x addr before (some ⟨value, x.time + x.table.ttl⟩)
  | gone {before} (hissues : ¬ x.IssuesTo addr) : Passage x addr before none
  | kept {before} (hissues : ¬ x.IssuesTo addr) : Passage x addr before before

/-- The same for an operation that issues. -/
theorem issue_passage (nodup : t.nonces.keys.Nodup) {addr' : Endpoint}
    (hissues : x.issues = some (addr', draw.value)) (httl : x.table.ttl = t.ttl) :
    Passage x addr (t.nonces.lookup addr)
      ((t.issue addr' draw x.time).2.nonces.lookup addr) := by
  by_cases hclient : addr = addr'
  · subst hclient
    rw [lookup_issue_self, ← httl]
    exact .issued hissues
  have hother : ¬ x.IssuesTo addr := by
    rintro ⟨value, h⟩
    rw [hissues] at h
    exact hclient (congrArg Prod.fst (Option.some.inj h)).symm
  rcases (issue_spares nodup addr' draw x.time).others addr hclient with h | ⟨-, h⟩
  · rw [h]
    exact .kept hother
  · rw [h]
    exact .gone hother

theorem passage (nodup : x.table.nonces.keys.Nodup) (addr : Endpoint) :
    Passage x addr (x.table.nonces.lookup addr) (x.after.nonces.lookup addr) := by
  obtain ⟨t, op, now⟩ := x
  cases op with
  | issue addr' draw => exact issue_passage nodup rfl rfl
  | getOrIssue addr' draw =>
    rw [Exchange.after, step]
    dsimp only
    cases hgood : t.good? addr' now with
    | some n =>
      rw [getOrIssue_of_good hgood]
      exact .kept (by simp [Exchange.IssuesTo, Exchange.issues, hgood])
    | none =>
      rw [getOrIssue_of_not_good hgood]
      exact issue_passage nodup (by simp [Exchange.issues, hgood]) rfl
  | verify => exact .kept (by simp [Exchange.IssuesTo, Exchange.issues])
  | sweep =>
    have hissues : ¬ Exchange.IssuesTo addr ⟨t, .sweep, now⟩ := by
      simp [Exchange.IssuesTo, Exchange.issues]
    rcases Assoc.lookup_of_sublist nodup (t.live_sublist now) addr with h | h
    · exact h ▸ .kept hissues
    · exact h ▸ .gone hissues

/-- A good nonce is lost to one that is issued to another client of a full table, and to nothing
else. -/
theorem displaced_of_evicts (nodup : x.table.nonces.keys.Nodup)
    (hbounded : 0 < x.table.capacity → x.table.size ≤ x.table.capacity) (h : x.Evicts addr) :
    x.Displaces addr := by
  obtain ⟨t, op, now⟩ := x
  obtain ⟨⟨n, hgood⟩, hlost⟩ := h
  have hfound := good?_eq_some.1 hgood
  have hissue (addr' : Endpoint) (draw : NonceDraw)
      (hlost : (t.issue addr' draw now).2.nonces.lookup addr = none) :
      addr' ≠ addr ∧ t.Displaced addr' addr now (t.issue addr' draw now).2 := by
    have hne : addr ≠ addr' := by
      rintro rfl
      rw [lookup_issue_self] at hlost
      cases hlost
    exact ⟨hne.symm, displaced_of_lost nodup hbounded hne hfound.1 hfound.2 hlost⟩
  cases op with
  | issue addr' draw =>
    obtain ⟨hne, hdisplaced⟩ := hissue addr' draw hlost
    exact ⟨addr', draw.value, hne, rfl, hdisplaced⟩
  | getOrIssue addr' draw =>
    have hafter : Exchange.after ⟨t, .getOrIssue addr' draw, now⟩ =
        (t.getOrIssue addr' draw now).2 := rfl
    cases hgood' : t.good? addr' now with
    | some n' =>
      rw [hafter, getOrIssue_of_good hgood', hfound.1] at hlost
      cases hlost
    | none =>
      rw [getOrIssue_of_not_good hgood'] at hafter
      rw [hafter] at hlost
      obtain ⟨hne, hdisplaced⟩ := hissue addr' draw hlost
      exact ⟨addr', draw.value, hne, by simp [Exchange.issues, hgood'], hafter ▸ hdisplaced⟩
  | verify =>
    rw [show Exchange.after ⟨t, _, now⟩ = t from rfl, hfound.1] at hlost
    cases hlost
  | sweep =>
    have hkept : (t.live now).lookup addr = t.good? addr now := Assoc.lookup_filter nodup _
    rw [show (Exchange.after ⟨t, .sweep, now⟩).nonces = t.live now from rfl, hkept, hgood] at hlost
    cases hlost

/-! ### What a run does -/

/-- The nonces of a table, from `last` on, and how it came to lose any. -/
structure Keeps (ttl : Duration) (capacity : Nat) (xs : List Exchange) (last : Time)
    (t : NonceTable) : Prop where
  window : t.ttl = ttl
  bound : t.capacity = capacity
  nodup : t.nonces.keys.Nodup
  bounded : 0 < t.capacity → t.size ≤ t.capacity
  good : ∀ addr value now, last ≤ now →
    ((∃ n, t.good? addr now = some n ∧ n.value = value) ↔ InForce ttl addr value now xs)
  evictions : ∀ x ∈ xs, ∀ addr, x.Evicts addr → x.Displaces addr

namespace Keeps

theorem empty (ttl : Duration) (capacity : Nat) :
    Keeps ttl capacity [] last { ttl, capacity } where
  window := rfl
  bound := rfl
  nodup := List.nodup_nil
  bounded _ := Nat.zero_le _
  good addr value now _ := by
    refine iff_of_false ?_ not_inForce_nil
    rintro ⟨n, hgood, -⟩
    cases (good?_eq_some.1 hgood).1
  evictions := by simp

theorem mono (h : Keeps ttl capacity xs last t) (hle : last ≤ now) :
    Keeps ttl capacity xs now t where
  window := h.window
  bound := h.bound
  nodup := h.nodup
  bounded := h.bounded
  good addr value later hlater := h.good addr value later (Nat.le_trans hle hlater)
  evictions := h.evictions

/-- A nonce that is not good later was not issued in time, was replaced, or was evicted; one that
was lost for another reason had ended. -/
theorem good_step (h : Keeps ttl capacity xs x.time x.table) (addr : Endpoint) (value : String)
    (hle : x.time ≤ now) : (∃ n, x.after.good? addr now = some n ∧ n.value = value) ↔
      InForce ttl addr value now (xs ++ [x]) := by
  have hpassage := passage h.nodup addr
  rw [inForce_concat, ← h.good addr value now hle]
  generalize hbefore : x.table.nonces.lookup addr = before at hpassage
  generalize hafter : x.after.nonces.lookup addr = after at hpassage
  simp only [good?_eq_some, hbefore, hafter]
  cases hpassage with
  | issued hissues =>
    constructor
    · rintro ⟨n, ⟨hn, hnow⟩, rfl⟩
      obtain rfl := Option.some.inj hn
      exact .inl ⟨hissues, h.window ▸ hnow⟩
    · rintro (⟨hissues', hnow⟩ | ⟨hother, -⟩)
      · rw [hissues] at hissues'
        exact ⟨_, ⟨rfl, h.window.symm ▸ hnow⟩, congrArg Prod.snd (Option.some.inj hissues')⟩
      · exact absurd (.inl ⟨_, hissues⟩) hother
  | gone hissues =>
    refine iff_of_false (by simp) ?_
    rintro (⟨hissues', -⟩ | ⟨hother, n, ⟨hn, hnow⟩, -⟩)
    · exact hissues ⟨value, hissues'⟩
    · have hgood : x.table.good? addr x.time = some n :=
        good?_eq_some.2 ⟨hbefore.trans hn, Nat.lt_of_le_of_lt hle hnow⟩
      exact hother (.inr ⟨⟨n, hgood⟩, hafter⟩)
  | kept hissues =>
    have hevicts : ¬ x.Evicts addr := by
      rintro ⟨⟨n, hgood⟩, hlost⟩
      have hfound := (good?_eq_some.1 hgood).1
      rw [hbefore, ← hafter, hlost] at hfound
      cases hfound
    constructor
    · exact fun hn => .inr ⟨not_or.2 ⟨hissues, hevicts⟩, hn⟩
    · rintro (⟨hissues', -⟩ | ⟨-, hn⟩)
      · exact absurd ⟨value, hissues'⟩ hissues
      · exact hn

end Keeps

/-- No operation changes the terms of the table, gives a client two nonces or outgrows the
capacity. -/
theorem step_bounded (nodup : t.nonces.keys.Nodup) (hbounded : 0 < t.capacity → t.size ≤ t.capacity)
    (op : Op) (now : Time) :
    (t.step op now).2.ttl = t.ttl ∧ (t.step op now).2.capacity = t.capacity ∧
      (t.step op now).2.nonces.keys.Nodup ∧
      (0 < t.capacity → (t.step op now).2.size ≤ t.capacity) := by
  have hissue (addr : Endpoint) (draw : NonceDraw) :
      (t.issue addr draw now).2.ttl = t.ttl ∧ (t.issue addr draw now).2.capacity = t.capacity ∧
        (t.issue addr draw now).2.nonces.keys.Nodup ∧
        (0 < t.capacity → (t.issue addr draw now).2.size ≤ t.capacity) :=
    ⟨ttl_issue, capacity_issue, (issue_spares nodup addr draw now).nodup,
      fun hbound => size_issue_le nodup hbound (hbounded hbound)⟩
  cases op with
  | issue addr draw => exact hissue addr draw
  | getOrIssue addr draw =>
    rw [step]
    dsimp only
    cases hgood : t.good? addr now with
    | some n =>
      rw [getOrIssue_of_good hgood]
      exact ⟨rfl, rfl, nodup, hbounded⟩
    | none =>
      rw [getOrIssue_of_not_good hgood]
      exact hissue addr draw
  | verify => exact ⟨rfl, rfl, nodup, hbounded⟩
  | sweep =>
    have hlive := t.live_sublist now
    exact ⟨rfl, rfl, nodup.sublist (hlive.map _),
      fun hbound => Nat.le_trans hlive.length_le (hbounded hbound)⟩

theorem Keeps.step (h : Keeps ttl capacity xs x.time x.table) :
    Keeps ttl capacity (xs ++ [x]) x.time x.after := by
  obtain ⟨hwindow, hbound, hnodup, hbounded⟩ := step_bounded h.nodup h.bounded x.op x.time
  refine ⟨hwindow.trans h.window, hbound.trans h.bound, hnodup, ?_, ?_, ?_⟩
  · rwa [Exchange.after, hbound]
  · exact fun addr value now hle => h.good_step addr value hle
  · intro y hy addr hevicts
    rcases List.mem_append.1 hy with hy | hy
    · exact h.evictions y hy addr hevicts
    · obtain rfl := List.mem_singleton.1 hy
      exact displaced_of_evicts h.nodup h.bounded hevicts

theorem Keeps.run (h : Keeps ttl capacity xs last t) {ops : List (Op × Time)}
    (htimely : (last :: (ops.map (·.2) ++ [now])).Pairwise (· ≤ ·)) :
    Keeps ttl capacity (xs ++ t.history ops) now (t.run ops).2 := by
  induction ops generalizing xs last t with
  | nil =>
    rw [history, List.append_nil]
    exact h.mono (by simpa using htimely)
  | cons o ops ih =>
    obtain ⟨op, time⟩ := o
    obtain ⟨hle, hlater⟩ := List.pairwise_cons.1 htimely
    have hbefore : Keeps ttl capacity xs time t := h.mono (hle time (by simp))
    rw [history, List.append_cons]
    exact ih (hbefore.step (x := ⟨t, op, time⟩)) hlater

/-- What a table of the given lifetime and capacity does at the end of a history. -/
structure Faithful (ttl : Duration) (capacity : Nat) (xs : List Exchange) (now : Time)
    (t : NonceTable) : Prop where
  /-- Each client has one nonce, and there are not too many of them. -/
  nodup : t.nonces.keys.Nodup
  bounded : 0 < capacity → t.size ≤ capacity
  /-- What verifies is the latest nonce within its time. -/
  verify : ∀ addr value, t.verify addr value now ↔ InForce ttl addr value now xs
  /-- Only a table that was full of good nonces has lost a good one, and no more than one at a
  time. -/
  evictions : ∀ x ∈ xs, ∀ addr, x.Evicts addr → x.Displaces addr
  /-- A client is reminded of its nonce as long as it is good, and of no other. -/
  reminded : ∀ addr draw n, t.nonces.lookup addr = some n → now < n.expiresAt →
    t.getOrIssue addr draw now = (n.value, t)
  renewed : ∀ addr draw, (∀ n, t.nonces.lookup addr = some n → n.expiresAt ≤ now) →
    (t.getOrIssue addr draw now).1 = draw.value ∧
      (t.getOrIssue addr draw now).2.nonces.lookup addr = some ⟨draw.value, now + ttl⟩
  /-- What a client is told is of use to it. -/
  usable : 0 < ttl → ∀ addr draw,
    (t.issue addr draw now).2.verify addr (t.issue addr draw now).1 now ∧
      (t.getOrIssue addr draw now).2.verify addr (t.getOrIssue addr draw now).1 now

theorem verify_issue (hpos : 0 < t.ttl) :
    (t.issue addr draw now).2.verify addr (t.issue addr draw now).1 now := by
  refine verify_iff.2 ⟨_, good?_eq_some.2 ⟨lookup_issue_self, ?_⟩, rfl⟩
  exact Nat.lt_add_of_pos_right hpos

theorem verify_getOrIssue (hpos : 0 < t.ttl) :
    (t.getOrIssue addr draw now).2.verify addr (t.getOrIssue addr draw now).1 now := by
  cases hgood : t.good? addr now with
  | some n =>
    rw [getOrIssue_of_good hgood]
    exact verify_iff.2 ⟨n, hgood, rfl⟩
  | none =>
    rw [getOrIssue_of_not_good hgood]
    exact verify_issue hpos

/-- Over every run a nonce verifies for its client from its issue on for the lifetime of nonces, and
no longer, unless a newer one replaces it or another client needs the room in a full table. -/
theorem run_faithful (ttl : Duration) (capacity : Nat) (ops : List (Op × Time)) (now : Time)
    (htimely : Timely ops now) :
    let start : NonceTable := { ttl, capacity }
    Faithful ttl capacity (start.history ops) now (start.run ops).2 := by
  intro start
  have hkeeps : Keeps ttl capacity ([] ++ start.history ops) now (start.run ops).2 :=
    (Keeps.empty ttl capacity).run
      (List.pairwise_cons.2 ⟨fun _ _ => Nat.zero_le _, htimely⟩)
  rw [List.nil_append] at hkeeps
  generalize (start.run ops).2 = t at hkeeps
  exact {
    nodup := hkeeps.nodup
    bounded := hkeeps.bound ▸ hkeeps.bounded
    verify addr value := verify_iff.trans (hkeeps.good addr value now (Nat.le_refl _))
    evictions := hkeeps.evictions
    reminded addr draw n hfound hgood := getOrIssue_of_good (good?_eq_some.2 ⟨hfound, hgood⟩)
    renewed addr draw hexpired := by
      rw [getOrIssue_of_not_good (good?_eq_none.2 hexpired), ← hkeeps.window]
      exact ⟨rfl, lookup_issue_self⟩
    usable hpos addr draw := by
      rw [← hkeeps.window] at hpos
      exact ⟨verify_issue hpos, verify_getOrIssue hpos⟩ }

/-- A third client of a full table, when the first one's nonce has expired: the second keeps its
own. -/
theorem run_faithful_of_expired :
    let client (port : UInt16) : Endpoint := .v4 0xC0000201#32 port
    let ops : List (Op × Time) := [(.getOrIssue (client 1000) ⟨"a", 0⟩, 0),
      (.getOrIssue (client 1001) ⟨"b", 0⟩, seconds 30), (.issue (client 1002) ⟨"c", 0⟩, seconds 61)]
    let start : NonceTable := { ttl := seconds 60, capacity := 2 }
    Timely ops (seconds 61) ∧
      Faithful (seconds 60) 2 (start.history ops) (seconds 61) (start.run ops).2 ∧
      (start.run ops).2.size = 2 ∧ (start.run ops).2.verify (client 1001) "b" (seconds 61) := by
  intro client ops start
  exact ⟨by decide, run_faithful _ _ _ _ (by decide), by decide, by decide⟩

end NatRelay.NonceTable
