import NatRelay.Nonce
import NatRelay.Proofs.Assoc

/-! Room in the nonce table. An issue keeps the table within its capacity (`size_issue_le`) and
spares the other clients (`issue_spares`), but for one whose nonce makes room in a table full of
good ones (`displaced_of_lost`). -/
namespace NatRelay.NonceTable
variable {t : NonceTable} {addr addr' : Endpoint} {draw : NonceDraw} {now : Time}

/-- The table is full, and holds nothing for the client. -/
def Crowded (t : NonceTable) (addr : Endpoint) : Prop :=
  0 < t.capacity ∧ t.capacity ≤ t.size ∧ t.nonces.lookup addr = none

/-- What the other clients find: their own nonces, or nothing where room was made for this one. -/
structure Spares (t : NonceTable) (addr : Endpoint) (t' : NonceTable) : Prop where
  nodup : t'.nonces.keys.Nodup
  others : ∀ addr', addr' ≠ addr → t'.nonces.lookup addr' = t.nonces.lookup addr' ∨
    t.Crowded addr ∧ t'.nonces.lookup addr' = none

theorem Spares.refl (nodup : t.nonces.keys.Nodup) (addr : Endpoint) : t.Spares addr t :=
  ⟨nodup, fun _ _ => .inl rfl⟩

theorem live_sublist (t : NonceTable) (now : Time) : (t.live now).Sublist t.nonces :=
  List.filter_sublist

theorem makeRoom_sublist (t : NonceTable) (addr : Endpoint) (victim : Nat) (now : Time) :
    (t.makeRoom addr victim now).nonces.Sublist t.nonces := by
  rw [makeRoom]
  split
  · exact .refl _
  dsimp only
  split
  · exact t.live_sublist now
  · exact (List.eraseIdx_sublist ..).trans (t.live_sublist now)

theorem makeRoom_of_not_crowded (h : ¬ t.Crowded addr) (victim : Nat) :
    t.makeRoom addr victim now = t := by
  rw [makeRoom, if_pos]
  by_contra hroom
  rw [not_or, not_or] at hroom
  obtain ⟨hbound, hfull, hnone⟩ := hroom
  have hnone := Option.not_isSome_iff_eq_none.1 hnone
  exact h ⟨Nat.pos_of_ne_zero hbound, Nat.le_of_not_lt hfull, hnone⟩

theorem issue_spares (nodup : t.nonces.keys.Nodup) (addr : Endpoint) (draw : NonceDraw)
    (now : Time) : t.Spares addr (t.issue addr draw now).2 where
  nodup := Assoc.nodup_keys_put
    (nodup.sublist ((t.makeRoom_sublist addr draw.victim now).map _)) _ _
  others addr' hne := by
    have hput : (t.issue addr draw now).2.nonces.lookup addr' =
        (t.makeRoom addr draw.victim now).nonces.lookup addr' := Assoc.lookup_put_ne _ _ hne
    rw [hput]
    by_cases hcrowded : t.Crowded addr
    · exact (Assoc.lookup_of_sublist nodup (t.makeRoom_sublist ..) addr').imp_right
        (⟨hcrowded, ·⟩)
    · rw [makeRoom_of_not_crowded hcrowded]
      exact .inl rfl

theorem getOrIssue_spares (nodup : t.nonces.keys.Nodup) (addr : Endpoint) (draw : NonceDraw)
    (now : Time) : t.Spares addr (t.getOrIssue addr draw now).2 := by
  rw [getOrIssue]
  split
  · split
    · exact .refl nodup addr
    · exact issue_spares nodup addr draw now
  · exact issue_spares nodup addr draw now

@[simp] theorem ttl_makeRoom (t : NonceTable) (addr : Endpoint) (victim : Nat) (now : Time) :
    (t.makeRoom addr victim now).ttl = t.ttl := by
  rw [makeRoom]
  split
  · rfl
  · rfl

@[simp] theorem capacity_makeRoom (t : NonceTable) (addr : Endpoint) (victim : Nat) (now : Time) :
    (t.makeRoom addr victim now).capacity = t.capacity := by
  rw [makeRoom]
  split
  · rfl
  · rfl

@[simp] theorem ttl_issue : (t.issue addr draw now).2.ttl = t.ttl := ttl_makeRoom ..

@[simp] theorem capacity_issue : (t.issue addr draw now).2.capacity = t.capacity :=
  capacity_makeRoom ..

theorem lookup_issue_self : (t.issue addr draw now).2.nonces.lookup addr =
    some ⟨draw.value, now + t.ttl⟩ := by
  rw [issue]
  dsimp only
  rw [Assoc.lookup_put_self, ttl_makeRoom]

theorem lookup_issue_ne (hne : addr' ≠ addr) : (t.issue addr draw now).2.nonces.lookup addr' =
    (t.makeRoom addr draw.victim now).nonces.lookup addr' := Assoc.lookup_put_ne _ _ hne

/-- How room is made: what expired goes, and if that is not enough, one good nonce. -/
theorem makeRoom_of_crowded (h : t.Crowded addr) (victim : Nat) (now : Time) :
    ((t.live now).length < t.capacity ∧ (t.makeRoom addr victim now).nonces = t.live now) ∨
      ∃ i < (t.live now).length, t.capacity ≤ (t.live now).length ∧
        (t.makeRoom addr victim now).nonces = (t.live now).eraseIdx i := by
  obtain ⟨hbound, hfull, hnone⟩ := h
  have hno : ¬ (t.capacity = 0 ∨ t.size < t.capacity ∨ (t.nonces.lookup addr).isSome) := by
    rw [hnone]
    simp [Nat.pos_iff_ne_zero.1 hbound, hfull]
  rw [makeRoom, if_neg hno]
  dsimp only
  split
  · rename_i hroom
    exact .inl ⟨hroom, rfl⟩
  · rename_i hfull
    have hfull := Nat.le_of_not_lt hfull
    exact .inr ⟨_, Nat.mod_lt _ (Nat.lt_of_lt_of_le hbound hfull), hfull, rfl⟩

/-- A new client finds room. -/
theorem size_makeRoom_lt (hbound : 0 < t.capacity) (hsize : t.size ≤ t.capacity)
    (hnone : t.nonces.lookup addr = none) (victim : Nat) :
    (t.makeRoom addr victim now).nonces.length < t.capacity := by
  by_cases hcrowded : t.Crowded addr
  · rcases makeRoom_of_crowded hcrowded victim now with ⟨hroom, heq⟩ | ⟨i, hi, -, heq⟩
    · rw [heq]
      exact hroom
    · rw [heq, List.length_eraseIdx_of_lt hi]
      have hlive : (t.live now).length ≤ t.size := (t.live_sublist now).length_le
      omega
  · rw [makeRoom_of_not_crowded hcrowded]
    by_contra hfull
    exact hcrowded ⟨hbound, Nat.le_of_not_lt hfull, hnone⟩

theorem size_issue_le (nodup : t.nonces.keys.Nodup) (hbound : 0 < t.capacity)
    (hsize : t.size ≤ t.capacity) : (t.issue addr draw now).2.size ≤ t.capacity := by
  rw [issue, size]
  dsimp only
  cases hfound : t.nonces.lookup addr with
  | none =>
    exact Nat.le_trans (Assoc.length_put_le _ _ _)
      (size_makeRoom_lt hbound hsize hfound draw.victim)
  | some n =>
    have hcrowded : ¬ t.Crowded addr := by simp [Crowded, hfound]
    rw [makeRoom_of_not_crowded hcrowded, Assoc.put, List.length_cons,
      Assoc.length_remove nodup hfound]
    exact hsize

/-- One client's good nonce made room for another client: the table was full of good nonces, it is
full again, and nobody else notices. -/
structure Displaced (t : NonceTable) (addr addr' : Endpoint) (now : Time) (t' : NonceTable) :
    Prop where
  bounded : 0 < t.capacity
  full : t.size = t.capacity
  stranger : t.nonces.lookup addr = none
  good : ∀ e ∈ t.nonces, now < e.2.expiresAt
  refilled : t'.size = t.capacity
  others : ∀ other, other ≠ addr → other ≠ addr' →
    t'.nonces.lookup other = t.nonces.lookup other

theorem displaced_of_lost (nodup : t.nonces.keys.Nodup)
    (hbounded : 0 < t.capacity → t.size ≤ t.capacity)
    {n : IssuedNonce} (hne : addr' ≠ addr) (hfound : t.nonces.lookup addr' = some n)
    (hgood : now < n.expiresAt) (hlost : (t.issue addr draw now).2.nonces.lookup addr' = none) :
    t.Displaced addr addr' now (t.issue addr draw now).2 := by
  rw [lookup_issue_ne hne] at hlost
  have hcrowded : t.Crowded addr := by
    by_contra hroom
    rw [makeRoom_of_not_crowded hroom, hfound] at hlost
    cases hlost
  have hlive : (t.live now).lookup addr' = some n := by
    rw [live, Assoc.lookup_filter nodup, hfound, Option.filter_some, if_pos (decide_eq_true hgood)]
  rcases makeRoom_of_crowded hcrowded draw.victim now with ⟨-, heq⟩ | ⟨i, hi, hfull, heq⟩
  · rw [heq, hlive] at hlost
    cases hlost
  obtain ⟨hbound, -, hnone⟩ := hcrowded
  have hsize := hbounded hbound
  -- The good nonces alone fill the table, so that there are no others.
  have hall : t.live now = t.nonces :=
    (t.live_sublist now).eq_of_length_le (Nat.le_trans hsize hfull)
  rw [hall] at hi hfull heq
  have hvictim : addr' = t.nonces[i].1 := by
    by_contra hother
    rw [heq, Assoc.lookup_eraseIdx_ne hi hother, hfound] at hlost
    cases hlost
  have hnone' : (t.makeRoom addr draw.victim now).nonces.lookup addr = none := by
    rcases Assoc.lookup_of_sublist nodup (t.makeRoom_sublist addr draw.victim now) addr with h | h
    · rw [h, hnone]
    · exact h
  refine ⟨hbound, Nat.le_antisymm hsize hfull, hnone, ?_, ?_, ?_⟩
  · intro e he
    rw [← hall] at he
    exact of_decide_eq_true (List.mem_filter.1 he).2
  · rw [issue, size]
    dsimp only
    rw [Assoc.put_of_lookup_eq_none hnone', heq, List.length_cons, List.length_eraseIdx_of_lt hi]
    have : t.nonces.length = t.capacity := Nat.le_antisymm hsize hfull
    omega
  · intro other hother hother'
    rw [lookup_issue_ne hother, heq, Assoc.lookup_eraseIdx_ne hi (hvictim ▸ hother')]

end NatRelay.NonceTable
