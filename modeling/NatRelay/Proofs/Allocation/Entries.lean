import NatRelay.Proofs.Allocation.Serving

/-! What every allocation of a table has in common. Main statement: `run_entries`, that a property
of new allocations which no operation takes away is a property of all allocations there are. -/
namespace NatRelay.Table
variable {t t' : Table} {ft : FiveTuple} {now : Time} {op : Op} {reply : Reply}

/-- An operation that serves nobody lets an allocation in, prunes what is there, or drops some. -/
theorem Step.origin_of_serves_eq_none (h : t.Step now op reply t') (c : t.Consistent)
    (hserves : op.serves = none) {b : Allocation} (hb : t'.entries.lookup ft = some b) :
    (b.permissions = [] ∧ b.channels = []) ∨
      ∃ a, t.entries.lookup ft = some a ∧ (b = a ∨ b = a.prune now) := by
  cases h with
  | idle => exact .inr ⟨b, hb, .inl rfl⟩
  | refresh | createPermission | bindChannel | permitSend | channelPeer => cases hserves
  | create hcreated =>
    rw [hcreated.lookup] at hb
    split at hb
    · obtain rfl := Option.some.inj hb
      rw [hcreated.built]
      exact .inl ⟨rfl, rfl⟩
    · exact .inr ⟨b, hb, .inl rfl⟩
  | delete | removeUser =>
    rw [c.lookup_keep] at hb
    exact .inr ⟨b, Option.eq_some_of_filter_eq_some hb, .inl rfl⟩
  | sweep =>
    rw [lookup_mapValues, c.lookup_keep] at hb
    obtain ⟨a, ha, rfl⟩ := Option.map_eq_some_iff.1 hb
    exact .inr ⟨a, Option.eq_some_of_filter_eq_some ha, .inr rfl⟩

/-- Where an allocation comes from that stands in the table after a step: it was just made, or it
was there before, and the step left it alone, pruned it, or served it. -/
theorem step_origin (c : t.Consistent) {b : Allocation}
    (hb : (t.step op now).2.entries.lookup ft = some b) :
    (b.permissions = [] ∧ b.channels = []) ∨ ∃ a, t.entries.lookup ft = some a ∧
      (b = a ∨ b = a.prune now ∨ b = (a.serve t.options op now).2) := by
  have hrule := step_rule c op now
  cases hserves : op.serves with
  | none =>
    rcases hrule.origin_of_serves_eq_none c hserves hb with hnew | ⟨a, ha, rfl | rfl⟩
    · exact .inl hnew
    · exact .inr ⟨_, ha, .inl rfl⟩
    · exact .inr ⟨a, ha, .inr (.inl rfl)⟩
  | some ft' =>
    refine .inr ?_
    by_cases hft : ft = ft'
    · subst hft
      cases hfind : t.find? ft now with
      | none =>
        rw [step_of_find?_eq_none hserves hfind] at hb
        exact ⟨b, hb, .inl rfl⟩
      | some a =>
        rw [(step_of_find?_eq_some hserves hfind).2] at hb
        exact ⟨a, (find?_eq_some.1 hfind).1, .inr (.inr (Option.some.inj hb).symm)⟩
    · rw [hrule.lookup_of_other (Op.fiveTuple?_of_serves hserves) hft] at hb
      exact ⟨b, hb, .inl rfl⟩

/-- What is true of new allocations, and of one that was pruned or served if it was true before, is
true of all that stand in the table after a run. -/
theorem run_entries {P : Allocation → Prop} (c : t.Consistent) {ops : List (Op × Time)}
    (new : ∀ a : Allocation, a.permissions = [] → a.channels = [] → P a)
    (pruned : ∀ a now, P a → P (a.prune now))
    (served : ∀ o ∈ ops, ∀ a, P a → P (a.serve t.options o.1 o.2).2)
    (h : ∀ ft a, t.entries.lookup ft = some a → P a) :
    ∀ ft a, (t.run ops).2.entries.lookup ft = some a → P a := by
  induction ops generalizing t with
  | nil => exact h
  | cons o ops ih =>
    obtain ⟨op, now⟩ := o
    obtain ⟨hserved, hrest⟩ := List.forall_mem_cons.1 served
    have hoptions : (t.step op now).2.options = t.options := (step_rule c op now).sameTerms.options
    rw [← hoptions] at hrest
    refine ih (t := (t.step op now).2) (step_consistent c op now) hrest ?_
    intro ft b hb
    rcases step_origin c hb with ⟨hpermissions, hchannels⟩ | ⟨a, ha, rfl | rfl | rfl⟩
    · exact new b hpermissions hchannels
    · exact h ft _ ha
    · exact pruned a now (h ft a ha)
    · exact hserved a (h ft a ha)

end NatRelay.Table
