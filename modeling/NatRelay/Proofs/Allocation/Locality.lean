import NatRelay.Proofs.Allocation.History
import NatRelay.Proofs.Allocation.Serving

/-! What operations do with one five-tuple, and tell of it, depends on its own entry alone. Main
statement: `history_about`, that two tables in which it has the same entry give the same account
of it, whatever else they hold and whatever happens to others. -/
namespace NatRelay

namespace Table

/-- The five-tuple that asks for a new allocation. -/
def Op.creates : Op → Option FiveTuple
  | .create r _ => some r.fiveTuple
  | _ => none

/-- What a reply to an operation about no five-tuple in particular tells of one. -/
def Reply.about (ft : FiveTuple) : Reply → Reply
  | .removed as => .removed (as.filter (·.fiveTuple = ft))
  | .route r => if r.fiveTuple = ft then .route r else .nothing
  | reply => reply

/-- What an exchange tells of a five-tuple; nothing where the operation is about another one. -/
def Exchange.about (ft : FiveTuple) (x : Exchange) : Option Reply :=
  match x.op.fiveTuple? with
  | some ft' => if ft' = ft then some x.reply else none
  | none => some (x.reply.about ft)

variable {t t' : Table} {ft : FiveTuple} {now : Time}

/-- Of the allocations of a kind, a five-tuple has its own. -/
theorem Consistent.filter_values (c : t.Consistent) (p : Allocation → Bool) (ft : FiveTuple) :
    (Assoc.values (t.entries.filter fun e => p e.2)).filter (·.fiveTuple = ft) =
      ((t.entries.lookup ft).filter p).toList := by
  have hkey : t.entries.filter (fun e => decide (e.2.fiveTuple = ft) && p e.2) =
      t.entries.filter fun e => decide (e.1 = ft) && p e.2 := by
    apply List.filter_congr
    intro e he
    rw [c.key_eq e he]
  have hfilter : t.entries.filter (fun e => decide (e.1 = ft) && p e.2) =
      (((t.entries.lookup ft).map (ft, ·)).toList).filter fun e => p e.2 := by
    rw [← Assoc.filter_key c.keys_nodup, List.filter_filter]
    exact List.filter_congr fun _ _ => Bool.and_comm _ _
  rw [Assoc.values, List.filter_map, List.filter_filter]
  refine (congrArg (List.map (·.2)) (hkey.trans hfilter)).trans ?_
  cases t.entries.lookup ft with
  | none => rfl
  | some a => cases hp : p a <;> simp [hp, Option.filter_some]

/-- Tables with the same options that have the same entry for a five-tuple. -/
structure SameEntry (ft : FiveTuple) (t t' : Table) : Prop where
  consistent : t.Consistent
  consistent' : t'.Consistent
  options : t'.options = t.options
  lookup : t'.entries.lookup ft = t.entries.lookup ft

/-- A step is seen from a five-tuple in the same way, and leaves the same entry. -/
structure SameStep (ft : FiveTuple) (op : Op) (now : Time) (o o' : Reply × Table) : Prop where
  about : Exchange.about ft ⟨op, now, o'.1⟩ = Exchange.about ft ⟨op, now, o.1⟩
  lookup : o'.2.entries.lookup ft = o.2.entries.lookup ft

namespace SameEntry
variable {op : Op}

theorem find? (h : SameEntry ft t t') (now : Time) : t'.find? ft now = t.find? ft now := by
  rw [Table.find?, h.lookup, Table.find?]

theorem inboundRoute (h : SameEntry ft t t') (relay peer : Endpoint) (now : Time) :
    (t'.inboundRoute relay peer now).filter (·.fiveTuple = ft) =
      (t.inboundRoute relay peer now).filter (·.fiveTuple = ft) := by
  ext r
  rw [Option.filter_eq_some_iff, Option.filter_eq_some_iff, h.consistent.inboundRoute_eq_some,
    h.consistent'.inboundRoute_eq_some]
  refine and_congr_left fun hr => ?_
  obtain rfl := of_decide_eq_true hr
  rw [h.find?]

theorem removed (h : SameEntry ft t t') (p : Allocation → Bool) :
    (Assoc.values (t'.entries.filter fun e => p e.2)).filter (·.fiveTuple = ft) =
      (Assoc.values (t.entries.filter fun e => p e.2)).filter (·.fiveTuple = ft) := by
  rw [h.consistent.filter_values, h.consistent'.filter_values, h.lookup]

theorem serves (h : SameEntry ft t t') (hop : op.serves = some ft) (now : Time) :
    SameStep ft op now (t.step op now) (t'.step op now) := by
  cases hfind : t.find? ft now with
  | none =>
    have hfind' := (h.find? now).trans hfind
    rw [step_of_find?_eq_none hop hfind, step_of_find?_eq_none hop hfind']
    exact ⟨rfl, h.lookup⟩
  | some a =>
    have hfind' := (h.find? now).trans hfind
    obtain ⟨hreply, hlookup⟩ := step_of_find?_eq_some hop hfind
    obtain ⟨hreply', hlookup'⟩ := step_of_find?_eq_some hop hfind'
    rw [h.options] at hreply' hlookup'
    exact ⟨by rw [hreply, hreply'], hlookup'.trans hlookup.symm⟩

/-- An operation on another five-tuple. -/
theorem other (h : SameEntry ft t t') {ft' : FiveTuple} (hop : op.fiveTuple? = some ft')
    (hne : ft ≠ ft') (now : Time) : SameStep ft op now (t.step op now) (t'.step op now) where
  about := by simp [Exchange.about, hop, Ne.symm hne]
  lookup := by
    rw [(step_rule h.consistent op now).lookup_of_other hop hne,
      (step_rule h.consistent' op now).lookup_of_other hop hne, h.lookup]

theorem step (h : SameEntry ft t t') (hop : op.creates ≠ some ft) (now : Time) :
    SameStep ft op now (t.step op now) (t'.step op now) := by
  have hown {ft' : FiveTuple} (hft : op.fiveTuple? = some ft') (hserves : op.serves = some ft') :
      SameStep ft op now (t.step op now) (t'.step op now) := by
    by_cases hne : ft = ft'
    · exact h.serves (hne ▸ hserves) now
    · exact h.other hft hne now
  cases op with
  | create r offset => exact h.other rfl (fun hft => hop (congrArg some hft.symm)) now
  | find | refresh | createPermission | bindChannel | permitSend | channelPeer =>
    exact hown rfl rfl
  | delete ft' =>
    by_cases hne : ft = ft'
    · subst hne
      rw [Table.step, Table.step, h.consistent.delete_eq, h.consistent'.delete_eq, h.lookup]
      cases t.entries.lookup ft with
      | none => exact ⟨rfl, h.lookup⟩
      | some a =>
        refine ⟨rfl, ?_⟩
        change (t'.keep _).entries.lookup ft = (t.keep _).entries.lookup ft
        rw [lookup_keep_ne, lookup_keep_ne, if_pos rfl, if_pos rfl]
    · exact h.other rfl hne now
  | sweep =>
    rw [Table.step, Table.step, h.consistent.sweep_eq, h.consistent'.sweep_eq]
    refine ⟨congrArg (some ∘ Reply.removed) (h.removed (·.isExpired now)), ?_⟩
    simp only [lookup_mapValues, h.consistent.lookup_keep, h.consistent'.lookup_keep, h.lookup]
  | inboundRoute relay peer =>
    have habout (route : Option Route) : Exchange.about ft
        ⟨.inboundRoute relay peer, now, route.elim .nothing .route⟩ =
        some ((route.filter (·.fiveTuple = ft)).elim .nothing .route) := by
      cases route with
      | none => rfl
      | some r =>
        by_cases hr : r.fiveTuple = ft <;>
          simp [Exchange.about, Op.fiveTuple?, Reply.about, hr, Option.filter_some]
    rw [step_inboundRoute, step_inboundRoute]
    exact ⟨by rw [habout, habout, h.inboundRoute], h.lookup⟩
  | removeUser username =>
    rw [Table.step, Table.step, h.consistent.removeUser_eq, h.consistent'.removeUser_eq]
    refine ⟨congrArg (some ∘ Reply.removed) (h.removed (·.username = username)), ?_⟩
    simp only [h.consistent.lookup_keep, h.consistent'.lookup_keep, h.lookup]

end SameEntry

/-- A five-tuple that is given no new allocation sees the same in two tables that have the same
entry for it. -/
theorem history_about (h : SameEntry ft t t') {ops : List (Op × Time)}
    (hops : ∀ o ∈ ops, o.1.creates ≠ some ft) :
    (t'.history ops).map (Exchange.about ft) = (t.history ops).map (Exchange.about ft) := by
  induction ops generalizing t t' with
  | nil => rfl
  | cons o ops ih =>
    obtain ⟨op, now⟩ := o
    obtain ⟨hop, hops⟩ := List.forall_mem_cons.1 hops
    have hstep := h.step hop now
    have hrule := step_rule h.consistent op now
    have hrule' := step_rule h.consistent' op now
    have hoptions : (t'.step op now).2.options = (t.step op now).2.options := by
      rw [hrule'.sameTerms.options, hrule.sameTerms.options, h.options]
    rw [history_cons, history_cons, List.map_cons, List.map_cons, hstep.about]
    exact congrArg _ (ih ⟨hrule.consistent h.consistent, hrule'.consistent h.consistent', hoptions,
      hstep.lookup⟩ hops)

end Table
end NatRelay
