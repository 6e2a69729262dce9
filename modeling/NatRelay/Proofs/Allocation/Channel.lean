import Mathlib.Data.List.Find
import NatRelay.Proofs.Allocation.History

/-! The channels that an allocation holds sum up its history. Main statement:
`bindChannel_iff_tied`, that a number is refused to a peer just while one of them is tied to
another by a binding that ended less than the guard ago. -/
namespace NatRelay.Table

namespace Exchange

/-- The channel that was bound or extended. -/
def binds : Exchange → Option (FiveTuple × UInt16 × Endpoint)
  | ⟨.bindChannel ft number peer, _, .fresh _⟩ => some (ft, number, peer)
  | ⟨.channelPeer ft number, _, .path _ peer⟩ => some (ft, number, peer)
  | _ => none

/-- When the binding of a number to a peer ends, behind an exchange. -/
def bindingEnd (lifetime : Duration) (ft : FiveTuple) (number : UInt16) (peer : Endpoint)
    (before : Option Time) (x : Exchange) : Option Time :=
  if x.opens = some ft then none
  else if x.binds = some (ft, number, peer) then some (x.time + lifetime)
  else before

theorem binds_of_idle {op : Op} {time : Time} {reply : Reply}
    (h : op.isQuery ∨ reply.isRefusal) : binds ⟨op, time, reply⟩ = none := by
  cases op <;> cases reply <;> simp_all [binds, Op.isQuery, Reply.isRefusal]

theorem bindingEnd_of_binds {x : Exchange} {lifetime : Duration} {ft : FiveTuple}
    {number : UInt16} {peer : Endpoint} (hopens : x.opens ≠ some ft)
    (hbinds : x.binds = some (ft, number, peer)) (number' : UInt16) (peer' : Endpoint)
    (before : Option Time) : x.bindingEnd lifetime ft number' peer' before =
      if number' = number ∧ peer' = peer then some (x.time + lifetime) else before := by
  rw [bindingEnd, if_neg hopens, hbinds]
  simp only [Option.some.injEq, Prod.mk.injEq, true_and, @eq_comm _ number, @eq_comm _ peer]

end Exchange

/-- The end of the binding of a number to a peer under the five-tuple's latest allocation, as a
history tells it: the latest end, if it was extended. -/
def bindingEnd (lifetime : Duration) (ft : FiveTuple) (number : UInt16) (peer : Endpoint)
    (xs : List Exchange) : Option Time :=
  xs.foldl (Exchange.bindingEnd lifetime ft number peer) none

/-- The number belongs to another peer, or the peer has another number, by a binding that is in
force or ended less than the guard ago. -/
def Tied (lifetime : Duration) (ft : FiveTuple) (number : UInt16) (peer : Endpoint) (now : Time)
    (xs : List Exchange) : Prop :=
  ∃ number' peer' ends, bindingEnd lifetime ft number' peer' xs = some ends ∧
    (number' = number ∧ peer' ≠ peer ∨ number' ≠ number ∧ peer' = peer) ∧
    now < ends + channelGuard

@[simp] theorem bindingEnd_concat (lifetime : Duration) (ft : FiveTuple) (number : UInt16)
    (peer : Endpoint) (xs : List Exchange) (x : Exchange) :
    bindingEnd lifetime ft number peer (xs ++ [x]) =
      x.bindingEnd lifetime ft number peer (bindingEnd lifetime ft number peer xs) := by
  simp [bindingEnd]

theorem clashes_iff {a : Allocation} {number : UInt16} {peer : Endpoint} {now : Time} :
    clashes a number peer now ↔ ∃ e ∈ a.channels,
      (e.1 = number ∧ e.2.peer ≠ peer ∨ e.1 ≠ number ∧ e.2.peer = peer) ∧
        now < e.2.expiresAt + channelGuard := by
  rw [clashes, List.any_eq_true]
  refine exists_congr fun e => and_congr_right fun _ => ?_
  by_cases hnumber : e.1 = number <;> by_cases hpeer : e.2.peer = peer <;>
    simp [hnumber, hpeer, Channel.isGuarded]

/-- Without a clash the number's channel is the peer's, but for bindings past their guard. -/
theorem free_of_clashes_eq_false {a : Allocation} {number : UInt16} {peer : Endpoint} {now : Time}
    (h : clashes a number peer now = false) (e : UInt16 × Channel) (he : e ∈ a.channels) :
    (e.1 = number ↔ e.2.peer = peer) ∨ e.2.expiresAt + channelGuard ≤ now := by
  rw [← Bool.not_eq_true, clashes_iff] at h
  by_cases hguard : now < e.2.expiresAt + channelGuard
  · refine .inl ⟨fun hnumber => ?_, fun hpeer => ?_⟩
    · by_contra hpeer
      exact h ⟨e, he, .inl ⟨hnumber, hpeer⟩, hguard⟩
    · by_contra hnumber
      exact h ⟨e, he, .inr ⟨hnumber, hpeer⟩, hguard⟩
  · exact .inr (Nat.le_of_not_lt hguard)

/-- What a history says of the channels of one five-tuple is what its allocation holds, from `last`
on. -/
structure Bindings (lifetime : Duration) (xs : List Exchange) (last : Time) (ft : FiveTuple)
    (channels : Assoc UInt16 Channel) : Prop where
  numbers : channels.keys.Nodup
  peers : (channels.map (·.2.peer)).Nodup
  current : ∀ number c, channels.lookup number = some c →
    bindingEnd lifetime ft number c.peer xs = some c.expiresAt
  /-- A binding that is gone without a word ties nothing any more. -/
  past : ∀ number peer ends, bindingEnd lifetime ft number peer xs = some ends →
    channels.lookup number = some ⟨peer, ends⟩ ∨ ends + channelGuard ≤ last

namespace Bindings
variable {lifetime : Duration} {xs : List Exchange} {last : Time} {ft : FiveTuple}
  {channels : Assoc UInt16 Channel} {x : Exchange}

theorem mono (h : Bindings lifetime xs last ft channels) {later : Time} (hle : last ≤ later) :
    Bindings lifetime xs later ft channels where
  numbers := h.numbers
  peers := h.peers
  current := h.current
  past number peer ends hends :=
    (h.past number peer ends hends).imp_right fun hpast => Nat.le_trans hpast hle

/-- An exchange that binds nothing under the five-tuple. -/
theorem frame (h : Bindings lifetime xs last ft channels) (hopens : x.opens ≠ some ft)
    (hbinds : ∀ number peer, x.binds ≠ some (ft, number, peer)) :
    Bindings lifetime (xs ++ [x]) last ft channels where
  numbers := h.numbers
  peers := h.peers
  current := by simpa [Exchange.bindingEnd, hopens, hbinds] using h.current
  past := by simpa [Exchange.bindingEnd, hopens, hbinds] using h.past

/-- The five-tuple gets an allocation. -/
theorem opened (hopens : x.opens = some ft) : Bindings lifetime (xs ++ [x]) last ft [] where
  numbers := List.nodup_nil
  peers := List.nodup_nil
  current := by simp
  past := by simp [Exchange.bindingEnd, hopens]

/-- Bindings that tie nothing any more may go. -/
theorem pruned (h : Bindings lifetime xs last ft channels) :
    Bindings lifetime xs last ft (channels.filter fun e => e.2.isGuarded last) where
  numbers := Assoc.nodup_keys_filter h.numbers _
  peers := h.peers.sublist (List.filter_sublist.map _)
  current number c hc := by
    rw [Assoc.lookup_filter h.numbers] at hc
    exact h.current number c (Option.eq_some_of_filter_eq_some hc)
  past number peer ends hends := by
    rcases h.past number peer ends hends with hlookup | hpast
    · rw [Assoc.lookup_filter h.numbers, hlookup]
      by_cases hguard : last < ends + channelGuard
      · exact .inl (by simp [Channel.isGuarded, hguard])
      · exact .inr (Nat.le_of_not_lt hguard)
    · exact .inr hpast

/-- Number and peer determine each other. -/
theorem number_eq_iff (h : Bindings lifetime xs last ft channels) {e e' : UInt16 × Channel}
    (he : e ∈ channels) (he' : e' ∈ channels) : e.1 = e'.1 ↔ e.2.peer = e'.2.peer := by
  constructor
  · intro hnumber
    rw [List.inj_on_of_nodup_map h.numbers he he' hnumber]
  · intro hpeer
    rw [List.inj_on_of_nodup_map h.peers he he' hpeer]

/-- A number is given to a peer, and whatever else the peer had is dropped. All that was tied to one
of them ended before the guard. -/
theorem rebound {channels' : Assoc UInt16 Channel} {number : UInt16} {peer : Endpoint}
    (h : Bindings lifetime xs last ft channels) (hopens : x.opens ≠ some ft)
    (hbinds : x.binds = some (ft, number, peer))
    (hfree : ∀ e ∈ channels, (e.1 = number ↔ e.2.peer = peer) ∨
      e.2.expiresAt + channelGuard ≤ last)
    (numbers : channels'.keys.Nodup) (peers : (channels'.map (·.2.peer)).Nodup)
    (hself : channels'.lookup number = some ⟨peer, x.time + lifetime⟩)
    (hothers : ∀ number', number' ≠ number →
      channels'.lookup number' = (channels.lookup number').filter fun c => c.peer ≠ peer) :
    Bindings lifetime (xs ++ [x]) last ft channels' := by
  refine ⟨numbers, peers, ?_, ?_⟩
  · intro number' c hc
    rw [bindingEnd_concat, Exchange.bindingEnd_of_binds hopens hbinds]
    by_cases hnumber : number' = number
    · rw [hnumber, hself] at hc
      obtain rfl := Option.some.inj hc
      rw [if_pos ⟨hnumber, rfl⟩]
    · rw [hothers number' hnumber, Option.filter_eq_some_iff] at hc
      rw [if_neg fun heq => hnumber heq.1]
      exact h.current number' c hc.1
  · intro number' peer' ends hends
    rw [bindingEnd_concat, Exchange.bindingEnd_of_binds hopens hbinds] at hends
    split at hends
    · rename_i heq
      obtain ⟨rfl, rfl⟩ := heq
      obtain rfl := Option.some.inj hends
      exact .inl hself
    rename_i hne
    -- Another pair: if its channel is still there, it shares neither number nor peer, or its end
    -- is past the guard.
    rcases h.past number' peer' ends hends with hlookup | hpast
    · rcases hfree _ (Assoc.mem_of_lookup hlookup) with hsame | hpast
      · have hnumber : number' ≠ number := fun heq => hne ⟨heq, hsame.1 heq⟩
        have hpeer : peer' ≠ peer := fun heq => hnumber (hsame.2 heq)
        refine .inl ?_
        rw [hothers number' hnumber, hlookup]
        simp [hpeer]
      · exact .inr hpast
    · exact .inr hpast

theorem bound {a : Allocation} {number : UInt16} {peer : Endpoint}
    (h : Bindings lifetime xs last ft a.channels) (hopens : x.opens ≠ some ft)
    (hbinds : x.binds = some (ft, number, peer)) (hclash : clashes a number peer last = false) :
    Bindings lifetime (xs ++ [x]) last ft (a.bind number peer (x.time + lifetime)).channels := by
  refine h.rebound hopens hbinds (free_of_clashes_eq_false hclash) ?_ ?_
    (Assoc.lookup_put_self _ _ _) ?_
  · exact Assoc.nodup_keys_put (Assoc.nodup_keys_filter h.numbers _) _ _
  · exact Allocation.nodup_peers_bind h.peers ..
  · intro number' hne
    rw [Allocation.bind, Assoc.lookup_put_ne _ _ hne, Assoc.lookup_filter h.numbers]

theorem extended {a : Allocation} {number : UInt16} {c : Channel}
    (h : Bindings lifetime xs last ft a.channels) (hopens : x.opens ≠ some ft)
    (hbinds : x.binds = some (ft, number, c.peer)) (hc : a.channels.lookup number = some c) :
    Bindings lifetime (xs ++ [x]) last ft (a.extend number (x.time + lifetime)).channels := by
  have hsame (e : UInt16 × Channel) (he : e ∈ a.channels) : e.1 = number ↔ e.2.peer = c.peer :=
    h.number_eq_iff he (Assoc.mem_of_lookup hc)
  refine h.rebound hopens hbinds (fun e he => .inl (hsame e he)) ?_ ?_ ?_ ?_
  · rw [Allocation.extend, Assoc.keys_mapAt]
    exact h.numbers
  · rw [Allocation.peers_extend]
    exact h.peers
  · rw [Allocation.extend, Assoc.lookup_mapAt, if_pos rfl, hc]
    rfl
  · intro number' hne
    rw [Allocation.extend, Assoc.lookup_mapAt, if_neg hne]
    cases hlookup : a.channels.lookup number' with
    | none => rfl
    | some c' =>
      have hpeer : c'.peer ≠ c.peer := fun heq =>
        hne ((hsame _ (Assoc.mem_of_lookup hlookup)).2 heq)
      exact (Option.filter_eq_some_iff.2 ⟨rfl, by simpa using hpeer⟩).symm

end Bindings

/-- What an exchange does to the channels of an allocation that it leaves in place. -/
inductive Rebinds (lifetime : Duration) (ft : FiveTuple) (x : Exchange) (a : Allocation) :
    Assoc UInt16 Channel → Prop
  | kept (hbinds : ∀ number peer, x.binds ≠ some (ft, number, peer)) :
    Rebinds lifetime ft x a a.channels
  | pruned (hbinds : ∀ number peer, x.binds ≠ some (ft, number, peer)) :
    Rebinds lifetime ft x a (a.channels.filter fun e => e.2.isGuarded x.time)
  | bound {number peer} (hbinds : x.binds = some (ft, number, peer))
    (hclash : clashes a number peer x.time = false) :
    Rebinds lifetime ft x a (a.bind number peer (x.time + lifetime)).channels
  | extended {number c} (hbinds : x.binds = some (ft, number, c.peer))
    (hc : a.channels.lookup number = some c) :
    Rebinds lifetime ft x a (a.extend number (x.time + lifetime)).channels

theorem of_lookup_update {t : Table} {ft ft' : FiveTuple} {f : Allocation → Allocation}
    {b : Allocation} (h : (t.update ft f).entries.lookup ft' = some b) :
    ∃ a, t.entries.lookup ft' = some a ∧ (ft' = ft ∧ b = f a ∨ ft' ≠ ft ∧ b = a) := by
  rw [lookup_update] at h
  split at h
  · rename_i hft
    obtain ⟨a, ha, rfl⟩ := Option.map_eq_some_iff.1 h
    exact ⟨a, ha, .inl ⟨hft, rfl⟩⟩
  · rename_i hft
    exact ⟨b, h, .inr ⟨hft, rfl⟩⟩

/-- An allocation in a table was just made, without channels, or it was there before. -/
theorem Step.rebinds {t t' : Table} {now : Time} {op : Op} {reply : Reply}
    (h : t.Step now op reply t') (c : t.Consistent) {ft : FiveTuple} {b : Allocation}
    (hb : t'.entries.lookup ft = some b) :
    Exchange.opens ⟨op, now, reply⟩ = some ft ∧ b.channels = [] ∨
      Exchange.opens ⟨op, now, reply⟩ ≠ some ft ∧ ∃ a, t.entries.lookup ft = some a ∧
        Rebinds t.options.channelLifetime ft ⟨op, now, reply⟩ a b.channels := by
  cases h with
  | idle hidle =>
    have hbinds := @Exchange.binds_of_idle _ now _ hidle
    refine .inr ⟨by simp [Exchange.of_idle hidle], b, hb, .kept ?_⟩
    simp [hbinds]
  | @create r _ a _ hcreated =>
    have hnew : a.channels = [] := by rw [hcreated.built]; rfl
    rw [hcreated.lookup] at hb
    split at hb
    · rename_i hft
      obtain rfl := Option.some.inj hb
      exact .inl ⟨congrArg some hft.symm, hnew⟩
    · rename_i hft
      exact .inr
        ⟨by simpa [Exchange.opens] using Ne.symm hft, b, hb, .kept (by simp [Exchange.binds])⟩
  | refresh =>
    obtain ⟨a, ha, ⟨-, rfl⟩ | ⟨-, rfl⟩⟩ := of_lookup_update hb <;>
      exact .inr ⟨by simp [Exchange.opens], _, ha, .kept (by simp [Exchange.binds])⟩
  | delete =>
    rw [lookup_keep_ne] at hb
    split at hb
    · cases hb
    · exact .inr ⟨by simp [Exchange.opens], b, hb, .kept (by simp [Exchange.binds])⟩
  | sweep =>
    rw [lookup_mapValues, c.lookup_keep] at hb
    obtain ⟨a, ha, rfl⟩ := Option.map_eq_some_iff.1 hb
    exact .inr ⟨by simp [Exchange.opens], a, (Option.filter_eq_some_iff.1 ha).1,
      .pruned (by simp [Exchange.binds])⟩
  | createPermission =>
    obtain ⟨a, ha, ⟨-, rfl⟩ | ⟨-, rfl⟩⟩ := of_lookup_update hb <;>
      exact .inr ⟨by simp [Exchange.opens], _, ha, .kept (by simp [Exchange.binds])⟩
  | @bindChannel ft' number peer a' _ ha' hclash =>
    obtain ⟨a, ha, ⟨rfl, rfl⟩ | ⟨hft, rfl⟩⟩ := of_lookup_update hb
    · obtain rfl := Option.some.inj ((find?_eq_some.1 ha').1.symm.trans ha)
      exact .inr ⟨by simp [Exchange.opens], _, ha, .bound rfl hclash⟩
    · refine .inr ⟨by simp [Exchange.opens], _, ha, .kept ?_⟩
      simp [Exchange.binds, Ne.symm hft]
  | permitSend =>
    obtain ⟨a, ha, ⟨-, rfl⟩ | ⟨-, rfl⟩⟩ := of_lookup_update hb <;>
      exact .inr ⟨by simp [Exchange.opens], _, ha, .kept (by simp [Exchange.binds])⟩
  | @channelPeer ft' number a' c' ha' hc' =>
    obtain ⟨a, ha, ⟨rfl, rfl⟩ | ⟨hft, rfl⟩⟩ := of_lookup_update hb
    · obtain rfl := Option.some.inj ((find?_eq_some.1 ha').1.symm.trans ha)
      exact .inr ⟨by simp [Exchange.opens], _, ha, .extended rfl hc'⟩
    · refine .inr ⟨by simp [Exchange.opens], _, ha, .kept ?_⟩
      simp [Exchange.binds, Ne.symm hft]
  | removeUser =>
    rw [c.lookup_keep] at hb
    exact .inr ⟨by simp [Exchange.opens], b, (Option.filter_eq_some_iff.1 hb).1,
      .kept (by simp [Exchange.binds])⟩

/-- The channels of every allocation are what the history says. -/
def Bound (lifetime : Duration) (xs : List Exchange) (last : Time) (t : Table) : Prop :=
  ∀ ft a, t.entries.lookup ft = some a → Bindings lifetime xs last ft a.channels

/-- One step writes its own line of the history. -/
theorem Bound.step {t t' : Table} {lifetime : Duration} {xs : List Exchange} {now : Time} {op : Op}
    {reply : Reply} (h : Bound lifetime xs now t) (c : t.Consistent)
    (hlifetime : t.options.channelLifetime = lifetime) (hstep : t.Step now op reply t') :
    Bound lifetime (xs ++ [⟨op, now, reply⟩]) now t' := by
  subst hlifetime
  intro ft b hb
  rcases hstep.rebinds c hb with ⟨hopens, hnew⟩ | ⟨hopens, a, ha, hrebinds⟩
  · rw [hnew]
    exact .opened hopens
  · have hbindings := h ft a ha
    generalize b.channels = channels at hrebinds
    cases hrebinds with
    | kept hbinds => exact hbindings.frame hopens hbinds
    | pruned hbinds => exact (hbindings.frame hopens hbinds).pruned
    | bound hbinds hclash => exact hbindings.bound hopens hbinds hclash
    | extended hbinds hc => exact hbindings.extended hopens hbinds hc

theorem bound_empty (options : AllocationOptions) (pool : Pool) :
    Bound options.channelLifetime [] 0 { options, pool } := by
  intro ft a ha
  simp at ha

/-- The bindings that clash in the table are those that tie in the history. -/
theorem Bindings.clashes_iff_tied {a : Allocation} {lifetime : Duration} {xs : List Exchange}
    {now : Time} {ft : FiveTuple} (h : Bindings lifetime xs now ft a.channels) (number : UInt16)
    (peer : Endpoint) : clashes a number peer now ↔ Tied lifetime ft number peer now xs := by
  rw [clashes_iff]
  constructor
  · rintro ⟨e, he, hother, hguard⟩
    have hends := h.current e.1 e.2 (Assoc.lookup_of_mem h.numbers he)
    exact ⟨e.1, e.2.peer, e.2.expiresAt, hends, hother, hguard⟩
  · rintro ⟨number', peer', ends, hends, hother, hguard⟩
    rcases h.past number' peer' ends hends with hlookup | hpast
    · exact ⟨_, Assoc.mem_of_lookup hlookup, hother, hguard⟩
    · exact absurd hguard (Nat.not_lt.2 hpast)

/-- A channel is active in the table just while the history has a binding in force. -/
theorem Bindings.active_iff {a : Allocation} {lifetime : Duration} {xs : List Exchange}
    {now : Time} {ft : FiveTuple} (h : Bindings lifetime xs now ft a.channels) (number : UInt16)
    (peer : Endpoint) :
    (a.channels.lookup number).any (fun c => c.peer = peer && now < c.expiresAt) ↔
      ∃ ends, bindingEnd lifetime ft number peer xs = some ends ∧ now < ends := by
  rw [Option.any_eq_true]
  constructor
  · rintro ⟨c, hc, hactive⟩
    simp only [Bool.and_eq_true, decide_eq_true_iff] at hactive
    obtain ⟨rfl, hlive⟩ := hactive
    exact ⟨c.expiresAt, h.current number c hc, hlive⟩
  · rintro ⟨ends, hends, hlive⟩
    rcases h.past number peer ends hends with hlookup | hpast
    · exact ⟨_, hlookup, by simpa using hlive⟩
    · exact absurd (Nat.lt_of_lt_of_le hlive (Nat.le_add_right _ _)) (Nat.not_lt.2 hpast)

/-- At most one channel of a peer: the order of the channels plays no role. -/
theorem Bindings.channelForPeer_perm {a : Allocation} {lifetime : Duration} {xs : List Exchange}
    {last : Time} {ft : FiveTuple} (h : Bindings lifetime xs last ft a.channels)
    {channels : Assoc UInt16 Channel} (hperm : channels.Perm a.channels) (peer : Endpoint)
    (now : Time) : { a with channels }.channelForPeer peer now = a.channelForPeer peer now := by
  rw [Allocation.channelForPeer, Allocation.channelForPeer]
  congr 1
  refine (List.find?_eq_find?_of_perm hperm.symm ?_).symm
  rintro e ⟨he, hpeer⟩ e' ⟨he', hpeer'⟩
  simp only [decide_eq_true_iff] at hpeer hpeer'
  exact List.inj_on_of_nodup_map h.peers he he' (hpeer.1.trans hpeer'.1.symm)

section Run
variable {options : AllocationOptions} {addresses : List Ip} {first last : UInt16}
  {ops : List (Op × Time)} {now : Time}

theorem run_bound (h : Timely ops now) :
    Bound options.channelLifetime
      (history { options, pool := .make addresses first last } ops) now
      (run { options, pool := .make addresses first last } ops).2 := by
  refine history_induct (consistent_empty options addresses first last)
    (bound_empty options (.make addresses first last)) ?_ ?_ h
  · exact fun hle hbound ft a ha => (hbound ft a ha).mono hle
  · intro xs t t' now op reply c hterms hstep hbound
    exact hbound.step c (congrArg AllocationOptions.channelLifetime hterms.options) hstep

/-- Number and peer of a channel determine each other. A number is refused to a peer of the right
family just if one of them is tied to another; else it is the peer's for a channel lifetime, and
the answer tells whether it was not so already. -/
theorem bindChannel_iff_tied (h : Timely ops now) :
    let t₀ : Table := { options, pool := .make addresses first last }
    let t := (t₀.run ops).2
    let lifetime := options.channelLifetime
    (∀ ft a, t.entries.lookup ft = some a →
      (∀ e ∈ a.channels, ∀ e' ∈ a.channels, e.1 = e'.1 ↔ e.2.peer = e'.2.peer) ∧
        (a.channels.map (·.2.peer)).Nodup ∧
        ∀ channels, channels.Perm a.channels → ∀ peer later,
          { a with channels }.channelForPeer peer later = a.channelForPeer peer later) ∧
      ∀ ft a number peer, t.find? ft now = some a → peer.family = a.family →
        (t.bindChannel ft number peer now = .error (.channelConflict number) ↔
          Tied lifetime ft number peer now (t₀.history ops)) ∧
        (¬ Tied lifetime ft number peer now (t₀.history ops) → ∃ isNew t',
          t.bindChannel ft number peer now = .ok (isNew, t') ∧
            (isNew ↔ ¬ ∃ ends, bindingEnd lifetime ft number peer (t₀.history ops) = some ends ∧
              now < ends) ∧
            ∃ b, t'.find? ft now = some b ∧
              b.channels.lookup number = some ⟨peer, now + lifetime⟩) := by
  intro t₀ t lifetime
  have hbound : Bound lifetime (t₀.history ops) now t := run_bound h
  have hterms : t.options = options :=
    (run_consistent (consistent_empty options addresses first last) ops).2.options
  refine ⟨?_, ?_⟩
  · intro ft a ha
    have hbindings := hbound ft a ha
    exact ⟨fun e he e' he' => hbindings.number_eq_iff he he', hbindings.peers,
      fun channels hperm => hbindings.channelForPeer_perm hperm⟩
  · intro ft a number peer ha hfamily
    have hbindings := hbound ft a (find?_eq_some.1 ha).1
    rw [← hbindings.clashes_iff_tied number peer, ← hbindings.active_iff number peer]
    have hbinds (hfree : clashes a number peer now = false) :=
      bindChannel_eq_ok.2 ⟨a, ha, hfamily, hfree, rfl, rfl⟩
    refine ⟨⟨fun hrefused => ?_, bindChannel_of_clashes ha hfamily⟩, fun hfree => ?_⟩
    · by_contra hfree
      rw [hbinds (by simpa using hfree)] at hrefused
      cases hrefused
    · rw [hterms] at hbinds
      refine ⟨_, _, hbinds (by simpa using hfree), by simp, _, find?_update ha rfl, ?_⟩
      exact Assoc.lookup_put_self _ _ _

/-- A channel that data extended at two seconds keeps its number from others until five minutes after
its end, and no longer. -/
theorem bindChannel_at_guard :
    let t₀ : Table := { options := {}, pool := .make [.v4 0x0a000001] 49152 49153 }
    let ft : FiveTuple := .udp (.v4 0xc0000201 5000) (.v4 0xc0000202 3478)
    let alice : Request :=
      { fiveTuple := ft, username := "alice", tid := 7, family := .v4, lifetime := some 3600 }
    let peer : Endpoint := .v4 0xc0000203 9
    let other : Endpoint := .v4 0xc0000203 10
    let ops : List (Op × Time) :=
      [(.create alice 0, 0), (.bindChannel ft 0x4000 peer, 1000), (.channelPeer ft 0x4000, 2000)]
    let t := (t₀.run ops).2
    Timely ops 901999 ∧ Timely ops 902000 ∧
      t.bindChannel ft 0x4000 other 901999 = .error (.channelConflict 0x4000) ∧
      ∃ t' b, t.bindChannel ft 0x4000 other 902000 = .ok (true, t') ∧
        t'.find? ft 902000 = some b ∧ b.channels.lookup 0x4000 = some ⟨other, 1502000⟩ := by
  intro t₀ ft alice peer other ops t
  have htimely : Timely ops 901999 := by decide
  have htimely' : Timely ops 902000 := by decide
  let a : Allocation := { t₀.build alice (.v4 0x0a000001 49152) 0 with
    permissions := [(.v4 0xc0000203, 302000)]
    channels := [(0x4000, ⟨peer, 602000⟩)] }
  have ha : t.find? ft 901999 = some a := by decide +kernel
  have ha' : t.find? ft 902000 = some a := by decide +kernel
  have hguarded := ((@bindChannel_iff_tied {} [.v4 0x0a000001] 49152 49153 ops 901999 htimely).2
    ft a 0x4000 other ha rfl).1.2 ⟨0x4000, peer, 602000, by decide, .inl ⟨rfl, by decide⟩, by decide⟩
  refine ⟨htimely, htimely', hguarded, ?_⟩
  obtain ⟨hiff, hbinds⟩ := (@bindChannel_iff_tied {} [.v4 0x0a000001] 49152 49153 ops 902000
    htimely').2 ft a 0x4000 other ha' rfl
  have hok : (t.bindChannel ft 0x4000 other 902000).isOk := by decide +kernel
  obtain ⟨isNew, t', hbound, hfresh, b, hb, hchannel⟩ := hbinds fun htied => by
    rw [hiff.2 htied] at hok
    cases hok
  have hnever : bindingEnd (seconds 600) ft 0x4000 other (t₀.history ops) = none := by
    decide +kernel
  have hnew : isNew = true := hfresh.2 fun ⟨ends, hends, _⟩ => by
    rw [hnever] at hends
    cases hends
  exact ⟨t', b, hnew ▸ hbound, hb, hchannel⟩

end Run

end NatRelay.Table
