import NatRelay.Proofs.Allocation.Permission
import NatRelay.Proofs.Allocation.Serving

/-! Sweeping is a matter of memory alone. Main statement: `run_sweep`, that no later operation for
live allocations can tell whether a sweep came before it. A sweep cuts just where the operations
stop looking: an allocation and a permission at their end, a binding at the end of its guard. -/
namespace NatRelay

namespace Assoc
variable {α β : Type} [DecidableEq α]

theorem filter_put_filter (m : Assoc α β) (k : α) (v : β) (p : α × β → Bool) :
    (Assoc.put (m.filter p) k v).filter p = (m.put k v).filter p := by
  have hremove : (Assoc.remove (m.filter p) k).filter p = (m.remove k).filter p := by
    simp only [remove, List.filter_filter]
    apply List.filter_congr
    intro e _
    cases p e <;> simp
  rw [put, put, List.filter_cons, List.filter_cons, hremove]

/-- A change at a key is the same before and after a filter that keeps what is there. -/
theorem filter_mapAt_filter (m : Assoc α β) (k : α) (f : β → β) (p : α × β → Bool)
    (hk : ∀ e ∈ m, e.1 = k → p e) :
    (Assoc.mapAt (m.filter p) k f).filter p = (m.mapAt k f).filter p := by
  induction m with
  | nil => rfl
  | cons e m ih =>
    obtain ⟨hhead, hk⟩ := List.forall_mem_cons.1 hk
    have ih := ih hk
    cases hp : p e with
    | true =>
      rw [List.filter_cons_of_pos hp]
      simp only [mapAt, List.map_cons, List.filter_cons] at ih ⊢
      rw [ih]
    | false =>
      have hne : e.1 ≠ k := by
        intro heq
        rw [hhead heq] at hp
        cases hp
      rw [List.filter_cons_of_neg (by simp [hp]), ih]
      simp only [mapAt, List.map_cons, if_neg hne]
      rw [List.filter_cons_of_neg (by simp [hp])]

end Assoc

namespace Allocation
variable {a b : Allocation} {w now : Time}

/-- Permissions and channels have one entry for each peer IP and each number. -/
structure Keyed (a : Allocation) : Prop where
  permissions : a.permissions.keys.Nodup
  channels : a.channels.keys.Nodup

namespace Keyed

theorem permit (h : a.Keyed) (ip : Ip) (until_ : Time) : (a.permit ip until_).Keyed :=
  ⟨Assoc.nodup_keys_put h.permissions _ _, h.channels⟩

theorem bind (h : a.Keyed) (number : UInt16) (peer : Endpoint) (until_ : Time) :
    (a.bind number peer until_).Keyed :=
  ⟨h.permissions, Assoc.nodup_keys_put (Assoc.nodup_keys_filter h.channels _) _ _⟩

theorem extend (h : a.Keyed) (number : UInt16) (until_ : Time) :
    (a.extend number until_).Keyed := by
  refine ⟨h.permissions, ?_⟩
  rw [Allocation.extend, Assoc.keys_mapAt]
  exact h.channels

theorem prune (h : a.Keyed) (w : Time) : (a.prune w).Keyed :=
  ⟨Assoc.nodup_keys_filter h.permissions _, Assoc.nodup_keys_filter h.channels _⟩

end Keyed

/-! ### What pruning does not change -/

theorem prune_prune (a : Allocation) (w : Time) : (a.prune w).prune w = a.prune w := by
  simp [prune, List.filter_filter]

theorem isGuarded_of_active {c : Channel} (hle : w ≤ now) (h : now < c.expiresAt) :
    c.isGuarded w := by
  simp only [Channel.isGuarded, gt_iff_lt, decide_eq_true_iff, Time] at *
  omega

theorem lookup_channels_prune (h : a.Keyed) (hle : w ≤ now) (number : UInt16) :
    ((a.prune w).channels.lookup number).filter (now < ·.expiresAt) =
      (a.channels.lookup number).filter (now < ·.expiresAt) := by
  have hlookup : (a.prune w).channels.lookup number =
      (a.channels.lookup number).filter (·.isGuarded w) := Assoc.lookup_filter h.channels _
  rw [hlookup, Option.filter_filter]
  congr 1
  funext c
  by_cases hlive : now < c.expiresAt
  · simp [hlive, isGuarded_of_active hle hlive]
  · simp [hlive]

theorem isBound_prune (h : a.Keyed) (hle : w ≤ now) (number : UInt16) (peer : Endpoint) :
    (a.prune w).isBound number peer now = a.isBound number peer now := by
  have hbound (a : Allocation) : a.isBound number peer now =
      ((a.channels.lookup number).filter (now < ·.expiresAt)).any (·.peer = peer) := by
    rw [isBound, Option.any_filter]
    congr 1
    funext c
    exact Bool.and_comm _ _
  rw [hbound, hbound, lookup_channels_prune h hle]

theorem clashes_prune (a : Allocation) (hle : w ≤ now) (number : UInt16) (peer : Endpoint) :
    Table.clashes (a.prune w) number peer now = Table.clashes a number peer now := by
  rw [Table.clashes, Table.clashes, prune, List.any_filter]
  congr 1
  funext e
  by_cases hguard : now < e.2.expiresAt + channelGuard
  · have hguard' : w < e.2.expiresAt + channelGuard := Nat.lt_of_le_of_lt hle hguard
    simp [Channel.isGuarded, hguard, hguard']
  · simp [Channel.isGuarded, hguard]

theorem path?_prune (h : a.Keyed) (hle : w ≤ now) (peer : Endpoint) :
    (a.prune w).path? peer now = a.path? peer now := by
  have hchannel : (a.prune w).channelForPeer peer now = a.channelForPeer peer now := by
    rw [channelForPeer, channelForPeer, prune, List.find?_filter]
    congr 2
    funext e
    by_cases hlive : now < e.2.expiresAt
    · simp [hlive, isGuarded_of_active hle hlive]
    · simp [hlive]
  rw [path?, path?, hchannel, isPermitted_prune h.permissions _ hle]

/-- A permission that a sweep drops would end before the new one does. -/
theorem permit_prune (h : a.Keyed) {until_ : Time} (hle : w ≤ until_) (ip : Ip) :
    ((a.prune w).permit ip until_).prune w = (a.permit ip until_).prune w := by
  simp only [permit, prune, Assoc.lookup_filter h.permissions]
  cases a.permissions.lookup ip with
  | none =>
    simp only [Option.filter_none, Assoc.filter_put_filter, List.filter_filter, Bool.and_self]
  | some old =>
    by_cases hlive : w < old
    · simp only [Option.filter_some, gt_iff_lt, hlive, decide_true, if_true,
        Assoc.filter_put_filter, List.filter_filter, Bool.and_self]
    · have hmax : max old until_ = until_ := Nat.max_eq_right (by simp only [Time] at *; omega)
      simp only [Option.filter_some, gt_iff_lt, hlive, decide_false, Bool.false_eq_true, if_false,
        hmax, Assoc.filter_put_filter, List.filter_filter, Bool.and_self]

theorem bind_prune (a : Allocation) (w until_ : Time) (number : UInt16) (peer : Endpoint) :
    ((a.prune w).bind number peer until_).prune w = (a.bind number peer until_).prune w := by
  have hothers : (a.prune w).channels.filter (fun e => e.2.peer ≠ peer) =
      (a.channels.filter fun e => e.2.peer ≠ peer).filter fun e => e.2.isGuarded w := by
    simp only [prune, List.filter_filter, Bool.and_comm]
  have hput := Assoc.filter_put_filter (a.channels.filter fun e => e.2.peer ≠ peer) number
    ⟨peer, until_⟩ fun e => e.2.isGuarded w
  rw [Allocation.bind, hothers, Allocation.bind]
  simp only [prune, hput]
  simp only [List.filter_filter, Bool.and_self]

theorem extend_prune (h : a.Keyed) {number : UInt16} {c : Channel}
    (hc : a.channels.lookup number = some c) (hguard : c.isGuarded w) (until_ : Time) :
    ((a.prune w).extend number until_).prune w = (a.extend number until_).prune w := by
  have hkept : ∀ e ∈ a.channels, e.1 = number → e.2.isGuarded w := by
    rintro ⟨_, c'⟩ he rfl
    rw [Assoc.lookup_of_mem h.channels he] at hc
    rwa [Option.some.inj hc]
  have hchannels := Assoc.filter_mapAt_filter a.channels number
    (fun c => { c with expiresAt := until_ }) (fun e => e.2.isGuarded w) hkept
  simp only [extend, prune, List.filter_filter, Bool.and_self, hchannels]

end Allocation

namespace Table
open Allocation (Keyed)

/-- The operations of clients and peers on what is there. -/
def Op.isTraffic : Op → Bool
  | .find _ | .refresh .. | .createPermission .. | .bindChannel .. | .permitSend .. |
    .channelPeer .. | .inboundRoute .. => true
  | .create .. | .delete _ | .sweep | .removeUser _ => false

/-- A reply without what ended by the given time. -/
def Reply.prune (w : Time) : Reply → Reply
  | .allocation a => .allocation (a.prune w)
  | reply => reply

end Table

namespace Allocation
open Table (Op Reply)
variable {a b : Allocation} {w now : Time}

/-- Pruned or not, an allocation is served in the same way. -/
theorem serve_prune (h : a.Keyed) (hle : w ≤ now) (o : AllocationOptions) (op : Op) :
    ((a.prune w).serve o op now).1.prune w = (a.serve o op now).1.prune w ∧
      ((a.prune w).serve o op now).2.prune w = (a.serve o op now).2.prune w := by
  have hlater (d : Duration) : w ≤ now + d := Nat.le_trans hle (Nat.le_add_right _ _)
  have hfamily : (a.prune w).family = a.family := rfl
  have hrelay : (a.prune w).relay = a.relay := rfl
  have hpermitted (ip : Ip) := isPermitted_prune h.permissions ip hle
  cases op with
  | create | find | delete | sweep | inboundRoute | removeUser =>
    exact ⟨congrArg Reply.allocation (prune_prune a w), prune_prune a w⟩
  | refresh _ lifetime =>
    refine ⟨rfl, ?_⟩
    simp [serve, renew, prune, List.filter_filter]
  | createPermission _ peer =>
    simp only [serve, hfamily, hpermitted]
    split
    · exact ⟨rfl, prune_prune a w⟩
    · exact ⟨rfl, permit_prune h (hlater _) peer⟩
  | bindChannel _ number peer =>
    simp only [serve, hfamily, clashes_prune a hle, isBound_prune h hle]
    split
    · exact ⟨rfl, prune_prune a w⟩
    split
    · exact ⟨rfl, prune_prune a w⟩
    · refine ⟨rfl, ?_⟩
      rw [← permit_prune ((h.prune w).bind ..) (hlater _), bind_prune,
        permit_prune (h.bind ..) (hlater _)]
  | permitSend _ peer =>
    simp only [serve, hrelay, hpermitted]
    split
    · exact ⟨rfl, permit_prune h (hlater _) peer.ip⟩
    · exact ⟨rfl, prune_prune a w⟩
  | channelPeer _ number =>
    simp only [serve, hrelay, lookup_channels_prune h hle]
    split
    · rename_i c hfound
      obtain ⟨hc, hlive⟩ := Option.filter_eq_some_iff.1 hfound
      have hguard := isGuarded_of_active hle (of_decide_eq_true hlive)
      refine ⟨rfl, ?_⟩
      rw [← permit_prune ((h.prune w).extend ..) (hlater _), extend_prune h hc hguard,
        permit_prune (h.extend ..) (hlater _)]
    · exact ⟨rfl, prune_prune a w⟩

/-- So are two that differ in what pruning takes away. -/
theorem serve_congr (ha : a.Keyed) (hb : b.Keyed) (h : a.prune w = b.prune w) (hle : w ≤ now)
    (o : AllocationOptions) (op : Op) :
    (a.serve o op now).1.prune w = (b.serve o op now).1.prune w ∧
      (a.serve o op now).2.prune w = (b.serve o op now).2.prune w := by
  obtain ⟨hreply, hafter⟩ := serve_prune ha hle o op
  obtain ⟨hreply', hafter'⟩ := serve_prune hb hle o op
  rw [h] at hreply hafter
  exact ⟨hreply.symm.trans hreply', hafter.symm.trans hafter'⟩

end Allocation

namespace Table
variable {t t' : Table} {ft : FiveTuple} {w now : Time} {op : Op} {reply : Reply}

/-- Every allocation of a table has its permissions and channels once. -/
def Keyed (t : Table) : Prop := ∀ e ∈ t.entries, e.2.Keyed

namespace Keyed

theorem lookup (h : t.Keyed) {a : Allocation} (ha : t.entries.lookup ft = some a) : a.Keyed :=
  h _ (Assoc.mem_of_lookup ha)

theorem keep (h : t.Keyed) (p : FiveTuple × Allocation → Bool) : (t.keep p).Keyed :=
  fun e he => h e (List.mem_of_mem_filter he)

theorem update (h : t.Keyed) (ft : FiveTuple) {f : Allocation → Allocation}
    (hf : ∀ a : Allocation, a.Keyed → (f a).Keyed) : (t.update ft f).Keyed := by
  intro e he
  obtain ⟨d, hd, rfl⟩ := List.mem_map.1 he
  by_cases hft : d.1 = ft
  · simpa [hft] using hf _ (h d hd)
  · simpa [hft] using h d hd

theorem step (h : t.Keyed) (hstep : t.Step now op reply t') : t'.Keyed := by
  cases hstep with
  | idle => exact h
  | create hcreated =>
    intro e he
    rw [hcreated.table] at he
    rcases List.mem_cons.1 he with rfl | he
    · rw [hcreated.built]
      exact ⟨List.nodup_nil, List.nodup_nil⟩
    · exact h.keep _ e he
  | delete | removeUser => exact h.keep _
  | sweep =>
    intro e he
    obtain ⟨d, hd, rfl⟩ := List.mem_map.1 he
    exact (h.keep _ d hd).prune now
  | refresh => exact h.update _ fun _ ha => ⟨ha.permissions, ha.channels⟩
  | createPermission | permitSend => exact h.update _ fun _ ha => ha.permit ..
  | bindChannel => exact h.update _ fun _ ha => (ha.bind ..).permit ..
  | channelPeer => exact h.update _ fun _ ha => (ha.extend ..).permit ..

theorem run (h : t.Keyed) (c : t.Consistent) (ops : List (Op × Time)) : (t.run ops).2.Keyed := by
  induction ops generalizing t with
  | nil => exact h
  | cons o ops ih =>
    have hrule := step_rule c o.1 o.2
    exact ih (h.step hrule) (hrule.consistent c)

end Keyed

/-- What is left of an entry by a sweep. -/
def shade (w : Time) (entry : Option Allocation) : Option Allocation :=
  (entry.filter (!·.isExpired w)).map (·.prune w)

theorem shade_shade (w : Time) (entry : Option Allocation) :
    shade w (shade w entry) = shade w entry := by
  cases entry with
  | none => rfl
  | some a =>
    by_cases hexpired : a.isExpired w
    · simp [shade, hexpired, Option.filter_some]
    · have hexpired' : ¬ (a.prune w).isExpired w := hexpired
      simp [shade, hexpired, hexpired', Option.filter_some, Allocation.prune_prune]

theorem shade_some_congr {a b : Allocation} (h : a.prune w = b.prune w) :
    shade w (some a) = shade w (some b) := by
  have hends : a.isExpired w = b.isExpired w := congrArg (·.isExpired w) h
  simp [shade, Option.filter_some, hends, h]

/-- Tables that a sweep at the given time would make alike. -/
structure Alike (w : Time) (t t' : Table) : Prop where
  consistent : t.Consistent
  consistent' : t'.Consistent
  keyed : t.Keyed
  keyed' : t'.Keyed
  options : t'.options = t.options
  lookup : ∀ ft, shade w (t'.entries.lookup ft) = shade w (t.entries.lookup ft)

namespace Alike

/-- What is live later is live at the sweep. -/
theorem map_prune_find? (t : Table) (ft : FiveTuple) (hle : w ≤ now) :
    (t.find? ft now).map (·.prune w) =
      (shade w (t.entries.lookup ft)).filter (!·.isExpired now) := by
  rw [Table.find?]
  cases t.entries.lookup ft with
  | none => rfl
  | some a =>
    by_cases hlive : now < a.expiresAt
    · have hlive' : w < a.expiresAt := Nat.lt_of_le_of_lt hle hlive
      simp [shade, Option.filter_some, Allocation.isExpired, Allocation.prune, hlive, hlive']
    · by_cases hlive' : w < a.expiresAt <;>
        simp [shade, Option.filter_some, Allocation.isExpired, Allocation.prune, hlive, hlive']

theorem find? (h : Alike w t t') (ft : FiveTuple) (hle : w ≤ now) :
    (t'.find? ft now).map (·.prune w) = (t.find? ft now).map (·.prune w) := by
  rw [map_prune_find? t' ft hle, map_prune_find? t ft hle, h.lookup]

theorem symm (h : Alike w t t') : Alike w t' t :=
  ⟨h.consistent', h.consistent, h.keyed', h.keyed, h.options.symm, fun ft => (h.lookup ft).symm⟩

theorem find?_eq_some (h : Alike w t t') (hle : w ≤ now) {a : Allocation}
    (ha : t.find? ft now = some a) : ∃ b, t'.find? ft now = some b ∧ b.prune w = a.prune w := by
  have hfind := h.find? ft hle
  rw [ha, Option.map_some, Option.map_eq_some_iff] at hfind
  exact hfind

theorem inboundRoute (h : Alike w t t') (hle : w ≤ now) (relay peer : Endpoint) :
    t'.inboundRoute relay peer now = t.inboundRoute relay peer now := by
  have hroute {t t' : Table} (h : Alike w t t') {r : Route}
      (hr : t.inboundRoute relay peer now = some r) : t'.inboundRoute relay peer now = some r := by
    obtain ⟨a, ha, hrelay, hpath⟩ := h.consistent.inboundRoute_eq_some.1 hr
    obtain ⟨b, hb, hprune⟩ := h.find?_eq_some hle ha
    have hrelay' : b.relay = a.relay := congrArg (·.relay) hprune
    have hpath' : b.path? peer now = a.path? peer now := by
      rw [← Allocation.path?_prune (h.keyed.lookup (Table.find?_eq_some.1 ha).1) hle, ← hprune,
        Allocation.path?_prune (h.keyed'.lookup (Table.find?_eq_some.1 hb).1) hle]
    exact h.consistent'.inboundRoute_eq_some.2
      ⟨b, hb, hrelay'.trans hrelay, hpath'.trans hpath⟩
  exact Option.ext fun r => ⟨hroute h.symm, hroute h⟩

theorem serves (h : Alike w t t') (hop : op.serves = some ft) (hle : w ≤ now) :
    (t'.step op now).1.prune w = (t.step op now).1.prune w ∧
      ∀ ft', shade w ((t'.step op now).2.entries.lookup ft') =
        shade w ((t.step op now).2.entries.lookup ft') := by
  cases hfind : t.find? ft now with
  | none =>
    have hfind' := h.find? ft hle
    rw [hfind, Option.map_none, Option.map_eq_none_iff] at hfind'
    rw [step_of_find?_eq_none hop hfind, step_of_find?_eq_none hop hfind']
    exact ⟨rfl, h.lookup⟩
  | some a =>
    obtain ⟨b, hfind', hprune⟩ := h.find?_eq_some hle hfind
    obtain ⟨hreply, hlookup⟩ := step_of_find?_eq_some hop hfind
    obtain ⟨hreply', hlookup'⟩ := step_of_find?_eq_some hop hfind'
    obtain ⟨hreplies, hafter⟩ := Allocation.serve_congr
      (h.keyed'.lookup (Table.find?_eq_some.1 hfind').1)
      (h.keyed.lookup (Table.find?_eq_some.1 hfind).1) hprune hle t.options op
    rw [h.options] at hreply' hlookup'
    refine ⟨by rw [hreply', hreply, hreplies], fun ft' => ?_⟩
    by_cases hne : ft' = ft
    · rw [hne, hlookup, hlookup']
      exact shade_some_congr hafter
    · have hft := Op.fiveTuple?_of_serves hop
      rw [(step_rule h.consistent op now).lookup_of_other hft hne,
        (step_rule h.consistent' op now).lookup_of_other hft hne, h.lookup]

theorem step (h : Alike w t t') (hop : op.isTraffic) (hle : w ≤ now) :
    (t'.step op now).1.prune w = (t.step op now).1.prune w ∧
      Alike w (t.step op now).2 (t'.step op now).2 := by
  have hserved {ft : FiveTuple} (hserves : op.serves = some ft) :
      (t'.step op now).1.prune w = (t.step op now).1.prune w ∧
        Alike w (t.step op now).2 (t'.step op now).2 := by
    obtain ⟨hreply, hlookup⟩ := h.serves hserves hle
    have hrule := step_rule h.consistent op now
    have hrule' := step_rule h.consistent' op now
    refine ⟨hreply, hrule.consistent h.consistent, hrule'.consistent h.consistent',
      h.keyed.step hrule, h.keyed'.step hrule', ?_, hlookup⟩
    rw [hrule'.sameTerms.options, hrule.sameTerms.options, h.options]
  cases op with
  | create | delete | sweep | removeUser => cases hop
  | find | refresh | createPermission | bindChannel | permitSend | channelPeer =>
    exact hserved rfl
  | inboundRoute relay peer =>
    rw [step_inboundRoute, step_inboundRoute, h.inboundRoute hle]
    exact ⟨rfl, h⟩

theorem run (h : Alike w t t') {ops : List (Op × Time)}
    (hops : ∀ o ∈ ops, o.1.isTraffic ∧ w ≤ o.2) :
    (t'.run ops).1.map (Reply.prune w) = (t.run ops).1.map (Reply.prune w) := by
  induction ops generalizing t t' with
  | nil => rfl
  | cons o ops ih =>
    obtain ⟨op, now⟩ := o
    obtain ⟨⟨hop, hle⟩, hops⟩ := List.forall_mem_cons.1 hops
    obtain ⟨hreply, halike⟩ := h.step hop hle
    simp only [Table.run, List.map_cons, hreply, ih halike hops]

end Alike

/-- A sweep makes its own table no different. -/
theorem alike_sweep (c : t.Consistent) (k : t.Keyed) (w : Time) : Alike w t (t.sweep w).2 := by
  have hrule := step_rule c .sweep w
  refine ⟨c, hrule.consistent c, k, k.step hrule, hrule.sameTerms.options, fun ft => ?_⟩
  rw [c.sweep_eq]
  dsimp only
  rw [lookup_mapValues, c.lookup_keep]
  exact shade_shade w _

/-- Whether or not a reachable table is swept, later traffic gets the same answers, but for what had
ended by the sweep in an allocation that is looked up. -/
theorem run_sweep (options : AllocationOptions) (addresses : List Ip) (first last : UInt16)
    (before : List (Op × Time)) (w : Time) {ops : List (Op × Time)}
    (h : ∀ o ∈ ops, o.1.isTraffic ∧ w ≤ o.2) :
    let t := (run { options, pool := .make addresses first last } before).2
    ((t.sweep w).2.run ops).1.map (Reply.prune w) = (t.run ops).1.map (Reply.prune w) := by
  intro t
  have c₀ := consistent_empty options addresses first last
  have c : t.Consistent := (run_consistent c₀ before).1
  have k : t.Keyed := Keyed.run (by simp [Keyed]) c₀ before
  exact (alike_sweep c k w).run h

/-- A sweep just when a permission ends and a channel number stops being tied: both are dropped, and
the number goes to another peer whether or not there was a sweep. -/
theorem run_sweep_at_guard :
    let t₀ : Table := { options := {}, pool := .make [.v4 0x0a000001] 49152 49153 }
    let ft : FiveTuple := .udp (.v4 0xc0000201 5000) (.v4 0xc0000202 3478)
    let before : List (Op × Time) :=
      [(.create ⟨ft, "alice", 7, .v4, some 3600⟩ 0, 0),
        (.bindChannel ft 0x4000 (.v4 0xc0000203 9), 0),
        (.createPermission ft (.v4 0xc0000204), 600000)]
    let ops : List (Op × Time) :=
      [(.find ft, 900000), (.permitSend ft (.v4 0xc0000204 9), 900000),
        (.bindChannel ft 0x4000 (.v4 0xc0000205 9), 900000), (.channelPeer ft 0x4000, 900001)]
    let t := (t₀.run before).2
    let swept := (t.sweep 900000).2
    swept.entries ≠ t.entries ∧ (∀ o ∈ ops, o.1.isTraffic ∧ 900000 ≤ o.2) ∧
      (swept.run ops).1.map (Reply.prune 900000) = (t.run ops).1.map (Reply.prune 900000) ∧
      (t.run ops).1.drop 1 =
        [.nothing, .fresh true, .path (.v4 0x0a000001 49152) (.v4 0xc0000205 9)] := by
  intro t₀ ft before ops t swept
  have hops : ∀ o ∈ ops, o.1.isTraffic ∧ 900000 ≤ o.2 := by decide +kernel
  have hswept := run_sweep {} [.v4 0x0a000001] 49152 49153 before 900000 hops
  exact ⟨by decide +kernel, hops, hswept, by decide +kernel⟩

end Table
end NatRelay
