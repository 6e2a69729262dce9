import NatRelay.Proofs.Allocation.Tenure
import NatRelay.Proofs.Service.Permitting

/-! One allocation, however often it is asked for. Main statement: `run_allocates_once`, that of the
Allocates of a five-tuple, in whatever order their lookups end, one gets an allocation and the
others are told of it, until it expires or the host hears that it is gone. For no step puts another
allocation in the place of a live one (`step_tenancy`), and none takes it away in silence. -/
namespace NatRelay

namespace Allocation
variable {a b c : Allocation}

theorem SameTenant.trans (h : a.SameTenant b) (h' : b.SameTenant c) : a.SameTenant c :=
  ⟨h'.username.trans h.username, h'.relay.trans h.relay, h'.tid.trans h.tid,
    h'.createdAt.trans h.createdAt⟩

theorem sameTenant_permitEach (a : Allocation) (ips : List Ip) (until_ : Time) :
    a.SameTenant (a.permitEach ips until_) := by
  rw [permitEach_eq]
  exact ⟨rfl, rfl, rfl, rfl⟩

end Allocation

namespace Table
variable {t t' : Table} {ft : FiveTuple}

/-- The five-tuple has the allocation that it had, or it has lost it. -/
def SameTenancy (ft : FiveTuple) (t t' : Table) : Prop :=
  ∀ a b, t.entries.lookup ft = some a → t'.entries.lookup ft = some b → a.SameTenant b

theorem SameTenancy.of_lookup (h : t'.entries.lookup ft = t.entries.lookup ft) :
    t.SameTenancy ft t' := by
  intro a b ha hb
  rw [h, ha] at hb
  obtain rfl := Option.some.inj hb
  exact .refl a

theorem SameTenancy.refl (ft : FiveTuple) (t : Table) : t.SameTenancy ft t := .of_lookup rfl

theorem SameTenancy.of_gone (h : t'.entries.lookup ft = none) : t.SameTenancy ft t' := by
  intro a b _ hb
  cases h.symm.trans hb

theorem sameTenancy_update (t : Table) (ft ft' : FiveTuple) {f : Allocation → Allocation}
    (hf : ∀ a : Allocation, a.SameTenant (f a)) : t.SameTenancy ft (t.update ft' f) := by
  intro a b ha hb
  rw [lookup_update, ha] at hb
  split at hb
  · obtain rfl := Option.some.inj hb
    exact hf a
  · obtain rfl := Option.some.inj hb
    exact .refl a

/-- An allocation that the host does not hear the end of is still there. -/
theorem Turnover.exists_lookup {es : List Event} (h : t.Turnover es t') (c : t.Consistent)
    {a : Allocation} (ha : t.entries.lookup ft = some a)
    (hopen : ∀ event ∈ es, event.closed? ≠ some a.relay) :
    ∃ b, t'.entries.lookup ft = some b := by
  have howner : (a.relay, ft) ∈ t.owners := mem_owners.2 ⟨a, Assoc.mem_of_lookup ha, rfl⟩
  have hfound (c' : t'.Consistent) (howner : (a.relay, ft) ∈ t'.owners) :
      ∃ b, t'.entries.lookup ft = some b := by
    obtain ⟨b, hb, -⟩ := mem_owners.1 howner
    exact ⟨b, Assoc.lookup_of_mem c'.keys_nodup hb⟩
  have c' := h.consistent c
  cases h with
  | kept _ _ hsame => exact hfound c' (hsame.owners ▸ howner)
  | @opened r _ b _ _ _ hcreated =>
    rw [hcreated.lookup]
    split
    · exact ⟨b, rfl⟩
    · exact ⟨a, ha⟩
  | closed p _ _ hclosed hsame =>
    have hkept : p (ft, a) = true := by
      by_contra hdropped
      have hmem : (ft, a) ∈ t.entries := Assoc.mem_of_lookup ha
      refine forall_closed?_ne.1 hopen ((hclosed a.relay).2 ⟨_, hmem, ?_, rfl⟩)
      exact Bool.eq_false_iff.2 hdropped
    refine hfound c' (hsame.owners ▸ mem_owners.2 ⟨a, ?_, rfl⟩)
    exact List.mem_filter.2 ⟨Assoc.mem_of_lookup ha, hkept⟩

end Table

theorem Request.Effect.tenancy {r : Request} {t : Table} {offset : Nat} {now : Time} {d : Decision}
    (h : r.Effect t offset now d) {ft : FiveTuple} {a : Allocation}
    (hlive : t.find? ft now = some a) : t.SameTenancy ft d.table := by
  by_cases hft : ft = r.fiveTuple
  · subst hft
    cases h with
    | refused | repeated | gone => exact .refl _ t
    | created hnone => cases hnone.symm.trans hlive
    | released _ hdelete =>
      obtain ⟨b, -, heq⟩ := Option.map_eq_some_iff.1 hdelete
      obtain ⟨-, rfl⟩ := Prod.mk.inj heq
      exact .of_gone (Assoc.lookup_remove_self _ _)
    | extended _ hrefresh =>
      obtain ⟨b, -, rfl⟩ := Table.refresh_eq_ok.1 hrefresh
      exact t.sameTenancy_update _ _ fun _ => ⟨rfl, rfl, rfl, rfl⟩
    | permitted howned hjudged hpermit =>
      rw [permitAll_of_eligible (owned_eq_ok.1 howned).1
        fun peer hpeer => objection?_eq_none.1 (hjudged peer hpeer)] at hpermit
      rw [← (Prod.mk.inj hpermit).2]
      exact t.sameTenancy_update _ _ fun b => b.sameTenant_permitEach _ _
    | bound _ _ hbind =>
      obtain ⟨b, -, -, -, -, rfl⟩ := Table.bindChannel_eq_ok.1 hbind
      exact t.sameTenancy_update _ _ fun _ => ⟨rfl, rfl, rfl, rfl⟩
  · exact .of_lookup (h.confined.others ft hft)

namespace Service
variable {s : Service} {i : Interface} {bytes : Bytes} {addr : Endpoint} {now : Time}
  {ft : FiveTuple} {a : Allocation}

theorem Receipt.tenancy {draw : Draw} {o : Outcome Progress} (h : s.Receipt i bytes addr draw now o)
    (ft : FiveTuple) : s.table.SameTenancy ft o.service.table := by
  cases h with
  | malformed | unanswered | misunderstood | observed | refused | asks => exact .refl _ _
  | sent _ _ _ _ _ hsend =>
    obtain ⟨b, -, -, -, rfl⟩ := Table.permitSend_eq_some.1 hsend
    exact s.table.sameTenancy_update _ _ fun _ => ⟨rfl, rfl, rfl, rfl⟩
  | sentOnChannel _ hchannel =>
    obtain ⟨b, _, -, -, -, -, -, rfl⟩ := Table.channelPeer_eq_some.1 hchannel
    exact s.table.sameTenancy_update _ _ fun _ => ⟨rfl, rfl, rfl, rfl⟩

theorem Settlement.tenancy {p : PendingRequest} {password? : Option String} {draw : Draw}
    {o : Outcome (Except Stun.Error (Option Response))} (h : s.Settlement p password? draw now o)
    (hlive : s.table.find? ft now = some a) : s.table.SameTenancy ft o.service.table := by
  cases h with
  | refused => exact .refl _ _
  | accepted _ _ heffect => exact heffect.tenancy hlive

/-- No step puts another allocation in the place of one that is live when the step ends. -/
theorem step_tenancy (c : s.table.Consistent) (op : Op)
    (hlive : s.table.find? ft (op.ends s now) = some a) :
    s.table.SameTenancy ft (s.step op now).service.table := by
  cases op with
  | process login i bytes addr draw draw' =>
    change s.table.SameTenancy ft (s.process login i bytes addr draw draw' now).service.table
    rw [Op.ends] at hlive
    rw [process]
    cases hanswer : (s.receive i bytes addr draw now).answer with
    | done result => exact (s.receive_receipt i bytes addr draw now).tenancy ft
    | asks p =>
      simp only [hanswer] at hlive
      dsimp only
      rw [(receive_asks hanswer).1]
      exact (resume_settlement ..).tenancy hlive
  | receive i bytes addr draw => exact (s.receive_receipt i bytes addr draw now).tenancy ft
  | resume p password? draw => exact (s.resume_settlement p password? draw now).tenancy hlive
  | relayInbound => exact .refl _ _
  | sweep =>
    change s.table.SameTenancy ft (s.table.sweep now).2
    rw [c.sweep_eq]
    intro a b ha hb
    rw [Table.lookup_mapValues, c.lookup_keep, ha] at hb
    obtain ⟨_, hkept, rfl⟩ := Option.map_eq_some_iff.1 hb
    obtain rfl := Option.some.inj (Option.filter_eq_some_iff.1 hkept).1
    exact ⟨rfl, rfl, rfl, rfl⟩
  | removeUser username =>
    change s.table.SameTenancy ft (s.table.removeUser username).2
    rw [c.removeUser_eq]
    intro a b ha hb
    rw [c.lookup_keep, ha] at hb
    obtain rfl := Option.some.inj (Option.filter_eq_some_iff.1 hb).1
    exact .refl a

/-- The five-tuple's allocation has not expired when any of the operations ends, and of none of them
the host hears that the relayed address is given back. -/
def Undisturbed (s : Service) (ft : FiveTuple) (relay : Endpoint) : List (Op × Time) → Prop
  | [] => True
  | (op, now) :: rest =>
    (s.table.entries.lookup ft).all (!·.isExpired (op.ends s now)) ∧
      (∀ event ∈ (s.step op now).events, event.closed? ≠ some relay) ∧
      (s.step op now).service.Undisturbed ft relay rest

instance decidableUndisturbed (s : Service) (ft : FiveTuple) (relay : Endpoint)
    (ops : List (Op × Time)) : Decidable (s.Undisturbed ft relay ops) :=
  match ops with
  | [] => inferInstanceAs (Decidable True)
  | (op, now) :: rest =>
    have := decidableUndisturbed (s.step op now).service ft relay rest
    inferInstanceAs (Decidable (_ ∧ _ ∧ _))

/-- An undisturbed allocation is there all along. -/
theorem Undisturbed.tenant (c : s.table.Consistent) {relay : Endpoint}
    {ops before after : List (Op × Time)} {op : Op} (h : s.Undisturbed ft relay ops)
    (ha : s.table.entries.lookup ft = some a) (hrelay : a.relay = relay)
    (hops : ops = before ++ (op, now) :: after) :
    let mid := (s.run before).service
    ∃ b, mid.table.find? ft (op.ends mid now) = some b ∧ a.SameTenant b := by
  induction before generalizing s a ops with
  | nil =>
    subst hops
    have hlive := h.1
    rw [ha] at hlive
    exact ⟨a, Option.filter_eq_some_iff.2 ⟨ha, hlive⟩, .refl a⟩
  | cons first before ih =>
    subst hops hrelay
    obtain ⟨hlive, hopen, hrest⟩ := h
    rw [ha] at hlive
    have hfound : s.table.find? ft (first.1.ends s first.2) = some a :=
      Option.filter_eq_some_iff.2 ⟨ha, hlive⟩
    have c' := ((s.step_due first.1 first.2).keeps c).1
    obtain ⟨a', ha'⟩ := (s.step_turnover c first.1 first.2).exists_lookup c ha hopen
    have hsame := s.step_tenancy c first.1 hfound a a' ha ha'
    obtain ⟨b, hb, hsame'⟩ := ih c' hrest ha' hsame.relay rfl
    exact ⟨b, hb, hsame.trans hsame'⟩

/-- A step gives the sender of a request an allocation on an address that was free. -/
structure Leases (s : Service) (op : Op) (now : Time) (x : Handed) (relay : Endpoint)
    (out : Outcome Reply) : Prop where
  entry : ∃ a, out.service.table.entries.lookup x.request.fiveTuple = some a ∧ a.relay = relay ∧
    a.tid = x.message.tid ∧ a.username = x.request.username ∧
    out.answer = x.answer s (x.request.granted a now)
  free : relay ∉ s.table.pool.leased
  leased : relay ∈ out.service.table.pool.leased
  events : out.events = op.announces x ++
    [.allocationCreated x.request.addr x.request.username relay.port relay]

/-- A step tells the sender of a request of the allocation on `relay` if it is the one that was made
for the transaction ID and the user of the request, and of a mismatch else; that is all it does. -/
structure Repeats (s : Service) (op : Op) (now : Time) (x : Handed) (relay : Endpoint)
    (tid : Stun.TransactionId) (username : String) (out : Outcome Reply) : Prop where
  service : out.service = s
  events : out.events = op.announces x
  granted : x.message.tid = tid ∧ x.request.username = username →
    ∃ b, s.table.find? x.request.fiveTuple now = some b ∧ b.relay = relay ∧
      out.answer = x.answer s (x.request.granted b now)
  refused : ¬ (x.message.tid = tid ∧ x.request.username = username) →
    out.answer = x.answer s (.refuse .allocationMismatch)
  sent : s.HasRoom → ∃ response, out.answer = .result (.ok (some response))

theorem decide_allocate {x : Handed} (hmethod : x.message.method = .allocate) (t : Table) :
    x.decide t now = x.request.allocate t x.draw.portOffset now := by
  rw [Handed.decide, Request.decide]
  change x.request.message.method = .allocate at hmethod
  rw [hmethod]

/-- Of all that an Allocate can come to, only a new allocation is announced as one. -/
theorem leases_of_created {op : Op} {x : Handed} (c : s.table.Consistent)
    (h : op.handed? s now = some x)
    (hcreated : ∃ event ∈ (s.step op now).events, event.kind = .allocationCreated) :
    ∃ relay, s.Leases op (op.ends s now) x relay (s.step op now) := by
  have heffect := x.request.decide_effect s.table x.draw.portOffset (op.ends s now)
  change x.request.Effect _ _ _ (x.decide s.table (op.ends s now)) at heffect
  rw [step_of_handed h] at hcreated ⊢
  generalize x.decide s.table (op.ends s now) = d at *
  obtain ⟨event, hevent, hkind⟩ := hcreated
  have hevent : event ∈ d.events := by
    refine (List.mem_append.1 hevent).resolve_left fun hannounced => ?_
    cases op with
    | process =>
      obtain rfl := List.mem_singleton.1 hannounced
      cases hkind
    | _ => cases hannounced
  cases heffect with
  | refused | repeated | gone => cases hevent
  | released | extended | bound =>
    obtain rfl := List.mem_singleton.1 hevent
    cases hkind
  | permitted =>
    obtain ⟨peer, -, rfl⟩ := List.mem_map.1 hevent
    cases hkind
  | @created family a t' _ hcreate _ =>
    have hmade := c.created hcreate
    refine ⟨a.relay, ⟨a, ?_, rfl, ?_, ?_, rfl⟩, hmade.free, ?_, rfl⟩
    · rw [hmade.lookup, if_pos rfl]
    · rw [hmade.built]
      rfl
    · rw [hmade.built]
      rfl
    · rw [hmade.table]
      exact List.mem_cons_self

/-- An Allocate of a five-tuple that has a live allocation. -/
theorem repeats_of_found {op : Op} {x : Handed} {b : Allocation} (h : op.handed? s now = some x)
    (hmethod : x.message.method = .allocate)
    (hfound : s.table.find? x.request.fiveTuple (op.ends s now) = some b) :
    s.Repeats op (op.ends s now) x b.relay b.tid b.username (s.step op now) := by
  have hsent := fun hroom : s.HasRoom => hroom.answer x s.table (op.ends s now)
  rw [step_of_handed h]
  rw [decide_allocate hmethod, Request.allocate, hfound] at hsent ⊢
  dsimp only at hsent ⊢
  by_cases hsame : b.tid = x.request.message.tid ∧ b.username = x.request.username
  · rw [if_pos hsame] at hsent ⊢
    exact ⟨rfl, List.append_nil _, fun _ => ⟨b, hfound, rfl, rfl⟩,
      fun hother => absurd ⟨hsame.1.symm, hsame.2.symm⟩ hother, hsent⟩
  · rw [if_neg hsame] at hsent ⊢
    exact ⟨rfl, List.append_nil _, fun hother => absurd ⟨hother.1.symm, hother.2.symm⟩ hsame,
      fun _ => rfl, hsent⟩

/-- Behind every run, once an Allocate has been given an allocation, every later Allocate of the
five-tuple is told of it, or of the mismatch, for as long as it is undisturbed: whenever either of
them came in, and whatever the same client and others do in between. -/
theorem run_allocates_once (o : ServiceOptions) (ops : List (Op × Time)) :
    let s := ((make o).run ops).service
    ∀ op now x, op.handed? s now = some x →
      (∃ event ∈ (s.step op now).events, event.kind = .allocationCreated) →
      ∃ relay, s.Leases op (op.ends s now) x relay (s.step op now) ∧
        ∀ rest, (s.step op now).service.Undisturbed x.request.fiveTuple relay rest →
        ∀ before op' now' after, rest = before ++ (op', now') :: after →
          let s' := ((s.step op now).service.run before).service
          ∀ x', op'.handed? s' now' = some x' → x'.message.method = .allocate →
            x'.request.fiveTuple = x.request.fiveTuple →
            s'.Repeats op' (op'.ends s' now') x' relay x.message.tid x.request.username
              (s'.step op' now') := by
  intro s op now x h hcreated
  have c : s.table.Consistent := (run_sound (make_sound o) ops).table
  have c' := ((s.step_due op now).keeps c).1
  obtain ⟨relay, hleases⟩ := leases_of_created c h hcreated
  refine ⟨relay, hleases, ?_⟩
  intro rest hundisturbed before op' now' after hrest s' x' h' hmethod hft
  obtain ⟨a, ha, rfl, htid, hname, -⟩ := hleases.entry
  obtain ⟨b, hb, hsame⟩ := hundisturbed.tenant c' ha rfl hrest
  rw [← hft] at hb
  have hrepeats := repeats_of_found h' hmethod hb
  rwa [hsame.relay, hsame.tid, hsame.username, htid, hname] at hrepeats

/-- A relay with one address gives it to a client, and tells the client so again when the same
datagram comes a second time. -/
theorem run_allocates_once_repeated :
    let o := sampleOptions (seconds 600)
    let s := ((make o).run [(sampleInquiry, 0)]).service
    let s' := (s.step sampleAllocate 0).service
    ∃ x x' relay, sampleAllocate.handed? s 0 = some x ∧
      (∃ event ∈ (s.step sampleAllocate 0).events, event.kind = .allocationCreated) ∧
      s'.Undisturbed x.request.fiveTuple relay [(sampleAllocate, 1000)] ∧
      sampleAllocate.handed? s' 1000 = some x' ∧ x'.message.method = .allocate ∧
      x'.request.fiveTuple = x.request.fiveTuple ∧ x'.message.tid = x.message.tid ∧
      s.Leases sampleAllocate (sampleAllocate.ends s 0) x relay (s.step sampleAllocate 0) ∧
      s'.Repeats sampleAllocate (sampleAllocate.ends s' 1000) x' relay x.message.tid
        x.request.username (s'.step sampleAllocate 1000) := by
  intro o s s'
  let ft : FiveTuple := .udp sampleClient sampleInterface.listening
  have hready : s.realm = "r" ∧ s.nonces.verify sampleClient "n" 0 := by decide +kernel
  have hfirst := (conveys_allocate.step hready).2
  have hservice : s' = _ := congrArg Outcome.service hfirst
  obtain ⟨hready', hlive⟩ : (s'.realm = "r" ∧ s'.nonces.verify sampleClient "n" 1000) ∧
      (s'.table.entries.lookup ft).all (!·.isExpired 1000) := by
    rw [hservice]
    decide +kernel
  obtain ⟨hends, hsecond⟩ := conveys_allocate.step hready'
  have hcreated : ∃ event ∈ (s.step sampleAllocate 0).events, event.kind = .allocationCreated := by
    rw [hfirst]
    decide +kernel
  have hevents : (s'.step sampleAllocate 1000).events = [.passwordRequested sampleClient "u"] := by
    rw [hsecond, hservice]
    decide +kernel
  obtain ⟨x, h, hrequest⟩ := conveys_allocate.handed hready
  obtain ⟨x', h', hrequest'⟩ := conveys_allocate.handed hready'
  have hft : x.request.fiveTuple = ft := congrArg Request.fiveTuple hrequest
  have hmethod' : x'.message.method = .allocate := congrArg (·.message.method) hrequest'
  have hsame : x'.request = x.request := hrequest'.trans hrequest.symm
  obtain ⟨relay, hleases, hlater⟩ :=
    run_allocates_once o [(sampleInquiry, 0)] sampleAllocate 0 x h hcreated
  -- Rewritten with, these keep the services from being worked out once more.
  have hs : ((make o).run [(sampleInquiry, 0)]).service = s := rfl
  have hs' : (s.step sampleAllocate 0).service = s' := rfl
  have hnil (s : Service) : (s.run []).service = s := rfl
  rw [hs] at hleases hlater
  rw [hs'] at hlater
  have hundisturbed : s'.Undisturbed x.request.fiveTuple relay [(sampleAllocate, 1000)] := by
    refine ⟨?_, ?_, trivial⟩
    · rw [hends, hft]
      exact hlive
    · rw [hevents]
      simp [Event.closed?]
  have hrepeats := hlater _ hundisturbed [] sampleAllocate 1000 [] rfl
  rw [hnil] at hrepeats
  exact ⟨x, x', relay, h, hcreated, hundisturbed, h', hmethod', congrArg Request.fiveTuple hsame,
    congrArg (·.message.tid) hsame, hleases,
    hrepeats x' h' hmethod' (congrArg Request.fiveTuple hsame)⟩

end Service
end NatRelay
