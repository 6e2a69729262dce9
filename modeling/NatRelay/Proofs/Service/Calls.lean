import NatRelay.Proofs.Allocation.Step
import NatRelay.Proofs.Service.Process
import NatRelay.Proofs.Stun.AttributeValue
import NatRelay.Service.Run

/-! The service changes its table by the table's own operations alone, so that what is known of the
runs of a table is known of the table of every service. Main statements: `step_due`, `run_leads`.
What the table does not check of an operation, the service has checked before it asks for it. -/
namespace NatRelay

namespace Table

theorem run_append (t : Table) (xs ys : List (Op × Time)) :
    (t.run (xs ++ ys)).2 = ((t.run xs).2.run ys).2 := by
  induction xs generalizing t with
  | nil => rfl
  | cons x xs ih => exact ih (t.step x.1 x.2).2

/-- Whether an operation is about no forbidden peer, and no number that may not be bound. -/
def Op.isAdmissible : Op → Bool
  | .createPermission _ peer => !Request.isForbidden peer
  | .bindChannel _ number peer => Stun.isChannelNumber number && !Request.isForbidden peer.ip
  | _ => true

/-- The lifetime that an operation lets an allocation start anew with. -/
def Op.renewal? : Op → Option Duration
  | .refresh _ lifetime => some lifetime
  | _ => none

/-- One table comes from another by calls of a kind. -/
def LeadsBy (kind : Op × Time → Prop) (t t' : Table) : Prop :=
  ∃ calls : List (Op × Time), (∀ call ∈ calls, kind call) ∧ t' = (t.run calls).2

/-- One table comes from another by admissible operations. -/
def Leads (t t' : Table) : Prop := t.LeadsBy (·.1.isAdmissible) t'

/-- How the service calls its table: at the present, for an admissible operation, and for no more
time than a request gets that names some lifetime or none. -/
structure IsDue (options : AllocationOptions) (now : Time) (call : Op × Time) : Prop where
  admissible : call.1.isAdmissible
  time : call.2 = now
  lifetime : ∀ lifetime, call.1.renewal? = some lifetime →
    ∃ requested, lifetime = options.desiredLifetime requested

namespace LeadsBy
variable {kind kind' : Op × Time → Prop} {t t₁ t₂ t' : Table}

theorem refl (t : Table) : t.LeadsBy kind t := ⟨[], by simp, rfl⟩

theorem trans (h : t.LeadsBy kind t₁) (h' : t₁.LeadsBy kind t₂) : t.LeadsBy kind t₂ := by
  obtain ⟨xs, hxs, rfl⟩ := h
  obtain ⟨ys, hys, rfl⟩ := h'
  refine ⟨xs ++ ys, ?_, (t.run_append xs ys).symm⟩
  intro call hcall
  rcases List.mem_append.1 hcall with hmem | hmem
  · exact hxs call hmem
  · exact hys call hmem

theorem mono (h : t.LeadsBy kind t') (hkind : ∀ call, kind call → kind' call) :
    t.LeadsBy kind' t' := by
  obtain ⟨calls, hcalls, heq⟩ := h
  exact ⟨calls, fun call hcall => hkind call (hcalls call hcall), heq⟩

/-- One call. -/
theorem single (op : Op) {now : Time} (hop : kind (op, now)) (h : (t.step op now).2 = t') :
    t.LeadsBy kind t' :=
  ⟨[(op, now)], by simpa using hop, h.symm⟩

/-- One call that is no refresh. -/
theorem due {options : AllocationOptions} (op : Op) {now : Time} (hop : op.isAdmissible)
    (hrenewal : op.renewal? = none) (h : (t.step op now).2 = t') :
    t.LeadsBy (IsDue options now) t' :=
  .single op ⟨hop, rfl, by simp [hrenewal]⟩ h

end LeadsBy
end Table

namespace Request
variable {r : Request} {t t' : Table} {now : Time} {offset : Nat} {d : Decision}

theorem isForbidden_of_objection?_eq_none {family : Family} {peer : Endpoint}
    (h : objection? family peer = none) : isForbidden peer.ip = false := by
  rw [objection?] at h
  split at h
  · cases h
  · rename_i hallowed
    exact Bool.eq_false_iff.2 hallowed

theorem permitAll_leads {options : AllocationOptions} {ft : FiveTuple}
    {peers fresh : List Endpoint} (hpeers : ∀ peer ∈ peers, isForbidden peer.ip = false)
    (h : permitAll t ft now peers = (.ok fresh, t')) :
    t.LeadsBy (Table.IsDue options now) t' := by
  induction peers generalizing t fresh with
  | nil =>
    obtain rfl := (Prod.mk.inj h).2
    exact .refl t
  | cons peer peers ih =>
    obtain ⟨hpeer, hpeers⟩ := List.forall_mem_cons.1 hpeers
    rw [permitAll] at h
    split at h
    · cases (Prod.mk.inj h).1
    rename_i isNew t₁ hpermit
    obtain ⟨hfresh, rfl⟩ := Prod.mk.inj h
    obtain ⟨fresh', hfresh', -⟩ := Stun.map_eq_ok.1 hfresh
    have hfirst : t.LeadsBy (Table.IsDue options now) t₁ := by
      have hop : (Table.Op.createPermission ft peer.ip).isAdmissible := by
        simp [Table.Op.isAdmissible, hpeer]
      refine .due (.createPermission ft peer.ip) hop rfl ?_
      rw [Table.step, hpermit]
    exact hfirst.trans (ih hpeers (Prod.ext hfresh' rfl))

/-- What a request does to the table it does by calls that are due. -/
theorem Effect.leads (h : r.Effect t offset now d) :
    t.LeadsBy (Table.IsDue t.options now) d.table := by
  cases h with
  | refused | repeated | gone => exact .refl t
  | @created family a t' _ hcreate =>
    refine .due (.create ⟨r.fiveTuple, r.username, r.message.tid, family,
      r.message.lifetime⟩ offset) rfl rfl ?_
    rw [Table.step, hcreate]
  | released _ hdelete =>
    refine .due (.delete r.fiveTuple) rfl rfl ?_
    rw [Table.step, hdelete]
  | @extended a lifetime t' _ hrefresh hlifetime =>
    refine .single (.refresh r.fiveTuple lifetime) ⟨rfl, rfl, ?_⟩ ?_
    · rintro _ ⟨⟩
      exact ⟨_, hlifetime⟩
    · rw [Table.step, hrefresh]
  | permitted _ hjudged hpermit =>
    refine permitAll_leads (fun peer hpeer => ?_) hpermit
    exact isForbidden_of_objection?_eq_none (hjudged peer (distinctPeers_subset _ hpeer))
  | @bound a number peer isNew t' _ hallowed hbind hnumber =>
    have hop : (Table.Op.bindChannel r.fiveTuple number peer).isAdmissible := by
      simp [Table.Op.isAdmissible, hallowed, hnumber]
    refine .due (.bindChannel r.fiveTuple number peer) hop rfl ?_
    rw [Table.step, hbind]

end Request

namespace Service
variable {s : Service} {i : Interface} {bytes : Bytes} {addr : Endpoint} {now : Time}

theorem Receipt.leads {options : AllocationOptions} {draw : Draw} {o : Outcome Progress}
    (h : s.Receipt i bytes addr draw now o) :
    s.table.LeadsBy (Table.IsDue options now) o.service.table := by
  cases h with
  | malformed | unanswered | misunderstood | observed | refused | asks => exact .refl _
  | @sent r relay peer data t' _ _ _ _ _ hsend =>
    refine .due (.permitSend (.udp addr i.listening) peer) rfl rfl ?_
    rw [Table.step, hsend]
  | @sentOnChannel c relay peer t' _ hchannel =>
    refine .due (.channelPeer (.udp addr i.listening) c.number) rfl rfl ?_
    rw [Table.step, hchannel]

theorem Settlement.leads {p : PendingRequest} {password? : Option String} {draw : Draw}
    {o : Outcome (Except Stun.Error (Option Response))}
    (h : s.Settlement p password? draw now o) :
    s.table.LeadsBy (Table.IsDue s.table.options now) o.service.table := by
  cases h with
  | refused => exact .refl _
  | accepted _ _ heffect => exact heffect.leads

/-- When an operation ends: a request that waits for a password goes on when it is there. -/
def Op.ends (s : Service) (now : Time) : Op → Time
  | .process login i bytes addr draw _ =>
    match (s.receive i bytes addr draw now).answer with
    | .asks p => now + (login.find addr p.username).elapsed
    | .done _ => now
  | _ => now

/-- All calls of a step are made when it ends: nothing is done before a password is there. -/
theorem step_due (s : Service) (op : Op) (now : Time) :
    s.table.LeadsBy (Table.IsDue s.table.options (op.ends s now)) (s.step op now).service.table := by
  cases op with
  | process login i bytes addr draw draw' =>
    change s.table.LeadsBy _ (s.process login i bytes addr draw draw' now).service.table
    rw [process, Op.ends]
    cases hanswer : (s.receive i bytes addr draw now).answer with
    | done result => exact (s.receive_receipt i bytes addr draw now).leads
    | asks p =>
      dsimp only
      rw [(receive_asks hanswer).1]
      exact (resume_settlement ..).leads
  | receive i bytes addr draw => exact (s.receive_receipt i bytes addr draw now).leads
  | resume p password? draw => exact (s.resume_settlement p password? draw now).leads
  | relayInbound => exact .refl _
  | sweep => exact .due (.sweep) rfl rfl rfl
  | removeUser username => exact .due (.removeUser username) rfl rfl rfl

theorem step_leads (s : Service) (op : Op) (now : Time) :
    s.table.Leads (s.step op now).service.table :=
  (s.step_due op now).mono fun _ hcall => hcall.admissible

/-- The table of a service is that of a run of table operations, none of them for a forbidden peer
or a number that may not be bound. -/
theorem run_leads (s : Service) (ops : List (Op × Time)) :
    s.table.Leads (s.run ops).service.table := by
  induction ops generalizing s with
  | nil => exact Table.LeadsBy.refl _
  | cons o ops ih =>
    exact Table.LeadsBy.trans (s.step_leads o.1 o.2) (ih (s.step o.1 o.2).service)

end Service
end NatRelay
