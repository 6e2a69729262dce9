import NatRelay.Proofs.Allocation.Entries
import NatRelay.Proofs.Service.Announcement
import NatRelay.Proofs.Service.Calls
import NatRelay.Proofs.Service.Rejection
import NatRelay.Proofs.Stun.Frame

/-! What a relay never does: deal with a forbidden peer, or with one of the other family, or let a
channel have a number out of the range. Main statement: `run_admissible`. The table judges families
alone; that the service judges the rest before it asks the table is `run_leads`. -/
namespace NatRelay
open Stun (ChannelData Datagram)

/-- Whether data may be relayed to an IP from an address of the family. -/
structure Ip.IsDestination (family : Family) (ip : Ip) : Prop where
  specified : ip.isUnspecified = false
  unicast : ip.isMulticast = false
  family_eq : ip.family = family

theorem Ip.isDestination_iff {family : Family} {ip : Ip} :
    ip.IsDestination family ↔ Request.isForbidden ip = false ∧ ip.family = family := by
  rw [Request.isForbidden, Bool.or_eq_false_iff, and_assoc]
  exact ⟨fun h => ⟨h.specified, h.unicast, h.family_eq⟩, fun ⟨h₁, h₂, h₃⟩ => ⟨h₁, h₂, h₃⟩⟩

namespace Allocation
open Table (Op)
variable {a : Allocation} {now : Time}

/-- An allocation deals with allowed peers of its own family, by allowed numbers. -/
structure Admissible (a : Allocation) : Prop where
  permissions : ∀ e ∈ a.permissions, e.1.IsDestination a.relay.family
  channels : ∀ e ∈ a.channels, Stun.isChannelNumber e.1 ∧ e.2.peer.ip.IsDestination a.relay.family

namespace Admissible

theorem prune (h : a.Admissible) (w : Time) : (a.prune w).Admissible :=
  ⟨fun e he => h.permissions e (List.mem_of_mem_filter he),
    fun e he => h.channels e (List.mem_of_mem_filter he)⟩

theorem permit (h : a.Admissible) {ip : Ip} (hip : ip.IsDestination a.relay.family)
    (until_ : Time) : (a.permit ip until_).Admissible := by
  refine ⟨fun e he => ?_, h.channels⟩
  rcases List.mem_cons.1 he with rfl | he
  · exact hip
  · exact h.permissions e (List.mem_of_mem_filter he)

theorem bind (h : a.Admissible) {number : UInt16} (hnumber : Stun.isChannelNumber number)
    {peer : Endpoint} (hpeer : peer.ip.IsDestination a.relay.family) (until_ : Time) :
    (a.bind number peer until_).Admissible := by
  refine ⟨h.permissions, fun e he => ?_⟩
  rcases List.mem_cons.1 he with rfl | he
  · exact ⟨hnumber, hpeer⟩
  · exact h.channels e (List.mem_of_mem_filter (List.mem_of_mem_filter he))

theorem extend (h : a.Admissible) (number : UInt16) (until_ : Time) :
    (a.extend number until_).Admissible := by
  refine ⟨h.permissions, fun e he => ?_⟩
  obtain ⟨d, hd, rfl⟩ := List.mem_map.1 he
  have hd := h.channels d hd
  split
  · exact hd
  · exact hd

theorem of_isPermitted (h : a.Admissible) {ip : Ip} (hip : a.isPermitted ip now) :
    ip.IsDestination a.relay.family := by
  obtain ⟨ends, hends, -⟩ := (Option.any_eq_true _ _).1 hip
  exact h.permissions _ (Assoc.mem_of_lookup hends)

theorem of_lookup (h : a.Admissible) {number : UInt16} {c : Channel}
    (hc : a.channels.lookup number = some c) :
    Stun.isChannelNumber number ∧ c.peer.ip.IsDestination a.relay.family :=
  h.channels _ (Assoc.mem_of_lookup hc)

theorem of_path? (h : a.Admissible) {peer : Endpoint} {number : UInt16}
    (hpath : a.path? peer now = some (some number)) : Stun.isChannelNumber number := by
  rw [path?] at hpath
  split at hpath
  · rename_i hchannel
    obtain ⟨e, hfound, rfl⟩ := Option.map_eq_some_iff.1 hchannel
    obtain rfl := Option.some.inj (Option.some.inj hpath)
    exact (h.channels e (List.mem_of_find?_eq_some hfound)).1
  · split at hpath
    · cases Option.some.inj hpath
    · cases hpath

/-- An admissible operation leaves an admissible allocation: the peer that it permits was judged, or
was there before. -/
theorem serve (h : a.Admissible) {op : Op} (hop : op.isAdmissible) (o : AllocationOptions)
    (now : Time) : (a.serve o op now).2.Admissible := by
  cases op with
  | create | find | delete | sweep | inboundRoute | removeUser => exact h
  | refresh => exact ⟨h.permissions, h.channels⟩
  | createPermission _ peer =>
    rw [Allocation.serve]
    split
    · exact h
    · rename_i hfamily
      have hallowed : Request.isForbidden peer = false := by simpa [Op.isAdmissible] using hop
      exact h.permit (Ip.isDestination_iff.2 ⟨hallowed, not_not.1 hfamily⟩) _
  | bindChannel _ number peer =>
    rw [Allocation.serve]
    split
    · exact h
    rename_i hfamily
    split
    · exact h
    · obtain ⟨hnumber, hallowed⟩ : Stun.isChannelNumber number ∧
          Request.isForbidden peer.ip = false := by simpa [Op.isAdmissible] using hop
      have hpeer := Ip.isDestination_iff.2 ⟨hallowed, not_not.1 hfamily⟩
      exact (h.bind (hnumber) hpeer _).permit hpeer _
  | permitSend _ peer =>
    rw [Allocation.serve]
    split
    · rename_i hp
      exact h.permit (h.of_isPermitted hp) _
    · exact h
  | channelPeer _ number =>
    rw [Allocation.serve]
    split
    · rename_i c hfound
      have hc := Option.eq_some_of_filter_eq_some hfound
      exact (h.extend ..).permit (h.of_lookup hc).2 _
    · exact h

end Admissible
end Allocation

namespace Table
variable {t t' : Table}

/-- Every allocation of the table is admissible. -/
def Admissible (t : Table) : Prop := ∀ ft a, t.entries.lookup ft = some a → a.Admissible

theorem Leads.admissible (h : t.Leads t') (c : t.Consistent) (hadmissible : t.Admissible) :
    t'.Admissible := by
  obtain ⟨calls, hcalls, rfl⟩ := h
  refine run_entries c ?_ (fun a w ha => ha.prune w) ?_ hadmissible
  · intro a hpermissions hchannels
    constructor <;> simp [hpermissions, hchannels]
  · exact fun call hcall a ha => ha.serve (hcalls call hcall) _ _

theorem Leads.consistent (h : t.Leads t') (c : t.Consistent) : t'.Consistent := by
  obtain ⟨calls, -, rfl⟩ := h
  exact (run_consistent c calls).1

end Table

/-- Packets go to allowed peers of the relayed address's family; frames bear allowed numbers. -/
def Response.Admissible : Response → Prop
  | toPeer relay peer _ => peer.ip.IsDestination relay.family
  | toClient _ _ _ .channelData data =>
    ∃ c : ChannelData, Datagram.decode data = .ok (.channelData c) ∧ Stun.isChannelNumber c.number
  | toClient _ _ _ .dataIndication _ | reply .. => True

namespace Service
variable {s : Service} {i : Interface} {bytes : Bytes} {addr : Endpoint} {now : Time}

/-- The operations that answer by sending a packet. -/
inductive Reply.Sends : Reply → Response → Prop
  | progress (response : Response) : Sends (.progress (.done (.ok (some response)))) response
  | result (response : Response) : Sends (.result (.ok (some response))) response
  | relayed (response : Response) : Sends (.relayed (some response)) response

namespace Reply
variable {response : Response}

theorem sends_progress {p : Progress} :
    (progress p).Sends response ↔ p = .done (.ok (some response)) := by
  constructor
  · rintro ⟨⟩
    rfl
  · rintro rfl
    exact .progress response

theorem sends_result {result? : Except Stun.Error (Option Response)} :
    (result result?).Sends response ↔ result? = .ok (some response) := by
  constructor
  · rintro ⟨⟩
    rfl
  · rintro rfl
    exact .result response

theorem sends_relayed {response? : Option Response} :
    (relayed response?).Sends response ↔ response? = some response := by
  constructor
  · rintro ⟨⟩
    rfl
  · rintro rfl
    exact .relayed response

end Reply

theorem admissible_of_respond {v : Verdict} {m : Stun.Message} {software : String}
    {interface : Endpoint} {key? : Option Stun.Key} {response : Response}
    (h : some <$> v.respond m software interface key? = .ok (some response)) :
    response.Admissible := by
  obtain ⟨relay?, key?', data, rfl, -⟩ := Verdict.respond_eq_ok (Stun.some_map_eq_ok.1 h)
  trivial

theorem Receipt.admissible {draw : Draw} {o : Outcome Progress} {response : Response}
    (h : s.Receipt i bytes addr draw now o) (hadmissible : s.table.Admissible)
    (hsent : o.answer = .done (.ok (some response))) : response.Admissible := by
  cases h with
  | malformed | unanswered | asks => cases hsent
  | misunderstood | observed | refused => exact admissible_of_respond (Progress.done.inj hsent)
  | sent _ _ _ _ _ hsend =>
    obtain ⟨a, ha, hp, rfl, -⟩ := Table.permitSend_eq_some.1 hsend
    obtain rfl := Option.some.inj (Except.ok.inj (Progress.done.inj hsent))
    exact (hadmissible _ a (Table.find?_eq_some.1 ha).1).of_isPermitted hp
  | sentOnChannel _ hchannel =>
    obtain ⟨a, b, ha, hb, -, rfl, rfl, -⟩ := Table.channelPeer_eq_some.1 hchannel
    obtain rfl := Option.some.inj (Except.ok.inj (Progress.done.inj hsent))
    exact ((hadmissible _ a (Table.find?_eq_some.1 ha).1).of_lookup hb).2

theorem Settlement.admissible {p : PendingRequest} {password? : Option String} {draw : Draw}
    {o : Outcome (Except Stun.Error (Option Response))} {response : Response}
    (h : s.Settlement p password? draw now o) (hsent : o.answer = .ok (some response)) :
    response.Admissible := by
  cases h with
  | refused | accepted => exact admissible_of_respond hsent

theorem relayInbound_admissible (c : s.table.Consistent) (hadmissible : s.table.Admissible)
    {relay peer : Endpoint} {payload : Bytes} {draw : Draw} {response : Response}
    (h : s.relayInbound relay peer payload draw now = some response) : response.Admissible := by
  rw [relayInbound] at h
  split at h
  · cases h
  rename_i route hroute
  obtain ⟨a, ha, -, hpath⟩ := c.inboundRoute_eq_some.1 hroute
  have ha := hadmissible _ a (Table.find?_eq_some.1 ha).1
  cases hchannel : route.channel with
  | none =>
    rw [hchannel, wrap] at h
    split at h
    · rename_i hframing
      obtain rfl := (Prod.mk.inj hframing).1
      obtain rfl := Option.some.inj h
      trivial
    · cases h
  | some number =>
    rw [hchannel] at hpath
    have hnumber := ha.of_path? hpath
    rw [hchannel, wrap] at h
    split at h
    · rename_i framing data hframing
      obtain ⟨rfl, hdata⟩ := Prod.mk.inj hframing
      obtain rfl := Option.some.inj h
      refine ⟨_, ChannelData.decode_of_encode hdata ?_, hnumber⟩
      exact Stun.div_of_isChannelNumber hnumber
    · cases h

theorem process_admissible (hadmissible : s.table.Admissible) (login : Login) (draw draw' : Draw)
    {response : Response}
    (h : (s.process login i bytes addr draw draw' now).answer = .ok (some response)) :
    response.Admissible := by
  have hreceipt := s.receive_receipt i bytes addr draw now
  rw [process] at h
  split at h
  · rename_i hanswer
    obtain rfl := h
    exact hreceipt.admissible hadmissible hanswer
  · exact (resume_settlement ..).admissible h

/-- What one operation sends is admissible. -/
theorem step_admissible (c : s.table.Consistent) (hadmissible : s.table.Admissible) {op : Op}
    {response : Response} (h : (s.step op now).answer.Sends response) : response.Admissible := by
  cases op with
  | process login i bytes addr draw draw' =>
    exact process_admissible hadmissible login draw draw' (Reply.sends_result.1 h)
  | receive i bytes addr draw =>
    exact (s.receive_receipt ..).admissible hadmissible (Reply.sends_progress.1 h)
  | resume p password? draw => exact (s.resume_settlement ..).admissible (Reply.sends_result.1 h)
  | relayInbound relay peer payload draw =>
    exact relayInbound_admissible c hadmissible (Reply.sends_relayed.1 h)
  | sweep => cases h
  | removeUser => cases h

theorem sent_admissible (c : s.table.Consistent) (hadmissible : s.table.Admissible)
    (ops : List (Op × Time)) :
    ∀ reply ∈ (s.run ops).answer, ∀ response, reply.Sends response → response.Admissible := by
  induction ops generalizing s with
  | nil => simp [run]
  | cons o ops ih =>
    have hleads := s.step_leads o.1 o.2
    refine List.forall_mem_cons.2 ⟨fun response => step_admissible c hadmissible, ?_⟩
    exact ih (hleads.consistent c) (hleads.admissible c hadmissible)

/-- Over all runs of a service, at whatever times: no allocation ever has a permission or a channel
for a peer that is unspecified, multicast or of another family than its relayed address, nor a
channel number out of the range. What goes to a peer goes to an allowed one, and a frame that goes
to a client has an allowed number. -/
theorem run_admissible (o : ServiceOptions) (ops : List (Op × Time)) :
    (∀ a ∈ ((make o).run ops).service.table.entries.values, a.Admissible) ∧
      ∀ reply ∈ ((make o).run ops).answer, ∀ response, reply.Sends response →
        response.Admissible := by
  have c := make_consistent o
  have hempty : (make o).table.Admissible := by simp [Table.Admissible, make]
  have hleads := (make o).run_leads ops
  refine ⟨fun a ha => ?_, sent_admissible c hempty ops⟩
  obtain ⟨⟨ft, b⟩, hmem, rfl⟩ := List.mem_map.1 ha
  have hlookup := Assoc.lookup_of_mem (hleads.consistent c).keys_nodup hmem
  exact hleads.admissible c hempty ft b hlookup

end Service
end NatRelay
