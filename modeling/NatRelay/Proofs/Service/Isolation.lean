import NatRelay.Proofs.Allocation.Locality
import NatRelay.Proofs.Service.Announcement
import NatRelay.Proofs.Service.Gate
import NatRelay.Proofs.Service.Nonces

/-! No client disturbs another. Main statement: `process_isolates`, that a datagram leaves the
allocations of all other five-tuples as they are, reachable and answering as before, and the nonces
of all other clients in force, but for those that make room in a full table. -/
namespace NatRelay

namespace Request
variable {r : Request} {t : Table} {now : Time}

theorem options_permitAll (ft : FiveTuple) (peers : List Endpoint) :
    (permitAll t ft now peers).2.options = t.options := by
  induction peers generalizing t with
  | nil => rfl
  | cons peer peers ih =>
    rw [permitAll]
    split
    · rfl
    · rename_i hpermit
      obtain ⟨a, -, -, -, rfl⟩ := Table.createPermission_eq_ok.1 hpermit
      exact ih

theorem Effect.options {offset : Nat} {d : Decision} (h : r.Effect t offset now d) :
    d.table.options = t.options := by
  cases h with
  | refused | repeated | gone => rfl
  | created _ hcreate =>
    obtain ⟨relay, pool, -, -, ⟨-, -, rfl⟩ | ⟨b, -, -, rfl⟩⟩ := Table.create_eq_ok hcreate
    · rfl
    · rfl
  | released _ hdelete =>
    obtain ⟨b, -, heq⟩ := Option.map_eq_some_iff.1 hdelete
    obtain ⟨-, rfl⟩ := Prod.mk.inj heq
    rfl
  | extended _ hrefresh =>
    obtain ⟨b, -, rfl⟩ := Table.refresh_eq_ok.1 hrefresh
    rfl
  | permitted _ _ hpermit =>
    have hkept := @options_permitAll t now r.fiveTuple (distinctPeers r.message.peerAddresses)
    rwa [hpermit] at hkept
  | bound _ _ hbind =>
    obtain ⟨b, -, -, -, -, rfl⟩ := Table.bindChannel_eq_ok.1 hbind
    rfl

end Request

namespace Service
variable {s s' : Service} {i : Interface} {bytes : Bytes} {addr : Endpoint} {now : Time}

/-- Each relayed address has one owner, and each client one nonce. -/
structure Sound (s : Service) : Prop where
  table : s.table.Consistent
  nonces : s.nonces.nonces.keys.Nodup

/-! ### The nonces of the others -/

theorem Dismissal.spares {draw : NonceDraw} {why : Refusal} {attributes : List Stun.Attribute}
    {nonces : NonceTable} (h : s.Dismissal addr draw now why attributes nonces)
    (nodup : s.nonces.nonces.keys.Nodup) : s.nonces.Spares addr nonces := by
  cases h with
  | plain => exact .refl nodup addr
  | reminded => exact NonceTable.getOrIssue_spares nodup addr draw now
  | rotated => exact NonceTable.issue_spares nodup addr draw now

theorem receive_spares (nodup : s.nonces.nonces.keys.Nodup) (draw : Draw) :
    s.nonces.Spares addr (s.receive i bytes addr draw now).service.nonces := by
  have hreceipt := s.receive_receipt i bytes addr draw now
  generalize s.receive i bytes addr draw now = o at hreceipt ⊢
  cases hreceipt with
  | refused _ _ _ _ _ hdismissed => exact hdismissed.spares nodup
  | _ => exact .refl nodup addr

theorem resume_spares (nodup : s.nonces.nonces.keys.Nodup) (p : PendingRequest)
    (password? : Option String) (draw : Draw) :
    s.nonces.Spares p.addr (s.resume p password? draw now).service.nonces := by
  have hsettlement := s.resume_settlement p password? draw now
  generalize s.resume p password? draw now = o at hsettlement ⊢
  cases hsettlement with
  | refused _ _ _ hdismissed => exact hdismissed.spares nodup
  | accepted => exact .refl nodup p.addr

theorem step_sound (h : s.Sound) (op : Op) (now : Time) : (s.step op now).service.Sound where
  table := (step_turnover h.table op now).consistent h.table
  nonces := (s.step_turns op now).nonces.nodup h.nonces

theorem run_sound (h : s.Sound) (ops : List (Op × Time)) : (s.run ops).service.Sound := by
  induction ops generalizing s with
  | nil => exact h
  | cons o ops ih => exact ih (step_sound h o.1 o.2)

theorem make_sound (o : ServiceOptions) : (make o).Sound := ⟨make_consistent o, List.nodup_nil⟩

/-! ### The allocations of the others -/

/-- What happened is the client's own affair. -/
structure Isolates (s : Service) (addr : Endpoint) (i : Interface) (s' : Service) : Prop where
  entries : ∀ ft, ft ≠ .udp addr i.listening →
    s'.table.entries.lookup ft = s.table.entries.lookup ft
  /-- Packets from peers still find the allocation. -/
  relays : ∀ ft a, ft ≠ .udp addr i.listening → s.table.entries.lookup ft = some a →
    s'.table.relays.lookup a.relay = some ft
  /-- While it is live, no other takes its place. -/
  held : ∀ ft a later, ft ≠ .udp addr i.listening → s.table.find? ft later = some a →
    ∀ (r : Table.Request) (offset : Nat), r.fiveTuple = ft →
      ∃ e, s'.table.create r offset later = .error e
  /-- Whatever happens next, it answers as before, as long as no new one is asked for. -/
  account : ∀ ft, ft ≠ .udp addr i.listening → ∀ ops : List (Table.Op × Time),
    (∀ o ∈ ops, o.1.creates ≠ some ft) →
      (s'.table.history ops).map (Table.Exchange.about ft) =
        (s.table.history ops).map (Table.Exchange.about ft)
  nonces : ∀ addr', addr' ≠ addr →
    s'.nonces.nonces.lookup addr' = s.nonces.nonces.lookup addr' ∨
      s.nonces.Crowded addr ∧ s'.nonces.nonces.lookup addr' = none

/-- The entries of the others tell the rest. -/
theorem Isolates.of_entries (c : s.table.Consistent) (c' : s'.table.Consistent)
    (hoptions : s'.table.options = s.table.options)
    (hentries : ∀ ft, ft ≠ .udp addr i.listening →
      s'.table.entries.lookup ft = s.table.entries.lookup ft)
    (hnonces : s.nonces.Spares addr s'.nonces) : s.Isolates addr i s' where
  entries := hentries
  relays ft a hft ha := (c'.lookup_relays _ _).2 ⟨a, (hentries ft hft).trans ha, rfl⟩
  held ft a later hft ha r offset hr := by
    cases hcreate : s'.table.create r offset later with
    | error e => exact ⟨e, rfl⟩
    | ok result =>
      obtain ⟨hlookup, hlive⟩ := Table.find?_eq_some.1 ha
      have hstale := (c'.created hcreate).stale a (by rw [hr, hentries ft hft, hlookup])
      exact absurd hlive (Nat.not_lt.2 hstale)
  account ft hft _ hops := Table.history_about ⟨c, c', hoptions, hentries ft hft⟩ hops
  nonces := hnonces.others

theorem receive_isolates (h : s.Sound) (i : Interface) (bytes : Bytes) (addr : Endpoint)
    (draw : Draw) (now : Time) : s.Isolates addr i (s.receive i bytes addr draw now).service := by
  have c' := ((s.receive_receipt i bytes addr draw now).turnover).consistent h.table
  rcases receive_renewed draw with hsame | ⟨a, f, -, -, htable⟩
  · refine .of_entries h.table c' (by rw [hsame]) (fun ft _ => ?_) (receive_spares h.nonces draw)
    rw [hsame]
  · refine .of_entries h.table c' (by rw [htable]; rfl) (fun ft hft => ?_)
      (receive_spares h.nonces draw)
    rw [htable, Table.lookup_update_ne _ _ hft]

theorem Settlement.entries {p : PendingRequest} {password? : Option String} {draw : Draw}
    {o : Outcome (Except Stun.Error (Option Response))} (h : s.Settlement p password? draw now o) :
    o.service.table.options = s.table.options ∧
      ∀ ft, ft ≠ .udp p.addr p.interface.listening →
        o.service.table.entries.lookup ft = s.table.entries.lookup ft := by
  cases h with
  | refused => exact ⟨rfl, fun _ _ => rfl⟩
  | accepted _ _ heffect => exact ⟨heffect.options, heffect.confined.others⟩

theorem resume_isolates (h : s.Sound) (p : PendingRequest) (password? : Option String)
    (draw : Draw) (now : Time) :
    s.Isolates p.addr p.interface (s.resume p password? draw now).service := by
  have hsettled := s.resume_settlement p password? draw now
  obtain ⟨hoptions, hentries⟩ := hsettled.entries
  exact .of_entries h.table ((hsettled.turnover h.table).consistent h.table) hoptions hentries
    (resume_spares h.nonces p password? draw)

/-- A datagram is the affair of its sender alone, in whatever state it finds the service. So is the
second half of a request whose lookup took long, whatever the service did in between. -/
theorem process_isolates (o : ServiceOptions) (ops : List (Op × Time)) (login : Login)
    (i : Interface) (bytes : Bytes) (addr : Endpoint) (draw draw' : Draw) (now : Time) :
    let s := ((make o).run ops).service
    s.Isolates addr i (s.process login i bytes addr draw draw' now).service ∧
      ∀ p, (s.receive i bytes addr draw now).answer = .asks p →
        (s.receive i bytes addr draw now).service = s ∧
          ∀ (ops' : List (Op × Time)) (password? : Option String) (later : Time),
            let mid := ((make o).run ops').service
            mid.Isolates addr i (mid.resume p password? draw' later).service := by
  intro s
  have hsound : s.Sound := run_sound (make_sound o) ops
  have hresume (p : PendingRequest) (hasks : (s.receive i bytes addr draw now).answer = .asks p)
      {mid : Service} (hmid : mid.Sound) (password? : Option String) (later : Time) :
      mid.Isolates addr i (mid.resume p password? draw' later).service := by
    obtain ⟨-, r, -, hp⟩ := receive_eq_asks hasks
    have h := resume_isolates hmid p password? draw' later
    rwa [show p.addr = addr by rw [hp], show p.interface = i by rw [hp]] at h
  constructor
  · rw [process]
    cases hanswer : (s.receive i bytes addr draw now).answer with
    | done result => exact receive_isolates hsound i bytes addr draw now
    | asks p =>
      dsimp only
      rw [(receive_asks hanswer).1]
      exact hresume p hanswer hsound _ _
  · intro p hasks
    refine ⟨(receive_asks hasks).1, fun ops' password? later => ?_⟩
    exact hresume p hasks (run_sound (make_sound o) ops') password? later

end Service
end NatRelay
