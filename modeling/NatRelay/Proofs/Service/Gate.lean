import NatRelay.Proofs.Service.Process

/-! Nobody changes the allocation table without a password, beyond keeping alive what was set up
with one. Main statement: `process_gate`. -/
namespace NatRelay
open Stun (Credential Datagram Received)

/-- Nothing of an allocation changed but the end of permissions and channels that were in force, and
permissions for the peers of such channels. -/
structure Allocation.Renewed (a b : Allocation) (now : Time) : Prop where
  rest : b = { a with permissions := b.permissions, channels := b.channels }
  permissions : ∀ ip, b.permissions.lookup ip = a.permissions.lookup ip ∨
    (b.permissions.lookup ip).isSome ∧ (a.isPermitted ip now ∨
      ∃ number c, a.channels.lookup number = some c ∧ now < c.expiresAt ∧ c.peer.ip = ip)
  channels : ∀ number, b.channels.lookup number = a.channels.lookup number ∨
    ∃ c ends, a.channels.lookup number = some c ∧ now < c.expiresAt ∧
      b.channels.lookup number = some { c with expiresAt := ends }

/-- Nothing of a table changed, or the live allocation of a five-tuple was renewed. -/
def Table.Renewed (t t' : Table) (ft : FiveTuple) (now : Time) : Prop :=
  t' = t ∨ ∃ a f, t.find? ft now = some a ∧ a.Renewed (f a) now ∧ t' = t.update ft f

namespace Allocation

theorem renewed_permit {a : Allocation} {ip : Ip} {now : Time} (h : a.isPermitted ip now)
    (until_ : Time) : a.Renewed (a.permit ip until_) now where
  rest := rfl
  permissions ip' := by
    by_cases hip : ip' = ip
    · subst hip
      exact .inr ⟨by simp [permit], .inl h⟩
    · exact .inl (Assoc.lookup_put_ne _ _ hip)
  channels _ := .inl rfl

theorem renewed_extend {a : Allocation} {number : UInt16} {c : Channel} {now : Time}
    (hc : a.channels.lookup number = some c) (hlive : now < c.expiresAt) (ends until_ : Time) :
    a.Renewed ((a.extend number ends).permit c.peer.ip until_) now where
  rest := rfl
  permissions ip := by
    by_cases hip : ip = c.peer.ip
    · subst hip
      exact .inr ⟨by simp [permit], .inr ⟨number, c, hc, hlive, rfl⟩⟩
    · exact .inl (Assoc.lookup_put_ne _ _ hip)
  channels number' := by
    have hchannels : ((a.extend number ends).permit c.peer.ip until_).channels =
        a.channels.mapAt number fun c => { c with expiresAt := ends } := rfl
    rw [hchannels, Assoc.lookup_mapAt]
    by_cases hnumber : number' = number
    · subst hnumber
      rw [if_pos rfl, hc]
      exact .inr ⟨c, ends, rfl, hlive, rfl⟩
    · exact .inl (if_neg hnumber)

end Allocation

namespace Service

/-- The datagram is a request of one of the guarded methods, and names a user, the service's realm
and a nonce in force. -/
structure Claims (s : Service) (bytes : Bytes) (addr : Endpoint) (now : Time) (r : Received)
    (username : String) : Prop where
  decoded : Datagram.decode bytes = .ok (.message r)
  request : r.message.cls = .request
  method : r.message.method = .allocate ∨ r.message.method = .refresh ∨
    r.message.method = .createPermission ∨ r.message.method = .channelBind
  names : r.message.username = some username
  realm : r.message.realm = some s.realm
  nonce : ∃ nonce, r.message.nonce = some nonce ∧ s.nonces.verify addr nonce now

/-- Such a request verifies under the password that is found for the user. -/
structure Proves (s : Service) (login : Login) (bytes : Bytes) (addr : Endpoint) (now : Time)
    (r : Received) (username : String) : Prop extends s.Claims bytes addr now r username where
  integrity : ∃ password mechanism, (login.find addr username).password? = some password ∧
    Stun.checkIntegrity r.message (some r.wire) ⟨username, s.realm, password⟩ = .ok mechanism

variable {s : Service} {i : Interface} {bytes : Bytes} {addr : Endpoint} {now : Time}

theorem identify_eq_named {m : Stun.Message} {draw : NonceDraw} {username realm : String}
    (h : s.identify m addr draw now = .named username realm) :
    m.username = some username ∧ m.realm = some s.realm ∧ realm = s.realm ∧
      ∃ nonce, m.nonce = some nonce ∧ s.nonces.verify addr nonce now := by
  rw [identify] at h
  split at h
  · cases h
  split at h
  · rename_i nonce hu hr hn
    split at h
    · cases h
    rename_i hrealm
    split at h
    · cases h
    rename_i hverify
    obtain ⟨rfl, rfl⟩ := Claimant.named.inj h
    have hrealm := Decidable.not_not.1 hrealm
    exact ⟨hu, hrealm ▸ hr, hrealm, nonce, hn, by simpa using hverify⟩
  · cases h

theorem receive_renewed (draw : Draw) :
    s.table.Renewed (s.receive i bytes addr draw now).service.table (.udp addr i.listening)
      now := by
  have hreceipt := s.receive_receipt i bytes addr draw now
  generalize s.receive i bytes addr draw now = o at hreceipt ⊢
  cases hreceipt with
  | sent _ _ _ _ _ hsend =>
    obtain ⟨a, ha, hp, -, rfl⟩ := Table.permitSend_eq_some.1 hsend
    exact .inr ⟨a, _, ha, Allocation.renewed_permit hp _, rfl⟩
  | sentOnChannel _ hchannel =>
    obtain ⟨a, b, ha, hb, hlive, -, rfl, rfl⟩ := Table.channelPeer_eq_some.1 hchannel
    exact .inr ⟨a, _, ha, Allocation.renewed_extend hb hlive _ _, rfl⟩
  | malformed | unanswered | misunderstood | observed | refused | asks => exact .inl rfl

/-- What a datagram shows that stops for a password; the table is as it was. -/
theorem receive_eq_asks {draw : Draw} {p : PendingRequest}
    (h : (s.receive i bytes addr draw now).answer = .asks p) :
    (s.receive i bytes addr draw now).service.table = s.table ∧
      ∃ r, s.Claims bytes addr now r p.username ∧
        p = ⟨r.message, r.wire, addr, i, p.username, s.realm⟩ := by
  obtain ⟨r, hasked⟩ := asked_of_asks h
  obtain ⟨hu, hr, hrealm, hn⟩ := identify_eq_named hasked.named
  refine ⟨congrArg Service.table (receive_asks h).1, r,
    ⟨hasked.decoded, hasked.cls, hasked.method, hu, hrealm ▸ hr, hn⟩, ?_⟩
  exact hrealm ▸ hasked.pending

/-- Behind the lookup the table changes only for a password that verifies the request. -/
theorem Settlement.confined {p : PendingRequest} {password? : Option String} {draw : Draw}
    {o : Outcome (Except Stun.Error (Option Response))}
    (h : s.Settlement p password? draw now o) :
    o.service.table = s.table ∨
      Request.Confined ⟨p.message, p.addr, p.interface, p.username⟩ s.table o.service.table now ∧
        ∃ password mechanism, password? = some password ∧
          Stun.checkIntegrity p.message (some p.wire) ⟨p.username, p.realm, password⟩ =
            .ok mechanism := by
  cases h with
  | refused => exact .inl rfl
  | accepted hpassword hchecked heffect =>
    exact .inr ⟨heffect.confined, _, _, hpassword, hchecked⟩

/-- Every allocation that was live at the time and changed belongs to the user. -/
def OwnedChanges (t t' : Table) (username : String) (now : Time) : Prop :=
  ∀ ft a, t.find? ft now = some a → t'.entries.lookup ft ≠ some a → a.username = username

/-- A pending request does nothing to the table as it is after the lookup, or it was proved. -/
theorem resume_gate {draw : Draw} {p : PendingRequest}
    (h : (s.receive i bytes addr draw now).answer = .asks p) (mid : Service) (login : Login)
    (draw' : Draw) (later : Time) :
    let t' := (mid.resume p (login.find addr p.username).password? draw' later).service.table
    t' = mid.table ∨
      ∃ r, s.Proves login bytes addr now r p.username ∧
        OwnedChanges mid.table t' p.username later := by
  intro t'
  obtain ⟨-, r, hclaims, hp⟩ := receive_eq_asks h
  rcases (mid.resume_settlement p (login.find addr p.username).password? draw' later).confined with
    hsame | hchanged
  · exact .inl hsame
  · obtain ⟨hconfined, password, mechanism, hpassword, hchecked⟩ := hchanged
    refine .inr ⟨r, ⟨hclaims, password, mechanism, hpassword, ?_⟩, ?_⟩
    · rw [hp] at hchecked
      exact hchecked
    · intro ft a ha hne
      exact (hconfined.of_changed ha hne).2

/-- A datagram keeps alive what its sender set up before, or else it changes the table only as an
authentic request of a user for allocations of that user. The second part is the same for a
password that comes late, whatever happened to the service in between. -/
theorem process_gate (s : Service) (login : Login) (i : Interface) (bytes : Bytes)
    (addr : Endpoint) (draw draw' : Draw) (now : Time) :
    let t' := (s.process login i bytes addr draw draw' now).service.table
    (s.table.Renewed t' (.udp addr i.listening) now ∨
      ∃ r username, s.Proves login bytes addr now r username ∧
        OwnedChanges s.table t' username (now + (login.find addr username).elapsed)) ∧
      ∀ p, (s.receive i bytes addr draw now).answer = .asks p → ∀ (mid : Service) (later : Time),
        let t' := (mid.resume p (login.find addr p.username).password? draw' later).service.table
        t' = mid.table ∨
          ∃ r, s.Proves login bytes addr now r p.username ∧
            OwnedChanges mid.table t' p.username later := by
  intro t'
  refine ⟨?_, fun p h mid later => resume_gate h mid login draw' later⟩
  cases hanswer : (s.receive i bytes addr draw now).answer with
  | done result =>
    have hend : t' = (s.receive i bytes addr draw now).service.table := by
      simp only [t', process, hanswer]
    rw [hend]
    exact .inl (receive_renewed draw)
  | asks p =>
    have hend : t' = ((s.receive i bytes addr draw now).service.resume p
        (login.find addr p.username).password? draw'
        (now + (login.find addr p.username).elapsed)).service.table := by
      simp only [t', process, hanswer]
    have htable := (receive_eq_asks hanswer).1
    have hgate := resume_gate hanswer (s.receive i bytes addr draw now).service login draw'
      (now + (login.find addr p.username).elapsed)
    rw [htable, ← hend] at hgate
    rcases hgate with hsame | ⟨r, hproves, howned⟩
    · exact .inl (.inl hsame)
    · exact .inr ⟨r, p.username, hproves, howned⟩

end Service
end NatRelay
