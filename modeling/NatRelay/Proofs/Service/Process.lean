import NatRelay.Proofs.Service.Decision
import NatRelay.Proofs.Stun.Coverage
import NatRelay.Service.Process

/-! What becomes of a datagram. All that is known of its way up to the lookup of a password is
`receive_receipt`, and of the rest `resume_settlement`. -/
namespace NatRelay
open Stun (Attribute ChannelData Credential Datagram Received)

theorem Stun.Datagram.message_unique {bytes : Bytes} {r r' : Received}
    (h : decode bytes = .ok (.message r)) (h' : decode bytes = .ok (.message r')) : r = r' :=
  message.inj (Except.ok.inj (h.symm.trans h'))

namespace Service
variable {s s' : Service} {i : Interface} {bytes : Bytes} {addr : Endpoint} {now : Time}
  {v : Verdict}

/-- How a request is turned away that is understood: with a code that tells all, or with a
challenge. -/
inductive Dismissal (s : Service) (addr : Endpoint) (draw : NonceDraw) (now : Time) :
    Refusal → List Attribute → NonceTable → Prop
  | plain {why : Refusal} (hplain : why.isPlain) : Dismissal s addr draw now why [] s.nonces
  | reminded {why : Refusal} (hwhy : why = .unauthorized ∨ why = .staleNonce) :
    Dismissal s addr draw now why
      [.realm s.realm, .nonce (s.nonces.getOrIssue addr draw now).1]
      (s.nonces.getOrIssue addr draw now).2
  | rotated : Dismissal s addr draw now .unauthorized
      [.realm s.realm, .nonce (s.nonces.issue addr draw now).1] (s.nonces.issue addr draw now).2

/-- How far a datagram gets without a password. -/
inductive Receipt (s : Service) (i : Interface) (bytes : Bytes) (addr : Endpoint) (draw : Draw)
    (now : Time) : Outcome Progress → Prop
  | malformed {e : Stun.Error} (hdecoded : Datagram.decode bytes = .error e) :
    Receipt s i bytes addr draw now { answer := .done (.error e), service := s }
  | unanswered {d : Datagram} (hdecoded : Datagram.decode bytes = .ok d)
    (hquiet : ∀ r, d = .message r → r.message.cls ≠ .request) :
    Receipt s i bytes addr draw now { answer := .done (.ok none), service := s }
  | sent {r : Received} {relay peer : Endpoint} {data : Bytes} {t' : Table}
    (hdecoded : Datagram.decode bytes = .ok (.message r)) (hcls : r.message.cls = .indication)
    (hmethod : r.message.method = .send) (hpeer : r.message.peerAddresses.head? = some peer)
    (hdata : r.message.data = some data)
    (hsend : s.table.permitSend (.udp addr i.listening) peer now = some (relay, t')) :
    Receipt s i bytes addr draw now
      { answer := .done (.ok (some (.toPeer relay peer data))), service := { s with table := t' } }
  | sentOnChannel {c : ChannelData} {relay peer : Endpoint} {t' : Table}
    (hdecoded : Datagram.decode bytes = .ok (.channelData c))
    (hchannel : s.table.channelPeer (.udp addr i.listening) c.number now =
      some ((relay, peer), t')) :
    Receipt s i bytes addr draw now
      { answer := .done (.ok (some (.toPeer relay peer c.data)))
        service := { s with table := t' } }
  | misunderstood {r : Received} (hdecoded : Datagram.decode bytes = .ok (.message r))
    (hcls : r.message.cls = .request) (hunknown : r.message.unknownRequired ≠ []) :
    Receipt s i bytes addr draw now
      (s.conclude r.message i
        (.refusal .unknownAttribute [.unknownAttributes r.message.unknownRequired]) [])
  | observed {r : Received} (hdecoded : Datagram.decode bytes = .ok (.message r))
    (hcls : r.message.cls = .request) (hmethod : r.message.method = .binding)
    (hknown : r.message.unknownRequired = []) :
    Receipt s i bytes addr draw now
      (s.conclude r.message i (observed i addr) [.bindingObserved addr])
  | refused {r : Received} (hdecoded : Datagram.decode bytes = .ok (.message r))
    (hcls : r.message.cls = .request) (why : Refusal) (attributes : List Attribute)
    (nonces : NonceTable)
    (hdismissed : s.Dismissal addr draw.nonce now why attributes nonces)
    (hmethod : r.message.method ≠ .binding) (hknown : r.message.unknownRequired = []) :
    Receipt s i bytes addr draw now
      ({ s with nonces }.conclude r.message i (.refusal why attributes) [])
  | asks {r : Received} {username realm : String}
    (hdecoded : Datagram.decode bytes = .ok (.message r)) (hcls : r.message.cls = .request)
    (hmethod : r.message.method = .allocate ∨ r.message.method = .refresh ∨
      r.message.method = .createPermission ∨ r.message.method = .channelBind)
    (hnamed : s.identify r.message addr draw.nonce now = .named username realm)
    (hknown : r.message.unknownRequired = []) :
    Receipt s i bytes addr draw now
      { answer := .asks ⟨r.message, r.wire, addr, i, username, realm⟩
        events := [Login.announcement addr username], service := s }

theorem identify_eq_rejected {m : Stun.Message} {draw : NonceDraw}
    (h : s.identify m addr draw now = .rejected v s') :
    ∃ why attributes nonces, v = .refusal why attributes ∧ s' = { s with nonces } ∧
      s.Dismissal addr draw now why attributes nonces := by
  rw [identify] at h
  split at h
  · obtain ⟨rfl, rfl⟩ := Claimant.rejected.inj h
    exact ⟨_, _, _, rfl, rfl, .reminded (.inl rfl)⟩
  split at h
  · split at h
    · obtain ⟨rfl, rfl⟩ := Claimant.rejected.inj h
      exact ⟨_, _, _, rfl, rfl, .reminded (.inl rfl)⟩
    split at h
    · obtain ⟨rfl, rfl⟩ := Claimant.rejected.inj h
      exact ⟨_, _, _, rfl, rfl, .reminded (.inr rfl)⟩
    · cases h
  · obtain ⟨rfl, rfl⟩ := Claimant.rejected.inj h
    exact ⟨_, _, _, rfl, rfl, .plain rfl⟩

theorem receiveRequest_receipt {r : Received} {draw : Draw}
    (hdecoded : Datagram.decode bytes = .ok (.message r)) (hcls : r.message.cls = .request) :
    s.Receipt i bytes addr draw now (s.receiveRequest i r addr draw now) := by
  rw [receiveRequest]
  split
  · rename_i hunknown
    exact .misunderstood hdecoded hcls hunknown
  rename_i hknown
  have hknown := Decidable.not_not.1 hknown
  have hother {method : Stun.Method} (hmethod : r.message.method = method)
      (hne : method ≠ .binding) : r.message.method ≠ .binding := by
    rwa [hmethod]
  split
  · rename_i hmethod
    exact .observed hdecoded hcls hmethod hknown
  · rename_i hmethod
    exact .refused hdecoded hcls _ _ s.nonces (.plain rfl) (hother hmethod (by decide)) hknown
  · rename_i hmethod
    exact .refused hdecoded hcls _ _ s.nonces (.plain rfl) (hother hmethod (by decide)) hknown
  · rename_i hbinding hsend hdata
    split
    · rename_i hrejected
      obtain ⟨why, attributes, nonces, rfl, rfl, hdismissed⟩ := identify_eq_rejected hrejected
      exact .refused hdecoded hcls why attributes nonces hdismissed hbinding hknown
    · rename_i hnamed
      -- The default branch: the methods that are left are those that need a password.
      refine .asks hdecoded hcls ?_ hnamed hknown
      cases hmethod : r.message.method <;> simp_all

theorem receive_receipt (s : Service) (i : Interface) (bytes : Bytes) (addr : Endpoint)
    (draw : Draw) (now : Time) :
    s.Receipt i bytes addr draw now (s.receive i bytes addr draw now) := by
  rw [receive]
  dsimp only
  split
  · rename_i hdecoded
    exact .malformed hdecoded
  · rename_i hdecoded
    rw [sendChannelData]
    split
    · rename_i hchannel
      exact .sentOnChannel hdecoded hchannel
    · exact .unanswered hdecoded (by simp)
  rename_i r hdecoded
  split
  · rename_i hcls
    exact receiveRequest_receipt hdecoded hcls
  · rename_i hcls
    have hquiet : ∀ r', Datagram.message r = .message r' → r'.message.cls ≠ .request := by
      simp [hcls]
    rw [sendIndication]
    split
    · rename_i hmethod hpeer hdata
      split
      · rename_i hsend
        exact .sent hdecoded hcls hmethod hpeer hdata hsend
      · exact .unanswered hdecoded hquiet
    · exact .unanswered hdecoded hquiet
  · rename_i hcls
    exact .unanswered hdecoded (by simp [hcls])
  · rename_i hcls
    exact .unanswered hdecoded (by simp [hcls])

/-- What a datagram did that waits for a password: it was announced, and that is all. -/
theorem receive_asks {draw : Draw} {p : PendingRequest}
    (h : (s.receive i bytes addr draw now).answer = .asks p) :
    (s.receive i bytes addr draw now).service = s ∧
      (s.receive i bytes addr draw now).events = [.passwordRequested addr p.username] := by
  have hreceipt := s.receive_receipt i bytes addr draw now
  generalize s.receive i bytes addr draw now = o at h hreceipt ⊢
  cases hreceipt with
  | asks =>
    obtain rfl := Progress.asks.inj h
    exact ⟨rfl, rfl⟩
  | _ => cases h

/-- The request that a password is needed for, and the datagram it came in. -/
structure Asked (s : Service) (i : Interface) (bytes : Bytes) (addr : Endpoint) (draw : Draw)
    (now : Time) (p : PendingRequest) (r : Received) : Prop where
  decoded : Datagram.decode bytes = .ok (.message r)
  cls : r.message.cls = .request
  method : r.message.method = .allocate ∨ r.message.method = .refresh ∨
    r.message.method = .createPermission ∨ r.message.method = .channelBind
  known : r.message.unknownRequired = []
  named : s.identify r.message addr draw.nonce now = .named p.username p.realm
  pending : p = ⟨r.message, r.wire, addr, i, p.username, p.realm⟩

theorem asked_of_asks {draw : Draw} {p : PendingRequest}
    (h : (s.receive i bytes addr draw now).answer = .asks p) :
    ∃ r, s.Asked i bytes addr draw now p r := by
  have hreceipt := s.receive_receipt i bytes addr draw now
  generalize s.receive i bytes addr draw now = o at h hreceipt
  cases hreceipt with
  | asks hdecoded hcls hmethod hnamed hknown =>
    obtain rfl := Progress.asks.inj h
    exact ⟨_, hdecoded, hcls, hmethod, hknown, hnamed, rfl⟩
  | _ => cases h

/-- How a request ends that waited for a password. -/
inductive Settlement (s : Service) (p : PendingRequest) (password? : Option String) (draw : Draw)
    (now : Time) : Outcome (Except Stun.Error (Option Response)) → Prop
  | refused (why : Refusal) (attributes : List Attribute) (nonces : NonceTable)
    (hdismissed : s.Dismissal p.addr draw.nonce now why attributes nonces) :
    Settlement s p password? draw now
      { answer := { s with nonces }.reply p.message p.interface (.refusal why attributes)
        service := { s with nonces } }
  | accepted {password : String} {mechanism : Stun.Mechanism} {d : Decision}
    (hpassword : password? = some password)
    (hchecked : Stun.checkIntegrity p.message (some p.wire) ⟨p.username, p.realm, password⟩ =
      .ok mechanism)
    (heffect : Request.Effect ⟨p.message, p.addr, p.interface, p.username⟩ s.table
      draw.portOffset now d) :
    Settlement s p password? draw now
      { answer := some <$> d.verdict.respond p.message s.software p.interface.listening
          (some (Credential.key ⟨p.username, p.realm, password⟩ mechanism))
        events := d.events, service := { s with table := d.table } }

theorem authenticate_eq_accepted {p : PendingRequest} {password? : Option String}
    {draw : NonceDraw} {key : Stun.Key} (h : s.authenticate p password? draw now = .accepted key) :
    ∃ password mechanism, password? = some password ∧
      Stun.checkIntegrity p.message (some p.wire) ⟨p.username, p.realm, password⟩ =
        .ok mechanism ∧
      key = Credential.key ⟨p.username, p.realm, password⟩ mechanism := by
  unfold authenticate at h
  cases password? with
  | none => cases h
  | some password =>
    dsimp only at h
    split at h
    · rename_i mechanism hvalid
      refine ⟨password, mechanism, rfl, ?_, (Proof.accepted.inj h).symm⟩
      rw [Stun.validate] at hvalid
      split at hvalid
      · cases hvalid
      split at hvalid
      · cases hvalid
      · exact hvalid
    · cases h
    · cases h
    · cases h
    · cases h

theorem authenticate_eq_rejected {p : PendingRequest} {password? : Option String}
    {draw : NonceDraw} (h : s.authenticate p password? draw now = .rejected v s') :
    ∃ why attributes nonces, v = .refusal why attributes ∧ s' = { s with nonces } ∧
      s.Dismissal p.addr draw now why attributes nonces := by
  unfold authenticate at h
  cases password? with
  | none =>
    obtain ⟨rfl, rfl⟩ := Proof.rejected.inj h
    exact ⟨_, _, _, rfl, rfl, .rotated⟩
  | some password =>
    dsimp only at h
    split at h
    · cases h
    · obtain ⟨rfl, rfl⟩ := Proof.rejected.inj h
      exact ⟨_, _, _, rfl, rfl, .rotated⟩
    · obtain ⟨rfl, rfl⟩ := Proof.rejected.inj h
      exact ⟨_, _, _, rfl, rfl, .rotated⟩
    · obtain ⟨rfl, rfl⟩ := Proof.rejected.inj h
      exact ⟨_, _, _, rfl, rfl, .plain rfl⟩
    · cases h

/-- Of the errors that validation can end in, none is left over. -/
theorem authenticate_ne_failed (s : Service) (p : PendingRequest) (password? : Option String)
    (draw : NonceDraw) (now : Time) (e : Stun.Error) :
    s.authenticate p password? draw now ≠ .failed e := by
  intro h
  unfold authenticate at h
  cases password? with
  | none => cases h
  | some password =>
    dsimp only at h
    cases hvalid : Stun.validate p.message (some p.wire) ⟨p.username, p.realm, password⟩ with
    | ok mechanism =>
      rw [hvalid] at h
      cases h
    | error e' =>
      rw [hvalid] at h
      rcases Stun.validate_eq_error hvalid with rfl | rfl | rfl
      · cases h
      · cases h
      · cases h

theorem resume_settlement (s : Service) (p : PendingRequest) (password? : Option String)
    (draw : Draw) (now : Time) :
    s.Settlement p password? draw now (s.resume p password? draw now) := by
  rw [resume]
  split
  · rename_i e hfailed
    exact absurd hfailed (s.authenticate_ne_failed p password? draw.nonce now e)
  · rename_i hrejected
    obtain ⟨why, attributes, nonces, rfl, rfl, hdismissed⟩ := authenticate_eq_rejected hrejected
    exact .refused why attributes nonces hdismissed
  · rename_i haccepted
    obtain ⟨password, mechanism, hpassword, hchecked, rfl⟩ := authenticate_eq_accepted haccepted
    exact .accepted hpassword hchecked (Request.decide_effect _ _ _ _)

end Service
end NatRelay
