import NatRelay.Allocation.Run
import NatRelay.Proofs.Allocation.Operations

/-! Operations as a relation between a table, a reply and the table afterwards, with one rule for
each way in which an operation changes the table. `step_rule` says that every step goes by a
rule. -/
namespace NatRelay.Table

/-- Operations that only look at the table. -/
def Op.isQuery : Op → Bool
  | .find _ | .inboundRoute _ _ => true
  | _ => false

/-- Replies of operations that did nothing. -/
def Reply.isRefusal : Reply → Bool
  | .refused _ | .nothing => true
  | _ => false

inductive Step (t : Table) (now : Time) : Op → Reply → Table → Prop
  | idle {op reply} (h : op.isQuery ∨ reply.isRefusal) : Step t now op reply t
  | create {r offset a t'} (h : t.Created r now a t') :
    Step t now (.create r offset) (.allocation a) t'
  | refresh {ft lifetime a} (h : t.find? ft now = some a) :
    Step t now (.refresh ft lifetime) (.lifetime lifetime) (t.update ft (·.renew lifetime now))
  | delete {ft a} (h : t.entries.lookup ft = some a) :
    Step t now (.delete ft) (.allocation a) (t.keep (·.1 ≠ ft))
  | sweep : Step t now .sweep (.removed (Assoc.values (t.entries.filter (·.2.isExpired now))))
      ((t.keep (!·.2.isExpired now)).mapValues (·.prune now))
  | createPermission {ft peer a} (h : t.find? ft now = some a) :
    Step t now (.createPermission ft peer) (.fresh (!a.isPermitted peer now))
      (t.update ft (·.permit peer (now + t.options.permissionLifetime)))
  | bindChannel {ft number peer a isNew} (h : t.find? ft now = some a)
    (hclash : clashes a number peer now = false) :
    Step t now (.bindChannel ft number peer) (.fresh isNew)
      (t.update ft fun a => (a.bind number peer (now + t.options.channelLifetime)).permit
        peer.ip (now + t.options.permissionLifetime))
  | permitSend {ft peer a} (h : t.find? ft now = some a) (hp : a.isPermitted peer.ip now) :
    Step t now (.permitSend ft peer) (.sender a.relay)
      (t.update ft (·.permit peer.ip (now + t.options.permissionLifetime)))
  | channelPeer {ft number a b} (h : t.find? ft now = some a)
    (hb : a.channels.lookup number = some b) (hlive : now < b.expiresAt) :
    Step t now (.channelPeer ft number) (.path a.relay b.peer)
      (t.update ft fun a => (a.extend number (now + t.options.channelLifetime)).permit
        b.peer.ip (now + t.options.permissionLifetime))
  | removeUser {username} :
    Step t now (.removeUser username)
      (.removed (Assoc.values (t.entries.filter (·.2.username = username))))
      (t.keep (·.2.username ≠ username))

/-- Every step goes by a rule. -/
theorem step_rule {t : Table} (c : t.Consistent) (op : Op) (now : Time) :
    t.Step now op (t.step op now).1 (t.step op now).2 := by
  cases op with
  | create r offset =>
    rw [step]
    cases h : t.create r offset now with
    | error e => exact .idle (.inr rfl)
    | ok result => exact .create (c.created h)
  | find ft =>
    rw [step]
    cases t.find? ft now <;> exact .idle (.inl rfl)
  | refresh ft lifetime =>
    rw [step]
    cases h : t.refresh ft lifetime now with
    | error e => exact .idle (.inr rfl)
    | ok t' =>
      obtain ⟨a, ha, rfl⟩ := refresh_eq_ok.1 h
      exact .refresh ha
  | delete ft =>
    rw [step, c.delete_eq]
    cases h : t.entries.lookup ft with
    | none => exact .idle (.inr rfl)
    | some a => exact .delete h
  | sweep =>
    rw [step, c.sweep_eq]
    exact .sweep
  | createPermission ft peer =>
    rw [step]
    cases h : t.createPermission ft peer now with
    | error e => exact .idle (.inr rfl)
    | ok result =>
      obtain ⟨isNew, t'⟩ := result
      obtain ⟨a, ha, -, rfl, rfl⟩ := createPermission_eq_ok.1 h
      exact .createPermission ha
  | bindChannel ft number peer =>
    rw [step]
    cases h : t.bindChannel ft number peer now with
    | error e => exact .idle (.inr rfl)
    | ok result =>
      obtain ⟨isNew, t'⟩ := result
      obtain ⟨a, ha, -, hclash, -, rfl⟩ := bindChannel_eq_ok.1 h
      exact .bindChannel ha hclash
  | permitSend ft peer =>
    rw [step]
    cases h : t.permitSend ft peer now with
    | none => exact .idle (.inr rfl)
    | some result =>
      obtain ⟨relay, t'⟩ := result
      obtain ⟨a, ha, hp, rfl, rfl⟩ := permitSend_eq_some.1 h
      exact .permitSend ha hp
  | channelPeer ft number =>
    rw [step]
    cases h : t.channelPeer ft number now with
    | none => exact .idle (.inr rfl)
    | some result =>
      obtain ⟨⟨relay, peer⟩, t'⟩ := result
      obtain ⟨a, b, ha, hb, hlive, rfl, rfl, rfl⟩ := channelPeer_eq_some.1 h
      exact .channelPeer ha hb hlive
  | inboundRoute relay peer =>
    rw [step]
    cases t.inboundRoute relay peer now <;> exact .idle (.inl rfl)
  | removeUser username =>
    rw [step, c.removeUser_eq]
    exact .removeUser

/-- What the owner of a table set once and for all: its options, and the addresses of its pool. -/
structure SameTerms (t t' : Table) : Prop where
  options : t'.options = t.options
  addresses : t'.pool.addresses = t.pool.addresses
  firstPort : t'.pool.firstPort = t.pool.firstPort
  lastPort : t'.pool.lastPort = t.pool.lastPort

theorem SameTerms.refl (t : Table) : t.SameTerms t := ⟨rfl, rfl, rfl, rfl⟩

theorem SameTerms.trans {t₁ t₂ t₃ : Table} (h : t₁.SameTerms t₂) (h' : t₂.SameTerms t₃) :
    t₁.SameTerms t₃ :=
  ⟨h'.options.trans h.options, h'.addresses.trans h.addresses, h'.firstPort.trans h.firstPort,
    h'.lastPort.trans h.lastPort⟩

theorem SameTerms.offers {t t' : Table} (h : t.SameTerms t') (relay : Endpoint) :
    t'.pool.Offers relay ↔ t.pool.Offers relay := by
  rw [Pool.Offers, Pool.Offers, h.addresses, h.firstPort, h.lastPort]

namespace Step
variable {t t' : Table} {now : Time} {op : Op} {reply : Reply}

theorem sameTerms (h : t.Step now op reply t') : t.SameTerms t' := by
  cases h with
  | create h => rw [h.table]; exact ⟨rfl, rfl, rfl, rfl⟩
  | _ => exact ⟨rfl, rfl, rfl, rfl⟩

/-- Every rule keeps the books. -/
theorem consistent (h : t.Step now op reply t') (c : t.Consistent) : t'.Consistent := by
  cases h with
  | idle => exact c
  | create h => exact h.consistent c
  | delete | removeUser => exact c.keep _
  | sweep => exact (c.keep _).mapValues fun _ => ⟨rfl, rfl⟩
  | refresh | createPermission | bindChannel | permitSend | channelPeer =>
    exact c.update fun _ => ⟨rfl, rfl⟩

end Step

theorem step_consistent {t : Table} (c : t.Consistent) (op : Op) (now : Time) :
    (t.step op now).2.Consistent := (step_rule c op now).consistent c

theorem run_consistent {t : Table} (c : t.Consistent) (ops : List (Op × Time)) :
    (t.run ops).2.Consistent ∧ t.SameTerms (t.run ops).2 := by
  induction ops generalizing t with
  | nil => exact ⟨c, .refl t⟩
  | cons o ops ih =>
    obtain ⟨hc, hterms⟩ := ih (step_consistent c o.1 o.2)
    exact ⟨hc, (step_rule c o.1 o.2).sameTerms.trans hterms⟩

end NatRelay.Table
