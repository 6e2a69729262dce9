import NatRelay.Proofs.Nonce.Window
import NatRelay.Proofs.Service.Calls

/-! What the service does to its nonces. Main statement: `step_turns`, that a step leaves them as
they are, sweeps them, or issues one that it has drawn, and never changes the texts that clients
see. -/
namespace NatRelay
open Stun (Attribute)

namespace NonceTable
variable {draws draws' : List NonceDraw} {last last' now : Time} {draw : NonceDraw}
  {t t' : NonceTable}

/-- What a step of the service can do to its nonces that ends at the time. -/
inductive Turn (draws : List NonceDraw) (last : Time) (t : NonceTable) : NonceTable → Prop
  | kept : Turn draws last t t
  | issued {draw : NonceDraw} {now : Time} (addr : Endpoint) (hdraw : draw ∈ draws)
    (hnow : now ≤ last) : Turn draws last t (t.issue addr draw now).2
  | swept (now : Time) : Turn draws last t (t.sweep now).2

namespace Turn

theorem issue (t : NonceTable) (addr : Endpoint) (draw : NonceDraw) (now : Time) :
    t.Turn [draw] now (t.issue addr draw now).2 :=
  .issued addr List.mem_cons_self (Nat.le_refl now)

theorem getOrIssue (t : NonceTable) (addr : Endpoint) (draw : NonceDraw) (now : Time) :
    t.Turn [draw] now (t.getOrIssue addr draw now).2 := by
  cases hgood : t.good? addr now with
  | some n =>
    rw [getOrIssue_of_good hgood]
    exact .kept
  | none =>
    rw [getOrIssue_of_not_good hgood]
    exact .issue t addr draw now

theorem mono (h : t.Turn draws last t') (hdraws : draws ⊆ draws') (hle : last ≤ last') :
    t.Turn draws' last' t' := by
  cases h with
  | kept => exact .kept
  | issued addr hdraw hnow => exact .issued addr (hdraws hdraw) (Nat.le_trans hnow hle)
  | swept now => exact .swept now

theorem ttl (h : t.Turn draws last t') : t'.ttl = t.ttl := by
  cases h with
  | kept | swept => rfl
  | issued => exact ttl_issue

theorem nodup (h : t.Turn draws last t') (hnodup : t.nonces.keys.Nodup) :
    t'.nonces.keys.Nodup := by
  cases h with
  | kept => exact hnodup
  | @issued draw now addr => exact (issue_spares hnodup addr draw now).nodup
  | swept now => exact hnodup.sublist ((t.live_sublist now).map _)

/-- What all nonces of the table have and all that are drawn. -/
theorem forall_mem (h : t.Turn draws last t') (p : IssuedNonce → Prop)
    (hdraws : ∀ draw ∈ draws, ∀ now ≤ last, p ⟨draw.value, now + t.ttl⟩)
    (hnonces : ∀ e ∈ t.nonces, p e.2) : ∀ e ∈ t'.nonces, p e.2 := by
  cases h with
  | kept => exact hnonces
  | @issued draw now addr hdraw hnow =>
    intro e he
    rcases List.mem_cons.1 he with rfl | he
    · rw [ttl_makeRoom]
      exact hdraws draw hdraw now hnow
    · have hmem := (t.makeRoom_sublist addr draw.victim now).mem (List.mem_of_mem_filter he)
      exact hnonces e hmem
  | swept now => exact fun e he => hnonces e (List.mem_of_mem_filter he)

end Turn
end NonceTable

namespace Service
variable {s s' : Service} {i : Interface} {bytes : Bytes} {addr : Endpoint} {now : Time}
  {draws draws' : List NonceDraw} {last last' : Time}

/-- What an operation may draw its nonces from. -/
def Op.nonceDraws : Op → List NonceDraw
  | process _ _ _ _ draw draw' => [draw.nonce, draw'.nonce]
  | receive _ _ _ draw | resume _ _ draw => [draw.nonce]
  | relayInbound .. | sweep | removeUser _ => []

/-- The texts that clients see stay, and the nonces are what a step can make of them. -/
structure Turns (draws : List NonceDraw) (last : Time) (s s' : Service) : Prop where
  realm : s'.realm = s.realm
  software : s'.software = s.software
  nonces : s.nonces.Turn draws last s'.nonces

theorem Turns.mono (h : Turns draws last s s') (hdraws : draws ⊆ draws') (hle : last ≤ last') :
    Turns draws' last' s s' :=
  ⟨h.realm, h.software, h.nonces.mono hdraws hle⟩

theorem Dismissal.turn {draw : NonceDraw} {why : Refusal} {attributes : List Attribute}
    {nonces : NonceTable} (h : s.Dismissal addr draw now why attributes nonces) :
    s.nonces.Turn [draw] now nonces := by
  cases h with
  | plain => exact .kept
  | reminded => exact .getOrIssue ..
  | rotated => exact .issue ..

theorem Receipt.turns {draw : Draw} {o : Outcome Progress}
    (h : s.Receipt i bytes addr draw now o) : Turns [draw.nonce] now s o.service := by
  cases h with
  | refused _ _ _ _ _ hdismissed => exact ⟨rfl, rfl, hdismissed.turn⟩
  | _ => exact ⟨rfl, rfl, .kept⟩

theorem Settlement.turns {p : PendingRequest} {password? : Option String} {draw : Draw}
    {o : Outcome (Except Stun.Error (Option Response))}
    (h : s.Settlement p password? draw now o) : Turns [draw.nonce] now s o.service := by
  cases h with
  | refused _ _ _ hdismissed => exact ⟨rfl, rfl, hdismissed.turn⟩
  | accepted => exact ⟨rfl, rfl, .kept⟩

theorem step_turns (s : Service) (op : Op) (now : Time) :
    Turns op.nonceDraws (op.ends s now) s (s.step op now).service := by
  cases op with
  | process login i bytes addr draw draw' =>
    change Turns _ _ s (s.process login i bytes addr draw draw' now).service
    rw [process, Op.ends, Op.nonceDraws]
    cases hanswer : (s.receive i bytes addr draw now).answer with
    | done result =>
      exact (s.receive_receipt i bytes addr draw now).turns.mono (by simp) (Nat.le_refl now)
    | asks p =>
      dsimp only
      rw [(receive_asks hanswer).1]
      exact (s.resume_settlement p _ draw' _).turns.mono (by simp) (Nat.le_refl _)
  | receive i bytes addr draw => exact (s.receive_receipt i bytes addr draw now).turns
  | resume p password? draw => exact (s.resume_settlement p password? draw now).turns
  | relayInbound | removeUser => exact ⟨rfl, rfl, .kept⟩
  | sweep => exact ⟨rfl, rfl, .swept now⟩

theorem run_ttl (s : Service) (ops : List (Op × Time)) :
    (s.run ops).service.nonces.ttl = s.nonces.ttl := by
  induction ops generalizing s with
  | nil => rfl
  | cons call ops ih => exact (ih _).trans (s.step_turns call.1 call.2).nonces.ttl

end Service
end NatRelay
