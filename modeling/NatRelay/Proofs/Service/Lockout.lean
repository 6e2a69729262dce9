import NatRelay.Proofs.Service.Gate
import NatRelay.Proofs.Service.Lifetime

/-! A service whose nonces are good for no time. Main statement: `run_never_asks`, that it asks for
nobody's password, whatever happened to it before, so that nobody is let in. -/
namespace NatRelay
open Stun (Datagram Received)

/-- Nonces that are good for no time are over when they are issued. -/
theorem NonceTable.EndsWithin.not_verify {t : NonceTable} {addr : Endpoint} {now : Time}
    (h : t.EndsWithin now) (hzero : t.ttl = 0) (value : String) : ¬ t.verify addr value now := by
  intro hverify
  obtain ⟨n, hgood, -⟩ := verify_iff.1 hverify
  obtain ⟨hfound, hlive⟩ := good?_eq_some.1 hgood
  have hends := h _ (Assoc.mem_of_lookup hfound)
  rw [hzero] at hends
  exact Nat.lt_irrefl now (Nat.lt_of_lt_of_le hlive hends)

namespace Service
variable {s : Service} {i : Interface} {bytes : Bytes} {addr : Endpoint} {draw : Draw}
  {now : Time}

theorem receive_ne_asks (h : s.nonces.EndsWithin now) (hzero : s.nonces.ttl = 0)
    (p : PendingRequest) : (s.receive i bytes addr draw now).answer ≠ .asks p := by
  intro hasks
  obtain ⟨-, r, hclaims, -⟩ := receive_eq_asks hasks
  obtain ⟨nonce, -, hverify⟩ := hclaims.nonce
  exact h.not_verify hzero nonce hverify

/-- No request is ever handled that a client sends. -/
theorem run_never_asks {o : ServiceOptions} (hzero : o.nonceTtl = 0) {ops : List (Op × Time)}
    (htimely : (make o).Timely 0 ops now) (i : Interface) (bytes : Bytes) (addr : Endpoint)
    (draw : Draw) (p : PendingRequest) :
    (((make o).run ops).service.receive i bytes addr draw now).answer ≠ .asks p :=
  receive_ne_asks (run_noncesEndWithin htimely) (((make o).run_ttl ops).trans hzero) p

/-- So no request for time is granted that comes as a datagram. -/
theorem process_not_success {login : Login} {draw' : Draw} {r : Received} {response : Response}
    (h : s.nonces.EndsWithin now) (hzero : s.nonces.ttl = 0)
    (hdecoded : Datagram.decode bytes = .ok (.message r))
    (htime : r.message.IsForTime s.table.options)
    (hsends : (s.process login i bytes addr draw draw' now).answer = .ok (some response)) :
    response.isSuccess = false := by
  rw [process] at hsends
  cases hanswer : (s.receive i bytes addr draw now).answer with
  | done result =>
    rw [hanswer] at hsends
    obtain rfl : result = .ok (some response) := hsends
    exact receive_not_success hanswer hdecoded htime
  | asks p => exact absurd hanswer (receive_ne_asks h hzero p)

end Service
end NatRelay
