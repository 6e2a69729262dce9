import NatRelay.Allocation.Run
import NatRelay.Event.Kind
import NatRelay.Proofs.Service.Process
import NatRelay.Proofs.Stun.RoundTrip

/-! Refused requests leave no trace. Main statement: `process_error`, that nothing changed for a
client that is told of an error, and that the host heard of no more than a lookup. -/
namespace NatRelay

/-- Whether a packet tells a client that its request was refused. -/
def Response.isError : Response → Bool
  | reply _ _ data => Stun.peekClass data = some .error
  | toPeer .. | toClient .. => false

/-- Whether the answer of a step tells a client of an error. -/
def Outcome.isError (o : Outcome (Except Stun.Error (Option Response))) : Bool :=
  match o.answer with
  | .ok (some response) => response.isError
  | _ => false

theorem Outcome.isError_iff {o : Outcome (Except Stun.Error (Option Response))} :
    o.isError ↔ ∃ response, o.answer = .ok (some response) ∧ response.isError := by
  rw [isError]
  split
  · rename_i response h
    simp [h]
  · rename_i h
    simp only [Bool.false_eq_true, false_iff]
    rintro ⟨response, hanswer, -⟩
    exact h response hanswer

namespace Verdict

def isRefusal : Verdict → Bool
  | success .. => false
  | refusal .. => true

/-- A verdict is told by its message, in an answer to the client. -/
theorem respond_eq_ok {v : Verdict} {m : Stun.Message} {software : String} {interface : Endpoint}
    {key? : Option Stun.Key} {response : Response}
    (h : v.respond m software interface key? = .ok response) :
    ∃ relay? key?' data, response = .reply interface relay? data ∧
      (v.message m software).encode key?' true = .ok data := by
  cases v with
  | success | refusal =>
    obtain ⟨data, hdata, h⟩ := Stun.bind_eq_ok.1 h
    obtain rfl := Except.ok.inj h
    exact ⟨_, _, data, rfl, hdata⟩

/-- Just the refusals are told as errors. -/
theorem isError_of_respond {v : Verdict} {m : Stun.Message} {software : String}
    {interface : Endpoint} {key? : Option Stun.Key} {response : Response}
    (h : v.respond m software interface key? = .ok response) :
    response.isError = v.isRefusal := by
  obtain ⟨relay?, key?', data, rfl, hdata⟩ := respond_eq_ok h
  rw [Response.isError, Stun.Message.peekClass_of_encode hdata]
  cases v <;> rfl

end Verdict

/-- Of all that a request can come to, the refusals alone are told as errors. -/
theorem Request.Effect.spares {r : Request} {t : Table} {offset : Nat} {now : Time} {d : Decision}
    (h : r.Effect t offset now d) (hrefusal : d.verdict.isRefusal) :
    d.table = t ∧ d.events = [] := by
  cases h with
  | refused why => exact ⟨rfl, rfl⟩
  | _ => cases hrefusal

namespace Service
variable {s : Service} {i : Interface} {bytes : Bytes} {addr : Endpoint} {now : Time}
  {response : Response}

theorem isError_of_reply {m : Stun.Message} {v : Verdict}
    (h : s.reply m i v = .ok (some response)) : response.isError = v.isRefusal := by
  exact Verdict.isError_of_respond (Stun.some_map_eq_ok.1 h)

/-- Without a password errors are told in answers to requests alone, of which the host hears
nothing. -/
theorem receive_error {draw : Draw}
    (h : (s.receive i bytes addr draw now).answer = .done (.ok (some response)))
    (herror : response.isError) :
    (s.receive i bytes addr draw now).service.table = s.table ∧
      (s.receive i bytes addr draw now).events = [] := by
  have hreceipt := s.receive_receipt i bytes addr draw now
  generalize s.receive i bytes addr draw now = o at h hreceipt ⊢
  cases hreceipt with
  | misunderstood | refused => exact ⟨rfl, rfl⟩
  | sent | sentOnChannel =>
    obtain rfl := Option.some.inj (Except.ok.inj (Progress.done.inj h))
    cases herror
  | observed =>
    have hsuccess := isError_of_reply (Progress.done.inj h)
    rw [herror] at hsuccess
    cases hsuccess
  | malformed | unanswered | asks => cases h

theorem resume_error {p : PendingRequest} {password? : Option String} {draw : Draw}
    (h : (s.resume p password? draw now).isError) :
    (s.resume p password? draw now).service.table = s.table ∧
      (s.resume p password? draw now).events = [] := by
  obtain ⟨response, h, herror⟩ := Outcome.isError_iff.1 h
  have hsettled := s.resume_settlement p password? draw now
  generalize s.resume p password? draw now = o at h hsettled ⊢
  cases hsettled with
  | refused => exact ⟨rfl, rfl⟩
  | accepted _ _ heffect =>
    rw [Verdict.isError_of_respond (Stun.some_map_eq_ok.1 h)] at herror
    exact heffect.spares herror

/-- Where a client is told of an error, the table is what it was, and the host heard of nothing but
the lookup. So it is with a lookup that takes long, whatever happened to the service in between. -/
theorem process_error (s : Service) (login : Login) (i : Interface) (bytes : Bytes)
    (addr : Endpoint) (draw draw' : Draw) (now : Time) :
    let o := s.process login i bytes addr draw draw' now
    let first := s.receive i bytes addr draw now
    (o.isError → o.service.table = s.table ∧ ∀ e ∈ o.events, e.kind = .passwordRequested) ∧
      ∀ p, first.answer = .asks p →
        first.service.table = s.table ∧ first.events = [.passwordRequested addr p.username] ∧
          ∀ (mid : Service) (password? : Option String) (later : Time),
            let second := mid.resume p password? draw' later
            second.isError → second.service.table = mid.table ∧ second.events = [] := by
  intro o first
  refine ⟨?_, ?_⟩
  · intro herror
    cases hanswer : (s.receive i bytes addr draw now).answer with
    | done result =>
      simp only [o, process, hanswer] at herror ⊢
      obtain ⟨response, hresponse, herror⟩ := Outcome.isError_iff.1 herror
      obtain rfl : result = .ok (some response) := hresponse
      obtain ⟨htable, hevents⟩ := receive_error hanswer herror
      refine ⟨htable, ?_⟩
      rw [hevents]
      simp
    | asks p =>
      simp only [o, process, hanswer] at herror ⊢
      obtain ⟨hservice, hevents⟩ := receive_asks hanswer
      obtain ⟨htable, hevents'⟩ := resume_error herror
      refine ⟨htable.trans (congrArg Service.table hservice), ?_⟩
      rw [hevents, hevents']
      simp [Event.kind]
  · intro p hasks
    obtain ⟨hservice, hevents⟩ := receive_asks hasks
    exact ⟨congrArg Service.table hservice, hevents, fun mid password? later => resume_error⟩

/-- Somebody without a password asks to delete the allocation of a client: it stays. -/
theorem process_error_unauthorized :
    let client : Endpoint := .v4 0xC0000201 4000
    let server : Endpoint := .v4 0xC0000202 3478
    let empty : Service := .make
      { realm := "r", software := "s", relayAddresses := [.v4 0x0A000001]
        firstPort := 50000, lastPort := 50000 }
    let s : Service := { empty with
      table := (empty.table.run [(.create ⟨.udp client server, "u", 2, .v4, none⟩ 0, 0)]).2
      nonces := { empty.nonces with nonces := [(client, ⟨"n", 3600000⟩)] } }
    let request : Bytes := [0, 4, 0, 56, 33, 18, 164, 66, 0, 0, 0, 0, 0, 0, 0, 0, 0, 0, 0, 3,
      0, 13, 0, 4, 0, 0, 0, 0, 0, 6, 0, 1, 117, 0, 0, 0, 0, 20, 0, 1, 114, 0, 0, 0,
      0, 21, 0, 1, 110, 0, 0, 0, 0, 8, 0, 20, 0, 0, 0, 0, 0, 0, 0, 0, 0, 0, 0, 0, 0, 0, 0, 0, 0, 0,
      0, 0]
    let o := s.process (.ofUsers [] 5000) ⟨server, server⟩ request client
      { nonce := { value := "n" } } { nonce := { value := "m" } } 2000
    s.table.size = 1 ∧ o.isError ∧ o.events.length = 1 ∧
      o.service.table = s.table ∧ ∀ e ∈ o.events, e.kind = .passwordRequested := by
  intro client server empty s request o
  have hsize : s.table.size = 1 := by decide +kernel
  have herror : o.isError := by decide +kernel
  have hevents : o.events.length = 1 := by decide +kernel
  exact ⟨hsize, herror, hevents, (process_error s (.ofUsers [] 5000) ⟨server, server⟩ request
    client _ _ 2000).1 herror⟩

end Service
end NatRelay
