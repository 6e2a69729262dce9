import NatRelay.Proofs.Service.Permitting

/-! A Refresh from end to end. Main statement: `run_refreshes`, that a Refresh is refused and
changes nothing, or moves the end of the allocation and nothing else, or takes the allocation away,
after which deleting it again is granted as often as it is asked for. -/
namespace NatRelay
open Stun (Attribute Message)

/-- What a request for time desires it is granted. -/
theorem Table.grantedLifetime_of_desired {t : Table} {requested : Option UInt32}
    (h : t.options.desiredLifetime requested ≠ 0) :
    t.grantedLifetime requested = t.options.desiredLifetime requested := if_neg h

namespace Request
variable {r : Request} {t : Table} {now : Time} {a : Allocation}

theorem refresh_of_absent (h : t.find? r.fiveTuple now = none) :
    r.refresh t now =
      if t.options.desiredLifetime r.message.lifetime = 0 then
        { verdict := lifetimeIs 0, table := t }
      else refused t .allocationMismatch := by
  rw [refresh, owned, h]

theorem refresh_of_foreign (hfound : t.find? r.fiveTuple now = some a)
    (hforeign : a.username ≠ r.username) : r.refresh t now = refused t .wrongCredentials := by
  rw [refresh, owned, hfound]
  simp only [if_neg hforeign]

theorem refresh_of_family (howned : r.owned t now = .ok a) {f : Family}
    (hasked : r.message.requestedFamily = some f) (hother : f ≠ a.family) :
    r.refresh t now = refused t .peerAddressFamilyMismatch := by
  rw [refresh, howned, hasked]
  simp only [Option.any_some, decide_eq_true hother, if_true]

/-- Past the checks a Refresh is a matter of the lifetime alone. -/
theorem refresh_of_owned (howned : r.owned t now = .ok a)
    (hfamily : ∀ f, r.message.requestedFamily = some f → f = a.family) :
    r.refresh t now =
      if t.options.desiredLifetime r.message.lifetime = 0 then r.release t
      else r.extend t (t.options.desiredLifetime r.message.lifetime) now := by
  have hagrees : ¬ r.message.requestedFamily.any (· ≠ a.family) = true := by
    rw [Option.any_eq_true]
    rintro ⟨f, hf, hne⟩
    exact of_decide_eq_true hne (hfamily f hf)
  rw [refresh, howned]
  dsimp only
  rw [if_neg hagrees]

theorem release_of_owned (c : t.Consistent) (howned : r.owned t now = .ok a) :
    r.release t =
      { verdict := lifetimeIs 0
        events := [.allocationAborted r.addr a.username a.relay]
        table := t.keep (·.1 ≠ r.fiveTuple) } := by
  rw [release, c.delete_eq, (Table.find?_eq_some.1 (owned_eq_ok.1 howned).1).1]
  rfl

theorem extend_of_owned (howned : r.owned t now = .ok a) (lifetime : Duration) :
    r.extend t lifetime now =
      { verdict := lifetimeIs (wholeSeconds lifetime)
        events := [.allocationRefreshed r.addr r.username (wholeSeconds lifetime)]
        table := t.update r.fiveTuple (·.renew lifetime now) } := by
  rw [extend, Table.refresh_eq_ok.2 ⟨a, (owned_eq_ok.1 howned).1, rfl⟩]

/-- A Refresh is refused, or its answer is the lifetime that it desires. -/
theorem verdict_refresh (r : Request) (t : Table) (now : Time) :
    (∃ why, (r.refresh t now).verdict = .refuse why) ∨ (r.refresh t now).verdict =
      lifetimeIs (wholeSeconds (t.options.desiredLifetime r.message.lifetime)) := by
  rw [refresh]
  split
  · split
    · rename_i hzero
      exact .inr (congrArg (lifetimeIs ∘ wholeSeconds) hzero.symm)
    · exact .inl ⟨_, rfl⟩
  · exact .inl ⟨_, rfl⟩
  split
  · exact .inl ⟨_, rfl⟩
  split
  · rename_i hzero
    rw [hzero, release]
    split <;> exact .inr rfl
  · rw [extend]
    split
    · exact .inr rfl
    · exact .inl ⟨_, rfl⟩

end Request

/-- The client is told of a lifetime in the bytes it gets. -/
theorem Verdict.tells_lifetimeIs {m : Message} {software : String} {interface : Endpoint}
    {key? : Option Stun.Key} {n : UInt32} {response : Response}
    (h : (Request.lifetimeIs n).respond m software interface key? = .ok response) :
    response.Tells n := by
  refine tells_of_respond ?_ rfl h
  intro a ha
  obtain rfl := List.mem_singleton.1 ha
  rfl

namespace Service
variable {s : Service} {op : Op} {now : Time} {x : Handed} {a : Allocation}

/-! ### What a Refresh comes to -/

/-- A request that is refused. -/
theorem refuses_of_decide {why : Refusal} (h : op.handed? s now = some x)
    (hrefused : x.decide s.table (op.ends s now) = Request.refused s.table why) :
    s.Refuses op x why (s.step op now) := by
  rw [step_of_handed h, hrefused]
  exact ⟨rfl, List.append_nil _, rfl⟩

theorem decide_refresh (hmethod : x.message.method = .refresh) (t : Table) :
    x.decide t now = x.request.refresh t now := by
  rw [Handed.decide, Request.decide]
  change x.request.message.method = .refresh at hmethod
  rw [hmethod]

/-- A step grants a lifetime of zero where there is nothing to take away; it does nothing else. -/
structure Acknowledges (s : Service) (op : Op) (x : Handed) (out : Outcome Reply) : Prop where
  answer : out.answer = x.answer s (Request.lifetimeIs 0)
  events : out.events = op.announces x
  service : out.service = s

/-- The operation hands on a Refresh that is to delete the allocation of the five-tuple. -/
structure Op.Deletes (s : Service) (ft : FiveTuple) (call : Op × Time) (x : Handed) : Prop where
  handed : call.1.handed? s call.2 = some x
  method : x.message.method = .refresh
  fiveTuple : x.request.fiveTuple = ft
  desired : s.table.options.desiredLifetime x.message.lifetime = 0

/-- A step takes the allocation `a` away. -/
structure Releases (s : Service) (op : Op) (x : Handed) (a : Allocation) (out : Outcome Reply) :
    Prop where
  answer : out.answer = x.answer s (Request.lifetimeIs 0)
  events : out.events = op.announces x ++
    [.allocationAborted x.request.addr a.username a.relay]
  gone : out.service.table.entries.lookup x.request.fiveTuple = none
  unleased : a.relay ∉ out.service.table.pool.leased
  unindexed : out.service.table.relays.lookup a.relay = none
  others : ∀ ft, ft ≠ x.request.fiveTuple →
    out.service.table.entries.lookup ft = s.table.entries.lookup ft
  spared : ∀ relay, relay ≠ a.relay →
    (relay ∈ out.service.table.pool.leased ↔ relay ∈ s.table.pool.leased) ∧
      out.service.table.relays.lookup relay = s.table.relays.lookup relay
  service : out.service = { s with table := out.service.table }
  /-- Deleting again is granted as often as it is asked for. The host hears of the lookups alone,
  and nothing changes, so that every next request finds the service that the first one left. -/
  again : ∀ calls xs, List.Forall₂ (Op.Deletes out.service x.request.fiveTuple) calls xs →
    out.service.run calls =
      { answer := xs.map (·.answer out.service (Request.lifetimeIs 0))
        events := (List.zipWith (fun call x' => call.1.announces x') calls xs).flatten
        service := out.service }

/-- A step moves the end of the allocation `a`. -/
structure Extends (s : Service) (op : Op) (now : Time) (x : Handed) (a : Allocation)
    (lifetime : Duration) (out : Outcome Reply) : Prop where
  answer : out.answer = x.answer s (Request.lifetimeIs (Request.wholeSeconds lifetime))
  events : out.events = op.announces x ++
    [.allocationRefreshed x.request.addr a.username (Request.wholeSeconds lifetime)]
  entry : out.service.table.entries.lookup x.request.fiveTuple =
    some { a with lifetime, expiresAt := now + lifetime }
  others : ∀ ft, ft ≠ x.request.fiveTuple →
    out.service.table.entries.lookup ft = s.table.entries.lookup ft
  service : out.service = { s with table := { s.table with
    entries := out.service.table.entries } }
  default_le : s.table.options.defaultLifetime ≤ lifetime
  le_max : s.table.options.defaultLifetime ≤ s.table.options.maxLifetime →
    lifetime ≤ s.table.options.maxLifetime

/-- Where there is no live allocation, a Refresh that is to delete it is granted. -/
theorem acknowledges_of_absent (h : op.handed? s now = some x)
    (hmethod : x.message.method = .refresh)
    (habsent : s.table.find? x.request.fiveTuple (op.ends s now) = none)
    (hdesired : s.table.options.desiredLifetime x.message.lifetime = 0) :
    s.Acknowledges op x (s.step op now) := by
  rw [step_of_handed h]
  dsimp only
  rw [decide_refresh hmethod, Request.refresh_of_absent habsent]
  change s.table.options.desiredLifetime x.request.message.lifetime = 0 at hdesired
  rw [if_pos hdesired]
  exact ⟨rfl, List.append_nil _, rfl⟩

/-- Requests to delete what is not there, one after the other. -/
theorem run_deletes {ft : FiveTuple} {calls : List (Op × Time)} {xs : List Handed}
    (hgone : s.table.entries.lookup ft = none) (h : List.Forall₂ (Op.Deletes s ft) calls xs) :
    s.run calls =
      { answer := xs.map (·.answer s (Request.lifetimeIs 0))
        events := (List.zipWith (fun call x => call.1.announces x) calls xs).flatten
        service := s } := by
  induction h with
  | nil => rfl
  | @cons call x calls xs hfirst _ ih =>
    have habsent : s.table.find? x.request.fiveTuple (call.1.ends s call.2) = none := by
      rw [hfirst.fiveTuple, Table.find?, hgone]
      rfl
    obtain ⟨hanswer, hevents, hservice⟩ :=
      acknowledges_of_absent hfirst.handed hfirst.method habsent hfirst.desired
    rw [run, hanswer, hevents, hservice, ih]
    rfl

theorem releases_of_owned (c : s.table.Consistent) (h : op.handed? s now = some x)
    (hmethod : x.message.method = .refresh)
    (howned : x.request.owned s.table (op.ends s now) = .ok a)
    (hfamily : ∀ f, x.message.requestedFamily = some f → f = a.family)
    (hdesired : s.table.options.desiredLifetime x.message.lifetime = 0) :
    s.Releases op x a (s.step op now) := by
  have hlookup := (Table.find?_eq_some.1 (Request.owned_eq_ok.1 howned).1).1
  have hspares := c.spares_key hlookup
  rw [step_of_handed h]
  dsimp only
  rw [decide_refresh hmethod, Request.refresh_of_owned howned hfamily]
  change s.table.options.desiredLifetime x.request.message.lifetime = 0 at hdesired
  rw [if_pos hdesired, Request.release_of_owned c howned]
  have hgone : (s.table.keep (·.1 ≠ x.request.fiveTuple)).entries.lookup x.request.fiveTuple =
      none := by
    rw [Table.lookup_keep_ne, if_pos rfl]
  have hunleased : a.relay ∉ (s.table.keep (·.1 ≠ x.request.fiveTuple)).pool.leased := by
    intro hleased
    have hspared := (List.mem_filter.1 hleased).2
    rw [hspares] at hspared
    exact of_decide_eq_true hspared rfl
  refine ⟨rfl, rfl, hgone, hunleased, (c.keep _).lookup_relays_of_free hunleased,
    fun ft hft => ?_, fun relay hrelay => ⟨?_, ?_⟩, rfl, fun calls xs => run_deletes hgone⟩
  · exact (Table.lookup_keep_ne ..).trans (if_neg hft)
  · refine List.mem_filter.trans (and_iff_left ?_)
    rw [hspares]
    exact decide_eq_true hrelay
  · refine (Assoc.lookup_filter c.relays_nodup _).trans ?_
    simp only [hspares, decide_eq_true hrelay]
    cases s.table.relays.lookup relay <;> rfl

theorem extends_of_owned (h : op.handed? s now = some x)
    (hmethod : x.message.method = .refresh)
    (howned : x.request.owned s.table (op.ends s now) = .ok a)
    (hfamily : ∀ f, x.message.requestedFamily = some f → f = a.family)
    (hdesired : s.table.options.desiredLifetime x.message.lifetime ≠ 0) :
    s.Extends op (op.ends s now) x a (s.table.options.desiredLifetime x.message.lifetime)
      (s.step op now) := by
  obtain ⟨hfound, howner⟩ := Request.owned_eq_ok.1 howned
  have hgranted := s.table.grantedLifetime_of_desired hdesired
  rw [step_of_handed h]
  dsimp only
  rw [decide_refresh hmethod, Request.refresh_of_owned howned hfamily]
  change s.table.options.desiredLifetime x.request.message.lifetime ≠ 0 at hdesired
  rw [if_neg hdesired, Request.extend_of_owned howned]
  refine ⟨rfl, by rw [howner]; rfl, ?_, fun ft hft => Table.lookup_update_ne _ _ hft, rfl, ?_, ?_⟩
  · change (Table.update _ _ _).entries.lookup _ = _
    rw [Table.lookup_update, if_pos rfl, (Table.find?_eq_some.1 hfound).1]
    rfl
  · rw [← hgranted]
    exact s.table.default_le_grantedLifetime _
  · rw [← hgranted]
    exact fun hmax => s.table.grantedLifetime_le_max hmax _

/-- Whoever could be told a nonce of sixteen bytes is told what became of a Refresh. -/
theorem exists_answer_refresh (hmethod : x.message.method = .refresh)
    (hroom : 56 + Bytes.paddedLength (Bytes.ofText s.software).length ≤ 65535) (t : Table)
    (now : Time) :
    ∃ response, x.answer s (x.decide t now).verdict = .result (.ok (some response)) := by
  rw [decide_refresh hmethod]
  obtain ⟨response, hresponse⟩ : ∃ response, (x.request.refresh t now).verdict.respond x.message
      s.software x.pending.interface.listening (some x.key) = .ok response := by
    rcases x.request.verdict_refresh t now with ⟨why, hverdict⟩ | hverdict
    · rw [hverdict]
      exact refuse_of_room (by omega) x.message why _ _
    · rw [hverdict]
      refine Verdict.respond_of_room (by simp [Attribute.isProtection]) ?_
      have hcode : x.key.mechanism.macLength ≤ 32 := by cases x.key.mechanism <;> decide
      simp only [Verdict.successLength, Stun.recordsLength, Attribute.value, Bytes.length_be32]
      have hword : Bytes.paddedLength 4 = 4 := rfl
      omega
  exact ⟨response, by rw [Handed.answer, hresponse]; rfl⟩

/-- A granted Refresh tells the lifetime in the bytes of its answer. -/
theorem tells_of_answer (hmethod : x.message.method = .refresh) {t : Table} {response : Response}
    (hanswer : x.answer s (x.decide t now).verdict = .result (.ok (some response)))
    (hsuccess : response.isSuccess) :
    response.Tells (Request.wholeSeconds (t.options.desiredLifetime x.message.lifetime)) := by
  rw [decide_refresh hmethod] at hanswer
  have hrespond := Stun.some_map_eq_ok.1 (Reply.result.inj hanswer)
  rcases x.request.verdict_refresh t now with ⟨why, hverdict⟩ | hverdict
  · rw [Verdict.isSuccess_of_respond hrespond, hverdict] at hsuccess
    cases hsuccess
  · rw [hverdict] at hrespond
    exact Verdict.tells_lifetimeIs hrespond

/-- Behind every run, a Refresh that a password has proved is refused where it asks for more time
and there is no live allocation, where the allocation is another user's and where it is of another
family than asked for; to delete what is not there is granted; and of what is the user's own either
the end moves or nothing is left. -/
theorem run_refreshes (o : ServiceOptions) (ops : List (Op × Time)) :
    let s := ((make o).run ops).service
    ∀ op now x, op.handed? s now = some x → x.message.method = .refresh →
      let ft := x.request.fiveTuple
      let desired := s.table.options.desiredLifetime x.message.lifetime
      let out := s.step op now
      (s.table.find? ft (op.ends s now) = none →
        (desired = 0 → s.Acknowledges op x out) ∧
        (desired ≠ 0 → s.Refuses op x .allocationMismatch out)) ∧
      (∀ a, s.table.find? ft (op.ends s now) = some a →
        (a.username ≠ x.request.username → s.Refuses op x .wrongCredentials out) ∧
        (a.username = x.request.username →
          (∀ f, x.message.requestedFamily = some f → f ≠ a.family →
            s.Refuses op x .peerAddressFamilyMismatch out) ∧
          ((∀ f, x.message.requestedFamily = some f → f = a.family) →
            (desired = 0 → s.Releases op x a out) ∧
            (desired ≠ 0 → s.Extends op (op.ends s now) x a desired out)))) ∧
      (∀ response, out.answer = .result (.ok (some response)) → response.isSuccess →
        response.Tells (Request.wholeSeconds desired)) ∧
      (s.HasRoom ∨ (∃ nonce, 16 ≤ (Bytes.ofText nonce).length ∧ s.CanTell nonce) →
        ∃ response, out.answer = .result (.ok (some response))) := by
  intro s op now x h hmethod ft desired out
  have c : s.table.Consistent := (run_sound (make_sound o) ops).table
  have hanswer : out.answer = _ := congrArg Outcome.answer (step_of_handed h)
  refine ⟨fun habsent => ⟨fun hdesired => ?_, fun hdesired => ?_⟩,
    fun a hfound => ⟨fun hforeign => ?_, fun howner => ?_⟩,
    fun response hresponse hsuccess => ?_, fun hroom => ?_⟩
  · exact acknowledges_of_absent h hmethod habsent hdesired
  · refine refuses_of_decide h ((decide_refresh hmethod _).trans ?_)
    exact (Request.refresh_of_absent habsent).trans (if_neg hdesired)
  · refine refuses_of_decide h ((decide_refresh hmethod _).trans ?_)
    exact Request.refresh_of_foreign hfound hforeign
  · have howned := Request.owned_eq_ok.2 ⟨hfound, howner⟩
    refine ⟨fun f hasked hother => ?_, fun hfamily => ⟨?_, ?_⟩⟩
    · refine refuses_of_decide h ((decide_refresh hmethod _).trans ?_)
      exact Request.refresh_of_family howned hasked hother
    · exact releases_of_owned c h hmethod howned hfamily
    · exact extends_of_owned h hmethod howned hfamily
  · exact tells_of_answer hmethod (hanswer ▸ hresponse) hsuccess
  · rw [hanswer]
    refine exists_answer_refresh hmethod ?_ s.table _
    rcases hroom with hroom | ⟨nonce, hlength, htold⟩
    · have htext : (Bytes.ofText s.software).length ≤ 65428 := hroom
      rw [Bytes.paddedLength]
      omega
    · have hpadded := Bytes.le_paddedLength (Bytes.ofText nonce).length
      have hfits := canTell_iff.1 htold
      omega

def releaseMac : Bytes :=
  [67, 203, 164, 198, 92, 134, 63, 134, 131, 151, 126, 105, 131, 165, 166, 195, 62, 99, 182, 41]

/-- A Refresh to delete the allocation. -/
def sampleRelease : Op := sampleDatagram (sampleBytes 4 6 [0, 13, 0, 4, 0, 0, 0, 0] releaseMac)

/-- What `sampleRelease` holds. -/
def releaseMessage : Stun.Message := sampleMessage .refresh 6 [.lifetime 0] releaseMac

theorem conveys_release : Conveys sampleRelease releaseMessage :=
  ⟨_, 52, rfl, by decide +kernel, rfl, rfl, .inr (.inl rfl), rfl, rfl, rfl, rfl, by decide +kernel⟩

/-- An allocation is deleted, and deleted once more. -/
theorem run_refreshes_released :
    let o := sampleOptions (seconds 600)
    let s := ((make o).run [(sampleInquiry, 0), (sampleAllocate, 0)]).service
    let out := s.step sampleRelease 1000
    ∃ x a, sampleRelease.handed? s 1000 = some x ∧ x.message.method = .refresh ∧
      s.table.find? x.request.fiveTuple (sampleRelease.ends s 1000) = some a ∧
      a.username = x.request.username ∧ x.message.requestedFamily = none ∧
      s.table.options.desiredLifetime x.message.lifetime = 0 ∧
      s.Releases sampleRelease x a out ∧
      (∃ response, out.answer = .result (.ok (some response))) ∧
      (∃ x', Op.Deletes out.service x.request.fiveTuple (sampleRelease, 2000) x' ∧
        out.service.run [(sampleRelease, 2000)] =
          { answer := [x'.answer out.service (Request.lifetimeIs 0)]
            events := [.passwordRequested sampleClient "u"]
            service := out.service }) := by
  intro o s out
  let ft : FiveTuple := .udp sampleClient sampleInterface.listening
  have hrun : s = _ := run_allocate (by decide +kernel)
  obtain ⟨hready, hdesired, hfound, hroom⟩ :
      (s.realm = "r" ∧ s.nonces.verify sampleClient "n" 1000) ∧
      s.table.options.desiredLifetime releaseMessage.lifetime = 0 ∧
      (s.table.find? ft 1000).any (fun a => decide (a.username = "u")) ∧
      (Bytes.ofText s.software).length ≤ 65428 := by
    rw [hrun]
    decide +kernel
  obtain ⟨hends, hout⟩ : _ ∧ out = _ := conveys_release.step hready
  obtain ⟨hready', hdesired'⟩ :
      (out.service.realm = "r" ∧ out.service.nonces.verify sampleClient "n" 2000) ∧
      out.service.table.options.desiredLifetime releaseMessage.lifetime = 0 := by
    rw [hout, hrun]
    decide +kernel
  obtain ⟨x, h, hrequest⟩ := conveys_release.handed hready
  obtain ⟨x', h', hrequest'⟩ := conveys_release.handed hready'
  have hrefreshes := run_refreshes o [(sampleInquiry, 0), (sampleAllocate, 0)] sampleRelease 1000
  -- Rewritten with, these keep the services from being worked out once more.
  have hs : ((make o).run [(sampleInquiry, 0), (sampleAllocate, 0)]).service = s := rfl
  have hstep : s.step sampleRelease 1000 = out := rfl
  simp only [hs, hstep] at hrefreshes
  clear_value out s
  have hmethod : x.message.method = .refresh := congrArg (·.message.method) hrequest
  have hfamily : x.message.requestedFamily = none :=
    congrArg (·.message.requestedFamily) hrequest
  have hlifetime : x.message.lifetime = releaseMessage.lifetime :=
    congrArg (·.message.lifetime) hrequest
  have hft : x.request.fiveTuple = ft := congrArg Request.fiveTuple hrequest
  have hname : x.request.username = "u" := congrArg (·.username) hrequest
  have hsame : x'.request = x.request := hrequest'.trans hrequest.symm
  have hannounced : sampleRelease.announces x' = [.passwordRequested sampleClient "u"] := by
    change [Event.passwordRequested x'.request.addr x'.request.username] = _
    rw [hrequest']
    rfl
  obtain ⟨a, hfound, ha⟩ := (Option.any_eq_true ..).1 hfound
  obtain ⟨-, hown, -, hsent⟩ := hrefreshes x h hmethod
  rw [← hft, ← hends] at hfound
  rw [← hlifetime] at hdesired hdesired'
  have howner := (of_decide_eq_true ha).trans hname.symm
  have hreleases := (((hown a hfound).2 howner).2 (by simp [hfamily])).1 hdesired
  have hdeletes : Op.Deletes out.service x.request.fiveTuple (sampleRelease, 2000) x' :=
    ⟨h', (congrArg (·.message.method) hsame).trans hmethod, congrArg Request.fiveTuple hsame,
      (congrArg _ (congrArg (·.message.lifetime) hsame)).trans hdesired'⟩
  refine ⟨x, a, h, hmethod, hfound, howner, hfamily, hdesired, hreleases, hsent (.inl hroom), x',
    hdeletes, ?_⟩
  rw [hreleases.again [(sampleRelease, 2000)] [x'] (.cons hdeletes .nil), ← hannounced]
  rfl

end Service
end NatRelay
