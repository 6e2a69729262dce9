import NatRelay.Proofs.Service.Admission
import NatRelay.Proofs.Service.Calls
import NatRelay.Proofs.Service.Turnover

/-! What the host can tell of the allocations from the events alone. Main statement:
`announced_iff`, that it knows of those in the table, and believes to be there those besides that
expired and made room for another of their client before they were swept. -/
namespace NatRelay
open Stun (Datagram Message)

/-- The host heard that the relayed address is taken, and not since that it was given back. -/
def Announced (es : List Event) (relay : Endpoint) : Prop :=
  ∃ before e after, es = before ++ e :: after ∧ e.opened? = some relay ∧
    ∀ e' ∈ after, e'.closed? ≠ some relay

/-- Some allocation has the relayed address. -/
def Table.Holds (t : Table) (relay : Endpoint) : Prop := ∃ e ∈ t.entries, e.2.relay = relay

/-- An allocation that expired was replaced by a new one of its five-tuple with another address. -/
def Table.Replaced (t t' : Table) (relay : Endpoint) : Prop :=
  ∃ ft a b, t.entries.lookup ft = some a ∧ a.relay = relay ∧ t'.entries.lookup ft = some b ∧
    b.relay ≠ relay ∧ a.expiresAt ≤ b.createdAt

/-- In a run the allocation with the address was replaced, and the host has not since heard that the
address was given back. -/
def Service.Lost (s : Service) : List (Op × Time) → Endpoint → Prop
  | [], _ => False
  | (op, now) :: rest, relay =>
    let o := s.step op now
    o.service.Lost rest relay ∨ s.table.Replaced o.service.table relay ∧
      ∀ e ∈ (o.service.run rest).events, e.closed? ≠ some relay

/-- A place in two lists, one behind the other, is a place in one of them. -/
theorem split_append {α : Type} {l l' before after : List α} {x : α}
    (h : l ++ l' = before ++ x :: after) :
    (∃ mid, before = l ++ mid ∧ l' = mid ++ x :: after) ∨
      ∃ mid, l = before ++ x :: mid ∧ after = mid ++ l' := by
  rcases List.append_eq_append_iff.1 h with ⟨mid, rfl, hl'⟩ | ⟨mid, rfl, hmid⟩
  · exact .inl ⟨mid, rfl, hl'⟩
  · cases mid with
    | nil => exact .inl ⟨[], by simp, by simpa using hmid.symm⟩
    | cons y mid =>
      obtain ⟨rfl, rfl⟩ := List.cons.inj hmid
      exact .inr ⟨mid, rfl, rfl⟩

theorem announced_append {es es' : List Event} {relay : Endpoint} :
    Announced (es ++ es') relay ↔
      Announced es' relay ∨ Announced es relay ∧ ∀ e ∈ es', e.closed? ≠ some relay := by
  constructor
  · rintro ⟨before, e, after, h, hopened, hafter⟩
    rcases split_append h with ⟨mid, rfl, hes'⟩ | ⟨mid, hes, rfl⟩
    · exact .inl ⟨mid, e, after, hes', hopened, hafter⟩
    · refine .inr ⟨⟨before, e, mid, hes, hopened, ?_⟩, ?_⟩
      · exact fun e' he' => hafter e' (List.mem_append_left _ he')
      · exact fun e' he' => hafter e' (List.mem_append_right _ he')
  · rintro (⟨before, e, after, rfl, hopened, hafter⟩ |
      ⟨⟨before, e, after, rfl, hopened, hafter⟩, hes'⟩)
    · exact ⟨es ++ before, e, after, by simp, hopened, hafter⟩
    · refine ⟨before, e, after ++ es', by simp, hopened, ?_⟩
      intro e' he'
      exact (List.mem_append.1 he').elim (hafter e') (hes' e')

namespace Table
variable {t t' : Table} {es : List Event} {relay : Endpoint}

theorem mem_owners {ft : FiveTuple} :
    (relay, ft) ∈ t.owners ↔ ∃ a, (ft, a) ∈ t.entries ∧ a.relay = relay := by
  simp [owners, and_comm]

theorem holds_iff_owners : t.Holds relay ↔ ∃ ft, (relay, ft) ∈ t.owners := by
  simp only [Holds, mem_owners, Prod.exists]

theorem SameOwners.holds (h : t.SameOwners t') : t'.Holds relay ↔ t.Holds relay := by
  rw [holds_iff_owners, holds_iff_owners, h.owners]

/-- Nothing is replaced where nobody becomes the owner of an address. -/
theorem Consistent.not_replaced (c : t.Consistent) (h : t'.owners ⊆ t.owners) :
    ¬ t.Replaced t' relay := by
  rintro ⟨ft, a, b, ha, rfl, hb, hne, -⟩
  obtain ⟨a', ha', heq⟩ := mem_owners.1 (h (mem_owners.2 ⟨b, Assoc.mem_of_lookup hb, rfl⟩))
  obtain rfl := Option.some.inj ((Assoc.lookup_of_mem c.keys_nodup ha').symm.trans ha)
  exact hne heq.symm

theorem owners_keep_subset (t : Table) (p : FiveTuple × Allocation → Bool) :
    (t.keep p).owners ⊆ t.owners :=
  (List.filter_sublist.map _).subset

/-- A new allocation takes its address, and whoever lost one to it was replaced. -/
theorem Created.holds {r : Request} {now : Time} {a : Allocation} (h : t.Created r now a t')
    (c : t.Consistent) :
    t'.Holds relay ∨ t.Replaced t' relay ↔ relay = a.relay ∨ t.Holds relay := by
  have hcreated : a.createdAt = now := by rw [h.built]; rfl
  have hself : t'.entries.lookup r.fiveTuple = some a := by
    rw [h.lookup, if_pos rfl]
  have hothers (ft : FiveTuple) (hne : ft ≠ r.fiveTuple) :
      t'.entries.lookup ft = t.entries.lookup ft := by
    rw [h.lookup, if_neg hne]
  constructor
  · rintro (⟨e, he, rfl⟩ | ⟨ft, b, -, hb, rfl, -⟩)
    · rw [h.table] at he
      rcases List.mem_cons.1 he with rfl | he
      · exact .inl rfl
      · exact .inr ⟨e, List.mem_of_mem_filter he, rfl⟩
    · exact .inr ⟨_, Assoc.mem_of_lookup hb, rfl⟩
  · rintro (rfl | ⟨⟨ft, b⟩, hb, rfl⟩)
    · exact .inl ⟨_, Assoc.mem_of_lookup hself, rfl⟩
    · have hb := Assoc.lookup_of_mem c.keys_nodup hb
      by_cases hft : ft = r.fiveTuple
      · subst hft
        -- The new address was free, so it is not the one that the client had.
        have hne : a.relay ≠ b.relay := fun heq =>
          h.free ((c.mem_leased _).2 ⟨_, Assoc.mem_of_lookup hb, heq.symm⟩)
        exact .inr ⟨_, b, a, hb, rfl, hself, hne, hcreated ▸ h.stale b hb⟩
      · rw [← hothers ft hft] at hb
        exact .inl ⟨_, Assoc.mem_of_lookup hb, rfl⟩

/-- An address is kept by one allocation alone, so it is either kept or given back. -/
theorem Consistent.holds_keep (c : t.Consistent) (p : FiveTuple × Allocation → Bool) :
    (t.keep p).Holds relay ↔
      t.Holds relay ∧ ¬ ∃ e ∈ t.entries, p e = false ∧ e.2.relay = relay := by
  constructor
  · rintro ⟨e, he, rfl⟩
    obtain ⟨he, hp⟩ := List.mem_filter.1 he
    refine ⟨⟨e, he, rfl⟩, ?_⟩
    rintro ⟨d, hd, hdropped, hrelay⟩
    rw [c.eq_of_relay_eq hd he hrelay, hp] at hdropped
    cases hdropped
  · rintro ⟨⟨e, he, rfl⟩, hkept⟩
    refine ⟨e, List.mem_filter.2 ⟨he, ?_⟩, rfl⟩
    by_contra hp
    exact hkept ⟨e, he, by simpa using hp, rfl⟩

end Table

/-! ### One step after the other -/

theorem forall_closed?_ne {es : List Event} {relay : Endpoint} :
    (∀ e ∈ es, e.closed? ≠ some relay) ↔ relay ∉ es.filterMap Event.closed? := by
  simp

theorem announced_of_closings_nil {es : List Event} {relay : Endpoint}
    (h : es.filterMap Event.closed? = []) :
    Announced es relay ↔ relay ∈ es.filterMap Event.opened? := by
  rw [List.mem_filterMap]
  constructor
  · rintro ⟨before, e, after, rfl, hopened, -⟩
    exact ⟨e, by simp, hopened⟩
  · rintro ⟨e, he, hopened⟩
    obtain ⟨before, after, rfl⟩ := List.append_of_mem he
    refine ⟨before, e, after, rfl, hopened, fun e' he' hclosed => ?_⟩
    have hnone := List.filterMap_eq_nil_iff.1 h e' (by simp [he'])
    rw [hclosed] at hnone
    cases hnone

theorem not_announced {es : List Event} {relay : Endpoint}
    (h : es.filterMap Event.opened? = []) : ¬ Announced es relay := by
  rintro ⟨before, e, after, rfl, hopened, -⟩
  rw [List.filterMap_eq_nil_iff.1 h e (by simp)] at hopened
  cases hopened

namespace Table.Turnover
variable {t t' : Table} {es : List Event}

/-- An address that is given back was taken, and is given back once. -/
theorem closings (h : t.Turnover es t') :
    (es.filterMap Event.closed?).Nodup ∧
      ∀ relay ∈ es.filterMap Event.closed?, t.Holds relay := by
  cases h with
  | kept _ hclosed _ => simp [hclosed]
  | opened _ hclosed _ => simp [hclosed]
  | closed p _ nodup hrelays _ =>
    refine ⟨nodup, fun relay hrelay => ?_⟩
    obtain ⟨e, he, -, heq⟩ := (hrelays relay).1 hrelay
    exact ⟨e, he, heq⟩

/-- What is announced besides `lost` stays in step with the table, but for what is replaced. -/
theorem taken_iff (h : t.Turnover es t') (c : t.Consistent) (relay : Endpoint) (lost : Prop) :
    Announced es relay ∨ (t.Holds relay ∨ lost) ∧ relay ∉ es.filterMap Event.closed? ↔
      t'.Holds relay ∨ lost ∧ relay ∉ es.filterMap Event.closed? ∨ t.Replaced t' relay := by
  cases h with
  | kept hopened hclosed h =>
    have hnot : ¬ t.Replaced t' relay := c.not_replaced fun _ hmem => h.owners ▸ hmem
    rw [h.holds, hclosed]
    simp [not_announced hopened, hnot]
  | @opened _ _ a _ hopened hclosed h =>
    have hholds : t'.Holds relay ∨ t.Replaced t' relay ↔ relay = a.relay ∨ t.Holds relay :=
      h.holds c
    rw [announced_of_closings_nil hclosed, hopened, hclosed, List.mem_singleton]
    simp only [List.not_mem_nil, not_false_eq_true, and_true]
    rw [← or_assoc, ← hholds, or_assoc, or_comm (a := t.Replaced t' relay)]
  | closed p hopened nodup hclosed h =>
    have hnot : ¬ t.Replaced t' relay := c.not_replaced fun _ hmem =>
      t.owners_keep_subset p (h.owners ▸ hmem)
    rw [h.holds, c.holds_keep, ← hclosed relay]
    simp only [not_announced hopened, hnot, false_or, or_false, or_and_right]

end Table.Turnover

/-- What the host can tell of a table from the events before it. -/
structure Mirrors (es : List Event) (t : Table) (lost : Endpoint → Prop) : Prop where
  announced : ∀ relay, Announced es relay ↔ t.Holds relay ∨ lost relay
  /-- Nothing is given back that was not announced, nor twice. -/
  closed : ∀ before e after relay, es = before ++ e :: after → e.closed? = some relay →
    Announced before relay

theorem Mirrors.step {t t' : Table} {es es' : List Event} {lost : Endpoint → Prop}
    (h : Mirrors es t lost) (c : t.Consistent) (hstep : t.Turnover es' t') :
    Mirrors (es ++ es') t' fun relay =>
      lost relay ∧ relay ∉ es'.filterMap Event.closed? ∨ t.Replaced t' relay := by
  refine ⟨fun relay => ?_, ?_⟩
  · rw [announced_append, forall_closed?_ne, h.announced relay]
    exact hstep.taken_iff c relay (lost relay)
  · obtain ⟨nodup, hheld⟩ := hstep.closings
    intro before e after relay hsplit hclosed
    -- The event is of this step, where no address is given back twice, or of an earlier one.
    rcases split_append hsplit with ⟨mid, rfl, rfl⟩ | ⟨mid, rfl, -⟩
    · rw [List.filterMap_append, List.filterMap_cons_some hclosed] at nodup hheld
      have hfresh : relay ∉ mid.filterMap Event.closed? := by
        intro hmem
        exact (List.nodup_append.1 nodup).2.2 relay hmem relay (by simp) rfl
      rw [announced_append, forall_closed?_ne, h.announced relay]
      exact .inr ⟨.inl (hheld relay (by simp)), hfresh⟩
    · exact h.closed before e mid relay rfl hclosed

theorem Mirrors.congr {es : List Event} {t : Table} {lost lost' : Endpoint → Prop}
    (h : Mirrors es t lost) (hlost : ∀ relay, lost relay ↔ lost' relay) : Mirrors es t lost' :=
  ⟨fun relay => (h.announced relay).trans (or_congr_right (hlost relay)), h.closed⟩

namespace Service

/-- A whole run keeps what was lost before it, until the host hears of it after all, and adds what
it loses itself. -/
theorem run_mirrors {s : Service} {es : List Event} {lost : Endpoint → Prop}
    (h : Mirrors es s.table lost) (c : s.table.Consistent) (ops : List (Op × Time)) :
    Mirrors (es ++ (s.run ops).events) (s.run ops).service.table fun relay =>
      lost relay ∧ relay ∉ (s.run ops).events.filterMap Event.closed? ∨ s.Lost ops relay := by
  induction ops generalizing s es lost with
  | nil =>
    rw [run, List.append_nil]
    exact h.congr fun relay => by simp [Lost]
  | cons o ops ih =>
    obtain ⟨op, now⟩ := o
    have hstep := step_turnover c op now
    have hrest := ih (h.step c hstep) (hstep.consistent c)
    rw [List.append_assoc] at hrest
    refine hrest.congr fun relay => ?_
    -- What was lost before, in this step or behind it, and not heard of behind that.
    simp only [Lost, run, List.filterMap_append, List.mem_append, forall_closed?_ne]
    tauto

theorem make_consistent (o : ServiceOptions) : (make o).table.Consistent :=
  Table.consistent_empty o.allocation o.relayAddresses o.firstPort o.lastPort

/-- Behind every run that begins without allocations, the addresses that the host takes for taken
are those of the allocations in the table, and those lost to a replacement. What it hears is given
back it took for taken. -/
theorem announced_iff (o : ServiceOptions) (ops : List (Op × Time)) :
    let out := (make o).run ops
    (∀ relay, Announced out.events relay ↔
      (∃ e ∈ out.service.table.entries, e.2.relay = relay) ∨ (make o).Lost ops relay) ∧
      ∀ before e after relay, out.events = before ++ e :: after → e.closed? = some relay →
        Announced before relay := by
  intro out
  have hempty : Mirrors [] (make o).table fun _ => False := by
    refine ⟨fun relay => ?_, fun before e after relay hsplit => ?_⟩
    · have hnot : ¬ Announced [] relay := not_announced rfl
      simp [hnot, Table.Holds, make]
    · simp at hsplit
  have hrun := run_mirrors hempty (make_consistent o) ops
  rw [List.nil_append] at hrun
  refine ⟨fun relay => (hrun.announced relay).trans ?_, hrun.closed⟩
  rw [Table.Holds, false_and, false_or]

/-! ### A client that asks twice -/

def sampleClient : Endpoint := .v4 0xC0000201 4000

def sampleInterface : Interface := ⟨.v4 0xC0000202 3478, .v4 0xC0000202 3478⟩

/-- A datagram of the client, whose name is "u" and whose password is "p". -/
def sampleDatagram (bytes : Bytes) : Op :=
  .process (.ofUsers [("u", "p")] 5000) sampleInterface bytes sampleClient
    { nonce := { value := "n" } } { nonce := { value := "n" } }

/-- The bytes of an Allocate without a code, to be told the nonce. -/
def inquiry : Bytes := [0, 3, 0, 0, 33, 18, 164, 66, 0, 0, 0, 0, 0, 0, 0, 0, 0, 0, 0, 1]

def sampleInquiry : Op := sampleDatagram inquiry

theorem decode_inquiry : Datagram.decode inquiry =
    .ok (.message ⟨⟨.allocate, .request, 1, []⟩, ⟨inquiry, {}⟩⟩) := by
  decide +kernel

/-- What the client asks for, with the code of a datagram that was signed with the password. -/
def sampleMessage (method : Stun.Method) (tid : Stun.TransactionId) (asked : List Stun.Attribute)
    (mac : Bytes) : Message :=
  ⟨method, .request, tid,
    asked ++ [.username "u", .realm "r", .nonce "n", .messageIntegrity mac]⟩

/-- The bytes of such a message: what is asked for stands in front of the name, the realm, the nonce
and the code. -/
def sampleBytes (method tid : UInt8) (asked mac : Bytes) : Bytes :=
  [0, method, 0, UInt8.ofNat (asked.length + 48), 33, 18, 164, 66,
    0, 0, 0, 0, 0, 0, 0, 0, 0, 0, 0, tid] ++ asked ++
  [0, 6, 0, 1, 117, 0, 0, 0, 0, 20, 0, 1, 114, 0, 0, 0, 0, 21, 0, 1, 110, 0, 0, 0, 0, 8, 0, 20] ++
  mac

def allocateMessage (tid : Stun.TransactionId) (mac : Bytes) : Message :=
  sampleMessage .allocate tid [.requestedTransport .udp] mac

def allocateBytes (tid : UInt8) (mac : Bytes) : Bytes :=
  sampleBytes 3 tid [0, 25, 0, 4, 17, 0, 0, 0] mac

/-- The code of one Allocate, and of another. -/
def firstMac : Bytes :=
  [78, 230, 74, 201, 237, 234, 105, 101, 127, 173, 62, 169, 160, 193, 255, 125, 69, 9, 86, 223]

def secondMac : Bytes :=
  [238, 125, 248, 28, 41, 88, 122, 46, 245, 163, 84, 206, 72, 194, 238, 173, 11, 177, 161, 40]

def sampleAllocate : Op := sampleDatagram (allocateBytes 2 firstMac)

/-- The same, asked for anew. -/
def sampleReallocate : Op := sampleDatagram (allocateBytes 3 secondMac)

def sampleRequest (m : Message) : Request := ⟨m, sampleClient, sampleInterface, "u"⟩

/-- The operation is a datagram of the client that holds the message, signed. -/
def Conveys (op : Op) (m : Message) : Prop :=
  ∃ bytes offset, op = sampleDatagram bytes ∧
    Attests bytes ⟨m, ⟨bytes, { sha1 := some offset }⟩⟩ ⟨"u", "r", "p"⟩ "n" .sha1

/-- A service that gave the client its nonce serves what the client signed, at once. -/
theorem Conveys.step {s : Service} {op : Op} {m : Message} {now : Time} (h : Conveys op m)
    (hready : s.realm = "r" ∧ s.nonces.verify sampleClient "n" now) :
    op.ends s now = now ∧ s.step op now =
      let d := (sampleRequest m).decide s.table 0 now
      { answer := .result (some <$> d.verdict.respond m s.software sampleInterface.listening
          (some (Stun.Credential.key ⟨"u", "r", "p"⟩ .sha1)))
        events := .passwordRequested sampleClient "u" :: d.events
        service := { s with table := d.table } } := by
  obtain ⟨bytes, offset, rfl, hattests⟩ := h
  constructor
  · rw [sampleDatagram, Op.ends, hattests.receive hready.1 hready.2]
    rfl
  · rw [sampleDatagram, Service.step, hattests.process hready.1 hready.2 rfl]
    rfl

theorem conveys_allocate : Conveys sampleAllocate (allocateMessage 2 firstMac) :=
  ⟨_, 52, rfl, by decide +kernel, rfl, rfl, .inl rfl, rfl, rfl, rfl, rfl, by decide +kernel⟩

theorem conveys_reallocate : Conveys sampleReallocate (allocateMessage 3 secondMac) :=
  ⟨_, 52, rfl, by decide +kernel, rfl, rfl, .inl rfl, rfl, rfl, rfl, rfl, by decide +kernel⟩

/-- A run goes on behind the outcome of its first operation. -/
theorem run_cons {s : Service} {op : Op} {now : Time} {p : Outcome Reply} (h : p = s.step op now)
    (rest : List (Op × Time)) :
    (s.run ((op, now) :: rest)).events = p.events ++ (p.service.run rest).events ∧
      (s.run ((op, now) :: rest)).service = (p.service.run rest).service := by
  rw [h]
  exact ⟨rfl, rfl⟩

/-- A client whose allocation expired asks for another before a sweep: the host never hears that the
first address is free. -/
theorem announced_of_replaced :
    let o : ServiceOptions :=
      { realm := "r", software := "s", relayAddresses := [.v4 0x0A000001, .v4 0x0A000002]
        firstPort := 50000, lastPort := 50000 }
    let out := (make o).run
      [(sampleInquiry, 0), (sampleAllocate, 0), (sampleReallocate, 600000)]
    out.service.table.entries.map (·.2.relay) = [.v4 0x0A000002 50000] ∧
      Announced out.events (.v4 0x0A000001 50000) ∧
      ¬ ∀ relay, Announced out.events relay ↔
        ∃ e ∈ out.service.table.entries, e.2.relay = relay := by
  intro o out
  -- Held as variables, the outcomes are not worked out more than once.
  obtain ⟨p₁, h₁⟩ : ∃ p, p = (make o).step sampleInquiry 0 := ⟨_, rfl⟩
  obtain ⟨p₂, h₂⟩ : ∃ p, p = p₁.service.step sampleAllocate 0 := ⟨_, rfl⟩
  obtain ⟨p₃, h₃⟩ : ∃ p, p = p₂.service.step sampleReallocate 600000 := ⟨_, rfl⟩
  have hout : out.events = p₁.events ++ (p₂.events ++ (p₃.events ++ [])) ∧
      out.service = p₃.service := by
    change ((make o).run (_ :: _)).events = _ ∧ ((make o).run (_ :: _)).service = _
    rw [(run_cons h₁ _).1, (run_cons h₁ _).2, (run_cons h₂ _).1, (run_cons h₂ _).2,
      (run_cons h₃ _).1, (run_cons h₃ _).2, run]
    exact ⟨rfl, rfl⟩
  have hready : p₁.service.realm = "r" ∧ p₁.service.nonces.verify sampleClient "n" 0 := by
    rw [h₁]
    decide +kernel
  rw [(conveys_allocate.step hready).2] at h₂
  have hready : p₂.service.realm = "r" ∧ p₂.service.nonces.verify sampleClient "n" 600000 := by
    rw [h₂, h₁]
    decide +kernel
  rw [(conveys_reallocate.step hready).2] at h₃
  have hrun : out.events =
        [.passwordRequested sampleClient "u",
          .allocationCreated sampleClient "u" 50000 (.v4 0x0A000001 50000),
          .passwordRequested sampleClient "u",
          .allocationCreated sampleClient "u" 50000 (.v4 0x0A000002 50000)] ∧
      out.service.table.entries.map (·.2.relay) = [.v4 0x0A000002 50000] := by
    rw [hout.1, hout.2, h₃, h₂, h₁]
    decide +kernel
  obtain ⟨hevents, hentries⟩ := hrun
  have hannounced : Announced out.events (.v4 0x0A000001 50000) := by
    rw [hevents]
    exact ⟨[_], _, [_, _], rfl, rfl, by decide⟩
  refine ⟨hentries, hannounced, fun hall => ?_⟩
  obtain ⟨e, he, hrelay⟩ := (hall _).1 hannounced
  have hmem := List.mem_map_of_mem he (f := (·.2.relay))
  rw [hentries, hrelay] at hmem
  exact absurd hmem (by decide)

end Service
end NatRelay
