import NatRelay.Proofs.Allocation.Tenure
import NatRelay.Proofs.Service.Nonces

/-! How far ahead an allocation or a nonce can end. Main statements: `run_endsWithin`, that no
allocation of a service whose clock never goes back has more time left than a request could get
anew, and `run_endsBefore`, that the host's clock can show when the allocations and the nonces end
if it can show all times until then and as much again. -/
namespace NatRelay

namespace AllocationOptions

/-- The most time that a request can get, which names 32 bits of seconds at most. -/
def longest (options : AllocationOptions) : Duration :=
  max (seconds (UInt32.size - 1)) options.defaultLifetime

theorem desiredLifetime_le (options : AllocationOptions) (requested : Option UInt32) :
    options.desiredLifetime requested ≤ options.longest := by
  cases requested with
  | none => exact Nat.le_max_right _ _
  | some n =>
    have hn : seconds n.toNat ≤ options.longest :=
      Nat.le_trans (Nat.mul_le_mul_right 1000 (Nat.le_pred_of_lt n.toNat_lt)) (Nat.le_max_left _ _)
    rw [desiredLifetime]
    split
    · exact Nat.zero_le _
    · exact Nat.max_le.2 ⟨Nat.le_trans (Nat.min_le_left _ _) hn, Nat.le_max_right _ _⟩

end AllocationOptions

namespace Table
variable {t t' : Table} {op : Op} {now : Time}

theorem grantedLifetime_le (t : Table) (requested : Option UInt32) :
    t.grantedLifetime requested ≤ t.options.longest := by
  rw [grantedLifetime]
  split
  · exact Nat.le_max_right _ _
  · exact t.options.desiredLifetime_le requested

theorem default_le_grantedLifetime (t : Table) (requested : Option UInt32) :
    t.options.defaultLifetime ≤ t.grantedLifetime requested := by
  rw [grantedLifetime]
  split
  · exact Nat.le_refl _
  rename_i hdesired
  cases requested with
  | none => exact Nat.le_refl _
  | some n =>
    rw [AllocationOptions.desiredLifetime] at hdesired ⊢
    split
    · exact absurd (if_pos ‹_›) hdesired
    · exact Nat.le_max_right _ _

theorem grantedLifetime_pos (t : Table) (hdefault : 0 < t.options.defaultLifetime)
    (requested : Option UInt32) : 0 < t.grantedLifetime requested :=
  Nat.lt_of_lt_of_le hdefault (t.default_le_grantedLifetime requested)

theorem grantedLifetime_le_max (t : Table)
    (hdefault : t.options.defaultLifetime ≤ t.options.maxLifetime) (requested : Option UInt32) :
    t.grantedLifetime requested ≤ t.options.maxLifetime := by
  rw [grantedLifetime]
  split
  · exact hdefault
  cases requested with
  | none => exact hdefault
  | some n =>
    rw [AllocationOptions.desiredLifetime]
    split
    · exact Nat.zero_le _
    · exact Nat.max_le.2 ⟨Nat.min_le_right _ _, hdefault⟩

/-- No allocation ends later than one that is given the most time at the present. -/
def EndsWithin (t : Table) (now : Time) : Prop :=
  ∀ ft a, t.entries.lookup ft = some a → a.expiresAt ≤ now + t.options.longest

namespace EndsWithin

theorem mono (h : t.EndsWithin now) {later : Time} (hle : now ≤ later) : t.EndsWithin later :=
  fun ft a ha => Nat.le_trans (h ft a ha) (Nat.add_le_add_right hle _)

theorem remaining_le (h : t.EndsWithin now) {ft : FiveTuple} {a : Allocation}
    (ha : t.find? ft now = some a) : a.remaining now ≤ t.options.longest :=
  Nat.sub_le_iff_le_add'.2 (h ft a (find?_eq_some.1 ha).1)

/-- Only a create and a refresh move an end, and neither moves it further than a request asks. -/
theorem step (h : t.EndsWithin now) (c : t.Consistent) (hdue : IsDue t.options now (op, now)) :
    (t.step op now).2.EndsWithin now := by
  have hrule := step_rule c op now
  intro ft b hb
  rw [hrule.sameTerms.options]
  have hpassage := hrule.passage c ft
  rw [hb] at hpassage
  have hbefore := h ft
  generalize t.entries.lookup ft = before at hpassage hbefore
  cases hpassage with
  | opened _ _ _ hends _ hlifetime =>
    obtain ⟨requested, hlifetime⟩ := hlifetime
    rw [hends, hlifetime]
    exact Nat.add_le_add_left (t.grantedLifetime_le requested) now
  | renewed _ hop =>
    obtain rfl : op = _ := hop
    obtain ⟨requested, rfl⟩ := hdue.lifetime _ rfl
    exact Nat.add_le_add_left (t.options.desiredLifetime_le requested) now
  | kept _ hends =>
    rw [hends]
    exact hbefore _ rfl

theorem leads (h : t.EndsWithin now) (c : t.Consistent) {options : AllocationOptions}
    (hoptions : t.options = options) (hleads : t.LeadsBy (IsDue options now) t') :
    t'.EndsWithin now := by
  obtain ⟨calls, hcalls, rfl⟩ := hleads
  induction calls generalizing t with
  | nil => exact h
  | cons call calls ih =>
    obtain ⟨op, time⟩ := call
    obtain ⟨hcall, hcalls⟩ := List.forall_mem_cons.1 hcalls
    obtain rfl : time = now := hcall.time
    exact ih (h.step c (hoptions ▸ hcall)) (step_consistent c op time)
      ((step_rule c op time).sameTerms.options.trans hoptions) hcalls

end EndsWithin

/-- A table that leads to another keeps its books and its options. -/
theorem LeadsBy.keeps {kind : Op × Time → Prop} (h : t.LeadsBy kind t') (c : t.Consistent) :
    t'.Consistent ∧ t'.options = t.options := by
  obtain ⟨calls, -, rfl⟩ := h
  obtain ⟨hc, hterms⟩ := run_consistent c calls
  exact ⟨hc, hterms.options⟩

end Table

namespace NonceTable
variable {t t' : NonceTable} {now : Time}

/-- No nonce ends later than one that is issued at the present. -/
def EndsWithin (t : NonceTable) (now : Time) : Prop :=
  ∀ e ∈ t.nonces, e.2.expiresAt ≤ now + t.ttl

namespace EndsWithin

theorem mono (h : t.EndsWithin now) {later : Time} (hle : now ≤ later) : t.EndsWithin later :=
  fun e he => Nat.le_trans (h e he) (Nat.add_le_add_right hle _)

/-- A fresh one ends a lifetime behind its issue. -/
theorem turn (h : t.EndsWithin now) {draws : List NonceDraw} {last : Time}
    (hturn : t.Turn draws last t') (hle : now ≤ last) : t'.EndsWithin last := by
  rw [EndsWithin, hturn.ttl]
  exact hturn.forall_mem (·.expiresAt ≤ last + t.ttl)
    (fun _ _ _ hissued => Nat.add_le_add_right hissued _) (h.mono hle)

end EndsWithin
end NonceTable

namespace Service
variable {s : Service} {options : AllocationOptions} {last now : Time}

/-- Operations that begin one after the other has ended, up to the present. -/
def Timely (s : Service) (last : Time) : List (Op × Time) → Time → Prop
  | [], now => last ≤ now
  | (op, time) :: rest, now =>
    last ≤ time ∧ (s.step op time).service.Timely (op.ends s time) rest now

instance decidableTimely (s : Service) (last : Time) (ops : List (Op × Time)) (now : Time) :
    Decidable (s.Timely last ops now) :=
  match ops with
  | [] => inferInstanceAs (Decidable (last ≤ now))
  | (op, time) :: rest =>
    have := decidableTimely (s.step op time).service (op.ends s time) rest now
    inferInstanceAs (Decidable (_ ∧ _))

theorem le_ends (s : Service) (op : Op) (now : Time) : now ≤ op.ends s now := by
  rw [Op.ends.eq_def]
  split
  · split
    · exact Nat.le_add_right _ _
    · exact Nat.le_refl _
  · exact Nat.le_refl _

/-- What lasts while nothing happens and over every operation lasts over every run whose clock never
goes back. -/
theorem keeps_of_timely {p : Service → Time → Prop}
    (hmono : ∀ {s last now}, p s last → last ≤ now → p s now)
    (hstep : ∀ {s now} op, p s now → p (s.step op now).service (op.ends s now)) (h : p s last)
    {ops : List (Op × Time)} (htimely : s.Timely last ops now) : p (s.run ops).service now := by
  induction ops generalizing s last with
  | nil => exact hmono h htimely
  | cons o ops ih =>
    obtain ⟨op, time⟩ := o
    obtain ⟨hle, hrest⟩ := htimely
    exact ih (hstep op (hmono h hle)) hrest

/-- A service that was given the options, and no allocation of which ends too far ahead. -/
structure Ahead (s : Service) (options : AllocationOptions) (now : Time) : Prop where
  consistent : s.table.Consistent
  options : s.table.options = options
  endsWithin : s.table.EndsWithin now

theorem Ahead.step (h : s.Ahead options now) (op : Op) :
    (s.step op now).service.Ahead options (op.ends s now) := by
  have hdue := s.step_due op now
  obtain ⟨hc, hoptions⟩ := hdue.keeps h.consistent
  exact ⟨hc, hoptions.trans h.options,
    (h.endsWithin.mono (s.le_ends op now)).leads h.consistent rfl hdue⟩

theorem run_endsWithin {o : ServiceOptions} {ops : List (Op × Time)}
    (htimely : (make o).Timely 0 ops now) :
    ((make o).run ops).service.Ahead o.allocation now := by
  refine keeps_of_timely (p := fun s now => s.Ahead o.allocation now)
    (fun h hle => ⟨h.consistent, h.options, h.endsWithin.mono hle⟩) (fun op h => h.step op)
    ⟨?_, rfl, ?_⟩ htimely
  · exact Table.consistent_empty o.allocation o.relayAddresses o.firstPort o.lastPort
  · exact fun ft a ha => by cases ha

theorem run_noncesEndWithin {o : ServiceOptions} {ops : List (Op × Time)}
    (htimely : (make o).Timely 0 ops now) : ((make o).run ops).service.nonces.EndsWithin now := by
  refine keeps_of_timely (p := fun s now => s.nonces.EndsWithin now) (fun h hle => h.mono hle)
    (fun {s now} op h => h.turn (s.step_turns op now).nonces (s.le_ends op now))
    (fun e he => ?_) htimely
  cases he

/-- All allocations and all nonces end before a time. -/
structure EndsBefore (s : Service) (time : Time) : Prop where
  allocations : ∀ e ∈ s.table.entries, e.2.expiresAt < time
  nonces : ∀ e ∈ s.nonces.nonces, e.2.expiresAt < time

end Service

/-! ### The end of the clock -/

/-- The host's clock counts the seconds of an instant with 63 bits. -/
def clockEnd : Time := seconds 0x8000000000000000

/-- The first half of the clock's time, to which as much again can be added. -/
def clockHalf : Time := seconds 0x4000000000000000

theorem clockHalf_add_clockHalf : clockHalf + clockHalf = clockEnd := by decide

theorem add_lt_clockEnd {now : Time} {d : Duration} (hnow : now < clockHalf)
    (hd : d ≤ clockHalf) : now + d < clockEnd := by
  rw [← clockHalf_add_clockHalf]
  exact Nat.add_lt_add_of_lt_of_le hnow hd

namespace Service

/-- In the first half of the clock's time, whatever happened to a service, the clock can show when
the allocations and the nonces end, as their lifetimes take no more than the other half. -/
theorem run_endsBefore {o : ServiceOptions} {ops : List (Op × Time)} {now : Time}
    (htimely : (make o).Timely 0 ops now) (hearly : now < clockHalf)
    (hlongest : o.allocation.longest ≤ clockHalf) (httl : o.nonceTtl ≤ clockHalf) :
    ((make o).run ops).service.EndsBefore clockEnd := by
  have hahead := run_endsWithin htimely
  have hkept : ((make o).run ops).service.nonces.ttl = o.nonceTtl := (make o).run_ttl ops
  refine ⟨fun e he => ?_, fun e he => ?_⟩
  · have hle := hahead.endsWithin e.1 e.2 (Assoc.lookup_of_mem hahead.consistent.keys_nodup he)
    rw [hahead.options] at hle
    exact Nat.lt_of_le_of_lt hle (add_lt_clockEnd hearly hlongest)
  · have hle := run_noncesEndWithin htimely e he
    rw [hkept] at hle
    exact Nat.lt_of_le_of_lt hle (add_lt_clockEnd hearly httl)

end Service
end NatRelay
