import NatRelay.Proofs.Allocation.History

/-! An allocation lives exactly as long as it was granted, whatever was refreshed, swept, deleted or
replaced in between. Main statement: `find?_iff_granted`. -/
namespace NatRelay

/-- Two states of one allocation: what was settled at its creation is the same. -/
structure Allocation.SameTenant (a b : Allocation) : Prop where
  username : b.username = a.username
  relay : b.relay = a.relay
  tid : b.tid = a.tid
  createdAt : b.createdAt = a.createdAt

theorem Allocation.SameTenant.refl (a : Allocation) : a.SameTenant a := ⟨rfl, rfl, rfl, rfl⟩

namespace Table

namespace Exchange

/-- The five-tuple whose allocation was made or refreshed, and the lifetime it was granted. -/
def grants : Exchange → Option (FiveTuple × Duration)
  | ⟨.create r _, _, .allocation a⟩ => some (r.fiveTuple, a.lifetime)
  | ⟨.refresh ft _, _, .lifetime d⟩ => some (ft, d)
  | _ => none

/-- Whether the allocation of the five-tuple was deleted, on its own or with all of its user. -/
def removes (ft : FiveTuple) : Exchange → Bool
  | ⟨.delete ft', _, .allocation _⟩ => ft' = ft
  | ⟨.removeUser _, _, .removed as⟩ => as.any (·.fiveTuple = ft)
  | _ => false

/-- A successful create, refresh or removal of the five-tuple's allocation. -/
def Concerns (ft : FiveTuple) (x : Exchange) : Prop :=
  (∃ lifetime, x.grants = some (ft, lifetime)) ∨ x.removes ft

/-- The exchange is the create that the allocation goes back to. -/
def Begins (a : Allocation) : Exchange → Prop
  | ⟨.create r _, time, .allocation b⟩ =>
    a.username = r.username ∧ a.relay = b.relay ∧ a.tid = r.tid ∧ a.createdAt = time
  | _ => False

theorem Begins.sameTenant {x : Exchange} {a b : Allocation} (h : x.Begins a)
    (hsame : a.SameTenant b) : x.Begins b := by
  obtain ⟨op, time, reply⟩ := x
  cases op <;> cases reply <;> simp_all [Begins, hsame.username, hsame.relay, hsame.tid,
    hsame.createdAt]

/-- An exchange leaves the making and the end of the five-tuple's allocation alone. -/
structure Passes (ft : FiveTuple) (x : Exchange) : Prop where
  opens : x.opens ≠ some ft
  concerns : ¬ x.Concerns ft

theorem passes_of_idle {op : Op} {time : Time} {reply : Reply} (h : op.isQuery ∨ reply.isRefusal)
    (ft : FiveTuple) : Passes ft ⟨op, time, reply⟩ := by
  constructor <;> cases op <;> cases reply <;>
    simp_all [opens, Concerns, grants, removes, Op.isQuery, Reply.isRefusal]

/-- An exchange about one five-tuple passes the others by. -/
theorem passes_of_other {x : Exchange} {ft ft' : FiveTuple} (h : x.op.fiveTuple? = some ft)
    (hne : ft' ≠ ft) : Passes ft' x := by
  obtain ⟨op, time, reply⟩ := x
  constructor <;> cases op <;> cases reply <;>
    simp_all [opens, Concerns, grants, removes, Op.fiveTuple?, Ne.symm hne]

end Exchange

/-- The latest successful create, refresh or removal of the five-tuple's allocation granted it a
lifetime that has not run out. -/
def Granted (ft : FiveTuple) (now : Time) (xs : List Exchange) : Prop :=
  Since (·.Concerns ft)
    (fun x => ∃ lifetime, x.grants = some (ft, lifetime) ∧ now < x.time + lifetime) xs

/-- The latest successful create of the five-tuple is the one that the allocation goes back to. -/
def BegunBy (ft : FiveTuple) (a : Allocation) (xs : List Exchange) : Prop :=
  Since (·.opens = some ft) (fun x => x.opens = some ft ∧ x.Begins a) xs

/-- What an exchange with a table does to the entry of a five-tuple. -/
inductive Passage (t : Table) (ft : FiveTuple) (x : Exchange) :
    Option Allocation → Option Allocation → Prop
  | opened {before a} (hstale : ∀ b, before = some b → b.expiresAt ≤ x.time)
    (hopens : x.opens = some ft) (hgrants : x.grants = some (ft, a.lifetime))
    (hends : a.expiresAt = x.time + a.lifetime) (hbegins : x.Begins a)
    (hlifetime : ∃ requested, a.lifetime = t.grantedLifetime requested) :
    Passage t ft x before (some a)
  | renewed {a lifetime} (hlive : x.time < a.expiresAt) (hop : x.op = .refresh ft lifetime)
    (hopens : x.opens ≠ some ft) (hgrants : x.grants = some (ft, lifetime)) :
    Passage t ft x (some a) (some (a.renew lifetime x.time))
  | removed {before} (hopens : x.opens ≠ some ft) (hgrants : x.grants = none)
    (hremoves : x.removes ft) : Passage t ft x before none
  | expired {a} (hexpired : a.expiresAt ≤ x.time) (hpasses : x.Passes ft) :
    Passage t ft x (some a) none
  | kept {a b} (hsame : a.SameTenant b) (hends : b.expiresAt = a.expiresAt)
    (hpasses : x.Passes ft) : Passage t ft x (some a) (some b)
  | absent (hpasses : x.Passes ft) : Passage t ft x none none

namespace Passage
variable {t : Table} {ft : FiveTuple} {x : Exchange} {entry : Option Allocation}

/-- An exchange that passes by, and changes of an allocation neither tenant nor end. -/
theorem map (hpasses : x.Passes ft) (f : Allocation → Allocation)
    (hf : ∀ a, a.SameTenant (f a) ∧ (f a).expiresAt = a.expiresAt) :
    Passage t ft x entry (entry.map f) := by
  cases entry with
  | none => exact .absent hpasses
  | some a => exact .kept (hf a).1 (hf a).2 hpasses

theorem frame (hpasses : x.Passes ft) : Passage t ft x entry entry := by
  have hmap := @map t ft x entry hpasses id fun a => ⟨.refl a, rfl⟩
  rwa [Option.map_id_fun, id] at hmap

end Passage

/-- A change of one allocation that leaves its tenant and its end alone. -/
theorem passage_update (t : Table) {ft' : FiveTuple} {x : Exchange} (f : Allocation → Allocation)
    (hf : ∀ a, a.SameTenant (f a) ∧ (f a).expiresAt = a.expiresAt) {ft : FiveTuple}
    (hpasses : x.Passes ft) :
    Passage t ft x (t.entries.lookup ft) ((t.update ft' f).entries.lookup ft) := by
  rw [lookup_update]
  split
  · exact .map hpasses f hf
  · exact .frame hpasses

/-- Every step is such a passage for every five-tuple. -/
theorem Step.passage {t t' : Table} {now : Time} {op : Op} {reply : Reply}
    (h : t.Step now op reply t') (c : t.Consistent) (ft : FiveTuple) :
    Passage t ft ⟨op, now, reply⟩ (t.entries.lookup ft) (t'.entries.lookup ft) := by
  cases h with
  | idle hidle => exact .frame (Exchange.passes_of_idle hidle ft)
  | @create r _ a _ hcreated =>
    rw [hcreated.lookup]
    split
    · rename_i hft
      subst hft
      refine .opened hcreated.stale rfl rfl ?_ ⟨?_, rfl, ?_, ?_⟩ ⟨r.lifetime, ?_⟩ <;>
        rw [hcreated.built] <;> rfl
    · rename_i hne
      exact .frame (Exchange.passes_of_other rfl hne)
  | @refresh ft' lifetime a ha =>
    obtain ⟨hlookup, hlive⟩ := find?_eq_some.1 ha
    rw [lookup_update]
    split
    · rename_i hft
      subst hft
      rw [hlookup]
      exact .renewed hlive rfl (by simp [Exchange.opens]) rfl
    · rename_i hne
      exact .frame (Exchange.passes_of_other rfl hne)
  | @delete ft' a ha =>
    rw [lookup_keep_ne]
    split
    · rename_i hft
      exact .removed (by simp [Exchange.opens]) rfl (decide_eq_true hft.symm)
    · rename_i hne
      exact .frame (Exchange.passes_of_other rfl hne)
  | sweep =>
    have hpasses : Exchange.Passes ft ⟨.sweep, now, .removed
        (Assoc.values (t.entries.filter (·.2.isExpired now)))⟩ :=
      ⟨by simp [Exchange.opens], by simp [Exchange.Concerns, Exchange.grants, Exchange.removes]⟩
    rw [lookup_mapValues, c.lookup_keep]
    cases t.entries.lookup ft with
    | none => exact .absent hpasses
    | some a =>
      by_cases hexpired : a.isExpired now
      · rw [Option.filter_some, if_neg (by simp [hexpired])]
        exact .expired (of_decide_eq_true hexpired) hpasses
      · rw [Option.filter_some, if_pos (by simp [hexpired])]
        exact .kept ⟨rfl, rfl, rfl, rfl⟩ rfl hpasses
  | createPermission | bindChannel | permitSend | channelPeer =>
    apply passage_update
    · exact fun _ => ⟨⟨rfl, rfl, rfl, rfl⟩, rfl⟩
    · exact
        ⟨by simp [Exchange.opens], by simp [Exchange.Concerns, Exchange.grants, Exchange.removes]⟩
  | @removeUser username =>
    have hremoves : Exchange.removes ft ⟨.removeUser username, now, .removed
        (Assoc.values (t.entries.filter (·.2.username = username)))⟩ =
        (t.entries.lookup ft).any (·.username = username) :=
      c.any_filter (·.username = username) ft
    have hframe (h : (t.entries.lookup ft).any (·.username = username) = false) :
        Exchange.Passes ft ⟨.removeUser username, now, .removed
          (Assoc.values (t.entries.filter (·.2.username = username)))⟩ :=
      ⟨by simp [Exchange.opens], by simp [Exchange.Concerns, Exchange.grants, hremoves, h]⟩
    rw [c.lookup_keep]
    cases hlookup : t.entries.lookup ft with
    | none => exact .absent (hframe (by simp [hlookup]))
    | some a =>
      rw [hlookup] at hremoves
      by_cases hname : a.username = username
      · rw [Option.filter_some, if_neg (by simp [hname])]
        exact .removed (by simp [Exchange.opens]) rfl (hremoves.trans (by simp [hname]))
      · rw [Option.filter_some, if_pos (by simp [hname])]
        exact .frame (hframe (by simp [hlookup, hname]))

/-- The entry of a five-tuple is what the history says, from `last` on. -/
structure Tenured (xs : List Exchange) (last : Time) (ft : FiveTuple)
    (entry : Option Allocation) : Prop where
  /-- An allocation that is gone without a word had expired. -/
  granted : ∀ now, last ≤ now → (Granted ft now xs ↔ ∃ a, entry = some a ∧ now < a.expiresAt)
  begun : ∀ a, entry = some a → BegunBy ft a xs

namespace Tenured
variable {xs : List Exchange} {last : Time} {ft : FiveTuple} {x : Exchange}
  {before after : Option Allocation}

theorem mono (h : Tenured xs last ft before) {later : Time} (hle : last ≤ later) :
    Tenured xs later ft before where
  granted now hnow := h.granted now (Nat.le_trans hle hnow)
  begun := h.begun

/-- A grant speaks for itself: what was before it does not count. -/
theorem granted_of_grants {lifetime : Duration} (hgrants : x.grants = some (ft, lifetime))
    (now : Time) : Granted ft now (xs ++ [x]) ↔ now < x.time + lifetime := by
  have hconcerns : x.Concerns ft := .inl ⟨lifetime, hgrants⟩
  rw [Granted, since_concat]
  simp [hconcerns, hgrants]

theorem granted_of_removes (hgrants : x.grants = none) (hremoves : x.removes ft) (now : Time) :
    ¬ Granted ft now (xs ++ [x]) := by
  have hconcerns : x.Concerns ft := .inr hremoves
  rw [Granted, since_concat]
  simp [hconcerns, hgrants]

theorem granted_of_passes (h : x.Passes ft) (now : Time) :
    Granted ft now (xs ++ [x]) ↔ Granted ft now xs := by
  have hgrants (lifetime : Duration) : x.grants ≠ some (ft, lifetime) :=
    fun hgrants => h.concerns (.inl ⟨lifetime, hgrants⟩)
  rw [Granted, since_concat]
  simp [h.concerns, hgrants, Granted]

theorem begun_concat {a b : Allocation} (h : BegunBy ft a xs) (hsame : a.SameTenant b)
    (hopens : x.opens ≠ some ft) : BegunBy ft b (xs ++ [x]) := by
  obtain ⟨earlier, y, later, rfl, hlater, hy, hbegins⟩ := h
  exact (since_concat _ _).2
    (.inr ⟨hopens, earlier, y, later, rfl, hlater, hy, hbegins.sameTenant hsame⟩)

/-- One passage writes its own line of the history. -/
theorem passage {t : Table} (h : Tenured xs x.time ft before)
    (hpassage : Passage t ft x before after) :
    Tenured (xs ++ [x]) x.time ft after := by
  cases hpassage with
  | @opened _ a hstale hopens hgrants hends hbegins =>
    refine ⟨fun now _ => ?_, ?_⟩
    · rw [granted_of_grants hgrants, ← hends]
      simp
    · rintro _ ⟨⟩
      exact (since_concat _ _).2 (.inl ⟨hopens, hbegins⟩)
  | @renewed a lifetime hlive hop hopens hgrants =>
    refine ⟨fun now _ => ?_, ?_⟩
    · rw [granted_of_grants hgrants]
      simp [Allocation.renew]
    · rintro _ ⟨⟩
      exact begun_concat (h.begun a rfl) ⟨rfl, rfl, rfl, rfl⟩ hopens
  | removed hopens hgrants hremoves =>
    refine ⟨fun now _ => ?_, by simp⟩
    simp [granted_of_removes hgrants hremoves]
  | @expired a hexpired hpasses =>
    refine ⟨fun now hnow => ?_, by simp⟩
    have hended : ¬ now < a.expiresAt := Nat.not_lt.2 (Nat.le_trans hexpired hnow)
    rw [granted_of_passes hpasses, h.granted now hnow]
    simp [hended]
  | @kept a b hsame hends hpasses =>
    refine ⟨fun now hnow => ?_, ?_⟩
    · rw [granted_of_passes hpasses, h.granted now hnow]
      simp [hends]
    · rintro _ ⟨⟩
      exact begun_concat (h.begun a rfl) hsame hpasses.opens
  | absent hpasses =>
    refine ⟨fun now hnow => ?_, by simp⟩
    rw [granted_of_passes hpasses, h.granted now hnow]

end Tenured

theorem tenured_nil (last : Time) (ft : FiveTuple) : Tenured [] last ft none where
  granted _ _ := by simp [Granted, not_since_nil]
  begun := by simp

/-- What a sweep removes is found no more, then and later. -/
theorem Consistent.find?_of_mem_sweep {t : Table} (c : t.Consistent) {now : Time} {a : Allocation}
    (h : a ∈ (t.sweep now).1) : t.find? a.fiveTuple now = none := by
  rw [c.sweep_eq] at h
  obtain ⟨e, he, rfl⟩ := List.mem_map.1 h
  obtain ⟨he, hexpired⟩ := List.mem_filter.1 he
  refine find?_eq_none.2 fun b hb => ?_
  rw [c.key_eq e he, Assoc.lookup_of_mem c.keys_nodup he] at hb
  obtain rfl := Option.some.inj hb
  simpa [Allocation.isExpired] using hexpired

section Run
variable {options : AllocationOptions} {addresses : List Ip} {first last : UInt16}
  {ops : List (Op × Time)} {now : Time}

theorem run_tenured (h : Timely ops now) (ft : FiveTuple) :
    Tenured (history { options, pool := .make addresses first last } ops) now ft
      ((run { options, pool := .make addresses first last } ops).2.entries.lookup ft) := by
  refine history_induct (P := fun xs last t => Tenured xs last ft (t.entries.lookup ft))
    (consistent_empty options addresses first last) (tenured_nil 0 ft) ?_ ?_ h
  · exact fun hle htenured => htenured.mono hle
  · exact fun c _ hstep htenured => htenured.passage (hstep.passage c ft)

/-- The allocation of a five-tuple is found exactly while its latest create or refresh lasts, if no
removal came after. It is the one of the latest create, and no sweep takes it away before. -/
theorem find?_iff_granted (h : Timely ops now) :
    let t₀ : Table := { options, pool := .make addresses first last }
    let t := (t₀.run ops).2
    (∀ ft, (t.find? ft now).isSome ↔ Granted ft now (t₀.history ops)) ∧
      (∀ ft a, t.find? ft now = some a → BegunBy ft a (t₀.history ops)) ∧
      ∀ a ∈ (t.sweep now).1, t.find? a.fiveTuple now = none := by
  intro t₀ t
  have c : t.Consistent := (run_consistent (consistent_empty options addresses first last) ops).1
  have htenured (ft : FiveTuple) : Tenured (t₀.history ops) now ft (t.entries.lookup ft) :=
    run_tenured h ft
  refine ⟨fun ft => ?_, fun ft a ha => ?_, fun a ha => c.find?_of_mem_sweep ha⟩
  · rw [(htenured ft).granted now (Nat.le_refl now), Option.isSome_iff_exists]
    exact exists_congr fun a => find?_eq_some
  · exact (htenured ft).begun a (find?_eq_some.1 ha).1

/-- A refresh at one second cuts an hour down to a minute: a sweep just before its end takes nothing
away, and the allocation is gone at the end although none came after. -/
theorem find?_at_refreshed_end :
    let t₀ : Table := { options := {}, pool := .make [.v4 0x0a000001] 49152 49153 }
    let ft : FiveTuple := .udp (.v4 0xc0000201 5000) (.v4 0xc0000202 3478)
    let alice : Request :=
      { fiveTuple := ft, username := "alice", tid := 7, family := .v4, lifetime := some 3600 }
    let ops : List (Op × Time) :=
      [(.create alice 0, 0), (.refresh ft (seconds 60), 1000), (.sweep, 60999)]
    let t := (t₀.run ops).2
    Timely ops 60999 ∧ Timely ops 61000 ∧ (t.sweep 60999).1 = [] ∧
      (∃ a, t.find? ft 60999 = some a ∧ BegunBy ft a (t₀.history ops)) ∧
      ¬ Granted ft 61000 (t₀.history ops) ∧
      ∀ a ∈ (t.sweep 61000).1, t.find? a.fiveTuple 61000 = none := by
  intro t₀ ft alice ops t
  have htimely : Timely ops 60999 := by decide
  have htimely' : Timely ops 61000 := by decide
  obtain ⟨hfound, hbegun, -⟩ := @find?_iff_granted {} [.v4 0x0a000001] 49152 49153 ops 60999 htimely
  obtain ⟨hfound', -, hswept⟩ :=
    @find?_iff_granted {} [.v4 0x0a000001] 49152 49153 ops 61000 htimely'
  have hreplies : (t₀.run ops).1 = [.allocation (t₀.build alice (.v4 0x0a000001 49152) 0),
      .lifetime (seconds 60), .removed []] := by decide +kernel
  have hgranted : Granted ft 60999 (t₀.history ops) := by
    rw [history, hreplies]
    refine ⟨[_], ⟨.refresh ft (seconds 60), 1000, .lifetime (seconds 60)⟩, [_], rfl, ?_, ?_⟩
    · simp [Exchange.Concerns, Exchange.grants, Exchange.removes]
    · exact ⟨seconds 60, rfl, by decide⟩
  obtain ⟨a, ha⟩ := Option.isSome_iff_exists.1 ((hfound ft).2 hgranted)
  have hgone : (t.find? ft 61000).isSome = false := by decide +kernel
  refine ⟨htimely, htimely', by decide +kernel, ⟨a, ha, hbegun ft a ha⟩, fun hgranted => ?_, hswept⟩
  rw [(hfound' ft).2 hgranted] at hgone
  cases hgone

end Run

end Table
end NatRelay
