import NatRelay.Proofs.Allocation.Step
import NatRelay.Proofs.Latest

/-! What a run of operations did, read off its replies: who was given an allocation, until when it
is held, and which peers were permitted under it. Sweeps leave no mark in this reading. -/
namespace NatRelay.Table

/-- An operation, when it ran, and what it answered. -/
structure Exchange where
  op : Op
  time : Time
  reply : Reply

/-- The exchanges of a run, in order. -/
def history (t : Table) (ops : List (Op × Time)) : List Exchange :=
  List.zipWith (fun o reply => ⟨o.1, o.2, reply⟩) ops (t.run ops).1

@[simp] theorem history_nil (t : Table) : t.history [] = [] := rfl

@[simp] theorem history_cons (t : Table) (op : Op) (now : Time) (ops : List (Op × Time)) :
    t.history ((op, now) :: ops) =
      ⟨op, now, (t.step op now).1⟩ :: (t.step op now).2.history ops := rfl

/-- Times never go back, up to the present. -/
def Timely (ops : List (Op × Time)) (now : Time) : Prop :=
  (ops.map (·.2) ++ [now]).Pairwise (· ≤ ·)

instance (ops : List (Op × Time)) (now : Time) : Decidable (Timely ops now) :=
  inferInstanceAs (Decidable (List.Pairwise _ _))

/-- What the first table and its empty history satisfy, and every step keeps, holds behind every
run. -/
theorem history_induct {P : List Exchange → Time → Table → Prop} {t₀ : Table}
    (c₀ : t₀.Consistent) (hstart : P [] 0 t₀)
    (hmono : ∀ {xs t last later}, last ≤ later → P xs last t → P xs later t)
    (hstep : ∀ {xs t t' now op reply}, t.Consistent → t₀.SameTerms t → t.Step now op reply t' →
      P xs now t → P (xs ++ [⟨op, now, reply⟩]) now t')
    {ops : List (Op × Time)} {now : Time} (h : Timely ops now) :
    P (t₀.history ops) now (t₀.run ops).2 := by
  have hrun : ∀ {t xs last}, t.Consistent → t₀.SameTerms t → P xs last t →
      (last :: (ops.map (·.2) ++ [now])).Pairwise (· ≤ ·) →
      P (xs ++ t.history ops) now (t.run ops).2 := by
    clear h
    induction ops with
    | nil =>
      intro t xs last _ _ hP htimely
      rw [history_nil, List.append_nil]
      exact hmono (by simpa using htimely) hP
    | cons o ops ih =>
      intro t xs last c hterms hP htimely
      obtain ⟨op, time⟩ := o
      obtain ⟨hle, hlater⟩ := List.pairwise_cons.1 htimely
      have hrule := step_rule c op time
      rw [history_cons, List.append_cons]
      exact ih (hrule.consistent c) (hterms.trans hrule.sameTerms)
        (hstep c hterms hrule (hmono (hle time (by simp)) hP)) hlater
  have hend := hrun c₀ (.refl t₀) hstart (List.pairwise_cons.2 ⟨fun _ _ => Nat.zero_le _, h⟩)
  rwa [List.nil_append] at hend

/-- The five-tuple that an operation is about. -/
def Op.fiveTuple? : Op → Option FiveTuple
  | .create r _ => some r.fiveTuple
  | .find ft | .refresh ft _ | .delete ft | .createPermission ft _ | .bindChannel ft _ _ |
    .permitSend ft _ | .channelPeer ft _ => some ft
  | .sweep | .inboundRoute .. | .removeUser _ => none

namespace Exchange

/-- The five-tuple that was given an allocation. -/
def opens : Exchange → Option FiveTuple
  | ⟨.create r _, _, .allocation _⟩ => some r.fiveTuple
  | _ => none

/-- The five-tuple and the peer IP for which a permission was installed or extended. -/
def permits : Exchange → Option (FiveTuple × Ip)
  | ⟨.createPermission ft peer, _, .fresh _⟩ => some (ft, peer)
  | ⟨.bindChannel ft _ peer, _, .fresh _⟩ => some (ft, peer.ip)
  | ⟨.permitSend ft peer, _, .sender _⟩ => some (ft, peer.ip)
  | ⟨.channelPeer ft _, _, .path _ peer⟩ => some (ft, peer.ip)
  | _ => none

/-- The relayed address of a five-tuple and the end of its allocation, behind an exchange. -/
def tenancy (ft : FiveTuple) (before : Option (Endpoint × Time)) :
    Exchange → Option (Endpoint × Time)
  | ⟨.create r _, _, .allocation a⟩ =>
    if r.fiveTuple = ft then some (a.relay, a.expiresAt) else before
  | ⟨.refresh ft' _, time, .lifetime d⟩ =>
    if ft' = ft then before.map fun (relay, _) => (relay, time + d) else before
  | ⟨.delete ft', _, .allocation _⟩ => if ft' = ft then none else before
  | ⟨.removeUser _, _, .removed as⟩ => if as.any (·.fiveTuple = ft) then none else before
  | _ => before

def isSweep (x : Exchange) : Bool :=
  match x.op with
  | .sweep => true
  | _ => false

/-- An exchange about one five-tuple leaves no mark on another. -/
theorem of_other {x : Exchange} {ft ft' : FiveTuple} (h : x.op.fiveTuple? = some ft)
    (hne : ft' ≠ ft) : x.opens ≠ some ft' ∧ (∀ ip, x.permits ≠ some (ft', ip)) ∧
      ∀ before, x.tenancy ft' before = before := by
  obtain ⟨op, time, reply⟩ := x
  cases op <;> cases reply <;>
    simp_all [opens, permits, tenancy, Op.fiveTuple?, Ne.symm hne]

/-- An exchange that did nothing leaves no mark. -/
theorem of_idle {op : Op} {time : Time} {reply : Reply} (h : op.isQuery ∨ reply.isRefusal) :
    opens ⟨op, time, reply⟩ = none ∧ permits ⟨op, time, reply⟩ = none ∧
      ∀ ft before, tenancy ft before ⟨op, time, reply⟩ = before := by
  cases op <;> cases reply <;> simp_all [opens, permits, tenancy, Op.isQuery, Reply.isRefusal]

/-- Nor does a sweep. -/
theorem of_isSweep {x : Exchange} (h : x.isSweep) :
    x.opens = none ∧ x.permits = none ∧ ∀ ft before, x.tenancy ft before = before := by
  obtain ⟨op, time, reply⟩ := x
  cases op <;> simp_all [opens, permits, tenancy, isSweep]

end Exchange

/-- The relayed address of a five-tuple and the end of its allocation, as a history tells it. -/
def tenancy (ft : FiveTuple) (xs : List Exchange) : Option (Endpoint × Time) :=
  xs.foldl (Exchange.tenancy ft) none

/-- An exchange of one kind is in the history, and none of another kind after it. -/
def Since (other kind : Exchange → Prop) (xs : List Exchange) : Prop :=
  ∃ before x after, xs = before ++ x :: after ∧ (∀ y ∈ after, ¬ other y) ∧ kind x

theorem not_since_nil (other kind : Exchange → Prop) : ¬ Since other kind [] := by
  rintro ⟨before, x, after, h, -⟩
  simp at h

/-- The latest exchange is of the one kind, or it is not of the other kind. -/
theorem since_concat {other kind : Exchange → Prop} (xs : List Exchange) (x : Exchange) :
    Since other kind (xs ++ [x]) ↔ kind x ∨ (¬ other x ∧ Since other kind xs) :=
  exists_latest_concat xs x

/-- Under the five-tuple's latest allocation the peer IP was permitted less than a lifetime ago. -/
def Permitted (lifetime : Duration) (ft : FiveTuple) (ip : Ip) (now : Time)
    (xs : List Exchange) : Prop :=
  ∃ before x after, xs = before ++ x :: after ∧ (∀ y ∈ after, y.opens ≠ some ft) ∧
    x.permits = some (ft, ip) ∧ now < x.time + lifetime

/-- A history without its sweeps. -/
def traffic (xs : List Exchange) : List Exchange := xs.filter (!·.isSweep)

@[simp] theorem tenancy_concat (ft : FiveTuple) (xs : List Exchange) (x : Exchange) :
    tenancy ft (xs ++ [x]) = x.tenancy ft (tenancy ft xs) := by
  simp [tenancy]

variable {lifetime : Duration} {ft : FiveTuple} {ip : Ip} {now : Time}

theorem permitted_concat (xs : List Exchange) (x : Exchange) :
    Permitted lifetime ft ip now (xs ++ [x]) ↔
      (x.permits = some (ft, ip) ∧ now < x.time + lifetime) ∨
        (x.opens ≠ some ft ∧ Permitted lifetime ft ip now xs) :=
  since_concat xs x

theorem traffic_concat (xs : List Exchange) (x : Exchange) :
    traffic (xs ++ [x]) = if x.isSweep then traffic xs else traffic xs ++ [x] := by
  cases h : x.isSweep <;> simp [traffic, h]

theorem tenancy_traffic (xs : List Exchange) : tenancy ft (traffic xs) = tenancy ft xs := by
  induction xs using List.reverseRecOn with
  | nil => rfl
  | append_singleton xs x ih =>
    rw [traffic_concat, tenancy_concat]
    split
    · rename_i hsweep
      rw [ih, (Exchange.of_isSweep hsweep).2.2]
    · rw [tenancy_concat, ih]

theorem permitted_traffic (xs : List Exchange) :
    Permitted lifetime ft ip now (traffic xs) ↔ Permitted lifetime ft ip now xs := by
  induction xs using List.reverseRecOn with
  | nil => rfl
  | append_singleton xs x ih =>
    rw [traffic_concat, permitted_concat]
    split
    · rename_i hsweep
      obtain ⟨hopens, hpermits, -⟩ := Exchange.of_isSweep hsweep
      simp [hopens, hpermits, ih]
    · rw [permitted_concat, ih]

end NatRelay.Table
