import NatRelay.Proofs.Service.Isolation

/-! What stays with a service for good: the texts that clients see, and nonces that a packet can
carry. Main statement: `run_conforms`. A nonce that a client is told is the one that the table has
for it (`holds_issue`, `holds_getOrIssue`). -/
namespace NatRelay

/-- Whether a packet can carry the fresh value. The service draws sixteen letters and digits. -/
def NonceDraw.Fits (d : NonceDraw) : Prop := (Bytes.ofText d.value).length ≤ 763

instance (d : NonceDraw) : Decidable d.Fits := inferInstanceAs (Decidable (_ ≤ _))

namespace NonceTable
variable {t : NonceTable} {addr : Endpoint} {draw : NonceDraw} {value : String} {now : Time}

/-- The value is the client's, whether still good or not. -/
def Holds (t : NonceTable) (addr : Endpoint) (value : String) : Prop :=
  ∃ n, t.nonces.lookup addr = some n ∧ n.value = value

theorem holds_issue : (t.issue addr draw now).2.Holds addr (t.issue addr draw now).1 :=
  ⟨_, Assoc.lookup_put_self _ _ _, rfl⟩

theorem holds_getOrIssue :
    (t.getOrIssue addr draw now).2.Holds addr (t.getOrIssue addr draw now).1 := by
  rw [getOrIssue]
  split
  · rename_i n hfound
    split
    · exact ⟨n, hfound, rfl⟩
    · exact holds_issue
  · exact holds_issue

/-- A packet can carry every value of the table. -/
def Fits (t : NonceTable) : Prop := ∀ e ∈ t.nonces, (Bytes.ofText e.2.value).length ≤ 763

namespace Fits
variable (h : t.Fits)
include h

theorem of_holds (hvalue : t.Holds addr value) : (Bytes.ofText value).length ≤ 763 := by
  obtain ⟨n, hfound, rfl⟩ := hvalue
  exact h _ (Assoc.mem_of_lookup hfound)

theorem turn {t' : NonceTable} {draws : List NonceDraw} {last : Time}
    (hturn : t.Turn draws last t') (hdraws : ∀ draw ∈ draws, draw.Fits) : t'.Fits :=
  hturn.forall_mem (fun n => (Bytes.ofText n.value).length ≤ 763)
    (fun draw hdraw _ _ => hdraws draw hdraw) h

theorem length_getOrIssue (hdraw : draw.Fits) :
    (Bytes.ofText (t.getOrIssue addr draw now).1).length ≤ 763 :=
  (h.turn (.getOrIssue t addr draw now) (by simpa using hdraw)).of_holds holds_getOrIssue

end Fits
end NonceTable

/-- Whether a packet can carry the texts of the options. -/
structure ServiceOptions.Fits (o : ServiceOptions) : Prop where
  realm : (Bytes.ofText o.realm).length ≤ 763
  software : (Bytes.ofText o.software).length ≤ 763

namespace Service

/-- A service shows the texts of its options, and its nonces fit a packet. -/
structure Conforms (o : ServiceOptions) (s : Service) : Prop where
  realm : s.realm = o.realm
  software : s.software = o.software
  nonces : s.nonces.Fits

variable {o : ServiceOptions} {s : Service} {i : Interface} {bytes : Bytes} {addr : Endpoint}
  {now : Time}

theorem Conforms.length_realm (h : Conforms o s) (ho : o.Fits) :
    (Bytes.ofText s.realm).length ≤ 763 := by
  rw [h.realm]
  exact ho.realm

theorem Conforms.length_software (h : Conforms o s) (ho : o.Fits) :
    (Bytes.ofText s.software).length ≤ 763 := by
  rw [h.software]
  exact ho.software

theorem make_conforms (o : ServiceOptions) : Conforms o (make o) :=
  ⟨rfl, rfl, by simp [NonceTable.Fits, make]⟩

theorem step_conforms (h : Conforms o s) {op : Op} (hdraws : ∀ draw ∈ op.nonceDraws, draw.Fits)
    (now : Time) : Conforms o (s.step op now).service :=
  have hturns := s.step_turns op now
  ⟨hturns.realm.trans h.realm, hturns.software.trans h.software, h.nonces.turn hturns.nonces hdraws⟩

theorem run_conforms (h : Conforms o s) {ops : List (Op × Time)}
    (hdraws : ∀ call ∈ ops, ∀ draw ∈ call.1.nonceDraws, draw.Fits) :
    Conforms o (s.run ops).service := by
  induction ops generalizing s with
  | nil => exact h
  | cons call ops ih =>
    obtain ⟨hcall, hops⟩ := List.forall_mem_cons.1 hdraws
    exact ih (step_conforms h hcall call.2) hops

end Service
end NatRelay
