import NatRelay.Proofs.Service.Gate
import NatRelay.Proofs.Service.Nonces
import NatRelay.Proofs.Settings.Usable
import NatRelay.Proofs.Settings.Value
import NatRelay.Proofs.Settings.Variables

/-! The realm and the software among the settings. Main statement: `load_texts`, that they are what
their variables are taken for, and that clients are challenged with this realm and their keys made
with it. A realm that reads as a number is another one when it is spelled in another way
(`load_texts_of_number`). -/
namespace NatRelay
open Stun (Attribute Credential)

namespace Service
variable {s : Service}

/-- Clients are told the realm and the software, and their keys are made with the realm. -/
structure Speaks (s : Service) (realm software : String) : Prop where
  software : s.software = software
  challenges : ∀ m addr draw now why attributes s',
    s.identify m addr draw now = .rejected (.refusal why attributes) s' →
      ∀ text, Attribute.realm text ∈ attributes → text = realm
  rejections : ∀ p password? draw now why attributes s',
    s.authenticate p password? draw now = .rejected (.refusal why attributes) s' →
      ∀ text, Attribute.realm text ∈ attributes → text = realm
  keys : ∀ i bytes addr draw now p, (s.receive i bytes addr draw now).answer = .asks p →
    p.message.realm = some realm ∧ ∀ s' password? draw' later key,
      Service.authenticate s' p password? draw' later = .accepted key →
        ∃ password mechanism, password? = some password ∧
          key = Credential.key ⟨p.username, realm, password⟩ mechanism

theorem Dismissal.realm_eq {addr : Endpoint} {draw : NonceDraw} {now : Time} {why : Refusal}
    {attributes : List Attribute} {nonces : NonceTable}
    (h : s.Dismissal addr draw now why attributes nonces) {text : String}
    (htext : Attribute.realm text ∈ attributes) : text = s.realm := by
  cases h with
  | plain => cases htext
  | reminded => simpa using htext
  | rotated => simpa using htext

theorem speaks (s : Service) : s.Speaks s.realm s.software where
  software := rfl
  challenges m addr draw now why attributes s' h text htext := by
    obtain ⟨why, attributes, nonces, hverdict, -, hdismissed⟩ := identify_eq_rejected h
    obtain ⟨rfl, rfl⟩ := Verdict.refusal.inj hverdict
    exact hdismissed.realm_eq htext
  rejections p password? draw now why attributes s' h text htext := by
    obtain ⟨why, attributes, nonces, hverdict, -, hdismissed⟩ := authenticate_eq_rejected h
    obtain ⟨rfl, rfl⟩ := Verdict.refusal.inj hverdict
    exact hdismissed.realm_eq htext
  keys i bytes addr draw now p hasks := by
    obtain ⟨-, r, hclaims, hp⟩ := receive_eq_asks hasks
    have hrealm : p.realm = s.realm := congrArg PendingRequest.realm hp
    refine ⟨?_, fun s' password? draw' later key haccepted => ?_⟩
    · rw [congrArg PendingRequest.message hp]
      exact hclaims.realm
    · obtain ⟨password, mechanism, hpassword, -, hkey⟩ := authenticate_eq_accepted haccepted
      exact ⟨password, mechanism, hpassword, hrealm ▸ hkey⟩

theorem run_texts (s : Service) (ops : List (Op × Time)) :
    (s.run ops).service.realm = s.realm ∧ (s.run ops).service.software = s.software := by
  induction ops generalizing s with
  | nil => exact ⟨rfl, rfl⟩
  | cons call ops ih =>
    have hturns := s.step_turns call.1 call.2
    obtain ⟨hrealm, hsoftware⟩ := ih (s.step call.1 call.2).service
    exact ⟨hrealm.trans hturns.realm, hsoftware.trans hturns.software⟩

theorem run_speaks (s : Service) (ops : List (Op × Time)) :
    (s.run ops).service.Speaks s.realm s.software := by
  obtain ⟨hrealm, hsoftware⟩ := s.run_texts ops
  rw [← hrealm, ← hsoftware]
  exact speaks _

end Service

namespace Settings
open Stun (bind_eq_ok)
variable {vars : List (String × String)} {st : Settings}

theorem texts_of_load (h : load vars = .ok st) :
    st.realm = textAt (ofVariables vars) "realm" "localhost" ∧
      st.software = textAt (ofVariables vars) "software" "turn-relay" := by
  rw [load] at h
  iterate 17 obtain ⟨_, -, h⟩ := bind_eq_ok.1 h
  dsimp only at h
  split at h
  case h_2 => cases h
  split at h
  case h_2 => cases h
  obtain ⟨users, -, h⟩ := bind_eq_ok.1 h
  obtain rfl := Except.ok.inj h
  exact ⟨rfl, rfl⟩

/-- The realm and the software are what their variables are taken for; a service keeps to them. Just
the texts are taken as they stand that are spelled as their values are; plain decimals are. -/
theorem load_texts (h : load vars = .ok st) :
    st.realm = ((given? vars "realm").map taken).getD "localhost" ∧
    st.software = ((given? vars "software").map taken).getD "turn-relay" ∧
    (∀ text, taken text = text ↔ Verbatim text) ∧
    (∀ text, Binary64.PlainText text.toList → Verbatim text) ∧
    st.serviceOptions.realm = st.realm ∧ st.serviceOptions.software = st.software ∧
    ∀ ops, ((Service.make st.serviceOptions).run ops).service.Speaks st.realm st.software := by
  obtain ⟨hrealm, hsoftware⟩ := texts_of_load h
  refine ⟨?_, ?_, fun text => taken_eq_iff, fun text => verbatim_of_plainText, rfl, rfl,
    fun ops => Service.run_speaks _ ops⟩
  · rw [hrealm, textAt_ofVariables]
    rfl
  · rw [hsoftware, textAt_ofVariables]
    rfl

/-- A realm that is no number, and software that is a truth value. -/
theorem load_texts_of_name : ∃ st,
    load [("TURN_REALM", "example.org"), ("TURN_SOFTWARE", "TRUE")] = .ok st ∧
    st.realm = "example.org" ∧ st.software = "true" ∧
    ∀ ops, ((Service.make st.serviceOptions).run ops).service.Speaks "example.org" "true" := by
  obtain ⟨st, hload, -⟩ := exists_of_any
    [("TURN_REALM", "example.org"), ("TURN_SOFTWARE", "TRUE")] (fun _ => True) (by decide +kernel)
  obtain ⟨hrealm, hsoftware, -, -, -, -, hspeaks⟩ := load_texts hload
  have hrealm : st.realm = "example.org" := hrealm.trans (by decide +kernel)
  have hsoftware : st.software = "true" := hsoftware.trans (by decide +kernel)
  refine ⟨st, hload, hrealm, hsoftware, fun ops => ?_⟩
  rw [← hrealm, ← hsoftware]
  exact hspeaks ops

/-- Two realms that read as one number are one realm. -/
theorem load_texts_of_number : (∃ st, load [("TURN_REALM", "007")] = .ok st ∧
      given? [("TURN_REALM", "007")] "realm" = some "007" ∧ st.realm = "7") ∧
    ¬ ∀ vars st text, load vars = .ok st → given? vars "realm" = some text → st.realm = text := by
  obtain ⟨st, hload, hgiven, hrealm⟩ := exists_of_any [("TURN_REALM", "007")]
    (fun st => given? [("TURN_REALM", "007")] "realm" = some "007" ∧ st.realm = "7")
    (by decide +kernel)
  refine ⟨⟨st, hload, hgiven, hrealm⟩, fun h => ?_⟩
  have hkept := h _ st "007" hload hgiven
  rw [hrealm] at hkept
  exact absurd hkept (by decide)

end Settings
end NatRelay
