/-
**Signed and hashed inputs never collide.**

Every byte string the protocol signs or hashes starts with the name of its purpose and a zero byte.
The names contain no zero, so the first zero ends the name: two strings with different names differ,
and two with one name agree in the rest.  The rest is a plain concatenation with at most one part of
unknown length, which the parts of known length around it delimit.

Main definitions:

* `Rda.SignedInput`, `Rda.SignedInput.bytes` — what is signed: registrations, bindings and tokens;
* `Rda.HashedInput`, `Rda.HashedInput.bytes` — what is hashed: PAKE passwords, confirmation tags and
  transcripts.

Main results:

* `Rda.append_zero_inj` — a zero-free name followed by a zero can be told from any other;
* `Rda.SignedInput.bytes_injective`, `Rda.HashedInput.bytes_injective`;
* `Rda.inputs_separated` — **every input is determined by its bytes**, kind included.
-/

import Rda.Pake
import Rda.SignalMessages
import Rda.Token
import Mathlib.Algebra.BigOperators.Group.List.Basic

set_option relaxedAutoImplicit false
set_option autoImplicit false

namespace Rda

open Signal (Role Register REGISTER_DOMAIN NONCE_LEN)

/-- Names without a zero, ended by a zero, are separate from what follows. -/
theorem append_zero_inj {d₁ d₂ bs₁ bs₂ : List UInt8} (h₁ : 0x00 ∉ d₁) (h₂ : 0x00 ∉ d₂)
    (h : d₁ ++ [0x00] ++ bs₁ = d₂ ++ [0x00] ++ bs₂) : d₁ = d₂ ∧ bs₁ = bs₂ := by
  induction d₁ generalizing d₂ with
  | nil =>
      cases d₂ with
      | nil => exact ⟨rfl, List.cons_injective h⟩
      | cons b d₂ =>
          obtain ⟨hb, -⟩ := List.cons.inj h
          exact absurd (hb ▸ List.mem_cons_self) h₂
  | cons b d₁ ih =>
      cases d₂ with
      | nil =>
          obtain ⟨hb, -⟩ := List.cons.inj h
          exact absurd (hb ▸ List.mem_cons_self) h₁
      | cons b' d₂ =>
          obtain ⟨hb, hrest⟩ := List.cons.inj h
          obtain ⟨hd, hbs⟩ := ih (mt (List.mem_cons_of_mem b) h₁) (mt (List.mem_cons_of_mem b') h₂)
            hrest
          exact ⟨by rw [hb, hd], hbs⟩

/-! ### The parts -/

theorem toList_inj {n : ℕ} {a b : Bytes n} (h : a.toList = b.toList) : a = b := List.Vector.eq a b h

theorem deviceId_inj {d e : DeviceId} (h : asBytes d.asStr = asBytes e.asStr) : d = e := by
  have hchars := congrArg String.toList (asBytes_injective h)
  simp only [DeviceId.asStr, String.toList_ofList] at hchars
  cases d
  cases e
  cases hchars
  rfl

theorem length_asBytes_pin {pin : String} (h : isPin pin = true) :
    (asBytes pin).length = PIN_DIGITS := by
  simp only [isPin, Bool.and_eq_true, beq_iff_eq] at h
  exact h.1

theorem role_asStr_inj {r r' : Role} (h : asBytes r.asStr = asBytes r'.asStr) : r = r' := by
  have hstr := asBytes_injective h
  cases r <;> cases r' <;> first | rfl | exact absurd hstr (by decide)

theorem peerRole_code_inj {r r' : PeerRole} (h : r.code = r'.code) : r = r' := by
  cases r <;> cases r' <;> first | rfl | exact absurd h (by decide)

/-- The role as a confirmation tag names it. -/
def PeerRole.confirmName : PeerRole → String
  | .controller => "controller"
  | .host => "host"

/-- The two names differ in their first byte, whatever follows them. -/
theorem confirmName_append_inj {r r' : PeerRole} {bs bs' : List UInt8}
    (h : asBytes r.confirmName ++ bs = asBytes r'.confirmName ++ bs') : r = r' ∧ bs = bs' := by
  have hcontroller : (asBytes PeerRole.controller.confirmName).head? = some 99 := by
    decide
  have hhost : (asBytes PeerRole.host.confirmName).head? = some 104 := by decide
  have hhead := congrArg List.head? h
  rw [List.head?_append, List.head?_append] at hhead
  cases r <;> cases r'
  · exact ⟨rfl, List.append_cancel_left h⟩
  · rw [hcontroller, hhost] at hhead
    exact absurd hhead (by simp)
  · rw [hcontroller, hhost] at hhead
    exact absurd hhead (by simp)
  · exact ⟨rfl, List.append_cancel_left h⟩

/-! ### What is signed -/

/-- An input of a signature, with all that goes into it. -/
inductive SignedInput where
  | registration (nonce : Bytes NONCE_LEN) (deviceId : DeviceId) (role : Role)
  | binding (sessionId : String) (nonceController nonceHost : Nonce)
      (fpController fpHost : Fingerprint) (role : PeerRole)
  | token (body : List UInt8)

namespace SignedInput

/-- The bytes that are signed. -/
def bytes : SignedInput → List UInt8
  | .registration nonce deviceId role => Register.signingInput nonce.toList deviceId role
  | .binding sessionId nonceController nonceHost fpController fpHost role =>
      bindingInput sessionId nonceController nonceHost fpController fpHost role
  | .token body => signingInput body

/-- The name of the purpose. -/
def domain : SignedInput → List UInt8
  | .registration .. => REGISTER_DOMAIN
  | .binding .. => BINDING_DOMAIN
  | .token .. => TOKEN_DOMAIN

/-- What follows the name and its zero. -/
def rest : SignedInput → List UInt8
  | .registration nonce deviceId role =>
      nonce.toList ++ asBytes deviceId.asStr ++ asBytes role.asStr
  | .binding sessionId nonceController nonceHost fpController fpHost role =>
      asBytes sessionId ++ nonceController.toList ++ nonceHost.toList ++
        fpController.bytes.toList ++ fpHost.bytes.toList ++ [role.code]
  | .token body => body

theorem bytes_eq (x : SignedInput) : x.bytes = x.domain ++ [0x00] ++ x.rest := by
  cases x with
  | registration nonce deviceId role =>
      simp only [bytes, Register.signingInput, domain, rest, List.append_assoc]
  | binding sessionId nonceController nonceHost fpController fpHost role =>
      simp only [bytes, bindingInput, domain, rest, List.append_assoc]
  | token body => rfl

theorem zero_notMem_domain (x : SignedInput) : 0x00 ∉ x.domain := by
  cases x <;> simp only [domain] <;> decide

/-- **The kind and all arguments of a signed input are determined by its bytes.** -/
theorem bytes_injective : Function.Injective bytes := by
  intro x y h
  rw [bytes_eq, bytes_eq] at h
  obtain ⟨hdomain, hrest⟩ := append_zero_inj x.zero_notMem_domain y.zero_notMem_domain h
  have hreg : REGISTER_DOMAIN ≠ BINDING_DOMAIN ∧ REGISTER_DOMAIN ≠ TOKEN_DOMAIN ∧
      BINDING_DOMAIN ≠ TOKEN_DOMAIN := by decide
  cases x with
  | registration nonce deviceId role =>
      cases y with
      | registration nonce' deviceId' role' =>
          -- Two parts of known length, then the name of the role.
          simp only [rest, List.append_assoc] at hrest
          obtain ⟨hnonce, hrest⟩ := List.append_inj hrest (by simp)
          obtain ⟨hid, hrole⟩ :=
            List.append_inj hrest (by simp only [DeviceId.length_asBytes_asStr])
          rw [toList_inj hnonce, deviceId_inj hid, role_asStr_inj hrole]
      | binding => exact absurd hdomain hreg.1
      | token => exact absurd hdomain hreg.2.1
  | binding sessionId nonceController nonceHost fpController fpHost role =>
      cases y with
      | registration => exact absurd hdomain.symm hreg.1
      | binding sessionId' nonceController' nonceHost' fpController' fpHost' role' =>
          -- The parts of known length stand at the end, the session id before them.
          simp only [rest] at hrest
          obtain ⟨hrest, hrole⟩ := List.append_inj' hrest rfl
          obtain ⟨hrest, hfpHost⟩ := List.append_inj' hrest (by simp)
          obtain ⟨hrest, hfpController⟩ := List.append_inj' hrest (by simp)
          obtain ⟨hrest, hnonceHost⟩ := List.append_inj' hrest (by simp)
          obtain ⟨hsession, hnonceController⟩ := List.append_inj' hrest (by simp)
          have hcode : role.code = role'.code := List.head_eq_of_cons_eq hrole
          have hfpC : fpController = fpController' :=
            congrArg Fingerprint.mk (toList_inj hfpController)
          have hfpH : fpHost = fpHost' := congrArg Fingerprint.mk (toList_inj hfpHost)
          rw [asBytes_injective hsession, toList_inj hnonceController, toList_inj hnonceHost,
            hfpC, hfpH, peerRole_code_inj hcode]
      | token => exact absurd hdomain hreg.2.2
  | token body =>
      cases y with
      | registration => exact absurd hdomain.symm hreg.2.1
      | binding => exact absurd hdomain.symm hreg.2.2
      | token body' => exact congrArg SignedInput.token hrest

end SignedInput

/-! ### What is hashed -/

/-- An input of a hash, with all that goes into it: a six-digit PIN, a role that is one of the two
names, and fixed-size arrays. -/
inductive HashedInput where
  | password (sessionId : String) (pin : { pin : String // isPin pin = true })
  | confirmation (key : Bytes 32) (role : PeerRole) (sessionId : String)
  | transcript (sessionId : String) (nonceController nonceHost : Nonce)
      (fpController fpHost : Fingerprint)

namespace HashedInput

/-- The name of the purpose. -/
def domain : HashedInput → List UInt8
  | .password .. => PIN_DOMAIN
  | .confirmation .. => asBytes "RDA-v1-pin-confirm"
  | .transcript .. => asBytes "RDA-v1-transcript"

/-- What follows the name and its zero. -/
def rest : HashedInput → List UInt8
  | .password sessionId pin => asBytes sessionId ++ asBytes pin
  | .confirmation key role sessionId =>
      key.toList ++ asBytes role.confirmName ++ asBytes sessionId
  | .transcript sessionId nonceController nonceHost fpController fpHost =>
      asBytes sessionId ++ nonceController.toList ++ nonceHost.toList ++
        fpController.bytes.toList ++ fpHost.bytes.toList

/-- The bytes that are hashed. -/
def bytes (x : HashedInput) : List UInt8 := x.domain ++ [0x00] ++ x.rest

theorem zero_notMem_domain (x : HashedInput) : 0x00 ∉ x.domain := by
  cases x <;> simp only [domain] <;> decide

/-- **The kind and all arguments of a hashed input are determined by its bytes.** -/
theorem bytes_injective : Function.Injective bytes := by
  intro x y h
  obtain ⟨hdomain, hrest⟩ := append_zero_inj x.zero_notMem_domain y.zero_notMem_domain h
  have hpin : PIN_DOMAIN ≠ asBytes "RDA-v1-pin-confirm" ∧
      PIN_DOMAIN ≠ asBytes "RDA-v1-transcript" ∧
      asBytes "RDA-v1-pin-confirm" ≠ asBytes "RDA-v1-transcript" := by decide
  cases x with
  | password sessionId pin =>
      cases y with
      | password sessionId' pin' =>
          simp only [rest] at hrest
          obtain ⟨hsession, hdigits⟩ := List.append_inj' hrest
            (by rw [length_asBytes_pin pin.2, length_asBytes_pin pin'.2])
          rw [asBytes_injective hsession, Subtype.ext (asBytes_injective hdigits)]
      | confirmation => exact absurd hdomain hpin.1
      | transcript => exact absurd hdomain hpin.2.1
  | confirmation key role sessionId =>
      cases y with
      | password => exact absurd hdomain.symm hpin.1
      | confirmation key' role' sessionId' =>
          simp only [rest, List.append_assoc] at hrest
          obtain ⟨hkey, hrest⟩ := List.append_inj hrest (by simp)
          obtain ⟨hrole, hsession⟩ := confirmName_append_inj hrest
          rw [toList_inj hkey, hrole, asBytes_injective hsession]
      | transcript => exact absurd hdomain hpin.2.2
  | transcript sessionId nonceController nonceHost fpController fpHost =>
      cases y with
      | password => exact absurd hdomain.symm hpin.2.1
      | confirmation => exact absurd hdomain.symm hpin.2.2
      | transcript sessionId' nonceController' nonceHost' fpController' fpHost' =>
          simp only [rest] at hrest
          obtain ⟨hrest, hfpHost⟩ := List.append_inj' hrest (by simp)
          obtain ⟨hrest, hfpController⟩ := List.append_inj' hrest (by simp)
          obtain ⟨hrest, hnonceHost⟩ := List.append_inj' hrest (by simp)
          obtain ⟨hsession, hnonceController⟩ := List.append_inj' hrest (by simp)
          have hfpC : fpController = fpController' :=
            congrArg Fingerprint.mk (toList_inj hfpController)
          have hfpH : fpHost = fpHost' := congrArg Fingerprint.mk (toList_inj hfpHost)
          rw [asBytes_injective hsession, toList_inj hnonceController, toList_inj hnonceHost,
            hfpC, hfpH]

end HashedInput

/-- **Every input is determined by its bytes.**  Signed inputs of different kinds differ, each kind
is injective in its arguments, and so are the inputs of the three hashes. -/
theorem inputs_separated (P : Primitives) :
    Function.Injective SignedInput.bytes ∧ Function.Injective HashedInput.bytes ∧
    (∀ sessionId pin, pakePassword P sessionId pin.1
      = (P.sha256 (HashedInput.password sessionId pin).bytes).toList) ∧
    (∀ key role sessionId, confirm P key (PeerRole.confirmName role) sessionId
      = P.sha256 (HashedInput.confirmation key role sessionId).bytes) ∧
    ∀ v : BindingVerifier, v.transcriptHash P
      = P.sha256 (HashedInput.transcript v.sessionId v.nonceController v.nonceHost v.fpController
          v.fpHost).bytes := by
  refine ⟨SignedInput.bytes_injective, HashedInput.bytes_injective, ?_, ?_, ?_⟩
  · intro sessionId pin
    simp only [pakePassword, HashedInput.bytes, HashedInput.domain, HashedInput.rest,
      List.append_assoc]
  · intro key role sessionId
    simp only [confirm, HashedInput.bytes, HashedInput.domain, HashedInput.rest,
      List.append_assoc]
  · intro v
    simp only [BindingVerifier.transcriptHash, HashedInput.bytes, HashedInput.domain,
      HashedInput.rest, List.append_assoc]

end Rda
