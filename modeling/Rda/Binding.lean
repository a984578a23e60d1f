/-
**The fingerprint binding and the short authentication string.**

Each peer signs, with its identity key, a byte string that ties the certificate fingerprints of
the transport to the session and to both nonces.  The fields stand in role order, controller
first, so that the two ends build the same string from opposite points of view.

Main definitions:

* `Rda.bindingInput` — the signed byte string;
* `Rda.BindingVerifier`, with `new`, `prove`, `verify` and `transcriptHash`;
* `Rda.shortAuthenticationString` — four words derived from the transcript hash.

Main results:

* `Rda.BindingVerifier.verify_eq_ok_iff` — what an accepted proof has been checked for;
* `Rda.BindingVerifier.new_host_eq` — **the two ends hold one context**, up to the local role;
* `Rda.BindingVerifier.verify_prove` — an honest proof is accepted at the other end.
-/

import Rda.Identity

set_option relaxedAutoImplicit false
set_option autoImplicit false

namespace Rda

/-! ### The signed structure -/

/-- Domain separator of the binding signature. -/
def BINDING_DOMAIN : List UInt8 := asBytes "RDA-v1-binding"

/-- Which end of the session a peer is. -/
inductive PeerRole
  | controller | host
  deriving DecidableEq, Repr

/-- The byte a role is signed as. -/
def PeerRole.code : PeerRole → UInt8
  | .controller => 0x01
  | .host => 0x02

/-- The opposite role. -/
def PeerRole.peer : PeerRole → PeerRole
  | .controller => .host
  | .host => .controller

/-- A SHA-256 certificate fingerprint. -/
structure Fingerprint where
  bytes : Bytes 32
  deriving DecidableEq

/-- A session nonce. -/
abbrev Nonce : Type := Bytes 32

/-- The byte string both peers sign and verify. -/
def bindingInput (sessionId : String) (nonceController nonceHost : Nonce)
    (fpController fpHost : Fingerprint) (role : PeerRole) : List UInt8 :=
  BINDING_DOMAIN ++ [0x00] ++ asBytes sessionId ++ nonceController.toList ++ nonceHost.toList ++
    fpController.bytes.toList ++ fpHost.bytes.toList ++ [role.code]

variable {P : Primitives}

/-- A peer's signed claim over its own fingerprint. -/
structure BindingProof (P : Primitives) where
  role : PeerRole
  identity : PublicIdentity P
  signature : Bytes 64

/-- Why a binding failed. -/
inductive BindingError
  | invalidSignature
  | wrongRole
  | identityMismatch
  deriving DecidableEq, Repr

/-- Everything one side needs to produce and check a binding. -/
structure BindingVerifier where
  sessionId : String
  nonceController : Nonce
  nonceHost : Nonce
  fpController : Fingerprint
  fpHost : Fingerprint
  localRole : PeerRole
  deriving DecidableEq

theorem mapError_eq_ok_iff {ε ε' α : Type} {f : ε → ε'} {r : Except ε α} {a : α} :
    r.mapError f = .ok a ↔ r = .ok a := by
  cases r with
  | ok b => simp [Except.mapError]
  | error e => simp [Except.mapError]

namespace BindingVerifier

/-- Assembles the session context from one side's point of view. -/
def new (sessionId : String) (localRole : PeerRole) (nonceLocal nonceRemote : Nonce)
    (fpLocal fpRemote : Fingerprint) : BindingVerifier :=
  match localRole with
  | .controller => ⟨sessionId, nonceLocal, nonceRemote, fpLocal, fpRemote, localRole⟩
  | .host => ⟨sessionId, nonceRemote, nonceLocal, fpRemote, fpLocal, localRole⟩

/-- The byte string this context signs in a given role. -/
def input (v : BindingVerifier) (role : PeerRole) : List UInt8 :=
  bindingInput v.sessionId v.nonceController v.nonceHost v.fpController v.fpHost role

/-- Produces our own proof. -/
def prove (P : Primitives) (v : BindingVerifier) (identity : Identity) : BindingProof P where
  role := v.localRole
  identity := identity.toPublic P
  signature := identity.sign P (v.input v.localRole)

/-- Verifies the peer's proof, against the dialled device id when there is one. -/
def verify (v : BindingVerifier) (proof : BindingProof P) (expectedDeviceId : Option DeviceId) :
    Except BindingError Unit :=
  let expectedRole := v.localRole.peer
  if proof.role ≠ expectedRole then .error .wrongRole
  else
    let claims : Except BindingError Unit :=
      match expectedDeviceId with
      | some id => (proof.identity.checkClaims id).mapError fun _ => .identityMismatch
      | none => .ok ()
    match claims with
    | .error e => .error e
    | .ok () =>
        (proof.identity.verify (v.input expectedRole) proof.signature).mapError
          fun _ => .invalidSignature

/-- The transcript hash, from which the short authentication string is derived. -/
def transcriptHash (P : Primitives) (v : BindingVerifier) : Bytes 32 :=
  P.sha256 (asBytes "RDA-v1-transcript" ++ [0x00] ++ asBytes v.sessionId ++
    v.nonceController.toList ++ v.nonceHost.toList ++ v.fpController.bytes.toList ++
    v.fpHost.bytes.toList)

/-- An accepted proof has the other role, the dialled id if one was given, and a signature over
this context. -/
theorem verify_eq_ok_iff {v : BindingVerifier} {proof : BindingProof P} {id : Option DeviceId} :
    v.verify proof id = .ok () ↔
      proof.role = v.localRole.peer ∧ (∀ d, id = some d → proof.identity.deviceId = d) ∧
        P.verifyStrict proof.identity.key (v.input v.localRole.peer) proof.signature = true := by
  unfold verify
  by_cases hrole : proof.role = v.localRole.peer
  · simp only [hrole, ne_eq, not_true_eq_false, if_false, true_and]
    cases id with
    | none => simp [mapError_eq_ok_iff, PublicIdentity.verify_eq_ok]
    | some d =>
        cases hc : proof.identity.checkClaims d with
        | ok u =>
            have hid := PublicIdentity.checkClaims_eq_ok.1 hc
            simp only [hc, Except.mapError.eq_2, mapError_eq_ok_iff, PublicIdentity.verify_eq_ok]
            simp [hid]
        | error e =>
            have hid : proof.identity.deviceId ≠ d := by
              intro h
              rw [PublicIdentity.checkClaims_eq_ok.2 h] at hc
              cases hc
            simp [hc, Except.mapError, hid]
  · simp [hrole]

/-- A proof that is accepted for some id is accepted for its own identity's id. -/
theorem verify_own_id {v : BindingVerifier} {proof : BindingProof P}
    (h : v.verify proof none = .ok ()) :
    v.verify proof (some proof.identity.deviceId) = .ok () := by
  obtain ⟨hrole, -, hsig⟩ := verify_eq_ok_iff.1 h
  refine verify_eq_ok_iff.2 ⟨hrole, ?_, hsig⟩
  intro d hd
  exact Option.some.inj hd

/-- With an id to compare, a proof is accepted when it is accepted without one and its identity
derives that id. -/
theorem verify_some_iff {v : BindingVerifier} {proof : BindingProof P} {d : DeviceId} :
    v.verify proof (some d) = .ok () ↔
      v.verify proof none = .ok () ∧ proof.identity.deviceId = d := by
  rw [verify_eq_ok_iff, verify_eq_ok_iff]
  constructor
  · rintro ⟨hrole, hid, hsig⟩
    exact ⟨⟨hrole, by simp, hsig⟩, hid d rfl⟩
  · rintro ⟨⟨hrole, -, hsig⟩, hid⟩
    exact ⟨hrole, fun e h => hid.trans (Option.some.inj h), hsig⟩

/-- **The two ends hold one context.**  With local and remote values exchanged, the host's context
is the controller's in the other role. -/
theorem new_host_eq (sessionId : String) (nonceC nonceH : Nonce) (fpC fpH : Fingerprint) :
    new sessionId .host nonceH nonceC fpH fpC =
      { new sessionId .controller nonceC nonceH fpC fpH with localRole := .host } := rfl

/-- An honest proof is accepted at the other end of the session. -/
theorem verify_prove (hP : P.Lawful) (sessionId : String) (nonceC nonceH : Nonce)
    (fpC fpH : Fingerprint) (identity : Identity) :
    (new sessionId .host nonceH nonceC fpH fpC).verify
      ((new sessionId .controller nonceC nonceH fpC fpH).prove P identity) none = .ok () := by
  refine verify_eq_ok_iff.2 ⟨rfl, by simp, ?_⟩
  exact hP.verify_sign identity.signingKey _

end BindingVerifier

/-! ### The short authentication string -/

/-- Number of words in the string. -/
def SAS_WORDS : ℕ := 4

/-- The word list. -/
def WORDLIST : List String :=
  ["acid", "acorn", "actor", "adobe", "agent", "aisle", "album", "alien", "alarm", "algae",
   "amber", "amigo", "anvil", "apple", "april", "arena", "armor", "arrow", "aspen", "atlas",
   "audio", "aunt", "avoid", "axis", "bacon", "badge", "bagel", "baker", "balsa", "banjo",
   "barge", "basil", "baton", "beach", "beard", "beast", "bench", "berry", "bison", "black",
   "blade", "blaze", "blend", "blimp", "blood", "board", "bonus", "boost", "botany", "bowl",
   "brain", "brave", "bread", "brick", "bride", "brief", "bring", "brisk", "broad", "brook",
   "brush", "bugle", "bunch", "cabin", "cable", "cache", "cadet", "camel", "canal", "candy",
   "canoe", "canon", "cargo", "carve", "catch", "cedar", "chalk", "charm", "chase", "cheek",
   "chess", "chief", "chime", "choir", "cider", "cigar", "civic", "claim", "clamp", "clash",
   "clean", "clerk", "cliff", "climb", "cloak", "clock", "clone", "cloud", "clove", "clown",
   "coach", "cobra", "cocoa", "comet", "comic", "coral", "couch", "cough", "coral2", "cover",
   "crane", "crate", "crawl", "cream", "creek", "crest", "crisp", "crown", "crumb", "crush",
   "curve", "cycle", "daily", "dance", "dandy", "dealt", "debit", "debug", "decal", "decay",
   "decoy", "delta", "dense", "depth", "derby", "diary", "diner", "dingo", "ditch", "diver",
   "dizzy", "dodge", "donor", "donut", "dough", "dozen", "draft", "drain", "drama", "dress",
   "drift", "drill", "drink", "drive", "drove", "drums", "eagle", "early", "earth", "easel",
   "ebony", "edict", "eight", "elbow", "elder", "elite", "elope", "ember", "emery", "empty",
   "enemy", "enjoy", "entry", "envoy", "equal", "erase", "essay", "ether", "event", "every",
   "exact", "exile", "exist", "extra", "fable", "facet", "faint", "fairy", "false", "fancy",
   "fault", "favor", "feast", "fence", "ferry", "fever", "fiber", "field", "fiery", "fifty",
   "final", "finch", "first", "flair", "flame", "flash", "fleet", "flint", "float", "flock",
   "flood", "floor", "flour", "fluid", "flute", "focal", "focus", "foggy", "forge", "forty",
   "found", "frame", "fraud", "fresh", "fried", "frost", "frown", "fruit", "fudge", "fully",
   "funny", "gauge", "gecko", "genre", "ghost", "giant", "given", "glade", "gland", "glass",
   "glaze", "gleam", "globe", "gloss", "glove", "going", "gourd", "grace", "grade", "grain",
   "grand", "grape", "graph", "grasp", "grass", "grave"]

theorem length_WORDLIST : WORDLIST.length = 256 := by decide +kernel

/-- Derives the short authentication string from a transcript hash. -/
def shortAuthenticationString (P : Primitives) (transcriptHash : Bytes 32) (sessionId : String) :
    List String :=
  (P.hkdf (asBytes sessionId) transcriptHash.toList (asBytes "RDA-v1-sas") SAS_WORDS).toList.map
    fun b => WORDLIST.get ⟨b.toNat, length_WORDLIST ▸ b.toNat_lt⟩

end Rda
