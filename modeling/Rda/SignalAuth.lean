/-
**Registration challenges.**

Every socket is issued a challenge of its own.  A registration is accepted when it is signed over
that challenge's nonce with the key whose device id it claims; whatever the outcome, the challenge
is spent.

Main definitions:

* `Rda.Signal.Challenge`, `Rda.Signal.Challenge.verify` — one socket's challenge;
* `Rda.Signal.RateLimiter` — a fixed window of messages.

Main results:

* `Rda.Signal.Challenge.verify_eq_ok` — what an accepted registration has shown;
* `Rda.Signal.Challenge.verify_spent` — nothing is accepted twice.
-/

import Rda.SignalMessages

set_option relaxedAutoImplicit false
set_option autoImplicit false

namespace Rda

namespace Signal

variable {P : Primitives}

/-! ### Challenges -/

/-- How long a challenge nonce remains usable. -/
def NONCE_TTL_MS : ℕ := 60000

/-- Why a registration is refused. -/
inductive AuthError
  | badPubkey
  | badSignatureEncoding
  | badSignature
  | idMismatch
  | badNonce
  deriving DecidableEq, Repr

/-- The text of an authentication error. -/
def AuthError.text : AuthError → String
  | .badPubkey => "malformed public key"
  | .badSignatureEncoding => "malformed signature"
  | .badSignature => "signature verification failed"
  | .idMismatch => "device id does not match public key"
  | .badNonce => "challenge nonce is unknown, spent or expired"

/-- The code a client is sent for it. -/
def AuthError.code : AuthError → UInt16
  | .badNonce => BAD_NONCE
  | _ => BAD_SIGNATURE

/-- A challenge issued to one connection. -/
structure Challenge where
  nonce : Bytes NONCE_LEN
  issuedMs : ℕ
  spent : Bool
  deriving DecidableEq

/-- A fresh challenge; the nonce is drawn by the operating system. -/
def Challenge.issue (nonce : Bytes NONCE_LEN) (nowMs : ℕ) : Challenge := ⟨nonce, nowMs, false⟩

/-- The challenge can still be answered. -/
def Challenge.Usable (ch : Challenge) (nowMs : ℕ) : Prop :=
  ch.spent = false ∧ nowMs - ch.issuedMs ≤ NONCE_TTL_MS

instance (ch : Challenge) (nowMs : ℕ) : Decidable (ch.Usable nowMs) :=
  inferInstanceAs (Decidable (_ ∧ _))

/-- The checks of a registration, with the key it shows. -/
def Challenge.check (P : Primitives) (ch : Challenge) (reg : Register) :
    Except AuthError (Bytes 32) :=
  match (P.decodeB64 reg.pubkey).bind (Bytes.tryFrom 32) with
  | none => .error .badPubkey
  | some pubkey =>
      match (P.decodeB64 reg.sig).bind (Bytes.tryFrom 64) with
      | none => .error .badSignatureEncoding
      | some sig =>
          if P.isPoint pubkey = false then .error .badPubkey
          else if P.verifyStrict pubkey
              (Register.signingInput ch.nonce.toList reg.deviceId reg.role) sig = false then
            .error .badSignature
          -- Only now is the key trusted, so only now can the claimed identifier be checked.
          else if deviceIdFromPubkey P pubkey ≠ reg.deviceId then .error .idMismatch
          else .ok pubkey

/-- Verifies a registration against this challenge and consumes it. -/
def Challenge.verify (P : Primitives) (ch : Challenge) (reg : Register) (nowMs : ℕ) :
    Challenge × Except AuthError (Bytes 32) :=
  if ch.Usable nowMs then ({ ch with spent := true }, ch.check P reg)
  else (ch, .error .badNonce)

/-- What an accepted registration has shown about a key: it signed the nonce, and the claimed id is
the key's own. -/
structure Challenge.Answers (P : Primitives) (ch : Challenge) (reg : Register) (pubkey : Bytes 32) :
    Prop where
  decodes : (P.decodeB64 reg.pubkey).bind (Bytes.tryFrom 32) = some pubkey
  signed : ∃ sig, (P.decodeB64 reg.sig).bind (Bytes.tryFrom 64) = some sig ∧
    P.verifyStrict pubkey (Register.signingInput ch.nonce.toList reg.deviceId reg.role) sig = true
  isPoint : P.isPoint pubkey = true
  id_eq : deviceIdFromPubkey P pubkey = reg.deviceId

theorem Challenge.check_eq_ok {ch : Challenge} {reg : Register} {pubkey : Bytes 32}
    (h : ch.check P reg = .ok pubkey) : ch.Answers P reg pubkey := by
  unfold Challenge.check at h
  cases hkey : (P.decodeB64 reg.pubkey).bind (Bytes.tryFrom 32) with
  | none => simp [hkey] at h
  | some key =>
      cases hsig : (P.decodeB64 reg.sig).bind (Bytes.tryFrom 64) with
      | none => simp [hkey, hsig] at h
      | some sig =>
          simp only [hkey, hsig] at h
          split at h
          · cases h
          rename_i hpoint
          split at h
          · cases h
          rename_i hverify
          split at h
          · cases h
          rename_i hid
          cases h
          exact ⟨hkey, ⟨sig, hsig, by simpa using hverify⟩, by simpa using hpoint,
            not_not.1 hid⟩

/-- A registration that answers the challenge passes its checks. -/
theorem Challenge.Answers.check_eq {ch : Challenge} {reg : Register} {pubkey : Bytes 32}
    (h : ch.Answers P reg pubkey) : ch.check P reg = .ok pubkey := by
  obtain ⟨hkey, ⟨sig, hsig, hverify⟩, hpoint, hid⟩ := h
  rw [check, hkey, hsig]
  dsimp only
  rw [if_neg (by simp [hpoint]), if_neg (by simp [hverify]), if_neg (not_not.2 hid)]

/-- **An accepted registration** came while the challenge was unspent and unexpired, and is signed
over its nonce by the key whose id it claims. -/
theorem Challenge.verify_eq_ok {ch : Challenge} {reg : Register} {nowMs : ℕ} {pubkey : Bytes 32}
    (h : (ch.verify P reg nowMs).2 = .ok pubkey) : ch.Usable nowMs ∧ ch.Answers P reg pubkey := by
  unfold Challenge.verify at h
  split at h
  · exact ⟨‹_›, check_eq_ok h⟩
  · cases h

/-- A spent challenge accepts nothing. -/
theorem Challenge.verify_spent {ch : Challenge} (h : ch.spent = true) (reg : Register)
    (nowMs : ℕ) : (ch.verify P reg nowMs).2 = .error .badNonce := by
  unfold Challenge.verify
  rw [if_neg]
  rintro ⟨hunspent, -⟩
  rw [h] at hunspent
  cases hunspent

@[simp] theorem Challenge.verify_nonce (ch : Challenge) (reg : Register) (nowMs : ℕ) :
    (ch.verify P reg nowMs).1.nonce = ch.nonce := by
  unfold Challenge.verify
  split <;> rfl

@[simp] theorem Challenge.verify_issuedMs (ch : Challenge) (reg : Register) (nowMs : ℕ) :
    (ch.verify P reg nowMs).1.issuedMs = ch.issuedMs := by
  unfold Challenge.verify
  split <;> rfl

/-! ### Rate limiting -/

/-- A fixed-window rate limiter. -/
structure RateLimiter where
  limit : ℕ
  windowMs : ℕ
  windowStart : ℕ
  count : ℕ
  deriving DecidableEq

def RateLimiter.new (limit windowMs : ℕ) : RateLimiter := ⟨limit, windowMs, 0, 0⟩

/-- Records an event; the answer is whether it is within the budget. -/
def RateLimiter.allow (r : RateLimiter) (nowMs : ℕ) : RateLimiter × Bool :=
  let r := if nowMs - r.windowStart > r.windowMs then { r with windowStart := nowMs, count := 0 }
    else r
  ({ r with count := r.count + 1 }, r.count + 1 ≤ r.limit)

end Signal

end Rda
