/-
**Unattended access tokens.**

A token is a CBOR body signed by the host's identity key and bound to one controller's public
key.  The host holds no token; it keeps the identifiers of the revoked ones and checks everything
else from the token itself.

Main definitions:

* `Rda.AccessToken`, `Rda.TokenIssuer.issue`, `Rda.TokenStore`;
* `Rda.TokenStore.verify` — parses and fully validates a presented token.

Main results:

* `Rda.TokenStore.verify_eq_ok` — what an accepted token has been checked for;
* `Rda.TokenStore.verify_sub` — an accepted token names the key it was presented for;
* `Rda.TokenStore.verify_issued` — a token the host issued is accepted for its subject.
-/

import Mathlib.Data.Finset.Erase
import Mathlib.Data.Finset.Insert
import Rda.Binding
import Rda.Caps

set_option relaxedAutoImplicit false
set_option autoImplicit false

namespace Rda

/-- Maximum token lifetime, in seconds. -/
def MAX_TOKEN_LIFETIME_S : ℕ := 30 * 24 * 60 * 60

/-- Maximum encoded token size accepted from the wire. -/
def MAX_TOKEN_BYTES : ℕ := 4096

/-- Domain separator of the token signature. -/
def TOKEN_DOMAIN : List UInt8 := asBytes "RDA-v1-token"

/-- Why a token was refused. -/
inductive TokenError
  | malformedEncoding
  | malformedBody
  | badSignature
  | wrongIssuer
  | wrongSubject
  | expired
  | revoked
  | lifetimeTooLong
  | unsupportedVersion (v : UInt8)
  deriving DecidableEq, Repr

/-- The capability set a token grants. -/
def TokenClaims.sessionCaps (c : TokenClaims) : SessionCaps := SessionCaps.fromNames c.caps

/-- A signed access token, with the exact bytes that were signed. -/
structure AccessToken where
  claims : TokenClaims
  signature : Bytes 64
  body : List UInt8

/-- The byte string a token signature covers. -/
def signingInput (body : List UInt8) : List UInt8 := TOKEN_DOMAIN ++ [0x00] ++ body

/-- The wire form: base64url of body and signature. -/
def AccessToken.encode (P : Primitives) (token : AccessToken) : String :=
  P.encodeB64 (token.body ++ token.signature.toList)

/-- Issues a token for a specific controller, with the identifier drawn. -/
def TokenIssuer.issue {P : Primitives} (identity : Identity) (jti : Bytes 16)
    (subject : PublicIdentity P) (caps : SessionCaps) (nowUnix lifetimeS : ℕ) :
    Except TokenError AccessToken :=
  if lifetimeS > MAX_TOKEN_LIFETIME_S then .error .lifetimeTooLong
  else
    let claims : TokenClaims :=
      ⟨1, subject.toBytes, (identity.deviceId P).asStr, nowUnix, nowUnix + lifetimeS, jti,
        caps.toNames⟩
    match P.claimsCbor.intoWriter claims with
    | .error _ => .error .malformedBody
    | .ok body => .ok ⟨claims, identity.sign P (signingInput body), body⟩

/-- The revoked tokens. -/
structure TokenStore where
  revoked : Finset (Bytes 16)

namespace TokenStore

/-- An empty store. -/
def new : TokenStore := ⟨∅⟩

/-- Revokes a token. -/
def revoke (store : TokenStore) (jti : Bytes 16) : TokenStore := ⟨insert jti store.revoked⟩

/-- Whether a token has been revoked. -/
def isRevoked (store : TokenStore) (jti : Bytes 16) : Bool := jti ∈ store.revoked

/-- Drops the revocations of tokens that have expired anyway. -/
def pruneExpired (store : TokenStore) (expiredJtis : List (Bytes 16)) : TokenStore :=
  ⟨expiredJtis.foldl Finset.erase store.revoked⟩

variable {P : Primitives}

/-- The checks on a token's claims, once its signature is known to be the host's. -/
def checkClaims (store : TokenStore) (claims : TokenClaims) (host : Identity)
    (expectedSubject : PublicIdentity P) (nowUnix : ℕ) : Except TokenError Unit :=
  if claims.v ≠ 1 then .error (.unsupportedVersion claims.v)
  else if claims.iss ≠ (host.deviceId P).asStr then .error .wrongIssuer
  else if claims.sub ≠ expectedSubject.toBytes then .error .wrongSubject
  else if claims.exp - claims.iat > MAX_TOKEN_LIFETIME_S then .error .lifetimeTooLong
  else if nowUnix ≥ claims.exp then .error .expired
  else if store.isRevoked claims.jti then .error .revoked
  else .ok ()

/-- Splits the wire form, base64url of body and signature, within the size cap. -/
def split (P : Primitives) (encoded : String) : Option (List UInt8 × Bytes 64) :=
  if encoded.utf8ByteSize > MAX_TOKEN_BYTES then none
  else do
    let raw ← P.decodeB64 encoded
    if raw.length < 65 ∨ raw.length > MAX_TOKEN_BYTES then none
    else do
      let signature ← Bytes.tryFrom 64 (raw.drop (raw.length - 64))
      return (raw.take (raw.length - 64), signature)

/-- The identifier an encoded token carries, if it can be parsed. -/
def presentedJti (P : Primitives) (encoded : String) : Option (Bytes 16) :=
  match split P encoded with
  | none => none
  | some (body, _) =>
      match P.claimsCbor.fromReader body with
      | .error _ => none
      | .ok claims => some claims.jti

/-- Parses and fully validates a token presented by a controller.  The signature comes first:
nothing in the body decides anything before it. -/
def verify (store : TokenStore) (encoded : String) (host : Identity)
    (expectedSubject : PublicIdentity P) (nowUnix : ℕ) : Except TokenError AccessToken :=
  match split P encoded with
  | none => .error .malformedEncoding
  | some (body, signature) =>
      match (host.toPublic P).verify (signingInput body) signature with
      | .error _ => .error .badSignature
      | .ok () =>
          match P.claimsCbor.fromReader body with
          | .error _ => .error .malformedBody
          | .ok claims =>
              match store.checkClaims claims host expectedSubject nowUnix with
              | .error e => .error e
              | .ok () => .ok ⟨claims, signature, body⟩

theorem checkClaims_sub {store : TokenStore} {claims : TokenClaims} {host : Identity}
    {subject : PublicIdentity P} {nowUnix : ℕ}
    (h : store.checkClaims claims host subject nowUnix = .ok ()) : claims.sub = subject.key := by
  unfold checkClaims at h
  by_contra hne
  rw [if_pos (show claims.sub ≠ subject.toBytes from hne)] at h
  split_ifs at h

/-- What an accepted token has been checked for. -/
theorem verify_eq_ok {store : TokenStore} {encoded : String} {host : Identity}
    {subject : PublicIdentity P} {nowUnix : ℕ} {token : AccessToken}
    (h : store.verify encoded host subject nowUnix = .ok token) :
    split P encoded = some (token.body, token.signature) ∧
      P.verifyStrict (host.toPublic P).key (signingInput token.body) token.signature = true ∧
      P.claimsCbor.fromReader token.body = .ok token.claims ∧
      store.checkClaims token.claims host subject nowUnix = .ok () := by
  unfold verify at h
  split at h
  · cases h
  · rename_i body signature hsplit
    split at h
    · cases h
    · rename_i hsig
      split at h
      · cases h
      · rename_i claims hread
        split at h
        · cases h
        · rename_i hclaims
          cases h
          exact ⟨hsplit, PublicIdentity.verify_eq_ok.1 hsig, hread, hclaims⟩

/-- An accepted token is the one its encoding names. -/
theorem presentedJti_of_verify {store : TokenStore} {encoded : String} {host : Identity}
    {subject : PublicIdentity P} {nowUnix : ℕ} {token : AccessToken}
    (h : store.verify encoded host subject nowUnix = .ok token) :
    presentedJti P encoded = some token.claims.jti := by
  obtain ⟨hsplit, -, hread, -⟩ := verify_eq_ok h
  simp only [presentedJti, hsplit, hread]

/-- An accepted token names the key it was presented for. -/
theorem verify_sub {store : TokenStore} {encoded : String} {host : Identity}
    {subject : PublicIdentity P} {nowUnix : ℕ} {token : AccessToken}
    (h : store.verify encoded host subject nowUnix = .ok token) :
    token.claims.sub = subject.key :=
  checkClaims_sub (verify_eq_ok h).2.2.2

theorem split_encode (hP : P.Lawful) {token : AccessToken}
    (hsize : (token.encode P).utf8ByteSize ≤ MAX_TOKEN_BYTES)
    (hbody : 0 < token.body.length ∧ token.body.length + 64 ≤ MAX_TOKEN_BYTES) :
    split P (token.encode P) = some (token.body, token.signature) := by
  have hlen : (token.body ++ token.signature.toList).length = token.body.length + 64 := by simp
  rw [split, if_neg (by omega), AccessToken.encode, hP.decodeB64_encodeB64]
  simp only [Option.bind_eq_bind, Option.bind_some, hlen, Nat.add_sub_cancel]
  rw [if_neg (by omega), List.drop_left, List.take_left, Bytes.tryFrom_toList]
  rfl

/-- A token the host issued is accepted for its subject until it expires or is revoked. -/
theorem verify_issued (hP : P.Lawful) {store : TokenStore} {host : Identity} {jti : Bytes 16}
    {subject : PublicIdentity P} {caps : SessionCaps} {iat lifetimeS nowUnix : ℕ}
    {token : AccessToken}
    (hissue : TokenIssuer.issue host jti subject caps iat lifetimeS = .ok token)
    (hsize : (token.encode P).utf8ByteSize ≤ MAX_TOKEN_BYTES)
    (hbody : 0 < token.body.length ∧ token.body.length + 64 ≤ MAX_TOKEN_BYTES)
    (hnow : nowUnix < iat + lifetimeS) (hrevoked : store.isRevoked jti = false) :
    store.verify (token.encode P) host subject nowUnix = .ok token := by
  unfold TokenIssuer.issue at hissue
  split_ifs at hissue with hlife
  obtain ⟨body, hwrite, hread⟩ := hP.claimsCbor
    ⟨1, subject.toBytes, (host.deviceId P).asStr, iat, iat + lifetimeS, jti, caps.toNames⟩
  simp only [hwrite] at hissue
  cases hissue
  have hsig : (host.toPublic P).verify (signingInput body) (host.sign P (signingInput body))
      = .ok () := PublicIdentity.verify_eq_ok.2 (hP.verify_sign host.signingKey _)
  rw [verify, split_encode hP hsize hbody]
  simp only [hsig, hread, checkClaims, ne_eq, not_true_eq_false, if_false, Nat.add_sub_cancel_left,
    hlife, ge_iff_le, Nat.not_le.2 hnow, hrevoked, Bool.false_eq_true]

end TokenStore

/-! ### A concrete token -/

/-- The body of a token device 1 issues for a thousand seconds. -/
def Sample.claims (subject : PublicIdentity .sample) (caps : SessionCaps) : TokenClaims :=
  ⟨1, subject.toBytes, ((Sample.device 1).deviceId .sample).asStr, 0, 1000,
    ⟨List.replicate 16 7, rfl⟩, caps.toNames⟩

/-- The token. -/
def Sample.token (subject : PublicIdentity .sample) (caps : SessionCaps) : AccessToken :=
  let body := Sample.pack (Sample.claimsFields (Sample.claims subject caps))
  ⟨Sample.claims subject caps, (Sample.device 1).sign .sample (signingInput body), body⟩

theorem Sample.verify_token (subject : PublicIdentity .sample) (caps : SessionCaps)
    (hbody : (Sample.token subject caps).body.length < 1000) {nowUnix : ℕ} (hnow : nowUnix < 1000) :
    TokenStore.new.verify ((Sample.token subject caps).encode .sample) (Sample.device 1) subject
      nowUnix = .ok (Sample.token subject caps) := by
  have hissue : TokenIssuer.issue (Sample.device 1) ⟨List.replicate 16 7, rfl⟩ subject caps 0 1000
      = .ok (Sample.token subject caps) := rfl
  have hsize : ((Sample.token subject caps).encode .sample).utf8ByteSize
      = 2 * ((Sample.token subject caps).body.length + 64) := by
    refine (Sample.utf8ByteSize_letters _).trans ?_
    simp
  refine TokenStore.verify_issued Primitives.sample_lawful hissue ?_ ⟨?_, ?_⟩ (by omega) ?_
  · rw [hsize, MAX_TOKEN_BYTES]
    omega
  · exact Nat.succ_pos _
  · rw [MAX_TOKEN_BYTES]
    omega
  · rfl

end Rda
