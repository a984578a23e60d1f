/-
**When an issued token is accepted.**

A token goes through two chains: issuing writes the claims, signs them and encodes both; verifying
decodes, checks the signature against the host that asks, reads the claims back and checks them one
after another.  Taken together, with a signature scheme that ties a signature to its key and
serialisers that read back what they wrote and keep a token small, the two chains agree on one
condition.

Main definitions:

* `Rda.Primitives.SignaturesBind` — a signature verifies under its own key only;
* `Rda.Primitives.Compact` — base64url and CBOR keep a token far below the size cap.

Main results:

* `Rda.TokenStore.checkClaims_eq_ok_iff` — what the checks on the claims amount to;
* `Rda.TokenStore.verify_encode_iff` — when the wire form of a token is accepted;
* `Rda.token_round_trip_iff` — **an issued token is accepted exactly by its issuer, for its subject,
  before it expires and unless it is revoked**, and what is accepted is what was issued.
-/

import Rda.Token
import Mathlib.Data.Nat.Digits.Lemmas
import Mathlib.Data.Nat.ModEq
import Mathlib.Tactic.NormNum
import Mathlib.Tactic.Positivity
import Mathlib.Tactic.Linarith
import Mathlib.Algebra.Order.BigOperators.Group.List

set_option relaxedAutoImplicit false
set_option autoImplicit false

namespace Rda

/-! ### What the libraries promise beyond a round trip -/

/-- A signature verifies under no key but the one it was made with. -/
def Primitives.SignaturesBind (P : Primitives) : Prop :=
  ∀ key sk m, P.verifyStrict key m (P.sign sk m) = true → key = (P.verifyingKey sk).1

/-- Claims whose times are 64 bits wide, with a device id for the issuer and the names of
capabilities. -/
structure TokenClaims.Ordinary (c : TokenClaims) : Prop where
  iat : c.iat < 2 ^ 64
  exp : c.exp < 2 ^ 64
  iss : c.iss.utf8ByteSize ≤ DEVICE_ID_LEN
  caps : c.caps.length ≤ 5
  names : ∀ name ∈ c.caps, name.utf8ByteSize ≤ 9

/-- What is written is not much longer than what went into it. -/
structure Primitives.Compact (P : Primitives) : Prop where
  /-- Base64 without padding has four characters for three bytes. -/
  encodeB64_size : ∀ bs, (P.encodeB64 bs).utf8ByteSize ≤ 2 * bs.length
  /-- A token's body is a few hundred bytes. -/
  claims_size : ∀ (c : TokenClaims) (body : List UInt8), c.Ordinary →
    P.claimsCbor.intoWriter c = .ok body → 0 < body.length ∧ body.length ≤ 1000

variable {P : Primitives}

/-- The names of capabilities are few and short. -/
theorem SessionCaps.toNames_short (c : SessionCaps) :
    c.toNames.length ≤ 5 ∧ ∀ name ∈ c.toNames, name.utf8ByteSize ≤ 9 := by
  rcases c with ⟨view, input, clipboard, file, audio⟩
  cases view <;> cases input <;> cases clipboard <;> cases file <;> cases audio <;> decide

/-- A device id has twelve ASCII characters. -/
theorem DeviceId.utf8ByteSize_asStr (d : DeviceId) : d.asStr.utf8ByteSize = DEVICE_ID_LEN :=
  (asBytes_length d.asStr).symm.trans d.length_asBytes_asStr

theorem Identity.deviceId_eq_toPublic (i : Identity) : i.deviceId P = (i.toPublic P).deviceId := by
  unfold deviceId PublicIdentity.deviceId toPublic
  rfl

/-! ### The two chains -/

/-- The claims a host issues. -/
def TokenIssuer.claims (P : Primitives) (issuer : Identity) (jti : Bytes 16)
    (subject : PublicIdentity P) (caps : SessionCaps) (iat lifetimeS : ℕ) : TokenClaims :=
  ⟨1, subject.toBytes, (issuer.deviceId P).asStr, iat, iat + lifetimeS, jti, caps.toNames⟩

theorem TokenIssuer.claims_ordinary (issuer : Identity) (jti : Bytes 16)
    (subject : PublicIdentity P) (caps : SessionCaps) {iat lifetimeS : ℕ}
    (h : iat + lifetimeS < 2 ^ 64) : (claims P issuer jti subject caps iat lifetimeS).Ordinary where
  iat := lt_of_le_of_lt (Nat.le_add_right iat lifetimeS) h
  exp := h
  iss := le_of_eq (DeviceId.utf8ByteSize_asStr _)
  caps := caps.toNames_short.1
  names := caps.toNames_short.2

/-- Issuing within the lifetime cap writes and signs those claims. -/
theorem TokenIssuer.issue_eq_ok (hP : P.Lawful) (issuer : Identity) (jti : Bytes 16)
    (subject : PublicIdentity P) (caps : SessionCaps) (iat : ℕ) {lifetimeS : ℕ}
    (hlife : lifetimeS ≤ MAX_TOKEN_LIFETIME_S) :
    ∃ body, P.claimsCbor.intoWriter (claims P issuer jti subject caps iat lifetimeS) = .ok body ∧
      P.claimsCbor.fromReader body = .ok (claims P issuer jti subject caps iat lifetimeS) ∧
      issue issuer jti subject caps iat lifetimeS
        = .ok ⟨claims P issuer jti subject caps iat lifetimeS,
            issuer.sign P (signingInput body), body⟩ := by
  obtain ⟨body, hwrite, hread⟩ := hP.claimsCbor (claims P issuer jti subject caps iat lifetimeS)
  refine ⟨body, hwrite, hread, ?_⟩
  rw [claims] at hwrite ⊢
  simp only [issue, gt_iff_lt, not_lt.2 hlife, if_false, hwrite]

namespace TokenStore

/-- The checks on the claims, in one condition. -/
theorem checkClaims_eq_ok_iff {store : TokenStore} {claims : TokenClaims} {host : Identity}
    {subject : PublicIdentity P} {nowUnix : ℕ} :
    store.checkClaims claims host subject nowUnix = .ok () ↔
      claims.v = 1 ∧ claims.iss = (host.deviceId P).asStr ∧ claims.sub = subject.toBytes ∧
        claims.exp - claims.iat ≤ MAX_TOKEN_LIFETIME_S ∧ nowUnix < claims.exp ∧
        store.isRevoked claims.jti = false := by
  unfold checkClaims
  constructor
  · intro h
    split_ifs at h with hv hiss hsub hlife hexp hrev
    exact ⟨not_not.1 hv, not_not.1 hiss, not_not.1 hsub, not_lt.1 hlife, not_le.1 hexp,
      Bool.eq_false_iff.2 hrev⟩
  · rintro ⟨hv, hiss, hsub, hlife, hexp, hrev⟩
    rw [if_neg (not_not.2 hv), if_neg (not_not.2 hiss), if_neg (not_not.2 hsub),
      if_neg (not_lt.2 hlife), if_neg (not_le.2 hexp), if_neg (by simp [hrev])]

/-- **The wire form of a token** that fits the size cap and whose body reads back is accepted
exactly when its signature and its claims are, and then it is the token itself. -/
theorem verify_encode_iff {store : TokenStore} {token accepted : AccessToken} {host : Identity}
    {subject : PublicIdentity P} {nowUnix : ℕ}
    (hsplit : split P (token.encode P) = some (token.body, token.signature))
    (hread : P.claimsCbor.fromReader token.body = .ok token.claims) :
    store.verify (token.encode P) host subject nowUnix = .ok accepted ↔
      accepted = token ∧
      P.verifyStrict (host.toPublic P).key (signingInput token.body) token.signature = true ∧
      store.checkClaims token.claims host subject nowUnix = .ok () := by
  constructor
  · intro h
    obtain ⟨hsplit', hsig, hread', hchecks⟩ := verify_eq_ok h
    rw [hsplit] at hsplit'
    obtain ⟨hbody, hsignature⟩ := Prod.mk.inj (Option.some.inj hsplit')
    rw [← hbody, hread] at hread'
    have hclaims := Except.ok.inj hread'
    have htoken : accepted = token := by
      cases accepted
      cases token
      cases hbody
      cases hsignature
      cases hclaims
      rfl
    rw [htoken] at hsig hchecks
    exact ⟨htoken, hsig, hchecks⟩
  · rintro ⟨rfl, hsig, hchecks⟩
    simp only [verify, hsplit, PublicIdentity.verify_eq_ok.2 hsig, hread, hchecks]

end TokenStore

/-- **The round trip.**  An issued token, in its wire form, is accepted exactly by the host that
issued it, for the subject it names, before it expires and unless it is revoked.  What is accepted
carries the claims that were issued, with the capabilities they were issued for. -/
theorem token_round_trip_iff (hP : P.Lawful) (hbind : P.SignaturesBind) (hcompact : P.Compact)
    (store : TokenStore) (issuer host : Identity) (jti : Bytes 16)
    (subject expected : PublicIdentity P) (caps : SessionCaps) (iat lifetimeS nowUnix : ℕ)
    (hlife : lifetimeS ≤ MAX_TOKEN_LIFETIME_S) (hexp : iat + lifetimeS < 2 ^ 64) :
    ∃ token, TokenIssuer.issue issuer jti subject caps iat lifetimeS = .ok token ∧
      ((∃ accepted, store.verify (token.encode P) host expected nowUnix = .ok accepted) ↔
        host.toPublic P = issuer.toPublic P ∧ expected = subject ∧ nowUnix < iat + lifetimeS ∧
          store.isRevoked jti = false) ∧
      ∀ accepted, store.verify (token.encode P) host expected nowUnix = .ok accepted →
        accepted.claims = token.claims ∧ accepted.claims.sessionCaps = caps := by
  obtain ⟨body, hwrite, hread, hissue⟩ :=
    TokenIssuer.issue_eq_ok hP issuer jti subject caps iat hlife
  have hordinary := TokenIssuer.claims_ordinary issuer jti subject caps hexp
  obtain ⟨hpos, hsmall⟩ := hcompact.claims_size _ body hordinary hwrite
  -- From here on only the parts of the token matter, not how they were made.
  generalize hclaims : TokenIssuer.claims P issuer jti subject caps iat lifetimeS = claims
    at hwrite hread hissue
  have hsplit : TokenStore.split P
        (AccessToken.encode P ⟨claims, issuer.sign P (signingInput body), body⟩)
      = some (body, issuer.sign P (signingInput body)) := by
    refine TokenStore.split_encode hP ?_ ⟨hpos, ?_⟩
    · refine (hcompact.encodeB64_size _).trans ?_
      simp only [List.length_append, List.Vector.toList_length, MAX_TOKEN_BYTES]
      omega
    · simp only [MAX_TOKEN_BYTES]
      omega
  have hsig : P.verifyStrict (host.toPublic P).key (signingInput body)
      (issuer.sign P (signingInput body)) = true ↔ host.toPublic P = issuer.toPublic P := by
    refine ⟨fun h => PublicIdentity.ext (hbind _ _ _ h), ?_⟩
    intro h
    rw [h]
    exact hP.verify_sign issuer.signingKey _
  have hchecks : host.toPublic P = issuer.toPublic P →
      (store.checkClaims claims host expected nowUnix = .ok () ↔
        expected = subject ∧ nowUnix < iat + lifetimeS ∧ store.isRevoked jti = false) := by
    intro hhost
    have hid : host.deviceId P = issuer.deviceId P := by
      rw [host.deviceId_eq_toPublic, issuer.deviceId_eq_toPublic, hhost]
    rw [TokenStore.checkClaims_eq_ok_iff, ← hclaims, hid]
    simp only [TokenIssuer.claims, Nat.add_sub_cancel_left, hlife, true_and]
    refine and_congr_left fun _ => ⟨fun h => PublicIdentity.ext h.symm, fun h => h ▸ rfl⟩
  have hverify : ∀ accepted, store.verify
      (AccessToken.encode P ⟨claims, issuer.sign P (signingInput body), body⟩) host expected nowUnix
        = .ok accepted ↔ _ := fun accepted => TokenStore.verify_encode_iff hsplit hread
  refine ⟨_, hissue, ⟨?_, ?_⟩, ?_⟩
  · rintro ⟨accepted, haccepted⟩
    obtain ⟨-, hsigned, hpassed⟩ := (hverify accepted).1 haccepted
    have hhost := hsig.1 hsigned
    exact ⟨hhost, (hchecks hhost).1 hpassed⟩
  · rintro ⟨hhost, hrest⟩
    exact ⟨_, (hverify _).2 ⟨rfl, hsig.2 hhost, (hchecks hhost).2 hrest⟩⟩
  · intro accepted haccepted
    obtain ⟨htoken, -, -⟩ := (hverify accepted).1 haccepted
    rw [htoken]
    refine ⟨rfl, ?_⟩
    rw [← hclaims]
    exact SessionCaps.fromNames_toNames caps

/-! ### The sample instance keeps these promises -/

namespace Sample

/-- The number a digest is taken of: the bytes, plus one, as digits in base 257. -/
def plain (bs : List UInt8) : ℕ := bs.foldl (fun acc b => acc * 257 + b.toNat + 1) 0

theorem foldl_plain (bs : List UInt8) (acc : ℕ) :
    bs.foldl (fun acc b => acc * 257 + b.toNat + 1) acc = acc * 257 ^ bs.length + plain bs := by
  induction bs generalizing acc with
  | nil => simp [plain]
  | cons b bs ih =>
      rw [plain, List.foldl_cons, List.foldl_cons, ih, ih (0 * 257 + b.toNat + 1),
        List.length_cons, Nat.pow_succ]
      ring

theorem plain_cons (b : UInt8) (bs : List UInt8) :
    plain (b :: bs) = (b.toNat + 1) * 257 ^ bs.length + plain bs := by
  rw [plain, List.foldl_cons, foldl_plain, Nat.zero_mul, Nat.zero_add]

theorem plain_append (xs ys : List UInt8) :
    plain (xs ++ ys) = plain xs * 257 ^ ys.length + plain ys := by
  rw [plain, List.foldl_append, foldl_plain]
  rfl

theorem plain_lt (bs : List UInt8) : plain bs < 257 ^ bs.length := by
  induction bs with
  | nil => exact Nat.one_pos
  | cons b bs ih =>
      have hb : b.toNat < 256 := b.toNat_lt
      rw [plain_cons, List.length_cons, Nat.pow_succ]
      nlinarith [Nat.mul_le_mul_right (257 ^ bs.length) (show b.toNat + 1 ≤ 256 by omega)]

/-- Lists of one length have different numbers. -/
theorem plain_inj {xs ys : List UInt8} (hlen : xs.length = ys.length) (h : plain xs = plain ys) :
    xs = ys := by
  induction xs generalizing ys with
  | nil => exact (List.length_eq_zero_iff.1 hlen.symm).symm
  | cons x xs ih =>
      cases ys with
      | nil => cases hlen
      | cons y ys =>
          have hlen' : xs.length = ys.length := Nat.succ.inj hlen
          rw [plain_cons, plain_cons, hlen'] at h
          have hx := plain_lt xs
          have hy := plain_lt ys
          rw [hlen'] at hx
          have hpos : 257 ^ ys.length > 0 := by positivity
          have hdiv := congrArg (· / 257 ^ ys.length) h
          simp only [Nat.mul_comm _ (257 ^ ys.length), Nat.mul_add_div hpos, Nat.div_eq_of_lt hx,
            Nat.div_eq_of_lt hy, Nat.add_zero, Nat.add_right_cancel_iff] at hdiv
          have hhead : x = y := UInt8.toNat_inj.1 hdiv
          rw [hhead] at h
          rw [hhead, ih hlen' (Nat.add_left_cancel h)]

/-- A digest is the number modulo the width. -/
theorem foldl_digest (n : ℕ) (bs : List UInt8) (acc : ℕ) :
    bs.foldl (fun acc b => (acc * 257 + b.toNat + 1) % 256 ^ n) acc
      ≡ bs.foldl (fun acc b => acc * 257 + b.toNat + 1) acc [MOD 256 ^ n] := by
  induction bs generalizing acc with
  | nil => rfl
  | cons b bs ih =>
      rw [List.foldl_cons, List.foldl_cons]
      refine (ih _).trans ?_
      rw [foldl_plain, foldl_plain]
      exact ((Nat.mod_modEq _ _).mul_right _).add_right _

theorem digest_inj {n : ℕ} {xs ys : List UInt8} (h : digest n xs = digest n ys) :
    plain xs ≡ plain ys [MOD 256 ^ n] := by
  have hbytes := congrArg (fun d : Bytes n => Wire.ofBe d.toList) h
  simp only [digest, List.Vector.toList_mk, Wire.ofBe_toBe] at hbytes
  exact ((foldl_digest n xs 0).symm.trans hbytes).trans (foldl_digest n ys 0)

/-- Keys that sign one message alike are one key. -/
theorem sample_signaturesBind : Primitives.sample.SignaturesBind := by
  intro key sk m h
  have hdigest : digest 64 ((digest 32 sk.toList).toList ++ m) = digest 64 (key.toList ++ m) :=
    of_decide_eq_true h
  have hmod := digest_inj hdigest
  rw [plain_append, plain_append] at hmod
  have hcoprime : Nat.gcd (256 ^ 64) (257 ^ m.length) = 1 :=
    Nat.Coprime.pow 64 m.length (by decide)
  have hkeys := Nat.ModEq.cancel_right_of_coprime hcoprime (Nat.ModEq.add_right_cancel' _ hmod)
  have hsmall : ∀ k : Bytes 32, plain k.toList < 256 ^ 64 := by
    intro k
    refine lt_of_lt_of_le (plain_lt k.toList) ?_
    rw [List.Vector.toList_length]
    norm_num
  have heq := Nat.ModEq.eq_of_lt_of_lt hkeys (hsmall _) (hsmall _)
  exact (List.Vector.eq _ _ (plain_inj (by simp) heq)).symm

theorem length_pack (fs : List (List UInt8)) :
    (pack fs).length = (fs.map fun f => 2 * f.length + 1).sum := by
  induction fs with
  | nil => rfl
  | cons f fs ih =>
      have hfield : (f.flatMap fun b => [1, b]).length = 2 * f.length := by
        induction f with
        | nil => rfl
        | cons b f ihf => simp only [List.flatMap_cons, List.length_append, ihf]; simp; omega
      simp only [pack, List.length_append, List.length_cons, hfield, ih, List.map_cons,
        List.sum_cons]
      omega

theorem length_packNat {n : ℕ} (h : n < 2 ^ 64) : (packNat n).length ≤ 8 := by
  rw [packNat, List.length_map]
  exact (Nat.digits_length_le_iff (by norm_num) _).2 (lt_of_lt_of_le h (by norm_num))

theorem length_packStrings {ss : List String} (hlen : ss.length ≤ 5)
    (hshort : ∀ s ∈ ss, s.utf8ByteSize ≤ 9) : (packStrings ss).length ≤ 95 := by
  rw [packStrings, length_pack, List.map_map]
  have hsum : (ss.map ((fun f => 2 * f.length + 1) ∘ asBytes)).sum ≤ ss.length * 19 := by
    refine (List.sum_le_card_nsmul _ 19 ?_).trans (by simp)
    intro k hk
    obtain ⟨s, hs, rfl⟩ := List.mem_map.1 hk
    have := hshort s hs
    simp only [Function.comp_apply, asBytes_length]
    omega
  omega

theorem sample_compact : Primitives.sample.Compact where
  encodeB64_size bs := le_of_eq (utf8ByteSize_letters bs)
  claims_size c body hc hwrite := by
    cases hwrite
    have hiat := length_packNat hc.iat
    have hexp := length_packNat hc.exp
    have hnames := length_packStrings hc.caps hc.names
    have hiss := hc.iss
    rw [DEVICE_ID_LEN] at hiss
    simp only [claimsFields, length_pack, List.map_cons, List.map_nil, List.sum_cons, List.sum_nil,
      List.length_cons, List.length_nil, List.Vector.toList_length, asBytes_length]
    omega

end Sample

/-- Device 1 issues a token for device 2: device 1 accepts it for device 2 while it lasts, and
device 4 does not. -/
theorem token_round_trip_sample :
    ∃ token, TokenIssuer.issue (Sample.device 1) ⟨List.replicate 16 7, rfl⟩
        ((Sample.device 2).toPublic .sample) .viewOnly 0 1000 = .ok token ∧
      (∃ accepted, TokenStore.new.verify (token.encode .sample) (Sample.device 1)
        ((Sample.device 2).toPublic .sample) 999 = .ok accepted) ∧
      ¬ ∃ accepted, TokenStore.new.verify (token.encode .sample) (Sample.device 4)
        ((Sample.device 2).toPublic .sample) 999 = .ok accepted := by
  obtain ⟨token, hissue, hown, -⟩ := token_round_trip_iff Primitives.sample_lawful
    Sample.sample_signaturesBind Sample.sample_compact .new (Sample.device 1) (Sample.device 1)
    ⟨List.replicate 16 7, rfl⟩ ((Sample.device 2).toPublic .sample)
    ((Sample.device 2).toPublic .sample) .viewOnly 0 1000 999 (by decide) (by decide)
  obtain ⟨token', hissue', hother, -⟩ := token_round_trip_iff Primitives.sample_lawful
    Sample.sample_signaturesBind Sample.sample_compact .new (Sample.device 1) (Sample.device 4)
    ⟨List.replicate 16 7, rfl⟩ ((Sample.device 2).toPublic .sample)
    ((Sample.device 2).toPublic .sample) .viewOnly 0 1000 999 (by decide) (by decide)
  have hsame : token' = token := Except.ok.inj (hissue'.symm.trans hissue)
  rw [hsame] at hother
  refine ⟨token, hissue, hown.2 ⟨rfl, rfl, by decide, rfl⟩, ?_⟩
  intro haccepted
  have hkeys : (Sample.device 4).toPublic .sample ≠ (Sample.device 1).toPublic .sample := by
    decide
  exact hkeys (hother.1 haccepted).1

end Rda
