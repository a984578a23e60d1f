/-
**What the code takes from its libraries.**

Hashing, signatures, the password-authenticated key exchange and the two serialisers come from
crates the repository only calls.  The model takes them as one parameter, `Rda.Primitives`, and
says in `Rda.Primitives.Lawful` the documented behaviour that an honest exchange relies on.  The
statements that hold whatever the libraries do are proved without it.

Randomness is an argument: a SPAKE2 side is started with the scalar it draws.

Main definitions:

* `Rda.Bytes` — fixed-size byte arrays, with the checked conversion from a slice;
* `Rda.HelloBody`, `Rda.PakeBody`, `Rda.ConfirmBody`, `Rda.ReadyBody`, `Rda.TokenClaims` — the
  structures that are serialised as CBOR;
* `Rda.Primitives`, `Rda.Primitives.Lawful` — the libraries, and what they promise;
* `Rda.Primitives.sample` — a small instance, with which concrete runs are evaluated.

Main results:

* `Rda.Primitives.sample_lawful` — the promises can be kept.
-/

import Mathlib.Data.Vector.Defs
import Mathlib.Data.Nat.Digits.Defs
import Rda.ControlCodec

set_option relaxedAutoImplicit false
set_option autoImplicit false

namespace Rda

open Wire (toBe)

/-! ### Byte arrays -/

/-- Fixed-size byte arrays, `[u8; n]`. -/
abbrev Bytes (n : ℕ) : Type := List.Vector UInt8 n

/-- The checked conversion from a slice. -/
def Bytes.tryFrom (n : ℕ) (bs : List UInt8) : Option (Bytes n) :=
  if h : bs.length = n then some ⟨bs, h⟩ else none

@[simp] theorem Bytes.tryFrom_toList {n : ℕ} (b : Bytes n) :
    Bytes.tryFrom n b.toList = some b := by
  simp only [Bytes.tryFrom, List.Vector.toList_length, dif_pos]
  rfl

theorem Bytes.tryFrom_eq_some {n : ℕ} {bs : List UInt8} {b : Bytes n} :
    Bytes.tryFrom n bs = some b ↔ bs = b.toList := by
  constructor
  · intro h
    unfold Bytes.tryFrom at h
    split at h
    · cases h; rfl
    · cases h
  · rintro rfl
    exact Bytes.tryFrom_toList b

/-! ### Serialised structures -/

/-- The body of `Hello` and `HelloAck`. -/
structure HelloBody where
  pubkey : List UInt8
  nonce : List UInt8
  fingerprint : List UInt8
  deriving DecidableEq, Repr

/-- The body of `AuthRequest` and `AuthResponse`; only the host's carries a confirmation. -/
structure PakeBody where
  message : List UInt8
  confirm : Option (List UInt8)
  deriving DecidableEq, Repr

/-- The body of `AuthConfirm`. -/
structure ConfirmBody where
  confirm : List UInt8
  signature : List UInt8
  deriving DecidableEq, Repr

/-- The body of `SessionReady`. -/
structure ReadyBody where
  caps : List String
  sas : List String
  deriving DecidableEq, Repr

/-- The signed body of an access token. -/
structure TokenClaims where
  v : UInt8
  sub : Bytes 32
  iss : String
  iat : ℕ
  exp : ℕ
  jti : Bytes 16
  caps : List String
  deriving DecidableEq

/-- A CBOR serialiser for one structure; errors are carried as their text. -/
structure Cbor (α : Type) where
  intoWriter : α → Except String (List UInt8)
  fromReader : List UInt8 → Except String α

/-- Writing into memory succeeds, and what was written reads back. -/
def Cbor.Lawful {α : Type} (c : Cbor α) : Prop :=
  ∀ a, ∃ bs, c.intoWriter a = .ok bs ∧ c.fromReader bs = .ok a

/-! ### The libraries -/

/-- The side of a SPAKE2 exchange. -/
inductive PakeSide
  | a | b
  deriving DecidableEq, Repr

/-- One started side of a SPAKE2 exchange: the scalar it drew, the password and the two identity
strings. -/
structure PakeState where
  side : PakeSide
  scalar : ℕ
  password : List UInt8
  idA : List UInt8
  idB : List UInt8

/-- The library functions the program calls. -/
structure Primitives where
  /-- SHA-256. -/
  sha256 : List UInt8 → Bytes 32
  /-- HKDF-SHA256: extract with a salt and key material, expand with an info string. -/
  hkdf : (salt ikm info : List UInt8) → (n : ℕ) → Bytes n
  /-- Whether 32 bytes decode to an Ed25519 verifying key. -/
  isPoint : Bytes 32 → Bool
  /-- The verifying key of a signing key. -/
  verifyingKey : Bytes 32 → { key : Bytes 32 // isPoint key = true }
  /-- An Ed25519 signature under a signing key. -/
  sign : Bytes 32 → List UInt8 → Bytes 64
  /-- `verify_strict` under a verifying key. -/
  verifyStrict : Bytes 32 → List UInt8 → Bytes 64 → Bool
  /-- The message a started SPAKE2 side sends. -/
  pakeMessage : PakeState → List UInt8
  /-- The key a started SPAKE2 side derives from the other side's message. -/
  pakeFinish : PakeState → List UInt8 → Option (List UInt8)
  /-- Base64url without padding. -/
  encodeB64 : List UInt8 → String
  decodeB64 : String → Option (List UInt8)
  helloCbor : Cbor HelloBody
  pakeCbor : Cbor PakeBody
  confirmCbor : Cbor ConfirmBody
  readyCbor : Cbor ReadyBody
  claimsCbor : Cbor TokenClaims

/-- What the libraries document and an honest exchange relies on. -/
structure Primitives.Lawful (P : Primitives) : Prop where
  /-- A signature verifies under the key it was made for. -/
  verify_sign : ∀ sk m, P.verifyStrict (P.verifyingKey sk).1 m (P.sign sk m) = true
  /-- Two sides started with the same password and identities derive one 32-byte key. -/
  pake_agree : ∀ (x y : ℕ) (password idA idB : List UInt8), ∃ key : Bytes 32,
    P.pakeFinish ⟨.a, x, password, idA, idB⟩ (P.pakeMessage ⟨.b, y, password, idA, idB⟩)
        = some key.toList ∧
      P.pakeFinish ⟨.b, y, password, idA, idB⟩ (P.pakeMessage ⟨.a, x, password, idA, idB⟩)
        = some key.toList
  decodeB64_encodeB64 : ∀ bs, P.decodeB64 (P.encodeB64 bs) = some bs
  helloCbor : P.helloCbor.Lawful
  pakeCbor : P.pakeCbor.Lawful
  confirmCbor : P.confirmCbor.Lawful
  readyCbor : P.readyCbor.Lawful
  claimsCbor : P.claimsCbor.Lawful

/-! ### A small lawful instance

The instance below stands in for the libraries where a concrete run has to be evaluated.  It is
not meant to be secure, only to behave as they do on the inputs of such a run: a signature is
accepted for its own key and message and no other, the two sides of an exchange agree when their
passwords do, and what is written reads back. -/

namespace Sample

/-- Fields of bytes as one byte string: a byte is put behind a `1`, and a `0` ends a field. -/
def pack : List (List UInt8) → List UInt8
  | [] => []
  | f :: fs => f.flatMap (fun b => [1, b]) ++ 0 :: pack fs

/-- Reads packed fields back; `acc` holds the bytes of the field being read, in reverse. -/
def unpack (acc : List UInt8) : List UInt8 → Option (List (List UInt8))
  | [] => if acc = [] then some [] else none
  | 0 :: rest => (unpack [] rest).map (acc.reverse :: ·)
  | 1 :: b :: rest => unpack (b :: acc) rest
  | _ => none

theorem unpack_field (f acc rest : List UInt8) :
    unpack acc (f.flatMap (fun b => [1, b]) ++ 0 :: rest)
      = (unpack [] rest).map ((acc.reverse ++ f) :: ·) := by
  induction f generalizing acc with
  | nil => simp [unpack]
  | cons b f ih =>
      have := ih (b :: acc)
      simpa [unpack] using this

theorem unpack_pack (fs : List (List UInt8)) : unpack [] (pack fs) = some fs := by
  induction fs with
  | nil => rfl
  | cons f fs ih => simp [pack, unpack_field, ih]

/-- The serialiser of a structure that can be taken apart into fields and put together again. -/
def cbor {α : Type} (fields : α → List (List UInt8)) (build : List (List UInt8) → Option α) :
    Cbor α where
  intoWriter a := .ok (pack (fields a))
  fromReader bs :=
    match (unpack [] bs).bind build with
    | some a => .ok a
    | none => .error "invalid data"

theorem cbor_lawful {α : Type} {fields : α → List (List UInt8)}
    {build : List (List UInt8) → Option α} (h : ∀ a, build (fields a) = some a) :
    (cbor fields build).Lawful := by
  intro a
  refine ⟨_, rfl, ?_⟩
  simp only [cbor, unpack_pack, Option.bind_some, h]

def helloFields (b : HelloBody) : List (List UInt8) := [b.pubkey, b.nonce, b.fingerprint]

def helloBuild : List (List UInt8) → Option HelloBody
  | [pubkey, nonce, fingerprint] => some ⟨pubkey, nonce, fingerprint⟩
  | _ => none

def pakeFields (b : PakeBody) : List (List UInt8) := b.message :: b.confirm.toList

def pakeBuild : List (List UInt8) → Option PakeBody
  | [message] => some ⟨message, none⟩
  | [message, confirm] => some ⟨message, some confirm⟩
  | _ => none

def confirmFields (b : ConfirmBody) : List (List UInt8) := [b.confirm, b.signature]

def confirmBuild : List (List UInt8) → Option ConfirmBody
  | [confirm, signature] => some ⟨confirm, signature⟩
  | _ => none

/-- A list of strings as one field. -/
def packStrings (ss : List String) : List UInt8 := pack (ss.map asBytes)

def unpackStrings (bs : List UInt8) : Option (List String) :=
  (unpack [] bs).bind fun fs => fs.mapM fromUtf8

theorem unpackStrings_packStrings (ss : List String) :
    unpackStrings (packStrings ss) = some ss := by
  simp only [unpackStrings, packStrings, unpack_pack, Option.bind_some]
  induction ss with
  | nil => rfl
  | cons s ss ih => simp [List.mapM_cons, fromUtf8_asBytes, ih]

def readyFields (b : ReadyBody) : List (List UInt8) := [packStrings b.caps, packStrings b.sas]

def readyBuild : List (List UInt8) → Option ReadyBody
  | [caps, sas] => do
      let caps ← unpackStrings caps
      let sas ← unpackStrings sas
      return ⟨caps, sas⟩
  | _ => none

/-- A number as its base 256 digits. -/
def packNat (n : ℕ) : List UInt8 := (Nat.digits 256 n).map UInt8.ofNat

def unpackNat (bs : List UInt8) : ℕ := Nat.ofDigits 256 (bs.map UInt8.toNat)

theorem unpackNat_packNat (n : ℕ) : unpackNat (packNat n) = n := by
  have hmap : ((Nat.digits 256 n).map UInt8.ofNat).map UInt8.toNat = Nat.digits 256 n := by
    rw [List.map_map]
    refine (List.map_congr_left fun d hd => ?_).trans (List.map_id _)
    have hlt : d < 256 := Nat.digits_lt_base (by norm_num) hd
    simp [Nat.mod_eq_of_lt hlt]
  rw [unpackNat, packNat, hmap, Nat.ofDigits_digits]

def claimsFields (c : TokenClaims) : List (List UInt8) :=
  [[c.v], c.sub.toList, asBytes c.iss, packNat c.iat, packNat c.exp, c.jti.toList,
    packStrings c.caps]

def claimsBuild : List (List UInt8) → Option TokenClaims
  | [[v], sub, iss, iat, exp, jti, caps] => do
      let sub ← Bytes.tryFrom 32 sub
      let iss ← fromUtf8 iss
      let jti ← Bytes.tryFrom 16 jti
      let caps ← unpackStrings caps
      return ⟨v, sub, iss, unpackNat iat, unpackNat exp, jti, caps⟩
  | _ => none

/-- A digest of `n` bytes. -/
def digest (n : ℕ) (bs : List UInt8) : Bytes n :=
  ⟨toBe n (bs.foldl (fun acc b => (acc * 257 + b.toNat + 1) % 256 ^ n) 0), Wire.toBe_length ..⟩

/-- The byte that marks a side's message. -/
def PakeState.mark : PakeSide → UInt8
  | .a => 0x41
  | .b => 0x42

def pakeMessage (s : PakeState) : List UInt8 := PakeState.mark s.side :: toBe 32 s.scalar

/-- The key hashes the password, the identities and both messages, `a`'s first. -/
def pakeFinish (s : PakeState) (peer : List UInt8) : Option (List UInt8) :=
  let key (ma mb : List UInt8) : List UInt8 :=
    (digest 32 (s.password ++ s.idA ++ s.idB ++ ma ++ mb)).toList
  match s.side, peer with
  | .a, 0x42 :: _ => if peer.length = 33 then some (key (pakeMessage s) peer) else none
  | .b, 0x41 :: _ => if peer.length = 33 then some (key peer (pakeMessage s)) else none
  | _, _ => none

/-- Two letters from `A` to `P` for a byte. -/
def letters (b : UInt8) : List Char :=
  [Char.ofNat (65 + b.toNat / 16), Char.ofNat (65 + b.toNat % 16)]

def unletters : List Char → Option (List UInt8)
  | [] => some []
  | c :: d :: rest =>
      if 65 ≤ c.toNat ∧ c.toNat < 81 ∧ 65 ≤ d.toNat ∧ d.toNat < 81 then
        (unletters rest).map (UInt8.ofNat ((c.toNat - 65) * 16 + (d.toNat - 65)) :: ·)
      else none
  | [_] => none

theorem toNat_ofNat_of_lt {n : ℕ} (h : n < 0xd800) : (Char.ofNat n).toNat = n := by
  rw [Char.ofNat, dif_pos (Or.inl h)]
  rfl

theorem unletters_letters (bs : List UInt8) : unletters (bs.flatMap letters) = some bs := by
  induction bs with
  | nil => rfl
  | cons b bs ih =>
      have hb : b.toNat < 256 := b.toNat_lt
      have hc : (Char.ofNat (65 + b.toNat / 16)).toNat = 65 + b.toNat / 16 :=
        toNat_ofNat_of_lt (by omega)
      have hd : (Char.ofNat (65 + b.toNat % 16)).toNat = 65 + b.toNat % 16 :=
        toNat_ofNat_of_lt (by omega)
      have hval : (65 + b.toNat / 16 - 65) * 16 + (65 + b.toNat % 16 - 65) = b.toNat := by omega
      simp only [List.flatMap_cons, letters, List.cons_append, List.nil_append, unletters, hc, hd,
        hval, UInt8.ofNat_toNat, ih, Option.map_some]
      rw [if_pos (by omega)]

theorem length_letters (b : UInt8) :
    ((letters b).flatMap String.utf8EncodeChar).length = 2 := by
  have single : ∀ n < 16, (String.utf8EncodeChar (Char.ofNat (65 + n))).length = 1 := by decide
  have hb : b.toNat < 256 := b.toNat_lt
  simp [letters, single (b.toNat / 16) (by omega), single (b.toNat % 16) (by omega)]

theorem utf8ByteSize_letters (bs : List UInt8) :
    (String.ofList (bs.flatMap letters)).utf8ByteSize = 2 * bs.length := by
  rw [← asBytes_length, asBytes_ofList]
  induction bs with
  | nil => rfl
  | cons b bs ih =>
      rw [List.flatMap_cons, List.flatMap_append, List.length_append, length_letters, ih,
        List.length_cons]
      omega

end Sample

/-- The instance. -/
def Primitives.sample : Primitives where
  sha256 := Sample.digest 32
  hkdf salt ikm info n := Sample.digest n (salt ++ ikm ++ info)
  isPoint _ := true
  verifyingKey sk := ⟨Sample.digest 32 sk.toList, rfl⟩
  sign sk m := Sample.digest 64 ((Sample.digest 32 sk.toList).toList ++ m)
  verifyStrict key m signature := signature = Sample.digest 64 (key.toList ++ m)
  pakeMessage := Sample.pakeMessage
  pakeFinish := Sample.pakeFinish
  encodeB64 bs := String.ofList (bs.flatMap Sample.letters)
  decodeB64 s := Sample.unletters s.toList
  helloCbor := Sample.cbor Sample.helloFields Sample.helloBuild
  pakeCbor := Sample.cbor Sample.pakeFields Sample.pakeBuild
  confirmCbor := Sample.cbor Sample.confirmFields Sample.confirmBuild
  readyCbor := Sample.cbor Sample.readyFields Sample.readyBuild
  claimsCbor := Sample.cbor Sample.claimsFields Sample.claimsBuild

theorem Primitives.sample_lawful : Primitives.sample.Lawful where
  verify_sign sk m := decide_eq_true rfl
  pake_agree x y password idA idB := by
    refine ⟨Sample.digest 32 (password ++ idA ++ idB ++
      Sample.pakeMessage ⟨.a, x, password, idA, idB⟩ ++
      Sample.pakeMessage ⟨.b, y, password, idA, idB⟩), ?_, ?_⟩
    · rfl
    · rfl
  decodeB64_encodeB64 bs := by
    simp only [Primitives.sample, String.toList_ofList, Sample.unletters_letters]
  helloCbor := Sample.cbor_lawful fun _ => rfl
  pakeCbor := Sample.cbor_lawful fun b => by
    obtain ⟨message, confirm⟩ := b
    cases confirm with
    | none => rfl
    | some c => rfl
  confirmCbor := Sample.cbor_lawful fun _ => rfl
  readyCbor := Sample.cbor_lawful fun b => by
    simp [Sample.readyFields, Sample.readyBuild, Sample.unpackStrings_packStrings]
  claimsCbor := Sample.cbor_lawful fun c => by
    simp [Sample.claimsFields, Sample.claimsBuild, Sample.unpackStrings_packStrings,
      Sample.unpackNat_packNat, fromUtf8_asBytes]

end Rda
