/-
**Device identities and the address book.**

A device id is derived from the device's Ed25519 public key, so whoever knows the id can check
that the key that answers belongs to it.  The address book remembers the first key seen for an id.

The source caches the id inside an identity; every constructor derives it from the key, so the
model keeps the key and computes the id.

Main definitions:

* `Rda.DeviceId` — twelve characters of the Crockford alphabet;
* `Rda.deviceIdFromPubkey` — the id of a key;
* `Rda.Identity`, `Rda.PublicIdentity` — the two halves of an identity;
* `Rda.AddressBook` — pinned keys, with `check` and `checkAndPin`.

Main results:

* `Rda.AddressBook.checkAndPin_trust` — pinning answers what checking would have answered;
* `Rda.AddressBook.check_keyChanged_iff` — a key has changed when another one is pinned.
-/

import Mathlib.Data.List.GetD
import Mathlib.Logic.Function.Basic
import Rda.Primitives

set_option relaxedAutoImplicit false
set_option autoImplicit false

namespace Rda

open Wire (ofBe)

/-! ### Device ids -/

/-- Domain separator for device id derivation. -/
def DEVID_DOMAIN : List UInt8 := asBytes "RDA-v1-devid"

/-- Number of characters in a device id. -/
def DEVICE_ID_LEN : ℕ := 12

/-- Crockford's base32 alphabet. -/
def crockfordSymbols : List Char := "0123456789ABCDEFGHJKMNPQRSTVWXYZ".toList

/-- A device identifier, stored canonically without grouping hyphens. -/
structure DeviceId where
  chars : List Char
  length_chars : chars.length = DEVICE_ID_LEN
  mem_symbols : ∀ c ∈ chars, c ∈ crockfordSymbols
  deriving DecidableEq

/-- The canonical form. -/
def DeviceId.asStr (d : DeviceId) : String := String.ofList d.chars

/-- The `v`-th symbol of the alphabet. -/
def crockfordSymbol (v : ℕ) : Char := crockfordSymbols.getD (v % 32) '0'

theorem crockfordSymbol_mem (v : ℕ) : crockfordSymbol v ∈ crockfordSymbols := by
  have hlt : v % 32 < crockfordSymbols.length := Nat.mod_lt v (by decide)
  rw [crockfordSymbol, List.getD_eq_getElem _ _ hlt]
  exact List.getElem_mem hlt

/-- A device id is as many bytes as it has characters. -/
theorem DeviceId.length_asBytes_asStr (d : DeviceId) :
    (asBytes d.asStr).length = DEVICE_ID_LEN := by
  have hone : ∀ c ∈ crockfordSymbols, (String.utf8EncodeChar c).length = 1 := by
    have hall : crockfordSymbols.all (fun c => (String.utf8EncodeChar c).length == 1) = true := by
      decide
    simpa using List.all_eq_true.1 hall
  have hlen : ∀ cs : List Char, (∀ c ∈ cs, c ∈ crockfordSymbols) →
      (cs.flatMap String.utf8EncodeChar).length = cs.length := by
    intro cs
    induction cs with
    | nil => intro _; rfl
    | cons c cs ih =>
        intro hcs
        rw [List.flatMap_cons, List.length_append, hone c (hcs c List.mem_cons_self),
          ih fun c' hc' => hcs c' (List.mem_cons_of_mem c hc'), List.length_cons]
        omega
  rw [asStr, asBytes_ofList, hlen d.chars d.mem_symbols, d.length_chars]

/-- Base32 without padding: five bits a symbol, most significant first, the last symbol filled
with zero bits. -/
def crockfordEncode (bs : List UInt8) : List Char :=
  let n := (8 * bs.length + 4) / 5
  let value := ofBe bs * 2 ^ (5 * n - 8 * bs.length)
  (List.range n).map fun i => crockfordSymbol (value / 32 ^ (n - 1 - i))

variable (P : Primitives)

/-- The device id of an Ed25519 public key. -/
def deviceIdFromPubkey (pubkey : Bytes 32) : DeviceId where
  chars := (crockfordEncode
    ((P.sha256 (DEVID_DOMAIN ++ [0x00] ++ pubkey.toList)).toList.take 8)).take DEVICE_ID_LEN
  length_chars := by
    simp [crockfordEncode, DEVICE_ID_LEN]
  mem_symbols := by
    intro c hc
    obtain ⟨i, -, rfl⟩ := List.mem_map.1 (List.mem_of_mem_take hc)
    exact crockfordSymbol_mem _

/-! ### Identities -/

/-- Failures involving identity keys. -/
inductive IdentityError
  | malformedKey
  | badSignature
  | idMismatch
  deriving DecidableEq, Repr

/-- The public half of a device identity: what a peer learns and pins. -/
@[ext]
structure PublicIdentity where
  key : Bytes 32
  isPoint : P.isPoint key = true
  deriving DecidableEq

/-- A device's long-term signing identity. -/
structure Identity where
  signingKey : Bytes 32

variable {P}

namespace PublicIdentity

/-- Reconstructs a public identity from wire bytes. -/
def fromBytes (P : Primitives) (bytes : Bytes 32) : Except IdentityError (PublicIdentity P) :=
  if h : P.isPoint bytes = true then .ok ⟨bytes, h⟩ else .error .malformedKey

/-- Reconstructs a public identity from a base64url string. -/
def fromB64 (P : Primitives) (s : String) : Except IdentityError (PublicIdentity P) :=
  match (P.decodeB64 s).bind (Bytes.tryFrom 32) with
  | some bytes => fromBytes P bytes
  | none => .error .malformedKey

/-- The raw public key. -/
def toBytes (i : PublicIdentity P) : Bytes 32 := i.key

/-- The key as a base64url string. -/
def toB64 (i : PublicIdentity P) : String := P.encodeB64 i.key.toList

/-- The device id this key derives. -/
def deviceId (i : PublicIdentity P) : DeviceId := deviceIdFromPubkey P i.key

/-- Verifies a signature made by the corresponding private key. -/
def verify (i : PublicIdentity P) (message : List UInt8) (signature : Bytes 64) :
    Except IdentityError Unit :=
  if P.verifyStrict i.key message signature then .ok () else .error .badSignature

/-- Confirms this key belongs to the claimed device id. -/
def checkClaims (i : PublicIdentity P) (claimed : DeviceId) : Except IdentityError Unit :=
  if i.deviceId = claimed then .ok () else .error .idMismatch

theorem fromBytes_eq_ok {bytes : Bytes 32} {i : PublicIdentity P} :
    fromBytes P bytes = .ok i ↔ i.key = bytes := by
  obtain ⟨key, hkey⟩ := i
  unfold fromBytes
  constructor
  · intro h
    split at h
    · cases h; rfl
    · cases h
  · rintro rfl
    rw [dif_pos hkey]

theorem fromB64_toB64 (hP : P.Lawful) (i : PublicIdentity P) : fromB64 P i.toB64 = .ok i := by
  rw [fromB64, toB64, hP.decodeB64_encodeB64, Option.bind_some, Bytes.tryFrom_toList]
  exact fromBytes_eq_ok.2 rfl

theorem verify_eq_ok {i : PublicIdentity P} {m : List UInt8} {signature : Bytes 64} :
    i.verify m signature = .ok () ↔ P.verifyStrict i.key m signature = true := by
  unfold verify
  split <;> simp_all

theorem checkClaims_eq_ok {i : PublicIdentity P} {claimed : DeviceId} :
    i.checkClaims claimed = .ok () ↔ i.deviceId = claimed := by
  unfold checkClaims
  split <;> simp_all

end PublicIdentity

namespace Identity

/-- The public half. -/
def toPublic (P : Primitives) (i : Identity) : PublicIdentity P :=
  ⟨(P.verifyingKey i.signingKey).1, (P.verifyingKey i.signingKey).2⟩

/-- This device's identifier. -/
def deviceId (P : Primitives) (i : Identity) : DeviceId :=
  deviceIdFromPubkey P (P.verifyingKey i.signingKey).1

/-- Signs a message with this identity. -/
def sign (P : Primitives) (i : Identity) (message : List UInt8) : Bytes 64 :=
  P.sign i.signingKey message

end Identity

/-! ### The address book -/

/-- The outcome of looking a peer up in the address book. -/
inductive PeerTrust
  | firstContact
  | known
  | keyChanged
  deriving DecidableEq, Repr

/-- The keys pinned so far, by device id. -/
structure AddressBook where
  entries : DeviceId → Option (Bytes 32)

namespace AddressBook

/-- An empty address book. -/
def new : AddressBook := ⟨fun _ => none⟩

/-- Checks without pinning. -/
def check (book : AddressBook) (peer : PublicIdentity P) : PeerTrust :=
  match book.entries peer.deviceId with
  | none => .firstContact
  | some pinned => if pinned = peer.toBytes then .known else .keyChanged

/-- Checks a peer's key, pinning it on first contact. -/
def checkAndPin (book : AddressBook) (peer : PublicIdentity P) : PeerTrust × AddressBook :=
  match book.entries peer.deviceId with
  | none =>
      (.firstContact, ⟨Function.update book.entries peer.deviceId (some peer.toBytes)⟩)
  | some pinned => (if pinned = peer.toBytes then .known else .keyChanged, book)

/-- Pinning answers what checking would have answered. -/
theorem checkAndPin_trust (book : AddressBook) (peer : PublicIdentity P) :
    (book.checkAndPin peer).1 = book.check peer := by
  unfold checkAndPin check
  cases book.entries peer.deviceId with
  | none => rfl
  | some pinned => rfl

theorem check_keyChanged_iff {book : AddressBook} {peer : PublicIdentity P} :
    book.check peer = .keyChanged ↔
      ∃ pinned, book.entries peer.deviceId = some pinned ∧ pinned ≠ peer.key := by
  unfold check PublicIdentity.toBytes
  cases book.entries peer.deviceId with
  | none => simp
  | some pinned => simp

@[simp] theorem check_new (peer : PublicIdentity P) : new.check peer = .firstContact := rfl

end AddressBook

/-- A device with a constant signing key; the concrete runs below are between a few of them. -/
def Sample.device (n : UInt8) : Identity := ⟨⟨List.replicate 32 n, List.length_replicate⟩⟩

end Rda
