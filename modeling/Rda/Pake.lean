/-
**PIN authentication.**

A session PIN is six decimal digits, shown by the host and typed at the controller.  Both ends
turn it into a SPAKE2 password together with the session id, exchange one message each, and prove
to each other with a confirmation tag that they derived the same key.  The host's half counts
attempts and refuses a PIN that was used, ran out of attempts or aged out.

Main definitions:

* `Rda.SessionPin` — a PIN with its age and attempts; that it is six digits is part of the type;
* `Rda.PinAuth`, `Rda.PinVerifier` — the two halves of the exchange;
* `Rda.confirm`, `Rda.confirmMatches` — the key confirmation tags.

Main results:

* `Rda.exists_formatPin` — every six-digit string is a PIN that can be drawn;
* `Rda.PinVerifier.respond_eq_ok_iff` — when the host's half answers, and with what;
* `Rda.PinVerifier.respond_agrees` — with the right PIN both halves derive one key.
-/

import Rda.Binding

set_option relaxedAutoImplicit false
set_option autoImplicit false

namespace Rda

/-! ### Session PINs -/

/-- Domain separator of the PAKE password. -/
def PIN_DOMAIN : List UInt8 := asBytes "RDA-v1-pin"

/-- Identity string of the controller's side. -/
def ID_CONTROLLER : List UInt8 := asBytes "RDA-v1-controller"

/-- Identity string of the host's side. -/
def ID_HOST : List UInt8 := asBytes "RDA-v1-host"

/-- Number of digits in a session PIN. -/
def PIN_DIGITS : ℕ := 6

/-- How many attempts a PIN survives. -/
def MAX_PIN_ATTEMPTS : ℕ := 3

/-- How long a PIN remains valid, in milliseconds. -/
def PIN_TTL_MS : ℕ := 5 * 60 * 1000

/-- Errors from the PAKE exchange. -/
inductive PakeError
  | failed
  | malformedPin
  | expired
  | attemptsExceeded
  deriving DecidableEq, Repr

def isAsciiDigit (b : UInt8) : Bool := 48 ≤ b.toNat && b.toNat ≤ 57

/-- Exactly six decimal digits. -/
def isPin (digits : String) : Bool :=
  (asBytes digits).length == PIN_DIGITS && (asBytes digits).all isAsciiDigit

/-- A decimal digit as a character. -/
def digitChar (n : ℕ) : Char := Char.ofNat (48 + n % 10)

/-- A number below a million, padded with zeros to six digits. -/
def formatPin (value : Fin 1000000) : String :=
  String.ofList [digitChar (value / 100000), digitChar (value / 10000), digitChar (value / 1000),
    digitChar (value / 100), digitChar (value / 10), digitChar value]

theorem utf8EncodeChar_digitChar (n : ℕ) :
    String.utf8EncodeChar (digitChar n) = [UInt8.ofNat (48 + n % 10)] := by
  have digit : ∀ d < 10, String.utf8EncodeChar (Char.ofNat (48 + d)) = [UInt8.ofNat (48 + d)] := by
    decide
  exact digit (n % 10) (Nat.mod_lt n (by decide))

theorem asBytes_formatPin (value : Fin 1000000) :
    asBytes (formatPin value) =
      [UInt8.ofNat (48 + value / 100000 % 10), UInt8.ofNat (48 + value / 10000 % 10),
        UInt8.ofNat (48 + value / 1000 % 10), UInt8.ofNat (48 + value / 100 % 10),
        UInt8.ofNat (48 + value / 10 % 10), UInt8.ofNat (48 + value % 10)] := by
  rw [formatPin, asBytes_ofList]
  simp only [List.flatMap_cons, List.flatMap_nil, utf8EncodeChar_digitChar, List.cons_append,
    List.nil_append]

theorem toNat_ofNat_digit (n : ℕ) : (UInt8.ofNat (48 + n % 10)).toNat = 48 + n % 10 := by
  rw [UInt8.toNat_ofNat']
  omega

theorem isPin_formatPin (value : Fin 1000000) : isPin (formatPin value) = true := by
  have digit : ∀ n : ℕ, isAsciiDigit (UInt8.ofNat (48 + n % 10)) = true := by
    intro n
    simp only [isAsciiDigit, toNat_ofNat_digit, Bool.and_eq_true, decide_eq_true_eq]
    omega
  simp only [isPin, asBytes_formatPin, List.all_cons, List.all_nil, digit, List.length_cons,
    List.length_nil, PIN_DIGITS]
  decide

theorem ofNat_digit {b : UInt8} {n : ℕ} (h : 48 + n % 10 = b.toNat) :
    UInt8.ofNat (48 + n % 10) = b := by
  rw [h, UInt8.ofNat_toNat]

/-- Different draws are different PINs. -/
theorem formatPin_injective : Function.Injective formatPin := by
  intro value value' h
  have hbytes := congrArg (fun s => (asBytes s).map UInt8.toNat) h
  simp only [asBytes_formatPin, List.map_cons, List.map_nil, toNat_ofNat_digit,
    List.cons.injEq, and_true] at hbytes
  apply Fin.ext
  omega

/-- Every six-digit string is a PIN that can be drawn. -/
theorem exists_formatPin {digits : String} (h : isPin digits = true) :
    ∃ value, formatPin value = digits := by
  simp only [isPin, PIN_DIGITS, Bool.and_eq_true, beq_iff_eq] at h
  obtain ⟨hlen, hall⟩ := h
  match hbs : asBytes digits, hlen, hall with
  | [a, b, c, d, e, f], _, hall =>
      simp only [List.all_cons, List.all_nil, isAsciiDigit, Bool.and_eq_true, decide_eq_true_eq,
        Bool.and_true] at hall
      obtain ⟨ha, hb, hc, hd, he, hf⟩ := hall
      refine ⟨⟨(a.toNat - 48) * 100000 + (b.toNat - 48) * 10000 + (c.toNat - 48) * 1000 +
        (d.toNat - 48) * 100 + (e.toNat - 48) * 10 + (f.toNat - 48), by omega⟩, ?_⟩
      apply asBytes_injective
      rw [asBytes_formatPin, hbs, ofNat_digit (b := a), ofNat_digit (b := b), ofNat_digit (b := c),
        ofNat_digit (b := d), ofNat_digit (b := e), ofNat_digit (b := f)]
      all_goals
        simp only
        omega

/-- A session PIN held by the host. -/
structure SessionPin where
  digits : String
  issuedMs : ℕ
  attempts : ℕ
  consumed : Bool
  isPin_digits : isPin digits = true

namespace SessionPin

/-- A fresh PIN with the digits drawn. -/
def generate (value : Fin 1000000) (nowMs : ℕ) : SessionPin :=
  ⟨formatPin value, nowMs, 0, false, isPin_formatPin value⟩

/-- Wraps a specific PIN. -/
def fromDigits (digits : String) (nowMs : ℕ) : Except PakeError SessionPin :=
  if h : isPin digits = true then .ok ⟨digits, nowMs, 0, false, h⟩ else .error .malformedPin

/-- Whether the PIN can still be used. -/
def isUsable (pin : SessionPin) (nowMs : ℕ) : Bool :=
  !pin.consumed && pin.attempts < MAX_PIN_ATTEMPTS && nowMs - pin.issuedMs ≤ PIN_TTL_MS

end SessionPin

/-! ### The exchange -/

variable {P : Primitives}

/-- The PAKE password of a PIN in a session. -/
def pakePassword (P : Primitives) (sessionId pin : String) : List UInt8 :=
  (P.sha256 (PIN_DOMAIN ++ [0x00] ++ asBytes sessionId ++ asBytes pin)).toList

/-- A SPAKE2 side of this protocol. -/
def pakeStart (P : Primitives) (side : PakeSide) (scalar : ℕ) (sessionId pin : String) :
    PakeState :=
  ⟨side, scalar, pakePassword P sessionId pin, ID_CONTROLLER, ID_HOST⟩

/-- The key of a started side, which must be 32 bytes long. -/
def pakeKey (P : Primitives) (state : PakeState) (peerMessage : List UInt8) :
    Except PakeError (Bytes 32) :=
  match (P.pakeFinish state peerMessage).bind (Bytes.tryFrom 32) with
  | some key => .ok key
  | none => .error .failed

/-- The controller's half of the exchange. -/
structure PinAuth where
  state : PakeState

namespace PinAuth

/-- Starts the controller's side. -/
def start (P : Primitives) (scalar : ℕ) (sessionId pin : String) : Except PakeError PinAuth :=
  if isPin pin then .ok ⟨pakeStart P .a scalar sessionId pin⟩ else .error .malformedPin

/-- The SPAKE2 message to send to the host. -/
def message (P : Primitives) (auth : PinAuth) : List UInt8 := P.pakeMessage auth.state

/-- Completes the exchange, yielding the shared key. -/
def finish (P : Primitives) (auth : PinAuth) (peerMessage : List UInt8) :
    Except PakeError (Bytes 32) :=
  pakeKey P auth.state peerMessage

end PinAuth

/-- The host's half: holds the PIN, enforces the attempt cap. -/
structure PinVerifier where
  sessionId : String
  pin : SessionPin

namespace PinVerifier

/-- Responds to a controller's SPAKE2 message.  The attempt is counted before any cryptography. -/
def respond (P : Primitives) (v : PinVerifier) (scalar : ℕ) (peerMessage : List UInt8)
    (nowMs : ℕ) : Except PakeError (List UInt8 × Bytes 32) × PinVerifier :=
  if !v.pin.isUsable nowMs then
    (.error (if v.pin.attempts ≥ MAX_PIN_ATTEMPTS then .attemptsExceeded else .expired), v)
  else
    let v' := { v with pin := { v.pin with attempts := v.pin.attempts + 1 } }
    let state := pakeStart P .b scalar v.sessionId v.pin.digits
    match pakeKey P state peerMessage with
    | .error e => (.error e, v')
    | .ok key => (.ok (P.pakeMessage state, key), v')

/-- Marks the PIN as spent after a confirmed exchange. -/
def consume (v : PinVerifier) : PinVerifier := { v with pin := { v.pin with consumed := true } }

end PinVerifier

/-- Derives a key confirmation tag. -/
def confirm (P : Primitives) (key : Bytes 32) (role sessionId : String) : Bytes 32 :=
  P.sha256 (asBytes "RDA-v1-pin-confirm" ++ [0x00] ++ key.toList ++ asBytes role ++
    asBytes sessionId)

/-- Compares two confirmation tags. -/
def confirmMatches (a b : Bytes 32) : Bool := a == b

theorem confirmMatches_iff {a b : Bytes 32} : confirmMatches a b = true ↔ a = b := by
  simp [confirmMatches]

/-! ### When the two halves succeed -/

theorem pakeKey_eq_ok {state : PakeState} {peerMessage : List UInt8} {key : Bytes 32} :
    pakeKey P state peerMessage = .ok key ↔ P.pakeFinish state peerMessage = some key.toList := by
  unfold pakeKey
  cases hf : P.pakeFinish state peerMessage with
  | none => simp
  | some bs =>
      cases hb : Bytes.tryFrom 32 bs with
      | none =>
          have hne : bs ≠ key.toList := by
            intro h
            rw [h, Bytes.tryFrom_toList] at hb
            cases hb
          simp [hb, hne]
      | some b =>
          rw [Bytes.tryFrom_eq_some] at hb
          subst hb
          simp only [Option.bind_some, Bytes.tryFrom_toList, Except.ok.injEq, Option.some.injEq]
          exact ⟨fun h => h ▸ rfl, List.Vector.eq _ _⟩

/-- The host's half answers exactly when the PIN is usable and the exchange yields a key. -/
theorem PinVerifier.respond_eq_ok_iff {v : PinVerifier} {scalar nowMs : ℕ}
    {peerMessage ours : List UInt8} {key : Bytes 32} :
    (v.respond P scalar peerMessage nowMs).1 = .ok (ours, key) ↔
      v.pin.isUsable nowMs = true ∧
        pakeKey P (pakeStart P .b scalar v.sessionId v.pin.digits) peerMessage = .ok key ∧
        ours = P.pakeMessage (pakeStart P .b scalar v.sessionId v.pin.digits) := by
  unfold respond
  cases hu : v.pin.isUsable nowMs with
  | false => simp
  | true =>
      cases hk : pakeKey P (pakeStart P .b scalar v.sessionId v.pin.digits) peerMessage with
      | error e => simp [hk]
      | ok k => simp [hk, eq_comm, and_comm]

/-- With the right PIN both halves derive one key. -/
theorem PinVerifier.respond_agrees (hP : P.Lawful) (x y : ℕ) (sessionId pin : String) :
    ∃ key, pakeKey P (pakeStart P .a x sessionId pin)
          (P.pakeMessage (pakeStart P .b y sessionId pin)) = .ok key ∧
        pakeKey P (pakeStart P .b y sessionId pin)
          (P.pakeMessage (pakeStart P .a x sessionId pin)) = .ok key := by
  obtain ⟨key, ha, hb⟩ := hP.pake_agree x y (pakePassword P sessionId pin) ID_CONTROLLER ID_HOST
  exact ⟨key, pakeKey_eq_ok.2 ha, pakeKey_eq_ok.2 hb⟩

/-- The digits `482913`, as they are drawn. -/
def Sample.pinValue : Fin 1000000 := ⟨482913, by decide⟩

end Rda
