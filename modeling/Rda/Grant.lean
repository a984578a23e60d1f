/-
**Grants and audit records.**

A session grant is what the injector asks for before it touches the machine.  It is issued once
authentication has completed and can only be narrowed afterwards.

Main definitions:

* `Rda.SessionGrant`, with `issue` and `restrict`;
* `Rda.AuditEvent` — what a session writes to the audit log.
-/

import Rda.Caps
import Rda.Identity

set_option relaxedAutoImplicit false
set_option autoImplicit false

namespace Rda

/-- How a session was authenticated. -/
inductive AuthMethod
  | sessionPin
  | unattendedToken
  deriving DecidableEq, Repr

/-- Proof that authentication completed, carrying what it authorised. -/
structure SessionGrant where
  sessionId : String
  peer : DeviceId
  caps : SessionCaps
  method : AuthMethod
  grantedAtMs : ℕ
  deriving DecidableEq

/-- Issues a grant after a verified handshake. -/
def SessionGrant.issue (sessionId : String) (peer : DeviceId) (caps : SessionCaps)
    (method : AuthMethod) (grantedAtMs : ℕ) : SessionGrant :=
  ⟨sessionId, peer, caps, method, grantedAtMs⟩

/-- Narrows the grant mid-session. -/
def SessionGrant.restrict (g : SessionGrant) (limit : SessionCaps) : SessionGrant :=
  { g with caps := g.caps.clampTo limit }

/-- A restriction never widens. -/
theorem SessionGrant.restrict_caps_le (g : SessionGrant) (limit : SessionCaps) :
    (g.restrict limit).caps ≤ g.caps :=
  inf_le_left (a := g.caps)

/-- What a session writes to the audit log. -/
inductive AuditEvent
  | sessionStarted (sessionId : String) (peer : DeviceId) (caps : SessionCaps)
      (method : AuthMethod)
  | sessionEnded (sessionId : String) (durationMs : ℕ)
  | capabilitiesChanged (sessionId : String) (caps : SessionCaps)
  | injectionRefused (sessionId : String) (reason : String)
  deriving DecidableEq

/-- Whether a record marks the end of a session. -/
def AuditEvent.isSessionEnded : AuditEvent → Bool
  | .sessionEnded _ _ => true
  | _ => false

end Rda
