/-
**Remote candidates.**

A candidate that arrives before the remote description is to be buffered and handed over once the
description is set.  The loop decides by a flag whether a description has been set; on the
controller the flag says so from the start, when only the controller's own description has been.

Main definitions:

* `Rda.candidates`, `Rda.added` — the candidates that arrived, and those that were handed over;
* `Rda.CandidatesKept` — nothing is handed over early, and nothing is lost;
* `Rda.Turn.AppliesEarly` — the turn that breaks it.

Main results:

* `Rda.candidatesKept_iff` — **candidates are kept all along exactly when no turn of the run applies
  one early**, which on the host none does.
-/

import Rda.Negotiate

set_option relaxedAutoImplicit false
set_option autoImplicit false

namespace Rda

/-! ### What was handed over -/

/-- The candidates among the envelopes that were taken. -/
def candidates (inbox : List Envelope) : List IceCandidate :=
  inbox.filterMap fun e =>
    match e.msg with
    | .iceCandidate c => some c
    | _ => none

/-- The candidates that were handed to the peer connection. -/
def added (calls : List SessionCall) : List IceCandidate :=
  calls.filterMap fun
    | .addRemoteCandidate c => some c
    | .remoteDescription _ => none

/-- A remote description was set. -/
def IsDescribed (calls : List SessionCall) : Prop := ∃ sdp, .remoteDescription sdp ∈ calls

/-- Every candidate was handed over after a remote description was set. -/
def NoneEarly (calls : List SessionCall) : Prop :=
  ∀ before c, before ++ [.addRemoteCandidate c] <+: calls → IsDescribed before

/-- No candidate is handed over before the remote description; and once it is set, unless the loop
has failed, the candidates that were handed over are those that arrived, each once and in order. -/
def CandidatesKept (n : Negotiation) : Prop :=
  NoneEarly n.pump.calls ∧
    ((∀ e, n.result ≠ some (.error e)) → IsDescribed n.pump.calls →
      added n.pump.calls = candidates n.pump.inbox)

/-- A turn in which the controller takes a candidate before the answer. -/
structure Turn.AppliesEarly (t : Turn) (config : PumpConfig) (n : Negotiation) : Prop where
  running : n.result = none
  proceeds : t.Proceeds config n.pump
  controller : config.expectOffer = false
  candidate : ∃ e c, t.arm = .envelope (some e) ∧ e.msg = .iceCandidate c
  undescribed : ¬ IsDescribed n.pump.calls

section Lists

variable {calls : List SessionCall}

theorem isDescribed_append {more : List SessionCall} (h : IsDescribed calls) :
    IsDescribed (calls ++ more) := by
  obtain ⟨sdp, hmem⟩ := h
  exact ⟨sdp, List.mem_append_left _ hmem⟩

theorem noneEarly_concat {call : SessionCall} :
    NoneEarly (calls ++ [call]) ↔
      NoneEarly calls ∧ ∀ c, call = .addRemoteCandidate c → IsDescribed calls := by
  constructor
  · intro h
    constructor
    · intro before c hb
      exact h before c (hb.trans (List.prefix_append _ _))
    · rintro c rfl
      exact h calls c List.prefix_rfl
  · rintro ⟨h, hcall⟩ before c hb
    rcases List.prefix_concat_iff.1 hb with heq | hb
    · obtain ⟨rfl, hlast⟩ := List.append_inj' heq rfl
      exact hcall c (List.cons.inj hlast).1.symm
    · exact h before c hb

theorem noneEarly_drain (h : NoneEarly calls) (hd : IsDescribed calls)
    (pending : List IceCandidate) : NoneEarly (calls ++ pending.map .addRemoteCandidate) := by
  induction pending generalizing calls with
  | nil => simpa using h
  | cons c pending ih =>
      have hc : NoneEarly (calls ++ [.addRemoteCandidate c]) :=
        noneEarly_concat.2 ⟨h, fun _ _ => hd⟩
      simpa using ih hc (isDescribed_append hd)

theorem added_append (calls more : List SessionCall) :
    added (calls ++ more) = added calls ++ added more := List.filterMap_append

theorem added_map (pending : List IceCandidate) :
    added (pending.map .addRemoteCandidate) = pending := by
  induction pending with
  | nil => rfl
  | cons c pending ih => exact congrArg (c :: ·) ih

theorem candidates_concat (inbox : List Envelope) (e : Envelope) :
    candidates (inbox ++ [e]) = candidates inbox ++ candidates [e] := List.filterMap_append

theorem candidates_of_ne {e : Envelope} (h : ∀ c, e.msg ≠ .iceCandidate c) :
    candidates [e] = [] := by
  obtain ⟨sid, msg⟩ := e
  cases msg with
  | iceCandidate c => exact absurd rfl (h c)
  | _ => rfl

theorem candidates_of_eq {e : Envelope} {c : IceCandidate} (h : e.msg = .iceCandidate c) :
    candidates [e] = [c] := by
  obtain ⟨sid, msg⟩ := e
  cases h
  rfl

end Lists

/-! ### The invariant -/

/-- The buffer holds what arrived and was not handed over, and is empty once candidates go straight
through. -/
structure Pump.CandidateInv (config : PumpConfig) (p : Pump) : Prop where
  kept : added p.calls ++ p.pending = candidates p.inbox
  noneEarly : NoneEarly p.calls
  drained : p.remoteDescribed = true → p.pending = []
  undescribed : p.remoteDescribed = false → ¬ IsDescribed p.calls
  host : config.expectOffer = true → p.remoteDescribed = true → IsDescribed p.calls
  controller : config.expectOffer = false → p.remoteDescribed = true

section Pumps

variable {config : PumpConfig} {t : Turn} {p p' : Pump}

theorem Pump.CandidateInv.announce (h : p.CandidateInv config) :
    (p.announce config).CandidateInv config := by
  obtain ⟨announcedReady, outbox, heq⟩ := p.announce_eq config
  rw [heq]
  exact ⟨h.kept, h.noneEarly, h.drained, h.undescribed, h.host, h.controller⟩

/-- An envelope that is not a candidate changes nothing. -/
theorem Pump.CandidateInv.take (h : p.CandidateInv config) {e : Envelope}
    (he : ∀ c, e.msg ≠ .iceCandidate c) : (p.take e).CandidateInv config := by
  refine ⟨?_, h.noneEarly, h.drained, h.undescribed, h.host, h.controller⟩
  rw [Pump.take, candidates_concat, candidates_of_ne he, List.append_nil]
  exact h.kept

/-- Setting a description hands the buffer over. -/
theorem Pump.CandidateInv.described (h : p.CandidateInv config) (sdp : String) :
    (p.call (.remoteDescription sdp)).described.CandidateInv config := by
  have hdesc : IsDescribed (p.calls ++ [.remoteDescription sdp]) := ⟨sdp, by simp⟩
  refine ⟨?_, ?_, fun _ => rfl, ?_, fun _ _ => isDescribed_append hdesc, fun _ => rfl⟩
  · have hcalls : added ((p.calls ++ [.remoteDescription sdp]) ++
        p.pending.map .addRemoteCandidate) = added p.calls ++ p.pending := by
      rw [added_append, added_append, added_map]
      exact congrArg (· ++ p.pending) (List.append_nil _)
    exact (List.append_nil _).trans (hcalls.trans h.kept)
  · have hcall : NoneEarly (p.calls ++ [.remoteDescription sdp]) :=
      noneEarly_concat.2 ⟨h.noneEarly, by simp⟩
    exact noneEarly_drain hcall hdesc p.pending
  · intro hno
    exact absurd hno Bool.true_eq_false_eq_False

/-- A candidate is handed over or buffered, unless it would be handed over early. -/
theorem Pump.CandidateInv.candidate (h : p.CandidateInv config) {e : Envelope} {c : IceCandidate}
    (he : e.msg = .iceCandidate c) (hgood : p.remoteDescribed = true → IsDescribed p.calls) :
    ((p.take e).candidate c).CandidateInv config := by
  have hinbox : candidates (p.inbox ++ [e]) = candidates p.inbox ++ [c] := by
    rw [candidates_concat, candidates_of_eq he]
  unfold Pump.candidate
  split_ifs with hd
  · have hd' : p.remoteDescribed = true := hd
    refine ⟨?_, ?_, h.drained, ?_, fun _ _ => isDescribed_append (hgood hd'), h.controller⟩
    · have hkept := h.kept
      rw [h.drained hd', List.append_nil] at hkept
      have hcalls : added (p.calls ++ [.addRemoteCandidate c]) = candidates p.inbox ++ [c] := by
        rw [added_append, hkept]
        rfl
      rw [← hinbox] at hcalls
      exact (congrArg (_ ++ ·) (h.drained hd')).trans ((List.append_nil _).trans hcalls)
    · exact noneEarly_concat.2 ⟨h.noneEarly, fun _ _ => hgood hd'⟩
    · intro hno
      exact absurd (hd'.symm.trans hno) (by decide)
  · have hd' : p.remoteDescribed = false := Bool.eq_false_iff.2 hd
    refine ⟨?_, h.noneEarly, fun hyes => absurd hyes hd, h.undescribed, h.host, h.controller⟩
    have hkept : added p.calls ++ (p.pending ++ [c]) = candidates (p.inbox ++ [e]) := by
      rw [hinbox, ← h.kept, List.append_assoc]
    exact hkept

/-- An arm keeps the invariant, unless it hands a candidate over early. -/
theorem Took.candidateInv (h : Took config t p p') (hp : p.CandidateInv config)
    (hgood : ∀ e c, t.arm = .envelope (some e) → e.msg = .iceCandidate c →
      p.remoteDescribed = true → IsDescribed p.calls) : p'.CandidateInv config := by
  cases h with
  | ignoredMessage envelope harm hready hcandidate => exact hp.take hcandidate
  | offer envelope sdp answer harm hmsg hrole =>
      have hdesc := (hp.take (e := envelope) (by simp [hmsg])).described sdp
      exact ⟨hdesc.kept, hdesc.noneEarly, hdesc.drained, hdesc.undescribed, hdesc.host,
        hdesc.controller⟩
  | answer envelope sdp harm hmsg hrole =>
      exact (hp.take (e := envelope) (by simp [hmsg])).described sdp
  | candidate envelope c harm hmsg => exact hp.candidate hmsg (hgood envelope c harm hmsg)
  | peerReady envelope harm hmsg =>
      have htake := hp.take (e := envelope) (by simp [hmsg])
      exact ⟨htake.kept, htake.noneEarly, htake.drained, htake.undescribed, htake.host,
        htake.controller⟩
  | _ => exact ⟨hp.kept, hp.noneEarly, hp.drained, hp.undescribed, hp.host, hp.controller⟩

end Pumps

namespace Negotiation

variable {config : PumpConfig} {n : Negotiation} {t : Turn}

/-- The invariant, as far as it survives a failure. -/
structure CandidateInv (config : PumpConfig) (n : Negotiation) : Prop where
  pump : (∀ e, n.result ≠ some (.error e)) → n.pump.CandidateInv config
  noneEarly : NoneEarly n.pump.calls

theorem CandidateInv.candidatesKept (h : n.CandidateInv config) : CandidatesKept n := by
  refine ⟨h.noneEarly, ?_⟩
  intro hne hdesc
  have hpump := h.pump hne
  have hflag : n.pump.remoteDescribed = true := by
    by_contra hno
    exact hpump.undescribed (Bool.eq_false_iff.2 hno) hdesc
  have hkept := hpump.kept
  rwa [hpump.drained hflag, List.append_nil] at hkept

theorem CandidateInv.start (config : PumpConfig) :
    (Negotiation.start config).CandidateInv config := by
  have hnone : NoneEarly [] := fun before c h => absurd (List.prefix_nil.1 h) (by simp)
  refine ⟨fun _ => ⟨rfl, hnone, fun _ => rfl, ?_, ?_, ?_⟩, hnone⟩
  · rintro - ⟨sdp, hmem⟩
    exact absurd hmem List.not_mem_nil
  · intro hrole hflag
    simp [Negotiation.start, Pump.start, hrole] at hflag
  · intro hrole
    simp [Negotiation.start, Pump.start, hrole]

/-- A turn that applies no candidate early keeps the invariant. -/
theorem CandidateInv.step (h : n.CandidateInv config) (hgood : ¬ t.AppliesEarly config n) :
    (n.step config t).CandidateInv config := by
  cases hres : n.result with
  | some r =>
      rw [step_of_returned hres]
      exact h
  | none =>
      have hpump := h.pump (by simp [hres])
      rcases step_cases config hres t with ⟨p, hproceeds, htook, heq⟩ | ⟨e, p, hcalls, heq⟩
      · rw [heq]
        have hinv : p.CandidateInv config := by
          refine htook.candidateInv hpump.announce ?_
          intro e c harm hmsg hflag
          obtain ⟨announcedReady, outbox, hannounce⟩ := n.pump.announce_eq config
          rw [hannounce] at hflag ⊢
          -- The host's flag is truthful; the controller's is not, but then the turn is a bad one.
          cases hrole : config.expectOffer with
          | true => exact hpump.host hrole hflag
          | false =>
              by_contra hno
              exact hgood ⟨hres, hproceeds, hrole, ⟨e, c, harm, hmsg⟩, hno⟩
        exact ⟨fun _ => hinv, hinv.noneEarly⟩
      · rw [heq]
        constructor
        · intro hne
          exact absurd rfl (hne e)
        · rcases hcalls with hcalls | ⟨sdp, hcalls⟩
          · exact hcalls ▸ h.noneEarly
          · exact hcalls ▸ noneEarly_concat.2 ⟨h.noneEarly, by simp⟩

/-- A turn that applies a candidate early hands it over before any description. -/
theorem not_candidatesKept_of_appliesEarly (h : n.CandidateInv config)
    (hbad : t.AppliesEarly config n) : ¬ CandidatesKept (n.step config t) := by
  obtain ⟨e, c, harm, hmsg⟩ := hbad.candidate
  have hpump := (h.pump (by simp [hbad.running])).announce
  obtain ⟨announcedReady, outbox, hannounce⟩ := n.pump.announce_eq config
  have hselect : (select config t).run (n.pump.announce config)
      = .ok () (((n.pump.announce config).take e).candidate c) := by
    rw [select, harm]
    refine Program.run_modify_bind_eq_ok_iff.2 ?_
    rw [hmsg]
    exact Program.run_modify_eq_ok_iff.2 rfl
  rw [step_of_select hbad.running hbad.proceeds hselect]
  rintro ⟨hnone, -⟩
  have hflag : ((n.pump.announce config).take e).remoteDescribed = true :=
    hpump.controller hbad.controller
  rw [next, Pump.candidate, if_pos hflag] at hnone
  have hdesc : IsDescribed (n.pump.announce config).calls := (noneEarly_concat.1 hnone).2 c rfl
  rw [hannounce] at hdesc
  exact hbad.undescribed hdesc

end Negotiation

/-- **Candidates are kept all along exactly when no turn of the run applies one early**; on the host
they always are. -/
theorem candidatesKept_iff (config : PumpConfig) (ts : List Turn) :
    ((∀ ts', ts' <+: ts → CandidatesKept (pump config ts')) ↔
      Machine.Along (Negotiation.step config) (fun n t => ¬ t.AppliesEarly config n)
        (.start config) ts) ∧
    (config.expectOffer = true → CandidatesKept (pump config ts)) := by
  constructor
  · exact Machine.forall_prefix_iff_along (Negotiation.CandidateInv config) CandidatesKept
      (fun _ h => h.candidatesKept) (fun _ _ h hgood => h.step hgood)
      (fun _ _ h hbad => Negotiation.not_candidatesKept_of_appliesEarly h (not_not.1 hbad))
      (Negotiation.CandidateInv.start config) ts
  · intro hrole
    have hnever : ∀ n (t : Turn), ¬ t.AppliesEarly config n := fun n t h =>
      absurd (hrole.symm.trans h.controller) (by decide)
    exact (Machine.run_invariant (Negotiation.CandidateInv config)
      (fun n t h => h.step (hnever n t)) (.start config) ts).candidatesKept

/-- The controller takes a candidate of the host before the host's answer, and hands it over at
once. -/
theorem candidatesKept_fails :
    ¬ CandidatesKept (pump ⟨"sess_1", NEGOTIATION_TIMEOUT_MS, false⟩
      [Sample.turn (Sample.envelope (.iceCandidate ⟨"candidate:1", none, none, none⟩)) [],
        Sample.turn (Sample.envelope (.answer (.plain "answer"))) []]) := by
  rintro ⟨hnone, -⟩
  have hfirst : [] ++ [SessionCall.addRemoteCandidate ⟨"candidate:1", none, none, none⟩] <+:
      [.addRemoteCandidate ⟨"candidate:1", none, none, none⟩, .remoteDescription "answer"] := by
    simp
  obtain ⟨sdp, hmem⟩ := hnone [] _ hfirst
  exact absurd hmem List.not_mem_nil

end Rda
