/-
**The host's control loop.**

The viewer reports what it received; the host folds the reports into its picture of the link, lets
the estimator set the rate, and before each frame has the ladder and the rate controller turn the
picture into settings for the encoder.  The reports are the peer's word and nothing else, so that
what a peer can do to the rate is a property of every run; and the loop has to leave the bottom of
the ladder again when the link does.

Main definitions:

* `Rda.HostLink` — the loop's state; `Rda.LinkEvent` — a report, a frame, a recovery request;
* `Rda.HostLink.applyQos`, `Rda.HostLink.applyTelemetry` — what the loop does with them.

Main results:

* `Rda.HostLink.reports_move_within_bounds` — **what reports can do to the rate**;
* `Rda.HostLink.heavy_loss_reaches_stills` — **a lossy link comes to the bottom of the ladder**;
* `Rda.HostLink.clean_link_recovers` — **and a clean one to the top, from wherever it was**.
-/

import Rda.LinkPolicy

set_option relaxedAutoImplicit false
set_option autoImplicit false

namespace Rda

open FloatingPoint

/-- Something that reaches the loop, and when. -/
inductive LinkEvent
  | report (report : QosReport) (nowMs : ℕ)
  | frame (nowMs : ℕ)
  | recovery (receiverLtr : Option UInt8) (nowMs : ℕ)

namespace LinkEvent

/-- When it reaches the loop. -/
def nowMs : LinkEvent → ℕ
  | report _ nowMs => nowMs
  | frame nowMs => nowMs
  | recovery _ nowMs => nowMs

/-- The reports among some events, with the times at which they come. -/
def reports (events : List LinkEvent) : List (ℕ × QosReport) :=
  events.filterMap fun
    | report r nowMs => some (nowMs, r)
    | _ => none

@[simp] theorem reports_nil : reports [] = [] := rfl

@[simp] theorem reports_report (r : QosReport) (nowMs : ℕ) (events : List LinkEvent) :
    reports (report r nowMs :: events) = (nowMs, r) :: reports events := rfl

@[simp] theorem reports_frame (nowMs : ℕ) (events : List LinkEvent) :
    reports (frame nowMs :: events) = reports events := rfl

@[simp] theorem reports_recovery (ltr : Option UInt8) (nowMs : ℕ) (events : List LinkEvent) :
    reports (recovery ltr nowMs :: events) = reports events := rfl

theorem reports_append (es fs : List LinkEvent) : reports (es ++ fs) = reports es ++ reports fs :=
  List.filterMap_append

/-- The clock does not go back. -/
def Clock (events : List LinkEvent) : Prop := (events.map nowMs).Pairwise (· ≤ ·)

instance (events : List LinkEvent) : Decidable (Clock events) :=
  inferInstanceAs (Decidable (List.Pairwise _ _))

theorem ordered_reports {events : List LinkEvent} (h : Clock events) :
    SlidingWindow.Ordered (reports events) := by
  have htimes : (reports events).map Prod.fst |>.Sublist (events.map nowMs) := by
    induction events with
    | nil => exact List.Sublist.refl _
    | cons e events ih =>
        have hrest := ih (List.Pairwise.of_cons h)
        cases e with
        | report r t => exact hrest.cons_cons t
        | frame t => exact hrest.cons t
        | recovery ltr t => exact hrest.cons t
  exact List.pairwise_map.1 (h.sublist htimes)

end LinkEvent

/-- The parts of the host's loop that adapt to the link. -/
structure HostLink where
  telemetry : Telemetry
  estimator : BitrateEstimator
  ladder : LadderController
  rate : RateController

namespace HostLink

open LinkEvent

/-- The loop when it starts, with the rate that the options ask for. -/
def start (bitrateBps : ℕ) : HostLink where
  telemetry := { bweBps := (BitrateEstimator.new bitrateBps).estimateBps }
  estimator := .new bitrateBps
  ladder := .new
  rate := .new

/-- A reported loss, in thousandths. -/
def lostOf (report : QosReport) : ℕ := min report.lossPermille.toNat 1000

/-- Folds one viewer report into the sender's view of the link. -/
def applyQos (h : HostLink) (report : QosReport) (nowMs : ℕ) : HostLink :=
  let lost := lostOf report
  let telemetry := { h.telemetry with
    loss := h.telemetry.loss.sample (1000 - lost) lost nowMs
    jitter := h.telemetry.jitter.sample report.jitterMs.toNat nowMs
    frames := ⟨report.framesDecoded.toNat, report.framesDropped.toNat⟩
    playoutDelayMs := report.playoutDelayMs.toNat }
  let updated := (h.estimator.observeDelay report.playoutDelayMs.toNat).update
    telemetry.loss.fraction nowMs
  { h with telemetry := { telemetry with bweBps := updated.1 }, estimator := updated.2 }

/-- Folds the current view of the link into the settings of the encoder. -/
def applyTelemetry (h : HostLink) (nowMs : ℕ) : HostLink :=
  let view := h.telemetry.view h.ladder nowMs
  { h with ladder := view.2, rate := (h.rate.update view.1 nowMs).2 }

/-- One event. -/
def step (h : HostLink) : LinkEvent → HostLink
  | report r nowMs => h.applyQos r nowMs
  | frame nowMs => h.applyTelemetry nowMs
  | recovery ltr nowMs => { h with rate := (h.rate.onRecoveryRequest ltr nowMs).2 }

theorem step_frame (h : HostLink) (nowMs : ℕ) : h.step (.frame nowMs) = h.applyTelemetry nowMs :=
  rfl

/-- The rung that is recommended. -/
def target (h : HostLink) : Rung := selectRung h.telemetry.bweBps h.telemetry.loss.fraction

end HostLink

/-! ### The loss of a window of reports -/

namespace LossEstimator

/-- Every entry is a ratio, in thousandths. -/
def Ratios (e : LossEstimator) : Prop := ∀ x ∈ e.events, x.2.1 + x.2.2 = 1000

theorem sum_received_add_sum_lost {events : List (ℕ × ℕ × ℕ)}
    (h : ∀ x ∈ events, x.2.1 + x.2.2 = 1000) :
    (events.map fun x => x.2.1).sum + (events.map fun x => x.2.2).sum = 1000 * events.length := by
  induction events with
  | nil => rfl
  | cons x events ih =>
      have hx := h x (by simp)
      have hrest := ih fun y hy => h y (by simp [hy])
      simp only [List.map_cons, List.sum_cons, List.length_cons]
      omega

theorem permille_toNat {e : LossEstimator} (h : e.Ratios) :
    e.permille.toNat = (e.events.map fun x => x.2.2).sum / e.events.length := by
  have hsum := sum_received_add_sum_lost h
  rcases Nat.eq_zero_or_pos e.events.length with hzero | hpos
  · rw [hzero, Nat.div_zero]
    simp only [permille, hsum, hzero, mul_zero, if_true]
    rfl
  · have hle : (e.events.map fun x => x.2.2).sum / e.events.length ≤ 1000 := by
      rw [Nat.div_le_iff_le_mul_add_pred hpos]
      have := Nat.mul_comm 1000 e.events.length
      omega
    have hdiv : (e.events.map fun x => x.2.2).sum * 1000 / (1000 * e.events.length) =
        (e.events.map fun x => x.2.2).sum / e.events.length := by
      rw [Nat.mul_comm _ 1000, Nat.mul_div_mul_left _ _ (by norm_num)]
    simp only [permille, hsum, hdiv, if_neg (by omega : ¬ 1000 * e.events.length = 0)]
    rw [UInt16.toNat_ofNat', Nat.mod_eq_of_lt (by omega)]
    omega

theorem permille_le_thousand (e : LossEstimator) : e.permille.toNat ≤ 1000 := by
  simp only [permille]
  split_ifs
  · exact Nat.zero_le _
  · rw [UInt16.toNat_ofNat', Nat.mod_eq_of_lt (by omega)]
    omega

theorem sum_lost_bounds {events : List (ℕ × ℕ × ℕ)} {lo hi : ℕ}
    (h : ∀ x ∈ events, lo ≤ x.2.2 ∧ x.2.2 ≤ hi) :
    lo * events.length ≤ (events.map fun x => x.2.2).sum ∧
      (events.map fun x => x.2.2).sum ≤ hi * events.length := by
  induction events with
  | nil => simp
  | cons x events ih =>
      have hx := h x (by simp)
      obtain ⟨hlow, hup⟩ := ih fun y hy => h y (by simp [hy])
      simp only [List.map_cons, List.sum_cons, List.length_cons, Nat.mul_add, Nat.mul_one]
      omega

/-- The loss of a window is between the losses of its reports. -/
theorem permille_mem {e : LossEstimator} (hratios : e.Ratios) (hne : e.events ≠ []) {lo hi : ℕ}
    (h : ∀ x ∈ e.events, lo ≤ x.2.2 ∧ x.2.2 ≤ hi) :
    lo ≤ e.permille.toNat ∧ e.permille.toNat ≤ hi := by
  have hpos := List.length_pos_of_ne_nil hne
  obtain ⟨hlow, hup⟩ := sum_lost_bounds h
  rw [permille_toNat hratios]
  refine ⟨(Nat.le_div_iff_mul_le hpos).2 hlow, ?_⟩
  rw [Nat.div_le_iff_le_mul_add_pred hpos]
  have := Nat.mul_comm hi e.events.length
  omega

end LossEstimator

namespace HostLink

open LinkEvent BitrateEstimator

/-- What the loss estimator takes from the reports. -/
def lossSamples (events : List LinkEvent) : List (ℕ × ℕ × ℕ) :=
  (reports events).map fun r => (r.1, 1000 - lostOf r.2, lostOf r.2)

theorem run_loss (h : HostLink) (events : List LinkEvent) :
    (Machine.run step h events).telemetry.loss.events =
      Machine.run (SlidingWindow.push LOSS_WINDOW_MS) h.telemetry.loss.events
        (lossSamples events) := by
  induction events generalizing h with
  | nil => rfl
  | cons e events ih =>
      rw [Machine.run_cons, ih]
      cases e with
      | report r t => rfl
      | frame t => rfl
      | recovery ltr t => rfl

/-! ### What holds in every state -/

/-- The estimate is within its bounds and is what the telemetry says; the losses are ratios; and the
ladder waits as long as it does in the beginning. -/
structure Inv (h : HostLink) : Prop where
  bounds : BitrateEstimator.MIN_BITRATE_BPS ≤ h.estimator.estimateBps ∧
    h.estimator.estimateBps ≤ BitrateEstimator.MAX_BITRATE_BPS
  bwe : h.telemetry.bweBps = h.estimator.estimateBps
  ratios : h.telemetry.loss.Ratios
  delays : h.ladder.delays = (2000, 10000)

/-- Nothing is remembered from later than this. -/
structure Before (nowMs : ℕ) (h : HostLink) : Prop where
  pending : ∀ p ∈ h.ladder.pending, p.2 ≤ nowMs
  updated : ∀ u ∈ h.estimator.lastUpdateMs, u ≤ nowMs

theorem inv_start (bitrateBps : ℕ) : Inv (start bitrateBps) where
  bounds := clampBps_bounds bitrateBps
  bwe := rfl
  ratios := by simp [start, LossEstimator.Ratios]
  delays := rfl

theorem before_start (bitrateBps nowMs : ℕ) : Before nowMs (start bitrateBps) where
  pending := by simp [start, LadderController.new]
  updated := by simp [start, BitrateEstimator.new]

/-- What a report does to the estimate: nothing if the last update is too recent, and else what the
rules say. -/
theorem estimate_applyQos {h : HostLink} (hinv : Inv h) (r : QosReport) (t : ℕ) :
    (h.estimator.limited t = true ∧ (h.applyQos r t).estimator =
      h.estimator.observeDelay r.playoutDelayMs.toNat) ∨
    (h.estimator.limited t = false ∧
      (h.applyQos r t).estimator.lastUpdateMs = some t ∧
      Follows (h.estimator.observeDelay r.playoutDelayMs.toNat).delayPressure
        (h.applyQos r t).telemetry.loss.permille.toNat h.estimator.estimateBps
        (h.applyQos r t).estimator.estimateBps) := by
  have hlimited : (h.estimator.observeDelay r.playoutDelayMs.toNat).limited t =
      h.estimator.limited t := rfl
  rcases (h.estimator.observeDelay r.playoutDelayMs.toNat).update_cases
      (h.applyQos r t).telemetry.loss.fraction t with ⟨hlim, hupdate⟩ | ⟨hlim, hupdate⟩
  · exact .inl ⟨hlimited ▸ hlim, congrArg Prod.snd hupdate⟩
  · refine .inr ⟨hlimited ▸ hlim, ?_⟩
    have hnext := nextBps_follows (e := h.estimator.observeDelay r.playoutDelayMs.toNat)
      hinv.bounds.2 (h.applyQos r t).telemetry.loss.permille_le_thousand
    have hestimator := congrArg Prod.snd hupdate
    exact ⟨congrArg lastUpdateMs hestimator,
      (congrArg estimateBps hestimator).symm ▸ hnext⟩

theorem playout_applyQos (h : HostLink) (r : QosReport) (t : ℕ) :
    (h.applyQos r t).estimator.lastPlayoutMs = some r.playoutDelayMs.toNat := by
  rcases (h.estimator.observeDelay r.playoutDelayMs.toNat).update_cases
      (h.applyQos r t).telemetry.loss.fraction t with ⟨-, hupdate⟩ | ⟨-, hupdate⟩
  · exact congrArg (fun u => u.2.lastPlayoutMs) hupdate
  · exact congrArg (fun u => u.2.lastPlayoutMs) hupdate

theorem inv_step {h : HostLink} (hinv : Inv h) (e : LinkEvent) : Inv (h.step e) := by
  cases e with
  | report r t =>
      refine ⟨?_, ?_, ?_, hinv.delays⟩
      · rcases estimate_applyQos hinv r t with ⟨-, hsame⟩ | ⟨-, -, hfollows⟩
        · rw [step, hsame]
          exact hinv.bounds
        · exact hfollows.bounds
      · rcases (h.estimator.observeDelay r.playoutDelayMs.toNat).update_cases
            (h.applyQos r t).telemetry.loss.fraction t with ⟨-, hupdate⟩ | ⟨-, hupdate⟩
        · exact (congrArg Prod.fst hupdate).trans (congrArg (fun u => u.2.estimateBps) hupdate).symm
        · exact (congrArg Prod.fst hupdate).trans (congrArg (fun u => u.2.estimateBps) hupdate).symm
      · intro x hx
        have hmem := (List.dropWhile_sublist _).subset hx
        rcases List.mem_append.1 hmem with hold | hnew
        · exact hinv.ratios x hold
        · rw [List.mem_singleton.1 hnew]
          have : lostOf r ≤ 1000 := Nat.min_le_right _ _
          dsimp only
          omega
  | frame t =>
      exact ⟨hinv.bounds, hinv.bwe, hinv.ratios,
        (LadderController.delays_step h.ladder (h.target, t)).trans hinv.delays⟩
  | recovery ltr t => exact ⟨hinv.bounds, hinv.bwe, hinv.ratios, hinv.delays⟩

theorem before_step {h : HostLink} {n : ℕ} (hinv : Inv h) (hbefore : Before n h) (e : LinkEvent)
    (hn : n ≤ e.nowMs) : Before e.nowMs (h.step e) := by
  have hpending : ∀ p ∈ h.ladder.pending, p.2 ≤ e.nowMs :=
    fun p hp => (hbefore.pending p hp).trans hn
  have hupdated : ∀ u ∈ h.estimator.lastUpdateMs, u ≤ e.nowMs :=
    fun u hu => (hbefore.updated u hu).trans hn
  cases e with
  | report r t =>
      refine ⟨hpending, ?_⟩
      rcases estimate_applyQos hinv r t with ⟨-, hsame⟩ | ⟨-, hlast, -⟩
      · rw [step, hsame]
        exact hupdated
      · rw [step, hlast]
        rintro u ⟨rfl⟩
        exact le_rfl
  | frame t =>
      refine ⟨?_, hupdated⟩
      intro p hp
      have hp' : (h.ladder.step (h.target, t)).pending = some p := hp
      rcases h.ladder.step_cases (h.target, t) with ⟨-, hstep⟩ | ⟨-, _, -, -, hstep⟩ |
        ⟨-, -, hstep⟩ | ⟨-, _, -, -, hstep⟩
      · rw [hstep] at hp'
        cases hp'
      · rw [hstep] at hp'
        exact hpending p hp'
      · rw [hstep] at hp'
        cases hp'
        exact le_rfl
      · rw [hstep] at hp'
        cases hp'
  | recovery ltr t => exact ⟨hpending, hupdated⟩

theorem inv_run {h : HostLink} (hinv : Inv h) (events : List LinkEvent) :
    Inv (Machine.run step h events) :=
  Machine.run_invariant Inv (fun _ e hinv => inv_step hinv e) hinv events

theorem before_run {h : HostLink} {n m : ℕ} (hinv : Inv h) (hbefore : Before n h)
    {events : List LinkEvent} (hclock : Clock events) (hn : ∀ e ∈ events, n ≤ e.nowMs)
    (hm : ∀ e ∈ events, e.nowMs ≤ m) (hnm : n ≤ m) : Before m (Machine.run step h events) := by
  induction events generalizing h n with
  | nil =>
      exact ⟨fun p hp => (hbefore.pending p hp).trans hnm,
        fun u hu => (hbefore.updated u hu).trans hnm⟩
  | cons e events ih =>
      obtain ⟨hfirst, hrest⟩ := List.pairwise_cons.1 hclock
      refine ih (inv_step hinv e) (before_step hinv hbefore e (hn e (by simp))) hrest ?_ ?_
        (hm e (by simp))
      · intro f hf
        exact hfirst f.nowMs (List.mem_map_of_mem hf)
      · intro f hf
        exact hm f (by simp [hf])

/-! ### What reports can do -/

/-- The event changes the estimate. -/
def Changes (h : HostLink) (e : LinkEvent) : Prop :=
  (h.step e).telemetry.bweBps ≠ h.telemetry.bweBps

/-- Only a report changes the estimate, if the last update is not too recent, and then as the rules
say. -/
theorem report_of_changes {h : HostLink} (hinv : Inv h) {e : LinkEvent} (hchanges : h.Changes e) :
    ∃ r t, e = .report r t ∧ h.estimator.limited t = false ∧
      (h.step e).estimator.lastUpdateMs = some t ∧
      Follows (h.estimator.observeDelay r.playoutDelayMs.toNat).delayPressure
        (h.step e).telemetry.loss.permille.toNat h.telemetry.bweBps
        (h.step e).telemetry.bweBps := by
  unfold Changes at hchanges
  rw [(inv_step hinv e).bwe, hinv.bwe] at hchanges ⊢
  cases e with
  | report r t =>
      rcases estimate_applyQos hinv r t with ⟨-, hsame⟩ | ⟨hlimited, hlast, hfollows⟩
      · rw [step, hsame] at hchanges
        exact absurd rfl hchanges
      · exact ⟨r, t, rfl, hlimited, hlast, hfollows⟩
  | frame t => exact absurd rfl hchanges
  | recovery ltr t => exact absurd rfl hchanges

/-- The time of the last update only grows. -/
theorem lastUpdate_run {h : HostLink} (hinv : Inv h) {n : ℕ} (events : List LinkEvent)
    (hlast : ∃ u, h.estimator.lastUpdateMs = some u ∧ n ≤ u) :
    ∃ u, (Machine.run step h events).estimator.lastUpdateMs = some u ∧ n ≤ u := by
  induction events generalizing h with
  | nil => exact hlast
  | cons e events ih =>
      refine ih (inv_step hinv e) ?_
      cases e with
      | report r t =>
          rcases estimate_applyQos hinv r t with ⟨-, hsame⟩ | ⟨hlimited, hnow, -⟩
          · rw [step, hsame]
            exact hlast
          · obtain ⟨u, hu, hle⟩ := hlast
            have := (limited_eq_false_iff hu t).1 hlimited
            exact ⟨t, hnow, by omega⟩
      | frame t => exact hlast
      | recovery ltr t => exact hlast

/-- **What a peer's reports can do.**  In every run, whatever is reported and whenever: the estimate
stays within its bounds; one event raises it by a twentieth at most and lowers it to its half at
most, and what changes it is a report that it follows by the rules; and two events that change it
are a quarter of a second apart. -/
theorem reports_move_within_bounds (bitrateBps : ℕ) (events : List LinkEvent) :
    (∀ past e, past ++ [e] <+: events →
      let h := Machine.run step (start bitrateBps) past
      let next := (h.step e).telemetry.bweBps
      BitrateEstimator.MIN_BITRATE_BPS ≤ next ∧ next ≤ BitrateEstimator.MAX_BITRATE_BPS ∧
        h.telemetry.bweBps / 2 ≤ next + 1 ∧ next ≤ 21 * h.telemetry.bweBps / 20 ∧
        (h.Changes e → ∃ r t, e = .report r t ∧
          Follows (h.estimator.observeDelay r.playoutDelayMs.toNat).delayPressure
            (h.step e).telemetry.loss.permille.toNat h.telemetry.bweBps next)) ∧
    ∀ past e between f, past ++ e :: (between ++ [f]) <+: events →
      (Machine.run step (start bitrateBps) past).Changes e →
      (Machine.run step (start bitrateBps) (past ++ e :: between)).Changes f →
        e.nowMs + BITRATE_UPDATE_INTERVAL_MS ≤ f.nowMs := by
  refine ⟨?_, ?_⟩
  · intro past e _ h next
    have hinv : Inv h := inv_run (inv_start bitrateBps) past
    have hnext := inv_step hinv e
    have hbwe : next = (h.step e).estimator.estimateBps := hnext.bwe
    refine ⟨hbwe ▸ hnext.bounds.1, hbwe ▸ hnext.bounds.2, ?_⟩
    by_cases hchanges : h.Changes e
    · obtain ⟨r, t, he, -, -, hfollows⟩ := report_of_changes hinv hchanges
      refine ⟨hfollows.halves (LossEstimator.permille_le_thousand _) ?_, hfollows.le ?_,
        fun _ => ⟨r, t, he, hfollows⟩⟩
      · exact hinv.bwe ▸ hinv.bounds.2
      · exact hinv.bwe ▸ hinv.bounds.1
    · have hsame : next = h.telemetry.bweBps := not_not.1 hchanges
      rw [hsame]
      exact ⟨by omega, by omega, fun h' => absurd h' hchanges⟩
  · intro past e between f _ he hf
    have hinv := inv_run (inv_start bitrateBps) past
    obtain ⟨r, t, rfl, -, hlast, -⟩ := report_of_changes hinv he
    rw [Machine.run_append, Machine.run_cons] at hf
    obtain ⟨u, hu, hle⟩ := lastUpdate_run (inv_step hinv _) between ⟨t, hlast, le_rfl⟩
    obtain ⟨r', t', rfl, hlimited, -⟩ :=
      report_of_changes (inv_run (inv_step hinv _) between) hf
    have := (limited_eq_false_iff hu t').1 hlimited
    simp only [LinkEvent.nowMs]
    omega

/-! ### The window after two seconds -/

/-- The window is not empty, and all losses in it are between these. -/
def WindowIn (lo hi : ℕ) (h : HostLink) : Prop :=
  h.telemetry.loss.events ≠ [] ∧ ∀ x ∈ h.telemetry.loss.events, lo ≤ x.2.2 ∧ x.2.2 ≤ hi

/-- All losses that are reported are between these. -/
def ReportsIn (lo hi : ℕ) (events : List LinkEvent) : Prop :=
  ∀ r ∈ reports events, lo ≤ lostOf r.2 ∧ lostOf r.2 ≤ hi

theorem reportsIn_append {lo hi : ℕ} {es fs : List LinkEvent} :
    ReportsIn lo hi (es ++ fs) ↔ ReportsIn lo hi es ∧ ReportsIn lo hi fs := by
  rw [ReportsIn, reports_append, List.forall_mem_append]
  rfl

theorem windowIn_step {h : HostLink} {lo hi : ℕ} (hw : WindowIn lo hi h) {e : LinkEvent}
    (he : ReportsIn lo hi [e]) : WindowIn lo hi (h.step e) := by
  cases e with
  | report r t =>
      refine ⟨List.ne_nil_of_mem (SlidingWindow.mem_push LOSS_WINDOW_MS h.telemetry.loss.events
        (t, 1000 - lostOf r, lostOf r)), ?_⟩
      intro x hx
      rcases List.mem_append.1 ((List.dropWhile_sublist _).subset hx) with hold | hnew
      · exact hw.2 x hold
      · rw [List.mem_singleton.1 hnew]
        exact he (t, r) (by simp)
  | frame t => exact hw
  | recovery ltr t => exact hw

/-- Two seconds after the last other report, only these are in the window. -/
theorem windowIn_of_flushed {bitrateBps lo hi : ℕ} {before during : List LinkEvent} {r : QosReport}
    {t : ℕ} (hclock : Clock (before ++ during ++ [report r t]))
    (hin : ReportsIn lo hi (during ++ [report r t]))
    (hflushed : ∀ e ∈ before, e.nowMs + LOSS_WINDOW_MS < t) :
    WindowIn lo hi (Machine.run step (start bitrateBps) (before ++ during ++ [report r t])) := by
  have hsamples : lossSamples (before ++ during ++ [report r t]) =
      lossSamples (before ++ during) ++ [(t, 1000 - lostOf r, lostOf r)] := by
    simp [lossSamples, reports_append]
  have hordered : SlidingWindow.Ordered (lossSamples (before ++ during ++ [report r t])) :=
    List.pairwise_map.2 (ordered_reports hclock)
  have hwindow := run_loss (start bitrateBps) (before ++ during ++ [report r t])
  rw [hsamples] at hwindow hordered
  have hrecent : (Machine.run step (start bitrateBps)
      (before ++ during ++ [report r t])).telemetry.loss.events = SlidingWindow.recent
        LOSS_WINDOW_MS t (lossSamples (before ++ during) ++ [(t, 1000 - lostOf r, lostOf r)]) :=
    hwindow.trans (SlidingWindow.run_eq_filter LOSS_WINDOW_MS hordered)
  rw [WindowIn, hrecent]
  refine ⟨List.ne_nil_of_mem (a := (t, 1000 - lostOf r, lostOf r)) ?_, ?_⟩
  · simp [SlidingWindow.recent]
  · intro x hx
    obtain ⟨hmem, hage⟩ := List.mem_filter.1 hx
    rw [← hsamples, lossSamples] at hmem
    obtain ⟨y, hy, rfl⟩ := List.mem_map.1 hmem
    rw [List.append_assoc, reports_append] at hy
    rcases List.mem_append.1 hy with hold | hnew
    · -- a report from before is too old
      exfalso
      obtain ⟨e, he, heq⟩ := List.mem_filterMap.1 hold
      have htime := hflushed e he
      rw [decide_eq_true_eq] at hage
      cases e with
      | report r' t' =>
          cases heq
          simp only [LinkEvent.nowMs] at htime
          omega
      | frame t' => cases heq
      | recovery ltr t' => cases heq
    · exact hin y hnew

/-! ### The ladder at a steady recommendation -/

/-- The rung is in force, or has been pending since this time at the latest. -/
def Settling (rung : Rung) (since : ℕ) (c : LadderController) : Prop :=
  c.current = rung ∨ ∃ s ≤ since, c.pending = some (rung, s)

theorem settling_first {c : LadderController} {t : ℕ} (hbefore : ∀ p ∈ c.pending, p.2 ≤ t)
    (rung : Rung) : Settling rung t (c.step (rung, t)) := by
  rcases c.step_cases (rung, t) with ⟨hcurrent, hstep⟩ | ⟨-, s, hpending, -, hstep⟩ |
    ⟨-, -, hstep⟩ | ⟨-, _, -, -, hstep⟩
  · exact .inl (by rw [hstep]; exact hcurrent.symm)
  · exact .inr ⟨s, hbefore _ hpending, by rw [hstep]; exact hpending⟩
  · exact .inr ⟨t, le_rfl, by rw [hstep]⟩
  · exact .inl (by rw [hstep])

theorem settling_step {c : LadderController} {rung : Rung} {since : ℕ}
    (hc : Settling rung since c) (t : ℕ) : Settling rung since (c.step (rung, t)) := by
  rcases c.step_cases (rung, t) with ⟨hcurrent, hstep⟩ | ⟨-, _, -, -, hstep⟩ |
    ⟨hne, hother, -⟩ | ⟨-, _, -, -, hstep⟩
  · exact .inl (by rw [hstep]; exact hcurrent.symm)
  · rw [hstep]
    exact hc
  · rcases hc with hcurrent | ⟨s, -, hpending⟩
    · exact absurd hcurrent.symm hne
    · exact absurd hpending (hother s)
  · exact .inl (by rw [hstep])

theorem settled {c : LadderController} {rung : Rung} {since t : ℕ} (hc : Settling rung since c)
    (hlong : c.current ≠ rung → since + c.requiredMs rung ≤ t) :
    (c.step (rung, t)).current = rung := by
  rcases c.step_cases (rung, t) with ⟨hcurrent, hstep⟩ | ⟨hne, s, hpending, hshort, -⟩ |
    ⟨hne, hother, -⟩ | ⟨-, _, -, -, hstep⟩
  · rw [hstep]
    exact hcurrent.symm
  · rcases hc with hcurrent | ⟨s', hs', hpending'⟩
    · exact absurd hcurrent.symm hne
    · rw [hpending] at hpending'
      cases hpending'
      have := hlong (Ne.symm hne)
      dsimp only at hshort
      omega
  · rcases hc with hcurrent | ⟨s, -, hpending⟩
    · exact absurd hcurrent.symm hne
    · exact absurd hpending (hother s)
  · rw [hstep]

section Steady

variable {rung : Rung} {Steady : HostLink → Prop} {good : LinkEvent → Prop}

/-- As long as every frame recommends the rung, it stays in force or pending. -/
theorem settling_run (htarget : ∀ h, Steady h → h.target = rung)
    (hkeeps : ∀ h e, Steady h → good e → Steady (h.step e)) {h : HostLink} (hh : Steady h)
    {events : List LinkEvent} (hgood : ∀ e ∈ events, good e) {since : ℕ}
    (hsettling : Settling rung since h.ladder) :
    Steady (Machine.run step h events) ∧
      Settling rung since (Machine.run step h events).ladder := by
  induction events generalizing h with
  | nil => exact ⟨hh, hsettling⟩
  | cons e events ih =>
      refine ih (hkeeps h e hh (hgood e (by simp))) (fun f hf => hgood f (by simp [hf])) ?_
      cases e with
      | report r t => exact hsettling
      | frame t =>
          have hstep := settling_step hsettling t
          rw [← htarget h hh] at hstep ⊢
          exact hstep
      | recovery ltr t => exact hsettling

/-- The settings for the encoder are those of the rung in force. -/
theorem current_applyTelemetry {h : HostLink} {t : ℕ}
    (hrung : (h.ladder.step (h.target, t)).current = rung) :
    ∃ bitrateBps heavyLoss,
      (h.applyTelemetry t).rate.current = directiveFor LADDER[rung] bitrateBps heavyLoss := by
  refine ⟨(h.applyTelemetry t).rate.current.bitrateBps, h.telemetry.loss.fraction > 0.10, ?_⟩
  have hupdate : (h.ladder.update h.target t).1 = LADDER[rung] := by
    subst hrung
    exact LadderController.update_fst h.ladder h.target t
  rw [← hupdate]
  rfl

/-- The frame at which the wait begins, some events during which one rung is recommended, and the
frame at which the wait is over. -/
theorem current_of_steady (htarget : ∀ h, Steady h → h.target = rung)
    (hkeeps : ∀ h e, Steady h → good e → Steady (h.step e)) {h : HostLink} (hh : Steady h)
    {a b : ℕ} {still : List LinkEvent} (hframe : ∀ t, good (.frame t))
    (hgood : ∀ e ∈ still, good e) (hbefore : Before a h) {wait : ℕ}
    (hwait : ∀ h, Steady h → h.ladder.current ≠ rung → h.ladder.requiredMs rung ≤ wait)
    (hlong : a + wait ≤ b) :
    ∃ bitrateBps heavyLoss,
      (Machine.run step h (.frame a :: (still ++ [frame b]))).rate.current =
        directiveFor LADDER[rung] bitrateBps heavyLoss := by
  have hladder : (h.step (.frame a)).ladder = h.ladder.step (rung, a) := by
    rw [← htarget h hh]
    rfl
  have hfirst : Settling rung a (h.step (.frame a)).ladder := by
    rw [hladder]
    exact settling_first hbefore.pending rung
  obtain ⟨hsteady, hsettling⟩ :=
    settling_run htarget hkeeps (hkeeps h _ hh (hframe a)) hgood hfirst
  rw [Machine.run_cons, Machine.run_append, Machine.run_cons, Machine.run_nil, step_frame]
  refine current_applyTelemetry ?_
  rw [htarget _ hsteady]
  refine settled hsettling fun hne => ?_
  have := hwait _ hsteady hne
  omega

end Steady

/-! ### Down the ladder -/

/-- What is recommended, by the table. -/
theorem target_eq (h : HostLink) :
    h.target = rungFor h.telemetry.bweBps h.telemetry.loss.permille.toNat := by
  rw [target, LossEstimator.fraction_eq, selectRung_eq]

/-- How long the ladder waits: two seconds on the way down, ten at most. -/
theorem requiredMs_eq {h : HostLink} (hinv : Inv h) (rung : Rung) :
    h.ladder.requiredMs rung = if h.ladder.current < rung then 2000 else 10000 := by
  obtain ⟨hdemote, hpromote⟩ := Prod.mk.inj hinv.delays
  rw [LadderController.requiredMs, hdemote, hpromote]

/-- The loss is above a quarter. -/
structure Failing (h : HostLink) : Prop where
  inv : Inv h
  window : WindowIn 251 1000 h

theorem Failing.target {h : HostLink} (hh : Failing h) : h.target = 7 := by
  have hpermille := (LossEstimator.permille_mem hh.inv.ratios hh.window.1 hh.window.2).1
  rw [target_eq, rungFor, if_pos (by omega)]

theorem Failing.step {h : HostLink} {e : LinkEvent} (hh : Failing h)
    (he : ReportsIn 251 1000 [e]) : Failing (h.step e) :=
  ⟨inv_step hh.inv e, windowIn_step hh.window he⟩

theorem reportsIn_of_mem {lo hi : ℕ} {events : List LinkEvent} (h : ReportsIn lo hi events)
    {e : LinkEvent} (he : e ∈ events) : ReportsIn lo hi [e] := by
  intro r hr
  refine h r ?_
  obtain ⟨f, hf, heq⟩ := List.mem_filterMap.1 hr
  rw [List.mem_singleton.1 hf] at heq
  exact List.mem_filterMap.2 ⟨e, he, heq⟩

theorem reportsIn_frame (lo hi t : ℕ) : ReportsIn lo hi [frame t] := by
  intro r hr
  simp at hr

/-- **Down the ladder.**  From whatever state the loop has come to: if from some time on every
report says that more than a quarter was lost, then two seconds later the loss of the window is
above a quarter, and two seconds after the first frame that sees it the encoder is told to send
stills. -/
theorem heavy_loss_reaches_stills {bitrateBps a b t : ℕ}
    {before during later still : List LinkEvent} {r : QosReport}
    (hclock : Clock (before ++ during ++ [report r t] ++ later ++ [frame a]))
    (hloss : ∀ s ∈ reports (during ++ [report r t] ++ later ++ still),
      250 < s.2.lossPermille.toNat)
    (hflushed : ∀ e ∈ before, e.nowMs + LOSS_WINDOW_MS < t) (hlong : a + 2000 ≤ b) :
    (Machine.run step (start bitrateBps) (before ++ during ++ [report r t] ++ later ++
      .frame a :: (still ++ [frame b]))).rate.current.stillsOnly = true := by
  have hin : ReportsIn 251 1000 (during ++ [report r t] ++ later ++ still) := by
    intro s hs
    have := hloss s hs
    unfold lostOf
    omega
  obtain ⟨hin, hstill⟩ := reportsIn_append.1 hin
  obtain ⟨hduring, hlater⟩ := reportsIn_append.1 hin
  have hearlier := (List.pairwise_append.1 (List.pairwise_map.1 hclock)).1
  have hfirst : Clock (before ++ during ++ [report r t]) :=
    List.pairwise_map.2 (List.pairwise_append.1 hearlier).1
  have hinv := inv_run (inv_start bitrateBps) (before ++ during ++ [report r t])
  have hfailing : Failing (Machine.run step (start bitrateBps)
      (before ++ during ++ [report r t] ++ later)) := by
    rw [Machine.run_append]
    refine Machine.run_invariant_mem Failing (fun h e he hh => hh.step (reportsIn_of_mem hlater he))
      ⟨hinv, windowIn_of_flushed hfirst hduring hflushed⟩
  have hbefore : Before a (Machine.run step (start bitrateBps)
      (before ++ during ++ [report r t] ++ later)) := by
    obtain ⟨hordered, -, hlast⟩ := List.pairwise_append.1 (List.pairwise_map.1 hclock)
    exact before_run (inv_start bitrateBps) (before_start bitrateBps 0)
      (List.pairwise_map.2 hordered) (fun e _ => Nat.zero_le _)
      (fun e he => hlast e he (.frame a) (by simp)) (Nat.zero_le a)
  have hkeeps : ∀ h e, Failing h → ReportsIn 251 1000 [e] → Failing (HostLink.step h e) :=
    fun h e hh he => hh.step he
  have hwait : ∀ h, Failing h → h.ladder.current ≠ 7 → h.ladder.requiredMs 7 ≤ 2000 := by
    intro h hh hne
    have hlt : h.ladder.current < 7 := lt_of_le_of_ne (Fin.le_last _) hne
    rw [requiredMs_eq hh.inv, if_pos hlt]
  obtain ⟨_, _, hcurrent⟩ := current_of_steady (fun h hh => hh.target) hkeeps hfailing
    (reportsIn_frame 251 1000) (fun e he => reportsIn_of_mem hstill he) hbefore hwait hlong
  rw [Machine.run_append, hcurrent]
  rfl

/-- A report of a loss, in thousandths, and of a playout delay of 30 ms. -/
def Sample.reportOf (lossPermille : UInt16) : QosReport := ⟨0, 5, lossPermille, 0, 0, 0, 30, 0⟩

/-- Two good reports, and then one of forty percent of loss. -/
theorem stills_after_two_seconds :
    (Machine.run step (start 8000000)
      ([report (Sample.reportOf 0) 0, .report (Sample.reportOf 0) 1000] ++ [] ++
        [report (Sample.reportOf 400) 4000] ++ [] ++
          .frame 4100 :: ([] ++ [frame 6100]))).rate.current.stillsOnly = true := by
  exact heavy_loss_reaches_stills (by decide) (by decide) (by decide) (by decide)

/-! ### Up the ladder -/

/-- The playout delay has grown by a fifth, and by 20 ms at least. -/
def Grows (previousMs playoutDelayMs : ℕ) : Prop :=
  playoutDelayMs > previousMs + 20 ∧ playoutDelayMs * 5 > previousMs * 6

/-- The later report comes a quarter of a second after the earlier one, or more, and its playout
delay has not grown. -/
def Calm (s s' : ℕ × QosReport) : Prop :=
  s.1 + BITRATE_UPDATE_INTERVAL_MS ≤ s'.1 ∧
    ¬ Grows s.2.playoutDelayMs.toNat s'.2.playoutDelayMs.toNat

instance (s s' : ℕ × QosReport) : Decidable (Calm s s') :=
  inferInstanceAs (Decidable (_ ∧ ¬ (_ ∧ _)))

/-- The loss is below two percent. -/
structure Clean (h : HostLink) : Prop where
  inv : Inv h
  window : WindowIn 0 19 h

theorem Clean.permille {h : HostLink} (hh : Clean h) : h.telemetry.loss.permille.toNat < 20 := by
  have := (LossEstimator.permille_mem hh.inv.ratios hh.window.1 hh.window.2).2
  omega

theorem Clean.step {h : HostLink} {e : LinkEvent} (hh : Clean h) (he : ReportsIn 0 19 [e]) :
    Clean (h.step e) :=
  ⟨inv_step hh.inv e, windowIn_step hh.window he⟩

/-- As many rises as there are calm reports. -/
theorem rises_run {h : HostLink} (hh : Clean h) {last : ℕ × QosReport}
    (hlast : h.estimator.lastPlayoutMs = some last.2.playoutDelayMs.toNat)
    (hupdated : ∀ u ∈ h.estimator.lastUpdateMs, u ≤ last.1) {climb : List LinkEvent}
    (hin : ReportsIn 0 19 climb) (hcalm : List.IsChain Calm (last :: reports climb)) :
    riseBps^[(reports climb).length] h.estimator.estimateBps ≤
      (Machine.run HostLink.step h climb).estimator.estimateBps := by
  induction climb generalizing h last with
  | nil => exact le_rfl
  | cons e climb ih =>
      obtain ⟨he, hrest⟩ := reportsIn_append.1 (show ReportsIn 0 19 ([e] ++ climb) from hin)
      cases e with
      | report r t =>
          rw [reports_report] at hcalm ⊢
          obtain ⟨⟨hspaced, hshrinks⟩, hchain⟩ := List.isChain_cons_cons.1 hcalm
          have hnext := hh.step he
          have hlimited : h.estimator.limited t = false := by
            cases hu : h.estimator.lastUpdateMs with
            | none => simp [limited, hu]
            | some u =>
                have := hupdated u hu
                exact (limited_eq_false_iff hu t).2 (by omega)
          have hpressure : (h.estimator.observeDelay r.playoutDelayMs.toNat).delayPressure =
              false := by
            simp only [observeDelay, hlast]
            exact decide_eq_false hshrinks
          rcases estimate_applyQos hh.inv r t with ⟨hlim, -⟩ | ⟨-, hnow, hfollows⟩
          · rw [hlimited] at hlim
            cases hlim
          · rw [hpressure] at hfollows
            have hrise := hfollows.rise hnext.permille
            have hupdated' : ∀ u ∈ (h.applyQos r t).estimator.lastUpdateMs, u ≤ (t, r).1 := by
              rw [hnow]
              rintro u ⟨rfl⟩
              exact le_rfl
            have hplayout : (h.applyQos r t).estimator.lastPlayoutMs =
                some (t, r).2.playoutDelayMs.toNat := playout_applyQos h r t
            have hclimb := @ih (h.applyQos r t) hnext (t, r) hplayout hupdated' hrest hchain
            rw [List.length_cons, Function.iterate_succ_apply, ← hrise]
            exact hclimb
      | frame t => exact ih (hh.step he) hlast hupdated hrest hcalm
      | recovery ltr t => exact ih (hh.step he) hlast hupdated hrest hcalm

/-- The loss is below two percent and the estimate is the highest. -/
structure Restored (h : HostLink) : Prop where
  clean : Clean h
  highest : h.estimator.estimateBps = BitrateEstimator.MAX_BITRATE_BPS

theorem Restored.target {h : HostLink} (hh : Restored h) : h.target = 0 := by
  have hpermille := hh.clean.permille
  have hbwe : h.telemetry.bweBps = 12000000 := hh.clean.inv.bwe.trans hh.highest
  rw [target_eq, hbwe, rungFor, if_neg (by omega), if_neg (by omega), rungForRate,
    if_pos (by norm_num)]

theorem Restored.step {h : HostLink} {e : LinkEvent} (hh : Restored h)
    (he : ReportsIn 0 19 [e]) : Restored (h.step e) := by
  have hnext := hh.clean.step he
  refine ⟨hnext, ?_⟩
  cases e with
  | report r t =>
      rcases estimate_applyQos hh.clean.inv r t with ⟨-, hsame⟩ | ⟨-, -, n, hn, hrule⟩
      · rw [HostLink.step, hsame]
        exact hh.highest
      · have hpermille : (h.applyQos r t).telemetry.loss.permille.toNat < 20 := hnext.permille
        rcases hrule with hplanned | ⟨hcut, -⟩
        · -- a rise is cut off at the bound, and a hold is at it
          rw [HostLink.step, hn, hplanned, hh.highest, planned, if_neg (by omega)]
          split_ifs
          · decide
          · decide
        · omega
  | frame t => exact hh.highest
  | recovery ltr t => exact hh.highest

/-- **Up the ladder.**  From whatever state the loop has come to: if from some time on the reports
say that less than two percent was lost, then two seconds later ninety reports a quarter of a second
apart, without growing playout delays, bring the estimate to the highest rate, and ten seconds after
the first frame that sees it the encoder is at full quality. -/
theorem clean_link_recovers {bitrateBps a b t : ℕ} {before during climb still : List LinkEvent}
    {r : QosReport}
    (hclock : Clock (before ++ during ++ [report r t] ++ climb ++ [frame a]))
    (hloss : ∀ s ∈ reports (during ++ [report r t] ++ climb ++ still),
      s.2.lossPermille.toNat < 20)
    (hflushed : ∀ e ∈ before, e.nowMs + LOSS_WINDOW_MS < t)
    (hcalm : List.IsChain Calm (reports (.report r t :: climb)))
    (hmany : 90 ≤ (reports climb).length) (hlong : a + 10000 ≤ b) :
    (Machine.run HostLink.step (start bitrateBps) (before ++ during ++ [report r t] ++
        climb)).telemetry.bweBps = BitrateEstimator.MAX_BITRATE_BPS ∧
      ∃ videoBps heavyLoss, (Machine.run HostLink.step (start bitrateBps) (before ++ during ++
        [report r t] ++ climb ++ .frame a :: (still ++ [frame b]))).rate.current =
          directiveFor ⟨0, 60, 100, 3, false⟩ videoBps heavyLoss := by
  have hin : ReportsIn 0 19 (during ++ [report r t] ++ climb ++ still) := by
    intro s hs
    have := hloss s hs
    unfold lostOf
    omega
  obtain ⟨hin, hstill⟩ := reportsIn_append.1 hin
  obtain ⟨hduring, hclimb⟩ := reportsIn_append.1 hin
  obtain ⟨hordered, -, hlast⟩ := List.pairwise_append.1 (List.pairwise_map.1 hclock)
  obtain ⟨hfirst, -, hlater⟩ := List.pairwise_append.1 hordered
  have hinv := inv_run (inv_start bitrateBps) (before ++ during ++ [report r t])
  have hclean : Clean (Machine.run HostLink.step (start bitrateBps)
      (before ++ during ++ [report r t])) :=
    ⟨hinv, windowIn_of_flushed (List.pairwise_map.2 hfirst) hduring hflushed⟩
  have hnow : Before t (Machine.run HostLink.step (start bitrateBps)
      (before ++ during ++ [report r t])) := by
    obtain ⟨hsorted, -, hlt⟩ := List.pairwise_append.1 hfirst
    refine before_run (inv_start bitrateBps) (before_start bitrateBps 0)
      (List.pairwise_map.2 hfirst) (fun e _ => Nat.zero_le _) ?_ (Nat.zero_le t)
    intro e he
    rcases List.mem_append.1 he with he | he
    · exact hlt e he (.report r t) (by simp)
    · rw [List.mem_singleton.1 he]
      exact le_rfl
  have hplayout : (Machine.run HostLink.step (start bitrateBps)
      (before ++ during ++ [report r t])).estimator.lastPlayoutMs =
        some r.playoutDelayMs.toNat := by
    rw [Machine.run_append]
    exact playout_applyQos _ r t
  rw [reports_report] at hcalm
  have hrises := rises_run hclean hplayout hnow.updated hclimb hcalm
  have hafter : Clean (Machine.run HostLink.step (start bitrateBps)
      (before ++ during ++ [report r t] ++ climb)) := by
    rw [Machine.run_append]
    exact Machine.run_invariant_mem Clean (fun h e he hh => hh.step (reportsIn_of_mem hclimb he))
      hclean
  have hrestored : Restored (Machine.run HostLink.step (start bitrateBps)
      (before ++ during ++ [report r t] ++ climb)) := by
    refine ⟨hafter, le_antisymm hafter.inv.bounds.2 ?_⟩
    rw [Machine.run_append]
    have hreaches := rise_reaches hinv.bounds.1 ((reports climb).length - 90)
    rw [Nat.sub_add_cancel hmany] at hreaches
    exact hreaches.trans hrises
  have hbefore : Before a (Machine.run HostLink.step (start bitrateBps)
      (before ++ during ++ [report r t] ++ climb)) :=
    before_run (inv_start bitrateBps) (before_start bitrateBps 0) (List.pairwise_map.2 hordered)
      (fun e _ => Nat.zero_le _) (fun e he => hlast e he (.frame a) (by simp)) (Nat.zero_le a)
  have hkeeps : ∀ h e, Restored h → ReportsIn 0 19 [e] → Restored (HostLink.step h e) :=
    fun h e hh he => hh.step he
  have hwait : ∀ h, Restored h → h.ladder.current ≠ 0 → h.ladder.requiredMs 0 ≤ 10000 := by
    intro h hh _
    rw [requiredMs_eq hh.clean.inv]
    split_ifs <;> omega
  obtain ⟨videoBps, heavyLoss, hcurrent⟩ := current_of_steady (fun h hh => hh.target) hkeeps
    hrestored (reportsIn_frame 0 19) (fun e he => reportsIn_of_mem hstill he) hbefore hwait hlong
  refine ⟨hafter.inv.bwe.trans hrestored.highest, videoBps, heavyLoss, ?_⟩
  rw [Machine.run_append, hcurrent]
  rfl

/-- Ninety reports without loss, a quarter of a second apart. -/
def Sample.climb : List LinkEvent :=
  (List.range 90).map fun i => report (Sample.reportOf 0) (3250 + 250 * i)

theorem Sample.reports_climb :
    reports Sample.climb = (List.range 90).map fun i => (3250 + 250 * i, Sample.reportOf 0) := by
  rw [reports, Sample.climb, List.filterMap_map, ← List.filterMap_eq_map]
  rfl

/-- With the one before them they are a quarter of a second apart. -/
theorem Sample.calm_climb :
    List.IsChain Calm (reports (report (Sample.reportOf 0) 3000 :: Sample.climb)) := by
  have hcons : reports (report (Sample.reportOf 0) 3000 :: Sample.climb) =
      (List.range 91).map fun i => (3000 + 250 * i, Sample.reportOf 0) := by
    rw [reports_report, Sample.reports_climb, List.range_succ_eq_map (n := 90), List.map_cons,
      List.map_map]
    refine congrArg _ (List.map_congr_left fun i _ => ?_)
    simp only [Function.comp_apply, Prod.mk.injEq, and_true]
    omega
  rw [hcons, List.isChain_map, List.isChain_range_succ]
  intro i _
  refine ⟨?_, ?_⟩
  · rw [BITRATE_UPDATE_INTERVAL_MS]
    omega
  · rintro ⟨hgrown, -⟩
    exact absurd hgrown (by simp)

theorem Sample.clock_climb : Clock ([report (Sample.reportOf 1000) 0] ++ [] ++
    [report (Sample.reportOf 0) 3000] ++ Sample.climb ++ [frame 26000]) := by
  have hclimb : (Sample.climb.map nowMs).Pairwise (· ≤ ·) := by
    rw [Sample.climb, List.map_map, List.pairwise_map]
    refine List.pairwise_lt_range.imp fun {i j} hij => ?_
    simp only [Function.comp_apply, nowMs]
    omega
  have hbounds : ∀ t ∈ Sample.climb.map nowMs, 3250 ≤ t ∧ t ≤ 26000 := by
    intro t ht
    rw [Sample.climb, List.map_map] at ht
    obtain ⟨i, hi, rfl⟩ := List.mem_map.1 ht
    have := List.mem_range.1 hi
    simp only [Function.comp_apply, nowMs]
    omega
  rw [Clock, List.map_append, List.map_append]
  refine List.pairwise_append.2 ⟨List.pairwise_append.2 ⟨by simp [nowMs], hclimb, ?_⟩, by simp, ?_⟩
  · intro t ht u hu
    have := hbounds u hu
    simp [nowMs] at ht
    omega
  · intro t ht u hu
    rcases List.mem_append.1 ht with ht | ht
    · simp [nowMs] at ht hu
      omega
    · have := hbounds t ht
      simp [nowMs] at hu
      omega

/-- A link that lost everything, and then nothing. -/
theorem recovers_from_the_bottom :
    (Machine.run HostLink.step (start 0) ([report (Sample.reportOf 1000) 0] ++ [] ++
      [report (Sample.reportOf 0) 3000] ++ Sample.climb)).telemetry.bweBps = 12000000 := by
  have hloss : ∀ s ∈ reports ([] ++ [report (Sample.reportOf 0) 3000] ++ Sample.climb ++ []),
      s.2.lossPermille.toNat < 20 := by
    intro s hs
    rw [List.nil_append, List.append_nil, List.singleton_append, reports_report,
      Sample.reports_climb, List.mem_cons, List.mem_map] at hs
    rcases hs with rfl | ⟨i, -, rfl⟩
    · exact Nat.zero_lt_succ 19
    · exact Nat.zero_lt_succ 19
  have hmany : 90 ≤ (reports Sample.climb).length := by
    rw [Sample.reports_climb, List.length_map, List.length_range]
  exact (clean_link_recovers Sample.clock_climb hloss (by simp [nowMs, LOSS_WINDOW_MS])
    Sample.calm_climb hmany (le_refl 36000)).1

end HostLink

end Rda
