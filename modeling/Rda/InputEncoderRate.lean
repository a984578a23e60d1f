/-
**How many pointer moves go out.**

Pointer moves are capped at `POINTER_HZ` a second by an interval between two of them: a move that
comes less than the interval after the last one that was sent is held back.  The interval is
`1000 / POINTER_HZ` in whole milliseconds, so it falls short by two thirds of a millisecond, and
moves that are sent as soon as the interval allows come sooner than they may.  The cap holds as long
as they come late often enough.

Main definitions:

* `Rda.moveTimes` — when the frames of pointer moves went out;
* `Rda.lateness` — how long after the end of the interval each move came that was sent.

Main results:

* `Rda.InputLog.moveTimes_run` — the moves go out after the interval and their lateness;
* `Rda.pointer_rate_capped_iff` — **the cap holds** exactly when any `POINTER_HZ` moves in a row,
  the first one apart, are late by 40 ms in all;
* `Rda.moveTimes_sparse` — never more than three above the cap go out.
-/

import Rda.InputEncoder
import Rda.Spacing

set_option relaxedAutoImplicit false
set_option autoImplicit false

namespace Rda

open FixedWindow (Sparse)
open Spacing (arrivals)

/-! ### Moves -/

def Payload.isMove : Payload → Bool
  | .mouseMove .. => true
  | _ => false

/-- The host reads a pointer move. -/
def Answered.isMove (a : Answered) : Bool := a.frame.any fun f => f.payload.isMove

/-- When the frames of pointer moves went out. -/
def moveTimes (log : List Answered) : List ℕ := (log.filter (·.isMove)).map (·.nowMs)

theorem moveTimes_append_singleton (log : List Answered) (a : Answered) :
    moveTimes (log ++ [a]) = moveTimes log ++ if a.isMove then [a.nowMs] else [] := by
  rw [moveTimes, List.filter_append, List.map_append, List.filter_singleton]
  cases a.isMove <;> rfl

/-- How long after the end of the interval each move came that was sent; `last` is when the last one
before was sent. -/
def lateness (last : ℕ) : List (ℕ × InputCall) → List ℕ
  | [] => []
  | i :: is =>
      if i.2.held.isSome ∧ 1000 / POINTER_HZ ≤ i.1 - last then
        (i.1 - last - 1000 / POINTER_HZ) :: lateness i.1 is
      else lateness last is

/-- The time between two moves that are sent: the interval, and how late the second one is. -/
def waitOf (late : ℕ) : ℕ := 1000 / POINTER_HZ + late

namespace InputCall

theorem isMove_of_encodes {call : InputCall} {p : Payload} (h : Encodes call p) :
    p.isMove = call.held.isSome := by
  cases h <;> rfl

theorem lastPointerMs_ready (enc : RdaInputEncoder) (nowMs : ℕ) (call : InputCall) :
    (call.ready enc nowMs).lastPointerMs =
      if call.held.isSome then nowMs else enc.lastPointerMs := by
  cases call <;> rfl

end InputCall

namespace InputLog

variable {s : InputLog} {i : ℕ × InputCall}

theorem Refused.isMove (h : s.Refused i) : (s.answer i).isMove = false := by
  rw [Answered.isMove, h.frame]
  rfl

theorem Held.isMove {m : PendingMove} (h : s.Held i m) : (s.answer i).isMove = false := by
  rw [Answered.isMove, h.frame]
  rfl

theorem Sent.isMove {p : Payload} (h : s.Sent i p) : (s.answer i).isMove = i.2.held.isSome := by
  rw [← InputCall.isMove_of_encodes (InputCall.encodes_of_encoded h.encoded), Answered.isMove]
  rcases h.frame_cases with hf | ⟨⟨_, _, _, rfl⟩, hall⟩
  · rw [hf]
    rfl
  · cases hf : (s.answer i).frame with
    | none => rfl
    | some f =>
        obtain ⟨_, _, _, hp⟩ := hall f hf
        rw [Option.any_some, hp]
        rfl

theorem held_of_refused (h : s.Refused i) : i.2.held = none := by
  obtain ⟨e, he, -⟩ := h.answer
  have hrefuses := InputCall.refuses_of_encoded he
  generalize i.2 = call at hrefuses
  cases hrefuses <;> rfl

/-- A move goes out, or the log and the time of the last move stay as they are. -/
theorem moveTimes_step (s : InputLog) (i : ℕ × InputCall) :
    if i.2.held.isSome ∧ 1000 / POINTER_HZ ≤ i.1 - s.encoder.lastPointerMs then
      moveTimes (s.step i).answered = moveTimes s.answered ++ [i.1] ∧
        (s.step i).encoder.lastPointerMs = i.1
    else
      moveTimes (s.step i).answered = moveTimes s.answered ∧
        (s.step i).encoder.lastPointerMs = s.encoder.lastPointerMs := by
  rw [answered_step, moveTimes_append_singleton]
  rcases s.step_cases i with h | ⟨m, h⟩ | ⟨p, h⟩
  · rw [if_neg (by simp [held_of_refused h]), h.encoder, h.isMove]
    exact ⟨List.append_nil _, rfl⟩
  · rw [if_neg fun hdue => absurd h.early.2 (Nat.not_lt.2 hdue.2), h.encoder, h.isMove]
    exact ⟨List.append_nil _, rfl⟩
  · have hlast : (s.step i).encoder.lastPointerMs =
        if i.2.held.isSome then i.1 else s.encoder.lastPointerMs := by
      rw [h.encoder]
      exact InputCall.lastPointerMs_ready _ _ _
    rw [hlast, h.isMove]
    by_cases hmove : i.2.held.isSome = true
    · rw [if_pos ⟨hmove, Nat.le_of_not_lt fun hlt => h.late ⟨hmove, hlt⟩⟩, if_pos hmove,
        if_pos hmove]
      exact ⟨rfl, rfl⟩
    · rw [if_neg fun hdue => hmove hdue.1, if_neg hmove, if_neg hmove]
      exact ⟨List.append_nil _, rfl⟩

/-- **When the moves go out**: each after the interval and its lateness. -/
theorem moveTimes_run (s : InputLog) (is : List (ℕ × InputCall)) :
    moveTimes (Machine.run step s is).answered =
      moveTimes s.answered ++
        arrivals s.encoder.lastPointerMs ((lateness s.encoder.lastPointerMs is).map waitOf) := by
  induction is generalizing s with
  | nil => exact (List.append_nil _).symm
  | cons i is ih =>
      have hstep := moveTimes_step s i
      rw [Machine.run_cons, ih, lateness]
      split_ifs at hstep ⊢ with hdue
      · obtain ⟨htimes, hlast⟩ := hstep
        have hnow : s.encoder.lastPointerMs
            + waitOf (i.1 - s.encoder.lastPointerMs - 1000 / POINTER_HZ) = i.1 := by
          have hpos : 0 < 1000 / POINTER_HZ := by decide
          unfold waitOf
          omega
        rw [htimes, hlast, List.map_cons, arrivals, hnow, List.append_assoc, List.singleton_append]
      · rw [hstep.1, hstep.2]

end InputLog

/-! ### The cap -/

theorem sum_map_waitOf (late : List ℕ) :
    (late.map waitOf).sum = late.length * (1000 / POINTER_HZ) + late.sum := by
  induction late with
  | nil => rfl
  | cons l late ih =>
      rw [List.map_cons, List.sum_cons, ih, waitOf, List.sum_cons, List.length_cons, Nat.succ_mul]
      omega

/-- A sliding limit on the moves of a run, by their lateness. -/
theorem moveTimes_sparse_iff (limit span epochMs : ℕ) (calls : List (ℕ × InputCall)) :
    Sparse limit span
      (moveTimes (Machine.run InputLog.step (InputLog.start epochMs) calls).answered) ↔
    ∀ i, i + limit < (lateness 0 calls).length →
      span ≤ limit * (1000 / POINTER_HZ) + (((lateness 0 calls).drop (i + 1)).take limit).sum := by
  have htimes : moveTimes (Machine.run InputLog.step (InputLog.start epochMs) calls).answered
      = arrivals 0 ((lateness 0 calls).map waitOf) := InputLog.moveTimes_run _ _
  rw [htimes, Spacing.sparse_arrivals_iff, List.length_map]
  refine forall_congr' fun i => imp_congr_right fun hi => ?_
  have hlength : (((lateness 0 calls).drop (i + 1)).take limit).length = limit := by
    rw [List.length_take, List.length_drop]
    omega
  rw [← List.map_drop, ← List.map_take, sum_map_waitOf, hlength]

/-- **Which runs keep the pointer rate**: in every span of less than a second at most `POINTER_HZ`
moves go out, exactly when any `POINTER_HZ` moves in a row, the first one apart, are late by 40 ms
in all. -/
theorem pointer_rate_capped_iff (epochMs : ℕ) (calls : List (ℕ × InputCall)) :
    (∀ a b, b < a + 1000 →
      (moveTimes (Machine.run InputLog.step (InputLog.start epochMs) calls).answered).countP
        (fun t => a ≤ t ∧ t ≤ b) ≤ POINTER_HZ) ↔
    ∀ i, i + POINTER_HZ < (lateness 0 calls).length →
      40 ≤ (((lateness 0 calls).drop (i + 1)).take POINTER_HZ).sum := by
  rw [← FixedWindow.sparse_iff (by decide), moveTimes_sparse_iff]
  refine forall_congr' fun i => imp_congr_right fun _ => ?_
  have hinterval : POINTER_HZ * (1000 / POINTER_HZ) = 960 := by decide
  rw [hinterval]
  omega

/-- Whatever the times of the calls, never more than three moves above the cap go out. -/
theorem moveTimes_sparse (epochMs : ℕ) (calls : List (ℕ × InputCall)) :
    Sparse (POINTER_HZ + 3) 1000
      (moveTimes (Machine.run InputLog.step (InputLog.start epochMs) calls).answered) := by
  rw [moveTimes_sparse_iff]
  intro i _
  have hinterval : (POINTER_HZ + 3) * (1000 / POINTER_HZ) = 1008 := by decide
  omega

/-- A trackpad that reports every 16 ms. -/
def steadyMoves (n : ℕ) : List (ℕ × InputCall) :=
  (List.range n).map fun k => (16 * (k + 1), .pointerMove 0 (.ofNat k) 0 0)

/-- Its moves are all sent, 63 of them in less than a second. -/
theorem steady_moves_exceed_rate :
    ¬ ∀ a b, b < a + 1000 →
      (moveTimes (Machine.run InputLog.step (InputLog.start 0) (steadyMoves 63)).answered).countP
        (fun t => a ≤ t ∧ t ≤ b) ≤ POINTER_HZ := by
  intro h
  have hcount := h 16 1008 (by decide)
  revert hcount
  decide

end Rda
