/-
**When a registration succeeds.**

The server enters a device into its registry before it sends the acknowledgement, and the entry can
be used at once: whoever dials the device, or registers it again, has the server put a message of
its own on the connection's queue.  The client takes the first message after the challenge for the
answer to its registration.  So an honest call, which answers the challenge in time and whose
connection stays up, returns a connection exactly when nothing else is put on the queue before the
acknowledgement; otherwise it fails, though the device is registered.

Main definitions:

* `Rda.Signal.Message.Answers` — the messages that answer a registration;
* `Rda.Signal.Event.Spares` — an event that leaves a connection's socket alone;
* `Rda.Signal.Intrudes` — a step that puts something else on the queue of a connection that is not
  acknowledged yet.

Main results:

* `Rda.Signal.act_send_answers` — an answer is sent by the connection's own task;
* `Rda.Signal.heard_step` — what one step adds to the queue;
* `Rda.Signal.registration_completes` — **an honest registration succeeds, unless somebody
  intrudes**.
-/

import Rda.SignalClient

set_option relaxedAutoImplicit false
set_option autoImplicit false

namespace Rda

open Machine

namespace Signal

variable {P : Primitives} {config : Config}

/-! ### Who answers -/

/-- The messages that answer a registration. -/
def Message.Answers : Message → Prop
  | .registerAck .. | .error _ => True
  | _ => False

theorem not_answers_of_isRouted {msg : Message} (h : msg.IsRouted) : ¬ msg.Answers := by
  cases msg <;> first | exact False.elim h | exact id

/-- What a task passes on belongs to a session. -/
def Task.Passes : Task → Prop
  | .routing _ _ msg _ _ | .sending _ _ msg _ _ => msg.IsRouted
  | _ => True

/-- Every task of the server passes on what belongs to a session. -/
def Server.Passes (s : Server) : Prop := ∀ k conn, s.conns k = some conn → conn.task.Passes

section Passes

variable {s : Server} {c : ℕ} {conn : Conn}

theorem leave_passes (conn : Conn) : conn.leave.Passes := by
  unfold Conn.leave
  split <;> trivial

theorem handle_passes (h : conn.task.Passes) (env : Envelope) (nowMs : ℕ) :
    (conn.handle P c env nowMs).task.Passes := by
  unfold Conn.handle
  split
  · split
    · unfold Conn.register
      split <;> trivial
    · trivial
  · split
    · trivial
    · trivial
    · trivial
    · unfold Conn.connectResponse
      split <;> trivial
    all_goals first
      | exact h
      | (next hmsg => unfold Conn.forward; split <;> first | trivial | (rw [hmsg]; trivial))

theorem receive_passes (h : conn.task.Passes) (frame : Frame) (nowMs : ℕ) :
    (conn.receive P c frame nowMs).task.Passes := by
  cases frame with
  | binary => trivial
  | closed => exact leave_passes conn
  | keepalive => exact h
  | text parsed =>
      simp only [Conn.receive]
      split
      · trivial
      · rename_i limiter _
        have hconn : ({ conn with limiter := limiter } : Conn).task.Passes := h
        cases parsed with
        | ok env => exact handle_passes hconn env nowMs
        | error e => trivial

theorem act_passes (h : conn.task.Passes) (draw : Draw) :
    (conn.act config s c draw).1.task.Passes := by
  rcases conn with ⟨challenge, limiter, identity, task⟩
  cases task with
  | replying msg close =>
      cases close with
      | true => exact leave_passes _
      | false => trivial
  | routing sender sid msg replyTo ends =>
      simp only [Conn.act]
      split
      · trivial
      · split
        · trivial
        · exact h
  | departing d sessions =>
      cases sessions with
      | nil => trivial
      | cons session sessions => trivial
  | _ =>
      simp only [Conn.act]
      (repeat' split) <;> trivial

/-- Every task passes on what belongs to a session, and no number is in use before its turn. -/
def Server.Steady (s : Server) : Prop :=
  s.Passes ∧ ∀ k, s.registry.nextConnId ≤ k → s.conns k = none

theorem Server.Steady.step (h : s.Steady) (e : Event) : (s.step P config e).Steady := by
  refine ⟨?_, Server.step_fresh h.2 e⟩
  intro k conn hconn
  rcases Server.of_step_conns hconn with ⟨hold, -⟩ | ⟨_, _, _, -, -, rfl⟩ |
    ⟨conn, frame, nowMs, -, hold, -, rfl⟩ | ⟨conn, draw, -, hold, rfl⟩
  · exact h.1 k _ hold
  · trivial
  · exact receive_passes (h.1 k conn hold) frame nowMs
  · exact act_passes (h.1 k conn hold) draw

theorem steady_run (events : List Event) : (run P config events).Steady :=
  Machine.run_invariant Server.Steady (fun _ e h => h.step e)
    ⟨(fun _ _ h => by cases h), fun _ _ => rfl⟩ events

theorem Server.Steady.ne_next (h : s.Steady) (hc : s.conns c = some conn) :
    c ≠ s.registry.nextConnId := by
  rintro rfl
  rw [h.2 _ le_rfl] at hc
  cases hc

/-- **An answer is sent by the connection's own task.** -/
theorem act_send_answers (h : conn.task.Passes) {draw : Draw} {k : ℕ} {env : Envelope}
    (hsend : (conn.act config s c draw).2 = .send k env) (hanswers : env.msg.Answers) :
    k = c ∧ ((∃ close, conn.task = .replying env.msg close) ∨
      ∃ d, conn.task = .acknowledging d ∧
        env.msg = .registerAck d config.heartbeatIntervalS config.sessionTtlS) := by
  rcases conn with ⟨challenge, limiter, identity, task⟩
  cases task with
  | replying msg close =>
      cases hsend
      exact ⟨rfl, .inl ⟨close, rfl⟩⟩
  | acknowledging d =>
      cases hsend
      exact ⟨rfl, .inr ⟨d, rfl, rfl⟩⟩
  | sending target sid msg replyTo ends =>
      have hrouted : msg.IsRouted := h
      simp only [Conn.act] at hsend
      (repeat' split at hsend) <;> cases hsend <;>
        exact absurd hanswers (not_answers_of_isRouted hrouted)
  | departing d sessions =>
      cases sessions with
      | nil => cases hsend
      | cons session sessions =>
          simp only [Conn.act] at hsend
          split at hsend <;> cases hsend
          exact False.elim hanswers
  | _ =>
      simp only [Conn.act] at hsend
      (repeat' split at hsend) <;> cases hsend <;> exact False.elim hanswers

end Passes

/-! ### What is on the queue -/

/-- An event that neither makes a connection read a message nor stops its writer. -/
def Event.Spares (c : ℕ) : Event → Prop
  | .receive k frame _ => k = c → frame = .keepalive
  | .stopWriter k => k ≠ c
  | _ => True

/-- The step puts a message on the queue of a connection that is not acknowledged yet, and it is no
answer to a registration. -/
def Intrudes (config : Config) (c : ℕ) (s : Server) (e : Event) : Prop :=
  (∃ conn, s.conns c = some conn ∧ conn.identity = none) ∧
    ∃ env, s.effect config e = .send c env ∧ ¬ env.msg.Answers

/-- After the challenge the connection has been sent these messages, none of them an answer. -/
structure Heard (c : ℕ) (challenge : Envelope) (mid : List Envelope) (s : Server) : Prop where
  queue : s.queues c = ⟨challenge :: mid, true⟩
  silent : ∀ env ∈ mid, ¬ env.msg.Answers

section Queue

variable {s : Server} {c : ℕ} {e : Event} {challenge : Envelope} {mid : List Envelope}

theorem apply_send_self (s : Server) (k : ℕ) (env : Envelope) :
    (s.apply (.send k env)).queues k = (s.queues k).push env := Function.update_self ..

theorem apply_send_of_ne (s : Server) {k : ℕ} (h : c ≠ k) (env : Envelope) :
    (s.apply (.send k env)).queues c = s.queues c := Function.update_of_ne h ..

/-- A queue is what the effect of a step leaves. -/
theorem queues_step (P : Primitives) (config : Config) (hc : c ≠ s.registry.nextConnId)
    (he : e.Spares c) :
    (s.step P config e).queues c = (s.apply (s.effect config e)).queues c := by
  cases e with
  | connect nonce nowMs ulid => exact Function.update_of_ne hc ..
  | receive k frame nowMs =>
      simp only [Server.step]
      split
      · split <;> rfl
      · rfl
  | advance k draw =>
      cases hk : s.conns k with
      | none => rw [Server.step_advance_of_none hk, Server.effect, hk]; rfl
      | some conn =>
          rw [Server.step_advance hk, Server.setConn_queues, Server.effect_advance hk]
  | stopWriter k =>
      have hne : c ≠ k := fun h => he h.symm
      exact Function.update_of_ne hne ..

/-- **What one step adds to the queue** of a connection that it does not answer. -/
theorem heard_step (P : Primitives) (config : Config) (h : Heard c challenge mid s)
    (hc : c ≠ s.registry.nextConnId)
    (hidentity : ∃ conn, s.conns c = some conn ∧ conn.identity = none) (he : e.Spares c)
    (hquiet : ∀ env, s.effect config e = .send c env → ¬ env.msg.Answers) :
    ∃ mid', Heard c challenge mid' (s.step P config e) ∧
      (mid' = [] ↔ mid = [] ∧ ¬ Intrudes config c s e) := by
  have hqueue := queues_step P config hc he
  by_cases hsend : ∃ env, s.effect config e = .send c env
  · obtain ⟨env, henv⟩ := hsend
    have hintrudes : Intrudes config c s e := ⟨hidentity, env, henv, hquiet env henv⟩
    refine ⟨mid ++ [env], ⟨?_, ?_⟩, by simp [hintrudes]⟩
    · rw [hqueue, henv, apply_send_self, h.queue, Queue.push, if_pos rfl, List.cons_append]
    · intro env' henv'
      rcases List.mem_append.1 henv' with hold | hnew
      · exact h.silent env' hold
      · rw [List.mem_singleton.1 hnew]
        exact hquiet env henv
  · have hintrudes : ¬ Intrudes config c s e := fun hi => hsend (hi.2.imp fun _ h => h.1)
    refine ⟨mid, ⟨?_, h.silent⟩, by simp [hintrudes]⟩
    rw [hqueue, ← h.queue]
    cases heffect : s.effect config e with
    | send k env =>
        have hne : c ≠ k := by
          rintro rfl
          exact hsend ⟨env, heffect⟩
        exact apply_send_of_ne s hne env
    | _ => rfl

end Queue

/-! ### The three steps of a registration -/

/-- The device a task is registering. -/
def Task.registers : Task → Option DeviceId
  | .inserting peer | .displacing peer _ => some peer.deviceId
  | .acknowledging d => some d
  | _ => none

/-- How many steps of its task a registration takes at most. -/
def Task.stepsLeft : Task → ℕ
  | .inserting _ => 3
  | .displacing .. => 2
  | .acknowledging _ => 1
  | _ => 0

/-- Whether the event is a step of the connection's task. -/
def Event.advances (c : ℕ) : Event → Bool
  | .advance k _ => k = c
  | _ => false

/-- The connection waits for the registration. -/
structure Waiting (config : Config) (c : ℕ) (nonce : Bytes NONCE_LEN) (issuedMs : ℕ)
    (challenge : Envelope) (mid : List Envelope) (s : Server) : Prop
    extends Heard c challenge mid s where
  conn : s.conns c = some (.new config nonce issuedMs)

/-- The connection's task is registering the device. -/
structure Registering (c : ℕ) (d : DeviceId) (left : ℕ) (challenge : Envelope)
    (mid : List Envelope) (s : Server) : Prop extends Heard c challenge mid s where
  task : ∃ conn, s.conns c = some conn ∧ conn.identity = none ∧ conn.task.registers = some d ∧
    conn.task.stepsLeft ≤ left

/-- The connection has been sent the acknowledgement. -/
structure Acknowledged (config : Config) (c : ℕ) (d : DeviceId) (challenge : Envelope)
    (mid : List Envelope) (s : Server) : Prop where
  queue : ∃ id rest, (s.queues c).envelopes = challenge :: (mid ++
    ⟨id, none, .registerAck d config.heartbeatIntervalS config.sessionTtlS⟩ :: rest)
  silent : ∀ env ∈ mid, ¬ env.msg.Answers
  identity : ∃ conn, s.conns c = some conn ∧ conn.identity = some d ∧ conn.task = .reading

section Phases

variable {s : Server} {c : ℕ} {d : DeviceId} {left : ℕ} {challenge : Envelope} {mid : List Envelope}
  {e : Event}

/-- Nobody but a connection's own task answers it. -/
theorem quiet_of_ne_owner (hpasses : s.Passes) (hne : c ≠ s.owner e) {env : Envelope}
    (hsend : s.effect config e = .send c env) : ¬ env.msg.Answers := by
  intro hanswers
  obtain ⟨k, draw, conn, rfl, hconn, hact⟩ := Server.exists_act (by rw [hsend]; simp)
  rw [hsend] at hact
  exact hne (act_send_answers (hpasses k conn hconn) hact.symm hanswers).1

/-- One step while the connection waits. -/
theorem Waiting.step {nonce : Bytes NONCE_LEN} {issuedMs : ℕ}
    (h : Waiting config c nonce issuedMs challenge mid s) (hpasses : s.Passes)
    (hc : c ≠ s.registry.nextConnId) (he : e.Spares c) :
    ∃ mid', Waiting config c nonce issuedMs challenge mid' (s.step P config e) ∧
      (mid' = [] ↔ mid = [] ∧ ¬ Intrudes config c s e) := by
  have hquiet : ∀ env, s.effect config e = .send c env → ¬ env.msg.Answers := by
    intro env hsend
    by_cases howner : c = s.owner e
    swap
    · exact quiet_of_ne_owner hpasses howner hsend
    -- A connection that reads sends nothing.
    obtain ⟨k, draw, conn, rfl, hconn, hact⟩ := Server.exists_act (by rw [hsend]; simp)
    obtain rfl : c = k := howner
    rw [h.conn] at hconn
    cases hconn
    rw [hact] at hsend
    cases hsend
  obtain ⟨mid', hheard, hmid⟩ := heard_step P config h.toHeard hc ⟨_, h.conn, rfl⟩ he hquiet
  refine ⟨mid', ⟨hheard, ?_⟩, hmid⟩
  by_cases howner : c = s.owner e
  swap
  · rw [Server.step_conns_of_ne howner, h.conn]
  cases e with
  | connect => exact absurd howner hc
  | receive k frame nowMs =>
      obtain rfl : c = k := howner
      obtain rfl := he rfl
      rw [Server.step_receive h.conn rfl, Server.setConn_conns_self]
      rfl
  | advance k draw =>
      obtain rfl : c = k := howner
      rw [Server.step_advance h.conn, Server.setConn_conns_self]
      rfl
  | stopWriter k => exact h.conn

/-- A step of the task before the acknowledgement. -/
theorem act_registers (config : Config) (s : Server) (c : ℕ) {conn : Conn}
    (h : conn.task.registers = some d) (hack : conn.task ≠ .acknowledging d) (draw : Draw) :
    (conn.act config s c draw).1.identity = conn.identity ∧
      (conn.act config s c draw).1.task.registers = some d ∧
      (conn.act config s c draw).1.task.stepsLeft < conn.task.stepsLeft ∧
      ∀ k env, (conn.act config s c draw).2 = .send k env → ¬ env.msg.Answers := by
  cases htask : conn.task with
  | inserting peer =>
      rw [htask] at h
      simp only [Conn.act, htask]
      split
      · exact ⟨rfl, h, by simp [Task.stepsLeft], fun _ _ hsend => by cases hsend⟩
      · exact ⟨rfl, h, by simp [Task.stepsLeft], fun _ _ hsend => by cases hsend⟩
  | displacing peer displaced =>
      rw [htask] at h
      simp only [Conn.act, htask]
      refine ⟨trivial, h, by simp [Task.stepsLeft], fun _ _ hsend => ?_⟩
      cases hsend
      exact id
  | acknowledging d' =>
      rw [htask] at h hack
      cases h
      exact absurd rfl hack
  | _ =>
      rw [htask] at h
      cases h

/-- One step of a registration, its own or somebody else's. -/
theorem Registering.step (config : Config) (h : Registering c d left challenge mid s)
    (hpasses : s.Passes) (hc : c ≠ s.registry.nextConnId) (he : e.Spares c) :
    ∃ mid', (mid' = [] ↔ mid = [] ∧ ¬ Intrudes config c s e) ∧
      (Registering c d (left - (if e.advances c then 1 else 0)) challenge mid'
          (s.step P config e) ∨
        Acknowledged config c d challenge mid' (s.step P config e)) := by
  obtain ⟨conn, hconn, hidentity, hregisters, hleft⟩ := h.task
  -- Somebody else's step, or none.
  by_cases hother : (s.step P config e).conns c = some conn ∧ e.advances c = false ∧
      ∀ env, s.effect config e = .send c env → ¬ env.msg.Answers
  · obtain ⟨hsame, hadvances, hquiet⟩ := hother
    obtain ⟨mid', hheard, hmid⟩ :=
      heard_step P config h.toHeard hc ⟨conn, hconn, hidentity⟩ he hquiet
    refine ⟨mid', hmid, .inl ⟨hheard, conn, hsame, hidentity, hregisters, ?_⟩⟩
    simpa [hadvances] using hleft
  by_cases howner : c = s.owner e
  swap
  · refine absurd ⟨?_, ?_, fun _ => quiet_of_ne_owner hpasses howner⟩ hother
    · rw [Server.step_conns_of_ne howner, hconn]
    · cases e with
      | advance k draw => exact decide_eq_false fun hk => howner hk.symm
      | _ => rfl
  cases e with
  | connect => exact absurd howner hc
  | stopWriter k => exact absurd ⟨hconn, rfl, fun _ hsend => by cases hsend⟩ hother
  | receive k frame nowMs =>
      obtain rfl : c = k := howner
      have hreading : conn.task ≠ .reading := by
        rintro htask
        rw [htask] at hregisters
        cases hregisters
      refine absurd ⟨?_, rfl, fun _ hsend => by cases hsend⟩ hother
      rw [Server.step_receive_of_ne hconn hreading, hconn]
  | advance k draw =>
      obtain rfl : c = k := howner
      have hadvances : (Event.advance c draw).advances c = true := decide_eq_true rfl
      have heffect : s.effect config (.advance c draw) = (conn.act config s c draw).2 :=
        Server.effect_advance hconn draw
      have hstep : (s.step P config (.advance c draw)).conns c =
          some (conn.act config s c draw).1 := by
        rw [Server.step_advance hconn, Server.setConn_conns_self]
      rw [hadvances, if_pos rfl]
      by_cases hack : conn.task = .acknowledging d
      · -- The acknowledgement goes on the queue.
        refine ⟨mid, by simp [Intrudes, heffect, Conn.act, hack, Message.Answers], .inr ?_⟩
        have hqueue := queues_step P config hc he
        rw [heffect, Conn.act, hack] at hqueue
        refine ⟨⟨draw.ulid, [], ?_⟩, h.silent, _, hstep, ?_, ?_⟩
        · rw [hqueue, apply_send_self, h.queue, Queue.push, if_pos rfl]
          rfl
        · rw [Conn.act, hack]
        · rw [Conn.act, hack]
      · obtain ⟨hsame, hregisters', hless, hquiet⟩ :=
          act_registers config s c hregisters hack draw
        obtain ⟨mid', hheard, hmid⟩ := heard_step P config h.toHeard hc
          ⟨conn, hconn, hidentity⟩ he fun env hsend => hquiet c env (heffect.symm.trans hsend)
        exact ⟨mid', hmid, .inl ⟨hheard, _, hstep, hsame.trans hidentity, hregisters', by omega⟩⟩

/-- What comes after the acknowledgement does not matter. -/
theorem Acknowledged.step (h : Acknowledged config c d challenge mid s)
    (hc : c ≠ s.registry.nextConnId) (he : e.Spares c) :
    Acknowledged config c d challenge mid (s.step P config e) ∧ ¬ Intrudes config c s e := by
  obtain ⟨⟨id, rest, hqueue⟩, hsilent, conn, hconn, hidentity, htask⟩ := h
  refine ⟨⟨?_, hsilent, ?_⟩, ?_⟩
  · have hstep := queues_step P config hc he
    cases heffect : s.effect config e with
    | send k env =>
        rw [heffect] at hstep
        by_cases hk : c = k
        · subst hk
          rw [apply_send_self, Queue.push] at hstep
          split at hstep
          · refine ⟨id, rest ++ [env], ?_⟩
            rw [hstep, hqueue]
            simp
          · exact ⟨id, rest, by rw [hstep, hqueue]⟩
        · rw [apply_send_of_ne s hk] at hstep
          exact ⟨id, rest, by rw [hstep, hqueue]⟩
    | _ =>
        rw [heffect] at hstep
        exact ⟨id, rest, by rw [hstep]; exact hqueue⟩
  · by_cases howner : c = s.owner e
    swap
    · exact ⟨conn, by rw [Server.step_conns_of_ne howner, hconn], hidentity, htask⟩
    cases e with
    | connect => exact absurd howner hc
    | receive k frame nowMs =>
        obtain rfl : c = k := howner
        obtain rfl := he rfl
        refine ⟨conn, ?_, hidentity, htask⟩
        rw [Server.step_receive hconn htask, Server.setConn_conns_self]
        rfl
    | advance k draw =>
        obtain rfl : c = k := howner
        refine ⟨conn, ?_, hidentity, htask⟩
        rw [Server.step_advance hconn, Server.setConn_conns_self, Conn.act, htask]
    | stopWriter k => exact ⟨conn, hconn, hidentity, htask⟩
  · rintro ⟨⟨conn', hconn', hnone⟩, -⟩
    rw [hconn] at hconn'
    cases hconn'
    rw [hidentity] at hnone
    cases hnone

/-! ### A whole registration -/

theorem Waiting.run {nonce : Bytes NONCE_LEN} {issuedMs : ℕ}
    (h : Waiting config c nonce issuedMs challenge mid s) (hs : s.Steady) {events : List Event}
    (hspares : ∀ e ∈ events, e.Spares c) :
    ∃ mid', Waiting config c nonce issuedMs challenge mid'
        (Machine.run (Server.step P config) s events) ∧
      (mid' = [] ↔ mid = [] ∧
        Along (Server.step P config) (fun s e => ¬ Intrudes config c s e) s events) := by
  induction events generalizing s mid with
  | nil => exact ⟨mid, h, by simp [Along]⟩
  | cons e events ih =>
      obtain ⟨mid₁, h₁, hmid₁⟩ :=
        h.step (P := P) hs.1 (hs.ne_next h.conn) (hspares e List.mem_cons_self)
      obtain ⟨mid', h', hmid'⟩ :=
        ih h₁ (hs.step e) fun e' he' => hspares e' (List.mem_cons_of_mem _ he')
      exact ⟨mid', h', by rw [hmid', hmid₁, Along, and_assoc]⟩

theorem Acknowledged.run (h : Acknowledged config c d challenge mid s) (hs : s.Steady)
    {events : List Event} (hspares : ∀ e ∈ events, e.Spares c) :
    Acknowledged config c d challenge mid (Machine.run (Server.step P config) s events) ∧
      Along (Server.step P config) (fun s e => ¬ Intrudes config c s e) s events := by
  induction events generalizing s with
  | nil => exact ⟨h, trivial⟩
  | cons e events ih =>
      obtain ⟨conn, hconn, -⟩ := h.identity
      obtain ⟨h₁, hnot⟩ :=
        h.step (P := P) (hs.ne_next hconn) (hspares e List.mem_cons_self)
      obtain ⟨h', halong⟩ :=
        ih h₁ (hs.step e) fun e' he' => hspares e' (List.mem_cons_of_mem _ he')
      exact ⟨h', hnot, halong⟩

/-- A registration whose task has made its steps is acknowledged. -/
theorem Registering.run (h : Registering c d left challenge mid s) (hs : s.Steady)
    {events : List Event} (hspares : ∀ e ∈ events, e.Spares c)
    (hadvanced : left ≤ events.countP (Event.advances c)) :
    ∃ mid', Acknowledged config c d challenge mid'
        (Machine.run (Server.step P config) s events) ∧
      (mid' = [] ↔ mid = [] ∧
        Along (Server.step P config) (fun s e => ¬ Intrudes config c s e) s events) := by
  induction events generalizing s mid left with
  | nil =>
      obtain ⟨conn, -, -, hregisters, hleft⟩ := h.task
      rw [List.countP_nil] at hadvanced
      have hzero : conn.task.stepsLeft = 0 := by omega
      cases htask : conn.task with
      | inserting | displacing | acknowledging =>
          rw [htask] at hzero
          cases hzero
      | _ =>
          rw [htask] at hregisters
          cases hregisters
  | cons e events ih =>
      obtain ⟨conn, hconn, -⟩ := h.task
      have hrest : ∀ e' ∈ events, e'.Spares c :=
        fun e' he' => hspares e' (List.mem_cons_of_mem _ he')
      obtain ⟨mid₁, hmid₁, h₁ | h₁⟩ :=
        h.step (P := P) config hs.1 (hs.ne_next hconn) (hspares e List.mem_cons_self)
      · have hfewer : left - (if e.advances c then 1 else 0) ≤
            events.countP (Event.advances c) := by
          rw [List.countP_cons] at hadvanced
          omega
        obtain ⟨mid', h', hmid'⟩ := ih h₁ (hs.step e) hrest hfewer
        exact ⟨mid', h', by rw [hmid', hmid₁, Along, and_assoc]⟩
      · obtain ⟨h', halong⟩ := h₁.run (P := P) (hs.step e) hrest
        exact ⟨mid₁, h', by rw [hmid₁, Along, and_iff_left halong]⟩

end Phases

/-- The call, once it has read these messages. -/
def Client.readAll (identity : Identity P) (config : ClientConfig) (ulid : String)
    (envelopes : List Envelope) : Client :=
  Machine.run (fun call env => call.receive identity config ulid true (.text (.ok env))) new
    envelopes

section Reading

variable {identity : Identity P} {client : ClientConfig} {ulid : String}

/-- What comes after the answer does not change what the call returns. -/
theorem Client.stage_readOn {call : Client} {envelopes : List Envelope}
    (h : (∃ d interval, call.stage = .connected d interval true) ∨ ∃ e, call.stage = .failed e) :
    (Machine.run (fun call env => call.receive identity client ulid true (.text (.ok env))) call
      envelopes).stage = call.stage := by
  induction envelopes generalizing call with
  | nil => rfl
  | cons env envelopes ih =>
      have hstage : (call.receive identity client ulid true (.text (.ok env))).stage =
          call.stage := by
        rcases h with ⟨d, interval, h⟩ | ⟨e, h⟩
        · simp only [receive, nextEnvelope, h]
        · simp only [receive, nextEnvelope, h]
      rw [Machine.run_cons, ih (by rwa [hstage]), hstage]

/-- The acknowledgement right after the challenge. -/
theorem Client.stage_readAll_of_ack (hP : P.Lawful) (nonce : Bytes NONCE_LEN) (id : String)
    (serverTime : ℕ) {env : Envelope} (rest : List Envelope) {d : DeviceId} {interval ttl : UInt32}
    (hmsg : env.msg = .registerAck d interval ttl) :
    (readAll identity client ulid (⟨id, none, .challenge (P.encodeB64 nonce.toList) serverTime⟩ ::
      env :: rest)).stage = .connected d interval true := by
  rw [readAll, Machine.run_cons, Machine.run_cons, receive_challenge hP,
    stage_readOn (.inl ⟨d, interval, ?_⟩)]
  all_goals simp only [receive, nextEnvelope, acknowledged, hmsg]

/-- Anything else right after the challenge. -/
theorem Client.stage_readAll_of_not_answers (hP : P.Lawful) (nonce : Bytes NONCE_LEN) (id : String)
    (serverTime : ℕ) {env : Envelope} (rest : List Envelope) (hmsg : ¬ env.msg.Answers) :
    (readAll identity client ulid (⟨id, none, .challenge (P.encodeB64 nonce.toList) serverTime⟩ ::
      env :: rest)).stage = .failed .noChallenge := by
  have hstage : ((⟨.acknowledging, some nonce, [⟨ulid, none,
      .register (registration identity client nonce)⟩], []⟩ : Client).receive identity client ulid
        true (.text (.ok env))).stage = .failed .noChallenge := by
    simp only [receive, nextEnvelope, acknowledged]
    split
    · next heq => rw [heq] at hmsg; exact absurd trivial hmsg
    · next heq => rw [heq] at hmsg; exact absurd trivial hmsg
    · rfl
  rw [readAll, Machine.run_cons, Machine.run_cons, receive_challenge hP,
    stage_readOn (.inr ⟨_, hstage⟩), hstage]

end Reading

/-- The server takes the call's registration when it comes in time. -/
theorem receive_registration (hP : P.Lawful) (hlimit : 1 ≤ config.rateLimit)
    (identity : Identity P) (client : ClientConfig) (nonce : Bytes NONCE_LEN) {issuedMs nowMs : ℕ}
    (htime : nowMs - issuedMs ≤ NONCE_TTL_MS) (c : ℕ) (ulid : String) :
    ∃ conn, (Conn.new config nonce issuedMs).receive P c (.text (.ok ⟨ulid, none,
        .register (Client.registration identity client nonce)⟩)) nowMs = conn ∧
      conn.identity = none ∧ conn.task =
        .inserting ⟨identity.deviceId, identity.pubkey, client.role, client.popRtt, c⟩ := by
  have hallow : ((RateLimiter.new config.rateLimit config.rateWindowMs).allow nowMs).2 = true := by
    rw [RateLimiter.allow]
    split <;> exact decide_eq_true hlimit
  have hverify : (Challenge.issue nonce issuedMs).verify P
      (Client.registration identity client nonce) nowMs =
        (⟨nonce, issuedMs, true⟩, .ok identity.pubkey) := by
    rw [Challenge.verify, if_pos ⟨rfl, htime⟩]
    exact congrArg (Prod.mk _)
      (Client.registration_answers hP identity client (.issue nonce issuedMs)).check_eq
  rw [Conn.receive, Conn.new]
  dsimp only
  split
  · next limiter hdenied => rw [hdenied] at hallow; cases hallow
  · refine ⟨_, rfl, ?_⟩
    simp only [Conn.handle, Conn.register, hverify]
    exact ⟨trivial, rfl⟩

/-- **An honest registration succeeds, unless somebody intrudes.**  The server accepts a connection;
the device's call answers the challenge within a minute, while other connections do what they like;
the connection sends nothing else, and its task makes its steps.  Then the device is registered.
The call returns a connection for its own id if nothing was put on the queue before the
acknowledgement, and otherwise it fails. -/
theorem registration_completes (hP : P.Lawful) (hlimit : 1 ≤ config.rateLimit)
    (identity : Identity P) (client : ClientConfig) {ulid id : String} {nonce : Bytes NONCE_LEN}
    {issuedMs nowMs : ℕ} (htime : nowMs - issuedMs ≤ NONCE_TTL_MS)
    {earlier waiting registering : List Event} {c : ℕ}
    (hc : (run P config earlier).registry.nextConnId = c) (hwaiting : ∀ e ∈ waiting, e.Spares c)
    (hregistering : ∀ e ∈ registering, e.Spares c)
    (hadvanced : 3 ≤ registering.countP (Event.advances c)) {registration : Envelope}
    (hwritten : registration ∈ (Client.readAll identity client ulid
      [⟨id, none, .challenge (P.encodeB64 nonce.toList) issuedMs⟩]).written)
    {s s' : Server} {events : List Event}
    (hs : s = run P config (earlier ++ [.connect nonce issuedMs id]))
    (hevents : events = waiting ++ .receive c (.text (.ok registration)) nowMs :: registering)
    (hs' : s' = Machine.run (Server.step P config) s events) :
    (∃ conn, s'.conns c = some conn ∧ conn.identity = some identity.deviceId) ∧
      (Along (Server.step P config) (fun s e => ¬ Intrudes config c s e) s events →
        (Client.readAll identity client ulid (s'.queues c).envelopes).stage =
          .connected identity.deviceId config.heartbeatIntervalS true) ∧
      (¬ Along (Server.step P config) (fun s e => ¬ Intrudes config c s e) s events →
        (Client.readAll identity client ulid (s'.queues c).envelopes).stage =
          .failed .noChallenge) := by
  subst hevents hs'
  rw [Client.readAll, Machine.run_cons, Machine.run_nil, Client.receive_challenge hP,
    List.mem_singleton] at hwritten
  subst hwritten
  have hsteady : s.Steady := by
    rw [hs]
    exact steady_run _
  have hwait : Waiting config c nonce issuedMs
      ⟨id, none, .challenge (P.encodeB64 nonce.toList) issuedMs⟩ [] s := by
    rw [hs, run_snoc]
    subst hc
    exact ⟨⟨Function.update_self .., fun _ h => by cases h⟩, Function.update_self ..⟩
  obtain ⟨mid₁, h₁, hmid₁⟩ := hwait.run (P := P) hsteady hwaiting
  have hsteady₁ : (Machine.run (Server.step P config) s waiting).Steady :=
    Machine.run_invariant Server.Steady (fun _ e h => h.step e) hsteady waiting
  generalize hread : Machine.run (Server.step P config) s waiting = t at h₁ hsteady₁
  -- The registration is read, and shared state stays as it is.
  obtain ⟨conn, hreceive, hidentity, htask⟩ :=
    receive_registration hP hlimit identity client nonce htime c ulid
  have hstep : t.step P config (.receive c (.text (.ok ⟨ulid, none,
      .register (Client.registration identity client nonce)⟩)) nowMs) = t.setConn c conn := by
    rw [Server.step_receive h₁.conn rfl, hreceive]
  have hregistering' : Registering c identity.deviceId 3
      ⟨id, none, .challenge (P.encodeB64 nonce.toList) issuedMs⟩ mid₁ (t.setConn c conn) :=
    ⟨⟨h₁.queue, h₁.silent⟩, conn, Server.setConn_conns_self, hidentity, by rw [htask]; rfl,
      by rw [htask]; exact le_rfl⟩
  have hsteady₂ : (t.setConn c conn).Steady := by
    rw [← hstep]
    exact hsteady₁.step _
  obtain ⟨mid', hacked, hmid'⟩ := hregistering'.run (P := P) hsteady₂ hregistering hadvanced
  have halong : mid' = [] ↔ Along (Server.step P config) (fun s e => ¬ Intrudes config c s e) s
      (waiting ++ .receive c (.text (.ok ⟨ulid, none,
        .register (Client.registration identity client nonce)⟩)) nowMs :: registering) := by
    have hquiet : ¬ Intrudes config c t (.receive c (.text (.ok ⟨ulid, none,
        .register (Client.registration identity client nonce)⟩)) nowMs) := by
      rintro ⟨-, env, hsend, -⟩
      cases hsend
    rw [hmid', hmid₁, along_append, hread, Along, hstep, and_iff_right rfl, and_iff_right hquiet]
  rw [Machine.run_append, hread, Machine.run_cons, hstep, ← halong]
  obtain ⟨⟨ackId, rest, hqueue⟩, hsilent, conn', hconn', hid', -⟩ := hacked
  refine ⟨⟨conn', hconn', hid'⟩, ?_, ?_⟩
  · rintro rfl
    rw [hqueue, List.nil_append]
    exact Client.stage_readAll_of_ack hP nonce id issuedMs rest rfl
  · intro hmid
    obtain ⟨env, envs, rfl⟩ := List.exists_cons_of_ne_nil hmid
    rw [hqueue, List.cons_append]
    exact Client.stage_readAll_of_not_answers hP nonce id issuedMs _ (hsilent env (by simp))

/-! ### A registration that is raced -/

namespace Sample

/-- The server has accepted a connection of the device. -/
def greeted : Server := run .sample oneShard ([] ++ [.connect nonce 0 ""])

/-- Another socket of the device registers at the same time.  It finds the first one's entry, and
has a notice sent to it before it is acknowledged. -/
def race : List Event :=
  [.connect nonce 0 "", .receive 1 (.text (.ok answer)) 0] ++
    .receive 0 (.text (.ok answer)) 0 :: [next 0, next 1, next 1, next 0, next 0]

theorem race_intrudes :
    ¬ Along (Server.step .sample oneShard) (fun s e => ¬ Intrudes oneShard 0 s e) greeted race := by
  have htime : 0 - 0 ≤ NONCE_TTL_MS := Nat.zero_le _
  have hlimit : 1 ≤ oneShard.rateLimit := by decide
  obtain ⟨⟨challenge, limiter, _, _⟩, hreceive, rfl, rfl⟩ :=
    receive_registration Primitives.sample_lawful hlimit identity clientConfig nonce htime 0 ""
  obtain ⟨⟨challenge', limiter', _, _⟩, hreceive', rfl, rfl⟩ :=
    receive_registration Primitives.sample_lawful hlimit identity clientConfig nonce htime 1 ""
  have hread : (Conn.new oneShard nonce 0).task = .reading := rfl
  have hconnect : greeted.step .sample oneShard (.connect nonce 0 "") =
      ⟨⟨∅, ∅, 2⟩, Function.update (Function.update (fun _ => none) 0
        (some (.new oneShard nonce 0))) 1 (some (.new oneShard nonce 0)),
        (greeted.step .sample oneShard (.connect nonce 0 "")).queues⟩ := rfl
  intro h
  -- The second step of the other connection's task.
  apply h.2.2.2.2.2.1
  clear h
  rw [hconnect]
  generalize (greeted.step .sample oneShard (.connect nonce 0 "")).queues = queues
  change Conn.receive _ _ _ (.text (.ok answer)) _ = _ at hreceive hreceive'
  generalize answer = answer at hreceive hreceive' ⊢
  generalize identity = identity at hreceive hreceive' ⊢
  simp [Intrudes, Server.step, Server.setConn, hread, hreceive, hreceive', next, Conn.act,
    Registry.get, Registry.register, Server.apply, Server.effect, Message.Answers,
    -AList.insert_empty]

end Sample

/-- The device is registered, and its call fails. -/
theorem registration_raced :
    (∃ conn, (Machine.run (Server.step .sample Sample.oneShard) Sample.greeted Sample.race).conns 0 =
      some conn ∧ conn.identity = some Sample.identity.deviceId) ∧
    (Client.readAll Sample.identity Sample.clientConfig ""
      ((Machine.run (Server.step .sample Sample.oneShard) Sample.greeted Sample.race).queues
        0).envelopes).stage = .failed .noChallenge := by
  have hwritten : Sample.answer ∈ (Client.readAll Sample.identity Sample.clientConfig ""
      [⟨"", none, .challenge (Primitives.sample.encodeB64 Sample.nonce.toList) 0⟩]).written := by
    rw [Client.readAll, Machine.run_cons, Machine.run_nil,
      Client.receive_challenge Primitives.sample_lawful]
    exact List.mem_singleton.2 rfl
  have hwaiting : ∀ e ∈ [Event.connect Sample.nonce 0 "", .receive 1 (.text (.ok Sample.answer)) 0],
      e.Spares 0 := by
    simp [Event.Spares]
  have hregistering : ∀ e ∈ [Sample.next 0, Sample.next 1, Sample.next 1, Sample.next 0,
      Sample.next 0], e.Spares 0 := by
    simp [Event.Spares, Sample.next]
  have htime : 0 - 0 ≤ NONCE_TTL_MS := Nat.zero_le _
  have hfirst : (run .sample Sample.oneShard []).registry.nextConnId = 0 := rfl
  have hgreeted : Sample.greeted =
      run .sample Sample.oneShard ([] ++ [.connect Sample.nonce 0 ""]) := rfl
  have hrace : Sample.race = [.connect Sample.nonce 0 "", .receive 1 (.text (.ok Sample.answer)) 0] ++
      .receive 0 (.text (.ok Sample.answer)) 0 :: [Sample.next 0, Sample.next 1, Sample.next 1,
        Sample.next 0, Sample.next 0] := rfl
  obtain ⟨hregistered, -, hfails⟩ := registration_completes Primitives.sample_lawful
    (by decide) Sample.identity Sample.clientConfig htime hfirst hwaiting hregistering (by decide)
    hwritten hgreeted hrace rfl
  exact ⟨hregistered, hfails Sample.race_intrudes⟩

end Signal

end Rda
