/-
**A host's refusal.**

A connect response names its session in its body, and the body of a refusal names none.  So the
server answers a refusal with an error, forwards nothing and keeps the session: whatever else
happens meanwhile, the controller is not told, and what it goes on to send still reaches the host.

Main definitions:

* `Rda.Signal.ForwardsResponse` — a step puts a connect response on some queue;
* `Rda.Signal.Task.Answering` — the tasks that cannot.

Main results:

* `Rda.Signal.refusal_never_forwarded` — **no refusal reaches a controller or ends a session**;
* `Rda.Signal.refusal_lost` — a refused controller whose offer still reaches the host.
-/

import Rda.SignalPresence

set_option relaxedAutoImplicit false
set_option autoImplicit false

namespace Rda

namespace Signal

open Machine

variable {P : Primitives} {config : Config}

/-! ### One connection between two frames -/

/-- The event is not a frame of this connection. -/
def NotFrameOf (c : ℕ) (e : Event) : Prop := ∀ frame nowMs, e ≠ .receive c frame nowMs

/-- What every step of a task keeps of its program counter holds of it until the next frame,
whatever other connections do. -/
theorem task_until_frame {good : Task → Prop} {c : ℕ}
    (hact : ∀ s (conn : Conn) draw, good conn.task → good (conn.act config s c draw).1.task)
    {events : List Event} {conn : Conn} (hc : (run P config events).conns c = some conn)
    (hgood : good conn.task) (later : List Event) (hlater : ∀ e ∈ later, NotFrameOf c e) :
    ∃ conn', (run P config (events ++ later)).conns c = some conn' ∧ good conn'.task := by
  induction later using List.reverseRec with
  | nil => exact ⟨conn, by rwa [List.append_nil], hgood⟩
  | append_singleton later e ih =>
      obtain ⟨conn', hc', hgood'⟩ := ih fun e he => hlater e (List.mem_append_left _ he)
      have hinv : Inv P config (events ++ later) (run P config (events ++ later)) := inv_run _
      rw [← List.append_assoc, run_snoc]
      obtain ⟨conn'', hc''⟩ := Server.exists_step_conns P config hc' e
      refine ⟨conn'', hc'', ?_⟩
      rcases Server.of_step_conns hc'' with ⟨hold, -⟩ | ⟨_, _, _, -, rfl, -⟩ |
        ⟨_, frame, nowMs, rfl, -⟩ | ⟨conn₀, draw, rfl, hc₀, rfl⟩
      · obtain rfl := Option.some.inj (hc'.symm.trans hold)
        exact hgood'
      · rw [hinv.fresh _ le_rfl] at hc'
        cases hc'
      · exact absurd rfl (hlater _ (List.mem_append_right _ List.mem_cons_self) frame nowMs)
      · obtain rfl := Option.some.inj (hc'.symm.trans hc₀)
        exact hact _ conn' draw hgood'

/-! ### What a refusal starts -/

/-- The step puts a connect response on some queue. -/
def ForwardsResponse (config : Config) (s : Server) (e : Event) : Prop :=
  ∃ k env response, s.effect config e = .send k env ∧ env.msg = .connectResponse response

/-- Answering with an error, reading, or tearing the connection down. -/
def Task.Answering : Task → Prop
  | .reading | .replying (.error _) _ | .looking _ | .removing _ | .listing .. | .departing ..
  | .closing .. | .gone => True
  | _ => False

/-- Answering with an error and going on, or reading. -/
def Task.Correcting : Task → Prop
  | .reading | .replying (.error _) false => True
  | _ => False

variable {c : ℕ} {conn : Conn}

theorem act_answering (s : Server) (draw : Draw) (h : conn.task.Answering) :
    (conn.act config s c draw).1.task.Answering ∧
      ∀ k env response, (conn.act config s c draw).2 = .send k env →
        env.msg ≠ .connectResponse response := by
  cases htask : conn.task with
  | reading | gone =>
      simp only [Conn.act, htask]
      exact ⟨trivial, by simp⟩
  | replying msg close =>
      rw [htask] at h
      cases msg with
      | error payload =>
          simp only [Conn.act, htask]
          refine ⟨?_, by rintro k env response ⟨⟩; simp⟩
          cases close with
          | false => trivial
          | true =>
              simp only [Conn.leave, if_true]
              split <;> trivial
      | _ => exact h.elim
  | looking d =>
      simp only [Conn.act, htask]
      split
      · refine ⟨?_, by simp⟩
        dsimp only
        split <;> trivial
      · exact ⟨trivial, by simp⟩
  | removing | closing =>
      simp only [Conn.act, htask]
      exact ⟨trivial, by simp⟩
  | listing d shard found =>
      simp only [Conn.act, htask]
      split
      · split
        · exact ⟨trivial, by simp⟩
        · exact ⟨by simp only [htask]; trivial, by simp⟩
      · exact ⟨trivial, by simp⟩
  | departing d sessions =>
      cases sessions with
      | nil =>
          simp only [Conn.act, htask]
          exact ⟨trivial, by simp⟩
      | cons session sessions =>
          simp only [Conn.act, htask]
          refine ⟨trivial, ?_⟩
          split
          · rintro k env response ⟨⟩
            simp
          · simp
  | inserting | displacing | acknowledging | resolving | creating | measuring | requesting
  | crediting | creditingHost | routing | sending | ending =>
      rw [htask] at h
      exact h.elim

theorem act_correcting (s : Server) (draw : Draw) (h : conn.task.Correcting) :
    (conn.act config s c draw).1.task.Correcting ∧
      ∀ id, (conn.act config s c draw).2 ≠ .removeSession id := by
  cases htask : conn.task with
  | reading =>
      simp only [Conn.act, htask]
      exact ⟨trivial, by simp⟩
  | replying msg close =>
      rw [htask] at h
      cases close with
      | false =>
          simp only [Conn.act, htask]
          exact ⟨trivial, by simp⟩
      | true => cases msg <;> exact h.elim
  | _ =>
      rw [htask] at h
      exact h.elim

/-- A host's refusal is answered with an error, or the limiter closes the connection. -/
theorem receive_refusal {host : DeviceId} (hid : conn.identity = some host)
    {env : Envelope} {status : ConnectStatus} {reason : Option String}
    (hmsg : env.msg = .connectResponse (.refuse status reason)) (nowMs : ℕ) :
    (conn.receive P c (.text (.ok env)) nowMs).task.Answering ∧
      ((conn.limiter.allow nowMs).2 = true →
        (conn.receive P c (.text (.ok env)) nowMs).task.Correcting) := by
  simp only [Conn.receive]
  split
  · rename_i heq
    exact ⟨trivial, by rw [heq]; simp⟩
  · simp only [Conn.handle, hid, hmsg, Conn.connectResponse, ConnectResponse.refuse]
    exact ⟨trivial, fun _ => trivial⟩

/-- **A refusal never reaches the controller.**  Whatever state the server is in when a registered
host sends one, with whatever session, and whatever other connections do until the host's next
frame: no step of the host's connection puts a connect response on any queue, and, unless the
limiter closes the connection, none ends a session. -/
theorem refusal_never_forwarded {events : List Event} {host : DeviceId} {env : Envelope}
    {status : ConnectStatus} {reason : Option String} {nowMs : ℕ} {later : List Event}
    (hc : (run P config events).conns c = some conn) (hread : conn.task = .reading)
    (hid : conn.identity = some host)
    (hmsg : env.msg = .connectResponse (.refuse status reason))
    (hlater : ∀ e ∈ later, NotFrameOf c e) :
    (∀ draw, ¬ ForwardsResponse config
      (run P config (events ++ [.receive c (.text (.ok env)) nowMs] ++ later))
      (.advance c draw)) ∧
    ((conn.limiter.allow nowMs).2 = true → ∀ draw id,
      (run P config (events ++ [.receive c (.text (.ok env)) nowMs] ++ later)).effect config
        (.advance c draw) ≠ .removeSession id) := by
  obtain ⟨hanswering, hcorrecting⟩ := receive_refusal (P := P) (c := c) hid hmsg nowMs
  have hc' : (run P config (events ++ [.receive c (.text (.ok env)) nowMs])).conns c =
      some (conn.receive P c (.text (.ok env)) nowMs) := by
    rw [run_snoc, Server.step_receive hc hread, Server.setConn_conns_self]
  constructor
  · rintro draw ⟨k, sent, response, heffect, hsent⟩
    obtain ⟨conn', hconn', htask⟩ := task_until_frame
      (fun s conn draw h => (act_answering s draw h).1) hc' hanswering later hlater
    rw [Server.effect_advance hconn'] at heffect
    exact (act_answering _ draw htask).2 k sent response heffect hsent
  · intro hallow draw id
    obtain ⟨conn', hconn', htask⟩ := task_until_frame
      (fun s conn draw h => (act_correcting s draw h).1) hc' (hcorrecting hallow) later hlater
    rw [Server.effect_advance hconn']
    exact (act_correcting _ draw htask).2 id

namespace Sample

/-- A host, the connection `0`, is dialled by a controller, the connection `1`. -/
def dialled : List Event :=
  hello 0 hostRegistration ++ [next 0, next 0] ++
    hello 1 controllerRegistration ++ [next 1, next 1] ++
    [send 1 none (.connectRequest ⟨host, "", none, .pin, none, []⟩)] ++
    List.replicate 6 (next 1)

/-- The session the two are in. -/
def session : Session := ⟨"sess_", controller, host, 0⟩

/-- The host's refusal. -/
def refusal : Envelope :=
  ⟨"", some session.id, .connectResponse (.refuse .rejected (some "declined"))⟩

/-- The host refuses, and the server is done with it. -/
def refused : List Event := dialled ++ [.receive 0 (.text (.ok refusal)) 0, next 0]

/-- The controller offers all the same. -/
def offered : List Event :=
  refused ++ [send 1 (some session.id) (.offer (.plain "v=0"))] ++ [next 1, next 1]

theorem dialled_host : ∃ conn, (run libraries oneShard dialled).conns 0 = some conn ∧
    conn.task = .reading ∧ conn.identity = some session.host ∧
    (conn.limiter.allow 0).2 = true := by
  have h : ((run libraries oneShard dialled).conns 0).map
      (fun conn => (conn.task, conn.identity, (conn.limiter.allow 0).2)) =
        some (.reading, some session.host, true) := by decide +kernel
  obtain ⟨conn, hconn, heq⟩ := Option.map_eq_some_iff.1 h
  simp only [Prod.mk.injEq] at heq
  exact ⟨conn, hconn, heq⟩

end Sample

/-- A host in a live session refuses, and nothing of it is passed on. -/
theorem refusal_never_forwarded_rejected :
    (run Sample.libraries Sample.oneShard Sample.dialled).registry.session Sample.session.id =
        some Sample.session ∧
      ∀ draw, ¬ ForwardsResponse Sample.oneShard (run Sample.libraries Sample.oneShard
        (Sample.dialled ++ [.receive 0 (.text (.ok Sample.refusal)) 0] ++ [Sample.next 1]))
        (.advance 0 draw) := by
  refine ⟨by decide +kernel, ?_⟩
  obtain ⟨conn, hc, hread, hid, -⟩ := Sample.dialled_host
  refine (refusal_never_forwarded hc hread hid rfl ?_).1
  rintro e he frame nowMs rfl
  cases List.mem_singleton.1 he

/-- The message is a connect response. -/
def Message.isConnectResponse : Message → Bool
  | .connectResponse _ => true
  | _ => false

/-- **A refusal is lost.**  The host has refused and its connection reads on; the controller has not
been sent a connect response, the session is live, and the controller's offer is on the host's
queue. -/
theorem refusal_lost :
    ((run Sample.libraries Sample.oneShard Sample.refused).conns 0).map Conn.task = some .reading ∧
      (∀ env ∈ ((run Sample.libraries Sample.oneShard Sample.refused).queues 1).envelopes,
        ∀ response, env.msg ≠ .connectResponse response) ∧
      (run Sample.libraries Sample.oneShard Sample.refused).registry.session Sample.session.id =
        some Sample.session ∧
      ∃ env ∈ ((run Sample.libraries Sample.oneShard Sample.offered).queues 0).envelopes,
        env.sid = some Sample.session.id ∧ env.msg = .offer (.plain "v=0") := by
  refine ⟨by decide +kernel, ?_, by decide +kernel, by decide +kernel⟩
  have hnone : ((run Sample.libraries Sample.oneShard Sample.refused).queues 1).envelopes.all
      (fun env => !env.msg.isConnectResponse) = true := by
    decide +kernel
  intro env hmem response hmsg
  have hall := List.all_eq_true.1 hnone env hmem
  rw [hmsg] at hall
  cases hall

end Signal

end Rda
