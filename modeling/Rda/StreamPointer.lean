/-
**Pointer positions that arrive out of order.**

The controller numbers its pointer moves, and the channel they travel on loses, repeats and reorders
them.  The streaming loop hands every move to the injector without a look at its number, and so a
position that is older than the pointer's takes the pointer back.

Main definitions:

* `Rda.Move`, `Rda.Move.frame` — a pointer move, and its frame under a number;
* `Rda.Pointer` — the injector with the numbers of the moves delivered and of those passed on;
* `Rda.Pointer.NewestWins` — the moves passed on are in order, and the last one is the newest;
* `Rda.Pointer.InOrder` — the guards let a move through exactly when it is newer than all before.

Main results:

* `Rda.Pointer.newestWins_iff_inOrder` — **the newest position wins** all along a run of the loop
  exactly when every delivery is in order.
-/

import Rda.InjectorGuards
import Rda.Stream

set_option relaxedAutoImplicit false
set_option autoImplicit false

namespace Rda

/-- A pointer move of the controller. -/
structure Move where
  displayId : UInt8
  flags : UInt8
  xNorm : UInt16
  yNorm : UInt16
  modifiers : UInt16
  timestampMs : UInt32

namespace Move

/-- What the frame of the move carries. -/
def payload (m : Move) : Payload := .mouseMove m.displayId m.flags m.xNorm m.yNorm m.modifiers

/-- The frame of the move, if it is the `i`-th one. -/
def frame (m : Move) (i : ℕ) : ControlFrame := .new m.payload (.ofNat i) m.timestampMs

/-- The place the move asks for. -/
def place (m : Move) (inj : Injector) : Option (Int32 × Int32) :=
  (inj.display m.displayId).map fun geom => geom.denormalise m.xNorm m.yNorm

end Move

namespace Injector

/-- Whether a call moves the pointer to a place. -/
def movesTo : BackendCall → Option (Int32 × Int32)
  | .pointerAbsolute x y => some (x, y)
  | _ => none

/-- The place the pointer was last moved to. -/
def position (inj : Injector) : Option (Int32 × Int32) :=
  inj.backend.log.foldl (fun pos e => (movesTo e.call).or pos) none

/-- The pointer was moved between two states of the injector. -/
def movedSince (inj inj' : Injector) : Bool :=
  (inj'.backend.log.drop inj.backend.log.length).any fun e => (movesTo e.call).isSome

variable {inj : Injector} {grant : SessionGrant} {m : Move} {nowMs i : ℕ}

/-- Counting the event does not touch the log. -/
theorem log_final_guarded (c : BackendCall) (field : String) (inj : Injector) :
    (Program.final (do guarded c field; modify countInjected : Inject GuardError Unit)
      inj).backend.log = (inj.calling c).backend.log := by
  have hfinal : Program.final (guarded c field) inj = inj.calling c := final_attempt inj c _
  rcases Program.final_bind (guarded c field) (fun _ => modify countInjected) inj with
    ⟨e, -, h⟩ | ⟨_, -, h⟩
  · rw [h, hfinal]
  · rw [h, hfinal]
    rfl

/-- What a move that the guards let through makes of the log, whatever the backend answers. -/
theorem log_of_move (hpass : inj.Passes grant m.payload nowMs) :
    ∃ made x y keys ok, m.place inj = some (x, y) ∧
      (∀ e ∈ made, ∃ usage, e.call = .key usage false) ∧
      (inj.step (.apply grant (m.frame i) nowMs)).backend.log
        = inj.backend.log ++ made ++ [⟨.pointerAbsolute x y, keys, ok⟩] := by
  obtain ⟨geom, hgeom⟩ := Option.isSome_iff_exists.1 hpass.fields
  have hswept := sweeping_swept (inj.rated .pointer nowMs) m.modifiers
  obtain ⟨made, hlog, hmade⟩ := hswept.log
  have hfinal : Program.final (carryOut m.payload) (inj.rated .pointer nowMs) = Program.final (do
      guarded (.pointerAbsolute (geom.denormalise m.xNorm m.yNorm).1
        (geom.denormalise m.xNorm m.yNorm).2) "pointer"
      modify countInjected : Inject GuardError Unit)
        ((inj.rated .pointer nowMs).swept m.modifiers) := by
    refine (Program.final_bind_of_ok (run_requireDisplay
      (show (inj.rated .pointer nowMs).display m.displayId = some geom from hgeom))).trans ?_
    exact Program.final_bind_of_ok (run_syncModifiers_any _ m.modifiers)
  obtain ⟨ok, hcall⟩ := log_calling ((inj.rated .pointer nowMs).swept m.modifiers)
    (.pointerAbsolute (geom.denormalise m.xNorm m.yNorm).1 (geom.denormalise m.xNorm m.yNorm).2)
  refine ⟨made, (geom.denormalise m.xNorm m.yNorm).1, (geom.denormalise m.xNorm m.yNorm).2,
    ((inj.rated .pointer nowMs).swept m.modifiers).keys, ok, ?_, hmade, ?_⟩
  · rw [Move.place, hgeom]
    rfl
  · rw [final_apply_of_passes hpass rfl]
    change (Program.final (carryOut m.payload) (inj.rated .pointer nowMs)).backend.log = _
    rw [hfinal, log_final_guarded, hcall, hlog]
    rfl

theorem position_of_move (hpass : inj.Passes grant m.payload nowMs) :
    (inj.step (.apply grant (m.frame i) nowMs)).position = m.place inj := by
  obtain ⟨made, x, y, keys, ok, hplace, hmade, hlog⟩ := log_of_move (i := i) hpass
  rw [position, hlog, List.foldl_append, hplace]
  rfl

theorem movedSince_of_move (hpass : inj.Passes grant m.payload nowMs) :
    inj.movedSince (inj.step (.apply grant (m.frame i) nowMs)) = true := by
  obtain ⟨made, x, y, keys, ok, -, -, hlog⟩ := log_of_move (i := i) hpass
  rw [movedSince, hlog, List.append_assoc, List.drop_left, List.any_append]
  simp [movesTo]

theorem log_of_not_passes (hpass : ¬ inj.Passes grant m.payload nowMs) :
    (inj.step (.apply grant (m.frame i) nowMs)).backend.log = inj.backend.log := by
  rw [step_apply_of_not_passes hpass]

theorem displays_of_move : (inj.step (.apply grant (m.frame i) nowMs)).displays = inj.displays := by
  have hstable : Stable fun s => s.displays = inj.displays :=
    ⟨fun _ _ h => h, fun _ _ h => h, fun _ _ h => h, fun _ _ _ h => h⟩
  exact keeps_apply hstable (fun _ _ _ h => h) inj rfl

end Injector

/-! ### Deliveries -/

/-- The injector, the moves that were delivered and the moves that were passed on to the machine. -/
structure Pointer where
  injector : Injector
  delivered : List ℕ := []
  applied : List ℕ := []

namespace Pointer

variable (grant : SessionGrant) (moves : ℕ → Move)

/-- Delivers the `d.1`-th move at the time `d.2`. -/
def step (p : Pointer) (d : ℕ × ℕ) : Pointer :=
  let injector := p.injector.hear grant ((moves d.1).frame d.1, d.2)
  { injector := injector
    delivered := p.delivered ++ [d.1]
    applied := if p.injector.movedSince injector then p.applied ++ [d.1] else p.applied }

/-- Every move that was passed on was newer than those before, the last one is the newest that was
delivered, and its place is the place of the pointer. -/
structure NewestWins (p : Pointer) : Prop where
  increasing : p.applied.Pairwise (· < ·)
  newest : p.applied.getLast? = p.delivered.max?
  position : p.injector.position = p.delivered.max?.bind fun i => (moves i).place p.injector

/-- The guards let the move through exactly when it is newer than every move delivered before. -/
def InOrder (p : Pointer) (d : ℕ × ℕ) : Prop :=
  p.injector.Passes grant (moves d.1).payload d.2 ↔ ∀ j ∈ p.delivered, j < d.1

variable {grant moves} {p : Pointer} {d : ℕ × ℕ}

theorem step_of_passes (h : p.injector.Passes grant (moves d.1).payload d.2) :
    (p.step grant moves d).applied = p.applied ++ [d.1] :=
  if_pos (Injector.movedSince_of_move h)

theorem step_of_not_passes (h : ¬ p.injector.Passes grant (moves d.1).payload d.2) :
    (p.step grant moves d).applied = p.applied ∧
      (p.step grant moves d).injector.position = p.injector.position := by
  have hlog : (p.step grant moves d).injector.backend.log = p.injector.backend.log :=
    Injector.log_of_not_passes h
  refine ⟨if_neg ?_, ?_⟩
  · change ¬ p.injector.movedSince (p.step grant moves d).injector = true
    rw [Injector.movedSince, hlog, List.drop_length]
    exact Bool.false_ne_true
  · rw [Injector.position, hlog, Injector.position]

theorem place_step (i : ℕ) :
    (moves i).place (p.step grant moves d).injector = (moves i).place p.injector := by
  have hdisplays : (p.step grant moves d).injector.displays = p.injector.displays :=
    Injector.displays_of_move
  rw [Move.place, Injector.display, hdisplays]
  rfl

/-- A number that is larger than all of a list is the largest of the longer list. -/
theorem max?_concat_of_lt {l : List ℕ} {i : ℕ} (h : ∀ j ∈ l, j < i) : (l ++ [i]).max? = some i := by
  rw [List.max?_eq_some_iff]
  refine ⟨List.mem_concat_self, ?_⟩
  intro j hj
  rcases List.mem_append.1 hj with hj | hj
  · exact (h j hj).le
  · exact (List.mem_singleton.1 hj).le

/-- A number that is not leaves the largest as it is. -/
theorem max?_concat_of_le {l : List ℕ} {i j : ℕ} (hj : j ∈ l) (h : i ≤ j) :
    (l ++ [i]).max? = l.max? := by
  obtain ⟨m, hm⟩ := Option.isSome_iff_exists.1 (List.isSome_max?_of_mem hj)
  obtain ⟨hmem, hle⟩ := List.max?_eq_some_iff.1 hm
  rw [hm, List.max?_eq_some_iff]
  refine ⟨List.mem_append_left _ hmem, ?_⟩
  intro k hk
  rcases List.mem_append.1 hk with hk | hk
  · exact hle k hk
  · rw [List.mem_singleton.1 hk]
    exact h.trans (hle j hj)

/-- The newest wins, and only what was delivered was passed on. -/
def Inv (moves : ℕ → Move) (p : Pointer) : Prop :=
  p.NewestWins moves ∧ p.applied ⊆ p.delivered

theorem inv_step_of_newer (h : Inv moves p)
    (hpass : p.injector.Passes grant (moves d.1).payload d.2) (hnew : ∀ j ∈ p.delivered, j < d.1) :
    Inv moves (p.step grant moves d) := by
  obtain ⟨⟨hinc, -, -⟩, hsub⟩ := h
  have hdelivered : (p.step grant moves d).delivered = p.delivered ++ [d.1] := rfl
  have happlied := step_of_passes hpass
  refine ⟨⟨?_, ?_, ?_⟩, ?_⟩
  · rw [happlied, List.pairwise_append]
    refine ⟨hinc, List.pairwise_singleton _ _, ?_⟩
    intro a ha b hb
    rw [List.mem_singleton.1 hb]
    exact hnew a (hsub ha)
  · rw [happlied, hdelivered, max?_concat_of_lt hnew, List.getLast?_concat]
  · rw [hdelivered, max?_concat_of_lt hnew, Option.bind_some, place_step]
    exact Injector.position_of_move hpass
  · rw [happlied, hdelivered]
    exact List.append_subset.2 ⟨fun a ha => List.mem_append_left _ (hsub ha),
      List.subset_append_right _ _⟩

theorem inv_step_of_older (h : Inv moves p)
    (hpass : ¬ p.injector.Passes grant (moves d.1).payload d.2) {j : ℕ} (hj : j ∈ p.delivered)
    (hold : d.1 ≤ j) : Inv moves (p.step grant moves d) := by
  obtain ⟨⟨hinc, hnewest, hposition⟩, hsub⟩ := h
  have hdelivered : (p.step grant moves d).delivered = p.delivered ++ [d.1] := rfl
  obtain ⟨happlied, hstays⟩ := step_of_not_passes hpass
  refine ⟨⟨?_, ?_, ?_⟩, ?_⟩
  · rw [happlied]
    exact hinc
  · rw [happlied, hdelivered, max?_concat_of_le hj hold]
    exact hnewest
  · rw [hstays, hdelivered, max?_concat_of_le hj hold, hposition]
    simp only [place_step]
  · rw [happlied, hdelivered]
    exact fun a ha => List.mem_append_left _ (hsub ha)

/-- A move that is out of order breaks the rule at once: either it was passed on although it is not
the newest, or it is the newest and was held back. -/
theorem not_newestWins_step (h : Inv moves p) (hbad : ¬ p.InOrder grant moves d) :
    ¬ (p.step grant moves d).NewestWins moves := by
  obtain ⟨⟨-, hnewest, -⟩, hsub⟩ := h
  rintro ⟨hinc', hnewest', -⟩
  have hdelivered : (p.step grant moves d).delivered = p.delivered ++ [d.1] := rfl
  by_cases hpass : p.injector.Passes grant (moves d.1).payload d.2
  · have hold : ¬ ∀ j ∈ p.delivered, j < d.1 := fun hnew => hbad (iff_of_true hpass hnew)
    rw [step_of_passes hpass] at hinc' hnewest'
    rw [hdelivered, List.getLast?_concat] at hnewest'
    obtain ⟨-, hle⟩ := List.max?_eq_some_iff.1 hnewest'.symm
    simp only [not_forall, not_lt] at hold
    obtain ⟨j, hj, hdj⟩ := hold
    have hjd : j = d.1 := le_antisymm (hle j (List.mem_append_left _ hj)) hdj
    -- The same move was passed on before.
    have hlast : p.applied.getLast? = some d.1 := by
      rw [hnewest, List.max?_eq_some_iff]
      exact ⟨hjd ▸ hj, fun k hk => hle k (List.mem_append_left _ hk)⟩
    exact lt_irrefl _ ((List.pairwise_append.1 hinc').2.2 d.1 (List.mem_of_getLast? hlast) d.1
      List.mem_cons_self)
  · have hnew : ∀ j ∈ p.delivered, j < d.1 := by
      by_contra hold
      exact hbad (iff_of_false hpass hold)
    rw [(step_of_not_passes hpass).1, hdelivered, max?_concat_of_lt hnew] at hnewest'
    exact lt_irrefl _ (hnew d.1 (hsub (List.mem_of_getLast? hnewest')))

theorem inv_step (h : Inv moves p) (hgood : p.InOrder grant moves d) :
    Inv moves (p.step grant moves d) := by
  by_cases hpass : p.injector.Passes grant (moves d.1).payload d.2
  · exact inv_step_of_newer h hpass (hgood.1 hpass)
  · have hold : ¬ ∀ j ∈ p.delivered, j < d.1 := fun hnew => hpass (hgood.2 hnew)
    simp only [not_forall, not_lt] at hold
    obtain ⟨j, hj, hdj⟩ := hold
    exact inv_step_of_older h hpass hj hdj

theorem injector_run (p : Pointer) (ds : List (ℕ × ℕ)) :
    (Machine.run (step grant moves) p ds).injector = Machine.run (Injector.hear grant) p.injector
      (ds.map fun d => ((moves d.1).frame d.1, d.2)) := by
  induction ds generalizing p with
  | nil => rfl
  | cons d ds ih => exact ih (p.step grant moves d)

/-- **The newest position.**  Whatever the session, the transport, the backend and the turns: if the
input frames that arrive are pointer moves, each under its number, then the newest position wins at
every point of the run exactly when every delivery is in order.  The loop compares no numbers, so
that a move which is not the newest is held back only if the budget is exhausted or its display is
not shared. -/
theorem newestWins_iff_inOrder (config : StreamConfig) (answers : ℕ → Except BackendError Unit)
    (display : DisplayGeometry) (moves : ℕ → Move) (turns : List Stream.Turn) (ds : List (ℕ × ℕ))
    (h : (Machine.run (Stream.step config) (Stream.start (.new answers) display) turns).heard
      = ds.map fun d => ((moves d.1).frame d.1, d.2)) :
    (Machine.run (step config.grant moves) ⟨.new (.new answers) [display], [], []⟩ ds).injector
        = (Machine.run (Stream.step config) (Stream.start (.new answers) display) turns).injector ∧
      ((∀ js, js <+: ds → (Machine.run (step config.grant moves)
          ⟨.new (.new answers) [display], [], []⟩ js).NewestWins moves) ↔
        Machine.Along (step config.grant moves) (InOrder config.grant moves)
          ⟨.new (.new answers) [display], [], []⟩ ds) := by
  refine ⟨?_, ?_⟩
  · rw [injector_run, Stream.injector_run, h]
  · refine Machine.forall_prefix_iff_along (Inv moves) (NewestWins moves) (fun _ h => h.1)
      (fun _ _ => inv_step) (fun _ _ => not_newestWins_step) ⟨⟨?_, ?_, ?_⟩, ?_⟩ ds
    · exact List.Pairwise.nil
    · rfl
    · rfl
    · exact List.Subset.refl _

/-- Moves to the right, one after the other. -/
def Sample.move (i : ℕ) : Move := ⟨0, 0, .ofNat (1000 * i), 0, 0, .ofNat i⟩

/-- A turn in which moves arrive. -/
def Sample.turn (is : List ℕ) : Stream.Turn :=
  Stream.Sample.turn (is.map fun i => some (.frame .inputPointer ((Sample.move i).frame i)))

/-- Two moves that arrive in order are in order, and the newest wins. -/
theorem newestWins_of_two_moves :
    Machine.Along (step (Sample.grant true) Sample.move) (InOrder (Sample.grant true) Sample.move)
        ⟨.new (.new fun _ => .ok ()) [⟨0, 0, 0, 1920, 1080⟩], [], []⟩ [(0, 0), (1, 0)] ∧
      ∀ js, js <+: [(0, 0), (1, 0)] → (Machine.run (step (Sample.grant true) Sample.move)
        ⟨.new (.new fun _ => .ok ()) [⟨0, 0, 0, 1920, 1080⟩], [], []⟩ js).NewestWins
          Sample.move := by
  have horder : Machine.Along (step (Sample.grant true) Sample.move)
      (InOrder (Sample.grant true) Sample.move)
      ⟨.new (.new fun _ => .ok ()) [⟨0, 0, 0, 1920, 1080⟩], [], []⟩ [(0, 0), (1, 0)] := by
    refine ⟨iff_of_true ⟨rfl, rfl, ⟨.pointer, rfl, by decide⟩, rfl⟩ (by simp), ?_, trivial⟩
    refine iff_of_true ⟨?_, rfl, ⟨.pointer, rfl, ?_⟩, ?_⟩ ?_
    · decide
    · decide
    · decide
    · intro j hj
      rw [List.mem_singleton.1 hj]
      exact Nat.zero_lt_one
  exact ⟨horder, (newestWins_iff_inOrder ⟨Sample.grant true, fun _ => .sent⟩ (fun _ => .ok ())
    ⟨0, 0, 0, 1920, 1080⟩ Sample.move [Sample.turn [0, 1]] [(0, 0), (1, 0)] rfl).2.2 horder⟩

/-- The second of two moves overtakes the first, and the pointer goes back to the place of the
first. -/
theorem pointer_goes_back :
    (Machine.run (Stream.step ⟨Sample.grant true, fun _ => .sent⟩)
      (Stream.start (.new fun _ => .ok ()) ⟨0, 0, 0, 1920, 1080⟩)
      [Sample.turn [1, 0]]).injector.position = some (0, 0) ∧
    (Sample.move 1).place (.new (.new fun _ => .ok ()) [⟨0, 0, 0, 1920, 1080⟩]) = some (29, 0) := by
  decide

end Pointer

end Rda
