import Steward.Proofs.Guardian
import Steward.Rehearsal.Script

/-!
# One child, one start, one state

What the invariant of `Steward.Proofs.Guardian` means for someone who knows nothing of phases and
custody. In every run, whatever is called, answered, missed or killed and in whatever order:

* `Run.at_most_one_child`: a child is started only when all others are dead;
* `Run.coherent`: the handle, the state and the start under way always agree, and so no event is ever
  refused.
-/

set_option autoImplicit false

namespace Steward

/-! ## A run to look at -/

namespace Rehearsal

/-- A tool to rehearse with. -/
def sample : Service where
  identity := ⟨"example.com/cmd/tool@latest", "example.com/cmd/tool", "latest", "tool"⟩

/-- The acts and the world behind a list of moves, in a world that follows a script. -/
def scene (script : Script) (ms : List (Move Script)) : List Act × World Script :=
  (World.moves Script.environment sample [] { outside := script } ms).getD
    ([], { outside := script })

theorem run_scene (script : Script) (ms : List (Move Script)) :
    Run Script.environment sample (scene script ms).1 (scene script ms).2 := by
  unfold scene
  cases h : World.moves Script.environment sample [] { outside := script } ms with
  | none => exact .init script
  | some p => exact (Run.init script).moves h

/-- A start that finds the tool and goes through. -/
def started : List (Move Script) := .call .start :: List.replicate 10 (.step 0)

/-- The child of that start dies and its observer deals with it. -/
def died : List (Move Script) := .tell 0 (.exited {}) :: List.replicate 6 (.step 1)

end Rehearsal

/-! ## What the phase of the custodian says -/

theorem ServerPhase.hasCustody_of_isStart {x : ServerPhase} (h : x.isStart = true) :
    x.hasCustody = true := by
  cases x <;> first | rfl | cases h

namespace ServerPhase.Fits

variable {ε : Type} {w : World ε} {x : ServerPhase}

theorem at_most_one (h : x.Fits w) {i j : Nat} {c d : Child} (hi : w.children[i]? = some c)
    (hj : w.children[j]? = some d) (hc : c.alive = true) (hd : d.alive = true) : i = j := by
  -- each phase says either that all are dead or which one may be alive
  have dead : ¬ w.NoneAlive := fun hn => by simp [hn i c hi] at hc
  have only : ∀ child, w.OnlyAlive child → i = j := fun child ho =>
    (ho i c hi hc).trans (ho j d hj hd).symm
  cases x with
  | spawned child pid => exact only child h.2.2
  | registered child pid => exact only child h.2.2
  | watching child pid => exact only child h.2.2
  | bereft child pid => exact absurd h.2.2 dead
  | _ => exact absurd h.2 dead

theorem handle_pid (h : x.Fits w) : w.runtime.handle.map (·.pid) = w.runtime.state.pid? := by
  have vacant : ∀ state : Lifecycle.State, state.pid? = none → w.Vacant state →
      w.runtime.handle.map (·.pid) = w.runtime.state.pid? := by
    intro state hs hv
    rw [hv.1, hs, Option.map_eq_none_iff.1 hv.2]
    rfl
  have holds : ∀ child pid, w.Holds child pid →
      w.runtime.handle.map (·.pid) = w.runtime.state.pid? := by
    intro child pid hh
    obtain ⟨handle, hh', heq⟩ := Option.map_eq_some_iff.1 hh.2
    rw [hh.1, hh']
    cases heq
    rfl
  cases x with
  | starting => exact vacant .starting rfl h.1
  | spawned child pid => exact vacant .starting rfl h.1
  | registered child pid => exact holds child pid h.1
  | watching child pid => exact holds child pid h.1
  | bereft child pid => exact holds child pid h.1
  | _ => exact vacant .stopped rfl h.1

/-- The server is being started exactly while its custodian is a start. -/
theorem starting_iff (h : x.Fits w) : w.runtime.state = .starting ↔ x.isStart = true := by
  have holds : ∀ child pid, w.Holds child pid → w.runtime.state ≠ .starting := by
    intro child pid hh hs
    have hp := hh.1
    rw [hs] at hp
    cases hp
  cases x with
  | starting => exact ⟨fun _ => rfl, fun _ => h.1.1⟩
  | spawned child pid => exact ⟨fun _ => rfl, fun _ => h.1.1⟩
  | registered child pid => exact ⟨fun hs => absurd hs (holds child pid h.1), nofun⟩
  | watching child pid => exact ⟨fun hs => absurd hs (holds child pid h.1), nofun⟩
  | bereft child pid => exact ⟨fun hs => absurd hs (holds child pid h.1), nofun⟩
  | _ => exact ⟨fun hs => (by rw [h.1.1] at hs; cases hs), nofun⟩

end ServerPhase.Fits

/-! ## At most one child -/

section Exclusion

variable {ε : Type} {env : Environment ε} {rs : Roles} {s : Service} {acts new : List Act}
  {w w' w₁ : World ε} {task : Nat}

/-- A start that is let through the gate has not yet started anything. -/
theorem Handover.of_spawn {x y : ServerPhase} {spec : LaunchSpec} {a : Except Failure (Nat × Nat)}
    (h : Handover x (.spawn spec) a y) : x = .starting := by
  cases h with
  | neutral hn => cases hn
  | spawn => rfl
  | unspawned => rfl

/-- There is no way to the spawner around `Request.spawn`. -/
theorem Handover.not_query_spawn {x y : ServerPhase} {spec : LaunchSpec} {a : Except Failure Nat} :
    ¬ Handover x (.query (.spawn spec)) a y := by
  intro h
  cases h with
  | neutral hn => cases hn

theorem Run.noneAlive_of_pending (h : Run env s acts w) {spec : LaunchSpec}
    {k : Except Failure (Nat × Nat) → Program Flow}
    (hp : w.pending task = some ⟨.spawn spec, k⟩) : w.NoneAlive := by
  obtain ⟨phase, hf, hg⟩ := h.guarded
  obtain ⟨y, hy⟩ := hf.pending hp (.ok (0, 0))
  obtain ⟨-, hfits⟩ := hg.fits hy.of_spawn rfl
  exact hfits.2

/-- Only a request to do so calls the spawner. -/
theorem World.Performed.of_asked_spawn {r : Request} {a : r.Answer}
    (h : World.Performed env rs w task r a w₁) {i : Nat} {spec : LaunchSpec}
    {told : Except Failure Nat}
    (hh : w₁.history = .asked i (.spawn spec) told :: w.history) :
    r = .spawn spec ∨ r = .query (.spawn spec) := by
  -- the latest entry tells the query, and a request makes at most one
  have same : w₁.history ≠ w.history := fun he => by simp [he] at hh
  have asked : ∀ q b, w₁.history = .asked task q b :: w.history → q = .spawn spec := by
    intro q b he
    rw [he] at hh
    injection hh with hq
    injection hq
  cases h with
  | query q => exact .inr (congrArg _ (asked q _ rfl))
  | spawned spec' pid =>
    have hs := asked (.spawn spec') _ rfl
    exact .inl (by injection hs with hs; rw [hs])
  | unspawned spec' e =>
    have hs := asked (.spawn spec') _ rfl
    exact .inl (by injection hs with hs; rw [hs])
  | prompted ticket choice => injection hh with hq; cases hq
  | stop a w₁ hs =>
    cases hs with
    | delivered pid d handle => cases asked _ _ (World.exitNow_history _ _ _)
    | undelivered pid d handle e => cases asked _ _ (World.exitNow_history _ _ _)
    | _ => exact absurd rfl same
  | killed handle => cases asked _ _ (World.exitNow_history _ _ _)
  | _ => exact absurd rfl same

/-- **At most one child.** In every run, whoever calls what and whatever dies or is missed when: as long
as a task stands before the start of a child, all children are dead; so they are when the spawner is
called; and no two children are ever alive together. -/
theorem Run.at_most_one_child (h : Run env s acts w) :
    (∀ task spec k, w.pending task = some ⟨.spawn spec, k⟩ → w.NoneAlive) ∧
    (∀ (m : Move ε) (new : List Act) (w' : World ε), w.move env s m = some (new, w') →
      ∀ task spec told, w'.history = .asked task (.spawn spec) told :: w.history → w.NoneAlive) ∧
    (∀ (i j : Nat) (c d : Child), w.children[i]? = some c → w.children[j]? = some d →
      c.alive = true → d.alive = true → i = j) := by
  refine ⟨fun task spec k hp => h.noneAlive_of_pending hp, ?_, ?_⟩
  · intro m new w' hm task spec told hh
    have quiet : w'.history ≠ w.history := fun he => by simp [he] at hh
    cases m with
    | call c => cases hm; exact absurd rfl quiet
    | step i =>
      cases World.move_step_cases hm with
      | ask t r k a w₁ found rest pending performed =>
        rcases performed.of_asked_spawn hh with rfl | rfl
        · exact h.noneAlive_of_pending pending
        · obtain ⟨phase, hf, -⟩ := h.guarded
          obtain ⟨y, hy⟩ := hf.pending pending (.ok 0)
          exact absurd hy Handover.not_query_spawn
      | cancel t => exact absurd (by unfold World.forgetPrompt; cases t.prompt? <;> rfl) quiet
      | _ => exact absurd rfl quiet
    | _ => cases hm; exact absurd rfl quiet
  · intro i j c d hi hj hc hd
    obtain ⟨phase, -, hg⟩ := h.guarded
    obtain ⟨o, -, hf⟩ := hg.custodian
    exact hf.at_most_one hi hj hc hd

/-- Two starts in a row: the first child has died, the second start stands before the spawner. -/
theorem all_dead_before_second_spawn : ∃ acts w spec k,
    Run Rehearsal.Script.environment Rehearsal.sample acts w ∧ w.children.length = 1 ∧
    w.pending 2 = some ⟨.spawn spec, k⟩ ∧ w.NoneAlive := by
  have hr := Rehearsal.run_scene {} (Rehearsal.started ++ Rehearsal.died ++
    .call .start :: List.replicate 4 (.step 2))
  exact ⟨_, _, _, _, hr, rfl, rfl, (Run.at_most_one_child hr).1 2 _ _ rfl⟩

end Exclusion

/-! ## Nothing is refused -/

/-- No event that the request applies to the state is refused; and a stop finds a handle to signal. -/
def World.Accepts {ε : Type} (w : World ε) : Request → Prop
  | .beginStart => ∀ e, w.runtime.beginStart.1 ≠ .refused e
  | .abortStart reason => ∃ t, Lifecycle.apply w.runtime.state (.startAborted reason) = .ok t
  | .register handle d => ∃ runtime, w.runtime.register handle d = .ok runtime
  | .stop =>
    (∀ e, w.runtime.beginStop.1 ≠ .refused e) ∧ w.runtime.beginStop.1 ≠ .open none ∧
    ∀ h reason, w.runtime.beginStop.1 = .open (some h) →
      ∃ t, Lifecycle.apply w.runtime.beginStop.2.state (.stopFailed reason) = .ok t
  | .recordExit pid exit => ∃ t runtime, w.runtime.recordExit pid exit = .ok (t, runtime)
  | _ => True

section Coherence

variable {ε : Type} {env : Environment ε} {s : Service} {acts : List Act} {w : World ε}
  {task : Nat} {phase : Nat → ServerPhase}

theorem Supervisor.Runtime.beginStart_not_refused (r : Supervisor.Runtime) (e : Lifecycle.Refusal) :
    r.beginStart.1 ≠ .refused e := by
  obtain ⟨state, handle⟩ := r
  cases state <;> exact nofun

/-- A stop that goes ahead finds the handle of the running process and can be taken back. -/
theorem World.accepts_stop (h : w.runtime.handle.map (·.pid) = w.runtime.state.pid?) :
    w.Accepts .stop := by
  obtain ⟨outside, ⟨state, handle⟩⟩ := w
  cases state with
  | running pid d =>
    -- the state that a stop would be taken back from is the one it has just made
    refine ⟨nofun, ?_, fun _ _ _ => ⟨_, rfl⟩⟩
    intro hopen
    obtain rfl : handle = none := by injection hopen
    cases h
  | _ => exact ⟨nofun, nofun, nofun⟩

theorem Handover.of_abortStart {x y : ServerPhase} {reason : String}
    (h : Handover x (.abortStart reason) () y) : x = .starting := by
  cases h with
  | neutral hn => cases hn
  | abort => rfl

theorem Handover.of_register {x y : ServerPhase} {handle : Supervisor.Handle} {d : Definition}
    {a : Except Lifecycle.Refusal Unit} (h : Handover x (.register handle d) a y) :
    x = .spawned handle.child handle.pid := by
  cases h with
  | neutral hn => cases hn
  | register => rfl
  | unregistered => rfl

theorem Handover.of_recordExit {x y : ServerPhase} {pid : Nat} {exit : Exit}
    {a : Except Lifecycle.Refusal Lifecycle.Transition} (h : Handover x (.recordExit pid exit) a y) :
    ∃ child, x = .bereft child pid := by
  cases h with
  | neutral hn => cases hn
  | record => exact ⟨_, rfl⟩

/-- Whoever stands before a request is in a phase that allows it, and the world fits the phase. -/
theorem Guarded.accepts (hg : Guarded phase acts w) (hfol : w.Follows Handover ServerPhase.IsIdle phase)
    {r : Request} {k : r.Answer → Program Flow} (hp : w.pending task = some ⟨r, k⟩) :
    w.Accepts r := by
  cases r with
  | beginStart => exact w.runtime.beginStart_not_refused
  | stop =>
    obtain ⟨o, -, hf⟩ := hg.custodian
    exact World.accepts_stop hf.handle_pid
  | abortStart reason =>
    obtain ⟨y, hy⟩ := hfol.pending hp ()
    obtain ⟨-, hf⟩ := hg.fits hy.of_abortStart rfl
    simp only [World.Accepts, hf.1.1]
    exact ⟨_, rfl⟩
  | register handle d =>
    obtain ⟨y, hy⟩ := hfol.pending hp (.ok ())
    obtain ⟨-, hf⟩ := hg.fits hy.of_register rfl
    exact ⟨_, Supervisor.Runtime.register_of_starting hf.1.1 handle d⟩
  | recordExit pid exit =>
    -- any answer will do, the phase before it is the same
    obtain ⟨y, hy⟩ := hfol.pending hp (.error ⟨.stopped, .stopRequested⟩)
    obtain ⟨child, hx⟩ := hy.of_recordExit
    obtain ⟨-, hf⟩ := hg.fits hx rfl
    exact ⟨_, _, Supervisor.Runtime.recordExit_of_pid hf.1.1 exit⟩
  | _ => trivial

theorem Guarded.starting_iff (hg : Guarded phase acts w) :
    w.runtime.state = .starting ↔ ∃ i, Steward.underWay i acts = true := by
  obtain ⟨o, ho, hf⟩ := hg.custodian
  rw [hf.starting_iff]
  constructor
  · intro hs
    cases o with
    | none => cases hs
    | some i => exact ⟨i, (hg.underWay i).trans hs⟩
  · rintro ⟨i, hi⟩
    rw [hg.underWay i] at hi
    obtain rfl := ho.eq_some (ServerPhase.hasCustody_of_isStart hi)
    exact hi

/-- **The parts agree.** In every run, between any two steps: the handle is that of the process `p`
exactly while the server runs or stops as `p`; the server is being started exactly while there is a start
that has begun and neither registered its child nor given up, and there are never two of them. So no
event is refused, whoever applies it, and no stop misses the handle. -/
theorem Run.coherent (h : Run env s acts w) :
    (∀ p, w.runtime.handle.map (·.pid) = some p ↔
      ∃ d, w.runtime.state = .running p d ∨ w.runtime.state = .stopping p d) ∧
    (w.runtime.state = .starting ↔ ∃ i, underWay i acts = true) ∧
    (∀ i j, underWay i acts = true → underWay j acts = true → i = j) ∧
    (∀ task r k, w.pending task = some ⟨r, k⟩ → w.Accepts r) := by
  obtain ⟨phase, hfol, hg⟩ := h.guarded
  obtain ⟨o, ho, hf⟩ := hg.custodian
  refine ⟨fun p => ?_, hg.starting_iff, fun i j hi hj => ?_, fun task r k hp => ?_⟩
  · rw [hf.handle_pid]
    cases w.runtime.state <;> simp [Lifecycle.State.pid?]
  · rw [hg.underWay] at hi hj
    have hi := ho.eq_some (ServerPhase.hasCustody_of_isStart hi)
    have hj := ho.eq_some (ServerPhase.hasCustody_of_isStart hj)
    exact Option.some.inj (hi.symm.trans hj)
  · exact hg.accepts hfol hp

/-- A start whose child is there and not yet registered: the server is being started. -/
theorem starting_before_register : ∃ acts w handle d k,
    Run Rehearsal.Script.environment Rehearsal.sample acts w ∧
    w.pending 0 = some ⟨.register handle d, k⟩ ∧ w.runtime.state = .starting ∧
    ∃ runtime, w.runtime.register handle d = .ok runtime := by
  have hr := Rehearsal.run_scene {} (.call .start :: List.replicate 5 (.step 0))
  obtain ⟨-, starting, -, accepts⟩ := Run.coherent hr
  exact ⟨_, _, _, _, _, hr, rfl, starting.2 ⟨0, rfl⟩, accepts 0 _ _ rfl⟩

end Coherence

end Steward
