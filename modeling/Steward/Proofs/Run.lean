import Steward.Call

/-!
# Runs

A `Move` is anything that can happen next: a caller makes a call, a task takes one step, the world
outside turns into another one, the clock shows another moment, a child speaks, dies or falls silent.
Nothing is said about the order of moves, so a `Run` is any interleaving of any number of calls, with
any answers from outside, any timeout at any moment and any death at any moment.

Two facts about children are built into `Child.emit` and `Child.vanish`: a child that reports its exit
and a child whose events end are dead. It may have died long before: that is `Move.die`.

A run keeps its `Act`s, latest first: which call was made when, and which request of which task was
answered how. Who a task is follows from the acts alone (`roles`).
-/

set_option autoImplicit false

namespace Steward

/-- What can be told of a run: a call was made, or a request was answered. -/
inductive Act where
  | call (c : Call)
  | step (task : Nat) (r : Request) (a : r.Answer)

/-- The task that acted. -/
def Act.task? : Act → Option Nat
  | .call _ => none
  | .step task _ _ => some task

/-- What a task was started for. -/
inductive Role where
  | call (c : Call)
  | observer (child pid : Nat)
  | check
  deriving Repr, DecidableEq

def Role.program (s : Service) : Role → Program Flow
  | .call c => c.program s
  | .observer child pid => s.roles.observer child pid
  | .check => s.roles.updateCheck

/-- The task that a request starts. -/
def Request.birth? : Request → Option Role
  | .observe child pid => some (.observer child pid)
  | .spawnCheck => some .check
  | _ => none

/-- The task that an act starts. -/
def Act.birth? : Act → Option Role
  | .call c => some (.call c)
  | .step _ r _ => r.birth?

/-- The roles of all tasks, in the order of their numbers. -/
def roles : List Act → List Role
  | [] => []
  | x :: acts => roles acts ++ x.birth?.toList

/-- A role behind an act is one from before or that of the task that the act starts. -/
theorem roles_cons_cases {x : Act} {acts : List Act} {i : Nat} {ρ : Role}
    (h : (roles (x :: acts))[i]? = some ρ) :
    i < (roles acts).length ∧ (roles acts)[i]? = some ρ ∨
    i = (roles acts).length ∧ x.birth? = some ρ := by
  rw [roles, List.getElem?_append] at h
  split at h
  · rename_i hlt
    exact .inl ⟨hlt, h⟩
  · rename_i hge
    cases hb : x.birth? with
    | none => simp [hb] at h
    | some ρ' =>
      rw [hb, Option.toList_some, List.getElem?_singleton] at h
      split at h
      · exact .inr ⟨by omega, h⟩
      · cases h

theorem roles_cons_of_some {acts : List Act} {i : Nat} {ρ : Role} (x : Act)
    (h : (roles acts)[i]? = some ρ) : (roles (x :: acts))[i]? = some ρ := by
  rw [roles, List.getElem?_append_left (List.getElem?_eq_some_iff.1 h).1]
  exact h

/-- What can happen next. -/
inductive Move (ε : Type) where
  | call (c : Call)
  | step (task : Nat)
  /-- the world outside changes by itself: a prompt is answered, a command ends -/
  | turn (outside : ε)
  /-- the clock shows any moment whatever, so that any wait may run out -/
  | clock (moment : Nat)
  | tell (child : Nat) (e : ChildEvent)
  | vanish (child : Nat)
  /-- the process is dead and nobody has heard of it yet -/
  | die (child : Nat)

namespace World

variable {ε : Type}

/-- The request that a task would put next, and how it goes on with the answer. -/
def pending (w : World ε) (task : Nat) : Option ((r : Request) × (r.Answer → Program Flow)) :=
  match w.tasks[task]? with
  | none => none
  | some t =>
    if t.isOver || t.cancelled then none
    else
      match t.rest with
      | .done _ => none
      | .ask r k => some ⟨r, k⟩

/-- The act of a task's next step, if that step puts a request. -/
def act? (env : Environment ε) (roles : Roles) (w : World ε) (task : Nat) : Option Act :=
  match w.pending task with
  | none => none
  | some ⟨r, _⟩ => (w.perform env roles task r).map fun (a, _) => .step task r a

/-- One move: the acts that it adds and the world behind it; `none` if it is not possible. -/
def move (env : Environment ε) (s : Service) (w : World ε) : Move ε → Option (List Act × World ε)
  | .call c => some ([.call c], (w.addTask (c.program s)).2)
  | .step task =>
    (w.attempt env s.roles task).map fun w' => ((w.act? env s.roles task).toList, w')
  | .turn outside => some ([], { w with outside := outside })
  | .clock moment => some ([], { w with now := moment })
  | .tell child e => some ([], w.changeChild child (·.emit e))
  | .vanish child => some ([], w.changeChild child Child.vanish)
  | .die child => some ([], w.changeChild child ({ · with alive := false }))

/-- All moves of a list in a row, from a world with acts behind it. -/
def moves (env : Environment ε) (s : Service) (acts : List Act) (w : World ε) :
    List (Move ε) → Option (List Act × World ε)
  | [] => some (acts, w)
  | m :: ms =>
    match w.move env s m with
    | none => none
    | some (new, w') => moves env s (new ++ acts) w' ms

end World

/-- The worlds that can be reached, with the acts on the way. -/
inductive Run {ε : Type} (env : Environment ε) (s : Service) : List Act → World ε → Prop where
  | init (outside : ε) : Run env s [] { outside := outside }
  | move {acts new : List Act} {w w' : World ε} (m : Move ε) :
      Run env s acts w → w.move env s m = some (new, w') → Run env s (new ++ acts) w'

section

variable {ε : Type} {env : Environment ε} {s : Service}

/-- What every move preserves, all moves in a row preserve. -/
theorem World.moves_induct {J : List Act → World ε → Prop}
    (move : ∀ {acts new : List Act} {w w' : World ε} (m : Move ε), J acts w →
      w.move env s m = some (new, w') → J (new ++ acts) w')
    {acts acts' : List Act} {w w' : World ε} {ms : List (Move ε)} (h : J acts w)
    (hm : w.moves env s acts ms = some (acts', w')) : J acts' w' := by
  induction ms generalizing acts w with
  | nil =>
    simp only [World.moves, Option.some.injEq, Prod.mk.injEq] at hm
    obtain ⟨rfl, rfl⟩ := hm
    exact h
  | cons m ms ih =>
    rw [World.moves] at hm
    split at hm
    · cases hm
    · rename_i new w₁ h₁
      exact ih (move m h h₁) hm

theorem Run.moves {acts : List Act} {w : World ε} (h : Run env s acts w) :
    ∀ {ms : List (Move ε)} {acts' : List Act} {w' : World ε},
      w.moves env s acts ms = some (acts', w') → Run env s acts' w' :=
  World.moves_induct .move h

end

/-! ## What a signal can do -/

namespace World

variable {ε : Type} {env : Environment ε} {w w₁ : World ε} {task : Nat}

/-- Everything that can come of a stop. An event is never refused here: only a running server is asked
to stop, and only a stopping one has its stop taken back, which brings the state from before. -/
inductive Stopped (env : Environment ε) (w : World ε) (task : Nat) :
    Request.StopResult → World ε → Prop where
  | notRunning (state : w.runtime.state.pid? = none) : Stopped env w task .notRunning w
  | alreadyStopping (pid : Nat) (d : Definition) (state : w.runtime.state = .stopping pid d) :
      Stopped env w task .alreadyStopping w
  | unheld (pid : Nat) (d : Definition) (state : w.runtime.state = .running pid d)
      (handle : w.runtime.handle = none) :
      Stopped env w task (.undelivered (.process "No process handle")) w
  | delivered (pid : Nat) (d : Definition) (h : Supervisor.Handle)
      (state : w.runtime.state = .running pid d) (handle : w.runtime.handle = some h)
      (told : (w.ask env task (.terminate h.child h.pid)).1.result = .ok ()) :
      Stopped env w task .delivered
        (({ w with runtime := ⟨.stopping pid d, some h⟩ }.ask env task
          (.terminate h.child h.pid)).2.exitNow h.child
            (w.ask env task (.terminate h.child h.pid)).1.exit)
  | undelivered (pid : Nat) (d : Definition) (h : Supervisor.Handle) (e : Failure)
      (state : w.runtime.state = .running pid d) (handle : w.runtime.handle = some h)
      (told : (w.ask env task (.terminate h.child h.pid)).1.result = .error e) :
      Stopped env w task (.undelivered e)
        ((w.ask env task (.terminate h.child h.pid)).2.exitNow h.child
          (w.ask env task (.terminate h.child h.pid)).1.exit)

theorem stop_cases {a : Request.StopResult} (heq : w.stop env task = (a, w₁)) :
    Stopped env w task a w₁ := by
  -- with the record taken apart the state decides, and then the answer to the signal
  obtain ⟨outside, ⟨state, handle⟩, children, tasks, slot, changes, now, history⟩ := w
  obtain rfl : _ = a := congrArg (·.1) heq
  obtain rfl : _ = w₁ := congrArg (·.2) heq
  cases state with
  | stopped => exact .notRunning rfl
  | starting => exact .notRunning rfl
  | stopping pid d => exact .alreadyStopping pid d rfl
  | running pid d =>
    cases handle with
    | none => exact .unheld pid d rfl rfl
    | some h =>
      rcases hq : env.answer (.terminate h.child h.pid) outside with ⟨⟨result, exit⟩, o⟩
      cases result with
      | ok u =>
        have hs : Stopped env ⟨outside, ⟨.running pid d, some h⟩, children, tasks, slot, changes,
          now, history⟩ task _ _ := .delivered pid d h rfl rfl (by simp [ask, hq])
        simpa [stop, Supervisor.Runtime.beginStop, Lifecycle.apply, Lifecycle.State.next, ask, hq]
          using hs
      | error e =>
        have hs : Stopped env ⟨outside, ⟨.running pid d, some h⟩, children, tasks, slot, changes,
          now, history⟩ task _ _ := .undelivered pid d h e rfl rfl (by simp [ask, hq])
        -- the exit that the failed signal may report is the child's alone
        cases exit <;>
          simpa [stop, Supervisor.Runtime.beginStop, Supervisor.Runtime.failStop, Lifecycle.apply,
            Lifecycle.after, Lifecycle.State.next, ask, hq, exitNow, changeChild] using hs

end World

/-! ## What a request can do -/

namespace World

variable {ε : Type} {env : Environment ε} {rs : Roles} {w w' w₁ : World ε} {task : Nat}

/-- Everything that can come of a request: the answer, the world behind it and what was the case
before. -/
inductive Performed (env : Environment ε) (rs : Roles) (w : World ε) (task : Nat) :
    (r : Request) → r.Answer → World ε → Prop where
  | query (q : Query) : Performed env rs w task (.query q) (w.ask env task q).1 (w.ask env task q).2
  | spawned (spec : LaunchSpec) (pid : Nat) (told : (w.ask env task (.spawn spec)).1 = .ok pid) :
      Performed env rs w task (.spawn spec) (.ok (w.children.length, pid))
        { (w.ask env task (.spawn spec)).2 with
          children := w.children ++ [{ pid := pid, transport := spec.transport }] }
  | unspawned (spec : LaunchSpec) (e : Failure) (told : (w.ask env task (.spawn spec)).1 = .error e) :
      Performed env rs w task (.spawn spec) (.error e) (w.ask env task (.spawn spec)).2
  | prompted (ticket : Nat) (choice : Option String) :
      Performed env rs w task (.awaitPrompt ticket) choice
        { w with history := .replied task ticket choice :: w.history }
  | commanded (ticket : Nat) (output : Except Failure CommandOutput) :
      Performed env rs w task (.awaitCommand ticket) output w
  | beginStart : Performed env rs w task .beginStart w.runtime.beginStart.1
      { w with runtime := w.runtime.beginStart.2 }
  | abortStart (reason : String) : Performed env rs w task (.abortStart reason) ()
      { w with runtime := w.runtime.abortStart reason }
  | registered (handle : Supervisor.Handle) (d : Definition) (runtime : Supervisor.Runtime)
      (taken : w.runtime.register handle d = .ok runtime) :
      Performed env rs w task (.register handle d) (.ok ()) { w with runtime := runtime }
  | unregistered (handle : Supervisor.Handle) (d : Definition) (e : Lifecycle.Refusal)
      (refused : w.runtime.register handle d = .error e) :
      Performed env rs w task (.register handle d) (.error e) w
  | stop (a : Request.StopResult) (w₁ : World ε) (stopped : Stopped env w task a w₁) :
      Performed env rs w task .stop a w₁
  | recorded (pid : Nat) (exit : Exit) (t : Lifecycle.Transition) (runtime : Supervisor.Runtime)
      (taken : w.runtime.recordExit pid exit = .ok (t, runtime)) :
      Performed env rs w task (.recordExit pid exit) (.ok t) { w with runtime := runtime }
  | unrecorded (pid : Nat) (exit : Exit) (e : Lifecycle.Refusal)
      (refused : w.runtime.recordExit pid exit = .error e) :
      Performed env rs w task (.recordExit pid exit) (.error e) w
  | readState : Performed env rs w task .readState w.runtime.state w
  | restartTarget : Performed env rs w task .restartTarget w.runtime.restartTarget w
  | currentChild : Performed env rs w task .currentChild w.runtime.child? w
  | unkilled (handle : w.runtime.handle = none) : Performed env rs w task .killCurrent () w
  | killed (h : Supervisor.Handle) (handle : w.runtime.handle = some h) :
      Performed env rs w task .killCurrent ()
        ((w.ask env task (.kill h.child h.pid)).2.exitNow h.child
          (w.ask env task (.kill h.child h.pid)).1.exit)
  | takeStreams : Performed env rs w task .takeStreams w.runtime.takeStreams.1
      { w with runtime := w.runtime.takeStreams.2 }
  | announceChange : Performed env rs w task .announceChange () { w with changes := w.changes + 1 }
  | observe (child pid : Nat) : Performed env rs w task (.observe child pid) ()
      (w.addTask (rs.observer child pid)).2
  | event (child : Nat) (c : Child) (e : ChildEvent) (rest : List ChildEvent)
      (found : w.children[child]? = some c) (events : c.events = e :: rest) :
      Performed env rs w task (.nextEvent child) (some e)
        (w.changeChild child ({ · with events := rest }))
  | silence (child : Nat)
      (ended : ∀ c, w.children[child]? = some c → c.events = [] ∧ c.speaking = false) :
      Performed env rs w task (.nextEvent child) none w
  | raiseExited (child : Nat) : Performed env rs w task (.raiseExited child) ()
      (w.changeChild child ({ · with exited := true, heard := false }))
  | deadline (milliseconds : Nat) :
      Performed env rs w task (.deadline milliseconds) (w.now + milliseconds) w
  | exited (child moment : Nat) (seen : w.hasExited child = true) :
      Performed env rs w task (.awaitExit child moment) true w
  | timeout (child moment : Nat) (unseen : w.hasExited child = false) :
      Performed env rs w task (.awaitExit child moment) false w
  | spawnCheck : Performed env rs w task .spawnCheck w.tasks.length (w.addTask rs.updateCheck).2
  | swapCheck (new : Nat) : Performed env rs w task (.swapCheck new) w.slot { w with slot := some new }
  | takeCheck : Performed env rs w task .takeCheck w.slot { w with slot := none }
  | cancelCheck (check : Nat) : Performed env rs w task (.cancelCheck check) ()
      (w.changeTask check ({ · with cancelled := true }))
  | awaitCheck (check : Nat) (c : Option Update.Check) :
      Performed env rs w task (.awaitCheck check) c w

theorem spawn_cases {spec : LaunchSpec} {a : Except Failure (Nat × Nat)}
    (h : w.spawn env task spec = (a, w₁)) : Performed env rs w task (.spawn spec) a w₁ := by
  unfold spawn at h
  split at h
  · rename_i e _ he
    cases h
    obtain rfl : (w.ask env task (.spawn spec)).2 = w₁ := congrArg (·.2) he
    exact .unspawned spec e (congrArg (·.1) he)
  · rename_i pid w₂ he
    cases h
    obtain rfl : (w.ask env task (.spawn spec)).2 = w₂ := congrArg (·.2) he
    exact .spawned spec pid (congrArg (·.1) he)

theorem nextEvent_cases {child : Nat} {a : Option ChildEvent}
    (h : w.nextEvent child = some (a, w₁)) : Performed env rs w task (.nextEvent child) a w₁ := by
  unfold nextEvent at h
  split at h
  · rename_i hc
    cases h
    exact .silence child fun c hc' => by rw [hc] at hc'; cases hc'
  · rename_i c hc
    split at h
    · rename_i e rest he
      cases h
      exact .event child c e rest hc he
    · rename_i he
      split at h
      · cases h
      · rename_i hs
        cases h
        refine .silence child fun c' hc' => ?_
        obtain rfl : c = c' := Option.some.inj (hc.symm.trans hc')
        exact ⟨he, Bool.not_eq_true _ ▸ hs⟩

theorem perform_cases {r : Request} {a : r.Answer}
    (h : w.perform env rs task r = some (a, w₁)) : Performed env rs w task r a w₁ := by
  cases r with
  | query q => cases h; exact .query q
  | spawn spec => exact spawn_cases (Option.some.inj h)
  | awaitPrompt ticket =>
    simp only [perform] at h
    split at h
    · cases h; exact .prompted ticket _
    · cases h
  | awaitCommand ticket =>
    obtain ⟨output, -, heq⟩ := Option.map_eq_some_iff.1 h
    cases heq
    exact .commanded ticket a
  | beginStart => cases h; exact .beginStart
  | abortStart reason => cases h; exact .abortStart reason
  | register handle d =>
    simp only [perform] at h
    split at h
    · rename_i runtime hr
      cases h; exact .registered handle d runtime hr
    · rename_i e hr
      cases h; exact .unregistered handle d e hr
  | stop => exact .stop a w₁ (stop_cases (Option.some.inj h))
  | recordExit pid exit =>
    simp only [perform] at h
    split at h
    · rename_i t runtime hr
      cases h; exact .recorded pid exit t runtime hr
    · rename_i e hr
      cases h; exact .unrecorded pid exit e hr
  | readState => cases h; exact .readState
  | restartTarget => cases h; exact .restartTarget
  | currentChild => cases h; exact .currentChild
  | killCurrent =>
    cases h
    cases hh : w.runtime.handle with
    | none => simpa only [killCurrent, hh] using Performed.unkilled hh
    | some h => simpa only [killCurrent, hh] using Performed.killed h hh
  | takeStreams => cases h; exact .takeStreams
  | announceChange => cases h; exact .announceChange
  | observe child pid => cases h; exact .observe child pid
  | nextEvent child => exact nextEvent_cases h
  | raiseExited child => cases h; exact .raiseExited child
  | deadline milliseconds => cases h; exact .deadline milliseconds
  | awaitExit child moment =>
    simp only [perform] at h
    split at h
    · rename_i hx
      cases h; exact .exited child moment hx
    · rename_i hx
      split at h
      · cases h; exact .timeout child moment (Bool.not_eq_true _ ▸ hx)
      · cases h
  | spawnCheck => cases h; exact .spawnCheck
  | swapCheck new => cases h; exact .swapCheck new
  | takeCheck => cases h; exact .takeCheck
  | cancelCheck check => cases h; exact .cancelCheck check
  | awaitCheck check =>
    obtain ⟨c, -, heq⟩ := Option.map_eq_some_iff.1 h
    cases heq
    exact .awaitCheck check a

end World

/-! ## What a step can do -/

namespace World

variable {ε : Type} {env : Environment ε} {rs : Roles} {w w' : World ε} {task : Nat}

/-- A task that is known to stand before a request. -/
theorem pending_eq_some {r : Request} {k : r.Answer → Program Flow}
    (h : w.pending task = some ⟨r, k⟩) :
    ∃ t, w.tasks[task]? = some t ∧ t.isOver = false ∧ t.cancelled = false ∧ t.rest = .ask r k := by
  unfold pending at h
  split at h
  · cases h
  · rename_i t ht
    split at h
    · cases h
    · rename_i hf
      simp only [Bool.or_eq_true, not_or, Bool.not_eq_true] at hf
      split at h
      · cases h
      · rename_i r' k' hr
        cases h
        exact ⟨t, ht, hf.1, hf.2, hr⟩

/-- The four things that a step can be: the end of a cancelled task, the end of a task, the beginning
of another round, and a request that is answered. Only the last is an act. -/
inductive Attempt (env : Environment ε) (rs : Roles) (w : World ε) (task : Nat) :
    List Act → World ε → Prop where
  | cancel (t : Task) (found : w.tasks[task]? = some t) (cancelled : t.cancelled = true) :
      Attempt env rs w task []
        ((w.forgetPrompt env t).changeTask task ({ · with result := some (.check none) }))
  | finish (t : Task) (o : Outcome) (found : w.tasks[task]? = some t)
      (rest : t.rest = .done (.finish o)) :
      Attempt env rs w task [] (w.changeTask task ({ · with result := some o }))
  | again (t : Task) (found : w.tasks[task]? = some t) (rest : t.rest = .done .again) :
      Attempt env rs w task [] (w.changeTask task ({ · with rest := t.body }))
  | ask (t : Task) (r : Request) (k : r.Answer → Program Flow) (a : r.Answer) (w₁ : World ε)
      (found : w.tasks[task]? = some t) (rest : t.rest = .ask r k)
      (pending : w.pending task = some ⟨r, k⟩)
      (performed : Performed env rs w task r a w₁) :
      Attempt env rs w task [.step task r a] (w₁.changeTask task ({ · with rest := k a }))

theorem attempt_cases (h : w.attempt env rs task = some w') :
    Attempt env rs w task (w.act? env rs task).toList w' := by
  unfold attempt at h
  split at h
  · cases h
  · rename_i t ht
    split at h
    · cases h
    · rename_i hover
      split at h
      · rename_i hc
        cases h
        simpa [act?, pending, ht, hc] using Attempt.cancel t ht hc
      · rename_i hc
        split at h
        · rename_i o hr
          cases h
          simpa [act?, pending, ht, hr] using Attempt.finish t o ht hr
        · rename_i hr
          cases h
          simpa [act?, pending, ht, hr] using Attempt.again t ht hr
        · rename_i r k hr
          obtain ⟨⟨a, w₁⟩, hp, rfl⟩ := Option.map_eq_some_iff.1 h
          have hpend : w.pending task = some ⟨r, k⟩ := by
            simp only [pending, ht, hr]
            simp [hover, hc]
          simpa [act?, hpend, hp] using Attempt.ask t r k a w₁ ht hr hpend (perform_cases hp)

theorem move_step_cases {s : Service} {new : List Act}
    (h : w.move env s (.step task) = some (new, w')) : Attempt env s.roles w task new w' := by
  obtain ⟨w₁, h₁, heq⟩ := Option.map_eq_some_iff.1 h
  cases heq
  exact attempt_cases h₁

end World

/-! ## What becomes of the tasks -/

namespace World

variable {ε : Type} {env : Environment ε} {rs : Roles} {w w₁ : World ε} {task : Nat}

@[simp] theorem exitNow_runtime (w : World ε) (child : Nat) (e : Option Exit) :
    (w.exitNow child e).runtime = w.runtime := by
  cases e <;> rfl

@[simp] theorem exitNow_changes (w : World ε) (child : Nat) (e : Option Exit) :
    (w.exitNow child e).changes = w.changes := by
  cases e <;> rfl

@[simp] theorem exitNow_tasks (w : World ε) (child : Nat) (e : Option Exit) :
    (w.exitNow child e).tasks = w.tasks := by
  cases e <;> rfl

@[simp] theorem exitNow_slot (w : World ε) (child : Nat) (e : Option Exit) :
    (w.exitNow child e).slot = w.slot := by
  cases e <;> rfl

@[simp] theorem exitNow_history (w : World ε) (child : Nat) (e : Option Exit) :
    (w.exitNow child e).history = w.history := by
  cases e <;> rfl

/-- The tasks behind a request: those before it, one of them perhaps cancelled, and the one that the
request starts. -/
def tasksAfter (rs : Roles) (tasks : List Task) : Request → List Task
  | .observe child pid => tasks ++ [.ofProgram (rs.observer child pid)]
  | .spawnCheck => tasks ++ [.ofProgram rs.updateCheck]
  | .cancelCheck check => tasks.modify check ({ · with cancelled := true })
  | _ => tasks

theorem Performed.tasks {r : Request} {a : r.Answer} (h : Performed env rs w task r a w₁) :
    w₁.tasks = tasksAfter rs w.tasks r := by
  cases h with
  | stop a w₁ hs =>
    cases hs with
    | delivered pid d h => exact exitNow_tasks _ _ _
    | undelivered pid d h e => exact exitNow_tasks _ _ _
    | _ => rfl
  | killed h => exact exitNow_tasks _ _ _
  | _ => rfl

/-- A task behind a request is one from before, perhaps cancelled by the request, or the one that the
request starts. -/
theorem Performed.task_cases {s : Service} {r : Request} {a : r.Answer}
    (h : Performed env s.roles w task r a w₁) {i : Nat} {t : Task} (ht : w₁.tasks[i]? = some t) :
    (∃ t₀, w.tasks[i]? = some t₀ ∧
      (t = t₀ ∨ r = .cancelCheck i ∧ t = { t₀ with cancelled := true })) ∨
    i = w.tasks.length ∧ ∃ ρ, r.birth? = some ρ ∧ t = .ofProgram (ρ.program s) := by
  rw [h.tasks] at ht
  -- a new task takes the next number and leaves the others where they are
  have born : ∀ p, (w.tasks ++ [Task.ofProgram p])[i]? = some t →
      (∃ t₀, w.tasks[i]? = some t₀ ∧ t = t₀) ∨ i = w.tasks.length ∧ t = .ofProgram p := by
    intro p hp
    rw [List.getElem?_append] at hp
    split at hp
    · exact .inl ⟨t, hp, rfl⟩
    · rw [List.getElem?_singleton] at hp
      split at hp
      · exact .inr ⟨by omega, (Option.some.inj hp).symm⟩
      · cases hp
  cases r with
  | observe child pid =>
    obtain ⟨t₀, h₀, rfl⟩ | ⟨hi, rfl⟩ := born _ ht
    · exact .inl ⟨t, h₀, .inl rfl⟩
    · exact .inr ⟨hi, _, rfl, rfl⟩
  | spawnCheck =>
    obtain ⟨t₀, h₀, rfl⟩ | ⟨hi, rfl⟩ := born _ ht
    · exact .inl ⟨t, h₀, .inl rfl⟩
    · exact .inr ⟨hi, _, rfl, rfl⟩
  | cancelCheck check =>
    rw [tasksAfter, List.getElem?_modify] at ht
    obtain ⟨t₀, h₀, rfl⟩ := Option.map_eq_some_iff.1 ht
    refine .inl ⟨t₀, h₀, ?_⟩
    by_cases hi : check = i
    · subst hi; exact .inr ⟨rfl, by simp⟩
    · exact .inl (by simp [hi])
  | _ => exact .inl ⟨t, ht, .inl rfl⟩

theorem Performed.tasks_length {s : Service} {r : Request} {a : r.Answer}
    (h : Performed env s.roles w task r a w₁) :
    w₁.tasks.length = w.tasks.length + r.birth?.toList.length := by
  rw [h.tasks]
  cases r <;> simp [tasksAfter, Request.birth?]

end World

/-! ## Between the acts -/

/-- What a child does by itself. -/
inductive Child.Alone : (Child → Child) → Prop where
  | nothing : Child.Alone id
  | tell (e : ChildEvent) : Child.Alone (·.emit e)
  | vanish : Child.Alone Child.vanish
  | die : Child.Alone ({ · with alive := false })

/-- A move that is no act: at most one child does something by itself. Tasks go on to their next round
or end, but none is started or cancelled. -/
structure World.Hush {ε : Type} (w w' : World ε) : Prop where
  runtime : w'.runtime = w.runtime
  slot : w'.slot = w.slot
  changes : w'.changes = w.changes
  history : w'.history = w.history
  children : ∃ i f, Child.Alone f ∧ w'.children = w.children.modify i f
  tasks_length : w'.tasks.length = w.tasks.length
  task : ∀ (i : Nat) (t' : Task), w'.tasks[i]? = some t' →
    ∃ t, w.tasks[i]? = some t ∧ t'.cancelled = t.cancelled

section

variable {ε : Type} {env : Environment ε} {s : Service} {w w' : World ε}

theorem World.Hush.ofChild {i : Nat} {f : Child → Child} (hf : Child.Alone f) :
    w.Hush (w.changeChild i f) where
  runtime := rfl
  slot := rfl
  changes := rfl
  history := rfl
  children := ⟨i, f, hf, rfl⟩
  tasks_length := rfl
  task _ t ht := ⟨t, ht, rfl⟩

theorem World.Hush.ofOutside (outside : ε) (now : Nat) :
    w.Hush { w with outside := outside, now := now } where
  runtime := rfl
  slot := rfl
  changes := rfl
  history := rfl
  children := ⟨0, id, .nothing, by simp⟩
  tasks_length := rfl
  task _ t ht := ⟨t, ht, rfl⟩

theorem World.Hush.ofTask (h : w.Hush w') {i : Nat} {f : Task → Task}
    (hf : ∀ t, (f t).cancelled = t.cancelled) : w.Hush (w'.changeTask i f) where
  runtime := h.runtime
  slot := h.slot
  changes := h.changes
  history := h.history
  children := h.children
  tasks_length := by simpa [World.changeTask] using h.tasks_length
  task j t' ht' := by
    rw [World.changeTask, List.getElem?_modify] at ht'
    obtain ⟨t, ht, rfl⟩ := Option.map_eq_some_iff.1 ht'
    obtain ⟨t₀, h₀, hc⟩ := h.task j t ht
    exact ⟨t₀, h₀, by split <;> simp [hf, hc]⟩

theorem World.move_nil_hush {m : Move ε} (h : w.move env s m = some ([], w')) : w.Hush w' := by
  have same : w.Hush w := .ofOutside w.outside w.now
  cases m with
  | call c => cases h
  | step task =>
    -- a step without an act ends a task or a round of it
    generalize hn : ([] : List Act) = new at h
    cases World.move_step_cases h with
    | cancel t found hc =>
      refine World.Hush.ofTask ?_ fun _ => rfl
      unfold World.forgetPrompt
      split
      · exact .ofOutside _ w.now
      · exact same
    | finish t o => exact same.ofTask fun _ => rfl
    | again t => exact same.ofTask fun _ => rfl
    | ask => cases hn
  | turn outside => cases h; exact .ofOutside outside w.now
  | clock moment => cases h; exact .ofOutside w.outside moment
  | tell child e => cases h; exact .ofChild (.tell e)
  | vanish child => cases h; exact .ofChild .vanish
  | die child => cases h; exact .ofChild .die

/-- The three things that a move can be: a call, an act, or neither. -/
inductive World.Moved (env : Environment ε) (s : Service) (w : World ε) :
    List Act → World ε → Prop where
  | call (c : Call) : World.Moved env s w [.call c] (w.addTask (c.program s)).2
  | act {task : Nat} {r : Request} {k : r.Answer → Program Flow} {a : r.Answer} {w₁ : World ε}
      (pending : w.pending task = some ⟨r, k⟩)
      (performed : World.Performed env s.roles w task r a w₁) :
      World.Moved env s w [.step task r a] (w₁.changeTask task ({ · with rest := k a }))
  | hush {w' : World ε} (hush : w.Hush w') : World.Moved env s w [] w'

theorem World.move_cases {m : Move ε} {new : List Act} (h : w.move env s m = some (new, w')) :
    w.Moved env s new w' := by
  cases new with
  | nil => exact .hush (World.move_nil_hush h)
  | cons x rest =>
    -- only calls and requests are acts
    cases m with
    | call c => cases h; exact .call c
    | step task =>
      generalize hn : x :: rest = new at h ⊢
      cases World.move_step_cases h with
      | ask t r k a w₁ found hrest pending performed => exact .act pending performed
      | _ => cases hn
    | _ => cases h

/-- The induction over runs: a call, an act, or neither. -/
theorem Run.induct {J : List Act → World ε → Prop}
    (start : ∀ outside, J [] { outside := outside })
    (call : ∀ {acts w} c, Run env s acts w → J acts w →
      J (.call c :: acts) (w.addTask (c.program s)).2)
    (act : ∀ {acts w w₁ task} {r : Request} {k : r.Answer → Program Flow} {a : r.Answer},
      Run env s acts w → J acts w → w.pending task = some ⟨r, k⟩ →
      World.Performed env s.roles w task r a w₁ →
      J (.step task r a :: acts) (w₁.changeTask task ({ · with rest := k a })))
    (hush : ∀ {acts w w'}, Run env s acts w → J acts w → w.Hush w' → J acts w')
    {acts : List Act} {w : World ε} (h : Run env s acts w) : J acts w := by
  induction h with
  | init outside => exact start outside
  | move m hr hm ih =>
    cases World.move_cases hm with
    | call c => exact call c hr ih
    | act pending performed => exact act hr ih pending performed
    | hush hh => exact hush hr ih hh

theorem Run.roles_length {acts : List Act} (h : Run env s acts w) :
    (roles acts).length = w.tasks.length := by
  refine Run.induct (J := fun acts w => (roles acts).length = w.tasks.length) ?_ ?_ ?_ ?_ h
  · intro outside
    rfl
  · intro acts w c hr ih
    simp [roles, Act.birth?, World.addTask, ih]
  · intro acts w w₁ task r k a hr ih hp hperf
    simp [roles, Act.birth?, World.changeTask, hperf.tasks_length, ih]
  · intro acts w w' hr ih hh
    rw [ih, hh.tasks_length]

end

end Steward
