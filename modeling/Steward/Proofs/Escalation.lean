import Steward.Proofs.Enrolment
import Steward.Proofs.Launching

/-!
# Seeing a child off

A restart and a deactivation both have to be rid of the current child. They tell it to terminate, give it some
time to go, kill it and give it the same time again. `Escalate` is the protocol of that and `Escalation` how
far a call has come with it.

Meanwhile the child goes its own way: it may die at any moment, and its observer records the exit at any later
one. What this leaves open is `Standing`: either the child is still the current one, and then it has been sent
just the signals of the stage; or its exit is recorded and the server is stopped, and then nothing was sent to
it since. `Escalated` is all that a stage says, and `Course.escalated` shows that it is so at every moment of an
undisturbed course.
-/

set_option autoImplicit false

namespace Steward

/-! ## Signals -/

def Query.isSignal : Query → Bool
  | .terminate .. => true
  | .kill .. => true
  | _ => false

/-- The signal of the task `i` that this is. -/
def Happening.signal? (i : Nat) : Happening → Option Query
  | .asked task q _ => if task = i ∧ q.isSignal = true then some q else none
  | .replied .. => none

/-- The signals that a task has sent to children, in their order. -/
def World.signals {ε : Type} (w : World ε) (i : Nat) : List Query :=
  w.history.reverse.filterMap (Happening.signal? i)

section Signals

variable {ε : Type} {env : Environment ε} {rs : Roles} {w w₁ : World ε} {task i : Nat}

theorem World.signals_congr (h : w₁.history = w.history) (i : Nat) : w₁.signals i = w.signals i := by
  rw [World.signals, World.signals, h]

theorem World.signals_cons {x : Happening} (h : w₁.history = x :: w.history) (i : Nat) :
    w₁.signals i = w.signals i ++ (x.signal? i).toList := by
  rw [World.signals, World.signals, h, List.reverse_cons, List.filterMap_append]
  cases hx : x.signal? i <;> simp [hx]

theorem World.signals_of_asked {q : Query} {a : q.Answer} (h : w₁.history = .asked task q a :: w.history)
    (hq : task ≠ i ∨ q.isSignal = false) : w₁.signals i = w.signals i := by
  have hnone : (Happening.asked task q a).signal? i = none := by
    rcases hq with hne | hq
    · simp [Happening.signal?, hne]
    · simp [Happening.signal?, hq]
  rw [World.signals_cons h, hnone, Option.toList_none, List.append_nil]

theorem World.signals_of_sent {q : Query} {a : q.Answer} (h : w₁.history = .asked i q a :: w.history)
    (hq : q.isSignal = true) : w₁.signals i = w.signals i ++ [q] := by
  rw [World.signals_cons h]
  simp [Happening.signal?, hq]

theorem Query.not_isSignal {q : Query} (hd : (Request.query q).kind ≠ .direct)
    (hs : (Request.query q).kind ≠ .signal) : q.isSignal = false := by
  cases q with
  | terminate => exact absurd rfl hd
  | kill => exact absurd rfl hs
  | _ => rfl

/-- A task sends a signal by a stop or a kill. -/
theorem World.Performed.signals_eq {r : Request} {a : r.Answer} (h : World.Performed env rs w task r a w₁)
    (hr : task ≠ i ∨ r.kind ≠ .direct ∧ r.kind ≠ .signal ∧ r ≠ .stop ∧ r ≠ .killCurrent) :
    w₁.signals i = w.signals i := by
  cases h with
  | query q => exact World.signals_of_asked rfl (hr.imp_right fun hr => Query.not_isSignal hr.1 hr.2.1)
  | spawned spec pid told => exact World.signals_of_asked rfl (.inr rfl)
  | unspawned spec e told => exact World.signals_of_asked rfl (.inr rfl)
  | prompted ticket choice =>
    rw [World.signals_cons rfl]
    exact List.append_nil _
  | stop a w₁ hs =>
    have hne : task ≠ i := hr.resolve_right fun hr => hr.2.2.1 rfl
    cases hs with
    | delivered => exact World.signals_of_asked (World.exitNow_history _ _ _) (.inl hne)
    | undelivered => exact World.signals_of_asked (World.exitNow_history _ _ _) (.inl hne)
    | _ => rfl
  | killed h handle =>
    have hne : task ≠ i := hr.resolve_right fun hr => hr.2.2.2 rfl
    exact World.signals_of_asked (World.exitNow_history _ _ _) (.inl hne)
  | _ => exact World.signals_congr rfl i

/-- A task that does not exist yet has sent nothing. -/
theorem Run.signals_unborn {s : Service} {acts : List Act} (h : Run env s acts w) (hi : w.tasks.length ≤ i) :
    w.signals i = [] := by
  refine Run.induct (J := fun _ w => ∀ i, w.tasks.length ≤ i → w.signals i = []) ?_ ?_ ?_ ?_ h i hi
  · exact fun _ _ _ => rfl
  · intro acts w c _ ih i hi
    refine ih i (Nat.le_trans ?_ hi)
    simp [World.addTask]
  · intro acts w w₁ task r k a _ ih hp hperf i hi
    have hlt := World.lt_of_pending hp
    have hlen : w.tasks.length ≤ i := by
      refine Nat.le_trans ?_ hi
      simp [World.changeTask, hperf.tasks_length]
    exact (hperf.signals_eq (.inl (by omega))).trans (ih i hlen)
  · intro acts w w' _ ih hh i hi
    rw [World.signals_congr hh.history]
    exact ih i (hh.tasks_length ▸ hi)

/-- The state and the handle concern starts, stops, recorded exits and the streams. -/
theorem World.Performed.runtime_eq {r : Request} {a : r.Answer} (h : World.Performed env rs w task r a w₁)
    (hk : r.kind ≠ .launch ∧ r.kind ≠ .streams) (hstop : r ≠ .stop)
    (hrec : ∀ pid exit, r ≠ .recordExit pid exit) : w₁.runtime = w.runtime := by
  cases h with
  | stop => exact absurd rfl hstop
  | recorded pid exit => exact absurd rfl (hrec pid exit)
  | takeStreams => exact absurd rfl hk.2
  | killed h handle => exact World.exitNow_runtime _ _ _
  | beginStart | abortStart | registered => exact absurd rfl hk.1
  | _ => rfl

end Signals

/-! ## The child that was there -/

/-- The state behind a stop that was begun. -/
def Lifecycle.State.halted : Lifecycle.State → Lifecycle.State
  | .running pid d => .stopping pid d
  | state => state

namespace World

variable {ε : Type}

/-- The signal with which the current child is asked to go; there is one only if the server runs. -/
def warnings (w : World ε) : List Query :=
  match w.runtime.held with
  | some (child, pid) => if w.runtime.state.isRunning then [.terminate child pid] else []
  | none => []

def kills (w : World ε) : List Query := w.runtime.held.toList.map fun (child, pid) => .kill child pid

/-- The signals that the current child can be sent, without the last or with it. -/
def signalsDue (w : World ε) (killed : Bool) : List Query :=
  w.warnings ++ if killed then w.kills else []

theorem warnings_of_running {w : World ε} {child pid : Nat} (hh : w.runtime.held = some (child, pid))
    (hr : w.runtime.state.isRunning = true) : w.warnings = [.terminate child pid] := by
  simp [warnings, hh, hr]

theorem warnings_of_not_running {w : World ε} (hr : w.runtime.state.isRunning = false) : w.warnings = [] := by
  unfold warnings
  split
  · simp [hr]
  · rfl

@[simp] theorem signalsDue_false (w : World ε) : w.signalsDue false = w.warnings := List.append_nil _

@[simp] theorem signalsDue_true (w : World ε) : w.signalsDue true = w.warnings ++ w.kills := rfl

theorem signalsDue_upTo (w : World ε) (killed : Bool) : w.signalsDue killed <+: w.signalsDue true := by
  cases killed with
  | false => simp
  | true => exact List.prefix_rfl

theorem kill_not_mem_warnings (w : World ε) (child pid : Nat) : .kill child pid ∉ w.warnings := by
  unfold warnings
  split
  · split <;> simp
  · exact List.not_mem_nil

end World

/-- What became of the child that was the current one in the world `w₀`, and of the signals of the task `i`. -/
inductive Standing {ε : Type} (i : Nat) (w₀ : World ε) (state : Lifecycle.State) (sent : List Query)
    (acts : List Act) (w : World ε) : Prop where
  /-- it is so still, the server is in this state and these signals were sent -/
  | kept (held : w.runtime.held = w₀.runtime.held) (state : w.runtime.state = state)
      (signals : w.signals i = sent)
  /-- its exit is recorded, and at most these signals were sent -/
  | left (runtime : w.runtime = ⟨.stopped, none⟩)
      (recorded : ∀ child pid, w₀.runtime.held = some (child, pid) → Recorded acts child)
      (signals : w.signals i <+: sent)

theorem Recorded.cons {acts : List Act} {child : Nat} (h : Recorded acts child) (x : Act) :
    Recorded (x :: acts) child := by
  obtain ⟨i, pid, p, exit, a, hi, hm⟩ := h
  exact ⟨i, pid, p, exit, a, roles_cons_of_some x hi, List.mem_cons_of_mem x hm⟩

theorem Run.pid_of_held {ε : Type} {env : Environment ε} {s : Service} {acts : List Act} {w : World ε}
    (h : Run env s acts w) {child pid : Nat} (hh : w.runtime.held = some (child, pid)) :
    w.runtime.state.pid? = some pid := by
  obtain ⟨handle, hhandle, heq⟩ := Option.map_eq_some_iff.1 hh
  cases heq
  obtain ⟨d, hs | hs⟩ := (h.coherent.1 handle.pid).1 (by rw [hhandle]; rfl)
  · rw [hs]
    rfl
  · rw [hs]
    rfl

namespace Standing

variable {ε : Type} {env : Environment ε} {s : Service} {i : Nat} {w₀ w w₁ : World ε}
  {state : Lifecycle.State} {sent : List Query} {acts acts' : List Act}

theorem congr (h : Standing i w₀ state sent acts w) (hr : w₁.runtime = w.runtime)
    (hs : w₁.signals i = w.signals i) (hacts : ∀ child, Recorded acts child → Recorded acts' child) :
    Standing i w₀ state sent acts' w₁ := by
  cases h with
  | kept held hstate signals => exact .kept (hr ▸ held) (hr ▸ hstate) (hs ▸ signals)
  | left runtime recorded signals =>
    exact .left (hr ▸ runtime) (fun child pid hh => hacts child (recorded child pid hh)) (hs ▸ signals)

theorem signals_upTo (h : Standing i w₀ state sent acts w) : w.signals i <+: sent := by
  cases h with
  | kept held hstate signals => exact signals ▸ List.prefix_rfl
  | left runtime recorded signals => exact signals

/-- Of those who are no callers only the observer of the child has a say, and all it does is to record the
exit. -/
theorem other {phase : Nat → ServerPhase} {task : Nat} {ρ : Role} {r : Request} {a : r.Answer}
    {y : ServerPhase} (h : Standing i w₀ state sent acts w)
    (hstep : GuardedStep env s phase acts w task r a w₁ y) (hne : task ≠ i)
    (hρ : (roles acts)[task]? = some ρ) (hcall : ∀ c, ρ ≠ .call c) :
    Standing i w₀ state sent (.step task r a :: acts) w₁ := by
  have hsignals : w₁.signals i = w.signals i := hstep.performed.signals_eq (.inl hne)
  by_cases hrec : ∃ p exit, r = .recordExit p exit
  · obtain ⟨p, exit, rfl⟩ := hrec
    obtain ⟨child, hrole, hheld, -, -, rfl⟩ := hstep.record
    cases h with
    | kept held hstate signals =>
      refine .left rfl (fun child' pid hh => ?_) (signals ▸ List.prefix_rfl)
      obtain ⟨rfl, rfl⟩ := Prod.mk.inj (Option.some.inj (hheld.symm.trans (held.trans hh)))
      exact ⟨task, p, p, exit, a, roles_cons_of_some _ hrole, List.mem_cons_self⟩
    | left runtime recorded signals =>
      rw [runtime] at hheld
      cases hheld
  · obtain ⟨k, hp⟩ := hstep.pending
    have hkind := hstep.run.kind_of_pending hρ hp
    have hplain : (r.kind ≠ .launch ∧ r.kind ≠ .streams) ∧ r ≠ .stop := by
      refine ⟨⟨?_, ?_⟩, ?_⟩
      · intro hk
        rw [hk] at hkind
        cases ρ with
        | call c => exact hcall c rfl
        | _ => cases hkind
      · intro hk
        rw [hk] at hkind
        cases ρ with
        | call c => exact hcall c rfl
        | _ => cases hkind
      · rintro rfl
        cases ρ with
        | call c => exact hcall c rfl
        | _ => cases hkind
    have hruntime := hstep.performed.runtime_eq hplain.1 hplain.2 fun p exit he => hrec ⟨p, exit, he⟩
    exact h.congr hruntime hsignals fun child hc => hc.cons _

/-- A stop asks the child to go, unless that was done before or it is gone. -/
theorem stop {a : Request.StopResult} (h : Standing i w₀ w₀.runtime.state [] acts w)
    (hrun : Run env s acts w) (hheld : w₀.runtime.held ≠ none) (hs : World.Stopped env w i a w₁) :
    Standing i w₀ w₀.runtime.state.halted w₀.warnings acts w₁ ∨
    (∃ e, a = .undelivered e) ∧ Standing i w₀ w₀.runtime.state w₀.warnings acts w₁ := by
  cases h with
  | left runtime recorded signals =>
    cases hs with
    | notRunning =>
      refine .inl (.left runtime recorded ?_)
      rw [List.prefix_nil.1 signals]
      exact List.nil_prefix
    | alreadyStopping pid d hstate | unheld pid d hstate | delivered pid d _ hstate
    | undelivered pid d _ _ hstate =>
      rw [runtime] at hstate
      cases hstate
  | kept held hstate signals =>
    obtain ⟨⟨child, pid⟩, hheld₀⟩ := Option.ne_none_iff_exists'.1 hheld
    cases hs with
    | notRunning hnone =>
      rw [hrun.pid_of_held (held.trans hheld₀)] at hnone
      cases hnone
    | alreadyStopping pid' d hstop =>
      have hstate₀ : w₀.runtime.state = .stopping pid' d := hstate.symm.trans hstop
      refine .inl (.kept held ?_ ?_)
      · rw [hstop, hstate₀]
        rfl
      · rw [signals, World.warnings_of_not_running (by rw [hstate₀]; rfl)]
    | unheld pid' d hrunning handle =>
      have hnone : w.runtime.held = none := by simp [Supervisor.Runtime.held, handle]
      rw [← held, hnone] at hheld₀
      cases hheld₀
    | delivered pid' d h hrunning handle told =>
      have hstate₀ : w₀.runtime.state = .running pid' d := hstate.symm.trans hrunning
      have hh : w.runtime.held = some (h.child, h.pid) := by simp [Supervisor.Runtime.held, handle]
      refine .inl (.kept ?_ ?_ ?_)
      · rw [World.exitNow_runtime, ← held, hh]
        rfl
      · rw [World.exitNow_runtime, hstate₀]
        rfl
      · rw [World.signals_of_sent (w := w) (World.exitNow_history _ _ _) rfl, signals,
          World.warnings_of_running (held.symm.trans hh) (by rw [hstate₀]; rfl)]
        rfl
    | undelivered pid' d h e hrunning handle told =>
      have hstate₀ : w₀.runtime.state = .running pid' d := hstate.symm.trans hrunning
      have hh : w.runtime.held = some (h.child, h.pid) := by simp [Supervisor.Runtime.held, handle]
      refine .inr ⟨⟨e, rfl⟩, .kept ?_ ?_ ?_⟩
      · rw [World.exitNow_runtime]
        exact held
      · rw [World.exitNow_runtime]
        exact hstate
      · rw [World.signals_of_sent (World.exitNow_history _ _ _) rfl, signals,
          World.warnings_of_running (held.symm.trans hh) (by rw [hstate₀]; rfl)]
        rfl

/-- A kill hits the child, unless it is gone. -/
theorem kill {rs : Roles} (h : Standing i w₀ state w₀.warnings acts w)
    (hperf : World.Performed env rs w i .killCurrent () w₁) :
    Standing i w₀ state (w₀.warnings ++ w₀.kills) acts w₁ := by
  cases h with
  | left runtime recorded signals =>
    cases hperf with
    | unkilled => exact .left runtime recorded (signals.trans (List.prefix_append _ _))
    | killed h handle =>
      rw [runtime] at handle
      cases handle
  | kept held hstate signals =>
    cases hperf with
    | unkilled handle =>
      have hnone : w₀.runtime.held = none := by rw [← held]; simp [Supervisor.Runtime.held, handle]
      refine .kept held hstate ?_
      rw [signals, World.kills, hnone]
      exact (List.append_nil _).symm
    | killed h handle =>
      have hh : w₀.runtime.held = some (h.child, h.pid) := by
        rw [← held]
        simp [Supervisor.Runtime.held, handle]
      refine .kept ?_ ?_ ?_
      · rw [World.exitNow_runtime]
        exact held
      · rw [World.exitNow_runtime]
        exact hstate
      · rw [World.signals_of_sent (World.exitNow_history _ _ _) rfl, signals, World.kills, hh]
        rfl

end Standing

/-! ## The stages -/

/-- How far a call has come with the current child. -/
inductive Escalation where
  /-- it has not looked for the child yet -/
  | coming
  /-- before that it waits for the update check, which it has cancelled -/
  | parting (check : Nat)
  /-- it found this child -/
  | found (child : Nat)
  /-- the child knows that it is to go, perhaps it was killed -/
  | armed (child : Nat) (killed : Bool)
  /-- it waits for the exit up to this moment -/
  | timed (child moment : Nat) (killed : Bool)
  /-- the first wait was in vain -/
  | late (child : Nat)
  /-- so was the second one -/
  | inVain (child : Nat)
  /-- it gave up because the child could not be told -/
  | failed (reason : String)
  /-- there is no child any more -/
  | clear
  /-- a new one is being started -/
  | launching
  deriving Repr, DecidableEq

def Escalation.look : Option Nat → Escalation
  | some child => .found child
  | none => .clear

/-- Something is said to the user or in the output. -/
def Request.isRemark : Request → Bool
  | .query (.notify ..) => true
  | .query (.write ..) => true
  | _ => false

/-- What a stop failed with. -/
def Request.StopResult.failure? : Request.StopResult → Option String
  | .refused refusal => some refusal.failure.message
  | .undelivered e => some e.message
  | _ => none

/-- The steps of seeing a child off. A strict call gives up if its stop fails, any other goes on to the wait. -/
inductive Escalate (strict : Bool) (grace : Nat) : Protocol Escalation where
  | remark {x : Escalation} {r : Request} {a : r.Answer} (h : r.isRemark = true) :
      Escalate strict grace x r a x
  | take {check : Option Nat} : Escalate strict grace .coming .takeCheck check .coming
  | cancel {check : Nat} : Escalate strict grace .coming (.cancelCheck check) () (.parting check)
  | part {check : Nat} {c : Option Update.Check} :
      Escalate strict grace (.parting check) (.awaitCheck check) c .coming
  | target {child : Option Nat} : Escalate strict grace .coming .restartTarget child (.look child)
  | current {child : Option Nat} : Escalate strict grace .coming .currentChild child (.look child)
  | running {child : Nat} {state : Lifecycle.State} (h : state.isRunning = true) :
      Escalate strict grace (.found child) .readState state (.found child)
  | spared {child : Nat} {state : Lifecycle.State} (h : state.isRunning = false) :
      Escalate strict grace (.found child) .readState state (.armed child false)
  | stop {child : Nat} {a : Request.StopResult} (h : strict = true → a.failure? = none) :
      Escalate strict grace (.found child) .stop a (.armed child false)
  | fail {child : Nat} {a : Request.StopResult} {reason : String} (h : a.failure? = some reason) :
      Escalate strict grace (.found child) .stop a (.failed reason)
  | clock {child moment : Nat} {killed : Bool} :
      Escalate strict grace (.armed child killed) (.deadline grace) moment (.timed child moment killed)
  | gone {child moment : Nat} {killed : Bool} :
      Escalate strict grace (.timed child moment killed) (.awaitExit child moment) true .clear
  | late {child moment : Nat} :
      Escalate strict grace (.timed child moment false) (.awaitExit child moment) false (.late child)
  | kill {child : Nat} : Escalate strict grace (.late child) .killCurrent () (.armed child true)
  | inVain {child moment : Nat} :
      Escalate strict grace (.timed child moment true) (.awaitExit child moment) false (.inVain child)
  | closeClear : Escalate strict grace .clear (.query .closeOutput) () .clear
  | closeInVain {child : Nat} :
      Escalate strict grace (.inVain child) (.query .closeOutput) () (.inVain child)
  | enter {gate : Supervisor.StartGate} : Escalate strict grace .clear .beginStart gate .launching
  | inner {r : Request} {a : r.Answer} (h : r.isInner = true) : Escalate strict grace .launching r a .launching

section Programs

open Program

variable {s : Service} {strict : Bool} {grace child : Nat}

theorem waitExited_escalates (killed : Bool) :
    (Supervisor.waitExited child grace).Obeys (Escalate strict grace)
      (fun y seen => y = if seen then .clear else if killed then .inVain child else .late child)
      (.armed child killed) := by
  intro moment
  refine ⟨_, .clock, fun seen => ?_⟩
  cases seen with
  | true => exact ⟨_, .gone, rfl⟩
  | false =>
    cases killed with
    | true => exact ⟨_, .inVain, rfl⟩
    | false => exact ⟨_, .late, rfl⟩

theorem awaitExitOrKill_escalates :
    (Supervisor.awaitExitOrKill child grace).Obeys (Escalate strict grace)
      (fun y seen => y = if seen then .clear else .inVain child) (.armed child false) := by
  refine obeys_bind.2 ((waitExited_escalates false).mono fun y seen hy => ?_)
  subst hy
  cases seen with
  | true => exact rfl
  | false => exact Obeys.ask fun _ => ⟨_, .kill, waitExited_escalates true⟩

/-- A strict call hears of it if its stop failed. -/
theorem stop_escalates_strict :
    Supervisor.stop.Obeys (Escalate true grace)
      (fun y o => (∃ reason, o = .failed reason ∧ y = .failed reason) ∨
        (∀ reason, o ≠ .failed reason) ∧ y = .armed child false) (.found child) := by
  refine Obeys.ask fun result => ?_
  cases result with
  | notRunning => exact ⟨_, .stop fun _ => rfl, fun _ => ⟨_, .remark rfl, .inr ⟨nofun, rfl⟩⟩⟩
  | alreadyStopping => exact ⟨_, .stop fun _ => rfl, .inr ⟨nofun, rfl⟩⟩
  | refused refusal => exact ⟨_, .fail rfl, .inl ⟨_, rfl, rfl⟩⟩
  | delivered => exact ⟨_, .stop fun _ => rfl, fun _ => ⟨_, .remark rfl, .inr ⟨nofun, rfl⟩⟩⟩
  | undelivered e => exact ⟨_, .fail rfl, fun _ => ⟨_, .remark rfl, .inl ⟨_, rfl, rfl⟩⟩⟩

theorem stop_escalates :
    Supervisor.stop.Obeys (Escalate false grace) (fun y _ => y = .armed child false) (.found child) := by
  refine Obeys.ask fun result => ⟨_, .stop nofun, ?_⟩
  cases result with
  | alreadyStopping => exact rfl
  | refused refusal => exact rfl
  | _ => exact fun _ => ⟨_, .remark rfl, rfl⟩

theorem start_escalates :
    (Supervisor.start s).Obeys (Escalate strict grace) (fun y _ => y = .launching) .clear := by
  refine Obeys.ask fun gate => ⟨_, .enter, ?_⟩
  cases gate with
  | «open» => exact (inner_launch s).obeys (fun _ _ hr => .inner hr) fun _ => rfl
  | running d => exact fun _ => ⟨_, .remark rfl, rfl⟩
  | busy => exact rfl
  | refused refusal => exact rfl

/-- What a restart says when the old process will not go. -/
def lingering (s : Service) : String := s.tool ++ " did not exit, not restarting."

/-- With what a restart can end, and where. -/
def Escalation.EndsRestart (s : Service) (x : Escalation) (o : Outcome) : Prop :=
  (x = .launching ∧ ∃ so, o = .start so) ∨ (∃ reason, x = .failed reason ∧ o = .start (.failed reason)) ∨
  (∃ child, x = .inVain child ∧ o = .start (.failed (lingering s)))

theorem restart_escalates (s : Service) :
    (Call.restart.outcome s).Obeys (Escalate true s.stopGrace) (Escalation.EndsRestart s) .coming := by
  refine obeys_bind.2 (Obeys.ask fun target => ⟨_, .target, ?_⟩)
  cases target with
  | none => exact start_escalates.mono fun y o hy => .inl ⟨hy, o, rfl⟩
  | some child =>
    refine obeys_bind.2 (stop_escalates_strict.mono fun y outcome hy => ?_)
    rcases hy with ⟨reason, rfl, rfl⟩ | ⟨hne, rfl⟩
    · exact .inr (.inl ⟨reason, rfl, rfl⟩)
    · cases outcome with
      | failed reason => exact absurd rfl (hne reason)
      | _ =>
        refine obeys_bind.2 (awaitExitOrKill_escalates.mono fun y seen hy => ?_)
        subst hy
        cases seen with
        | true => exact start_escalates.mono fun y o hy => .inl ⟨hy, o, rfl⟩
        | false => exact Obeys.ask fun _ => ⟨_, .remark rfl, .inr (.inr ⟨child, rfl, rfl⟩)⟩

theorem shutdown_escalates (grace : Nat) :
    (Supervisor.shutdown grace).Obeys (Escalate false grace)
      (fun y _ => y = .clear ∨ ∃ child, y = .inVain child) .coming := by
  refine Obeys.ask fun current => ⟨_, .current, ?_⟩
  cases current with
  | none => exact .inl rfl
  | some child =>
    have rest : (discard (Supervisor.awaitExitOrKill child grace)).Obeys (Escalate false grace)
        (fun y _ => y = .clear ∨ ∃ child, y = .inVain child) (.armed child false) := by
      refine obeys_bind.2 (awaitExitOrKill_escalates.mono fun y seen hy => ?_)
      subst hy
      cases seen with
      | true => exact .inl rfl
      | false => exact .inr ⟨child, rfl⟩
    refine Obeys.ask fun state => ?_
    cases hrun : state.isRunning with
    | true =>
      refine ⟨_, .running hrun, ?_⟩
      simp only [if_true]
      refine obeys_bind.2 (obeys_bind.2 (stop_escalates.mono fun y _ hy => ?_))
      subst hy
      exact rest
    | false => exact ⟨_, .spared hrun, rest⟩

/-- With what a deactivation can end, and where. -/
def Escalation.EndsDeactivation (x : Escalation) (o : Outcome) : Prop :=
  o = .nothing ∧ (x = .clear ∨ ∃ child, x = .inVain child)

theorem deactivate_escalates (s : Service) :
    (Call.deactivate.outcome s).Obeys (Escalate false s.shutdownGrace) Escalation.EndsDeactivation
      .coming := by
  have finish : (((Supervisor.shutdown s.shutdownGrace).bind fun _ => query .closeOutput).bind
      fun _ => done Outcome.nothing).Obeys (Escalate false s.shutdownGrace) Escalation.EndsDeactivation
      .coming := by
    refine obeys_bind.2 (obeys_bind.2 ((shutdown_escalates _).mono fun y _ hy => ?_))
    rcases hy with rfl | ⟨child, rfl⟩
    · exact fun _ => ⟨_, .closeClear, rfl, .inl rfl⟩
    · exact fun _ => ⟨_, .closeInVain, rfl, .inr ⟨child, rfl⟩⟩
  refine obeys_bind.2 (Obeys.ask fun _ => ⟨_, .remark rfl, Obeys.ask fun check => ⟨_, .take, ?_⟩⟩)
  cases check with
  | none => exact obeys_bind.1 finish
  | some check => exact fun _ => ⟨_, .cancel, fun _ => ⟨_, .part, obeys_bind.1 finish⟩⟩

end Programs

/-! ## What lies behind a stage -/

section Behind

variable {ε : Type} {i child grace : Nat} {r : Request} {a : r.Answer} {e : Episode ε} {past : List (Episode ε)}
  {P P' : World ε → List (Episode ε) → Prop}

/-- The task has done this once, at a time when `P` was the case. -/
def Did (i : Nat) (r : Request) (a : r.Answer) (P : World ε → List (Episode ε) → Prop)
    (past : List (Episode ε)) : Prop :=
  ∃ later v earlier, past = later ++ ⟨v, .step i r a⟩ :: earlier ∧ P v earlier

theorem Did.now {w : World ε} (h : P w past) : Did i r a P (⟨w, .step i r a⟩ :: past) :=
  ⟨[], w, past, rfl, h⟩

theorem Did.cons (h : Did i r a P past) (e : Episode ε) : Did i r a P (e :: past) := by
  obtain ⟨later, v, earlier, rfl, hP⟩ := h
  exact ⟨e :: later, v, earlier, rfl, hP⟩

theorem Did.mem (h : Did i r a P past) : .step i r a ∈ actsOf past := by
  obtain ⟨later, v, earlier, rfl, -⟩ := h
  simp [actsOf]

theorem Did.mono (h : Did i r a P past) (hP : ∀ v earlier, P v earlier → P' v earlier) : Did i r a P' past := by
  obtain ⟨later, v, earlier, rfl, hp⟩ := h
  exact ⟨later, v, earlier, rfl, hP v earlier hp⟩

/-- The task has waited for the child, the whole grace long and in vain. `Before` was the case when the grace
began. -/
def Waited (i child grace : Nat) (Before : List (Episode ε) → Prop) (past : List (Episode ε)) : Prop :=
  ∃ moment, Did i (.awaitExit child moment) false
    (fun v earlier => moment ≤ v.now ∧ v.hasExited child = false ∧
      Did i (.deadline grace) moment (fun u first => moment = u.now + grace ∧ Before first) earlier) past

/-- The task has killed, and it had waited before. -/
def KilledLate (i child grace : Nat) (past : List (Episode ε)) : Prop :=
  Did i .killCurrent () (fun _ earlier => Waited i child grace (fun _ => True) earlier) past

/-- The task has waited once more after the kill, and again in vain. -/
def WaitedTwice (i child grace : Nat) (past : List (Episode ε)) : Prop :=
  Waited i child grace (KilledLate i child grace) past

theorem Waited.cons {Before : List (Episode ε) → Prop} (h : Waited i child grace Before past)
    (e : Episode ε) : Waited i child grace Before (e :: past) := by
  obtain ⟨moment, h⟩ := h
  exact ⟨moment, h.cons e⟩

end Behind

section Killing

variable {i : Nat} {acts : List Act}

theorem killed_iff_mem : killed i acts = true ↔ .step i .killCurrent () ∈ acts := by
  induction acts with
  | nil => exact iff_of_false nofun List.not_mem_nil
  | cons x acts ih =>
    rw [List.mem_cons, ← ih]
    cases x with
    | call c => exact (or_iff_right nofun).symm
    | step task r a =>
      rw [killed, Bool.or_eq_true, Bool.and_eq_true, beq_iff_eq, beq_iff_eq]
      refine or_congr_left ⟨?_, fun h => ?_⟩
      · rintro ⟨rfl, rfl⟩
        rfl
      · cases h
        exact ⟨rfl, rfl⟩

/-- A wait in vain behind a kill is the last act, or it was one before. -/
theorem missed_cons_cases {r : Request} {a : r.Answer} (h : missed i (.step i r a :: acts) = true) :
    (∃ child moment, Act.step i r a = .step i (.awaitExit child moment) false ∧ killed i acts = true) ∨
      missed i acts = true := by
  cases r with
  | awaitExit child moment =>
    cases a with
    | true => exact .inr h
    | false =>
      rw [missed, Bool.or_eq_true, Bool.and_eq_true] at h
      exact h.imp_left fun h => ⟨child, moment, rfl, h.2⟩
  | _ => exact .inr h

theorem missed_other {task : Nat} (h : task ≠ i) (r : Request) (a : r.Answer) (acts : List Act) :
    missed i (.step task r a :: acts) = missed i acts := by
  cases r with
  | awaitExit child moment => cases a <;> simp [missed, h]
  | _ => rfl

theorem missed_append (later : List Act) (h : missed i acts = true) : missed i (later ++ acts) = true := by
  induction later with
  | nil => exact h
  | cons x later ih => exact missed_cons x ih

theorem WaitedTwice.missed {ε : Type} {child grace : Nat} {past : List (Episode ε)}
    (h : WaitedTwice i child grace past) : missed i (actsOf past) = true := by
  obtain ⟨moment, later, v, earlier, rfl, -, -, later', u, first, rfl, -, hkill⟩ := h
  have hkilled : killed i (actsOf (later' ++ ⟨u, .step i (.deadline grace) moment⟩ :: first)) = true := by
    rw [killed_iff_mem, actsOf, List.map_append]
    exact List.mem_append_right _ (List.mem_cons_of_mem _ (Did.mem hkill))
  rw [actsOf, List.map_append, List.map_cons]
  refine missed_append _ ?_
  simp only [Steward.missed, Bool.or_eq_true, Bool.and_eq_true]
  exact .inl ⟨beq_self_eq_true i, hkilled⟩

end Killing

/-- How far a request goes in seeing a child off: it asks the child to go, waits for it, kills it, goes on
without it and starts another. -/
def Request.gravity : Request → Nat
  | .query (.notify ..) => 0
  | .query (.write ..) => 0
  | .takeCheck => 0
  | .cancelCheck _ => 0
  | .awaitCheck _ => 0
  | .restartTarget => 0
  | .currentChild => 0
  | .readState => 0
  | .stop => 0
  | .deadline _ => 1
  | .awaitExit .. => 1
  | .killCurrent => 2
  | .query .closeOutput => 3
  | _ => 4

def Escalation.gravity : Escalation → Nat
  | .armed _ killed => if killed then 2 else 1
  | .timed _ _ killed => if killed then 2 else 1
  | .late _ => 1
  | .inVain _ => 3
  | .clear => 3
  | .launching => 4
  | _ => 0

/-- What a task in this stage has behind it. -/
def Escalation.Behind {ε : Type} (grace i : Nat) (past : List (Episode ε)) : Escalation → Prop
  | .parting check => .step i (.cancelCheck check) () ∈ actsOf past
  | .armed child killed => killed = true → KilledLate i child grace past
  | .timed child moment killed => Did i (.deadline grace) moment
      (fun u earlier => moment = u.now + grace ∧ (killed = true → KilledLate i child grace earlier)) past
  | .late child => Waited i child grace (fun _ => True) past
  | .inVain child => WaitedTwice i child grace past
  | .launching => .step i .beginStart .open ∈ actsOf past
  | _ => True

/-- The child was asked to go, or even killed. A strict call has seen to it that the server is stopping. -/
def Warned {ε : Type} (strict : Bool) (i : Nat) (w₀ : World ε) (killed : Bool) (acts : List Act) (w : World ε) :
    Prop :=
  Standing i w₀ w₀.runtime.state.halted (w₀.signalsDue killed) acts w ∨
  strict = false ∧ Standing i w₀ w₀.runtime.state (w₀.signalsDue killed) acts w

/-- What a stage says about the child that was there, the server and the signals. -/
def Escalation.Stands {ε : Type} (strict : Bool) (i : Nat) (w₀ : World ε) (acts : List Act) (w : World ε) :
    Escalation → Prop
  | .coming => Standing i w₀ w₀.runtime.state [] acts w
  | .parting _ => Standing i w₀ w₀.runtime.state [] acts w
  | .found child => w₀.runtime.child? = some child ∧ Standing i w₀ w₀.runtime.state [] acts w
  | .armed child killed => w₀.runtime.child? = some child ∧ Warned strict i w₀ killed acts w
  | .timed child _ killed => w₀.runtime.child? = some child ∧ Warned strict i w₀ killed acts w
  | .late child => w₀.runtime.child? = some child ∧ Warned strict i w₀ false acts w
  | .inVain child => w₀.runtime.child? = some child ∧ Warned strict i w₀ true acts w
  | .failed _ => w.signals i <+: w₀.signalsDue false
  | .clear => Standing i w₀ .stopped (w₀.signalsDue true) acts w
  | .launching => w.signals i <+: w₀.signalsDue true ∧
      ∀ child pid, w₀.runtime.held = some (child, pid) → Recorded acts child

section Standing

variable {ε : Type} {env : Environment ε} {s : Service} {strict killed : Bool} {i : Nat} {w₀ w w₁ : World ε}
  {acts acts' : List Act} {x : Escalation}

theorem Warned.congr (h : Warned strict i w₀ killed acts w) (hr : w₁.runtime = w.runtime)
    (hs : w₁.signals i = w.signals i) (hacts : ∀ child, Recorded acts child → Recorded acts' child) :
    Warned strict i w₀ killed acts' w₁ :=
  h.imp (·.congr hr hs hacts) (And.imp_right (·.congr hr hs hacts))

theorem Warned.signals_upTo (h : Warned strict i w₀ killed acts w) :
    w.signals i <+: w₀.signalsDue killed := by
  rcases h with h | ⟨-, h⟩
  · exact h.signals_upTo
  · exact h.signals_upTo

theorem Escalation.Stands.congr (h : x.Stands strict i w₀ acts w) (hr : w₁.runtime = w.runtime)
    (hs : w₁.signals i = w.signals i) (hacts : ∀ child, Recorded acts child → Recorded acts' child) :
    x.Stands strict i w₀ acts' w₁ := by
  cases x with
  | coming => exact Standing.congr h hr hs hacts
  | parting check => exact Standing.congr h hr hs hacts
  | found child => exact ⟨h.1, h.2.congr hr hs hacts⟩
  | armed child killed => exact ⟨h.1, h.2.congr hr hs hacts⟩
  | timed child moment killed => exact ⟨h.1, h.2.congr hr hs hacts⟩
  | late child => exact ⟨h.1, h.2.congr hr hs hacts⟩
  | inVain child => exact ⟨h.1, h.2.congr hr hs hacts⟩
  | failed reason =>
    rw [Escalation.Stands, hs]
    exact h
  | clear => exact Standing.congr h hr hs hacts
  | launching => exact ⟨hs ▸ h.1, fun child pid hh => hacts child (h.2 child pid hh)⟩

/-- Whatever the stage, the child has been sent no more than it can be sent. -/
theorem Escalation.Stands.signals_upTo (h : x.Stands strict i w₀ acts w) :
    w.signals i <+: w₀.signalsDue true := by
  cases x with
  | coming => exact (Standing.signals_upTo h).trans List.nil_prefix
  | parting check => exact (Standing.signals_upTo h).trans List.nil_prefix
  | found child => exact h.2.signals_upTo.trans List.nil_prefix
  | armed child killed => exact h.2.signals_upTo.trans (w₀.signalsDue_upTo killed)
  | timed child moment killed => exact h.2.signals_upTo.trans (w₀.signalsDue_upTo killed)
  | late child => exact h.2.signals_upTo.trans (w₀.signalsDue_upTo false)
  | inVain child => exact h.2.signals_upTo
  | failed reason => exact List.IsPrefix.trans h (w₀.signalsDue_upTo false)
  | clear => exact Standing.signals_upTo h
  | launching => exact h.1

/-- Nobody else but the observer of the child has a say in it. -/
theorem Escalation.Stands.other {phase : Nat → ServerPhase} {task : Nat} {ρ : Role} {r : Request}
    {a : r.Answer} {z : ServerPhase} (h : x.Stands strict i w₀ acts w)
    (hstep : GuardedStep env s phase acts w task r a w₁ z) (hne : task ≠ i)
    (hρ : (roles acts)[task]? = some ρ) (hcall : ∀ c, ρ ≠ .call c) :
    x.Stands strict i w₀ (.step task r a :: acts) w₁ := by
  have warned : ∀ {killed}, Warned strict i w₀ killed acts w →
      Warned strict i w₀ killed (.step task r a :: acts) w₁ := fun hw =>
    hw.imp (·.other hstep hne hρ hcall) (And.imp_right (·.other hstep hne hρ hcall))
  have hsignals : w₁.signals i = w.signals i := hstep.performed.signals_eq (.inl hne)
  cases x with
  | coming => exact Standing.other h hstep hne hρ hcall
  | parting check => exact Standing.other h hstep hne hρ hcall
  | found child => exact ⟨h.1, h.2.other hstep hne hρ hcall⟩
  | armed child killed => exact ⟨h.1, warned h.2⟩
  | timed child moment killed => exact ⟨h.1, warned h.2⟩
  | late child => exact ⟨h.1, warned h.2⟩
  | inVain child => exact ⟨h.1, warned h.2⟩
  | failed reason =>
    rw [Escalation.Stands, hsignals]
    exact h
  | clear => exact Standing.other h hstep hne hρ hcall
  | launching => exact ⟨hsignals ▸ h.1, fun child pid hh => (h.2 child pid hh).cons _⟩

end Standing

/-! ## From stage to stage -/

section Stages

variable {ε : Type} {env : Environment ε} {s : Service} {strict : Bool} {grace i : Nat} {w₀ w w₁ : World ε}
  {acts : List Act} {x y : Escalation} {r : Request} {a : r.Answer} {state : Lifecycle.State}
  {sent : List Query}

/-- A restart looks for the same child as everybody. -/
theorem Run.restartTarget_eq (h : Run env s acts w) : w.runtime.restartTarget = w.runtime.child? := by
  have hpid := h.coherent.1
  obtain ⟨outside, ⟨state, handle⟩⟩ := w
  -- without a process there is no handle
  have vacant : state.pid? = none → handle = none := by
    intro hnone
    cases handle with
    | none => rfl
    | some current =>
      obtain ⟨d, hs | hs⟩ := (hpid current.pid).1 rfl
      · simp only at hs
        rw [hs] at hnone
        cases hnone
      · simp only at hs
        rw [hs] at hnone
        cases hnone
  cases state with
  | running pid d => rfl
  | stopping pid d => rfl
  | stopped =>
    obtain rfl := vacant rfl
    rfl
  | starting =>
    obtain rfl := vacant rfl
    rfl

theorem Supervisor.Runtime.held_ne_none {runtime : Supervisor.Runtime} {child : Nat}
    (h : runtime.child? = some child) : runtime.held ≠ none := by
  intro hnone
  rw [Supervisor.Runtime.child?_eq_held, hnone] at h
  cases h

theorem Standing.cleared (h : Standing i w₀ .stopped sent acts w) (hrun : Run env s acts w) :
    w.runtime = ⟨.stopped, none⟩ ∧ ∀ child pid, w₀.runtime.held = some (child, pid) → Recorded acts child := by
  cases h with
  | left runtime recorded signals => exact ⟨runtime, recorded⟩
  | kept held hstate signals =>
    have hruntime := hrun.runtime_of_stopped hstate
    refine ⟨hruntime, fun child pid hh => ?_⟩
    rw [← held, hruntime] at hh
    cases hh

/-- The call looks for the current child: it finds the one that was there, or it is gone. -/
theorem Standing.look (h : Standing i w₀ w₀.runtime.state [] acts w) (hrun : Run env s acts w)
    (hstate : w₀.runtime.state ≠ .starting) :
    (Escalation.look w.runtime.child?).Stands strict i w₀ acts w := by
  cases h with
  | left runtime recorded signals =>
    rw [runtime]
    exact .left runtime recorded (signals.trans List.nil_prefix)
  | kept held hkept signals =>
    cases hc : w.runtime.child? with
    | some child =>
      refine ⟨?_, .kept held hkept signals⟩
      rw [Supervisor.Runtime.child?_eq_held, ← held, ← Supervisor.Runtime.child?_eq_held, hc]
    | none =>
      have hnone : w.runtime.held = none := by
        rw [Supervisor.Runtime.child?_eq_held] at hc
        exact Option.map_eq_none_iff.1 hc
      have hpid : ∀ p, w.runtime.handle.map (·.pid) ≠ some p := by
        intro p hp
        have hhandle : w.runtime.handle = none := Option.map_eq_none_iff.1 hnone
        rw [hhandle] at hp
        cases hp
      have hstopped : w.runtime.state = .stopped := by
        cases hs : w.runtime.state with
        | stopped => rfl
        | starting => exact absurd (hkept.symm.trans hs) hstate
        | running p d => exact absurd ((hrun.coherent.1 p).2 ⟨d, .inl hs⟩) (hpid p)
        | stopping p d => exact absurd ((hrun.coherent.1 p).2 ⟨d, .inr hs⟩) (hpid p)
      refine .left (Supervisor.Runtime.eq_of_held hstopped hnone) (fun child pid hh => ?_)
        (signals ▸ List.nil_prefix)
      rw [← held, hnone] at hh
      cases hh

/-- A server that does not run need not be stopped. -/
theorem Standing.spared (h : Standing i w₀ w₀.runtime.state [] acts w)
    (hr : w.runtime.state.isRunning = false) :
    Standing i w₀ w₀.runtime.state.halted w₀.warnings acts w := by
  cases h with
  | left runtime recorded signals =>
    exact .left runtime recorded (signals.trans List.nil_prefix)
  | kept held hkept signals =>
    have hhalted : w₀.runtime.state.halted = w₀.runtime.state := by
      rw [← hkept]
      cases hs : w.runtime.state with
      | running pid d =>
        rw [hs] at hr
        cases hr
      | _ => rfl
    refine .kept held (hkept.trans hhalted.symm) ?_
    rw [signals, World.warnings_of_not_running (hkept ▸ hr)]

/-- Once its exit is known the child is not the current one any more. -/
theorem Standing.gone (h : Standing i w₀ state sent acts w) (hrun : Run env s acts w) {child : Nat}
    (hc : w₀.runtime.child? = some child) (hx : w.hasExited child = true) (hsent : sent <+: w₀.signalsDue true) :
    Standing i w₀ .stopped (w₀.signalsDue true) acts w := by
  cases h with
  | left runtime recorded signals => exact .left runtime recorded (signals.trans hsent)
  | kept held hkept signals =>
    have hcurrent : w.runtime.child? = some child := by
      rw [Supervisor.Runtime.child?_eq_held, held, ← Supervisor.Runtime.child?_eq_held, hc]
    obtain ⟨c, hchild, hunraised⟩ := hrun.unraised_of_child hcurrent
    simp [World.hasExited, hchild, hunraised] at hx

theorem Request.kind_of_gravity (h : r.gravity ≤ 3) :
    (r.kind ≠ .launch ∧ r.kind ≠ .streams) ∧ r.kind ≠ .direct ∧ r.kind ≠ .signal ∧ r.kind ≠ .watch := by
  cases r with
  | query q =>
    cases q with
    | notify | closeOutput => exact ⟨⟨nofun, nofun⟩, nofun, nofun, nofun⟩
    | write writer level text => cases level <;> exact ⟨⟨nofun, nofun⟩, nofun, nofun, nofun⟩
    | _ => exact absurd h (by simp [Request.gravity])
  | stop | readState | restartTarget | currentChild | killCurrent | deadline | awaitExit | takeCheck
  | cancelCheck | awaitCheck => exact ⟨⟨nofun, nofun⟩, nofun, nofun, nofun⟩
  | _ => exact absurd h (by simp [Request.gravity])

/-- What is no part of a start and is neither a stop nor a kill changes nothing here. -/
theorem World.Performed.quiet {rs : Roles} (h : World.Performed env rs w i r a w₁) (hg : r.gravity ≤ 3)
    (hstop : r ≠ .stop) (hkill : r ≠ .killCurrent) :
    w₁.runtime = w.runtime ∧ w₁.signals i = w.signals i := by
  obtain ⟨hlaunch, hdirect, hsignal, hwatch⟩ := Request.kind_of_gravity hg
  refine ⟨h.runtime_eq hlaunch hstop fun pid exit hr => hwatch (by rw [hr]; rfl), ?_⟩
  exact h.signals_eq (.inr ⟨hdirect, hsignal, hstop, hkill⟩)

theorem Request.gravity_of_remark (h : r.isRemark = true) : r.gravity = 0 := by
  cases r with
  | query q => cases q <;> first | rfl | cases h
  | _ => cases h

theorem Request.gravity_le (r : Request) : r.gravity ≤ 4 := by
  cases r with
  | query q => cases q <;> simp [Request.gravity]
  | _ => simp [Request.gravity]

/-- The way leads only onwards. -/
theorem Escalate.gravity_le (hP : Escalate strict grace x r a y) :
    x.gravity ≤ y.gravity ∧ r.gravity ≤ y.gravity := by
  cases hP with
  | remark h =>
    rw [Request.gravity_of_remark h]
    exact ⟨Nat.le_refl _, Nat.zero_le _⟩
  | inner => exact ⟨Nat.le_refl _, r.gravity_le⟩
  | @target child => cases child <;> exact ⟨Nat.zero_le _, Nat.zero_le _⟩
  | @current child => cases child <;> exact ⟨Nat.zero_le _, Nat.zero_le _⟩
  | @clock child moment killed => cases killed <;> simp [Escalation.gravity, Request.gravity]
  | @gone child moment killed => cases killed <;> simp [Escalation.gravity, Request.gravity]
  | _ => simp [Escalation.gravity, Request.gravity]

/-- A call that has waited in vain to the end has only to say so. -/
theorem Escalate.eq_of_inVain {child : Nat} (hP : Escalate strict grace (.inVain child) r a y) :
    y = .inVain child ∧ r.isTransition = false := by
  cases hP with
  | remark h =>
    refine ⟨rfl, ?_⟩
    cases r with
    | query q => rfl
    | _ => cases h
  | closeInVain => exact ⟨rfl, rfl⟩

/-- A step of the call itself. -/
theorem Escalate.stands (hP : Escalate strict grace x r a y) (hrun : Run env s acts w)
    {k : r.Answer → Program Flow} (hp : w.pending i = some ⟨r, k⟩)
    (hperf : World.Performed env s.roles w i r a w₁) (hsig : r.kind ≠ .signal)
    (hstate : w₀.runtime.state ≠ .starting) (hx : x.Stands strict i w₀ acts w) :
    y.Stands strict i w₀ (.step i r a :: acts) w₁ := by
  have recorded : ∀ child, Recorded acts child → Recorded (.step i r a :: acts) child := fun _ hc => hc.cons _
  have quiet : ∀ {z : Escalation}, r.gravity ≤ 3 → r ≠ .stop → r ≠ .killCurrent →
      z.Stands strict i w₀ acts w → z.Stands strict i w₀ (.step i r a :: acts) w₁ := by
    intro z hg hstop hkill hz
    obtain ⟨hruntime, hsignals⟩ := hperf.quiet hg hstop hkill
    exact hz.congr hruntime hsignals recorded
  cases hP with
  | remark h =>
    refine quiet (by rw [Request.gravity_of_remark h]; exact Nat.zero_le _) ?_ ?_ hx
    · rintro rfl
      cases h
    · rintro rfl
      cases h
  | take | cancel | part | running | clock | late | inVain | closeClear | closeInVain =>
    exact quiet (by simp [Request.gravity]) nofun nofun hx
  | target =>
    refine quiet (by simp [Request.gravity]) nofun nofun ?_
    cases hperf with
    | restartTarget =>
      rw [hrun.restartTarget_eq]
      exact Standing.look hx hrun hstate
  | current =>
    refine quiet (by simp [Request.gravity]) nofun nofun ?_
    cases hperf with
    | currentChild => exact Standing.look hx hrun hstate
  | spared h =>
    refine quiet (by simp [Request.gravity]) nofun nofun ?_
    cases hperf with
    | readState =>
      refine ⟨hx.1, .inl ?_⟩
      rw [World.signalsDue_false]
      exact hx.2.spared h
  | gone =>
    refine quiet (by simp [Request.gravity]) nofun nofun ?_
    cases hperf with
    | exited child moment seen =>
      obtain ⟨hc, hwarned⟩ := hx
      rcases hwarned with h | ⟨-, h⟩
      · exact h.gone hrun hc seen (w₀.signalsDue_upTo _)
      · exact h.gone hrun hc seen (w₀.signalsDue_upTo _)
  | stop h =>
    obtain ⟨hc, hstanding⟩ := hx
    have hheld := Supervisor.Runtime.held_ne_none hc
    cases hperf with
    | stop a w₁ hs =>
      refine ⟨hc, ?_⟩
      rw [Warned, World.signalsDue_false]
      rcases hstanding.stop hrun hheld hs with hstopped | ⟨⟨e, rfl⟩, hstopped⟩
      · exact .inl (hstopped.congr rfl rfl recorded)
      · refine .inr ⟨?_, hstopped.congr rfl rfl recorded⟩
        exact Bool.eq_false_iff.2 fun hstrict => nomatch h hstrict
  | fail h =>
    obtain ⟨hc, hstanding⟩ := hx
    have hheld := Supervisor.Runtime.held_ne_none hc
    cases hperf with
    | stop a w₁ hs =>
      rw [Escalation.Stands, World.signalsDue_false]
      rcases hstanding.stop hrun hheld hs with hstopped | ⟨-, hstopped⟩
      · exact hstopped.signals_upTo
      · exact hstopped.signals_upTo
  | kill =>
    obtain ⟨hc, hwarned⟩ := hx
    rw [Warned, World.signalsDue_false] at hwarned
    refine ⟨hc, ?_⟩
    rcases hwarned with h | ⟨hstrict, h⟩
    · exact .inl ((h.kill hperf).congr rfl rfl recorded)
    · exact .inr ⟨hstrict, (h.kill hperf).congr rfl rfl recorded⟩
  | enter =>
    have hsignals : w₁.signals i = w.signals i := hperf.signals_eq (.inr ⟨nofun, nofun, nofun, nofun⟩)
    refine ⟨hsignals ▸ Standing.signals_upTo hx, fun child pid hh => ?_⟩
    exact recorded child ((Standing.cleared hx hrun).2 child pid hh)
  | inner h =>
    have hkind : r.kind ≠ .halt := bne_iff_ne.1 (Bool.and_eq_true_iff.1 h).2
    have hsignals : w₁.signals i = w.signals i := by
      refine hperf.signals_eq (.inr ⟨hrun.not_direct hp a, hsig, ?_, ?_⟩)
      · rintro rfl
        exact hkind rfl
      · rintro rfl
        exact hkind rfl
    exact ⟨hsignals ▸ hx.1, fun child pid hh => recorded child (hx.2 child pid hh)⟩

variable {past : List (Episode ε)}

/-- Where there is no server any more the gate is open. -/
theorem World.open_of_stopped {gate : Supervisor.StartGate} {rs : Roles}
    (hperf : w.perform env rs i .beginStart = some (gate, w₁)) (h : w.runtime = ⟨.stopped, none⟩) :
    gate = .open := by
  simp only [World.perform, h] at hperf
  cases hperf
  rfl

/-- A wait is in vain only when its time has come. -/
theorem World.timed_out {rs : Roles} {child moment : Nat}
    (h : w.perform env rs i (.awaitExit child moment) = some (false, w₁)) :
    moment ≤ w.now ∧ w.hasExited child = false := by
  simp only [World.perform] at h
  split at h
  · cases h
  · rename_i hexited
    split at h
    · rename_i hnow
      exact ⟨hnow, Bool.not_eq_true _ ▸ hexited⟩
    · cases h

theorem Escalation.Behind.cons (h : x.Behind grace i past) (e : Episode ε) : x.Behind grace i (e :: past) := by
  cases x with
  | parting check => exact List.mem_cons_of_mem _ h
  | armed child killed => exact fun hk => (h hk).cons e
  | timed child moment killed => exact Did.cons h e
  | late child => exact Waited.cons h e
  | inVain child => exact Waited.cons h e
  | launching => exact List.mem_cons_of_mem _ h
  | _ => trivial

theorem Escalate.behind {rs : Roles} (hP : Escalate strict grace x r a y)
    (hperf : w.perform env rs i r = some (a, w₁)) (hclear : x = .clear → w.runtime = ⟨.stopped, none⟩)
    (hx : x.Behind grace i past) : y.Behind grace i (⟨w, .step i r a⟩ :: past) := by
  cases hP with
  | remark | closeInVain | inner => exact hx.cons _
  | cancel => exact List.mem_cons_self
  | @target child => cases child <;> trivial
  | @current child => cases child <;> trivial
  | spared | stop => exact nofun
  | clock =>
    cases hperf
    exact Did.now ⟨rfl, hx⟩
  | kill => exact fun _ => Did.now hx
  | @late child moment =>
    obtain ⟨hnow, hexited⟩ := World.timed_out hperf
    exact ⟨moment, Did.now ⟨hnow, hexited, Did.mono hx fun u first hu => ⟨hu.1, trivial⟩⟩⟩
  | @inVain child moment =>
    obtain ⟨hnow, hexited⟩ := World.timed_out hperf
    exact ⟨moment, Did.now ⟨hnow, hexited, Did.mono hx fun u first hu => ⟨hu.1, hu.2 rfl⟩⟩⟩
  | enter =>
    obtain rfl := World.open_of_stopped hperf (hclear rfl)
    exact List.mem_cons_self
  | _ => trivial

end Stages

/-! ## Over a course -/

/-- A call in this stage of seeing the child off. -/
structure Escalated {ε : Type} (strict : Bool) (grace i : Nat) (w₀ : World ε) (acts₀ : List Act)
    (x : Escalation) (past : List (Episode ε)) (w : World ε) : Prop where
  stands : x.Stands strict i w₀ (actsOf past ++ acts₀) w
  behind : x.Behind grace i past
  /-- nothing was done before its time -/
  graded : ∀ (r : Request) (a : r.Answer), .step i r a ∈ actsOf past → r.gravity ≤ x.gravity
  killed : ∀ child pid, .kill child pid ∈ w.signals i → Waited i child grace (fun _ => True) past
  missed : missed i (actsOf past) = true → ∃ child, x = .inVain child
  /-- behind the second wait there is nothing more to do with the server -/
  settled : ∀ later earlier, past = later ++ earlier → Steward.missed i (actsOf earlier) = true →
    ∀ e ∈ later, e.act.isTransitionOf i = false
  failed : strict = true → ∀ a reason, .step i .stop a ∈ actsOf past → a.failure? = some reason →
    x = .failed reason
  began : ∀ v gate, ⟨v, .step i .beginStart gate⟩ ∈ past → v.runtime = ⟨.stopped, none⟩ ∧ gate = .open

namespace Escalated

variable {ε : Type} {env : Environment ε} {s : Service} {strict : Bool} {grace i : Nat} {w₀ w w' w₁ : World ε}
  {acts₀ : List Act} {x y : Escalation} {r : Request} {a : r.Answer} {past : List (Episode ε)} {f : Task → Task}
  {task : Nat}

theorem hush (h : Escalated strict grace i w₀ acts₀ x past w) (hh : w.Hush w') :
    Escalated strict grace i w₀ acts₀ x past w' := by
  have hsignals := World.signals_congr hh.history i
  exact { h with
    stands := h.stands.congr hh.runtime hsignals fun _ => id
    killed := fun child pid hm => h.killed child pid (hsignals ▸ hm) }

/-- The next act is no transition of the task either. -/
theorem settled_cons (h : Escalated strict grace i w₀ acts₀ x past w) {e : Episode ε}
    (he : Steward.missed i (actsOf past) = true → e.act.isTransitionOf i = false) (later earlier : List (Episode ε))
    (hpast : e :: past = later ++ earlier) (hm : Steward.missed i (actsOf earlier) = true) :
    ∀ e' ∈ later, e'.act.isTransitionOf i = false := by
  cases later with
  | nil => exact List.forall_mem_nil _
  | cons e' later =>
    rw [List.cons_append] at hpast
    obtain ⟨rfl, rfl⟩ := List.cons.inj hpast
    refine List.forall_mem_cons.2 ⟨he ?_, h.settled later earlier rfl hm⟩
    rw [actsOf, List.map_append]
    exact missed_append _ hm

/-- What others do leaves the call where it is. -/
theorem other {ρ : Role} {k : r.Answer → Program Flow} (h : Escalated strict grace i w₀ acts₀ x past w)
    (hrun : Run env s (actsOf past ++ acts₀) w) (hne : task ≠ i)
    (hρ : (roles (actsOf past ++ acts₀))[task]? = some ρ) (hcall : ∀ c, ρ ≠ .call c)
    (hp : w.pending task = some ⟨r, k⟩) (hperf : World.Performed env s.roles w task r a w₁) :
    Escalated strict grace i w₀ acts₀ x (⟨w, .step task r a⟩ :: past) (w₁.changeTask task f) := by
  obtain ⟨phase, z, hstep⟩ := hrun.guardedStep hp hperf
  have hsignals : w₁.signals i = w.signals i := hperf.signals_eq (.inl hne)
  -- what is told of the task is from before
  have acted : ∀ {r' : Request} {a' : r'.Answer}, .step i r' a' ∈ Act.step task r a :: actsOf past →
      .step i r' a' ∈ actsOf past := by
    intro r' a' hm
    rcases List.mem_cons.1 hm with heq | hm
    · injection heq with heq
      exact absurd heq.symm hne
    · exact hm
  refine ⟨(h.stands.other hstep hne hρ hcall).congr rfl (World.signals_congr rfl i) fun _ => id,
    h.behind.cons _, fun r' a' hm => h.graded r' a' (acted hm), fun child pid hm => ?_, fun hm => ?_, ?_,
    fun hs a' reason hm => h.failed hs a' reason (acted hm), fun v gate hm => ?_⟩
  · exact (h.killed child pid (hsignals ▸ hm)).cons _
  · exact h.missed ((missed_other hne r a _).symm.trans hm)
  · exact h.settled_cons fun _ => Act.isTransitionOf_other hne r a
  · rcases List.mem_cons.1 hm with heq | hm
    · cases heq
      exact absurd rfl hne
    · exact h.began v gate hm

theorem killed_own (h : Escalated strict grace i w₀ acts₀ x past w) (hrun : Run env s (actsOf past ++ acts₀) w)
    {k : r.Answer → Program Flow} (hp : w.pending i = some ⟨r, k⟩)
    (hperf : World.Performed env s.roles w i r a w₁) (hsig : r.kind ≠ .signal)
    (hP : Escalate strict grace x r a y)
    (hy : y.Stands strict i w₀ (.step i r a :: (actsOf past ++ acts₀)) w₁) {child pid : Nat}
    (hm : .kill child pid ∈ w₁.signals i) : Waited i child grace (fun _ => True) (⟨w, .step i r a⟩ :: past) := by
  by_cases hstop : r = .stop
  · subst hstop
    -- a stop only asks the child to go
    have hwarned : w₁.signals i <+: w₀.warnings := by
      rw [← World.signalsDue_false]
      cases hP with
      | remark hr => cases hr
      | stop => exact hy.2.signals_upTo
      | fail => exact hy
      | inner hr => cases hr
    exact absurd (hwarned.subset hm) (w₀.kill_not_mem_warnings child pid)
  · by_cases hkill : r = .killCurrent
    · subst hkill
      cases hP with
      | remark hr => cases hr
      | inner hr => cases hr
      | @kill late =>
        have hwaited : Waited i late grace (fun _ => True) past := h.behind
        have hsent := hy.signals_upTo.subset hm
        have hheld : w₀.runtime.held = some (child, pid) := by
          rcases List.mem_append.1 hsent with hm | hm
          · exact absurd hm (w₀.kill_not_mem_warnings child pid)
          · simpa [World.kills] using hm
        have hc : w₀.runtime.child? = some late := hy.1
        rw [Supervisor.Runtime.child?_eq_held, hheld] at hc
        obtain rfl := Option.some.inj hc
        exact hwaited.cons _
    · have hsignals : w₁.signals i = w.signals i :=
        hperf.signals_eq (.inr ⟨hrun.not_direct hp a, hsig, hstop, hkill⟩)
      exact (h.killed child pid (hsignals ▸ hm)).cons _

theorem missed_own (h : Escalated strict grace i w₀ acts₀ x past w) (hP : Escalate strict grace x r a y)
    (hm : Steward.missed i (.step i r a :: actsOf past) = true) : ∃ child, y = .inVain child := by
  rcases missed_cons_cases hm with ⟨child, moment, heq, hkilled⟩ | hm
  · cases heq
    -- a wait that comes behind a kill is the second one
    have hgrave := h.graded .killCurrent () (killed_iff_mem.1 hkilled)
    cases hP with
    | remark hr => cases hr
    | late => exact absurd hgrave (by simp [Request.gravity, Escalation.gravity])
    | inVain => exact ⟨child, rfl⟩
    | inner hr => cases hr
  · obtain ⟨child, rfl⟩ := h.missed hm
    exact ⟨child, hP.eq_of_inVain.1⟩

theorem failed_own (h : Escalated strict grace i w₀ acts₀ x past w) (hP : Escalate strict grace x r a y)
    (hstrict : strict = true) {result : Request.StopResult} {reason : String}
    (hm : .step i .stop result ∈ actsOf (⟨w, .step i r a⟩ :: past)) (hf : result.failure? = some reason) :
    y = .failed reason := by
  rcases List.mem_cons.1 hm with heq | hm
  · cases heq
    cases hP with
    | remark hr => cases hr
    | stop hnone =>
      rw [hnone hstrict] at hf
      cases hf
    | fail hsome =>
      rw [hsome] at hf
      obtain rfl := Option.some.inj hf
      rfl
    | inner hr => cases hr
  · have hx := h.failed hstrict result reason hm hf
    subst hx
    cases hP with
    | remark => rfl

/-- A step of the call itself. -/
theorem own (h : Escalated strict grace i w₀ acts₀ x past w) (hrun : Run env s (actsOf past ++ acts₀) w)
    {k : r.Answer → Program Flow} (hp : w.pending i = some ⟨r, k⟩)
    (hperf : w.perform env s.roles i r = some (a, w₁)) (hsig : r.kind ≠ .signal)
    (hstate : w₀.runtime.state ≠ .starting) (hP : Escalate strict grace x r a y) :
    Escalated strict grace i w₀ acts₀ y (⟨w, .step i r a⟩ :: past) (w₁.changeTask i f) := by
  have hperformed := World.perform_cases hperf
  have hstands := hP.stands hrun hp hperformed hsig hstate h.stands
  have hclear : x = .clear → w.runtime = ⟨.stopped, none⟩ := by
    rintro rfl
    exact (Standing.cleared h.stands hrun).1
  refine ⟨hstands.congr rfl (World.signals_congr rfl i) fun _ => id, hP.behind hperf hclear h.behind,
    fun r' a' hm => ?_, fun child pid hm => h.killed_own hrun hp hperformed hsig hP hstands hm,
    fun hm => h.missed_own hP hm, h.settled_cons fun hm => ?_,
    fun hs a' reason hm hf => h.failed_own hP hs hm hf, fun v gate hm => ?_⟩
  · obtain ⟨honwards, hgrave⟩ := hP.gravity_le
    rcases List.mem_cons.1 hm with heq | hm
    · cases heq
      exact hgrave
    · exact Nat.le_trans (h.graded r' a' hm) honwards
  · obtain ⟨child, rfl⟩ := h.missed hm
    exact Act.isTransitionOf_of_not hP.eq_of_inVain.2 i a
  · rcases List.mem_cons.1 hm with heq | hm
    · cases heq
      cases hP with
      | remark hr => cases hr
      | enter => exact ⟨hclear rfl, World.open_of_stopped hperf (hclear rfl)⟩
      | inner hr => cases hr
    · exact h.began v gate hm

end Escalated

section Courses

variable {ε : Type} {env : Environment ε} {s : Service} {acts₀ : List Act} {w₀ w : World ε} {c : Call}
  {past : List (Episode ε)}

/-- A call kills only the current child: the one that it starts is never refused. -/
theorem Course.not_signal (h : Course env s (w₀.called s c) past w) (h₀ : Run env s acts₀ w₀) {r : Request}
    {k : r.Answer → Program Flow} (hp : w.pending w₀.tasks.length = some ⟨r, k⟩) : r.kind ≠ .signal := by
  intro hkind
  have hused := (h.run_of_call h₀).kind_of_pending (h₀.role_of_call c _) hp
  rw [hkind] at hused
  have hc : c.kinds.contains .launch = true := by
    cases c <;> first | rfl | cases hused
  obtain ⟨x, hx, hkeep⟩ := h.ventured h₀ hc
  obtain ⟨a⟩ := r.answerable
  obtain ⟨y, hL⟩ := hkeep.pending hp a
  cases hL with
  | plain hr =>
    cases r with
    | query q =>
      cases q with
      | write writer level text => cases level <;> cases hkind
      | kill => cases hr
      | _ => cases hkind
    | _ => cases hkind
  | halt hr => exact absurd (hkind.symm.trans hr) nofun
  | kill => exact hx.reached
  | _ => cases hkind

/-- **A call that sees the current child off, at every moment of an undisturbed course.** -/
theorem Course.escalated {strict : Bool} {grace : Nat} {Q : Escalation → Outcome → Prop}
    (h₀ : Run env s acts₀ w₀) (hc : (c.outcome s).Obeys (Escalate strict grace) Q .coming)
    (hstate : w₀.runtime.state ≠ .starting) (h : Course env s (w₀.called s c) past w)
    (hu : Undisturbed w₀.tasks.length (.call c :: acts₀) past) :
    ∃ x, Escalated strict grace w₀.tasks.length w₀ (.call c :: acts₀) x past w ∧
      w.Keeps (Escalate strict grace) Q w₀.tasks.length x := by
  refine Course.attend (J := Escalated strict grace w₀.tasks.length w₀ (.call c :: acts₀)) h₀ hc ?_ ?_ ?_ ?_ h hu
  · have hsignals : (w₀.called s c).signals w₀.tasks.length = [] := h₀.signals_unborn (Nat.le_refl _)
    refine ⟨.kept rfl rfl hsignals, trivial, fun _ _ hm => absurd hm List.not_mem_nil, fun child pid hm => ?_,
      (fun hm => nomatch hm), fun later earlier hpast => ?_, fun _ _ _ hm => absurd hm List.not_mem_nil,
      fun _ _ hm => absurd hm List.not_mem_nil⟩
    · rw [hsignals] at hm
      exact absurd hm List.not_mem_nil
    · obtain ⟨rfl, -⟩ := List.append_eq_nil_iff.1 hpast.symm
      exact fun _ => List.forall_mem_nil _
  · intro x y past w w₁ r k a hcourse hJ hp hperf hP
    exact hJ.own (hcourse.run_of_call h₀) hp hperf (hcourse.not_signal h₀ hp) hstate hP
  · intro x past w w₁ task ρ r k a hcourse hJ hne hρ hcall hp hperf
    exact hJ.other (hcourse.run_of_call h₀) hne hρ hcall hp (World.perform_cases hperf)
  · intro x past w w' hJ hh
    exact hJ.hush hh

end Courses

end Steward
