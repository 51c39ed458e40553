import Steward.Proofs.Repertoire

/-!
# Custody of the server

At any moment at most one task has the server in its custody: the start that was let through the gate,
from then until its child has an observer, and after that the observer, until it has recorded the exit.
`ServerPhase` is how far a task has come with that, `Handover` the protocol of the steps from one phase
to the next. All other requests are neutral; whoever puts them, they neither give custody nor take it.

This module shows that every role keeps to the protocol. What the one custodian says about the state and
the children is in `Steward.Proofs.Guardian`.
-/

set_option autoImplicit false

namespace Steward

/-- How far a task has come with a server. -/
inductive ServerPhase where
  /-- it has none -/
  | free
  /-- it will not have one any more: an update check, or an observer whose child is gone -/
  | aside
  /-- it is let through the gate and has no child yet -/
  | starting
  /-- its child is started and not yet registered -/
  | spawned (child pid : Nat)
  /-- its child is registered and has no observer yet -/
  | registered (child pid : Nat)
  /-- it observes the child -/
  | watching (child pid : Nat)
  /-- it knows that the child is gone and has not yet recorded it -/
  | bereft (child pid : Nat)
  /-- it has recorded the exit and not yet told those who wait for it -/
  | recorded (child : Nat)
  deriving Repr, DecidableEq

namespace ServerPhase

/-- Whether the task has custody. -/
def hasCustody : ServerPhase → Bool
  | .free => false
  | .aside => false
  | .recorded _ => false
  | _ => true

/-- Whether the task is a start under way: let through the gate, neither registered nor given up. -/
def isStart : ServerPhase → Bool
  | .starting => true
  | .spawned .. => true
  | _ => false

/-- A task that is through has nothing in hand. -/
def IsIdle (x : ServerPhase) : Prop := x = .free ∨ x = .aside

end ServerPhase

/-- A request that has nothing to do with custody. -/
def Request.isNeutral : Request → Bool
  | .query (.spawn _) => false
  | .spawn _ => false
  | .beginStart => false
  | .abortStart _ => false
  | .register .. => false
  | .recordExit .. => false
  | .observe .. => false
  | .nextEvent _ => false
  | .raiseExited _ => false
  | _ => true

/-- The steps from phase to phase. -/
inductive Handover : Protocol ServerPhase where
  | neutral {x : ServerPhase} {r : Request} {a : r.Answer} (h : r.isNeutral = true) : Handover x r a x
  | enter : Handover .free .beginStart .open .starting
  | pass {gate : Supervisor.StartGate} (h : gate ≠ .open) : Handover .free .beginStart gate .free
  | abort {reason : String} : Handover .starting (.abortStart reason) () .free
  | spawn {spec : LaunchSpec} {child pid : Nat} :
      Handover .starting (.spawn spec) (.ok (child, pid)) (.spawned child pid)
  | unspawned {spec : LaunchSpec} {e : Failure} :
      Handover .starting (.spawn spec) (.error e) .starting
  | register {child pid : Nat} {streams : Bool} {d : Definition} :
      Handover (.spawned child pid) (.register ⟨child, pid, streams⟩ d) (.ok ())
        (.registered child pid)
  | unregistered {child pid : Nat} {streams : Bool} {d : Definition} {e : Lifecycle.Refusal} :
      Handover (.spawned child pid) (.register ⟨child, pid, streams⟩ d) (.error e) .free
  | observe {child pid : Nat} : Handover (.registered child pid) (.observe child pid) () .free
  | event {child pid : Nat} {e : ChildEvent} (h : ∀ exit, e ≠ .exited exit) :
      Handover (.watching child pid) (.nextEvent child) (some e) (.watching child pid)
  | exit {child pid : Nat} {exit : Exit} :
      Handover (.watching child pid) (.nextEvent child) (some (.exited exit)) (.bereft child pid)
  | silence {child pid : Nat} :
      Handover (.watching child pid) (.nextEvent child) none (.bereft child pid)
  | record {child pid : Nat} {exit : Exit} {a : Except Lifecycle.Refusal Lifecycle.Transition} :
      Handover (.bereft child pid) (.recordExit pid exit) a (.recorded child)
  | raise {child : Nat} : Handover (.recorded child) (.raiseExited child) () .aside

/-- The phase in which a task begins. -/
def Role.phase : Role → ServerPhase
  | .call _ => .free
  | .observer child pid => .watching child pid
  | .check => .aside

/-- Whether a task of the role can be in the phase: calls start servers, observers look after them. -/
def Role.allows : Role → ServerPhase → Bool
  | .call _, .free => true
  | .call _, .starting => true
  | .call _, .spawned .. => true
  | .call _, .registered .. => true
  | .observer child pid, .watching c p => c == child && p == pid
  | .observer child pid, .bereft c p => c == child && p == pid
  | .observer child _, .recorded c => c == child
  | .observer .., .aside => true
  | .check, .aside => true
  | _, _ => false

theorem Role.allows_phase (ρ : Role) : ρ.allows ρ.phase = true := by
  cases ρ <;> simp [Role.allows, Role.phase]

/-- No step of the protocol leads out of a role. -/
theorem Handover.allows {ρ : Role} {x y : ServerPhase} {r : Request} {a : r.Answer}
    (h : Handover x r a y) (hx : ρ.allows x = true) : ρ.allows y = true := by
  cases h with
  | neutral | pass | unspawned | event => exact hx
  | _ => cases ρ <;> simp_all [Role.allows]

/-! ## Programs -/

/-- Requests of these kinds have nothing to do with custody. -/
def Request.Kind.isNeutral : Request.Kind → Bool
  | .launch => false
  | .watch => false
  | .direct => false
  | _ => true

section Custody

open Program

theorem Request.isNeutral_of_kind {r : Request} (h : r.kind.isNeutral = true) :
    r.isNeutral = true := by
  cases r with
  | query q => cases q <;> first | rfl | cases h
  | _ => first | rfl | cases h

/-- Programs without custody. -/
theorem Program.Uses.stays {α : Type} {ks : List Request.Kind} {p : Program α} (hp : p.Uses ks)
    (hk : ks.all Request.Kind.isNeutral = true) {x : ServerPhase} {Q : ServerPhase → α → Prop}
    (hQ : ∀ a, Q x a) : p.Obeys Handover Q x :=
  hp.obeys_all hk (fun _ _ hr => .neutral (Request.isNeutral_of_kind hr)) hQ

/-- A start that has failed gives up its custody. -/
theorem giveUp_obeys (outcome : Supervisor.StartOutcome) (reason : String) :
    (Supervisor.giveUp outcome reason).Obeys Handover (fun y _ => y = .free) .starting := by
  intro a
  exact ⟨.free, .abort, rfl⟩

theorem launchPlan_obeys (s : Service) (p : Supervisor.Plan) :
    (Supervisor.launchPlan s p).Obeys Handover (fun y _ => y = .free) .starting := by
  refine obeys_bind.2 ((uses_write _ _ _ rfl).stays rfl fun _ => ?_)
  refine Obeys.ask fun spawned => ?_
  cases spawned with
  | error e =>
    refine ⟨.starting, .unspawned, obeys_bind.2 ((uses_write _ _ _ rfl).stays rfl fun _ => ?_)⟩
    exact obeys_bind.2 ((uses_notify _ _).stays rfl fun _ => giveUp_obeys _ _)
  | ok identity =>
    obtain ⟨child, pid⟩ := identity
    refine ⟨.spawned child pid, .spawn, Obeys.ask fun registered => ?_⟩
    cases registered with
    | error refusal =>
      -- the protocol allows for a refusal; that there is none is a fact about runs
      refine ⟨.free, .unregistered, ?_⟩
      exact fun _ => ⟨.free, .neutral rfl, rfl⟩
    | ok u =>
      refine ⟨.registered child pid, .register, fun _ => ⟨.free, .observe, ?_⟩⟩
      exact obeys_bind.2 ((uses_write _ _ _ rfl).stays rfl fun _ _ => ⟨.free, .neutral rfl, rfl⟩)

theorem launchAt_obeys (s : Service) (path : String) :
    (Supervisor.launchAt s path).Obeys Handover (fun y _ => y = .free) .starting := by
  refine Obeys.ask fun options => ⟨.starting, .neutral rfl, ?_⟩
  cases options with
  | error e => exact obeys_bind.2 ((uses_notify _ _).stays rfl fun _ => giveUp_obeys _ _)
  | ok options =>
    dsimp only
    split
    · refine Obeys.ask fun port => ⟨.starting, .neutral rfl, ?_⟩
      cases port with
      | error e => exact obeys_bind.2 ((uses_notify _ _).stays rfl fun _ => giveUp_obeys _ _)
      | ok port => exact launchPlan_obeys s _
    · exact launchPlan_obeys s _

theorem launch_obeys (s : Service) :
    (Supervisor.launch s).Obeys Handover (fun y _ => y = .free) .starting := by
  refine obeys_bind.2 ((uses_resolveProgram s).stays rfl fun resolved => ?_)
  cases resolved with
  | error outcome => exact giveUp_obeys _ _
  | ok path => exact launchAt_obeys s path

theorem start_obeys (s : Service) :
    (Supervisor.start s).Obeys Handover (fun y _ => y = .free) .free := by
  refine Obeys.ask fun gate => ?_
  cases gate with
  | «open» => exact ⟨.starting, .enter, launch_obeys s⟩
  | running d =>
    refine ⟨.free, .pass (by simp), ?_⟩
    exact obeys_bind.2 ((uses_notify _ _).stays rfl fun _ => rfl)
  | busy => exact ⟨.free, .pass (by simp), rfl⟩
  | refused refusal => exact ⟨.free, .pass (by simp), rfl⟩

theorem outcome_obeys (s : Service) (c : Call) :
    (c.outcome s).Obeys Handover (fun y _ => y = .free) .free := by
  cases hc : c.isUpdate with
  | false =>
    exact Call.obeys_of_start (P := Handover) (Q := (· = ServerPhase.free)) (by rfl)
      (fun _ _ _ _ hr => .neutral (Request.isNeutral_of_kind hr)) rfl (start_obeys s) hc
  | true =>
    cases c with
    | checkForUpdates => exact obeys_bind.2 ((uses_check s).stays rfl fun _ => rfl)
    | runUpdate => exact obeys_bind.2 ((uses_runUpdate s).stays rfl fun _ => rfl)
    | _ => cases hc

/-- The observer lets go of a child in two steps: the exit is recorded, then everyone hears of it. -/
theorem conclude_obeys (s : Service) (child pid : Nat) (exit : Exit) :
    (Supervisor.conclude s child pid exit).Obeys Handover (fun y _ => y = .aside)
      (.bereft child pid) := by
  have handled : (Supervisor.handleExit s pid exit).Obeys Handover
      (fun y _ => y = .recorded child) (.bereft child pid) := by
    refine Obeys.ask fun recorded => ⟨.recorded child, .record, ?_⟩
    -- what the user is told and when changes nothing about custody
    have announced : ∀ t : Lifecycle.Transition, (do
        if t.effects.contains .definitionChanged then perform .announceChange
          : Program Unit).Obeys Handover (fun y _ => y = .recorded child) (.recorded child) := by
      intro t
      split
      · exact Obeys.ask fun _ => ⟨.recorded child, .neutral rfl, rfl⟩
      · exact rfl
    cases recorded with
    | error e => exact rfl
    | ok t =>
      dsimp only
      split
      · split
        · exact obeys_bind.2 ((uses_notify _ _).stays rfl fun _ => announced t)
        · exact announced t
      · exact rfl
  refine obeys_bind.2 ((uses_write _ _ _ rfl).stays rfl fun _ => ?_)
  refine obeys_bind.2 (handled.mono fun y _ hy => ?_)
  subst hy
  exact fun _ => ⟨.aside, .raise, rfl⟩

theorem observeOnce_obeys (s : Service) (child pid : Nat) :
    (Supervisor.observeOnce s child pid).Obeys Handover
      (fun y last => y = if last then .aside else .watching child pid) (.watching child pid) := by
  refine Obeys.ask fun e => ?_
  cases e with
  | none =>
    refine ⟨.bereft child pid, .silence, ?_⟩
    exact obeys_bind.2 ((conclude_obeys s child pid _).mono fun _ _ hy => hy)
  | some e =>
    cases e with
    | stdout line =>
      refine ⟨.watching child pid, .event (by simp), ?_⟩
      exact obeys_bind.2 ((uses_relay _ _ _).stays rfl fun _ => rfl)
    | stderr line =>
      refine ⟨.watching child pid, .event (by simp), ?_⟩
      exact obeys_bind.2 ((uses_relay _ _ _).stays rfl fun _ => rfl)
    | error reason =>
      refine ⟨.watching child pid, .event (by simp), ?_⟩
      refine obeys_bind.2 ((uses_write _ _ _ rfl).stays rfl fun _ => ?_)
      exact obeys_bind.2 ((uses_notify _ _).stays rfl fun _ => rfl)
    | exited exit =>
      refine ⟨.bereft child pid, .exit, ?_⟩
      exact obeys_bind.2 ((conclude_obeys s child pid _).mono fun _ _ hy => hy)

/-- **Every role keeps to the protocol of custody.** -/
theorem Role.obeys (s : Service) (ρ : Role) :
    (ρ.program s).Obeys Handover (Closes ServerPhase.IsIdle ρ.phase) ρ.phase := by
  cases ρ with
  | call c => exact obeys_bind.2 ((outcome_obeys s c).mono fun _ _ hy => .inl hy)
  | observer child pid =>
    refine obeys_bind.2 ((observeOnce_obeys s child pid).mono fun y last hy => ?_)
    cases last with
    | true => exact .inr hy
    | false => exact hy
  | check => exact obeys_bind.2 ((uses_check s).stays rfl fun _ => .inr rfl)

end Custody

end Steward
