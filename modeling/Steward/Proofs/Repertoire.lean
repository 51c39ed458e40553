import Steward.Proofs.Protocol

/-!
# What programs ask for

Requests come in kinds, and a program asks only for some of them: an update check talks, asks the user
and runs commands, but it starts no server and stops none. `Program.Uses` says which kinds a program can
ask for, whatever it is answered, and there is one lemma for every program of the supervisor.

That settles the greater part of every protocol at once. A protocol that leaves its state alone on some
kinds is kept by the programs of these kinds (`Uses.obeys`), and for the calls it is then enough to look at
how a start goes (`Call.obeys_of_start`).
-/

set_option autoImplicit false

namespace Steward

/-! ## Kinds -/

/-- What a request is about. -/
inductive Request.Kind where
  /-- something is found out or told -/
  | talk
  /-- a line of a child is passed on -/
  | relay
  /-- the user is asked -/
  | dialogue
  | command
  /-- a step on the way to a registered child -/
  | launch
  /-- a child that could not be registered is killed -/
  | signal
  /-- the current child is stopped or waited for -/
  | halt
  | streams
  | announce
  /-- the life of a child is followed -/
  | watch
  /-- the current update check -/
  | check
  /-- the world outside starts or ends a child; only the supervisor's own steps lead to that -/
  | direct
  deriving Repr, DecidableEq

def Request.kind : Request → Request.Kind
  | .query (.spawn _) => .direct
  | .query (.terminate ..) => .direct
  | .query (.kill ..) => .signal
  | .query (.prompt ..) => .dialogue
  | .query (.command ..) => .command
  | .query (.write _ .stdout _) => .relay
  | .query (.write _ .stderr _) => .relay
  | .query _ => .talk
  | .awaitPrompt _ => .dialogue
  | .awaitCommand _ => .command
  | .spawn _ => .launch
  | .beginStart => .launch
  | .abortStart _ => .launch
  | .register .. => .launch
  | .observe .. => .launch
  | .stop => .halt
  | .readState => .halt
  | .restartTarget => .halt
  | .currentChild => .halt
  | .killCurrent => .halt
  | .deadline _ => .halt
  | .awaitExit .. => .halt
  | .takeStreams => .streams
  | .announceChange => .announce
  | .recordExit .. => .watch
  | .nextEvent _ => .watch
  | .raiseExited _ => .watch
  | .spawnCheck => .check
  | .swapCheck _ => .check
  | .takeCheck => .check
  | .cancelCheck _ => .check
  | .awaitCheck _ => .check

namespace Program

variable {α β σ : Type} {ks : List Request.Kind}

/-- The program asks only for these kinds of things. -/
def Uses (ks : List Request.Kind) (p : Program α) : Prop := p.Only fun r => ks.contains r.kind

theorem uses_done {a : α} : (done a).Uses ks := trivial

theorem uses_perform {r : Request} (h : ks.contains r.kind = true) : (perform r).Uses ks :=
  only_perform h

theorem Uses.bind {p : Program α} {f : α → Program β} (hp : p.Uses ks) (hf : ∀ a, (f a).Uses ks) :
    (p.bind f).Uses ks := Only.bind hp hf

/-- More kinds are allowed. -/
theorem Uses.widen {ks' : List Request.Kind} {p : Program α} (hp : p.Uses ks)
    (h : ks.all ks'.contains = true) : p.Uses ks' := by
  refine Only.mono (fun r hr => ?_) hp
  rw [List.contains_iff_mem] at hr
  exact List.all_eq_true.1 h r.kind hr

/-- A program keeps to a protocol that leaves the state alone on everything it asks for. -/
theorem Uses.obeys {P : Protocol σ} {Q : σ → α → Prop} {x : σ} {p : Program α} (hp : p.Uses ks)
    (hP : ∀ (r : Request) (a : r.Answer), ks.contains r.kind = true → P x r a x) (hQ : ∀ a, Q x a) :
    p.Obeys P Q x := Only.obeys hP hp hQ

/-- The same for a protocol that is put in terms of kinds. -/
theorem Uses.obeys_all {P : Protocol σ} {Q : σ → α → Prop} {x : σ} {p : Program α} (hp : p.Uses ks)
    {kind : Request.Kind → Bool} (hk : ks.all kind = true)
    (hP : ∀ (r : Request) (a : r.Answer), kind r.kind = true → P x r a x) (hQ : ∀ a, Q x a) :
    p.Obeys P Q x :=
  hp.obeys (fun r a hr => hP r a (List.all_eq_true.1 hk r.kind (List.contains_iff_mem.1 hr))) hQ

theorem uses_write (writer : Writer) (level : OutputLog.Level) (text : String)
    (h : [Request.Kind.talk].contains (Request.query (.write writer level text)).kind = true) :
    (write writer level text).Uses [.talk] := uses_perform h

theorem uses_relay (writer : Writer) (level : OutputLog.Level) (text : String) :
    (write writer level text).Uses [.talk, .relay] := by
  cases level <;> exact uses_perform rfl

theorem uses_notify (notice : Notice) (text : String) : (notify notice text).Uses [.talk] :=
  uses_perform rfl

theorem uses_prompt (severity : Severity) (text : String) (choices : List String) :
    (prompt severity text choices).Uses [.dialogue] := ⟨rfl, fun _ => ⟨rfl, fun _ => trivial⟩⟩

theorem uses_command (program : String) (args : List String) :
    (command program args).Uses [.command] := ⟨rfl, fun _ => ⟨rfl, fun _ => trivial⟩⟩

end Program

open Program

/-! ## Installing and updating -/

section Tool

theorem uses_runInstall (s : Service) : (Tool.runInstall s).Uses [.command] := by
  refine (uses_command _ _).bind fun output => ?_
  cases output with
  | error e => exact trivial
  | ok o => dsimp only; split <;> exact trivial

theorem uses_installPrompted (s : Service) :
    (Tool.installPrompted s).Uses [.talk, .dialogue, .command] := by
  refine ((uses_prompt _ _ _).widen rfl).bind fun choice => ?_
  dsimp only
  split
  · exact trivial
  · refine ((uses_runInstall s).widen rfl).bind fun outcome => ?_
    cases outcome with
    | cancelled => exact trivial
    | _ => exact ⟨rfl, fun _ => trivial⟩

theorem uses_install (s : Service) : (Tool.install s).Uses [.talk, .dialogue, .command] := by
  refine ⟨rfl, fun outcome => ?_⟩
  cases outcome with
  | none => exact uses_installPrompted s
  | some o => exact trivial

theorem uses_installUnprompted (s : Service) :
    (Tool.installUnprompted s).Uses [.talk, .command] := by
  refine ⟨rfl, fun outcome => ?_⟩
  cases outcome with
  | none => exact (uses_runInstall s).widen rfl
  | some o => exact trivial

theorem uses_runUpdate (s : Service) : (Update.runUpdate s).Uses [.talk, .command] := by
  refine (uses_perform rfl).bind fun _ => ((uses_write _ _ _ rfl).widen rfl).bind fun _ =>
    (uses_installUnprompted s).bind fun outcome => ?_
  have finish : ∀ p : Program Unit, p.Uses [.talk] →
      (p.bind fun _ => (query (.progressFinished ("Updating " ++ s.tool ++ "..."))).bind
        fun _ => done outcome).Uses [.talk, .command] :=
    fun p hp => (hp.widen rfl).bind fun _ => (uses_perform rfl).bind fun _ => trivial
  cases outcome with
  | installed => exact finish _ ((uses_write _ _ _ rfl).bind fun _ => uses_notify _ _)
  | failed reason => exact finish _ ((uses_write _ _ _ rfl).bind fun _ => uses_notify _ _)
  | cancelled => exact finish (done ()) uses_done

theorem uses_lookupInstalled (toolchain : Tool.Toolchain) (path : String) :
    (Version.lookupInstalled toolchain path).Uses [.command] := by
  refine (uses_command _ _).bind fun output => ?_
  cases output with
  | error e => exact trivial
  | ok o => dsimp only; split <;> exact trivial

theorem uses_lookupPublished (excludedStart : String) :
    (Version.lookupPublished excludedStart).Uses [.talk] := by
  refine (uses_perform rfl).bind fun tip => ?_
  cases tip with
  | error e => exact trivial
  | ok tip =>
    dsimp only
    split
    · exact trivial
    · refine (uses_perform rfl).bind fun tags => ?_
      cases tags <;> exact trivial

theorem uses_offer (s : Service) (versions : Version.Pair) :
    (Update.offer s versions).Uses [.talk, .dialogue, .command] := by
  refine ((uses_write _ _ _ rfl).widen rfl).bind fun _ =>
    ((uses_prompt _ _ _).widen rfl).bind fun choice => ?_
  split
  · exact trivial
  · refine ((uses_runUpdate s).widen rfl).bind fun outcome => ?_
    cases outcome <;> exact trivial

theorem uses_checkAt (s : Service) (path : String) :
    (Update.checkAt s path).Uses [.talk, .dialogue, .command] := by
  have installed : (Version.lookupInstalled s.toolchain path).Uses [.talk, .dialogue, .command] :=
    (uses_lookupInstalled _ _).widen rfl
  have published : (Version.lookupPublished s.excludedTagStart).Uses [.talk, .dialogue, .command] :=
    (uses_lookupPublished _).widen rfl
  refine (Only.both installed published s.turns).bind fun versions => ?_
  dsimp only
  split
  · split
    · exact uses_offer s _
    · exact ((uses_write _ _ _ rfl).widen rfl).bind fun _ => trivial
  · exact trivial

theorem uses_check (s : Service) : (Update.check s).Uses [.talk, .dialogue, .command] := by
  refine ((uses_write _ _ _ rfl).widen rfl).bind fun _ => (uses_perform rfl).bind fun path => ?_
  cases path with
  | none => exact ((uses_write _ _ _ rfl).widen rfl).bind fun _ => trivial
  | some path => exact uses_checkAt s path

end Tool

/-! ## Starting -/

section Start

theorem uses_resolveProgram (s : Service) :
    (Supervisor.resolveProgram s).Uses [.talk, .dialogue, .command] := by
  refine (uses_perform rfl).bind fun path => ?_
  cases path with
  | some path => exact trivial
  | none =>
    refine (uses_install s).bind fun outcome => ?_
    cases outcome with
    | installed =>
      refine (uses_perform rfl).bind fun path => ?_
      cases path with
      | some path => exact trivial
      | none => exact (uses_perform rfl).bind fun _ => trivial
    | _ => exact trivial

theorem uses_giveUp (outcome : Supervisor.StartOutcome) (reason : String) :
    (Supervisor.giveUp outcome reason).Uses [.talk, .launch, .signal, .announce] :=
  (uses_perform rfl).bind fun _ => trivial

theorem uses_launchPlan (s : Service) (p : Supervisor.Plan) :
    (Supervisor.launchPlan s p).Uses [.talk, .launch, .signal, .announce] := by
  refine ((uses_write _ _ _ rfl).widen rfl).bind fun _ => (uses_perform rfl).bind fun spawned => ?_
  cases spawned with
  | error e =>
    exact ((uses_write _ _ _ rfl).widen rfl).bind fun _ => ((uses_notify _ _).widen rfl).bind fun _ =>
      uses_giveUp _ _
  | ok identity =>
    refine (uses_perform rfl).bind fun registered => ?_
    cases registered with
    | error refusal => exact ⟨rfl, fun _ => trivial⟩
    | ok u =>
      refine (uses_perform rfl).bind fun _ => ((uses_write _ _ _ rfl).widen rfl).bind fun _ => ?_
      exact (uses_perform rfl).bind fun _ => trivial

theorem uses_launchAt (s : Service) (path : String) :
    (Supervisor.launchAt s path).Uses [.talk, .launch, .signal, .announce] := by
  refine (uses_perform rfl).bind fun options => ?_
  cases options with
  | error e => exact ((uses_notify _ _).widen rfl).bind fun _ => uses_giveUp _ _
  | ok options =>
    dsimp only
    split
    · refine (uses_perform rfl).bind fun port => ?_
      cases port with
      | error e => exact ((uses_notify _ _).widen rfl).bind fun _ => uses_giveUp _ _
      | ok port => exact uses_launchPlan s _
    · exact uses_launchPlan s _

theorem uses_start (s : Service) :
    (Supervisor.start s).Uses [.talk, .dialogue, .command, .launch, .signal, .announce] := by
  refine (uses_perform rfl).bind fun gate => ?_
  cases gate with
  | «open» =>
    refine ((uses_resolveProgram s).widen rfl).bind fun resolved => ?_
    cases resolved with
    | error outcome => exact (uses_giveUp _ _).widen rfl
    | ok path => exact (uses_launchAt s path).widen rfl
  | running d => exact ((uses_notify _ _).widen rfl).bind fun _ => trivial
  | _ => exact trivial

end Start

/-! ## Stopping -/

section Stop

variable {kind : Request → Bool}

/-- A stop is a request of its own, and the user is told what came of it. -/
theorem only_stop (hstop : kind .stop = true)
    (hnotify : ∀ severity text, kind (.query (.notify severity text)) = true) : Supervisor.stop.Only kind := by
  refine ⟨hstop, fun result => ?_⟩
  cases result with
  | alreadyStopping => exact trivial
  | refused e => exact trivial
  | _ => exact ⟨hnotify _ _, fun _ => trivial⟩

theorem only_waitExited (hdeadline : ∀ grace, kind (.deadline grace) = true)
    (hwait : ∀ child moment, kind (.awaitExit child moment) = true) (child grace : Nat) :
    (Supervisor.waitExited child grace).Only kind :=
  ⟨hdeadline _, fun _ => ⟨hwait _ _, fun _ => trivial⟩⟩

/-- Between two waits there is the kill. -/
theorem only_awaitExitOrKill (hdeadline : ∀ grace, kind (.deadline grace) = true)
    (hwait : ∀ child moment, kind (.awaitExit child moment) = true) (hkill : kind .killCurrent = true)
    (child grace : Nat) : (Supervisor.awaitExitOrKill child grace).Only kind := by
  refine (only_waitExited hdeadline hwait child grace).bind fun seen => ?_
  cases seen with
  | true => exact trivial
  | false => exact ⟨hkill, fun _ => only_waitExited hdeadline hwait child grace⟩

theorem uses_stop : Supervisor.stop.Uses [.talk, .halt] := only_stop rfl fun _ _ => rfl

theorem uses_waitExited (child grace : Nat) : (Supervisor.waitExited child grace).Uses [.talk, .halt] :=
  only_waitExited (fun _ => rfl) (fun _ _ => rfl) child grace

theorem uses_awaitExitOrKill (child grace : Nat) :
    (Supervisor.awaitExitOrKill child grace).Uses [.talk, .halt] :=
  only_awaitExitOrKill (fun _ => rfl) (fun _ _ => rfl) rfl child grace

theorem uses_waitForExit (timeout : Nat) : (Supervisor.waitForExit timeout).Uses [.talk, .halt] := by
  refine ⟨rfl, fun child => ?_⟩
  cases child with
  | none => exact trivial
  | some child => exact uses_waitExited child timeout

theorem uses_shutdown (grace : Nat) : (Supervisor.shutdown grace).Uses [.talk, .halt] := by
  refine ⟨rfl, fun child => ?_⟩
  cases child with
  | none => exact trivial
  | some child =>
    have rest : (discard (Supervisor.awaitExitOrKill child grace)).Uses [.talk, .halt] :=
      (uses_awaitExitOrKill child grace).bind fun _ => trivial
    refine (uses_perform rfl).bind fun state => ?_
    dsimp only
    split
    · exact (uses_stop.bind fun _ => uses_done).bind fun _ => rest
    · exact rest

end Stop

/-! ## Activation -/

section Activation

theorem uses_beginCheck : Activation.beginCheck.Uses [.check] := by
  refine (uses_perform rfl).bind fun check => (uses_perform rfl).bind fun previous => ?_
  cases previous with
  | none => exact trivial
  | some previous => exact uses_perform rfl

theorem uses_waitForUpdateCheck : Activation.waitForUpdateCheck.Uses [.check] := by
  refine (uses_perform rfl).bind fun check => ?_
  cases check with
  | none => exact trivial
  | some check => exact uses_perform rfl

theorem uses_deactivate (s : Service) : (Activation.deactivate s).Uses [.talk, .halt, .check] := by
  refine ((uses_write _ _ _ rfl).widen rfl).bind fun _ => (uses_perform rfl).bind fun check => ?_
  have finish : ((Supervisor.shutdown s.shutdownGrace).bind fun _ => query .closeOutput).Uses
      [.talk, .halt, .check] := ((uses_shutdown _).widen rfl).bind fun _ => uses_perform rfl
  cases check with
  | none => exact finish
  | some check =>
    exact (uses_perform rfl).bind fun _ =>
      ((uses_perform rfl).bind fun _ => uses_done).bind fun _ => finish

end Activation

/-! ## Observing -/

section Observe

theorem uses_handleExit (s : Service) (pid : Nat) (exit : Exit) :
    (Supervisor.handleExit s pid exit).Uses [.talk, .announce, .watch] := by
  have announced : ∀ t : Lifecycle.Transition, (do
      if t.effects.contains .definitionChanged then perform .announceChange
        : Program Unit).Uses [.talk, .announce, .watch] := by
    intro t
    split
    · exact uses_perform rfl
    · exact trivial
  refine (uses_perform rfl).bind fun recorded => ?_
  cases recorded with
  | error e => exact trivial
  | ok t =>
    dsimp only
    split
    · split
      · exact ((uses_notify _ _).widen rfl).bind fun _ => announced t
      · exact announced t
    · exact trivial

theorem uses_conclude (s : Service) (child pid : Nat) (exit : Exit) :
    (Supervisor.conclude s child pid exit).Uses [.talk, .announce, .watch] :=
  ((uses_write _ _ _ rfl).widen rfl).bind fun _ => (uses_handleExit s pid exit).bind fun _ =>
    uses_perform rfl

theorem uses_observeOnce (s : Service) (child pid : Nat) :
    (Supervisor.observeOnce s child pid).Uses [.talk, .relay, .announce, .watch] := by
  refine (uses_perform rfl).bind fun e => ?_
  cases e with
  | none => exact ((uses_conclude s child pid _).widen rfl).bind fun _ => trivial
  | some e =>
    cases e with
    | stdout line => exact ((uses_relay _ _ _).widen rfl).bind fun _ => trivial
    | stderr line => exact ((uses_relay _ _ _).widen rfl).bind fun _ => trivial
    | error reason =>
      exact ((uses_write _ _ _ rfl).widen rfl).bind fun _ =>
        ((uses_notify _ _).widen rfl).bind fun _ => trivial
    | exited exit => exact ((uses_conclude s child pid _).widen rfl).bind fun _ => trivial

end Observe

/-! ## Calls -/

/-- The calls that are about updates alone. -/
def Call.isUpdate : Call → Bool
  | .checkForUpdates => true
  | .runUpdate => true
  | _ => false

section Calls

variable {σ : Type} {P : Protocol σ} {Q : σ → Prop} {x : σ} {s : Service}
  {kind : Request.Kind → Bool}

/-- A restart is a start behind a stop and a wait. -/
theorem restart_obeys_of_start (hk : [Request.Kind.talk, .halt].all kind = true)
    (idle : ∀ y, Q y → ∀ (r : Request) (a : r.Answer), kind r.kind = true → P y r a y)
    (hx : Q x) (start : (Supervisor.start s).Obeys P (fun y _ => Q y) x) :
    (Supervisor.restart s).Obeys P (fun y _ => Q y) x := by
  have talk : kind .talk = true := List.all_eq_true.1 hk _ (by simp)
  have halt : kind .halt = true := List.all_eq_true.1 hk _ (by simp)
  refine Obeys.ask fun target => ⟨x, idle x hx _ _ halt, ?_⟩
  cases target with
  | none => exact start
  | some child =>
    refine obeys_bind.2 (uses_stop.obeys_all hk (idle x hx) fun outcome => ?_)
    -- whatever came of the stop, unless it failed, the wait goes on as here
    have rest : (do
        if ← Supervisor.awaitExitOrKill child s.stopGrace then Supervisor.start s
        else
          let reason := s.tool ++ " did not exit, not restarting."
          notify .error reason
          return .failed reason : Program Supervisor.StartOutcome).Obeys P (fun y _ => Q y) x := by
      refine obeys_bind.2 ((uses_awaitExitOrKill _ _).obeys_all hk (idle x hx) fun seen => ?_)
      cases seen with
      | true => exact start
      | false => exact Obeys.ask fun _ => ⟨x, idle x hx _ _ talk, hx⟩
    cases outcome with
    | failed reason => exact hx
    | _ => exact rest

/-- **For the calls it is enough to look at a start.** What else they ask for leaves the state alone, if it
does so in every state in which a start can end. -/
theorem Call.obeys_of_start (hk : [Request.Kind.talk, .halt, .streams, .check].all kind = true)
    (idle : ∀ y, Q y → ∀ (r : Request) (a : r.Answer), kind r.kind = true → P y r a y)
    (hx : Q x) (start : (Supervisor.start s).Obeys P (fun y _ => Q y) x) {c : Call}
    (hc : c.isUpdate = false) : (c.outcome s).Obeys P (fun y _ => Q y) x := by
  have bound : ∀ {α : Type} {p : Program α} {f : α → Outcome}, p.Obeys P (fun y _ => Q y) x →
      (p.bind fun a => .done (f a)).Obeys P (fun y _ => Q y) x :=
    fun hp => obeys_bind.2 (hp.mono fun _ _ hy => hy)
  have idles : ∀ {α : Type} {p : Program α} {y : σ}, Q y →
      p.Uses [Request.Kind.talk, .halt, .streams, .check] → p.Obeys P (fun y _ => Q y) y :=
    fun hy hp => hp.obeys_all hk (idle _ hy) fun _ => hy
  have hk' : [Request.Kind.talk, .halt].all kind = true := by
    simp only [List.all_cons, Bool.and_eq_true] at hk ⊢
    exact ⟨hk.1, hk.2.1, rfl⟩
  have restart : (Supervisor.restart s).Obeys P (fun y _ => Q y) x :=
    restart_obeys_of_start hk' idle hx start
  cases c with
  | start => exact bound start
  | stop => exact bound (idles hx (uses_stop.widen rfl))
  | restart => exact bound restart
  | shutdown grace => exact obeys_bind.2 (idles hx ((uses_shutdown grace).widen rfl))
  | waitForExit timeout => exact bound (idles hx ((uses_waitForExit timeout).widen rfl))
  | takeStreams => exact bound (idles hx (uses_perform rfl))
  | activate =>
    refine bound (obeys_bind.2 (((uses_write _ _ _ rfl).widen rfl).obeys_all hk (idle x hx) fun _ => ?_))
    refine obeys_bind.2 (start.mono fun y outcome hy => ?_)
    split
    · exact obeys_bind.2 (idles hy (uses_beginCheck.widen rfl))
    · exact hy
  | deactivate => exact obeys_bind.2 (idles hx ((uses_deactivate s).widen rfl))
  | execute text =>
    simp only [Call.outcome]
    split
    · rename_i command _
      refine bound ?_
      cases command with
      | start => exact obeys_bind.2 (start.mono fun _ _ hy => hy)
      | stop => exact obeys_bind.2 (idles hx (uses_stop.widen rfl))
      | restart => exact obeys_bind.2 (restart.mono fun _ _ hy => hy)
    · exact hx
  | waitForUpdateCheck => exact bound (idles hx (uses_waitForUpdateCheck.widen rfl))
  | checkForUpdates => cases hc
  | runUpdate => cases hc

theorem uses_restart (s : Service) :
    (Supervisor.restart s).Uses [.talk, .dialogue, .command, .launch, .signal, .announce, .halt] := by
  refine (uses_perform rfl).bind fun target => ?_
  cases target with
  | none => exact (uses_start s).widen rfl
  | some child =>
    refine (uses_stop.widen rfl).bind fun outcome => ?_
    cases outcome with
    | failed reason => exact trivial
    | _ =>
      refine ((uses_awaitExitOrKill _ _).widen rfl).bind fun seen => ?_
      cases seen with
      | true => exact (uses_start s).widen rfl
      | false => exact ((uses_notify _ _).widen rfl).bind fun _ => trivial

/-- What a call asks for. -/
def Call.kinds : Call → List Request.Kind
  | .stop => [.talk, .halt]
  | .shutdown _ => [.talk, .halt]
  | .waitForExit _ => [.talk, .halt]
  | .takeStreams => [.streams]
  | .activate => [.talk, .dialogue, .command, .launch, .signal, .announce, .check]
  | .deactivate => [.talk, .halt, .check]
  | .waitForUpdateCheck => [.check]
  | .checkForUpdates => [.talk, .dialogue, .command]
  | .runUpdate => [.talk, .command]
  | _ => [.talk, .dialogue, .command, .launch, .signal, .announce, .halt]

theorem Call.uses (s : Service) (c : Call) : (c.outcome s).Uses c.kinds := by
  have start : (Supervisor.start s).Uses
      [.talk, .dialogue, .command, .launch, .signal, .announce, .halt] := (uses_start s).widen rfl
  cases c with
  | start => exact start.bind fun _ => trivial
  | stop => exact uses_stop.bind fun _ => trivial
  | restart => exact (uses_restart s).bind fun _ => trivial
  | shutdown grace => exact (uses_shutdown grace).bind fun _ => trivial
  | waitForExit timeout => exact (uses_waitForExit timeout).bind fun _ => trivial
  | takeStreams => exact (uses_perform rfl).bind fun _ => trivial
  | activate =>
    refine Uses.bind (((uses_write _ _ _ rfl).widen rfl).bind fun _ =>
      ((uses_start s).widen rfl).bind fun outcome => ?_) fun _ => trivial
    split
    · exact (uses_beginCheck.widen rfl).bind fun _ => trivial
    · exact trivial
  | deactivate => exact (uses_deactivate s).bind fun _ => trivial
  | execute text =>
    simp only [Call.outcome]
    split
    · rename_i command _
      refine Uses.bind ?_ fun _ => trivial
      cases command with
      | start => exact start.bind fun _ => trivial
      | stop => exact (uses_stop.widen rfl).bind fun _ => trivial
      | restart => exact (uses_restart s).bind fun _ => trivial
    · exact trivial
  | waitForUpdateCheck => exact uses_waitForUpdateCheck.bind fun _ => trivial
  | checkForUpdates => exact (uses_check s).bind fun _ => trivial
  | runUpdate => exact (uses_runUpdate s).bind fun _ => trivial

end Calls

/-! ## Roles -/

def Role.kinds : Role → List Request.Kind
  | .call c => c.kinds
  | .observer _ _ => [.talk, .relay, .announce, .watch]
  | .check => [.talk, .dialogue, .command]

theorem Role.not_mem_kinds (ρ : Role) : ρ.kinds.contains .direct = false := by
  cases ρ with
  | call c => cases c <;> rfl
  | _ => rfl

/-- A task keeps to what its role asks for. -/
def Within : Protocol Role := fun ρ r _ ρ' => ρ' = ρ ∧ ρ.kinds.contains r.kind = true

theorem Role.within (s : Service) (ρ : Role) :
    (ρ.program s).Obeys Within (Closes (fun _ => True) ρ) ρ := by
  have finish : ∀ (y : Role) (flow : Flow), y = ρ → Closes (fun _ => True) ρ y flow := by
    intro y flow hy
    cases flow with
    | again => exact hy
    | finish o => trivial
  cases ρ with
  | call c =>
    have huses : (c.program s).Uses c.kinds := (Call.uses s c).bind fun _ => trivial
    exact huses.obeys (fun _ _ hr => ⟨rfl, hr⟩) fun flow => finish _ flow rfl
  | observer child pid =>
    have huses : ((Role.observer child pid).program s).Uses [.talk, .relay, .announce, .watch] := by
      refine (uses_observeOnce s child pid).bind fun last => ?_
      cases last <;> exact trivial
    exact huses.obeys (fun _ _ hr => ⟨rfl, hr⟩) fun flow => finish _ flow rfl
  | check =>
    have huses : (Role.check.program s).Uses [.talk, .dialogue, .command] :=
      (uses_check s).bind fun _ => trivial
    exact huses.obeys (fun _ _ hr => ⟨rfl, hr⟩) fun flow => finish _ flow rfl

section Runs

variable {ε : Type} {env : Environment ε} {s : Service} {acts : List Act} {w : World ε} {task : Nat}

/-- Nobody has the world outside start or end a child but by a step of the supervisor. -/
theorem Run.not_direct (h : Run env s acts w) {r : Request} {k : r.Answer → Program Flow}
    (hp : w.pending task = some ⟨r, k⟩) (a : r.Answer) : r.kind ≠ .direct := by
  obtain ⟨phase, hf, -⟩ := Run.simulate (J := fun _ _ _ => True) (Role.within s) (fun _ => trivial)
    (fun _ _ _ _ => trivial) (fun _ _ _ _ _ _ => trivial) (fun _ _ _ _ => trivial) h
  obtain ⟨y, -, hk⟩ := hf.pending hp a
  intro hd
  rw [hd, Role.not_mem_kinds] at hk
  cases hk

end Runs

end Steward
