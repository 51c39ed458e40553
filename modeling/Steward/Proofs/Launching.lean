import Steward.Proofs.Course

/-!
# A start is all or nothing

A start that is let through the gate looks for the tool, has it installed if it is missing, reads the options
and starts the process, each of these at most once and in this order. `Launching` is the protocol of that,
`Venture` how far a call has come with it, and `Ventured` what its stage says about the course so far.

A start that does not get as far as a child gives up, and this takes the server from starting back to stopped
with nothing kept in between; nobody is told of a change. Everybody else who comes while it is under way is
turned away: another start is told that the server is busy, a stop that it does not run.
-/

set_option autoImplicit false

namespace Steward

/-! ## Inquiries -/

/-- What a start asks its collaborators for. -/
inductive Inquiry where
  | locate (found : Option String)
  | install
  | options
  | spawn (failure : Option Failure)
  deriving Repr, DecidableEq

def Request.inquiry? : (r : Request) → r.Answer → Option Inquiry
  | .query .locate, found => some (.locate found)
  | .query (.hostInstall _), _ => some .install
  | .query .readOptions, _ => some .options
  | .spawn _, .ok _ => some (.spawn none)
  | .spawn _, .error e => some (.spawn (some e))
  | _, _ => none

/-- The inquiries of a task, in their order. -/
def inquiries (i : Nat) (acts : List Act) : List Inquiry := chronicle Request.inquiry? i acts

/-- The program was found, at once or after an installation. -/
inductive Obtained : List Inquiry → Prop where
  | atOnce (path : String) : Obtained [.locate (some path)]
  | installed (path : String) : Obtained [.locate none, .install, .locate (some path)]

/-- The inquiries that a start can have run: each at most once, an installation only if nothing was found, the
options only when the program is there, and the spawner last. -/
def Orderly (l : List Inquiry) : Prop :=
  (∃ path failure, l <+: [.locate (some path), .options, .spawn failure]) ∨
  (∃ path failure,
    l <+: [.locate none, .install, .locate (some path), .options, .spawn failure]) ∨
  l = [.locate none, .install, .locate none]

/-! ## The stages of a start -/

/-- How far a call has come with a start. -/
inductive Venture where
  /-- it has not come to it yet -/
  | idle
  /-- it was turned away -/
  | away (gate : Supervisor.StartGate)
  /-- it is let through and has run these inquiries -/
  | underway (l : List Inquiry)
  /-- the last inquiry was the spawner, and that failed -/
  | unspawned (l : List Inquiry) (e : Failure)
  | spawned (l : List Inquiry)
  /-- its child was not taken in -/
  | refused (l : List Inquiry)
  | registered (l : List Inquiry)
  | announced (l : List Inquiry)
  /-- it has given up, because of a failure of the spawner or something else -/
  | aborted (l : List Inquiry) (e : Option Failure)

def Venture.inquiries : Venture → List Inquiry
  | .underway l => l
  | .unspawned l _ => l
  | .spawned l => l
  | .refused l => l
  | .registered l => l
  | .announced l => l
  | .aborted l _ => l
  | _ => []

/-- A request that is no step of a start, nor of a stop. -/
def Request.isPlain : Request → Bool
  | .query .locate => false
  | .query .readOptions => false
  | .query (.hostInstall _) => false
  | .query (.spawn _) => false
  | .query (.terminate ..) => false
  | .query (.kill ..) => false
  | .query _ => true
  | .awaitPrompt _ => true
  | .awaitCommand _ => true
  | .spawnCheck => true
  | .swapCheck _ => true
  | .takeCheck => true
  | .cancelCheck _ => true
  | .awaitCheck _ => true
  | _ => false

/-- The steps of a start. -/
inductive Launching : Protocol Venture where
  | plain {x : Venture} {r : Request} {a : r.Answer} (h : r.isPlain = true) : Launching x r a x
  | halt {r : Request} {a : r.Answer} (h : r.kind = .halt) : Launching .idle r a .idle
  | enter : Launching .idle .beginStart .open (.underway [])
  | turn {gate : Supervisor.StartGate} (h : gate ≠ .open) :
      Launching .idle .beginStart gate (.away gate)
  | locate {found : Option String} :
      Launching (.underway []) (.query .locate) found (.underway [.locate found])
  | install {a : Option Tool.InstallOutcome} :
      Launching (.underway [.locate none]) (.query (.hostInstall true)) a
        (.underway [.locate none, .install])
  | relocate {found : Option String} :
      Launching (.underway [.locate none, .install]) (.query .locate) found
        (.underway [.locate none, .install, .locate found])
  | options {l : List Inquiry} {a : Except Failure ServerOptions} (h : Obtained l) :
      Launching (.underway l) (.query .readOptions) a (.underway (l ++ [.options]))
  | spawn {l : List Inquiry} {spec : LaunchSpec} {identity : Nat × Nat} (h : Obtained l) :
      Launching (.underway (l ++ [.options])) (.spawn spec) (.ok identity)
        (.spawned (l ++ [.options] ++ [.spawn none]))
  | unspawned {l : List Inquiry} {spec : LaunchSpec} {e : Failure} (h : Obtained l) :
      Launching (.underway (l ++ [.options])) (.spawn spec) (.error e)
        (.unspawned (l ++ [.options] ++ [.spawn (some e)]) e)
  | register {l : List Inquiry} {handle : Supervisor.Handle} {d : Definition} :
      Launching (.spawned l) (.register handle d) (.ok ()) (.registered l)
  | refuse {l : List Inquiry} {handle : Supervisor.Handle} {d : Definition} {e : Lifecycle.Refusal} :
      Launching (.spawned l) (.register handle d) (.error e) (.refused l)
  | kill {l : List Inquiry} {child pid : Nat} {a : Delivery} :
      Launching (.refused l) (.query (.kill child pid)) a (.refused l)
  | observe {l : List Inquiry} {child pid : Nat} :
      Launching (.registered l) (.observe child pid) () (.registered l)
  | announce {l : List Inquiry} : Launching (.registered l) .announceChange () (.announced l)
  | abort {l : List Inquiry} {reason : String} :
      Launching (.underway l) (.abortStart reason) () (.aborted l none)
  | abandon {l : List Inquiry} {e : Failure} {reason : String} :
      Launching (.unspawned l e) (.abortStart reason) () (.aborted l (some e))

/-- What a start is answered that finds the gate closed. -/
def Supervisor.StartGate.outcome : Supervisor.StartGate → Supervisor.StartOutcome
  | .running d => .alreadyRunning d
  | .refused refusal => .failed refusal.failure.message
  | _ => .busy

/-- The stages in which a start can end, and with what. -/
def Venture.Gives : Venture → Supervisor.StartOutcome → Prop
  | .away gate, o => o = gate.outcome
  | .refused _, _ => True
  | .announced _, o => ∃ d, o = .started d
  | .aborted _ none, o => o = .installCancelled ∨ ∃ reason, o = .failed reason
  | .aborted _ (some e), o => o = .failed e.message
  | _, _ => False

/-- How the start went that a call made. -/
def Outcome.start? : Outcome → Option Supervisor.StartOutcome
  | .start o => some o
  | .command (.start o) => some o
  | _ => none

/-- A call ends before it comes to a start, or with what the start has given. -/
def Venture.Ends (x : Venture) (o : Outcome) : Prop :=
  x = .idle ∨ ∃ so, o.start? = some so ∧ x.Gives so

section Programs

open Program

variable {α : Type} {s : Service} {x : Venture}

theorem Program.Only.launches {p : Program α} (hp : p.Only Request.isPlain) {Q : Venture → α → Prop}
    (hQ : ∀ a, Q x a) : p.Obeys Launching Q x :=
  hp.obeys (fun _ _ hr => .plain hr) hQ

/-- Whoever asks the user or runs a command takes no step of a start. -/
theorem Program.Uses.plain {ks : List Request.Kind} {p : Program α} (hp : p.Uses ks)
    (hk : ks.all (fun k => k == .dialogue || k == .command || k == .check) = true) :
    p.Only Request.isPlain := by
  refine Only.mono (fun r hr => ?_) hp
  have hkind := List.all_eq_true.1 hk r.kind (List.contains_iff_mem.1 hr)
  cases r with
  | query q => cases q <;> first | rfl | cases hkind
  | _ => first | rfl | cases hkind

theorem plain_installPrompted (s : Service) : (Tool.installPrompted s).Only Request.isPlain := by
  refine ((uses_prompt _ _ _).plain rfl).bind fun choice => ?_
  dsimp only
  split
  · exact trivial
  · refine ((uses_runInstall s).plain rfl).bind fun outcome => ?_
    cases outcome with
    | cancelled => exact trivial
    | _ => exact ⟨rfl, fun _ => trivial⟩

theorem giveUp_launches (l : List Inquiry) {o : Supervisor.StartOutcome} (reason : String)
    (h : (Venture.aborted l none).Gives o) :
    (Supervisor.giveUp o reason).Obeys Launching (fun y o => y.Gives o) (.underway l) := by
  intro _
  exact ⟨_, .abort, h⟩

theorem launchPlan_launches {l : List Inquiry} (hl : Obtained l) (p : Supervisor.Plan) :
    (Supervisor.launchPlan s p).Obeys Launching (fun y o => y.Gives o)
      (.underway (l ++ [.options])) := by
  refine Obeys.ask fun _ => ⟨_, .plain rfl, Obeys.ask fun spawned => ?_⟩
  cases spawned with
  | error e =>
    refine ⟨_, .unspawned hl, Obeys.ask fun _ => ⟨_, .plain rfl, ?_⟩⟩
    refine Obeys.ask fun _ => ⟨_, .plain rfl, fun _ => ⟨_, .abandon, ?_⟩⟩
    exact rfl
  | ok identity =>
    refine ⟨_, .spawn hl, Obeys.ask fun registered => ?_⟩
    cases registered with
    | error refusal => exact ⟨_, .refuse, fun _ => ⟨_, .kill, trivial⟩⟩
    | ok u =>
      refine ⟨_, .register, Obeys.ask fun _ => ⟨_, .observe, Obeys.ask fun _ => ⟨_, .plain rfl, ?_⟩⟩⟩
      exact fun _ => ⟨_, .announce, _, rfl⟩

theorem launchAt_launches {l : List Inquiry} (hl : Obtained l) (path : String) :
    (Supervisor.launchAt s path).Obeys Launching (fun y o => y.Gives o) (.underway l) := by
  refine Obeys.ask fun options => ⟨_, .options hl, ?_⟩
  cases options with
  | error e =>
    exact Obeys.ask fun _ => ⟨_, .plain rfl, giveUp_launches _ _ (.inr ⟨_, rfl⟩)⟩
  | ok options =>
    dsimp only
    split
    · refine Obeys.ask fun port => ⟨_, .plain rfl, ?_⟩
      cases port with
      | error e => exact Obeys.ask fun _ => ⟨_, .plain rfl, giveUp_launches _ _ (.inr ⟨_, rfl⟩)⟩
      | ok port => exact launchPlan_launches hl _
    · exact launchPlan_launches hl _

theorem install_launches (s : Service) :
    (Tool.install s).Obeys Launching (fun y _ => y = .underway [.locate none, .install])
      (.underway [.locate none]) := by
  refine Obeys.ask fun host => ⟨_, .install, ?_⟩
  cases host with
  | some outcome => rfl
  | none => exact (plain_installPrompted s).launches fun _ => rfl

/-- The search ends with a path, or with what the start then fails with. -/
theorem resolveProgram_launches (s : Service) :
    (Supervisor.resolveProgram s).Obeys Launching
      (fun y resolved => ∃ l, y = .underway l ∧ (∀ path, resolved = .ok path → Obtained l) ∧
        ∀ o, resolved = .error o → (Venture.aborted l none).Gives o) (.underway []) := by
  refine Obeys.ask fun found => ⟨_, .locate, ?_⟩
  cases found with
  | some path => exact ⟨_, rfl, fun _ _ => .atOnce path, nofun⟩
  | none =>
    refine obeys_bind.2 ((install_launches s).mono fun y outcome hy => ?_)
    subst hy
    cases outcome with
    | cancelled => exact ⟨_, rfl, nofun, by rintro o ⟨⟩; exact .inl rfl⟩
    | failed reason => exact ⟨_, rfl, nofun, by rintro o ⟨⟩; exact .inr ⟨_, rfl⟩⟩
    | installed =>
      refine Obeys.ask fun found => ⟨_, .relocate, ?_⟩
      cases found with
      | some path => exact ⟨_, rfl, fun _ _ => .installed path, nofun⟩
      | none =>
        refine Obeys.ask fun _ => ⟨_, .plain rfl, _, rfl, nofun, ?_⟩
        rintro o ⟨⟩
        exact .inr ⟨_, rfl⟩

/-- All ways out of a start behind its gate. -/
theorem launch_launches (s : Service) :
    (Supervisor.launch s).Obeys Launching (fun y o => y.Gives o) (.underway []) := by
  refine obeys_bind.2 ((resolveProgram_launches s).mono fun y resolved hy => ?_)
  obtain ⟨l, rfl, found, failed⟩ := hy
  cases resolved with
  | error outcome => exact giveUp_launches _ _ (failed outcome rfl)
  | ok path => exact launchAt_launches (found path rfl) path

theorem start_launches (s : Service) :
    (Supervisor.start s).Obeys Launching (fun y o => y.Gives o) .idle := by
  refine Obeys.ask fun gate => ?_
  cases gate with
  | «open» => exact ⟨_, .enter, launch_launches s⟩
  | running d => exact ⟨_, .turn nofun, fun _ => ⟨_, .plain rfl, rfl⟩⟩
  | busy => exact ⟨_, .turn nofun, rfl⟩
  | refused refusal => exact ⟨_, .turn nofun, rfl⟩

/-- A request with which a call leads up to a start. -/
def Request.isPrelude (r : Request) : Bool := r.isPlain || r.kind == .halt

theorem Program.Only.idles {p : Program α} (hp : p.Only Request.isPrelude) {Q : Venture → α → Prop}
    (hQ : ∀ a, Q .idle a) : p.Obeys Launching Q .idle := by
  refine hp.obeys (fun r a hr => ?_) hQ
  rcases Bool.or_eq_true _ _ ▸ hr with h | h
  · exact .plain h
  · exact .halt (beq_iff_eq.1 h)

theorem prelude_stop : Supervisor.stop.Only Request.isPrelude := only_stop rfl fun _ _ => rfl

theorem prelude_awaitExitOrKill (child grace : Nat) :
    (Supervisor.awaitExitOrKill child grace).Only Request.isPrelude :=
  only_awaitExitOrKill (fun _ => rfl) (fun _ _ => rfl) rfl child grace

theorem restart_launches (s : Service) :
    (Supervisor.restart s).Obeys Launching (fun y o => y = .idle ∨ y.Gives o) .idle := by
  have start : (Supervisor.start s).Obeys Launching (fun y o => y = .idle ∨ y.Gives o) .idle :=
    (start_launches s).mono fun _ _ hy => .inr hy
  refine Obeys.ask fun target => ⟨_, .halt rfl, ?_⟩
  cases target with
  | none => exact start
  | some child =>
    refine obeys_bind.2 (prelude_stop.idles fun outcome => ?_)
    cases outcome with
    | failed reason => exact .inl rfl
    | _ =>
      refine obeys_bind.2 ((prelude_awaitExitOrKill _ _).idles fun seen => ?_)
      cases seen with
      | true => exact start
      | false => exact Obeys.ask fun _ => ⟨_, .plain rfl, .inl rfl⟩

/-- **Every call that can start the server keeps to the protocol.** -/
theorem Call.launches (s : Service) {c : Call} (hc : c.kinds.contains .launch = true) :
    (c.outcome s).Obeys Launching Venture.Ends .idle := by
  -- whatever the outcome of a start is wrapped in
  have started : (Supervisor.start s).Obeys Launching
      (fun y o => ∀ out : Outcome, out.start? = some o → y.Ends out) .idle :=
    (start_launches s).mono fun y o hy out hout => .inr ⟨o, hout, hy⟩
  have restarted : (Supervisor.restart s).Obeys Launching
      (fun y o => ∀ out : Outcome, out.start? = some o → y.Ends out) .idle :=
    (restart_launches s).mono fun y o hy out hout => hy.imp_right fun hy => ⟨o, hout, hy⟩
  cases c with
  | start => exact obeys_bind.2 (started.mono fun _ _ hy => hy _ rfl)
  | restart => exact obeys_bind.2 (restarted.mono fun _ _ hy => hy _ rfl)
  | activate =>
    refine obeys_bind.2 (Obeys.ask fun _ => ⟨_, .plain rfl, ?_⟩)
    refine obeys_bind.2 (started.mono fun y outcome hy => ?_)
    split
    · exact obeys_bind.2 ((uses_beginCheck.plain rfl).launches fun _ => hy _ rfl)
    · exact hy _ rfl
  | execute text =>
    simp only [Call.outcome]
    split
    · rename_i command _
      cases command with
      | start => exact obeys_bind.2 (obeys_bind.2 (started.mono fun _ _ hy => hy _ rfl))
      | stop => exact obeys_bind.2 ((prelude_stop.bind fun _ => only_done).idles fun _ => .inl rfl)
      | restart => exact obeys_bind.2 (obeys_bind.2 (restarted.mono fun _ _ hy => hy _ rfl))
    · exact .inl rfl
  | _ => cases hc

end Programs

/-! ## What a stage says about the course -/

/-- A request that puts an event to the state of the server. -/
def Request.isTransition : Request → Bool
  | .beginStart => true
  | .abortStart _ => true
  | .register .. => true
  | .stop => true
  | .recordExit .. => true
  | _ => false

def Act.isTransitionOf (i : Nat) : Act → Bool
  | .call _ => false
  | .step task r _ => task == i && r.isTransition

/-- The task was let through when the server was stopped. Ever since the server has been starting, without a
child, and the task has put no other event to it. -/
def Midway {ε : Type} (i : Nat) (past : List (Episode ε)) : Prop :=
  ∃ v between earlier, past = between ++ ⟨v, .step i .beginStart .open⟩ :: earlier ∧
    v.runtime = ⟨.stopped, none⟩ ∧
    ∀ e ∈ between, e.before.runtime = ⟨.starting, none⟩ ∧ e.act.isTransitionOf i = false

/-- The task was let through and has given up, which took the server from starting back to stopped. That was
the last event that it put. -/
def GivenUp {ε : Type} (i : Nat) (past : List (Episode ε)) : Prop :=
  ∃ later v reason earlier, past = later ++ ⟨v, .step i (.abortStart reason) ()⟩ :: earlier ∧
    Midway i earlier ∧ v.runtime = ⟨.starting, none⟩ ∧
    v.runtime.abortStart reason = ⟨.stopped, none⟩ ∧ ∀ e ∈ later, e.act.isTransitionOf i = false

section Situations

variable {ε : Type} {i : Nat} {past : List (Episode ε)} {e : Episode ε}

theorem Midway.cons (h : Midway i past) (hr : e.before.runtime = ⟨.starting, none⟩)
    (he : e.act.isTransitionOf i = false) : Midway i (e :: past) := by
  obtain ⟨v, between, earlier, rfl, hv, hall⟩ := h
  exact ⟨v, e :: between, earlier, rfl, hv, List.forall_mem_cons.2 ⟨⟨hr, he⟩, hall⟩⟩

theorem GivenUp.cons (h : GivenUp i past) (he : e.act.isTransitionOf i = false) :
    GivenUp i (e :: past) := by
  obtain ⟨later, v, reason, earlier, rfl, hmid, hv, habort, hall⟩ := h
  exact ⟨e :: later, v, reason, earlier, rfl, hmid, hv, habort, List.forall_mem_cons.2 ⟨he, hall⟩⟩

theorem Act.isTransitionOf_other {task : Nat} (h : task ≠ i) (r : Request) (a : r.Answer) :
    (Act.step task r a).isTransitionOf i = false := by
  simp [Act.isTransitionOf, h]

theorem Act.isTransitionOf_of_not {r : Request} (h : r.isTransition = false) (task : Nat) (a : r.Answer) :
    (Act.step task r a).isTransitionOf i = false := by
  simp [Act.isTransitionOf, h]

end Situations

section Runtimes

variable {ε : Type} {env : Environment ε} {s : Service} {acts : List Act} {w : World ε} {i : Nat}

theorem Supervisor.Runtime.eq_of_held {r : Supervisor.Runtime} {state : Lifecycle.State}
    (hs : r.state = state) (hh : r.held = none) : r = ⟨state, none⟩ := by
  obtain ⟨state', handle⟩ := r
  obtain rfl : handle = none := Option.map_eq_none_iff.1 hh
  obtain rfl : state' = state := hs
  rfl

/-- As long as a start is under way the server is starting and has no child. -/
theorem Run.runtime_of_underWay (h : Run env s acts w) (hu : underWay i acts = true) :
    w.runtime = ⟨.starting, none⟩ := by
  obtain ⟨phase, -, hg⟩ := h.guarded
  rw [hg.underWay] at hu
  obtain ⟨-, hf⟩ := hg.fits rfl (ServerPhase.hasCustody_of_isStart hu)
  cases hx : phase i with
  | starting =>
    rw [hx] at hf
    exact Supervisor.Runtime.eq_of_held hf.1.1 hf.1.2
  | spawned child pid =>
    rw [hx] at hf
    exact Supervisor.Runtime.eq_of_held hf.1.1 hf.1.2
  | _ => simp [hx, ServerPhase.isStart] at hu

theorem Run.runtime_of_stopped (h : Run env s acts w) (hs : w.runtime.state = .stopped) :
    w.runtime = ⟨.stopped, none⟩ := by
  obtain ⟨phase, -, hg⟩ := h.guarded
  obtain ⟨-, hf⟩ := hg.none_of_stopped hs
  exact Supervisor.Runtime.eq_of_held hs hf.1.2

end Runtimes

/-- What is known of the course of a call in this stage. -/
def Venture.Reached {ε : Type} (i : Nat) (acts₀ : List Act) (past : List (Episode ε)) : Venture → Prop
  | .idle => ∀ v, ⟨v, .step i .beginStart .open⟩ ∉ past
  | .away gate => (∀ v, ⟨v, .step i .beginStart .open⟩ ∉ past) ∧ gate ≠ .open ∧
      ∃ v, ⟨v, .step i .beginStart gate⟩ ∈ past
  | .underway _ => Midway i past ∧ underWay i (actsOf past ++ acts₀) = true
  | .unspawned _ _ => Midway i past ∧ underWay i (actsOf past ++ acts₀) = true
  | .spawned _ => Midway i past ∧ underWay i (actsOf past ++ acts₀) = true
  -- a start under way is never refused its child
  | .refused _ => False
  | .registered _ => True
  | .announced _ => True
  | .aborted _ _ => GivenUp i past

/-- What is known of the inquiries in this stage. -/
def Venture.Sound : Venture → Prop
  | .underway l => Orderly l ∧ ∀ f, .spawn f ∉ l
  | .aborted l none => Orderly l ∧ ∀ f, .spawn f ∉ l
  | .unspawned l e => Orderly l ∧ ∀ f, .spawn f ∈ l → f = some e
  | .aborted l (some e) => Orderly l ∧ ∀ f, .spawn f ∈ l → f = some e
  | x => Orderly x.inquiries

def Venture.isAnnounced : Venture → Bool
  | .announced _ => true
  | _ => false

/-- A call in this stage, as far as a start goes. -/
structure Ventured {ε : Type} (i : Nat) (acts₀ : List Act) (x : Venture) (past : List (Episode ε)) :
    Prop where
  inquired : inquiries i (actsOf past) = x.inquiries
  sound : x.Sound
  unannounced : x.isAnnounced = false → ∀ v, ⟨v, .step i .announceChange ()⟩ ∉ past
  reached : x.Reached i acts₀ past

/-! ## From stage to stage -/

section Stages

variable {x y : Venture} {r : Request} {a : r.Answer}

theorem Orderly.obtained {l : List Inquiry} (h : Obtained l) : Orderly l := by
  cases h with
  | atOnce path => exact .inl ⟨path, none, by simp⟩
  | installed path => exact .inr (.inl ⟨path, none, by simp⟩)

theorem Orderly.options {l : List Inquiry} (h : Obtained l) : Orderly (l ++ [.options]) := by
  cases h with
  | atOnce path => exact .inl ⟨path, none, by simp⟩
  | installed path => exact .inr (.inl ⟨path, none, by simp⟩)

theorem Orderly.spawn {l : List Inquiry} (h : Obtained l) (f : Option Failure) :
    Orderly (l ++ [.options] ++ [.spawn f]) := by
  cases h with
  | atOnce path => exact .inl ⟨path, f, by simp⟩
  | installed path => exact .inr (.inl ⟨path, f, by simp⟩)

theorem Obtained.not_spawn {l : List Inquiry} (h : Obtained l) (f : Option Failure) : .spawn f ∉ l := by
  cases h <;> simp

theorem Request.inquiry?_of_plain (h : r.isPlain = true) : r.inquiry? a = none := by
  cases r with
  | query q => cases q <;> first | rfl | cases h
  | _ => first | rfl | cases h

theorem Request.isTransition_of_plain (h : r.isPlain = true) : r.isTransition = false := by
  cases r with
  | query q => rfl
  | _ => first | rfl | cases h

theorem Launching.inquiries (h : Launching x r a y) :
    y.inquiries = x.inquiries ++ (r.inquiry? a).toList := by
  cases h with
  | plain hr => rw [Request.inquiry?_of_plain hr, Option.toList_none, List.append_nil]
  | halt hr =>
    have : r.inquiry? a = none := by
      cases r with
      | query q => cases q <;> first | rfl | cases hr
      | _ => first | rfl | cases hr
    rw [this]
    rfl
  | enter | turn | locate | install | relocate | options | spawn | unspawned => rfl
  | _ => exact (List.append_nil _).symm

theorem Launching.sound (h : Launching x r a y) (hx : x.Sound) : y.Sound := by
  cases h with
  | plain | halt | kill => exact hx
  | enter => exact ⟨.inl ⟨"", none, List.nil_prefix⟩, nofun⟩
  | turn => exact .inl ⟨"", none, List.nil_prefix⟩
  | @locate found =>
    refine ⟨?_, by simp⟩
    cases found with
    | some path => exact .obtained (.atOnce path)
    | none => exact .inr (.inl ⟨"", none, by simp⟩)
  | install => exact ⟨.inr (.inl ⟨"", none, by simp⟩), by simp⟩
  | @relocate found =>
    refine ⟨?_, by simp⟩
    cases found with
    | some path => exact .obtained (.installed path)
    | none => exact .inr (.inr rfl)
  | options hl =>
    refine ⟨.options hl, fun f hf => ?_⟩
    rcases List.mem_append.1 hf with hf | hf
    · exact hl.not_spawn f hf
    · simp at hf
  | spawn hl => exact .spawn hl none
  | unspawned hl =>
    refine ⟨.spawn hl _, fun f hf => ?_⟩
    have := hl.not_spawn f
    simpa [this] using hf
  | register | refuse | observe | announce | abort | abandon => exact hx

theorem Launching.unannounced (h : Launching x r a y) (hy : y.isAnnounced = false) :
    x.isAnnounced = false ∧ r ≠ .announceChange := by
  cases h with
  | plain hr => exact ⟨hy, by rintro rfl; cases hr⟩
  | halt hr => exact ⟨rfl, by rintro rfl; cases hr⟩
  | announce => cases hy
  | _ => exact ⟨rfl, nofun⟩

end Stages

section Steps

variable {ε : Type} {env : Environment ε} {s : Service} {acts₀ : List Act} {past : List (Episode ε)}
  {w w₁ : World ε} {i : Nat} {x y : Venture}

theorem underWay_of_not_transition {act : Act} (h : act.isTransitionOf i = false) (acts : List Act) :
    underWay i (act :: acts) = underWay i acts := by
  cases act with
  | call c => rfl
  | step task r a =>
    by_cases hi : task = i
    · subst hi
      cases r with
      | beginStart | abortStart | register => simp [Act.isTransitionOf, Request.isTransition] at h
      | _ => simp [underWay]
    · simp [underWay, hi]

/-- What puts no event of the task leaves it where it is. -/
theorem Venture.Reached.pass (h : x.Reached i acts₀ past) (hrun : Run env s (actsOf past ++ acts₀) w)
    {act : Act} (hact : act.isTransitionOf i = false) : x.Reached i acts₀ (⟨w, act⟩ :: past) := by
  have unbegun : (∀ v, ⟨v, .step i .beginStart .open⟩ ∉ past) →
      ∀ v, ⟨v, .step i .beginStart .open⟩ ∉ (⟨w, act⟩ :: past : List (Episode ε)) := by
    intro hnone v hm
    rcases List.mem_cons.1 hm with heq | hm
    · cases heq
      simp [Act.isTransitionOf, Request.isTransition] at hact
    · exact hnone v hm
  have midway : Midway i past ∧ underWay i (actsOf past ++ acts₀) = true →
      Midway i (⟨w, act⟩ :: past) ∧ underWay i (actsOf (⟨w, act⟩ :: past) ++ acts₀) = true := by
    rintro ⟨hmid, hu⟩
    exact ⟨hmid.cons (hrun.runtime_of_underWay hu) hact, (underWay_of_not_transition hact _).trans hu⟩
  cases x with
  | idle => exact unbegun h
  | away gate =>
    obtain ⟨hnone, hgate, v, hm⟩ := h
    exact ⟨unbegun hnone, hgate, v, List.mem_cons_of_mem _ hm⟩
  | underway | unspawned | spawned => exact midway h
  | refused => exact h
  | registered | announced => trivial
  | aborted => exact GivenUp.cons h hact

/-- A step of the call itself. -/
theorem Venture.Reached.step {r : Request} {a : r.Answer} (h : x.Reached i acts₀ past)
    (hrun : Run env s (actsOf past ++ acts₀) w) {k : r.Answer → Program Flow}
    (hp : w.pending i = some ⟨r, k⟩) (hperf : w.perform env s.roles i r = some (a, w₁))
    (hL : Launching x r a y) : y.Reached i acts₀ (⟨w, .step i r a⟩ :: past) := by
  have passed : r.isTransition = false → x.Reached i acts₀ (⟨w, .step i r a⟩ :: past) :=
    fun hr => h.pass hrun (Act.isTransitionOf_of_not hr i a)
  have givenUp : ∀ {reason : String}, Midway i past ∧ underWay i (actsOf past ++ acts₀) = true →
      GivenUp i (⟨w, .step i (.abortStart reason) ()⟩ :: past) := by
    rintro reason ⟨hmid, hu⟩
    have hstate := hrun.runtime_of_underWay hu
    refine ⟨[], w, reason, past, rfl, hmid, hstate, ?_, List.forall_mem_nil _⟩
    rw [hstate]
    rfl
  cases hL with
  | plain hr => exact passed (Request.isTransition_of_plain hr)
  | halt hr =>
    -- a stop is an event, but no beginning of a start
    intro v hm
    rcases List.mem_cons.1 hm with heq | hm
    · cases heq
      cases hr
    · exact h v hm
  | enter =>
    have hopen : w.runtime.beginStart.1 = .open := congrArg (·.1) (Option.some.inj hperf)
    have hstopped := (Supervisor.Runtime.beginStart_of_open hopen).1
    refine ⟨⟨w, [], past, rfl, hrun.runtime_of_stopped hstopped, List.forall_mem_nil _⟩, ?_⟩
    simp [actsOf, underWay]
  | turn hgate =>
    refine ⟨fun v hm => ?_, hgate, w, List.mem_cons_self⟩
    rcases List.mem_cons.1 hm with heq | hm
    · cases heq
      exact hgate rfl
    · exact h v hm
  | refuse =>
    obtain ⟨runtime, htaken⟩ := hrun.coherent.2.2.2 i _ k hp
    simp only [World.perform, htaken] at hperf
    cases hperf
  | register | announce => trivial
  | abort => exact givenUp h
  | abandon => exact givenUp h
  | _ => exact passed rfl

/-- What others do leaves the call where it is. -/
theorem Ventured.pass (h : Ventured i acts₀ x past) (hrun : Run env s (actsOf past ++ acts₀) w) {act : Act}
    (hact : act.task? ≠ some i) : Ventured i acts₀ x (⟨w, act⟩ :: past) where
  inquired := (chronicle_other hact).trans h.inquired
  sound := h.sound
  unannounced hx v hm := by
    rcases List.mem_cons.1 hm with heq | hm
    · cases heq
      exact hact rfl
    · exact h.unannounced hx v hm
  reached := by
    refine h.reached.pass hrun ?_
    cases act with
    | call c => rfl
    | step task r a => exact Act.isTransitionOf_other (fun ht => hact (congrArg some ht)) r a

theorem Ventured.step {r : Request} {a : r.Answer} (h : Ventured i acts₀ x past)
    (hrun : Run env s (actsOf past ++ acts₀) w) {k : r.Answer → Program Flow}
    (hp : w.pending i = some ⟨r, k⟩) (hperf : w.perform env s.roles i r = some (a, w₁))
    (hL : Launching x r a y) : Ventured i acts₀ y (⟨w, .step i r a⟩ :: past) where
  inquired := by
    rw [hL.inquiries, ← h.inquired]
    exact chronicle_own i r a (actsOf past)
  sound := hL.sound h.sound
  unannounced hy v hm := by
    obtain ⟨hx, hr⟩ := hL.unannounced hy
    rcases List.mem_cons.1 hm with heq | hm
    · cases heq
      exact hr rfl
    · exact h.unannounced hx v hm
  reached := h.reached.step hrun hp hperf hL

variable {w₀ : World ε} {c : Call}

/-- **A call that can start the server, at every moment of its course.** -/
theorem Course.ventured (h₀ : Run env s acts₀ w₀) (hc : c.kinds.contains .launch = true)
    (h : Course env s (w₀.called s c) past w) :
    ∃ x, Ventured w₀.tasks.length (.call c :: acts₀) x past ∧
      w.Keeps Launching Venture.Ends w₀.tasks.length x :=
  Course.accompany h₀ (Call.launches s hc)
    (J := fun x past _ => Ventured w₀.tasks.length (.call c :: acts₀) x past)
    ⟨rfl, .inl ⟨"", none, List.nil_prefix⟩, nofun, nofun⟩
    (fun hcourse hJ hp hperf hP => hJ.step (hcourse.run_of_call h₀) hp hperf hP)
    (fun hcourse hJ hne _ _ => hJ.pass (hcourse.run_of_call h₀) (Act.task?_step_ne (Ne.symm hne) _ _))
    (fun c' hcourse hJ => hJ.pass (hcourse.run_of_call h₀) (Act.task?_call_ne c' _)) (fun hJ _ => hJ) h

end Steps

/-! ## At the gate -/

/-- A request that neither begins a start nor has to do with a stop. -/
def Request.isInner (r : Request) : Bool := r != .beginStart && r.kind != .halt

namespace Program

variable {α β γ : Type} {s : Service}

theorem bind_done (p : Program α) : p.bind done = p := by
  induction p with
  | done a => rfl
  | ask r k ih => exact congrArg (ask r) (funext ih)

theorem bind_assoc (p : Program α) (f : α → Program β) (g : β → Program γ) :
    (p.bind f).bind g = p.bind fun a => (f a).bind g := by
  induction p with
  | done a => rfl
  | ask r k ih => exact congrArg (ask r) (funext ih)

/-- Wherever the program begins a start or a stop it stands at the beginning of the whole of it. -/
def Whole (s : Service) : Program α → Prop
  | .done _ => True
  | .ask r k =>
    (r = .beginStart → ∃ f, ask r k = (Supervisor.start s).bind f) ∧
    (r = .stop → ∃ f, ask r k = Supervisor.stop.bind f) ∧ ∀ a, (k a).Whole s

theorem Whole.bind {p : Program α} {f : α → Program β} (hp : p.Whole s) (hf : ∀ a, (f a).Whole s) :
    (p.bind f).Whole s := by
  induction p with
  | done a => exact hf a
  | ask r k ih =>
    obtain ⟨hstart, hstop, hk⟩ := hp
    refine ⟨fun hr => ?_, fun hr => ?_, fun a => ih a (hk a)⟩
    · obtain ⟨g, hg⟩ := hstart hr
      exact ⟨fun o => (g o).bind f, by rw [← bind_assoc, ← hg]; rfl⟩
    · obtain ⟨g, hg⟩ := hstop hr
      exact ⟨fun o => (g o).bind f, by rw [← bind_assoc, ← hg]; rfl⟩

theorem Only.whole {p : Program α} (hp : p.Only Request.isInner) : p.Whole s := by
  induction p with
  | done a => trivial
  | ask r k ih =>
    obtain ⟨hr, hk⟩ := hp
    refine ⟨?_, ?_, fun a => ih a (hk a)⟩
    · rintro rfl
      cases hr
    · rintro rfl
      cases hr

/-- A program keeps to the requests that a protocol has for the states it can come to. -/
theorem Obeys.only {σ : Type} {P : Protocol σ} {Q : σ → α → Prop} {kind : Request → Bool} {G : σ → Prop}
    (hP : ∀ x r (a : r.Answer) y, G x → P x r a y → kind r = true ∧ G y) {p : Program α} {x : σ}
    (h : p.Obeys P Q x) (hx : G x) : p.Only kind := by
  induction p generalizing x with
  | done a => trivial
  | ask r k ih =>
    refine ⟨?_, fun a => ?_⟩
    · obtain ⟨a⟩ := r.answerable
      obtain ⟨y, hy, -⟩ := h a
      exact (hP x r a y hx hy).1
    · obtain ⟨y, hy, hk⟩ := h a
      exact ih a hk (hP x r a y hx hy).2

/-- Neither does a program of these kinds begin a start or a stop. -/
theorem Uses.whole {ks : List Request.Kind} {p : Program α} (hp : p.Uses ks)
    (hk : ks.all (fun k => k != .launch && k != .halt) = true) : p.Whole s := by
  refine Only.whole (Only.mono (fun r hr => ?_) hp)
  have hkind := List.all_eq_true.1 hk r.kind (List.contains_iff_mem.1 hr)
  refine Bool.and_eq_true_iff.2 ⟨?_, (Bool.and_eq_true_iff.1 hkind).2⟩
  exact bne_iff_ne.2 fun heq => by
    rw [heq] at hkind
    cases hkind

theorem whole_done (a : α) : (done a).Whole s := trivial

end Program

section Wholes

open Program

variable {s : Service}

/-- Behind the gate no other start begins, and no stop. -/
theorem inner_launch (s : Service) : (Supervisor.launch s).Only Request.isInner := by
  refine Obeys.only (G := (· ≠ Venture.idle)) (fun x r a y hx hL => ?_) (launch_launches s) nofun
  cases hL with
  | plain hr =>
    refine ⟨?_, hx⟩
    cases r with
    | query q =>
      cases q with
      | write writer level text => cases level <;> rfl
      | _ => rfl
    | _ => first | rfl | cases hr
  | halt | enter | turn => exact absurd rfl hx
  | _ => exact ⟨rfl, nofun⟩

theorem whole_start (s : Service) : (Supervisor.start s).Whole s := by
  refine ⟨fun _ => ⟨done, (bind_done _).symm⟩, nofun, fun gate => ?_⟩
  cases gate with
  | «open» => exact (inner_launch s).whole
  | running d => exact ⟨nofun, nofun, fun _ => trivial⟩
  | busy => exact trivial
  | refused refusal => exact trivial

theorem whole_stop (s : Service) : Supervisor.stop.Whole s := by
  refine ⟨nofun, fun _ => ⟨done, (bind_done _).symm⟩, fun result => ?_⟩
  cases result with
  | alreadyStopping => exact trivial
  | refused e => exact trivial
  | _ => exact ⟨nofun, nofun, fun _ => trivial⟩

theorem whole_awaitExitOrKill (child grace : Nat) : (Supervisor.awaitExitOrKill child grace).Whole s := by
  have waits : (Supervisor.waitExited child grace).Whole s :=
    ⟨nofun, nofun, fun _ => ⟨nofun, nofun, fun _ => trivial⟩⟩
  refine waits.bind fun seen => ?_
  cases seen with
  | true => exact trivial
  | false => exact ⟨nofun, nofun, fun _ => waits⟩

theorem whole_restart (s : Service) : (Supervisor.restart s).Whole s := by
  refine ⟨nofun, nofun, fun target => ?_⟩
  cases target with
  | none => exact whole_start s
  | some child =>
    refine (whole_stop s).bind fun outcome => ?_
    cases outcome with
    | failed reason => exact trivial
    | _ =>
      refine (whole_awaitExitOrKill _ _).bind fun seen => ?_
      cases seen with
      | true => exact whole_start s
      | false => exact ⟨nofun, nofun, fun _ => trivial⟩

theorem whole_shutdown (grace : Nat) : (Supervisor.shutdown grace).Whole s := by
  refine ⟨nofun, nofun, fun child => ?_⟩
  cases child with
  | none => exact trivial
  | some child =>
    have rest : (discard (Supervisor.awaitExitOrKill child grace)).Whole s :=
      (whole_awaitExitOrKill child grace).bind fun _ => trivial
    refine ⟨nofun, nofun, fun state => ?_⟩
    show Program.Whole s (if state.isRunning then _ else _)
    split
    · exact ((whole_stop s).bind fun _ => whole_done _).bind fun _ => rest
    · exact rest

theorem whole_deactivate (s : Service) : (Activation.deactivate s).Whole s := by
  refine ⟨nofun, nofun, fun _ => ⟨nofun, nofun, fun check => ?_⟩⟩
  have finish : ((Supervisor.shutdown s.shutdownGrace).bind fun _ => query .closeOutput).Whole s :=
    (whole_shutdown _).bind fun _ => ⟨nofun, nofun, fun _ => trivial⟩
  cases check with
  | none => exact finish
  | some check => exact ⟨nofun, nofun, fun _ => ⟨nofun, nofun, fun _ => finish⟩⟩

theorem Call.whole (s : Service) (c : Call) : (c.outcome s).Whole s := by
  cases c with
  | start => exact (whole_start s).bind fun _ => trivial
  | stop => exact (whole_stop s).bind fun _ => trivial
  | restart => exact (whole_restart s).bind fun _ => trivial
  | shutdown grace => exact (whole_shutdown grace).bind fun _ => trivial
  | waitForExit timeout =>
    refine Whole.bind ⟨nofun, nofun, fun child => ?_⟩ fun _ => trivial
    cases child with
    | none => exact trivial
    | some child => exact ⟨nofun, nofun, fun _ => ⟨nofun, nofun, fun _ => trivial⟩⟩
  | takeStreams => exact ⟨nofun, nofun, fun _ => trivial⟩
  | activate =>
    refine Whole.bind ⟨nofun, nofun, fun _ => (whole_start s).bind fun outcome => ?_⟩ fun _ => trivial
    split
    · exact (uses_beginCheck.whole rfl).bind fun _ => trivial
    · exact trivial
  | deactivate => exact (whole_deactivate s).bind fun _ => trivial
  | execute text =>
    simp only [Call.outcome]
    split
    · rename_i command _
      refine Whole.bind ?_ fun _ => trivial
      cases command with
      | start => exact (whole_start s).bind fun _ => trivial
      | stop => exact (whole_stop s).bind fun _ => trivial
      | restart => exact (whole_restart s).bind fun _ => trivial
    · exact trivial
  | waitForUpdateCheck => exact (uses_waitForUpdateCheck.whole rfl).bind fun _ => trivial
  | checkForUpdates => exact ((uses_check s).whole rfl).bind fun _ => trivial
  | runUpdate => exact ((uses_runUpdate s).whole rfl).bind fun _ => trivial

theorem Role.whole (s : Service) (ρ : Role) : (ρ.program s).Whole s := by
  cases ρ with
  | call c => exact (c.whole s).bind fun _ => trivial
  | observer child pid =>
    refine ((uses_observeOnce s child pid).whole rfl).bind fun last => ?_
    cases last <;> exact trivial
  | check => exact ((uses_check s).whole rfl).bind fun _ => trivial

variable {ε : Type} {env : Environment ε} {acts : List Act} {w : World ε}

/-- One task of a world is changed, and all programs are as before. -/
theorem World.changeTask_whole {task : Nat} {f : Task → Task}
    (h : ∀ (i : Nat) (t : Task), w.tasks[i]? = some t → t.rest.Whole s ∧ t.body.Whole s)
    (hf : ∀ t, w.tasks[task]? = some t → (f t).rest.Whole s ∧ (f t).body.Whole s) (i : Nat) (t : Task)
    (ht : (w.changeTask task f).tasks[i]? = some t) : t.rest.Whole s ∧ t.body.Whole s := by
  simp only [World.changeTask, List.getElem?_modify] at ht
  obtain ⟨t₀, h₀, rfl⟩ := Option.map_eq_some_iff.1 ht
  split
  · rename_i hi
    exact hf t₀ (hi ▸ h₀)
  · exact h i t₀ h₀

/-- What is left of a task's program is a part of its role. -/
theorem Run.whole (h : Run env s acts w) :
    ∀ (i : Nat) (t : Task), w.tasks[i]? = some t → t.rest.Whole s ∧ t.body.Whole s := by
  induction h with
  | init outside =>
    intro i t ht
    simp at ht
  | @move acts new w w' m hr hm ih =>
    cases m with
    | call c =>
      cases hm
      intro i t ht
      simp only [World.addTask] at ht
      rw [List.getElem?_append] at ht
      split at ht
      · exact ih i t ht
      · obtain rfl := List.mem_singleton.1 (List.mem_of_getElem? ht)
        exact ⟨Role.whole s (.call c), Role.whole s (.call c)⟩
    | step task =>
      cases World.move_step_cases hm with
      | cancel t found hc =>
        have hforget : (w.forgetPrompt env t).tasks = w.tasks := by
          unfold World.forgetPrompt
          split <;> rfl
        refine World.changeTask_whole (fun i t ht => ih i t (hforget ▸ ht)) fun t' ht' => ?_
        exact ih task t' (hforget ▸ ht')
      | finish t o found rest => exact World.changeTask_whole ih fun t' ht' => ih task t' ht'
      | again t found rest =>
        refine World.changeTask_whole ih fun t' ht' => ?_
        exact ⟨(ih task t found).2, (ih task t' ht').2⟩
      | ask t r k a w₁ found rest pending performed =>
        have after : ∀ (i : Nat) (t : Task), w₁.tasks[i]? = some t →
            t.rest.Whole s ∧ t.body.Whole s := by
          intro i t ht
          rcases performed.task_cases ht with ⟨t₀, h₀, rfl | ⟨-, rfl⟩⟩ | ⟨-, ρ, -, rfl⟩
          · exact ih i t h₀
          · exact ih i t₀ h₀
          · exact ⟨ρ.whole s, ρ.whole s⟩
        refine World.changeTask_whole after fun t' ht' => ⟨?_, (after task t' ht').2⟩
        have hrest := (ih task t found).1
        rw [rest] at hrest
        exact hrest.2.2 a
    | turn outside => cases hm; exact ih
    | clock moment => cases hm; exact ih
    | tell child e => cases hm; exact ih
    | vanish child => cases hm; exact ih
    | die child => cases hm; exact ih

theorem Run.whole_of_pending (h : Run env s acts w) {j : Nat} {r : Request} {k : r.Answer → Program Flow}
    (hp : w.pending j = some ⟨r, k⟩) : (ask r k).Whole s := by
  obtain ⟨t, ht, -, -, hrest⟩ := World.pending_eq_some hp
  exact hrest ▸ (h.whole j t ht).1

/-- Whoever is turned away by a start under way: a start hears at once that the server is busy, a stop that
it does not run. Nothing is changed by it, and nobody is asked for anything. -/
structure World.TurnsAway (env : Environment ε) (s : Service) (w : World ε) : Prop where
  start : ∀ j k, w.pending j = some ⟨.beginStart, k⟩ →
    w.perform env s.roles j .beginStart = some (.busy, w) ∧
    ∃ f, Program.ask .beginStart k = (Supervisor.start s).bind f ∧ k .busy = f .busy
  stop : ∀ j k, w.pending j = some ⟨.stop, k⟩ →
    w.perform env s.roles j .stop = some (.notRunning, w) ∧
    ∃ f, Program.ask .stop k = Supervisor.stop.bind f ∧
      k .notRunning = (notify .info "Server is not running.").bind fun _ => f .notRunning

theorem Run.turns_away (h : Run env s acts w) (hs : w.runtime.state = .starting) :
    w.TurnsAway env s where
  start j k hp := by
    have hgate : w.runtime.beginStart = (.busy, w.runtime) := by
      simp [Supervisor.Runtime.beginStart, hs]
    refine ⟨by simp only [World.perform, hgate], ?_⟩
    obtain ⟨f, hf⟩ := (h.whole_of_pending hp).1 rfl
    have hk : k = fun gate => _ := eq_of_heq (Program.ask.inj hf).2
    exact ⟨f, hf, congrFun hk .busy⟩
  stop j k hp := by
    have hgate : w.runtime.beginStop = (.notRunning, w.runtime) := by
      simp [Supervisor.Runtime.beginStop, hs]
    refine ⟨by simp only [World.perform, World.stop, hgate], ?_⟩
    obtain ⟨f, hf⟩ := (h.whole_of_pending hp).2.1 rfl
    have hk : k = fun result => _ := eq_of_heq (Program.ask.inj hf).2
    exact ⟨f, hf, congrFun hk .notRunning⟩

end Wholes

/-! ## All or nothing -/

section AllOrNothing

variable {ε : Type} {env : Environment ε} {s : Service} {acts₀ : List Act} {w₀ w v : World ε} {c : Call}
  {past : List (Episode ε)}

theorem Venture.Sound.orderly {x : Venture} (h : x.Sound) : Orderly x.inquiries := by
  cases x with
  | underway | unspawned => exact h.1
  | aborted l e => cases e <;> exact h.1
  | _ => exact h

theorem Ventured.orderly {i : Nat} {x : Venture} (h : Ventured i acts₀ x past) :
    Orderly (inquiries i (actsOf past)) :=
  h.inquired ▸ h.sound.orderly

/-- A start that has ended without a server has given up, and a process that was to be started failed. -/
theorem Ventured.given_up {i : Nat} {x : Venture} {o : Supervisor.StartOutcome} (h : Ventured i acts₀ x past)
    (begun : ⟨v, .step i .beginStart .open⟩ ∈ past) (hgives : x.Gives o) (hne : ∀ d, o ≠ .started d) :
    GivenUp i past ∧ (∀ u, ⟨u, .step i .announceChange ()⟩ ∉ past) ∧
      ∀ f, .spawn f ∈ inquiries i (actsOf past) → ∃ e, f = some e ∧ o = .failed e.message := by
  have hsound := h.sound
  have hreached := h.reached
  have hquiet := h.unannounced
  rw [h.inquired]
  cases x with
  | away gate => exact absurd begun (hreached.1 v)
  | refused l => exact hreached.elim
  | announced l =>
    obtain ⟨d, rfl⟩ := hgives
    exact absurd rfl (hne d)
  | aborted l e =>
    refine ⟨hreached, hquiet rfl, fun f hf => ?_⟩
    cases e with
    | none => exact absurd hf (hsound.2 f)
    | some e => exact ⟨e, hsound.2 f hf, hgives⟩
  | _ => exact hgives.elim

/-- **A start is all or nothing.** Take any call, in any run and with anything else going on, that begins a
start of a stopped server.

* If the start does not end with a server it has given up: the server went from starting back to stopped, had
  no child and no definition in between, and the task has put no event to it since. Nobody was told of a
  change, and if a process was to be started, then this is what failed.
* At all times it has run its inquiries in order, each at most once.
* As long as it is neither through nor has given up, the server is starting without a child, and everybody
  else who begins a start or a stop is turned away. -/
theorem Course.start_all_or_nothing (h₀ : Run env s acts₀ w₀)
    (h : Course env s (w₀.called s c) past w)
    (begun : ⟨v, .step w₀.tasks.length .beginStart .open⟩ ∈ past) :
    (∀ out, w.result? w₀.tasks.length = some out → ∃ o, out.start? = some o ∧
      ((∀ d, o ≠ .started d) →
        GivenUp w₀.tasks.length past ∧
        (∀ u, ⟨u, .step w₀.tasks.length .announceChange ()⟩ ∉ past) ∧
        ∀ u spec a, ⟨u, .step w₀.tasks.length (.spawn spec) a⟩ ∈ past →
          ∃ e, a = .error e ∧ o = .failed e.message)) ∧
    Orderly (inquiries w₀.tasks.length (actsOf past)) ∧
    (underWay w₀.tasks.length (actsOf past ++ .call c :: acts₀) = true →
      w.runtime = ⟨.starting, none⟩ ∧ w.TurnsAway env s) := by
  have hrun : Run env s (actsOf past ++ .call c :: acts₀) w := h.run (.move (.call c) h₀ rfl)
  have hacted : .step w₀.tasks.length .beginStart .open ∈ actsOf past ++ .call c :: acts₀ :=
    List.mem_append_left _ (List.mem_map.2 ⟨_, begun, rfl⟩)
  have hc := hrun.kind_of_acted (h₀.role_of_call c _) hacted
  obtain ⟨x, hx, hkeep⟩ := h.ventured h₀ hc
  refine ⟨fun out hout => ?_, hx.orderly, fun hu => ?_⟩
  · rcases hkeep.result hout with rfl | ⟨o, ho, hgives⟩
    · exact absurd begun (hx.reached v)
    · refine ⟨o, ho, fun hne => ?_⟩
      obtain ⟨hup, hquiet, hspawn⟩ := hx.given_up begun hgives hne
      refine ⟨hup, hquiet, fun u spec a hm => ?_⟩
      have hact : .step w₀.tasks.length (.spawn spec) a ∈ actsOf past := List.mem_map.2 ⟨_, hm, rfl⟩
      cases a with
      | ok identity =>
        obtain ⟨e, he, -⟩ := hspawn none (mem_chronicle.2 ⟨_, _, hact, rfl⟩)
        cases he
      | error e =>
        obtain ⟨e', he, ho⟩ := hspawn (some e) (mem_chronicle.2 ⟨_, _, hact, rfl⟩)
        cases he
        exact ⟨e, rfl, ho⟩
  · have hruntime := hrun.runtime_of_underWay hu
    exact ⟨hruntime, hrun.turns_away (by rw [hruntime])⟩

/-- The spawner refuses, and another start comes while the first one is under way. -/
def Rehearsal.denied : List (Move Script) :=
  List.replicate 4 (.step 0) ++ [.call .start, .step 1, .step 1] ++ List.replicate 5 (.step 0)

/-- A start whose process could not be started, with another start turned away meanwhile, has left nothing. -/
theorem given_up_when_denied : ∃ past w v,
    Course Rehearsal.Script.environment Rehearsal.sample
      ((Rehearsal.scene { spawnError := some (.process "denied") } []).2.called Rehearsal.sample .start)
      past w ∧
    ⟨v, .step 0 .beginStart .open⟩ ∈ past ∧
    w.result? 0 = some (.start (.failed "Process error: denied")) ∧ w.result? 1 = some (.start .busy) ∧
    GivenUp 0 past ∧ Orderly (inquiries 0 (actsOf past)) ∧
    inquiries 0 (actsOf past) = [.locate (some Rehearsal.defaultPath), .options,
      .spawn (some (.process "denied"))] := by
  have hrun := Rehearsal.run_scene { spawnError := some (.process "denied") } []
  have hcourse := Rehearsal.course_sequel
    (Rehearsal.scene { spawnError := some (.process "denied") } []).2 .start Rehearsal.denied
  have hbegun := List.mem_of_getElem? (i := 9) (l := (Rehearsal.sequel
    (Rehearsal.scene { spawnError := some (.process "denied") } []).2 .start Rehearsal.denied).1) rfl
  obtain ⟨ended, orderly, -⟩ := Course.start_all_or_nothing hrun hcourse hbegun
  obtain ⟨o, ho, hgiven⟩ := ended (.start (.failed "Process error: denied")) (by decide +kernel)
  obtain rfl := Option.some.inj ho
  obtain ⟨hup, -⟩ := hgiven nofun
  exact ⟨_, _, _, hcourse, hbegun, by decide +kernel, by decide +kernel, hup, orderly, by decide +kernel⟩

end AllOrNothing

end Steward
