import Steward.Proofs.Announcement
import Steward.Proofs.Enrolment
import Steward.Proofs.Exchanges
import Steward.Proofs.Launching
import Steward.Proofs.Moments
import Steward.Proofs.Wiring

/-!
# What is published is what was launched

A start that has come to a server has found the program, read the options, perhaps got a port, started a process
and registered it. `Passage` is what it went by, and the rest follows from that: `Passage.spec` is what was started
and `Passage.definition` what is published. `Passage.Made` says that a start has come past all of this, in this order
and each of it once, so what it has read was not read for another start.

The definition stands from the registration of the child until its exit is recorded, whatever happens in between.
As long as it stands every other start is turned away at the gate.
-/

set_option autoImplicit false

namespace Steward

/-! ## Milestones -/

/-- Something that a start comes past, with what it was told there. -/
inductive Milestone where
  | located (path : Option String)
  | options (answer : Except Failure ServerOptions)
  | port (preferred : Nat) (answer : Except Failure Nat)
  | spawned (spec : LaunchSpec) (answer : Except Failure (Nat × Nat))
  | registered (handle : Supervisor.Handle) (d : Definition) (answer : Except Lifecycle.Refusal Unit)
  deriving DecidableEq

def Request.milestone? : (r : Request) → r.Answer → Option Milestone
  | .query .locate, path => some (.located path)
  | .query .readOptions, answer => some (.options answer)
  | .query (.negotiatePort preferred), answer => some (.port preferred answer)
  | .spawn spec, answer => some (.spawned spec answer)
  | .register handle d, answer => some (.registered handle d answer)
  | _, _ => none

def milestonesIn (l : List Exchange) : List Milestone := l.filterMap fun e => e.request.milestone? e.answer

/-- The exchange behind it. -/
def Milestone.exchange : Milestone → Exchange
  | .located path => ⟨.query .locate, path⟩
  | .options answer => ⟨.query .readOptions, answer⟩
  | .port preferred answer => ⟨.query (.negotiatePort preferred), answer⟩
  | .spawned spec answer => ⟨.spawn spec, answer⟩
  | .registered handle d answer => ⟨.register handle d, answer⟩

theorem mem_milestonesIn {m : Milestone} {l : List Exchange} : m ∈ milestonesIn l ↔ m.exchange ∈ l := by
  have htells : ∀ e : Exchange, e.request.milestone? e.answer = some m ↔ e = m.exchange := by
    rintro ⟨r, a⟩
    constructor
    · intro h
      cases r with
      | query q => cases q <;> cases h <;> rfl
      | _ => cases h <;> rfl
    · intro h
      rw [h]
      cases m <;> rfl
  simp [milestonesIn, List.mem_filterMap, htells]

/-- What a start went by. -/
structure Passage where
  /-- where the program was found -/
  path : String
  options : ServerOptions
  /-- the port that was negotiated, if the server listens -/
  port : Nat
  child : Nat
  pid : Nat

/-- The program was found, at once or after an installation. -/
inductive Found (path : String) : List Milestone → Prop where
  | atOnce : Found path [.located (some path)]
  | installed : Found path [.located none, .located (some path)]

namespace Passage

variable (x : Passage) (s : Service)

/-- Whether the server is to listen. -/
def listens : Bool := x.options.enableStreamableHttp

def args : List String :=
  let verbose := "--verbose=" ++ (if x.options.verbose then "true" else "false")
  if x.listens then ["--port=" ++ toString x.port, verbose] else [verbose]

/-- What is started. -/
def spec : LaunchSpec := ⟨x.path, x.args, if x.listens then .http else .stdio⟩

/-- What is published. -/
def definition : Definition :=
  if x.listens then .http s.serverName ("http://localhost:" ++ toString x.port)
  else .stdio s.serverName x.path x.args

/-- What a start comes past once it has found the program. -/
def milestones : List Milestone :=
  .options (.ok x.options) :: (if x.listens then [.port x.options.port (.ok x.port)] else []) ++
    [.spawned x.spec (.ok (x.child, x.pid)), .registered ⟨x.child, x.pid, !x.listens⟩ (x.definition s) (.ok ())]

/-- A start that went by it has come past these. -/
def Made (l : List Milestone) : Prop := ∃ found, Found x.path found ∧ l = found ++ x.milestones s

variable {x s} in
theorem Made.mem {l : List Milestone} (h : x.Made s l) {m : Milestone} (hm : m ∈ x.milestones s) : m ∈ l := by
  obtain ⟨found, -, rfl⟩ := h
  exact List.mem_append_right found hm

theorem plan_http (h : x.listens = true) :
    (Supervisor.Plan.http x.path x.options x.port).definition s = x.definition s ∧
      (Supervisor.Plan.http x.path x.options x.port).spec = x.spec := by
  simp only [definition, spec, args, h, if_true]
  exact ⟨rfl, rfl⟩

theorem plan_stdio (h : x.listens = false) :
    (Supervisor.Plan.stdio x.path x.options).definition s = x.definition s ∧
      (Supervisor.Plan.stdio x.path x.options).spec = x.spec := by
  simp only [definition, spec, args, h]
  exact ⟨rfl, rfl⟩

end Passage

/-- A start with these milestones has arrived at this definition. -/
def Arrived (s : Service) (l : List Milestone) (d : Definition) : Prop :=
  ∃ x : Passage, x.Made s l ∧ d = x.definition s

/-! ## The way of a start -/

/-- A request that is no milestone. -/
def Request.isWayside : Request → Bool
  | .query .locate => false
  | .query .readOptions => false
  | .query (.negotiatePort _) => false
  | .spawn _ => false
  | .register .. => false
  | _ => true

section Ways

open Program

variable {α : Type} {s : Service} {l : List Exchange} {d : Definition}

theorem Request.milestone?_of_wayside {r : Request} (h : r.isWayside = true) (a : r.Answer) :
    r.milestone? a = none := by
  cases r with
  | query q => cases q <;> first | rfl | cases h
  | _ => first | rfl | cases h

theorem milestonesIn_append (l l' : List Exchange) : milestonesIn (l ++ l') = milestonesIn l ++ milestonesIn l' :=
  List.filterMap_append

theorem Program.Only.milestones {p : Program α} (hp : p.Only Request.isWayside) {a : α} (h : p.Yields l a) :
    milestonesIn l = [] := by
  refine List.filterMap_eq_nil_iff.2 fun e he => ?_
  exact Request.milestone?_of_wayside (hp.yields h e he) e.answer

theorem Program.Uses.wayside {ks : List Request.Kind} {p : Program α} (hp : p.Uses ks)
    (hk : ks.all (fun k => k == .dialogue || k == .command || k == .check) = true) : p.Only Request.isWayside := by
  refine Only.mono (fun r hr => ?_) hp
  have hkind := List.all_eq_true.1 hk r.kind (List.contains_iff_mem.1 hr)
  cases r with
  | query q => cases q <;> first | rfl | cases hkind
  | _ => first | rfl | cases hkind

theorem wayside_install (s : Service) : (Tool.install s).Only Request.isWayside := by
  refine ⟨rfl, fun host => ?_⟩
  cases host with
  | some outcome => exact trivial
  | none =>
    refine ((uses_prompt _ _ _).wayside rfl).bind fun choice => ?_
    dsimp only
    split
    · exact trivial
    · refine ((uses_runInstall s).wayside rfl).bind fun outcome => ?_
      cases outcome with
      | cancelled => exact trivial
      | _ => exact ⟨rfl, fun _ => trivial⟩

theorem wayside_stop : Supervisor.stop.Only Request.isWayside := only_stop rfl fun _ _ => rfl

theorem wayside_awaitExitOrKill (child grace : Nat) :
    (Supervisor.awaitExitOrKill child grace).Only Request.isWayside :=
  only_awaitExitOrKill (fun _ => rfl) (fun _ _ => rfl) rfl child grace

theorem launchPlan_yields {p : Supervisor.Plan} (h : (Supervisor.launchPlan s p).Yields l (.started d)) :
    d = p.definition s ∧ ∃ child pid, milestonesIn l =
      [.spawned p.spec (.ok (child, pid)), .registered ⟨child, pid, p.spec.transport == .stdio⟩ d (.ok ())] := by
  obtain ⟨⟨⟩, l₁, rfl, hspawn⟩ := yields_ask.1 h
  obtain ⟨spawned, l₂, rfl, hspawned⟩ := yields_ask.1 hspawn
  cases spawned with
  | error e =>
    obtain ⟨⟨⟩, l₃, rfl, ⟨⟩, l₄, rfl, ⟨⟩, l₅, rfl, -, heq⟩ := hspawned
    cases heq
  | ok identity =>
    obtain ⟨child, pid⟩ := identity
    obtain ⟨registered, l₃, rfl, hregistered⟩ := yields_ask.1 hspawned
    cases registered with
    | error refusal =>
      obtain ⟨a, l₄, rfl, -, heq⟩ := hregistered
      cases heq
    | ok u =>
      obtain ⟨⟨⟩, l₄, rfl, ⟨⟩, l₅, rfl, ⟨⟩, l₆, rfl, rfl, heq⟩ := hregistered
      cases heq
      exact ⟨rfl, child, pid, rfl⟩

/-- Behind the search for the program. -/
theorem launchAt_yields {path : String} (h : (Supervisor.launchAt s path).Yields l (.started d)) :
    ∃ x : Passage, x.path = path ∧ d = x.definition s ∧ milestonesIn l = x.milestones s := by
  obtain ⟨options, l₁, rfl, hoptions⟩ := yields_ask.1 h
  cases options with
  | error e =>
    obtain ⟨⟨⟩, l₂, rfl, ⟨⟩, l₃, rfl, -, heq⟩ := hoptions
    cases heq
  | ok options =>
    dsimp only at hoptions
    split at hoptions
    · rename_i hlistens
      obtain ⟨port, l₂, rfl, hport⟩ := yields_ask.1 hoptions
      cases port with
      | error e =>
        obtain ⟨⟨⟩, l₃, rfl, ⟨⟩, l₄, rfl, -, heq⟩ := hport
        cases heq
      | ok port =>
        obtain ⟨rfl, child, pid, hm⟩ := launchPlan_yields hport
        obtain ⟨hdefinition, hspec⟩ := Passage.plan_http ⟨path, options, port, child, pid⟩ s hlistens
        refine ⟨⟨path, options, port, child, pid⟩, rfl, hdefinition, ?_⟩
        show .options _ :: .port _ _ :: milestonesIn l₂ = _
        rw [hm, hdefinition, hspec, Passage.milestones, Passage.spec, Passage.listens, hlistens]
        rfl
    · rename_i hlistens
      rw [Bool.not_eq_true] at hlistens
      obtain ⟨rfl, child, pid, hm⟩ := launchPlan_yields hoptions
      obtain ⟨hdefinition, hspec⟩ := Passage.plan_stdio ⟨path, options, 0, child, pid⟩ s hlistens
      refine ⟨⟨path, options, 0, child, pid⟩, rfl, hdefinition, ?_⟩
      show .options _ :: milestonesIn l₁ = _
      rw [hm, hdefinition, hspec, Passage.milestones, Passage.spec, Passage.listens, hlistens]
      rfl

/-- The search ends with the path that was located last, or with what the start then fails with. -/
theorem resolveProgram_yields {resolved : Except Supervisor.StartOutcome String}
    (h : (Supervisor.resolveProgram s).Yields l resolved) :
    (∀ path, resolved = .ok path → Found path (milestonesIn l)) ∧ resolved ≠ .error (.started d) := by
  obtain ⟨found, l₁, rfl, hfound⟩ := yields_ask.1 h
  cases found with
  | some path =>
    obtain ⟨rfl, rfl⟩ := hfound
    refine ⟨?_, nofun⟩
    rintro _ ⟨⟩
    exact .atOnce
  | none =>
    obtain ⟨l₂, l₃, outcome, rfl, hinstall, hinstalled⟩ := yields_bind.1 hfound
    cases outcome with
    | cancelled =>
      obtain ⟨-, rfl⟩ := hinstalled
      exact ⟨nofun, nofun⟩
    | failed reason =>
      obtain ⟨-, rfl⟩ := hinstalled
      exact ⟨nofun, nofun⟩
    | installed =>
      obtain ⟨found, l₄, rfl, hfound'⟩ := yields_ask.1 hinstalled
      cases found with
      | none =>
        obtain ⟨⟨⟩, l₅, rfl, -, rfl⟩ := hfound'
        exact ⟨nofun, nofun⟩
      | some path =>
        obtain ⟨rfl, rfl⟩ := hfound'
        refine ⟨?_, nofun⟩
        rintro _ ⟨⟩
        show Found path (.located none :: milestonesIn (l₂ ++ _))
        rw [milestonesIn_append, (wayside_install s).milestones hinstall]
        exact .installed

/-- **A start that has come to a server made one passage.** -/
theorem start_yields (h : (Supervisor.start s).Yields l (.started d)) :
    Arrived s (milestonesIn l) d := by
  obtain ⟨gate, l₁, rfl, hgate⟩ := yields_ask.1 h
  cases gate with
  | running d' =>
    obtain ⟨⟨⟩, l₂, rfl, -, heq⟩ := hgate
    cases heq
  | busy => exact nomatch hgate.2
  | refused refusal => exact nomatch hgate.2
  | «open» =>
    obtain ⟨l₂, l₃, resolved, rfl, hresolve, hlaunch⟩ := yields_bind.1 hgate
    obtain ⟨hfound, hfailed⟩ := resolveProgram_yields (d := d) hresolve
    cases resolved with
    | error outcome =>
      obtain ⟨⟨⟩, l₄, rfl, -, rfl⟩ := hlaunch
      exact absurd rfl hfailed
    | ok path =>
      obtain ⟨x, rfl, rfl, hm⟩ := launchAt_yields hlaunch
      refine ⟨x, ⟨_, hfound _ rfl, ?_⟩, rfl⟩
      show milestonesIn (l₂ ++ l₃) = _
      rw [milestonesIn_append, hm]

/-- What leads up to the start in a restart is no part of the passage. -/
theorem restart_yields (h : (Supervisor.restart s).Yields l (.started d)) :
    Arrived s (milestonesIn l) d := by
  obtain ⟨target, l₁, rfl, htarget⟩ := yields_ask.1 h
  cases target with
  | none =>
    show Arrived s (milestonesIn l₁) d
    exact start_yields htarget
  | some child =>
    obtain ⟨l₂, l₃, stopped, rfl, hstop, hstopped⟩ := yields_bind.1 htarget
    cases stopped with
    | failed reason => exact nomatch hstopped.2
    | _ =>
      obtain ⟨l₄, l₅, seen, rfl, hwait, hseen⟩ := yields_bind.1 hstopped
      cases seen with
      | false =>
        obtain ⟨⟨⟩, l₆, rfl, -, heq⟩ := hseen
        cases heq
      | true =>
        show Arrived s (milestonesIn (l₂ ++ (l₄ ++ l₅))) d
        rw [milestonesIn_append, milestonesIn_append, wayside_stop.milestones hstop,
          (wayside_awaitExitOrKill _ _).milestones hwait]
        exact start_yields hseen

/-- The update check that an activation begins is no part of it either. -/
theorem activate_yields (h : (Activation.activate s).Yields l (.started d)) : Arrived s (milestonesIn l) d := by
  obtain ⟨⟨⟩, l₁, rfl, hstart⟩ := yields_ask.1 h
  obtain ⟨l₂, l₃, so, rfl, hso, hcheck⟩ := yields_bind.1 hstart
  have hbeside : milestonesIn l₃ = [] ∧ so = .started d := by
    split at hcheck
    · obtain ⟨⟨⟩, hbegin, rfl⟩ := yields_map.1 hcheck
      exact ⟨(uses_beginCheck.wayside rfl).milestones hbegin, rfl⟩
    · obtain ⟨rfl, rfl⟩ := hcheck
      exact ⟨rfl, rfl⟩
  obtain ⟨hnone, rfl⟩ := hbeside
  show Arrived s (milestonesIn (l₂ ++ l₃)) d
  rw [milestonesIn_append, hnone, List.append_nil]
  exact start_yields hso

/-- **Every call that has come to a server made one passage.** -/
theorem Call.yields_started {c : Call} {o : Outcome} (h : (c.outcome s).Yields l o)
    (ho : o.start? = some (.started d)) : Arrived s (milestonesIn l) d := by
  cases c with
  | start =>
    obtain ⟨so, hso, rfl⟩ := yields_map.1 h
    cases ho
    exact start_yields hso
  | restart =>
    obtain ⟨so, hso, rfl⟩ := yields_map.1 h
    cases ho
    exact restart_yields hso
  | activate =>
    obtain ⟨so, hso, rfl⟩ := yields_map.1 h
    cases ho
    exact activate_yields hso
  | execute text =>
    simp only [Call.outcome] at h
    split at h
    · rename_i command _
      obtain ⟨co, hco, rfl⟩ := yields_map.1 h
      cases command with
      | start =>
        obtain ⟨so, hso, rfl⟩ := yields_map.1 hco
        cases ho
        exact start_yields hso
      | stop =>
        obtain ⟨so, -, rfl⟩ := yields_map.1 hco
        cases ho
      | restart =>
        obtain ⟨so, hso, rfl⟩ := yields_map.1 hco
        cases ho
        exact restart_yields hso
    · obtain ⟨-, rfl⟩ := h
      cases ho
  | _ =>
    obtain ⟨a, -, rfl⟩ := yields_map.1 h
    cases ho

end Ways

/-! ## Ports -/

/-- At this moment the world outside gives out ports like a machine: port numbers have sixteen bits, and one that is
handed out is free and not zero. -/
structure Environment.Networked {ε : Type} (env : Environment ε) (sockets : ε → Port.Sockets) (x : ε) : Prop where
  options : ∀ o, (env.answer .readOptions x).1 = .ok o → o.port ≤ Text.maxU16
  negotiates : ∀ preferred, (env.answer (.negotiatePort preferred) x).1 = Port.negotiate (sockets x) preferred
  handedOut : ∀ port, (sockets x).handOut = .ok port →
    port ≠ 0 ∧ port ≤ Text.maxU16 ∧ (sockets x).isFree port = true

section Ports

theorem Port.negotiate_cases {sockets : Sockets} {preferred port : Nat}
    (h : negotiate sockets preferred = .ok port) :
    sockets.grants preferred = true ∧ port = preferred ∨
      sockets.grants preferred = false ∧ sockets.handOut = .ok port := by
  unfold negotiate at h
  split at h
  · rename_i hgrants
    cases h
    exact .inl ⟨hgrants, rfl⟩
  · rename_i hgrants
    refine .inr ⟨Bool.not_eq_true _ ▸ hgrants, ?_⟩
    split at h
    · rename_i hout
      cases h
      exact hout
    · cases h

theorem Port.Sockets.grants_iff {sockets : Sockets} {preferred : Nat} :
    sockets.grants preferred = true ↔ preferred ≠ 0 ∧ sockets.isFree preferred = true := by
  simp [Sockets.grants]

theorem Text.isDigit_toString (n : Nat) : ∀ c ∈ (toString n).toList, c.isDigit = true := by
  intro c hc
  rw [Nat.toString_eq_repr, Nat.toList_repr] at hc
  exact Nat.isDigit_of_mem_toDigits (by decide) (by decide) hc

theorem Text.numeral?_toString {limit n : Nat} (h : n ≤ limit) : numeral? limit (toString n).toList = some n := by
  have hvalue : decimal? (toString n).toList = some n := by
    rw [decimal?_of_isDigit (by simp) (isDigit_toString n), Nat.toString_eq_repr, Nat.toList_repr,
      Nat.ofDigitChars_ten_toDigits]
  have hunsigned : ∀ rest, (toString n).toList ≠ '+' :: rest := by
    intro rest heq
    cases isDigit_toString n '+' (heq ▸ List.mem_cons_self)
  rw [numeral?, hvalue]
  · exact if_pos h
  · exact hunsigned

/-- The port can be read off the address. -/
theorem Definition.port?_http (name : String) {port : Nat} (h : port ≤ Text.maxU16) :
    (Definition.http name ("http://localhost:" ++ toString port)).port? = some port := by
  have hcolon : ':' ∉ (toString port).toList := by
    intro hmem
    cases Text.isDigit_toString port ':' hmem
  have hurl : ("http://localhost:" ++ toString port).toList =
      "http://localhost".toList ++ ':' :: (toString port).toList := by simp
  rw [port?, Text.afterLast, hurl, Text.splitLast_append hcolon]
  exact Text.numeral?_toString h

end Ports

/-! ## Registrations -/

/-- The child was registered with this definition. -/
def RegisteredAs (acts : List Act) (child : Nat) (d : Definition) : Prop :=
  ∃ (task : Nat) (handle : Supervisor.Handle),
    .step task (.register handle d) (.ok ()) ∈ acts ∧ handle.child = child

/-- What is known of the registrations of a run: a child is registered with one definition, and as long as it is the
current one this is what is published. -/
structure Chartered {ε : Type} (acts : List Act) (w : World ε) : Prop where
  unique : ∀ child d d', RegisteredAs acts child d → RegisteredAs acts child d' → d = d'
  published : ∀ child d, RegisteredAs acts child d → w.runtime.child? = some child → w.runtime.definitions = [d]

section Registrations

variable {ε : Type} {env : Environment ε} {s : Service} {phase : Nat → ServerPhase} {acts : List Act}
  {w w' w₁ : World ε} {task child : Nat} {r : Request} {a : r.Answer} {y : ServerPhase} {x : Act} {d : Definition}

theorem RegisteredAs.registered (h : RegisteredAs acts child d) : Registered acts child := by
  obtain ⟨task, handle, hm, hchild⟩ := h
  exact ⟨task, handle, d, hm, hchild⟩

theorem RegisteredAs.append (h : RegisteredAs acts child d) (later : List Act) :
    RegisteredAs (later ++ acts) child d := by
  obtain ⟨task, handle, hm, hchild⟩ := h
  exact ⟨task, handle, List.mem_append_right later hm, hchild⟩

theorem registeredAs_cons_cases (h : RegisteredAs (x :: acts) child d) :
    RegisteredAs acts child d ∨
      ∃ task handle, x = .step task (.register handle d) (.ok ()) ∧ handle.child = child := by
  obtain ⟨task, handle, hm, hchild⟩ := h
  rcases List.mem_cons.1 hm with hx | hm
  · exact .inr ⟨task, handle, hx.symm, hchild⟩
  · exact .inl ⟨task, handle, hm, hchild⟩

/-- What is published changes only when a child is registered or its exit is recorded. -/
theorem Request.mark?_change (h : r.mark? a = some .change) :
    (∃ handle d, r = .register handle d) ∨ ∃ pid exit, r = .recordExit pid exit := by
  cases r with
  | register handle d => exact .inl ⟨handle, d, rfl⟩
  | recordExit pid exit => exact .inr ⟨pid, exit, rfl⟩
  | _ => cases h

theorem GuardedStep.definitions_eq (h : GuardedStep env s phase acts w task r a w₁ y)
    (hreg : ∀ handle d, r ≠ .register handle d) (hrec : ∀ pid exit, r ≠ .recordExit pid exit) :
    w₁.runtime.definitions = w.runtime.definitions := by
  obtain ⟨k, hp⟩ := h.pending
  have hpub := h.run.published_act hp h.performed
  cases hmark : r.mark? a with
  | none =>
    rw [hmark] at hpub
    cases hpub with
    | same definitions => exact definitions
  | some mark =>
    rw [hmark] at hpub
    cases mark with
    | change =>
      rcases Request.mark?_change hmark with ⟨handle, d, heq⟩ | ⟨pid, exit, heq⟩
      · exact absurd heq (hreg handle d)
      · exact absurd heq (hrec pid exit)
    | signal =>
      cases hpub with
      | signalled definitions => exact definitions

/-- A child is registered for the first time. -/
theorem Chartered.register (hc : Chartered acts w) (he : Enrolled phase acts w) {handle : Supervisor.Handle}
    {a : (Request.register handle d).Answer} (h : GuardedStep env s phase acts w task (.register handle d) a w₁ y)
    {f : Task → Task} : Chartered (.step task (.register handle d) a :: acts) (w₁.changeTask task f) := by
  obtain ⟨hphase, rfl⟩ := h.register
  have first : ∀ d', ¬ RegisteredAs acts handle.child d' := fun d' hreg => he.spawned task _ _ hphase hreg.registered
  refine ⟨fun child d₁ d₂ h₁ h₂ => ?_, fun child d₁ h₁ hchild => ?_⟩
  · rcases registeredAs_cons_cases h₁ with hold | ⟨_, _, hnew, rfl⟩
    · rcases registeredAs_cons_cases h₂ with hold' | ⟨_, _, hnew, rfl⟩
      · exact hc.unique child d₁ d₂ hold hold'
      · cases hnew
        exact absurd hold (first d₁)
    · cases hnew
      rcases registeredAs_cons_cases h₂ with hold | ⟨_, _, hnew, -⟩
      · exact absurd hold (first d₂)
      · cases hnew
        rfl
  · obtain rfl := Option.some.inj hchild
    rcases registeredAs_cons_cases h₁ with hold | ⟨_, _, hnew, -⟩
    · exact absurd hold (first d₁)
    · cases hnew
      rfl

/-- Nothing is registered, and what is published stays or no child is left. -/
theorem Chartered.keep (hc : Chartered acts w)
    (hx : ∀ task handle d, x ≠ .step task (.register handle d) (.ok ()))
    (hw : w'.runtime.child? = none ∨
      w'.runtime.child? = w.runtime.child? ∧ w'.runtime.definitions = w.runtime.definitions) :
    Chartered (x :: acts) w' := by
  have old : ∀ {child d}, RegisteredAs (x :: acts) child d → RegisteredAs acts child d := by
    intro child d h
    rcases registeredAs_cons_cases h with h | ⟨task, handle, heq, -⟩
    · exact h
    · exact absurd heq (hx task handle d)
  refine ⟨fun child d₁ d₂ h₁ h₂ => hc.unique child d₁ d₂ (old h₁) (old h₂), fun child d h hchild => ?_⟩
  rcases hw with hnone | ⟨hsame, hdefinitions⟩
  · rw [hnone] at hchild
    cases hchild
  · rw [hdefinitions]
    exact hc.published child d (old h) (hsame ▸ hchild)

theorem Chartered.act (hc : Chartered acts w) (he : Enrolled phase acts w)
    (h : GuardedStep env s phase acts w task r a w₁ y) {f : Task → Task} :
    Chartered (.step task r a :: acts) (w₁.changeTask task f) := by
  by_cases hreg : ∃ handle d, r = .register handle d
  · obtain ⟨handle, d, rfl⟩ := hreg
    exact hc.register he h
  · have hreg : ∀ handle d, r ≠ .register handle d := fun handle d heq => hreg ⟨handle, d, heq⟩
    refine hc.keep (fun i handle d heq => ?_) ?_
    · injection heq with _ hr
      exact hreg handle d hr
    · by_cases hrec : ∃ pid exit, r = .recordExit pid exit
      · obtain ⟨pid, exit, rfl⟩ := hrec
        obtain ⟨-, -, -, -, -, rfl⟩ := h.record
        exact .inl rfl
      · have hrec : ∀ pid exit, r ≠ .recordExit pid exit := fun pid exit heq => hrec ⟨pid, exit, heq⟩
        refine .inr ⟨?_, h.definitions_eq hreg hrec⟩
        show w₁.runtime.child? = w.runtime.child?
        rw [Supervisor.Runtime.child?_eq_held, Supervisor.Runtime.child?_eq_held, h.held_eq hreg hrec]

/-- **The definition of a child stands as long as the child is the current one**, in every run. -/
theorem Run.chartered (h : Run env s acts w) : Chartered acts w := by
  refine Run.induct (J := Chartered) ?_ ?_ ?_ ?_ h
  · intro outside
    exact ⟨nofun, nofun⟩
  · intro acts w c hr ih
    exact ih.keep nofun (.inr ⟨rfl, rfl⟩)
  · intro acts w w₁ task r k a hr ih hp hperf
    obtain ⟨phase, hf, hg, he⟩ := hr.enrolled
    obtain ⟨y, hP⟩ := hf.pending hp a
    exact ih.act he ⟨hr, hg, ⟨k, hp⟩, hperf, hP⟩
  · intro acts w w' hr ih hh
    refine ⟨ih.unique, fun child d h hchild => ?_⟩
    rw [hh.runtime] at hchild ⊢
    exact ih.published child d h hchild

end Registrations

/-! ## Publication -/

/-- This is what is published, and whoever begins a start is turned away: he hears that the server runs already, with
this definition, or that it is busy because it is being stopped. Nothing is changed by it, and nothing is started. -/
structure World.Publishes {ε : Type} (env : Environment ε) (s : Service) (d : Definition) (w : World ε) : Prop where
  definitions : w.runtime.definitions = [d]
  start : ∀ j k, w.pending j = some ⟨.beginStart, k⟩ →
    ∃ f, Program.ask .beginStart k = (Supervisor.start s).bind f ∧
      ((∃ pid, w.runtime.state = .running pid d) ∧
          w.perform env s.roles j .beginStart = some (.running d, w) ∧
          k (.running d) =
            ((Program.notify .info "Server is already running.").bind fun _ => f (.alreadyRunning d)) ∨
        (∃ pid, w.runtime.state = .stopping pid d) ∧
          w.perform env s.roles j .beginStart = some (.busy, w) ∧ k .busy = f .busy)

section Publication

variable {ε : Type} {env : Environment ε} {s : Service} {acts acts₀ : List Act} {w₀ w : World ε} {c : Call}
  {past : List (Episode ε)} {o : Outcome} {d : Definition}

theorem Supervisor.Runtime.state_of_definitions {r : Supervisor.Runtime} (h : r.definitions = [d]) :
    (∃ pid, r.state = .running pid d) ∨ ∃ pid, r.state = .stopping pid d := by
  rw [definitions] at h
  cases hs : r.state with
  | running pid d' =>
    rw [hs] at h
    obtain rfl : d' = d := by simpa [Lifecycle.State.definition?] using h
    exact .inl ⟨pid, rfl⟩
  | stopping pid d' =>
    rw [hs] at h
    obtain rfl : d' = d := by simpa [Lifecycle.State.definition?] using h
    exact .inr ⟨pid, rfl⟩
  | _ =>
    rw [hs] at h
    cases h

theorem Run.publishes (h : Run env s acts w) (hd : w.runtime.definitions = [d]) : w.Publishes env s d where
  definitions := hd
  start j k hp := by
    obtain ⟨f, hf⟩ := (h.whole_of_pending hp).1 rfl
    have hk : k = fun gate => _ := eq_of_heq (Program.ask.inj hf).2
    refine ⟨f, hf, ?_⟩
    rcases Supervisor.Runtime.state_of_definitions hd with ⟨pid, hs⟩ | ⟨pid, hs⟩
    · have hgate : w.runtime.beginStart = (.running d, w.runtime) := by
        simp [Supervisor.Runtime.beginStart, hs]
      exact .inl ⟨⟨pid, hs⟩, by simp only [World.perform, hgate], congrFun hk (.running d)⟩
    · have hgate : w.runtime.beginStart = (.busy, w.runtime) := by
        simp [Supervisor.Runtime.beginStart, hs]
      exact .inr ⟨⟨pid, hs⟩, by simp only [World.perform, hgate], congrFun hk .busy⟩

/-- At all moments of a course, and later: while a child is the current one its definition is published, and no
other. -/
theorem Course.publishes (h₀ : Run env s acts₀ w₀) (h : Course env s w₀ past w) {child : Nat}
    (hreg : RegisteredAs (actsOf past ++ acts₀) child d)
    {v : World ε} (hv : (∃ act, ⟨v, act⟩ ∈ past) ∨ ∃ later, Course env s w later v)
    (hchild : v.runtime.child? = some child) : v.Publishes env s d := by
  have hrun := h.run h₀
  rcases hv with ⟨act, hm⟩ | ⟨later, hlater⟩
  · -- by then the child was registered, and it is registered only once
    obtain ⟨later, earlier, rfl⟩ := List.append_of_mem hm
    have hbefore : Run env s (actsOf earlier ++ acts₀) v := (h.before rfl).run h₀
    obtain ⟨phase, -, hg, he⟩ := hbefore.enrolled
    obtain ⟨⟨_, pid⟩, hheld, rfl⟩ := Option.map_eq_some_iff.1 (v.runtime.child?_eq_held ▸ hchild)
    obtain ⟨i, handle, d', hm', hsame⟩ := he.registered_of_held hg hbefore hheld
    have hreg' : RegisteredAs (actsOf earlier ++ acts₀) _ d' := ⟨i, handle, hm', hsame⟩
    have hall : actsOf (later ++ ⟨v, act⟩ :: earlier) ++ acts₀ =
        (actsOf later ++ [act]) ++ (actsOf earlier ++ acts₀) := by simp [actsOf]
    obtain rfl := hrun.chartered.unique _ d' d (hall ▸ hreg'.append _) hreg
    exact hbefore.publishes (hbefore.chartered.published _ d' hreg' hchild)
  · have hafter := hlater.run hrun
    exact hafter.publishes (hafter.chartered.published child d (hreg.append _) hchild)

/-- The port of a passage, as it was negotiated. -/
theorem Course.port_of_passage {i : Nat} (h : Course env s w₀ past w) {x : Passage} {sockets : ε → Port.Sockets}
    (hmade : x.Made s (milestonesIn (exchanges i (actsOf past)))) (hlistens : x.listens = true)
    (hnet : ∀ e ∈ past, env.Networked sockets e.before.outside) :
    x.port ≠ 0 ∧ x.port ≤ Text.maxU16 ∧
      ∃ v, ⟨v, .step i (.query (.negotiatePort x.options.port)) (.ok x.port)⟩ ∈ past ∧
        (sockets v.outside).isFree x.port = true ∧
        (x.options.port ≠ 0 → (sockets v.outside).isFree x.options.port = true → x.port = x.options.port) := by
  have hoptions : .options (.ok x.options) ∈ x.milestones s := by simp [Passage.milestones]
  have hport : .port x.options.port (.ok x.port) ∈ x.milestones s := by simp [Passage.milestones, hlistens]
  obtain ⟨u, hu, hread⟩ := h.episode_of_query (mem_milestonesIn.1 (hmade.mem hoptions))
  obtain ⟨v, hv, hanswer⟩ := h.episode_of_query (mem_milestonesIn.1 (hmade.mem hport))
  have hbound : x.options.port ≤ Text.maxU16 := (hnet _ hu).options _ hread
  rw [(hnet _ hv).negotiates] at hanswer
  rcases Port.negotiate_cases hanswer with ⟨hgrants, heq⟩ | ⟨hgrants, hout⟩
  · obtain ⟨hne, hfree⟩ := Port.Sockets.grants_iff.1 hgrants
    exact ⟨heq ▸ hne, heq ▸ hbound, v, hv, heq ▸ hfree, fun _ _ => heq⟩
  · obtain ⟨hne, hle, hfree⟩ := (hnet _ hv).handedOut _ hout
    refine ⟨hne, hle, v, hv, hfree, fun hne' hfree' => ?_⟩
    rw [Port.Sockets.grants_iff.2 ⟨hne', hfree'⟩] at hgrants
    cases hgrants

/-- **What is published is what was launched.** Take any call, in any run and with anything else going on, that has
returned with a started server and its definition.

* It made one passage: it has found the program, read the options behind that and only once, got a port if the
  server is to listen, started the process and registered it. What was started and the definition are determined by
  the path and the options that it has read, and by the port.
* If ports are given out as on a machine, the port is not zero, it can be read off the definition, it was free when
  it was negotiated, and it is the one in the options unless these have none or that was taken.
* At every moment, while the call goes on and later, at which its child is the current one: the definition is what
  is published, and whoever begins a start is turned away. -/
theorem Course.published_as_launched (h₀ : Run env s acts₀ w₀) (h : Course env s (w₀.called s c) past w)
    (ho : w.result? w₀.tasks.length = some o) (hd : o.start? = some (.started d)) :
    ∃ x : Passage, x.Made s (milestonesIn (exchanges w₀.tasks.length (actsOf past))) ∧ d = x.definition s ∧
      (x.listens = true → ∀ sockets, (∀ e ∈ past, env.Networked sockets e.before.outside) →
        x.port ≠ 0 ∧ d.port? = some x.port ∧
        ∃ v, ⟨v, .step w₀.tasks.length (.query (.negotiatePort x.options.port)) (.ok x.port)⟩ ∈ past ∧
          (sockets v.outside).isFree x.port = true ∧
          (x.options.port ≠ 0 → (sockets v.outside).isFree x.options.port = true → x.port = x.options.port)) ∧
      ∀ v, ((∃ act, ⟨v, act⟩ ∈ past) ∨ ∃ later, Course env s w later v) →
        v.runtime.child? = some x.child → v.Publishes env s d := by
  obtain ⟨x, hmade, rfl⟩ := Call.yields_started (h.yields h₀ ho) hd
  refine ⟨x, hmade, rfl, fun hlistens sockets hnet => ?_, fun v hv hchild => ?_⟩
  · obtain ⟨hne, hle, hv⟩ := h.port_of_passage hmade hlistens hnet
    refine ⟨hne, ?_, hv⟩
    rw [Passage.definition, if_pos hlistens]
    exact Definition.port?_http s.serverName hle
  · have hregistered : .registered ⟨x.child, x.pid, !x.listens⟩ (x.definition s) (.ok ()) ∈ x.milestones s := by
      simp [Passage.milestones]
    have hact := mem_exchanges.1 (mem_milestonesIn.1 (hmade.mem hregistered))
    exact h.publishes (.move (.call c) h₀ rfl) ⟨_, _, List.mem_append_left _ hact, rfl⟩ hv hchild

end Publication

/-! ## In rehearsal -/

namespace Rehearsal

namespace Script

/-- All ports before the one that is found are taken, and it is free unless the tries are used up. -/
theorem freePort_cases (occupied : List Nat) (port tries : Nat) :
    ∃ k ≤ tries, freePort occupied port tries = port + k ∧ (∀ i < k, port + i ∈ occupied) ∧
      (port + k ∈ occupied → k = tries) := by
  induction tries generalizing port with
  | zero => exact ⟨0, Nat.le_refl 0, rfl, nofun, fun _ => rfl⟩
  | succ tries ih =>
    rw [freePort]
    split
    · rename_i htaken
      obtain ⟨k, hle, heq, hall, hlast⟩ := ih (port + 1)
      refine ⟨k + 1, by omega, by omega, fun i hi => ?_, fun hmem => ?_⟩
      · cases i with
        | zero => simpa using htaken
        | succ i =>
          have hi := hall i (by omega)
          rwa [Nat.add_right_comm] at hi
      · rw [← Nat.add_assoc, Nat.add_right_comm] at hmem
        exact congrArg (· + 1) (hlast hmem)
    · rename_i hfree
      exact ⟨0, Nat.zero_le _, rfl, nofun, fun hmem => absurd (by simpa using hmem) hfree⟩

/-- With as many tries as ports are taken one that is free is found. -/
theorem freePort_not_mem (occupied : List Nat) (port : Nat) :
    freePort occupied port occupied.length ∉ occupied := by
  obtain ⟨k, -, heq, hall, hlast⟩ := freePort_cases occupied port occupied.length
  rw [heq]
  intro hmem
  obtain rfl := hlast hmem
  -- otherwise more ports were taken than there are
  have hsubset : List.range' port (occupied.length + 1) ⊆ occupied := by
    intro p hp
    obtain ⟨i, hi, rfl⟩ := List.mem_range'.1 hp
    rw [Nat.one_mul]
    rcases Nat.lt_succ_iff_lt_or_eq.1 hi with hi | rfl
    · exact hall i hi
    · exact hmem
  have hlength := List.Nodup.length_le_of_subset (List.nodup_range' 1) hsubset
  rw [List.length_range'] at hlength
  omega

/-- A script gives out ports like a machine, unless it has taken all that can be handed out. -/
theorem networked {x : Script} (hoptions : x.options.port ≤ Text.maxU16)
    (hoccupied : firstEphemeral + x.occupied.length ≤ Text.maxU16) : environment.Networked Script.ports x where
  options o h := by
    have hresult : result x.configError x.options = .ok o := h
    unfold result at hresult
    split at hresult
    · cases hresult
    · cases hresult
      exact hoptions
  negotiates preferred := by
    show (x.negotiatePort preferred).1 = _
    unfold negotiatePort
    split
    · rename_i hport
      exact hport.symm
    · rename_i herror
      exact herror.symm
  handedOut port h := by
    obtain ⟨k, hle, heq, -, -⟩ := freePort_cases x.occupied firstEphemeral x.occupied.length
    have hfree := freePort_not_mem x.occupied firstEphemeral
    unfold ports at h
    dsimp only at h
    split at h
    · rename_i hsockets
      cases h
      refine ⟨?_, by omega, by simpa [ports, isFree, hsockets] using hfree⟩
      rw [heq, firstEphemeral]
      omega
    · cases h

end Script

/-- The preferred port is taken, and so is the first one that would be handed out. -/
def crowded : Script where
  options := { enableStreamableHttp := true, port := 8555 }
  occupied := [8555, 41357]

/-- A start goes through and another one begins. -/
def repeated : List (Move Script) := List.replicate 11 (.step 0) ++ [.call .start]

def nextPassage : Passage := ⟨defaultPath, crowded.options, 41358, 0, 4000⟩

def onNextPort : Definition := .http defaultServerName "http://localhost:41358"

end Rehearsal

/-- The server gets the next port, and the second start is told that it runs there. -/
theorem published_on_next_port : ∃ past w k, ∃ x : Passage,
    Course Rehearsal.Script.environment Rehearsal.sample
      ((Rehearsal.scene Rehearsal.crowded []).2.called Rehearsal.sample .start) past w ∧
    w.result? 0 = some (.start (.started Rehearsal.onNextPort)) ∧
    x.Made Rehearsal.sample (milestonesIn (exchanges 0 (actsOf past))) ∧
    Rehearsal.onNextPort = x.definition Rehearsal.sample ∧ Rehearsal.onNextPort.port? = some x.port ∧
    w.pending 2 = some ⟨.beginStart, k⟩ ∧
    w.perform Rehearsal.Script.environment Rehearsal.sample.roles 2 .beginStart =
      some (.running Rehearsal.onNextPort, w) := by
  have hcourse := Rehearsal.course_sequel (Rehearsal.scene Rehearsal.crowded []).2 .start Rehearsal.repeated
  have hresult : (Rehearsal.sequel (Rehearsal.scene Rehearsal.crowded []).2 .start
      Rehearsal.repeated).2.result? 0 = some (.start (.started Rehearsal.onNextPort)) := by decide +kernel
  obtain ⟨x, hmade, hdefinition, hport, hpublishes⟩ := Course.published_as_launched
    (Rehearsal.run_scene Rehearsal.crowded []) hcourse hresult rfl
  have hlistens : x.listens = true := by
    cases hx : x.listens with
    | true => rfl
    | false =>
      rw [Passage.definition, hx] at hdefinition
      cases hdefinition
  have hscript : ∀ e ∈ (Rehearsal.sequel (Rehearsal.scene Rehearsal.crowded []).2 .start Rehearsal.repeated).1,
      e.before.outside.options.port ≤ Text.maxU16 ∧
        Rehearsal.Script.firstEphemeral + e.before.outside.occupied.length ≤ Text.maxU16 := by decide +kernel
  obtain ⟨-, hread, -⟩ := hport hlistens Rehearsal.Script.ports fun e he =>
    Rehearsal.Script.networked (hscript e he).1 (hscript e he).2
  have hmilestones : milestonesIn (exchanges 0 (actsOf (Rehearsal.sequel (Rehearsal.scene Rehearsal.crowded []).2
      .start Rehearsal.repeated).1)) =
        .located (some Rehearsal.defaultPath) :: Rehearsal.nextPassage.milestones Rehearsal.sample := by
    decide +kernel
  have hchild : x.child = 0 := by
    have hspawned : .spawned x.spec (.ok (x.child, x.pid)) ∈ x.milestones Rehearsal.sample := by
      simp [Passage.milestones]
    have hmem := hmilestones ▸ hmade.mem hspawned
    have hsame : x.spec = Rehearsal.nextPassage.spec ∧ x.child = 0 ∧ x.pid = 4000 := by
      simpa [Passage.milestones, Passage.listens, Rehearsal.nextPassage, Rehearsal.crowded] using hmem
    exact hsame.2.1
  have hpending : ((Rehearsal.sequel (Rehearsal.scene Rehearsal.crowded []).2 .start
      Rehearsal.repeated).2.pending 2) = some ⟨.beginStart, _⟩ := rfl
  obtain ⟨f, -, ⟨-, hperform, -⟩ | ⟨⟨pid, hstate⟩, -⟩⟩ :=
    (hpublishes _ (.inr ⟨[], .here⟩) (by rw [hchild]; decide +kernel)).start 2 _ hpending
  · exact ⟨_, _, _, x, hcourse, hresult, hmade, hdefinition, hread, hpending, hperform⟩
  · have hrunning : (Rehearsal.sequel (Rehearsal.scene Rehearsal.crowded []).2 .start
        Rehearsal.repeated).2.runtime.state.isRunning = true := by decide +kernel
    rw [hstate] at hrunning
    cases hrunning

end Steward
