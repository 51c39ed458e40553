import Steward.Proofs.Escalation
import Steward.Proofs.Exchanges

/-!
# The standard streams of a child

A child that was started over stdio has standard streams, and whoever asks first while it is the current child
gets them. The supervisor keeps no list of that: the handle of the current child says whether the streams are
still there, it comes and goes with the child, and the start that brings the next child, the stop and the exit
are the work of other tasks than the one that asks.

So it is the acts that are counted. `handedOut` says which task got the streams of which child, and `Stocked`
is the invariant: the handle tells exactly whether the current child was started over stdio and is not among
those. `Run.streams_linear` draws the sum.
-/

set_option autoImplicit false

namespace Steward

/-! ## What the acts tell -/

/-- The child was started over this transport. -/
def StartedOver (acts : List Act) (child : Nat) (transport : Transport) : Prop :=
  ∃ (task : Nat) (spec : LaunchSpec) (pid : Nat),
    .step task (.spawn spec) (.ok (child, pid)) ∈ acts ∧ spec.transport = transport

/-- The tasks that got standard streams, each with the child whose streams they were, latest first. What a task
gets is what belongs to the current child. -/
def handedOut : List Act → List (Nat × Nat)
  | [] => []
  | .call _ :: acts => handedOut acts
  | .step task r a :: acts =>
    match r, a with
    | .takeStreams, true => (registered acts).toList.map (task, ·) ++ handedOut acts
    | _, _ => handedOut acts

/-- Someone has got the child's streams. -/
def Drained (acts : List Act) (child : Nat) : Prop := ∃ task, (task, child) ∈ handedOut acts

/-- The child is registered, and its exit is not recorded. -/
def Serving (acts : List Act) (child : Nat) : Prop := Registered acts child ∧ ¬ Recorded acts child

/-- There are streams for whoever asks next, those of this child. -/
structure StreamsAvailable (acts : List Act) (child : Nat) : Prop where
  current : registered acts = some child
  stdio : StartedOver acts child .stdio
  untaken : ¬ Drained acts child

section Acts

variable {acts : List Act} {x : Act} {task child : Nat} {t : Transport}

theorem StartedOver.cons (h : StartedOver acts child t) (x : Act) : StartedOver (x :: acts) child t := by
  obtain ⟨task, spec, pid, hm, ht⟩ := h
  exact ⟨task, spec, pid, List.mem_cons_of_mem x hm, ht⟩

theorem startedOver_cons_cases (h : StartedOver (x :: acts) child t) :
    StartedOver acts child t ∨
      ∃ task spec pid, x = .step task (.spawn spec) (.ok (child, pid)) ∧ spec.transport = t := by
  obtain ⟨task, spec, pid, hm, ht⟩ := h
  rcases List.mem_cons.1 hm with hx | hm
  · exact .inr ⟨task, spec, pid, hx.symm, ht⟩
  · exact .inl ⟨task, spec, pid, hm, ht⟩

theorem handedOut_take_true : handedOut (.step task .takeStreams true :: acts) =
    (registered acts).toList.map (task, ·) ++ handedOut acts := rfl

theorem handedOut_take_false : handedOut (.step task .takeStreams false :: acts) = handedOut acts := rfl

theorem handedOut_cons_of_ne {r : Request} {a : r.Answer} (h : r ≠ .takeStreams) :
    handedOut (.step task r a :: acts) = handedOut acts := by
  cases r with
  | takeStreams => exact absurd rfl h
  | _ => rfl

theorem mem_handedOut_cons : (task, child) ∈ handedOut (x :: acts) ↔
    x = .step task .takeStreams true ∧ registered acts = some child ∨ (task, child) ∈ handedOut acts := by
  cases x with
  | call c => simp [handedOut]
  | step i r a =>
    by_cases hr : r = .takeStreams
    · subst hr
      cases a with
      | false => simp [handedOut_take_false]
      | true =>
        rw [handedOut_take_true, List.mem_append, List.mem_map]
        refine or_congr_left ⟨?_, ?_⟩
        · rintro ⟨c, hc, heq⟩
          cases heq
          exact ⟨rfl, Option.mem_toList.1 hc⟩
        · rintro ⟨heq, hc⟩
          cases heq
          exact ⟨child, Option.mem_toList.2 hc, rfl⟩
    · rw [handedOut_cons_of_ne hr]
      exact (or_iff_right fun h => hr (by injection h.1)).symm

/-- A task has got a child's streams if it took them while the child was the current one. -/
theorem mem_handedOut : (task, child) ∈ handedOut acts ↔
    ∃ later earlier, acts = later ++ .step task .takeStreams true :: earlier ∧ registered earlier = some child := by
  induction acts with
  | nil => simp [handedOut]
  | cons x acts ih =>
    rw [mem_handedOut_cons, ih]
    constructor
    · rintro (⟨rfl, hr⟩ | ⟨later, earlier, rfl, hr⟩)
      · exact ⟨[], acts, rfl, hr⟩
      · exact ⟨x :: later, earlier, rfl, hr⟩
    · rintro ⟨later, earlier, heq, hr⟩
      cases later with
      | nil =>
        obtain ⟨rfl, rfl⟩ := List.cons.inj heq
        exact .inl ⟨rfl, hr⟩
      | cons y later =>
        obtain ⟨rfl, rfl⟩ := List.cons.inj heq
        exact .inr ⟨later, earlier, rfl, hr⟩

theorem Drained.cons (h : Drained acts child) (x : Act) : Drained (x :: acts) child := by
  obtain ⟨task, hm⟩ := h
  exact ⟨task, mem_handedOut_cons.2 (.inr hm)⟩

theorem drained_take {b : Bool} : Drained (.step task .takeStreams b :: acts) child ↔
    b = true ∧ registered acts = some child ∨ Drained acts child := by
  cases b with
  | false => simp [Drained, handedOut_take_false]
  | true => simp [Drained, mem_handedOut_cons, exists_or]

theorem mem_map_handedOut : child ∈ (handedOut acts).map (·.2) ↔ Drained acts child := by
  simp [Drained]

end Acts

/-! ## Transports -/

section Transports

variable {ε : Type} {env : Environment ε} {rs : Roles} {s : Service} {acts : List Act} {w w' w₁ : World ε}
  {task child : Nat} {r : Request} {a : r.Answer} {t t' : Transport}

/-- The child is there and was started over this transport. -/
def World.RunsOver (w : World ε) (child : Nat) (t : Transport) : Prop :=
  ∃ c, w.children[child]? = some c ∧ c.transport = t

theorem Child.emit_transport (c : Child) (e : ChildEvent) : (c.emit e).transport = c.transport := by
  unfold Child.emit
  split
  · cases e <;> rfl
  · rfl

theorem Child.Touched.transport {i : Nat} {c c' : Child} (h : c.Touched r i c') : c'.transport = c.transport := by
  cases h with
  | tell e => exact c.emit_transport e
  | _ => rfl

theorem Child.Alone.transport {f : Child → Child} (hf : Child.Alone f) (c : Child) :
    (f c).transport = c.transport := by
  cases hf with
  | tell e => exact c.emit_transport e
  | _ => rfl

theorem World.Performed.runsOver (h : World.Performed env rs w task r a w₁) (hc : w.RunsOver child t) :
    w₁.RunsOver child t := by
  obtain ⟨c, hc, rfl⟩ := hc
  obtain ⟨c', hc', -⟩ := h.outlives child c hc
  refine ⟨c', hc', ?_⟩
  rcases h.child_cases hc' with ⟨c₀, h₀, htouched⟩ | ⟨hnew, -⟩
  · obtain rfl : c = c₀ := Option.some.inj (hc.symm.trans h₀)
    exact htouched.transport
  · exact absurd (List.getElem?_eq_some_iff.1 hc).1 (Nat.not_lt.2 (Nat.le_of_eq hnew.symm))

theorem World.Hush.runsOver (h : w.Hush w') (hc : w.RunsOver child t) : w'.RunsOver child t := by
  obtain ⟨c, hc, rfl⟩ := hc
  obtain ⟨i, f, hf, heq⟩ := h.children
  refine ⟨if i = child then f c else c, by rw [heq, List.getElem?_modify, hc]; rfl, ?_⟩
  split
  · exact hf.transport c
  · rfl

/-- A child runs over the transport over which it was started. -/
theorem Run.runsOver (h : Run env s acts w) (hc : StartedOver acts child t) : w.RunsOver child t := by
  refine Run.induct (J := fun acts w => ∀ child t, StartedOver acts child t → w.RunsOver child t)
    ?_ ?_ ?_ ?_ h child t hc
  · rintro outside child t ⟨_, _, _, hm, -⟩
    cases hm
  · intro acts w c hr ih child t hc
    rcases startedOver_cons_cases hc with hc | ⟨_, _, _, hx, -⟩
    · exact ih child t hc
    · cases hx
  · intro acts w w₁ task r k a hr ih hp hperf child t hc
    rcases startedOver_cons_cases hc with hc | ⟨i, spec, pid, hx, rfl⟩
    · exact hperf.runsOver (ih child t hc)
    · cases hx
      cases hperf with
      | spawned => exact ⟨_, List.getElem?_concat_length .., rfl⟩
  · intro acts w w' hr ih hh child t hc
    exact hh.runsOver (ih child t hc)

theorem Run.transport_unique (h : Run env s acts w) (ht : StartedOver acts child t)
    (ht' : StartedOver acts child t') : t = t' := by
  obtain ⟨c, hc, rfl⟩ := h.runsOver ht
  obtain ⟨c', hc', rfl⟩ := h.runsOver ht'
  exact congrArg _ (Option.some.inj (hc.symm.trans hc'))

end Transports

/-! ## What a start registers -/

/-- A request that starts a child or registers one. -/
def Request.outfits : Request → Bool
  | .spawn _ => true
  | .register .. => true
  | _ => false

/-- Whoever has started a child registers it, and with streams exactly if it was started over stdio. The state
is the child that is still to be registered, with its transport. -/
inductive Outfits : Protocol (Option (Nat × Transport)) where
  | aside {x : Option (Nat × Transport)} {r : Request} {a : r.Answer} (h : r.outfits = false) :
      Outfits x r a x
  | spawned {x : Option (Nat × Transport)} {spec : LaunchSpec} {child pid : Nat} :
      Outfits x (.spawn spec) (.ok (child, pid)) (some (child, spec.transport))
  | unspawned {x : Option (Nat × Transport)} {spec : LaunchSpec} {e : Failure} :
      Outfits x (.spawn spec) (.error e) x
  | registers {child pid : Nat} {t : Transport} {d : Definition} {a : Except Lifecycle.Refusal Unit} :
      Outfits (some (child, t)) (.register ⟨child, pid, t == .stdio⟩ d) a none

theorem Outfits.of_register {x y : Option (Nat × Transport)} {handle : Supervisor.Handle} {d : Definition}
    {a : (Request.register handle d).Answer} (h : Outfits x (.register handle d) a y) :
    ∃ t, x = some (handle.child, t) ∧ handle.streams = (t == .stdio) := by
  cases h with
  | aside h => cases h
  | registers => exact ⟨_, rfl, rfl⟩

/-- What is no step on the way to a registered child. -/
def Request.Kind.isPlain : Request.Kind → Bool
  | .launch => false
  | _ => true

theorem Request.outfits_of_plain {r : Request} (h : r.kind.isPlain = true) : r.outfits = false := by
  cases r with
  | spawn | register => cases h
  | _ => rfl

section Programs

open Program

variable {s : Service} {α : Type} {x : Option (Nat × Transport)}

theorem Program.Uses.outfits {ks : List Request.Kind} {p : Program α} (hp : p.Uses ks)
    (hk : ks.all Request.Kind.isPlain = true) {Q : Option (Nat × Transport) → α → Prop} (hQ : ∀ a, Q x a) :
    p.Obeys Outfits Q x :=
  hp.obeys_all hk (fun _ _ hr => .aside (Request.outfits_of_plain hr)) hQ

theorem giveUp_outfits (outcome : Supervisor.StartOutcome) (reason : String) :
    (Supervisor.giveUp outcome reason).Obeys Outfits (fun _ _ => True) x :=
  fun _ => ⟨_, .aside rfl, trivial⟩

theorem launchPlan_outfits (p : Supervisor.Plan) :
    (Supervisor.launchPlan s p).Obeys Outfits (fun _ _ => True) x := by
  refine Obeys.ask fun _ => ⟨_, .aside rfl, Obeys.ask fun spawned => ?_⟩
  cases spawned with
  | error e =>
    refine ⟨_, .unspawned, Obeys.ask fun _ => ⟨_, .aside rfl, ?_⟩⟩
    exact Obeys.ask fun _ => ⟨_, .aside rfl, giveUp_outfits _ _⟩
  | ok identity =>
    refine ⟨_, .spawned, Obeys.ask fun registered => ⟨_, .registers, ?_⟩⟩
    cases registered with
    | error refusal => exact fun _ => ⟨_, .aside rfl, trivial⟩
    | ok u =>
      refine Obeys.ask fun _ => ⟨_, .aside rfl, Obeys.ask fun _ => ⟨_, .aside rfl, ?_⟩⟩
      exact fun _ => ⟨_, .aside rfl, trivial⟩

theorem launchAt_outfits (path : String) :
    (Supervisor.launchAt s path).Obeys Outfits (fun _ _ => True) x := by
  refine Obeys.ask fun options => ⟨_, .aside rfl, ?_⟩
  cases options with
  | error e => exact Obeys.ask fun _ => ⟨_, .aside rfl, giveUp_outfits _ _⟩
  | ok options =>
    dsimp only
    split
    · refine Obeys.ask fun port => ⟨_, .aside rfl, ?_⟩
      cases port with
      | error e => exact Obeys.ask fun _ => ⟨_, .aside rfl, giveUp_outfits _ _⟩
      | ok port => exact launchPlan_outfits _
    · exact launchPlan_outfits _

theorem start_outfits : (Supervisor.start s).Obeys Outfits (fun _ _ => True) x := by
  refine Obeys.ask fun gate => ⟨_, .aside rfl, ?_⟩
  cases gate with
  | «open» =>
    refine obeys_bind.2 ((uses_resolveProgram s).outfits rfl fun resolved => ?_)
    cases resolved with
    | error outcome => exact giveUp_outfits _ _
    | ok path => exact launchAt_outfits path
  | running d => exact fun _ => ⟨_, .aside rfl, trivial⟩
  | _ => exact trivial

/-- **Every role outfits what it starts.** -/
theorem Role.outfits (s : Service) (ρ : Role) :
    (ρ.program s).Obeys Outfits (Closes (fun _ => True) none) none := by
  cases ρ with
  | call c =>
    refine obeys_bind.2 ?_
    cases hc : c.isUpdate with
    | false =>
      exact (Call.obeys_of_start (P := Outfits) (Q := fun _ => True) (by rfl)
        (fun _ _ _ _ hr => .aside (Request.outfits_of_plain hr)) trivial start_outfits hc).mono fun _ _ hy => hy
    | true =>
      refine (Call.uses s c).outfits ?_ fun _ => trivial
      cases c <;> first | rfl | cases hc
  | observer child pid =>
    refine obeys_bind.2 ((uses_observeOnce s child pid).outfits rfl fun last => ?_)
    cases last with
    | true => trivial
    | false => rfl
  | check => exact obeys_bind.2 ((uses_check s).outfits rfl fun _ => trivial)

variable {ε : Type} {env : Environment ε} {acts : List Act} {w : World ε} {task : Nat}

/-- Whoever has started a child and not registered it yet remembers how. -/
theorem Outfits.started {r : Request} {a : r.Answer} {x y : Option (Nat × Transport)} (hP : Outfits x r a y)
    (hx : ∀ child t, x = some (child, t) → StartedOver acts child t) {child : Nat} {t : Transport}
    (hy : y = some (child, t)) : StartedOver (.step task r a :: acts) child t := by
  cases hP with
  | aside => exact (hx child t hy).cons _
  | unspawned => exact (hx child t hy).cons _
  | spawned =>
    cases hy
    exact ⟨task, _, _, List.mem_cons_self, rfl⟩
  | registers => cases hy

/-- Whoever is about to register a child has started it, and says rightly whether it has streams. -/
theorem Run.outfitted (h : Run env s acts w) {handle : Supervisor.Handle} {d : Definition}
    {k : (Request.register handle d).Answer → Program Flow} (hp : w.pending task = some ⟨.register handle d, k⟩) :
    ∃ t, StartedOver acts handle.child t ∧ handle.streams = (t == .stdio) := by
  obtain ⟨phase, hf, hstarted⟩ : ∃ phase, w.Follows Outfits (fun _ => True) phase ∧
      ∀ i child t, phase i = some (child, t) → StartedOver acts child t := by
    refine Run.simulate (J := fun phase acts _ => ∀ i child t, phase i = some (child, t) → StartedOver acts child t)
      (Role.outfits s) (fun _ _ _ _ hi => nomatch hi) ?_ ?_ (fun _ _ hJ _ => hJ) h
    · intro phase acts w c _ _ hJ i child t hi
      rw [Function.update_apply] at hi
      split at hi
      · cases hi
      · exact (hJ i child t hi).cons _
    · intro phase acts w w₁ task r k a y _ _ hJ _ _ hP i child t hi
      rcases advance_cases hi with ⟨-, hy⟩ | ⟨ρ, -, hρ⟩ | ⟨-, hold⟩
      · exact hP.started (hJ task) hy
      · cases hρ
      · exact (hJ i child t hold).cons _
  obtain ⟨y, hP⟩ := hf.pending hp (.ok ())
  obtain ⟨t, hphase, hstreams⟩ := hP.of_register
  exact ⟨t, hstarted task _ t hphase, hstreams⟩

end Programs

/-! ## Who serves -/

section Serving

variable {ε : Type} {env : Environment ε} {s : Service} {acts : List Act} {w : World ε} {child : Nat}

theorem Run.serving_of_current (h : Run env s acts w) (hc : registered acts = some child) : Serving acts child := by
  rw [← h.child_eq_registered, Supervisor.Runtime.child?_eq_held] at hc
  obtain ⟨⟨_, pid⟩, hheld, rfl⟩ := Option.map_eq_some_iff.1 hc
  obtain ⟨phase, -, hg, he⟩ := h.enrolled
  exact ⟨he.registered_of_held hg h hheld, fun hrec => he.gone _ pid hrec hheld⟩

/-- A step leaves the current child the current one, or records its exit. -/
theorem GuardedStep.recorded_or_held {phase : Nat → ServerPhase} {w₁ : World ε} {task pid : Nat} {r : Request}
    {a : r.Answer} {y : ServerPhase} (h : GuardedStep env s phase acts w task r a w₁ y)
    (hheld : w.runtime.held = some (child, pid)) :
    Recorded (.step task r a :: acts) child ∨ w₁.runtime.held = some (child, pid) := by
  rcases h.turn with ⟨handle, d, rfl⟩ | ⟨p, exit, rfl⟩ | ⟨hsame, -⟩
  · -- while a child is being registered there is no current one
    obtain ⟨-, hfits⟩ := h.guarded.fits h.register.1 rfl
    rw [hfits.1.2] at hheld
    cases hheld
  · obtain ⟨c, hrole, hheld', -⟩ := h.record
    obtain ⟨rfl, rfl⟩ := Prod.mk.inj (Option.some.inj (hheld'.symm.trans hheld))
    exact .inl ⟨task, _, _, exit, a, roles_cons_of_some _ hrole, List.mem_cons_self⟩
  · exact .inr (hsame.trans hheld)

/-- Of the registered children only the current one has an exit that is still to be recorded. -/
theorem Run.recorded_or_held (h : Run env s acts w) (hc : Registered acts child) :
    Recorded acts child ∨ ∃ pid, w.runtime.held = some (child, pid) := by
  refine Run.induct (J := fun acts w => ∀ child, Registered acts child →
    Recorded acts child ∨ ∃ pid, w.runtime.held = some (child, pid)) ?_ ?_ ?_ ?_ h child hc
  · rintro outside child ⟨_, _, _, hm, -⟩
    cases hm
  · rintro acts w c hr ih child ⟨i, handle, d, hm, hchild⟩
    have hold : Registered acts child := ⟨i, handle, d, (List.mem_cons.1 hm).resolve_left nofun, hchild⟩
    exact (ih child hold).imp_left (·.cons _)
  · intro acts w w₁ task r k a hr ih hp hperf child hc
    obtain ⟨phase, y, hstep⟩ := hr.guardedStep hp hperf
    rcases registered_cons_cases hc with hc | ⟨handle, d, rfl, rfl⟩
    · rcases ih child hc with hrec | ⟨pid, hheld⟩
      · exact .inl (hrec.cons _)
      · exact (hstep.recorded_or_held hheld).imp_right fun hheld => ⟨pid, hheld⟩
    · obtain ⟨-, rfl⟩ := hstep.register
      exact .inr ⟨handle.pid, rfl⟩
  · intro acts w w' hr ih hh child hc
    rw [hh.runtime]
    exact ih child hc

/-- The child that serves is the one that was registered last, if its exit is not recorded. -/
theorem Run.serving_iff (h : Run env s acts w) : Serving acts child ↔ registered acts = some child := by
  refine ⟨fun hc => ?_, h.serving_of_current⟩
  obtain ⟨pid, hheld⟩ := (h.recorded_or_held hc.1).resolve_left hc.2
  rw [← h.child_eq_registered, Supervisor.Runtime.child?_eq_held, hheld]
  rfl

end Serving

/-! ## The handle -/

section Handle

variable {ε : Type} {env : Environment ε} {rs : Roles} {s : Service} {phase : Nat → ServerPhase}
  {acts : List Act} {w w₁ : World ε} {task child : Nat} {r : Request} {a : r.Answer} {y : ServerPhase}

theorem Supervisor.Runtime.beginStart_handle (r : Supervisor.Runtime) : r.beginStart.2.handle = r.handle := by
  obtain ⟨state, handle⟩ := r
  cases state <;> rfl

/-- The handle comes with a registration, goes with the exit, and is changed only by whoever takes the streams. -/
theorem World.Performed.handle_eq (h : World.Performed env rs w task r a w₁)
    (hreg : ∀ handle d, r ≠ .register handle d) (hrec : ∀ pid exit, r ≠ .recordExit pid exit)
    (htake : r ≠ .takeStreams) : w₁.runtime.handle = w.runtime.handle := by
  cases h with
  | beginStart => exact w.runtime.beginStart_handle
  | stop a w₁ hs =>
    cases hs with
    | delivered pid d h state handle =>
      rw [World.exitNow_runtime]
      exact handle.symm
    | undelivered pid d h => exact congrArg _ (World.exitNow_runtime _ _ _)
    | _ => rfl
  | killed h => exact congrArg _ (World.exitNow_runtime _ _ _)
  | takeStreams => exact absurd rfl htake
  | registered handle d | unregistered handle d => exact absurd rfl (hreg handle d)
  | recorded pid exit | unrecorded pid exit => exact absurd rfl (hrec pid exit)
  | _ => rfl

/-- What is known of the streams of a run: the handle of the current child tells whether they are still there,
only registered children have had streams that someone got, and no streams went twice. -/
structure Stocked {ε : Type} (acts : List Act) (w : World ε) : Prop where
  handle : ∀ h, w.runtime.handle = some h → ∃ t, StartedOver acts h.child t ∧
    (h.streams = true ↔ t = .stdio ∧ ¬ Drained acts h.child)
  registered : ∀ child, Drained acts child → Registered acts child
  once : ((handedOut acts).map (·.2)).Nodup

namespace Stocked

/-- Most acts have nothing to do with streams, and the handle stays or goes. -/
theorem keep {x : Act} {w' : World ε} (hs : Stocked acts w) (hacts : handedOut (x :: acts) = handedOut acts)
    (hw : w'.runtime.handle = none ∨ w'.runtime.handle = w.runtime.handle) : Stocked (x :: acts) w' := by
  refine ⟨fun h hh => ?_, fun child hc => ?_, hacts ▸ hs.once⟩
  · rcases hw with hnone | hsame
    · rw [hnone] at hh
      cases hh
    · obtain ⟨t, ht, hstreams⟩ := hs.handle h (hsame ▸ hh)
      refine ⟨t, ht.cons x, ?_⟩
      rw [Drained, hacts]
      exact hstreams
  · rw [Drained, hacts] at hc
    exact (hs.registered child hc).cons x

/-- A child that is just registered has the streams with which it was started. -/
theorem register {handle : Supervisor.Handle} {d : Definition} {a : (Request.register handle d).Answer}
    (hs : Stocked acts w) (he : Enrolled phase acts w)
    (h : GuardedStep env s phase acts w task (.register handle d) a w₁ y) {f : Task → Task} :
    Stocked (.step task (.register handle d) a :: acts) (w₁.changeTask task f) := by
  obtain ⟨hphase, rfl⟩ := h.register
  obtain ⟨k, hp⟩ := h.pending
  have hsame : handedOut (.step task (.register handle d) a :: acts) = handedOut acts := handedOut_cons_of_ne nofun
  refine ⟨fun h' hh => ?_, fun child hc => ?_, hsame ▸ hs.once⟩
  · obtain rfl := Option.some.inj hh
    obtain ⟨t, ht, hstreams⟩ := h.run.outfitted hp
    have hfresh : ¬ Drained acts handle.child := fun hc => he.spawned task _ _ hphase (hs.registered _ hc)
    refine ⟨t, ht.cons _, ?_⟩
    rw [Drained, hsame, hstreams, beq_iff_eq]
    exact (and_iff_left hfresh).symm
  · rw [Drained, hsame] at hc
    exact (hs.registered child hc).cons _

/-- Whoever takes the streams leaves none. -/
theorem take {b : Bool} (hs : Stocked acts w)
    (h : GuardedStep env s phase acts w task .takeStreams b w₁ y) {f : Task → Task} :
    Stocked (.step task .takeStreams b :: acts) (w₁.changeTask task f) := by
  have hrun := h.run
  have hperf := h.performed
  clear h
  cases hperf with
  | takeStreams =>
    cases hh : w.runtime.handle with
    | none =>
      have hnone : w.runtime.takeStreams = (false, w.runtime) := by simp [Supervisor.Runtime.takeStreams, hh]
      rw [hnone]
      exact hs.keep rfl (.inr rfl)
    | some h' =>
      have htaken : w.runtime.takeStreams =
          (h'.streams, { w.runtime with handle := some { h' with streams := false } }) := by
        simp [Supervisor.Runtime.takeStreams, hh]
      have hnow : Steward.registered acts = some h'.child := by
        rw [← hrun.child_eq_registered, Supervisor.Runtime.child?, hh]
        rfl
      obtain ⟨t, ht, hstreams⟩ := hs.handle h' hh
      rw [htaken]
      refine ⟨fun h'' hh'' => ?_, fun child hc => ?_, ?_⟩
      · -- the streams were gone before or they are gone now
        obtain rfl := Option.some.inj hh''
        refine ⟨t, ht.cons _, iff_of_false nofun fun ⟨hstdio, hn⟩ => ?_⟩
        have hbefore : ¬ Drained acts h'.child := fun hc => hn (hc.cons _)
        exact hn (drained_take.2 (.inl ⟨hstreams.2 ⟨hstdio, hbefore⟩, hnow⟩))
      · rcases drained_take.1 hc with ⟨-, hc⟩ | hc
        · obtain rfl := Option.some.inj (hnow.symm.trans hc)
          exact (hrun.serving_of_current hnow).1.cons _
        · exact (hs.registered child hc).cons _
      · cases hb : h'.streams with
        | false => exact hs.once
        | true =>
          rw [handedOut_take_true, hnow]
          exact List.nodup_cons.2 ⟨fun hm => (hstreams.1 hb).2 (mem_map_handedOut.1 hm), hs.once⟩

theorem act (hs : Stocked acts w) (he : Enrolled phase acts w)
    (h : GuardedStep env s phase acts w task r a w₁ y) {f : Task → Task} :
    Stocked (.step task r a :: acts) (w₁.changeTask task f) := by
  by_cases htake : r = .takeStreams
  · subst htake
    exact hs.take h
  · by_cases hreg : ∃ handle d, r = .register handle d
    · obtain ⟨handle, d, rfl⟩ := hreg
      exact hs.register he h
    · refine hs.keep (handedOut_cons_of_ne htake) ?_
      by_cases hrec : ∃ pid exit, r = .recordExit pid exit
      · obtain ⟨pid, exit, rfl⟩ := hrec
        obtain ⟨-, -, -, -, -, rfl⟩ := h.record
        exact .inl rfl
      · exact .inr (h.performed.handle_eq (fun handle d heq => hreg ⟨handle, d, heq⟩)
          (fun pid exit heq => hrec ⟨pid, exit, heq⟩) htake)

end Stocked

/-- **The handle accounts for the streams**, in every run. -/
theorem Run.stocked (h : Run env s acts w) : Stocked acts w := by
  refine Run.induct (J := Stocked) ?_ ?_ ?_ ?_ h
  · intro outside
    exact ⟨nofun, fun child ⟨_, hm⟩ => absurd hm List.not_mem_nil, List.nodup_nil⟩
  · intro acts w c hr ih
    exact ih.keep rfl (.inr rfl)
  · intro acts w w₁ task r k a hr ih hp hperf
    obtain ⟨phase, hf, hg, he⟩ := hr.enrolled
    obtain ⟨y, hP⟩ := hf.pending hp a
    exact ih.act he ⟨hr, hg, ⟨k, hp⟩, hperf, hP⟩
  · intro acts w w' hr ih hh
    exact ⟨fun h hhandle => ih.handle h (hh.runtime ▸ hhandle), ih.registered, ih.once⟩

end Handle

/-! ## Taking -/

section Taking

variable {ε : Type} {env : Environment ε} {s : Service} {acts later earlier : List Act} {w : World ε}
  {x : Act} {i child : Nat} {b : Bool}

theorem registered_cons_new (h : registered (x :: acts) = some child) :
    registered acts = some child ∨ ∃ i handle d, x = .step i (.register handle d) (.ok ()) ∧ handle.child = child := by
  cases x with
  | call c => exact .inl h
  | step i r a =>
    cases r with
    | register handle d =>
      cases a with
      | error e => exact .inl h
      | ok u => exact .inr ⟨i, handle, d, rfl, Option.some.inj h⟩
    | recordExit pid exit => cases h
    | _ => exact .inl h

theorem Run.handle_of_current (h : Run env s acts w) (hc : registered acts = some child) :
    ∃ handle, w.runtime.handle = some handle ∧ handle.child = child := by
  rw [← h.child_eq_registered] at hc
  exact Option.map_eq_some_iff.1 hc

/-- Whoever asks now gets streams exactly if there are some. -/
theorem Run.takeStreams_iff (h : Run env s acts w) :
    w.runtime.takeStreams.1 = true ↔ ∃ child, StreamsAvailable acts child := by
  constructor
  · intro htaken
    cases hh : w.runtime.handle with
    | none => simp [Supervisor.Runtime.takeStreams, hh] at htaken
    | some handle =>
      obtain ⟨t, ht, hstreams⟩ := h.stocked.handle handle hh
      obtain ⟨rfl, huntaken⟩ := hstreams.1 (by simpa [Supervisor.Runtime.takeStreams, hh] using htaken)
      refine ⟨handle.child, ?_, ht, huntaken⟩
      rw [← h.child_eq_registered, Supervisor.Runtime.child?, hh]
      rfl
  · rintro ⟨child, hc⟩
    obtain ⟨handle, hh, rfl⟩ := h.handle_of_current hc.current
    obtain ⟨t, ht, hstreams⟩ := h.stocked.handle handle hh
    have hthere : handle.streams = true := hstreams.2 ⟨h.transport_unique ht hc.stdio, hc.untaken⟩
    simp [Supervisor.Runtime.takeStreams, hh, hthere]

/-- What a take gives. -/
theorem Run.take_iff (h : Run env s (later ++ .step i .takeStreams b :: earlier) w) :
    b = true ↔ ∃ child, StreamsAvailable earlier child := by
  obtain ⟨w₀, w₁, m, past, h₀, hm, -, -⟩ := h.split
  cases World.move_cases hm with
  | act pending performed =>
    cases performed with
    | takeStreams => exact h₀.takeStreams_iff

/-- Streams that are there belong to the one child that serves. -/
theorem Run.sole_of_available (h : Run env s acts w) (hc : StreamsAvailable acts child) :
    Serving acts child ∧ ∀ other, Serving acts other → other = child :=
  ⟨h.serving_of_current hc.current,
    fun _ ho => Option.some.inj ((h.serving_iff.1 ho).symm.trans hc.current)⟩

/-- While a child serves that has no streams there are none. -/
theorem Run.unavailable_over_http (h : Run env s acts w) (hc : Serving acts child)
    (hhttp : StartedOver acts child .http) {other : Nat} : ¬ StreamsAvailable acts other := by
  intro ho
  obtain rfl := (h.sole_of_available ho).2 child hc
  cases h.transport_unique hhttp ho.stdio

/-- Only the registration of another child brings streams. -/
theorem Run.registers_of_available (h : Run env s (later ++ x :: earlier) w)
    (hno : ∀ child, ¬ StreamsAvailable earlier child) (hc : StreamsAvailable (x :: earlier) child) :
    ∃ i handle d, x = .step i (.register handle d) (.ok ()) ∧ handle.child = child ∧
      ¬ Registered earlier child := by
  obtain ⟨w₀, w₁, m, past, h₀, hm, -, -⟩ := h.split
  have h₁ : Run env s (x :: earlier) w₁ := .move m h₀ hm
  rcases registered_cons_new hc.current with hold | ⟨i, handle, d, rfl, rfl⟩
  · -- a child that was the current one before had its streams before
    obtain ⟨handle, hh, rfl⟩ := h₀.handle_of_current hold
    obtain ⟨t, ht, -⟩ := h₀.stocked.handle handle hh
    obtain rfl := h₁.transport_unique (ht.cons x) hc.stdio
    exact absurd ⟨hold, ht, fun hd => hc.untaken (hd.cons x)⟩ (hno handle.child)
  · refine ⟨i, handle, d, rfl, rfl, ?_⟩
    obtain ⟨phase, hf, -, he⟩ := h₀.enrolled
    cases World.move_cases hm with
    | act pending performed =>
      obtain ⟨y, hP⟩ := hf.pending pending (.ok ())
      exact he.spawned i _ _ hP.of_register

/-- The streams go to whoever called for them. -/
theorem Run.call_of_handedOut (h : Run env s acts w) (hm : (i, child) ∈ handedOut acts) :
    (roles acts)[i]? = some (.call .takeStreams) := by
  obtain ⟨later, earlier, rfl, -⟩ := mem_handedOut.1 hm
  have hacted : .step i .takeStreams true ∈ later ++ .step i .takeStreams true :: earlier := by simp
  obtain ⟨ρ, hρ⟩ := h.exists_role hacted
  have hkind := h.kind_of_acted hρ hacted
  cases ρ with
  | call c => cases c <;> first | exact hρ | cases hkind
  | _ => cases hkind

/-- What the call returns tells whether its task got streams. -/
theorem Run.result_of_take (h : Run env s acts w) (hi : (roles acts)[i]? = some (.call .takeStreams)) {o : Outcome}
    (ho : w.result? i = some o) : ∃ b, o = .flag b ∧ (b = true ↔ ∃ child, (i, child) ∈ handedOut acts) := by
  obtain ⟨acts₀, w₀, past, h₀, rfl, hcourse, rfl⟩ := h.course_of_call hi
  obtain ⟨b, l, hl, rfl, rfl⟩ := Program.yields_ask.1 (hcourse.yields h₀ ho)
  -- the task has taken once, and that was what it returned
  have hacted : ∀ b', .step w₀.tasks.length .takeStreams b' ∈ actsOf past ++ .call .takeStreams :: acts₀ ↔ b' = b := by
    intro b'
    have hpast : .step w₀.tasks.length .takeStreams b' ∈ actsOf past ↔ b' = b := by
      rw [← mem_exchanges (e := ⟨.takeStreams, b'⟩), hl]
      simp
    have hbefore : .step w₀.tasks.length .takeStreams b' ∉ acts₀ := fun hm => Nat.lt_irrefl _ (h₀.acted_lt hm)
    simp [hpast, hbefore]
  refine ⟨b, rfl, fun hb => ?_, fun ⟨child, hm⟩ => ?_⟩
  · obtain ⟨later, earlier, hsplit⟩ := List.append_of_mem ((hacted true).2 hb.symm)
    obtain ⟨child, hc⟩ := (hsplit ▸ h).take_iff.1 rfl
    exact ⟨child, mem_handedOut.2 ⟨later, earlier, hsplit, hc.current⟩⟩
  · obtain ⟨later, earlier, hsplit, -⟩ := mem_handedOut.1 hm
    exact ((hacted true).1 (hsplit ▸ by simp)).symm

end Taking

/-! ## Calls that start nothing -/

/-- The start has registered its child. -/
def Venture.hasRegistered : Venture → Bool
  | .registered _ => true
  | .announced _ => true
  | _ => false

section Starting

variable {ε : Type} {env : Environment ε} {s : Service} {acts acts₀ : List Act} {w w₀ : World ε} {c : Call}
  {past : List (Episode ε)} {x y : Venture} {r : Request} {a : r.Answer} {handle : Supervisor.Handle}
  {d : Definition} {o : Outcome} {i : Nat}

theorem Launching.hasRegistered (h : Launching x r a y) (hx : x.hasRegistered = true) : y.hasRegistered = true := by
  cases h with
  | plain => exact hx
  | observe | announce => rfl
  | _ => cases hx

theorem Launching.of_register_ok (h : Launching x (.register handle d) (.ok ()) y) : y.hasRegistered = true := by
  cases h with
  | plain h => cases h
  | halt h => cases h
  | register => rfl

/-- A call that has registered a child returns that the server is started. -/
theorem Course.started_of_registered (h₀ : Run env s acts₀ w₀) (h : Course env s (w₀.called s c) past w)
    (hm : .step w₀.tasks.length (.register handle d) (.ok ()) ∈ actsOf past)
    (ho : w.result? w₀.tasks.length = some o) : ∃ d', o.start? = some (.started d') := by
  have hc := (h.run_of_call h₀).kind_of_acted (h₀.role_of_call c _) (List.mem_append_left _ hm)
  obtain ⟨x, hx, hkeep⟩ := Course.accompany
    (J := fun x past _ => (∃ handle d, .step w₀.tasks.length (.register handle d) (.ok ()) ∈ actsOf past) →
      x.hasRegistered = true)
    h₀ (Call.launches s hc) (fun ⟨_, _, hm⟩ => nomatch hm)
    (fun {x y past w w₁ r k a} _ hJ _ _ hP ⟨handle, d, hm⟩ => by
      rcases List.mem_cons.1 hm with heq | hm
      · cases heq
        exact hP.of_register_ok
      · exact hP.hasRegistered (hJ ⟨handle, d, hm⟩))
    (fun {x past w w₁ task r k a} _ hJ hne _ _ ⟨handle, d, hm⟩ => by
      rcases List.mem_cons.1 hm with heq | hm
      · injection heq with hi
        exact absurd hi.symm hne
      · exact hJ ⟨handle, d, hm⟩)
    (fun _ _ hJ ⟨handle, d, hm⟩ => hJ ⟨handle, d, (List.mem_cons.1 hm).resolve_left nofun⟩)
    (fun hJ _ => hJ) h
  have hregistered := hx ⟨handle, d, hm⟩
  rcases hkeep.result ho with rfl | ⟨so, hso, hgives⟩
  · cases hregistered
  · cases x with
    | announced l =>
      obtain ⟨d', rfl⟩ := hgives
      exact ⟨d', hso⟩
    | registered l => exact hgives.elim
    | _ => cases hregistered

theorem Run.started_of_registered (h : Run env s acts w) (hm : .step i (.register handle d) (.ok ()) ∈ acts)
    (ho : w.result? i = some o) : ∃ d', o.start? = some (.started d') := by
  obtain ⟨ρ, hρ⟩ := h.exists_role hm
  have hkind := h.kind_of_acted hρ hm
  cases ρ with
  | call c =>
    obtain ⟨acts₀, w₀, past, h₀, rfl, hcourse, rfl⟩ := h.course_of_call hρ
    -- before it was called it has not done anything
    rcases List.mem_append.1 hm with hm | hm
    · exact hcourse.started_of_registered h₀ hm ho
    · exact absurd (h₀.acted_lt ((List.mem_cons.1 hm).resolve_left nofun)) (Nat.lt_irrefl _)
  | _ => cases hkind

end Starting

/-! ## Linearity -/

section Linearity

variable {ε : Type} {env : Environment ε} {s : Service} {acts : List Act} {w : World ε}

/-- **Standard streams are handed out linearly.** In every run, however the calls and exits fall:

* No child's streams are handed out twice. Whoever got some had called for them, and a call that has returned
  says truly whether it got some.
* Whoever asks gets streams exactly if there are some: those of a child that was started over stdio, is the
  current one and had them still. That child is registered and its exit is not recorded, and of every other
  child that was registered the exit is recorded. While a child serves that was started over HTTP, nobody gets
  any.
* Where there were no streams there are some only once a child is registered that was not registered before.
  No task that ends with anything else than a started server has ever brought that about. -/
theorem Run.streams_linear (h : Run env s acts w) :
    ((handedOut acts).map (·.2)).Nodup ∧
    (∀ i child, (i, child) ∈ handedOut acts → (roles acts)[i]? = some (.call .takeStreams)) ∧
    (∀ i o, (roles acts)[i]? = some (.call .takeStreams) → w.result? i = some o →
      ∃ b, o = .flag b ∧ (b = true ↔ ∃ child, (i, child) ∈ handedOut acts)) ∧
    (∀ later earlier i b, acts = later ++ .step i .takeStreams b :: earlier →
      (b = true ↔ ∃ child, StreamsAvailable earlier child) ∧
      (∀ child, StreamsAvailable earlier child →
        Serving earlier child ∧ ∀ other, Registered earlier other → other ≠ child → Recorded earlier other) ∧
      ∀ child, Serving earlier child → StartedOver earlier child .http → b = false) ∧
    ∀ later earlier x, acts = later ++ x :: earlier → (∀ child, ¬ StreamsAvailable earlier child) →
      ∀ child, StreamsAvailable (x :: earlier) child →
        ∃ i handle d, x = .step i (.register handle d) (.ok ()) ∧ handle.child = child ∧
          ¬ Registered earlier child ∧ ∀ o, w.result? i = some o → ∃ d', o.start? = some (.started d') := by
  refine ⟨h.stocked.once, fun i child => h.call_of_handedOut, fun i o hi ho => h.result_of_take hi ho, ?_, ?_⟩
  · rintro later earlier i b rfl
    obtain ⟨w₀, -, -, -, h₀, -⟩ := h.split
    refine ⟨h.take_iff, fun child hc => ⟨h₀.serving_of_current hc.current, fun other ho hne => ?_⟩,
      fun child hc hhttp => ?_⟩
    · by_contra hrec
      exact hne ((h₀.sole_of_available hc).2 other ⟨ho, hrec⟩)
    · rw [← Bool.not_eq_true, h.take_iff]
      exact fun ⟨other, ho⟩ => h₀.unavailable_over_http hc hhttp ho
  · rintro later earlier x rfl hno child hc
    obtain ⟨i, handle, d, rfl, hchild, hfresh⟩ := h.registers_of_available hno hc
    have hm : .step i (.register handle d) (.ok ()) ∈ later ++ .step i (.register handle d) (.ok ()) :: earlier :=
      List.mem_append_right later List.mem_cons_self
    exact ⟨i, handle, d, rfl, hchild, hfresh, fun o ho => h.started_of_registered hm ho⟩

namespace Rehearsal

/-- The task `n` calls for streams and returns. -/
def asked (n : Nat) : List (Move Script) := [.call .takeStreams, .step n, .step n]

/-- Someone calls for streams at every turn: twice while the server runs, after it was told to stop, twice even,
after its exit, and once another has been started. -/
def askedAtEveryTurn : List (Move Script) :=
  List.flatten [started, asked 2, asked 3, .call .stop :: List.replicate 3 (.step 4),
    .call .stop :: List.replicate 2 (.step 5), asked 6, died, asked 7,
    .call .start :: List.replicate 10 (.step 8), asked 10]

end Rehearsal

/-- Only the first call and the last got streams; the last got those of the second child, which served by then,
and the exit of the first was recorded. -/
theorem streams_of_both_children : ∃ acts w earlier,
    Run Rehearsal.Script.environment Rehearsal.sample acts w ∧
    acts = .step 10 .takeStreams true :: earlier ∧ handedOut acts = [(10, 1), (2, 0)] ∧
    [3, 4, 5, 6, 7].map w.result? = [some (.flag false), some (.stop .signalled), some (.stop .alreadyStopping),
      some (.flag false), some (.flag false)] ∧
    StreamsAvailable earlier 1 ∧ Serving earlier 1 ∧ Recorded earlier 0 := by
  have hr := Rehearsal.run_scene {} Rehearsal.askedAtEveryTurn
  have hlast : (Rehearsal.scene {} Rehearsal.askedAtEveryTurn).1 = .step 10 .takeStreams true ::
      (Rehearsal.scene {} Rehearsal.askedAtEveryTurn).1.tail := rfl
  obtain ⟨-, -, -, htakes, -⟩ := Run.streams_linear hr
  obtain ⟨hthere, hsole, -⟩ := htakes [] _ 10 true hlast
  obtain ⟨child, hc⟩ := hthere.1 rfl
  have hcurrent : registered (Rehearsal.scene {} Rehearsal.askedAtEveryTurn).1.tail = some 1 := by decide +kernel
  obtain rfl : 1 = child := Option.some.inj (hcurrent.symm.trans hc.current)
  obtain ⟨hserving, hothers⟩ := hsole 1 hc
  have hfirst : Registered (Rehearsal.scene {} Rehearsal.askedAtEveryTurn).1.tail 0 :=
    ⟨0, ⟨0, 4000, true⟩, _, List.mem_of_getElem? (i := 32) rfl, rfl⟩
  exact ⟨_, _, _, hr, hlast, by decide +kernel, by decide +kernel, hc, hserving, hothers 0 hfirst (by decide)⟩

/-- Over HTTP there are none. -/
example : (Rehearsal.scene { options := { enableStreamableHttp := true } } (List.flatten
    [.call .start :: List.replicate 11 (.step 0), Rehearsal.asked 2])).2.result? 2 = some (.flag false) := by
  decide +kernel

end Linearity

end Steward
