import Steward.Proofs.Shutdown

/-!
# The stations of a child

A child is started, registered and observed, perhaps it is told to terminate, and in the end its exit is
recorded: each of these at most once, and in this order. `Enrolled` says so for all children of a run at
once, and besides that the state of the server tells whether the current child was told to terminate.

Only the number of a child counts. Process ids are given out by the world outside, which may give that of a
dead child to a new one.
-/

set_option autoImplicit false

namespace Steward

/-! ## Stations -/

/-- The child was registered. -/
def Registered (acts : List Act) (child : Nat) : Prop :=
  ∃ (task : Nat) (handle : Supervisor.Handle) (d : Definition),
    .step task (.register handle d) (.ok ()) ∈ acts ∧ handle.child = child

/-- The child has an observer. -/
def Observed (acts : List Act) (child : Nat) : Prop :=
  ∃ i pid : Nat, (roles acts)[i]? = some (.observer child pid)

/-- The child's observer has recorded its exit. -/
def Recorded (acts : List Act) (child : Nat) : Prop :=
  ∃ (i pid p : Nat) (exit : Exit) (a : _), (roles acts)[i]? = some (.observer child pid) ∧
    .step i (.recordExit p exit) a ∈ acts

/-- A termination signal was delivered to the child. -/
def World.Terminated {ε : Type} (w : World ε) (child : Nat) : Prop :=
  ∃ (task pid : Nat) (d : Delivery), .asked task (.terminate child pid) d ∈ w.history ∧
    d.result = .ok ()

section Stations

variable {acts : List Act} {x : Act} {child : Nat}

theorem Registered.cons (h : Registered acts child) (x : Act) : Registered (x :: acts) child := by
  obtain ⟨task, handle, d, hm, hc⟩ := h
  exact ⟨task, handle, d, List.mem_cons_of_mem _ hm, hc⟩

theorem registered_cons_cases {task : Nat} {r : Request} {a : r.Answer}
    (h : Registered (.step task r a :: acts) child) :
    Registered acts child ∨ ∃ handle d, r = .register handle d ∧ handle.child = child := by
  obtain ⟨i, handle, d, hm, hc⟩ := h
  rcases List.mem_cons.1 hm with hx | hm
  · injection hx with _ hr
    exact .inr ⟨handle, d, hr.symm, hc⟩
  · exact .inl ⟨i, handle, d, hm, hc⟩

theorem observed_cons_cases (h : Observed (x :: acts) child) :
    Observed acts child ∨ ∃ pid, x.birth? = some (.observer child pid) := by
  obtain ⟨i, pid, hi⟩ := h
  rcases roles_cons_cases hi with ⟨-, hold⟩ | ⟨-, hb⟩
  · exact .inl ⟨i, pid, hold⟩
  · exact .inr ⟨pid, hb⟩

theorem Act.birth?_observer {task : Nat} {r : Request} {a : r.Answer} {pid : Nat}
    (h : (Act.step task r a).birth? = some (.observer child pid)) : r = .observe child pid := by
  cases r with
  | observe c p => cases h; rfl
  | _ => cases h

end Stations

/-! ## Signals -/

/-- What a request can mean for the current child: nothing, or it was told to terminate. -/
inductive World.Signalled {ε : Type} (w w₁ : World ε) : Prop where
  | none (running : w₁.runtime.state.isRunning = w.runtime.state.isRunning)
      (terminated : ∀ child, w₁.Terminated child ↔ w.Terminated child)
  | sent (child pid : Nat) (held : w.runtime.held = some (child, pid))
      (running : w₁.runtime.state.isRunning = false)
      (terminated : ∀ c, w₁.Terminated c ↔ w.Terminated c ∨ c = child)

section Signals

variable {ε : Type} {env : Environment ε} {rs : Roles} {s : Service} {w w₁ : World ε} {task : Nat}

theorem World.terminated_congr (h : w₁.history = w.history) (child : Nat) :
    w₁.Terminated child ↔ w.Terminated child := by
  unfold World.Terminated
  rw [h]

/-- Any other question leaves it as it is who was told to terminate. -/
theorem World.terminated_of_asked {q : Query} {a : q.Answer}
    (h : w₁.history = .asked task q a :: w.history)
    (hq : ∀ child pid, q ≠ .terminate child pid) (child : Nat) :
    w₁.Terminated child ↔ w.Terminated child := by
  unfold World.Terminated
  rw [h]
  refine ⟨fun ⟨i, pid, d, hm, hd⟩ => ?_, fun ⟨i, pid, d, hm, hd⟩ =>
    ⟨i, pid, d, List.mem_cons_of_mem _ hm, hd⟩⟩
  rcases List.mem_cons.1 hm with hx | hm
  · injection hx with _ hq'
    exact absurd hq'.symm (hq child pid)
  · exact ⟨i, pid, d, hm, hd⟩

theorem World.terminated_of_replied {ticket : Nat} {choice : Option String}
    (h : w₁.history = .replied task ticket choice :: w.history) (child : Nat) :
    w₁.Terminated child ↔ w.Terminated child := by
  simp [World.Terminated, h]

theorem World.terminated_of_terminate {c pid : Nat} {d : Delivery}
    (h : w₁.history = .asked task (.terminate c pid) d :: w.history) (child : Nat) :
    w₁.Terminated child ↔ w.Terminated child ∨ child = c ∧ d.result = .ok () := by
  unfold World.Terminated
  rw [h]
  constructor
  · rintro ⟨i, p, d', hm, hd⟩
    rcases List.mem_cons.1 hm with hx | hm
    · cases hx
      exact .inr ⟨rfl, hd⟩
    · exact .inl ⟨i, p, d', hm, hd⟩
  · rintro (⟨i, p, d', hm, hd⟩ | ⟨rfl, hd⟩)
    · exact ⟨i, p, d', List.mem_cons_of_mem _ hm, hd⟩
    · exact ⟨task, pid, d, List.mem_cons_self, hd⟩

theorem World.Stopped.signalled {a : Request.StopResult} (h : World.Stopped env w task a w₁) :
    w.Signalled w₁ := by
  cases h with
  | delivered pid d h state handle told =>
    refine .sent h.child h.pid (by simp [Supervisor.Runtime.held, handle]) ?_ fun c => ?_
    · rw [World.exitNow_runtime]
      rfl
    · rw [World.terminated_of_terminate (World.exitNow_history _ _ _) c]
      exact or_congr_right (and_iff_left told)
  | undelivered pid d h e state handle told =>
    refine .none (by rw [World.exitNow_runtime]; rfl) fun c => ?_
    rw [World.terminated_of_terminate (World.exitNow_history _ _ _) c]
    exact or_iff_left fun hc => by cases told.symm.trans hc.2
  | _ => exact .none rfl fun _ => .rfl

theorem Supervisor.Runtime.beginStart_isRunning (r : Supervisor.Runtime) :
    r.beginStart.2.state.isRunning = r.state.isRunning := by
  obtain ⟨state, handle⟩ := r
  cases state <;> rfl

theorem Supervisor.Runtime.abortStart_isRunning (r : Supervisor.Runtime) (reason : String) :
    (r.abortStart reason).state.isRunning = r.state.isRunning := by
  obtain ⟨state, handle⟩ := r
  cases state <;> rfl

theorem Supervisor.Runtime.beginStart_held (r : Supervisor.Runtime) :
    r.beginStart.2.held = r.held := by
  obtain ⟨state, handle⟩ := r
  cases state <;> rfl

/-- Only a registration and a recorded exit mean more. -/
theorem World.Performed.signalled {r : Request} {a : r.Answer}
    (h : World.Performed env rs w task r a w₁) (hd : r.kind ≠ .direct)
    (hreg : ∀ handle d, r ≠ .register handle d) (hrec : ∀ pid exit, r ≠ .recordExit pid exit) :
    w.Signalled w₁ := by
  cases h with
  | query q =>
    refine .none rfl (World.terminated_of_asked rfl fun child pid hq => ?_)
    subst hq
    exact hd rfl
  | spawned spec pid told => exact .none rfl (World.terminated_of_asked rfl nofun)
  | unspawned spec e => exact .none rfl (World.terminated_of_asked rfl nofun)
  | prompted ticket choice => exact .none rfl (World.terminated_of_replied rfl)
  | beginStart => exact .none w.runtime.beginStart_isRunning fun _ => .rfl
  | abortStart reason => exact .none (w.runtime.abortStart_isRunning reason) fun _ => .rfl
  | stop a w₁ hs => exact hs.signalled
  | killed h handle =>
    refine .none (by rw [World.exitNow_runtime]; rfl) ?_
    exact World.terminated_of_asked (World.exitNow_history _ _ _) nofun
  | takeStreams => exact .none (by rw [w.runtime.takeStreams_state]) fun _ => .rfl
  | registered handle d => exact absurd rfl (hreg handle d)
  | unregistered handle d => exact absurd rfl (hreg handle d)
  | recorded pid exit => exact absurd rfl (hrec pid exit)
  | unrecorded pid exit => exact absurd rfl (hrec pid exit)
  | _ => exact .none rfl fun _ => .rfl

end Signals

/-! ## The invariant -/

/-- What is known of all children of a run. -/
structure Enrolled {ε : Type} (phase : Nat → ServerPhase) (acts : List Act) (w : World ε) :
    Prop where
  started : ∀ child, Registered acts child → child < w.children.length
  observed : ∀ child, Observed acts child → Registered acts child
  terminated : ∀ child, w.Terminated child → Registered acts child
  spawned : ∀ i child pid, phase i = .spawned child pid → ¬ Registered acts child
  registered : ∀ i child pid, phase i = .registered child pid →
    Registered acts child ∧ ¬ Observed acts child
  /-- no child has two observers -/
  unique : ∀ (i j child pid pid' : Nat), (roles acts)[i]? = some (.observer child pid) →
    (roles acts)[j]? = some (.observer child pid') → i = j
  /-- a registered child has its observer, or will have it at once -/
  watched : ∀ (i : Nat) (handle : Supervisor.Handle) (d : Definition),
    .step i (.register handle d) (.ok ()) ∈ acts →
    (∃ j : Nat, (roles acts)[j]? = some (.observer handle.child handle.pid)) ∨
      phase i = .registered handle.child handle.pid
  /-- the server counts as running until its child is told to terminate -/
  signalled : ∀ child pid, w.runtime.held = some (child, pid) →
    (w.runtime.state.isRunning = true ↔ ¬ w.Terminated child)
  gone : ∀ child pid, Recorded acts child → w.runtime.held ≠ some (child, pid)
  recorded : ∀ (i child pid p : Nat) (exit : Exit) (t : Lifecycle.Transition),
    (roles acts)[i]? = some (.observer child pid) → .step i (.recordExit p exit) (.ok t) ∈ acts →
    (t.old.isRunning = true ↔ ¬ w.Terminated child)

section Holding

variable {ε : Type} {env : Environment ε} {s : Service} {phase : Nat → ServerPhase}
  {acts : List Act} {w : World ε} {i child pid : Nat}

/-- Only its observer watches a child. -/
theorem Guarded.observer (hg : Guarded phase acts w) (hr : Run env s acts w)
    (hx : phase i = .watching child pid ∨ phase i = .bereft child pid) :
    (roles acts)[i]? = some (.observer child pid) := by
  have hlt : i < (roles acts).length := by
    rw [hr.roles_length]
    by_contra hge
    have := hg.unborn i (Nat.le_of_not_lt hge)
    rcases hx with hx | hx <;> rw [this] at hx <;> cases hx
  have hi := List.getElem?_eq_getElem hlt
  have hallows := hg.role i _ hi
  rw [hi]
  cases hρ : (roles acts)[i] with
  | observer c p => rcases hx with hx | hx <;> rw [hρ, hx] at hallows <;> simp_all [Role.allows]
  | _ => rcases hx with hx | hx <;> rw [hρ, hx] at hallows <;> cases hallows

theorem Enrolled.registered_of_held (he : Enrolled phase acts w) (hg : Guarded phase acts w)
    (hr : Run env s acts w) (hh : w.runtime.held = some (child, pid)) : Registered acts child := by
  obtain ⟨i, hx | hx⟩ := hg.holder hh
  · exact (he.registered i child pid hx).1
  · exact he.observed child ⟨i, pid, hg.observer hr hx⟩

end Holding

/-! ## Steps -/

section Steps

variable {ε : Type} {env : Environment ε} {rs : Roles} {s : Service} {phase : Nat → ServerPhase}
  {acts : List Act} {w w' w₁ : World ε} {task : Nat} {r : Request} {a : r.Answer} {x y : ServerPhase}

theorem advance_cases {σ : Type} {init : Role → σ} {n i : Nat} {phase : Nat → σ} {y z : σ}
    (h : advance init n phase task r y i = z) :
    i = task ∧ y = z ∨ (∃ ρ, r.birth? = some ρ ∧ init ρ = z) ∨ i ≠ task ∧ phase i = z := by
  unfold advance at h
  split at h
  · exact .inl ⟨‹_›, h⟩
  · rename_i hi
    split at h
    · cases hb : r.birth? with
      | none => exact .inr (.inr ⟨hi, by simpa [hb] using h⟩)
      | some ρ => exact .inr (.inl ⟨ρ, rfl, by simpa [hb] using h⟩)
    · exact .inr (.inr ⟨hi, h⟩)

/-- A child that a task has started is a new one. -/
theorem Handover.spawned_cases (hP : Handover x r a y)
    (h : World.Performed env rs w task r a w₁) {child pid : Nat} (hy : y = .spawned child pid) :
    x = .spawned child pid ∧ r.isNeutral = true ∨ child = w.children.length := by
  cases hP with
  | neutral hn => exact .inl ⟨hy, hn⟩
  | spawn =>
    cases h with
    | spawned => cases hy; exact .inr rfl
  | _ => cases hy

/-- A child that a task has registered is the one that it had started. -/
theorem Handover.registered_cases (hP : Handover x r a y) {child pid : Nat}
    (hy : y = .registered child pid) :
    x = .registered child pid ∧ r.isNeutral = true ∨
    x = .spawned child pid ∧ Registered (.step task r a :: acts) child ∧ r.birth? = none := by
  cases hP with
  | neutral hn => exact .inl ⟨hy, hn⟩
  | register =>
    cases hy
    exact .inr ⟨rfl, ⟨task, _, _, List.mem_cons_self, rfl⟩, rfl⟩
  | _ => cases hy

theorem Handover.of_registered {child pid : Nat} (hP : Handover (.registered child pid) r a y) :
    y = .registered child pid ∨ r = .observe child pid := by
  cases hP with
  | neutral => exact .inl rfl
  | observe => exact .inr rfl

theorem Handover.of_register_ok {handle : Supervisor.Handle} {d : Definition}
    (hP : Handover x (.register handle d) (.ok ()) y) :
    y = .registered handle.child handle.pid := by
  cases hP with
  | neutral hn => cases hn
  | register => rfl

theorem Handover.of_observe {child pid : Nat} (hP : Handover x (.observe child pid) () y) :
    x = .registered child pid := by
  cases hP with
  | neutral hn => cases hn
  | observe => rfl

/-- A step of a run, with all that is known before it. -/
structure GuardedStep (env : Environment ε) (s : Service) (phase : Nat → ServerPhase)
    (acts : List Act) (w : World ε) (task : Nat) (r : Request) (a : r.Answer) (w₁ : World ε)
    (y : ServerPhase) : Prop where
  run : Run env s acts w
  guarded : Guarded phase acts w
  pending : ∃ k, w.pending task = some ⟨r, k⟩
  performed : World.Performed env s.roles w task r a w₁
  handover : Handover (phase task) r a y

namespace GuardedStep

variable {child pid i : Nat}

theorem not_direct (h : GuardedStep env s phase acts w task r a w₁ y) : r.kind ≠ .direct := by
  obtain ⟨k, hp⟩ := h.pending
  exact h.run.not_direct hp a

/-- Two tasks with custody of a child are one. -/
theorem eq_task (h : GuardedStep env s phase acts w task r a w₁ y)
    (hi : (phase i).hasCustody = true) (ht : (phase task).hasCustody = true) : i = task := by
  obtain ⟨o, ho, -⟩ := h.guarded.custodian
  exact Option.some.inj ((ho.eq_some hi).symm.trans (ho.eq_some ht))

theorem children_le (h : GuardedStep env s phase acts w task r a w₁ y) :
    w.children.length ≤ w₁.children.length := by
  by_contra hlt
  have hlast : w₁.children.length < w.children.length := Nat.lt_of_not_le hlt
  obtain ⟨c, hc, -⟩ := h.performed.outlives _ _ (List.getElem?_eq_getElem hlast)
  simp at hc

/-- Whoever registers a child has just started it, and it becomes the current one. -/
theorem register {handle : Supervisor.Handle} {d : Definition}
    {a : (Request.register handle d).Answer}
    (h : GuardedStep env s phase acts w task (.register handle d) a w₁ y) :
    phase task = .spawned handle.child handle.pid ∧
      w₁ = { w with runtime := ⟨.running handle.pid d, some handle⟩ } := by
  have hx := h.handover.of_register
  obtain ⟨-, hf⟩ := h.guarded.fits hx rfl
  have htaken := Supervisor.Runtime.register_of_starting hf.1.1 handle d
  refine ⟨hx, ?_⟩
  cases h.performed with
  | registered _ _ runtime taken =>
    rw [htaken] at taken
    cases taken
    rfl
  | unregistered _ _ e refused =>
    rw [htaken] at refused
    cases refused

/-- Whoever records an exit is the observer of the current child, and the server is stopped by it. -/
theorem record {p : Nat} {exit : Exit} {a : (Request.recordExit p exit).Answer}
    (h : GuardedStep env s phase acts w task (.recordExit p exit) a w₁ y) :
    ∃ child, (roles acts)[task]? = some (.observer child p) ∧ w.runtime.held = some (child, p) ∧
      w.runtime.state.pid? = some p ∧
      a = .ok ⟨true, w.runtime.state, .stopped, [.clearHandle, .definitionChanged]⟩ ∧
      w₁ = { w with runtime := ⟨.stopped, none⟩ } := by
  obtain ⟨child, hx⟩ := h.handover.of_recordExit
  obtain ⟨-, hf⟩ := h.guarded.fits hx rfl
  have htaken := Supervisor.Runtime.recordExit_of_pid hf.1.1 exit
  refine ⟨child, h.guarded.observer h.run (.inr hx), hf.1.2, hf.1.1, ?_⟩
  cases h.performed with
  | recorded _ _ t runtime taken =>
    rw [htaken] at taken
    cases taken
    exact ⟨rfl, rfl⟩
  | unrecorded _ _ e refused =>
    rw [htaken] at refused
    cases refused

/-- Any other request leaves it as it is which child is the current one. -/
theorem held_eq (h : GuardedStep env s phase acts w task r a w₁ y)
    (hreg : ∀ handle d, r ≠ .register handle d) (hrec : ∀ pid exit, r ≠ .recordExit pid exit) :
    w₁.runtime.held = w.runtime.held := by
  by_cases hn : r.isNeutral = true
  · exact (h.performed.drift hn).held
  · cases h.performed with
    | beginStart => exact w.runtime.beginStart_held
    | registered handle d | unregistered handle d => exact absurd rfl (hreg handle d)
    | recorded pid exit | unrecorded pid exit => exact absurd rfl (hrec pid exit)
    | query | spawned | unspawned | abortStart | observe | event | silence | raiseExited => rfl
    | _ => exact absurd rfl hn

/-- Whoever has acted was there before. -/
theorem role_of_acted (h : GuardedStep env s phase acts w task r a w₁ y) {ρ : Role} {r' : Request}
    {a' : r'.Answer} (hi : (roles (.step task r a :: acts))[i]? = some ρ)
    (hm : .step i r' a' ∈ Act.step task r a :: acts) : (roles acts)[i]? = some ρ := by
  rcases roles_cons_cases hi with ⟨-, hold⟩ | ⟨rfl, -⟩
  · exact hold
  · obtain ⟨k, hp⟩ := h.pending
    have hlt := World.lt_of_pending hp
    rw [h.run.roles_length] at hm
    rcases List.mem_cons.1 hm with hx | hm
    · injection hx with hx
      omega
    · exact absurd (h.run.acted_lt hm) (Nat.lt_irrefl _)

theorem recorded_cases (h : GuardedStep env s phase acts w task r a w₁ y)
    (hc : Recorded (.step task r a :: acts) child) :
    Recorded acts child ∨ ∃ pid exit, r = .recordExit pid exit := by
  obtain ⟨i, pid, p, exit, a', hi, hm⟩ := hc
  have hold := h.role_of_acted hi hm
  rcases List.mem_cons.1 hm with hx | hm
  · injection hx with _ hr
    exact .inr ⟨p, exit, hr.symm⟩
  · exact .inl ⟨i, pid, p, exit, a', hold, hm⟩

/-- The three things that a step can mean for the current child. -/
theorem turn (h : GuardedStep env s phase acts w task r a w₁ y) :
    (∃ handle d, r = .register handle d) ∨ (∃ pid exit, r = .recordExit pid exit) ∨
    w₁.runtime.held = w.runtime.held ∧ w.Signalled w₁ := by
  by_cases hreg : ∃ handle d, r = .register handle d
  · exact .inl hreg
  · by_cases hrec : ∃ pid exit, r = .recordExit pid exit
    · exact .inr (.inl hrec)
    · have hreg : ∀ handle d, r ≠ .register handle d := fun handle d he => hreg ⟨handle, d, he⟩
      have hrec : ∀ pid exit, r ≠ .recordExit pid exit := fun pid exit he => hrec ⟨pid, exit, he⟩
      exact .inr (.inr ⟨h.held_eq hreg hrec, h.performed.signalled h.not_direct hreg hrec⟩)

end GuardedStep

namespace Enrolled

variable {child pid i : Nat}

theorem started_act (he : Enrolled phase acts w) (h : GuardedStep env s phase acts w task r a w₁ y)
    (hc : Registered (.step task r a :: acts) child) : child < w₁.children.length := by
  refine Nat.lt_of_lt_of_le ?_ h.children_le
  rcases registered_cons_cases hc with hc | ⟨handle, d, rfl, rfl⟩
  · exact he.started child hc
  · obtain ⟨-, hf⟩ := h.guarded.fits h.register.1 rfl
    obtain ⟨c, hc, -⟩ := hf.2.1
    exact (List.getElem?_eq_some_iff.1 hc).1

theorem observed_act (he : Enrolled phase acts w) (h : GuardedStep env s phase acts w task r a w₁ y)
    (hc : Observed (.step task r a :: acts) child) : Registered (.step task r a :: acts) child := by
  rcases observed_cons_cases hc with hc | ⟨pid, hb⟩
  · exact (he.observed child hc).cons _
  · obtain rfl := Act.birth?_observer hb
    exact (he.registered task child pid h.handover.of_observe).1.cons _

theorem terminated_act (he : Enrolled phase acts w)
    (h : GuardedStep env s phase acts w task r a w₁ y) (hc : w₁.Terminated child) :
    Registered (.step task r a :: acts) child := by
  have old : w.Terminated child → Registered (.step task r a :: acts) child :=
    fun hc => (he.terminated child hc).cons _
  rcases h.turn with ⟨handle, d, rfl⟩ | ⟨p, exit, rfl⟩ | ⟨-, hs⟩
  · obtain ⟨-, rfl⟩ := h.register
    exact old hc
  · obtain ⟨-, -, -, -, -, rfl⟩ := h.record
    exact old hc
  · cases hs with
    | none _ ht => exact old ((ht child).1 hc)
    | sent c p hheld _ ht =>
      rcases (ht child).1 hc with hc | rfl
      · exact old hc
      · exact (he.registered_of_held h.guarded h.run hheld).cons _

/-- A child in the hands of the one who started it is not yet registered. -/
theorem spawned_act (he : Enrolled phase acts w) (h : GuardedStep env s phase acts w task r a w₁ y)
    (hi : advance Role.phase w.tasks.length phase task r y i = .spawned child pid) :
    ¬ Registered (.step task r a :: acts) child := by
  intro hc
  -- whoever has it had it before, or it is new
  have hbefore : phase i = .spawned child pid ∧ i ≠ task ∨ y = .spawned child pid := by
    rcases advance_cases hi with ⟨-, hy⟩ | ⟨ρ, -, hρ⟩ | ⟨hne, hold⟩
    · exact .inr hy
    · cases ρ <;> cases hρ
    · exact .inl ⟨hold, hne⟩
  rcases registered_cons_cases hc with hc | ⟨handle, d, rfl, rfl⟩
  · rcases hbefore with ⟨hold, -⟩ | hy
    · exact he.spawned i child pid hold hc
    · rcases h.handover.spawned_cases h.performed hy with ⟨hx, -⟩ | rfl
      · exact he.spawned task child pid hx hc
      · exact Nat.lt_irrefl _ (he.started _ hc)
  · obtain ⟨hx, -⟩ := h.register
    rcases hbefore with ⟨hold, hne⟩ | hy
    · exact hne (h.eq_task (by rw [hold]; rfl) (by rw [hx]; rfl))
    · rcases h.handover.spawned_cases h.performed hy with ⟨-, hn⟩ | hlen
      · cases hn
      · obtain ⟨-, hf⟩ := h.guarded.fits hx rfl
        obtain ⟨c, hc, -⟩ := hf.2.1
        exact Nat.ne_of_lt (List.getElem?_eq_some_iff.1 hc).1 hlen

theorem registered_act (he : Enrolled phase acts w)
    (h : GuardedStep env s phase acts w task r a w₁ y)
    (hi : advance Role.phase w.tasks.length phase task r y i = .registered child pid) :
    Registered (.step task r a :: acts) child ∧ ¬ Observed (.step task r a :: acts) child := by
  rcases advance_cases hi with ⟨rfl, hy⟩ | ⟨ρ, -, hρ⟩ | ⟨hne, hold⟩
  · rcases h.handover.registered_cases hy with ⟨hx, hn⟩ | ⟨hx, hreg, hb⟩
    · obtain ⟨hreg, hobs⟩ := he.registered _ child pid hx
      refine ⟨hreg.cons _, fun ho => ?_⟩
      rcases observed_cons_cases ho with ho | ⟨p, hb⟩
      · exact hobs ho
      · obtain rfl := Act.birth?_observer hb
        cases hn
    · refine ⟨hreg, fun ho => ?_⟩
      rcases observed_cons_cases ho with ho | ⟨p, hb'⟩
      · exact he.spawned _ child pid hx (he.observed child ho)
      · exact nomatch hb.symm.trans hb'
  · cases ρ <;> cases hρ
  · obtain ⟨hreg, hobs⟩ := he.registered i child pid hold
    refine ⟨hreg.cons _, fun ho => ?_⟩
    rcases observed_cons_cases ho with ho | ⟨p, hb⟩
    · exact hobs ho
    · obtain rfl := Act.birth?_observer hb
      refine hne (h.eq_task (by rw [hold]; rfl) ?_)
      rw [h.handover.of_observe]
      rfl

theorem unique_act (he : Enrolled phase acts w) (h : GuardedStep env s phase acts w task r a w₁ y)
    {j pid' : Nat} (hi : (roles (.step task r a :: acts))[i]? = some (.observer child pid))
    (hj : (roles (.step task r a :: acts))[j]? = some (.observer child pid')) : i = j := by
  -- a new observer is that of a child which has none
  have new : ∀ {p : Nat}, (Act.step task r a).birth? = some (.observer child p) →
      ¬ Observed acts child := by
    intro p hb
    obtain rfl := Act.birth?_observer hb
    exact (he.registered task child p h.handover.of_observe).2
  rcases roles_cons_cases hi with ⟨-, hi⟩ | ⟨rfl, hb⟩
  · rcases roles_cons_cases hj with ⟨-, hj⟩ | ⟨-, hb⟩
    · exact he.unique i j child pid pid' hi hj
    · exact absurd ⟨i, pid, hi⟩ (new hb)
  · rcases roles_cons_cases hj with ⟨-, hj⟩ | ⟨rfl, -⟩
    · exact absurd ⟨j, pid', hj⟩ (new hb)
    · rfl

theorem watched_act (he : Enrolled phase acts w) (h : GuardedStep env s phase acts w task r a w₁ y)
    {handle : Supervisor.Handle} {d : Definition}
    (hi : .step i (.register handle d) (.ok ()) ∈ Act.step task r a :: acts) :
    (∃ j : Nat, (roles (.step task r a :: acts))[j]? =
      some (.observer handle.child handle.pid)) ∨
    advance Role.phase w.tasks.length phase task r y i = .registered handle.child handle.pid := by
  rcases List.mem_cons.1 hi with hx | hi
  · cases hx
    exact .inr (advance_self.trans h.handover.of_register_ok)
  · rcases he.watched i handle d hi with ⟨j, hj⟩ | hx
    · exact .inl ⟨j, roles_cons_of_some _ hj⟩
    · by_cases hit : i = task
      · subst hit
        rcases (hx ▸ h.handover).of_registered with hy | rfl
        · exact .inr (advance_self.trans hy)
        · exact .inl ⟨(roles acts).length, by simp [roles, Act.birth?, Request.birth?]⟩
      · have hlt : i < w.tasks.length := by
          by_contra hge
          rw [h.guarded.unborn i (Nat.le_of_not_lt hge)] at hx
          cases hx
        exact .inr ((advance_old hit hlt).trans hx)

theorem signalled_act (he : Enrolled phase acts w)
    (h : GuardedStep env s phase acts w task r a w₁ y)
    (hh : w₁.runtime.held = some (child, pid)) :
    w₁.runtime.state.isRunning = true ↔ ¬ w₁.Terminated child := by
  rcases h.turn with ⟨handle, d, rfl⟩ | ⟨p, exit, rfl⟩ | ⟨hsame, hs⟩
  · -- a child that was not registered was not told anything
    obtain ⟨hx, rfl⟩ := h.register
    obtain ⟨rfl, rfl⟩ := Prod.mk.inj (Option.some.inj hh)
    exact iff_of_true rfl fun ht => he.spawned task _ _ hx (he.terminated _ ht)
  · obtain ⟨-, -, -, -, -, rfl⟩ := h.record
    cases hh
  · rw [hsame] at hh
    cases hs with
    | none hrun ht => rw [hrun, ht child, he.signalled child pid hh]
    | sent c p hheld hrun ht =>
      obtain ⟨rfl, rfl⟩ := Prod.mk.inj (Option.some.inj (hheld.symm.trans hh))
      rw [hrun]
      exact iff_of_false nofun fun hn => hn ((ht c).2 (.inr rfl))

theorem gone_act (he : Enrolled phase acts w) (h : GuardedStep env s phase acts w task r a w₁ y)
    (hc : Recorded (.step task r a :: acts) child) : w₁.runtime.held ≠ some (child, pid) := by
  intro hh
  rcases h.turn with ⟨handle, d, rfl⟩ | ⟨p, exit, rfl⟩ | ⟨hsame, hs⟩
  · -- a child that was not registered was not observed
    obtain ⟨hx, rfl⟩ := h.register
    obtain ⟨rfl, rfl⟩ := Prod.mk.inj (Option.some.inj hh)
    rcases h.recorded_cases hc with ⟨i, p, _, _, _, hi, -⟩ | ⟨_, _, hr⟩
    · exact he.spawned task _ _ hx (he.observed _ ⟨i, p, hi⟩)
    · cases hr
  · obtain ⟨-, -, -, -, -, rfl⟩ := h.record
    cases hh
  · rw [hsame] at hh
    rcases h.recorded_cases hc with hc | ⟨p, exit, rfl⟩
    · exact he.gone child pid hc hh
    · obtain ⟨-, -, -, -, -, rfl⟩ := h.record
      exact nomatch hsame.trans hh

theorem recorded_act (he : Enrolled phase acts w) (h : GuardedStep env s phase acts w task r a w₁ y)
    {p : Nat} {exit : Exit} {t : Lifecycle.Transition}
    (hi : (roles (.step task r a :: acts))[i]? = some (.observer child pid))
    (hm : .step i (.recordExit p exit) (.ok t) ∈ Act.step task r a :: acts) :
    t.old.isRunning = true ↔ ¬ w₁.Terminated child := by
  have hold := h.role_of_acted hi hm
  rcases List.mem_cons.1 hm with hx | hm
  · cases hx
    obtain ⟨c, hrole, hheld, -, ha, rfl⟩ := h.record
    cases ha
    obtain ⟨rfl, rfl⟩ := (Role.observer.injEq ..).mp (Option.some.inj (hrole.symm.trans hold))
    exact he.signalled c p hheld
  · rw [he.recorded i child pid p exit t hold hm, not_iff_not]
    rcases h.turn with ⟨handle, d, rfl⟩ | ⟨_, _, rfl⟩ | ⟨-, hs⟩
    · obtain ⟨-, rfl⟩ := h.register
      exact .rfl
    · obtain ⟨-, -, -, -, -, rfl⟩ := h.record
      exact .rfl
    · cases hs with
      | none _ ht => exact (ht child).symm
      | sent c pid' hheld _ ht =>
        -- the current child is another one, whose exit has not been recorded
        rw [ht child]
        refine (or_iff_left fun hc => ?_).symm
        exact he.gone child pid' ⟨i, pid, p, exit, .ok t, hold, hm⟩ (hc ▸ hheld)

theorem act (he : Enrolled phase acts w) (h : GuardedStep env s phase acts w task r a w₁ y)
    {f : Task → Task} :
    Enrolled (advance Role.phase w.tasks.length phase task r y) (.step task r a :: acts)
      (w₁.changeTask task f) where
  started _ hc := (he.started_act h hc :)
  observed _ hc := he.observed_act h hc
  terminated _ hc := he.terminated_act h (hc :)
  spawned _ _ _ hi := he.spawned_act h hi
  registered _ _ _ hi := he.registered_act h hi
  unique _ _ _ _ _ hi hj := he.unique_act h hi hj
  watched _ _ _ hi := he.watched_act h hi
  signalled _ _ hh := (he.signalled_act h hh :)
  gone _ _ hc hh := he.gone_act h hc hh
  recorded _ _ _ _ _ _ hi hm := (he.recorded_act h hi hm :)

theorem call (he : Enrolled phase acts w) (hr : Run env s acts w) (c : Call) :
    Enrolled (Function.update phase w.tasks.length .free) (.call c :: acts)
      (w.addTask (c.program s)).2 := by
  -- a call is no station of any child
  have acted : ∀ {i : Nat} {r : Request} {a : r.Answer}, .step i r a ∈ Act.call c :: acts →
      .step i r a ∈ acts := fun hm => (List.mem_cons.1 hm).resolve_left nofun
  have role : ∀ {i child pid : Nat}, (roles (.call c :: acts))[i]? = some (.observer child pid) →
      (roles acts)[i]? = some (.observer child pid) := fun hi =>
    (roles_cons_cases hi).elim (·.2) fun hb => nomatch hb.2
  have registered : ∀ {child}, Registered (.call c :: acts) child → Registered acts child :=
    fun ⟨i, handle, d, hm, hc⟩ => ⟨i, handle, d, acted hm, hc⟩
  have observed : ∀ {child}, Observed (.call c :: acts) child → Observed acts child :=
    fun ⟨i, pid, hi⟩ => ⟨i, pid, role hi⟩
  have phased : ∀ {i : Nat} {x : ServerPhase}, x ≠ .free →
      Function.update phase w.tasks.length .free i = x → phase i = x := by
    intro i x hx hi
    rw [Function.update_apply] at hi
    split at hi
    · exact absurd hi.symm hx
    · exact hi
  refine {
    started := fun child hc => he.started child (registered hc)
    observed := fun child hc => (he.observed child (observed hc)).cons _
    terminated := fun child hc => (he.terminated child hc).cons _
    spawned := fun i child pid hi hc => he.spawned i child pid (phased nofun hi) (registered hc)
    registered := fun i child pid hi => ?_
    unique := fun i j child pid pid' hi hj => he.unique i j child pid pid' (role hi) (role hj)
    watched := fun i handle d hi => ?_
    signalled := he.signalled
    gone := fun child pid ⟨i, pid', p, exit, a, hi, hm⟩ =>
      he.gone child pid ⟨i, pid', p, exit, a, role hi, acted hm⟩
    recorded := fun i child pid p exit t hi hm =>
      he.recorded i child pid p exit t (role hi) (acted hm) }
  · obtain ⟨hreg, hobs⟩ := he.registered i child pid (phased nofun hi)
    exact ⟨hreg.cons _, fun ho => hobs (observed ho)⟩
  · rcases he.watched i handle d (acted hi) with ⟨j, hj⟩ | hx
    · exact .inl ⟨j, roles_cons_of_some _ hj⟩
    · have hne : i ≠ w.tasks.length := Nat.ne_of_lt (hr.acted_lt (acted hi))
      exact .inr (by rw [Function.update_of_ne hne, hx])

theorem hush (he : Enrolled phase acts w) (h : w.Hush w') : Enrolled phase acts w' := by
  have hlen : w'.children.length = w.children.length := h.drift.length
  have ht := World.terminated_congr h.history
  exact {
    started := fun child hc => hlen ▸ he.started child hc
    observed := he.observed
    terminated := fun child hc => he.terminated child ((ht child).1 hc)
    spawned := he.spawned
    registered := he.registered
    unique := he.unique
    watched := he.watched
    signalled := fun child pid hh => by
      rw [h.runtime, ht child]
      exact he.signalled child pid (h.runtime ▸ hh)
    gone := fun child pid hc hh => he.gone child pid hc (h.runtime ▸ hh)
    recorded := fun i child pid p exit t hi hm => by
      rw [ht child]
      exact he.recorded i child pid p exit t hi hm }

theorem start (outside : ε) : Enrolled (fun _ => Role.phase .check) [] { outside := outside } where
  started _ hc := nomatch hc
  observed _ hc := nomatch hc
  terminated _ hc := nomatch hc
  spawned _ _ _ hi := nomatch hi
  registered _ _ _ hi := nomatch hi
  unique _ _ _ _ _ hi := by simp [roles] at hi
  watched _ _ _ hi := nomatch hi
  signalled _ _ hh := nomatch hh
  gone _ _ _ hh := nomatch hh
  recorded _ _ _ _ _ _ hi := by simp [roles] at hi

end Enrolled

/-- **Every child passes its stations in order**, in every run. -/
theorem Run.enrolled (h : Run env s acts w) :
    ∃ phase, w.Follows Handover ServerPhase.IsIdle phase ∧ Guarded phase acts w ∧
      Enrolled phase acts w :=
  Run.simulate (J := fun phase acts w => Guarded phase acts w ∧ Enrolled phase acts w)
    (Role.obeys s) (fun outside => ⟨.start outside, .start outside⟩)
    (fun c hr _ ⟨hg, he⟩ => ⟨hg.call hr c, he.call hr c⟩)
    (fun {_ _ _ _ _ _ k _ _} hr _ ⟨hg, he⟩ hp hperf hP =>
      ⟨hg.act hr (World.lt_of_pending hp) hP hperf, he.act ⟨hr, hg, ⟨k, hp⟩, hperf, hP⟩⟩)
    (fun _ _ ⟨hg, he⟩ hh => ⟨hg.hush hh, he.hush hh⟩) h

/-- Whoever acts in a run does so with all that is known. -/
theorem Run.guardedStep (h : Run env s acts w) {k : r.Answer → Program Flow}
    (hp : w.pending task = some ⟨r, k⟩) (hperf : World.Performed env s.roles w task r a w₁) :
    ∃ phase y, GuardedStep env s phase acts w task r a w₁ y := by
  obtain ⟨phase, hf, hg⟩ := h.guarded
  obtain ⟨y, hP⟩ := hf.pending hp a
  exact ⟨phase, y, h, hg, ⟨k, hp⟩, hperf, hP⟩

end Steps

end Steward
