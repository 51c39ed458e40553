import Steward.Proofs.Checks
import Steward.Proofs.Coherence

/-!
# What a shutdown leaves behind

A shutdown looks once for the current child. If there is none it is through; otherwise it waits for that
child, kills it if need be and waits again. It does not look a second time. So a child that is registered
behind its back, by a start that was under way when it looked, stays: that is what
`left_running_by_deactivate` shows, and `Run.stopped_for_good_iff` shows that nothing else can stay.

`Leave` is the protocol of that: `Farewell` is how far a shutdown has come, and what each stage says about
the acts so far and the child in question is `Farewell.Tells`.
-/

set_option autoImplicit false

namespace Steward

/-- The calls that are to end everything. -/
def Call.isFarewell : Call → Bool
  | .shutdown _ => true
  | .deactivate => true
  | _ => false

/-! ## What the acts tell -/

/-- The child that was registered last, unless an exit was recorded since. -/
def registered : List Act → Option Nat
  | [] => none
  | .call _ :: acts => registered acts
  | .step _ r a :: acts =>
    match r, a with
    | .register handle _, .ok _ => some handle.child
    | .recordExit _ _, _ => none
    | _, _ => registered acts

/-- Whether the act is a look of the task for the current child. -/
def Act.isLookOf (task : Nat) : Act → Bool
  | .step i .currentChild _ => i == task
  | _ => false

/-- What happened since the task looked for the current child. -/
def sinceLook (task : Nat) (acts : List Act) : List Act := acts.takeWhile fun x => !x.isLookOf task

/-- Whether the task has killed. -/
def killed (task : Nat) : List Act → Bool
  | [] => false
  | .call _ :: acts => killed task acts
  | .step i r _ :: acts => (i == task && r == .killCurrent) || killed task acts

/-- Whether the task, having killed, still waited in vain. -/
def missed (task : Nat) : List Act → Bool
  | [] => false
  | .call _ :: acts => missed task acts
  | .step i r a :: acts =>
    match r, a with
    | .awaitExit _ _, false => (i == task && killed task acts) || missed task acts
    | _, _ => missed task acts

/-- An act leaves alone what was registered, or settles it whatever was before. -/
theorem registered_cons (x : Act) :
    (∀ acts, registered (x :: acts) = registered acts) ∨
    ∃ o, ∀ acts, registered (x :: acts) = o := by
  cases x with
  | call c => exact .inl fun _ => rfl
  | step i r a =>
    cases r with
    | register handle d =>
      cases a with
      | error e => exact .inl fun _ => rfl
      | ok u => exact .inr ⟨some handle.child, fun _ => rfl⟩
    | recordExit pid exit => exact .inr ⟨none, fun _ => rfl⟩
    | _ => exact .inl fun _ => rfl

theorem registered_append (later earlier : List Act) :
    registered later = none ∧ registered (later ++ earlier) = registered earlier ∨
    registered (later ++ earlier) = registered later := by
  induction later with
  | nil => exact .inl ⟨rfl, rfl⟩
  | cons x later ih =>
    rw [List.cons_append]
    rcases registered_cons x with hpass | ⟨o, hset⟩
    · rw [hpass, hpass]
      exact ih
    · exact .inr ((hset _).trans (hset _).symm)

theorem sinceLook_cons {task : Nat} {x : Act} (hx : x.isLookOf task = false) (acts : List Act) :
    sinceLook task (x :: acts) = x :: sinceLook task acts := by
  simp [sinceLook, hx]

theorem killed_cons {task : Nat} {acts : List Act} (x : Act) (h : killed task acts = true) :
    killed task (x :: acts) = true := by
  cases x <;> simp [killed, h]

theorem missed_cons {task : Nat} {acts : List Act} (x : Act) (h : missed task acts = true) :
    missed task (x :: acts) = true := by
  cases x with
  | call c => exact h
  | step i r a =>
    cases r with
    | awaitExit child moment => cases a <;> simp [missed, h]
    | _ => exact h

section Registered

variable {ε : Type} {env : Environment ε} {s : Service} {acts : List Act} {w : World ε}

theorem Supervisor.Runtime.child?_eq_held (r : Supervisor.Runtime) :
    r.child? = r.held.map (·.1) := by
  obtain ⟨state, handle⟩ := r
  cases handle <;> rfl

theorem Supervisor.Runtime.beginStart_child (r : Supervisor.Runtime) :
    r.beginStart.2.child? = r.child? := by
  obtain ⟨state, handle⟩ := r
  cases state <;> rfl

theorem Supervisor.Runtime.register_child {r r' : Supervisor.Runtime} {handle : Supervisor.Handle}
    {d : Definition} (h : r.register handle d = .ok r') : r'.child? = some handle.child := by
  obtain ⟨state, old⟩ := r
  cases state with
  | starting =>
    rw [Supervisor.Runtime.register_of_starting rfl] at h
    cases h
    rfl
  | _ => cases h

theorem registered_of_neutral {task : Nat} {r : Request} {a : r.Answer} (h : r.isNeutral = true) :
    registered (.step task r a :: acts) = registered acts := by
  cases r with
  | register | recordExit => cases h
  | _ => rfl

/-- The current child is the one that was registered last, if its exit is not recorded. -/
theorem Run.child_eq_registered (h : Run env s acts w) : w.runtime.child? = registered acts := by
  refine Run.induct (J := fun acts w => w.runtime.child? = registered acts) ?_ ?_ ?_ ?_ h
  · intro outside
    rfl
  · intro acts w c hr ih
    exact ih
  · intro acts w w₁ task r k a hr ih hp hperf
    by_cases hn : r.isNeutral = true
    · rw [registered_of_neutral hn, ← ih, Supervisor.Runtime.child?_eq_held w.runtime,
        ← (hperf.drift hn).held]
      exact Supervisor.Runtime.child?_eq_held _
    · cases hperf with
      | registered handle d runtime taken => exact Supervisor.Runtime.register_child taken
      | recorded pid exit t runtime taken =>
        -- the exit is that of the current process, or it would leave the handle alone
        obtain ⟨phase, hf, hg⟩ := hr.guarded
        obtain ⟨y, hy⟩ := hf.pending hp (.ok t)
        obtain ⟨child, hx⟩ := hy.of_recordExit
        obtain ⟨-, hfits⟩ := hg.fits hx rfl
        rw [Supervisor.Runtime.recordExit_of_pid hfits.1.1] at taken
        cases taken
        rfl
      | unrecorded pid exit e refused =>
        obtain ⟨phase, hf, hg⟩ := hr.guarded
        obtain ⟨t, runtime, taken⟩ := hg.accepts hf hp
        rw [taken] at refused
        cases refused
      | beginStart => exact w.runtime.beginStart_child.trans ih
      | query | spawned | unspawned | abortStart | unregistered | observe | event | silence
      | raiseExited => exact ih
      | _ => exact absurd rfl hn
  · intro acts w w' hr ih hh
    rw [hh.runtime]
    exact ih

end Registered

/-! ## The course of a shutdown -/

/-- How far a shutdown has come. -/
inductive Farewell where
  /-- it is no shutdown -/
  | elsewhere
  /-- it has not looked yet -/
  | coming
  /-- it looked and there was no child -/
  | clear
  /-- it found this child and waits for its exit, perhaps after a kill -/
  | waiting (child : Nat) (killed : Bool)
  /-- it was told that the child is gone -/
  | gone (child : Nat)
  /-- it waited in vain, even after the kill -/
  | inVain (child : Nat)
  deriving Repr, DecidableEq

def Farewell.isDone : Farewell → Bool
  | .coming => false
  | .waiting .. => false
  | _ => true

/-- A request that is no step of a shutdown. -/
def Request.isAside : Request → Bool
  | .currentChild => false
  | .killCurrent => false
  | .awaitExit .. => false
  | _ => true

/-- The steps of a shutdown. -/
inductive Leave : Protocol Farewell where
  | elsewhere {r : Request} {a : r.Answer} : Leave .elsewhere r a .elsewhere
  | aside {x : Farewell} {r : Request} {a : r.Answer} (h : r.isAside = true) : Leave x r a x
  | clear : Leave .coming .currentChild none .clear
  | look {child : Nat} : Leave .coming .currentChild (some child) (.waiting child false)
  | gone {child moment : Nat} {killed : Bool} :
      Leave (.waiting child killed) (.awaitExit child moment) true (.gone child)
  | late {child moment : Nat} :
      Leave (.waiting child false) (.awaitExit child moment) false (.waiting child false)
  | kill {child : Nat} : Leave (.waiting child false) .killCurrent () (.waiting child true)
  | inVain {child moment : Nat} :
      Leave (.waiting child true) (.awaitExit child moment) false (.inVain child)

/-- The stage in which a task begins. -/
def Role.farewell : Role → Farewell
  | .call c => if c.isFarewell then .coming else .elsewhere
  | _ => .elsewhere

section Leaving

open Program

variable {α : Type}

theorem Program.leaves_elsewhere (p : Program α) {Q : Farewell → α → Prop}
    (hQ : ∀ a, Q .elsewhere a) : p.Obeys Leave Q .elsewhere := by
  induction p with
  | done a => exact hQ a
  | ask r k ih => exact fun a => ⟨.elsewhere, .elsewhere, ih a⟩

theorem Program.Only.leaves {p : Program α} (h : p.Only Request.isAside) {x : Farewell}
    {Q : Farewell → α → Prop} (hQ : ∀ a, Q x a) : p.Obeys Leave Q x :=
  h.obeys (fun _ _ hr => .aside hr) hQ

theorem aside_stop : Supervisor.stop.Only Request.isAside := only_stop rfl fun _ _ => rfl

theorem waitExited_leaves (child grace : Nat) (killed : Bool) :
    (Supervisor.waitExited child grace).Obeys Leave
      (fun y seen => y = if seen then .gone child else
        if killed then .inVain child else .waiting child false)
      (.waiting child killed) := by
  intro moment
  refine ⟨_, .aside rfl, fun seen => ?_⟩
  cases seen with
  | true => exact ⟨_, .gone, rfl⟩
  | false =>
    cases killed with
    | true => exact ⟨_, .inVain, rfl⟩
    | false => exact ⟨_, .late, rfl⟩

theorem awaitExitOrKill_leaves (child grace : Nat) :
    (Supervisor.awaitExitOrKill child grace).Obeys Leave (fun y _ => y.isDone = true)
      (.waiting child false) := by
  refine obeys_bind.2 ((waitExited_leaves child grace false).mono fun y seen hy => ?_)
  subst hy
  cases seen with
  | true => exact rfl
  | false =>
    refine Obeys.ask fun _ => ⟨_, .kill, (waitExited_leaves child grace true).mono ?_⟩
    intro y seen hy
    subst hy
    cases seen <;> rfl

theorem shutdown_leaves (grace : Nat) :
    (Supervisor.shutdown grace).Obeys Leave (fun y _ => y.isDone = true) .coming := by
  refine Obeys.ask fun child => ?_
  cases child with
  | none => exact ⟨.clear, .clear, rfl⟩
  | some child =>
    have rest : (discard (Supervisor.awaitExitOrKill child grace)).Obeys Leave
        (fun y _ => y.isDone = true) (.waiting child false) :=
      obeys_bind.2 ((awaitExitOrKill_leaves child grace).mono fun _ _ hy => hy)
    refine ⟨_, .look, Obeys.ask fun state => ⟨_, .aside rfl, ?_⟩⟩
    dsimp only
    split
    · exact obeys_bind.2 ((aside_stop.bind fun _ => only_done).leaves fun _ => rest)
    · exact rest

theorem deactivate_leaves (s : Service) :
    (Activation.deactivate s).Obeys Leave (fun y _ => y.isDone = true) .coming := by
  have finish : ((Supervisor.shutdown s.shutdownGrace).bind fun _ => query .closeOutput).Obeys
      Leave (fun y _ => y.isDone = true) .coming := by
    refine obeys_bind.2 ((shutdown_leaves _).mono fun y _ hy => ?_)
    exact fun _ => ⟨y, .aside rfl, hy⟩
  refine Obeys.ask fun _ => ⟨_, .aside rfl, Obeys.ask fun check => ⟨_, .aside rfl, ?_⟩⟩
  cases check with
  | none => exact finish
  | some check => exact fun _ => ⟨_, .aside rfl, fun _ => ⟨_, .aside rfl, finish⟩⟩

/-- **Every shutdown keeps to the protocol**, and nobody else is bound by it. -/
theorem Role.leaves (s : Service) (ρ : Role) :
    (ρ.program s).Obeys Leave (Closes (fun y => y.isDone = true) ρ.farewell) ρ.farewell := by
  -- every other program may do what it likes
  have elsewhere : ∀ p : Program Flow,
      p.Obeys Leave (Closes (fun y => y.isDone = true) .elsewhere) .elsewhere := fun p =>
    p.leaves_elsewhere fun flow => by cases flow <;> rfl
  cases ρ with
  | call c =>
    cases c with
    | shutdown grace =>
      refine obeys_bind.2 (obeys_bind.2 ((shutdown_leaves grace).mono fun _ _ hy => hy))
    | deactivate => exact obeys_bind.2 (obeys_bind.2 ((deactivate_leaves s).mono fun _ _ hy => hy))
    | _ => exact elsewhere _
  | _ => exact elsewhere _

end Leaving

/-! ## What a shutdown knows -/

section Telling

variable {ε : Type} {env : Environment ε} {rs : Roles} {s : Service} {acts : List Act}
  {w w' w₁ : World ε} {task : Nat}

/-- The exit of the child has been dealt with. -/
def World.Exited (w : World ε) (child : Nat) : Prop :=
  ∃ c, w.children[child]? = some c ∧ c.exited = true

/-- Children stay, and so do their exits. -/
def World.Outlives (w w' : World ε) : Prop :=
  ∀ (i : Nat) (c : Child), w.children[i]? = some c →
    ∃ c', w'.children[i]? = some c' ∧ (c.exited = true → c'.exited = true)

theorem World.Outlives.ofEq (h : w'.children = w.children) : w.Outlives w' :=
  fun _ c hc => ⟨c, h ▸ hc, id⟩

theorem World.Outlives.ofChild {i : Nat} {f : Child → Child}
    (hf : ∀ c : Child, c.exited = true → (f c).exited = true)
    (h : w'.children = w.children.modify i f) : w.Outlives w' := by
  intro j c hc
  refine ⟨if i = j then f c else c, ?_, fun he => ?_⟩
  · rw [h, List.getElem?_modify, hc]
    rfl
  · split
    · exact hf c he
    · exact he

theorem World.Outlives.ofDrift (h : w.Drift w') : w.Outlives w' := by
  intro i c hc
  have hlt : i < w'.children.length := h.length ▸ (List.getElem?_eq_some_iff.1 hc).1
  obtain ⟨c₀, hc₀, hf⟩ := h.child i _ (List.getElem?_eq_getElem hlt)
  obtain rfl : c = c₀ := Option.some.inj (hc.symm.trans hc₀)
  exact ⟨_, List.getElem?_eq_getElem hlt, fun he => hf.exited.trans he⟩

theorem World.Performed.outlives {r : Request} {a : r.Answer}
    (h : World.Performed env rs w task r a w₁) : w.Outlives w₁ := by
  by_cases hn : r.isNeutral = true
  · exact .ofDrift (h.drift hn)
  · cases h with
    | spawned spec pid told =>
      intro i c hc
      exact ⟨c, by simpa using List.getElem?_append_left (List.getElem?_eq_some_iff.1 hc).1 ▸ hc, id⟩
    | event child c e rest => exact .ofDrift (w.take_drift child rest)
    | raiseExited child => exact .ofChild (fun _ _ => rfl) rfl
    | query | unspawned | beginStart | abortStart | registered | unregistered | recorded
    | unrecorded | observe | silence => exact .ofEq rfl
    | _ => exact absurd rfl hn

/-- The task looked for the current child, and this was the one. -/
def Looked (task : Nat) (acts : List Act) (child : Option Nat) : Prop :=
  ∃ earlier, acts = sinceLook task acts ++ .step task .currentChild child :: earlier ∧
    registered earlier = child

theorem Looked.now {child : Option Nat} (h : registered acts = child) :
    Looked task (.step task .currentChild child :: acts) child :=
  ⟨acts, by simp [sinceLook, Act.isLookOf], h⟩

theorem Looked.cons {child : Option Nat} {x : Act} (hx : x.isLookOf task = false)
    (h : Looked task acts child) : Looked task (x :: acts) child := by
  obtain ⟨earlier, heq, hr⟩ := h
  refine ⟨earlier, ?_, hr⟩
  rw [sinceLook_cons hx, List.cons_append, ← heq]

/-- What the stage of a shutdown says about the acts so far and about the child it waits for. -/
def Farewell.Tells (task : Nat) (acts : List Act) (w : World ε) : Farewell → Prop
  | .elsewhere => True
  | .coming => True
  | .clear => Looked task acts none
  | .waiting child k => Looked task acts (some child) ∧ (∃ c, w.children[child]? = some c) ∧
      (k = true → killed task acts = true)
  | .gone child => Looked task acts (some child) ∧ w.Exited child
  | .inVain _ => missed task acts = true

theorem Farewell.Tells.outlives {x : Farewell} (h : x.Tells task acts w) (hw : w.Outlives w') :
    x.Tells task acts w' := by
  cases x with
  | waiting child k =>
    obtain ⟨hl, ⟨c, hc⟩, hk⟩ := h
    obtain ⟨c', hc', -⟩ := hw child c hc
    exact ⟨hl, ⟨c', hc'⟩, hk⟩
  | gone child =>
    obtain ⟨hl, c, hc, he⟩ := h
    obtain ⟨c', hc', he'⟩ := hw child c hc
    exact ⟨hl, c', hc', he' he⟩
  | _ => exact h

/-- A shutdown looks only once, so nothing that it does later is another look. -/
theorem Farewell.Tells.cons {x : Farewell} {act : Act} (hact : act.isLookOf task = false)
    (h : x.Tells task acts w) : x.Tells task (act :: acts) w := by
  cases x with
  | elsewhere => trivial
  | coming => trivial
  | clear => exact Looked.cons hact h
  | waiting child k => exact ⟨h.1.cons hact, h.2.1, fun hk => killed_cons act (h.2.2 hk)⟩
  | gone child => exact ⟨h.1.cons hact, h.2⟩
  | inVain child => exact missed_cons act h

/-- The current child exists, and its exit has not been dealt with. -/
theorem Run.unraised_of_child (h : Run env s acts w) {child : Nat}
    (hc : w.runtime.child? = some child) : w.Unraised child := by
  rw [Supervisor.Runtime.child?_eq_held] at hc
  obtain ⟨⟨i, pid⟩, hheld, rfl⟩ := Option.map_eq_some_iff.1 hc
  obtain ⟨phase, -, hg⟩ := h.guarded
  obtain ⟨j, hx | hx | hx⟩ := hg.holder hheld
  · exact (hg.fits hx rfl).2.2.1
  · exact (hg.fits hx rfl).2.2.1
  · exact (hg.fits hx rfl).2.2.1

theorem Act.isLookOf_of_ne {i : Nat} {r : Request} {a : r.Answer} (h : i ≠ task) :
    (Act.step i r a).isLookOf task = false := by
  cases r with
  | currentChild => simp [Act.isLookOf, h]
  | _ => rfl

theorem Request.isLookOf_of_aside {r : Request} {a : r.Answer} (h : r.isAside = true) (i : Nat) :
    (Act.step i r a).isLookOf task = false := by
  cases r with
  | currentChild => cases h
  | _ => rfl

/-- One step of the task itself. -/
theorem Leave.tells {x y : Farewell} {r : Request} {a : r.Answer} (hp : Leave x r a y)
    (hr : Run env s acts w) (h : World.Performed env s.roles w task r a w₁)
    (hx : x.Tells task acts w) : y.Tells task (.step task r a :: acts) w₁ := by
  cases hp with
  | elsewhere => trivial
  | aside hn => exact (hx.outlives h.outlives).cons (Request.isLookOf_of_aside hn task)
  | clear =>
    generalize ha : (none : Option Nat) = a at h
    cases h with
    | currentChild =>
      rw [← ha]
      exact Looked.now (hr.child_eq_registered.symm.trans ha.symm)
  | @look child =>
    generalize ha : some child = a at h
    cases h with
    | currentChild =>
      -- the answer is the current child, which is the one registered last
      obtain ⟨c, hc, -⟩ := hr.unraised_of_child ha.symm
      rw [← ha]
      exact ⟨Looked.now (hr.child_eq_registered.symm.trans ha.symm), ⟨c, hc⟩, nofun⟩
  | gone =>
    obtain ⟨hl, ⟨c, hc⟩, -⟩ := hx
    cases h with
    | exited child moment seen =>
      refine ⟨hl.cons rfl, c, hc, ?_⟩
      simpa [World.hasExited, hc] using seen
  | late => exact (hx.outlives h.outlives).cons rfl
  | kill => exact ⟨hx.1.cons rfl, (hx.outlives h.outlives).2.1, fun _ => by simp [killed]⟩
  | inVain =>
    have hk := hx.2.2 rfl
    simp [Farewell.Tells, missed, hk]

theorem Leave.ne_elsewhere {x y : Farewell} {r : Request} {a : r.Answer} (hp : Leave x r a y)
    (hx : x ≠ .elsewhere) : y ≠ .elsewhere := by
  cases hp with
  | elsewhere => exact hx
  | aside => exact hx
  | _ => exact nofun

/-- A task that has just begun knows nothing. -/
theorem Role.farewell_tells (ρ : Role) : ρ.farewell.Tells task acts w := by
  cases ρ with
  | call c => cases c <;> trivial
  | _ => trivial

/-- All shutdowns are right in what they know, and none is taken for something else. -/
structure Told (stage : Nat → Farewell) (acts : List Act) (w : World ε) : Prop where
  tells : ∀ i, (stage i).Tells i acts w
  role : ∀ (i : Nat) (c : Call), (roles acts)[i]? = some (.call c) → c.isFarewell = true →
    stage i ≠ .elsewhere

theorem Told.call {stage : Nat → Farewell} (ht : Told stage acts w) (hr : Run env s acts w)
    (c : Call) : Told (Function.update stage w.tasks.length (Role.farewell (.call c)))
      (.call c :: acts) (w.addTask (c.program s)).2 where
  tells i := by
    by_cases hi : i = w.tasks.length
    · subst hi
      rw [Function.update_self]
      exact Role.farewell_tells _
    · rw [Function.update_of_ne hi]
      exact ((ht.tells i).outlives (.ofEq rfl)).cons rfl
  role i c' hi hc' := by
    rcases roles_cons_cases hi with ⟨hlt, hold⟩ | ⟨rfl, hb⟩
    · rw [hr.roles_length] at hlt
      rw [Function.update_of_ne (Nat.ne_of_lt hlt)]
      exact ht.role i c' hold hc'
    · obtain rfl : c = c' := by
        injection hb with hb
        injection hb
      rw [hr.roles_length, Function.update_self]
      simp [Role.farewell, hc']

theorem Told.act {stage : Nat → Farewell} (ht : Told stage acts w) (hr : Run env s acts w)
    {r : Request} {k : r.Answer → Program Flow} {a : r.Answer} {y : Farewell}
    (hpend : w.pending task = some ⟨r, k⟩) (h : World.Performed env s.roles w task r a w₁)
    (hp : Leave (stage task) r a y) {f : Task → Task} :
    Told (advance Role.farewell w.tasks.length stage task r y) (.step task r a :: acts)
      (w₁.changeTask task f) where
  tells i := by
    by_cases hi : i = task
    · subst hi
      rw [advance_self]
      exact (hp.tells hr h (ht.tells i)).outlives (.ofEq rfl)
    · have old : (stage i).Tells i (.step task r a :: acts) (w₁.changeTask task f) :=
        ((ht.tells i).outlives h.outlives).cons (Act.isLookOf_of_ne (Ne.symm hi))
      simp only [advance, hi, if_false]
      split
      · cases hb : r.birth? with
        | none => exact old
        | some ρ => exact ρ.farewell_tells
      · exact old
  role i c hi hc := by
    have hlt := World.lt_of_pending hpend
    rcases roles_cons_cases hi with ⟨hlti, hold⟩ | ⟨rfl, hb⟩
    · rw [hr.roles_length] at hlti
      by_cases hit : i = task
      · subst hit
        rw [advance_self]
        exact hp.ne_elsewhere (ht.role i c hold hc)
      · rw [advance_old hit hlti]
        exact ht.role i c hold hc
    · -- a request starts observers and update checks, but makes no calls
      cases r <;> cases hb

/-- **What a shutdown knows is the case, in every run.** -/
theorem Run.told (h : Run env s acts w) :
    ∃ stage, w.Follows Leave (fun y => y.isDone = true) stage ∧ Told stage acts w := by
  refine Run.simulate (Role.leaves s) (fun outside => ?_) (fun c hr _ ht => ht.call hr c)
    (fun hr _ ht hpend h hP => ht.act hr hpend h hP) (fun _ _ ht hh => ?_) h
  · exact ⟨fun _ => trivial, fun i c hi => by simp [roles] at hi⟩
  · exact ⟨fun i => (ht.tells i).outlives (.ofDrift hh.drift), ht.role⟩

end Telling

/-! ## What is left -/

/-- Every call has returned. -/
def World.AllReturned {ε : Type} (acts : List Act) (w : World ε) : Prop :=
  ∀ (i : Nat) (c : Call), (roles acts)[i]? = some (.call c) → (w.result? i).isSome = true

section Left

variable {ε : Type} {env : Environment ε} {s : Service} {acts : List Act} {w : World ε}

/-- Once every call has returned a server that has no child is stopped. -/
theorem Run.stopped_of_returned (h : Run env s acts w) (hover : w.AllReturned acts)
    (hc : w.runtime.child? = none) : w.runtime.state = .stopped ∧ w.NoneAlive := by
  obtain ⟨phase, hf, hg⟩ := h.guarded
  obtain ⟨o, ho, hfits⟩ := hg.custodian
  cases o with
  | none => exact ⟨hfits.1.1, hfits.2⟩
  | some i =>
    have hcust : (phase i).hasCustody = true := (ho i).2 rfl
    have hlt : i < (roles acts).length := by
      rw [h.roles_length]
      by_contra hge
      rw [hg.unborn i (Nat.le_of_not_lt hge)] at hcust
      cases hcust
    have hrole := List.getElem?_eq_getElem hlt
    have hallow := hg.role i _ hrole
    rw [Supervisor.Runtime.child?_eq_held] at hc
    -- the custodian is no call, for those are through, so it observes a child
    cases hρ : (roles acts)[i] with
    | call c =>
      rw [hρ] at hrole
      rcases h.done_of_returned hf hrole nofun (hover i c hrole) with hx | hx <;>
        · rw [hx] at hcust
          cases hcust
    | observer child pid =>
      rw [hρ] at hallow
      have hfits : (phase i).Fits w := hfits
      cases hx : phase i with
      | watching c p =>
        rw [hx] at hfits
        rw [hfits.1.2] at hc
        cases hc
      | bereft c p =>
        rw [hx] at hfits
        rw [hfits.1.2] at hc
        cases hc
      | _ => simp [hx, Role.allows, ServerPhase.hasCustody] at hallow hcust
    | check =>
      rw [hρ] at hallow
      cases hx : phase i <;> simp [hx, Role.allows, ServerPhase.hasCustody] at hallow hcust

theorem Run.child_of_stopped (h : Run env s acts w) (hs : w.runtime.state = .stopped) :
    w.runtime.child? = none := by
  obtain ⟨phase, -, hg⟩ := h.guarded
  obtain ⟨-, hfits⟩ := hg.none_of_stopped hs
  rw [Supervisor.Runtime.child?_eq_held, hfits.1.2]
  rfl

/-- A shutdown that has returned looked for the current child; the one that it found is gone, unless
even the kill was in vain. -/
theorem Run.looked_of_returned (h : Run env s acts w) {farewell : Nat} {c : Call}
    (hi : (roles acts)[farewell]? = some (.call c)) (hc : c.isFarewell = true)
    (hres : (w.result? farewell).isSome = true) (hkill : missed farewell acts = false) :
    ∃ child, Looked farewell acts child ∧ ∀ i, child = some i → w.Exited i := by
  obtain ⟨stage, hf, ht⟩ := h.told
  have hdone := h.done_of_returned hf hi nofun hres
  have htell := ht.tells farewell
  have hne := ht.role farewell c hi hc
  cases hx : stage farewell with
  | elsewhere => exact absurd hx hne
  | clear =>
    rw [hx] at htell
    exact ⟨none, htell, nofun⟩
  | gone i =>
    rw [hx] at htell
    exact ⟨some i, htell.1, fun _ hi => Option.some.inj hi ▸ htell.2⟩
  | inVain i =>
    rw [hx] at htell
    have hmissed : missed farewell acts = true := htell
    rw [hkill] at hmissed
    cases hmissed
  | _ => simp [hx, Farewell.isDone] at hdone

/-- **What a shutdown leaves behind.** Once a shutdown, or deactivation, and every other call have
returned, and provided that the shutdown did not wait in vain after its kill, the server is stopped and
every child is dead exactly if of the children that were registered since the shutdown looked none is
left: there were none, or the exit of the last one is recorded. -/
theorem Run.stopped_for_good_iff (h : Run env s acts w) {farewell : Nat} {c : Call}
    (hi : (roles acts)[farewell]? = some (.call c)) (hc : c.isFarewell = true)
    (hover : w.AllReturned acts) (hkill : missed farewell acts = false) :
    (w.runtime.state = .stopped ∧ w.NoneAlive) ↔ registered (sinceLook farewell acts) = none := by
  obtain ⟨child, ⟨earlier, hacts, hlook⟩, hgone⟩ :=
    h.looked_of_returned hi hc (hover farewell c hi) hkill
  have hreg : w.runtime.child? = registered (sinceLook farewell acts ++
      .step farewell .currentChild child :: earlier) := hacts ▸ h.child_eq_registered
  have happend := registered_append (sinceLook farewell acts)
    (.step farewell .currentChild child :: earlier)
  constructor
  · -- a stopped server has no child, so none that was registered since
    rintro ⟨hs, -⟩
    rw [h.child_of_stopped hs] at hreg
    rcases happend with ⟨hn, -⟩ | heq
    · exact hn
    · exact heq.symm.trans hreg.symm
  · intro hn
    refine h.stopped_of_returned hover ?_
    rcases happend with ⟨-, heq⟩ | heq
    · -- nothing was registered since, so the current child would be the one that is gone
      rw [heq] at hreg
      cases child with
      | none => exact hreg.trans hlook
      | some i =>
        obtain ⟨c₁, hc₁, hun⟩ := h.unraised_of_child (hreg.trans hlook)
        obtain ⟨c₂, hc₂, hex⟩ := hgone i rfl
        obtain rfl : c₁ = c₂ := Option.some.inj (hc₁.symm.trans hc₂)
        rw [hun] at hex
        cases hex
    · exact hreg.trans (heq.trans hn)

/-- The server runs and is shut down: the signal makes the child exit. -/
def Rehearsal.farewell : List (Move Script) :=
  started ++ .call (.shutdown 500) :: List.replicate 5 (.step 2) ++ List.replicate 6 (.step 1) ++
    List.replicate 2 (.step 2)

/-- Of a server that was shut down in time nothing is left. -/
theorem stopped_by_shutdown : ∃ acts w,
    Run Rehearsal.Script.environment Rehearsal.sample acts w ∧ w.children.length = 1 ∧
    w.runtime.state = .stopped ∧ w.NoneAlive := by
  have hr := Rehearsal.run_scene { exitOnTerminate := some {} } Rehearsal.farewell
  have hroles : roles (Rehearsal.scene { exitOnTerminate := some {} } Rehearsal.farewell).1 =
      [.call .start, .observer 0 4000, .call (.shutdown 500)] := by decide +kernel
  refine ⟨_, _, hr, by decide +kernel, (hr.stopped_for_good_iff (congrArg (·[2]?) hroles) rfl ?_
    (by decide +kernel)).2 (by decide +kernel)⟩
  intro i c hi
  rw [hroles] at hi
  match i with
  | 0 => decide +kernel
  | 1 => cases hi
  | 2 => decide +kernel
  | _ + 3 => cases hi

/-- A start waits for the user's consent when the service is deactivated; then the user agrees. -/
def Rehearsal.lateConsent : List (Move Script) :=
  .call .start :: List.replicate 4 (.step 0) ++ .call .deactivate :: List.replicate 5 (.step 1) ++
    .turn { toolPath := none, prompts := [.answered (some Tool.installChoice)] } ::
    List.replicate 13 (.step 0)

/-- Deactivation can leave the server running: both calls have returned, there was no other, no kill was
in vain, and the child that the start has brought is alive. -/
theorem left_running_by_deactivate : ∃ acts w c,
    Run Rehearsal.Script.environment Rehearsal.sample acts w ∧
    roles acts = [.call .start, .call .deactivate, .observer 0 4000] ∧
    w.AllReturned acts ∧ missed 1 acts = false ∧
    w.runtime.state ≠ .stopped ∧ w.children[0]? = some c ∧ c.alive = true := by
  have hr := Rehearsal.run_scene { toolPath := none, answers := [.hold] } Rehearsal.lateConsent
  have hroles : roles (Rehearsal.scene { toolPath := none, answers := [.hold] }
      Rehearsal.lateConsent).1 = [.call .start, .call .deactivate, .observer 0 4000] := by
    decide +kernel
  refine ⟨_, _, ⟨4000, .stdio, true, true, [], true, false⟩, hr, hroles, ?_, by decide +kernel,
    by decide +kernel, by decide +kernel, rfl⟩
  intro i c hi
  rw [hroles] at hi
  match i with
  | 0 => decide +kernel
  | 1 => decide +kernel
  | 2 => cases hi
  | _ + 3 => cases hi

end Left

end Steward
