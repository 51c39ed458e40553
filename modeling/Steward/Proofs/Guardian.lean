import Steward.Proofs.Custody

/-!
# What the custodian guarantees

The phase of the one task that has custody says what the state of the server is, which child the
supervisor holds and which children can be alive (`ServerPhase.Fits`); if nobody has custody the server is
stopped, nothing is held and every child is dead. `Guarded` is the invariant of runs, and
`Run.guarded` proves it: a neutral request only lets the world drift, and every other step of the
protocol is one of thirteen cases.

A process id never identifies a child here. It may be that of an earlier child, and the argument does not
mind: the exit that an observer records is that of the child it has custody of.
-/

set_option autoImplicit false

namespace Steward

/-- The child and the process id of the handle. -/
def Supervisor.Runtime.held (r : Supervisor.Runtime) : Option (Nat × Nat) :=
  r.handle.map fun h => (h.child, h.pid)

namespace World

variable {ε : Type}

def NoneAlive (w : World ε) : Prop :=
  ∀ (i : Nat) (c : Child), w.children[i]? = some c → c.alive = false

/-- Every child apart from the given one is dead. -/
def OnlyAlive (w : World ε) (child : Nat) : Prop :=
  ∀ (i : Nat) (c : Child), w.children[i]? = some c → c.alive = true → i = child

/-- The child exists and nobody was told of its exit. -/
def Unraised (w : World ε) (child : Nat) : Prop :=
  ∃ c, w.children[child]? = some c ∧ c.exited = false

/-- The server runs, or is about to stop, with the given child. -/
def Holds (w : World ε) (child pid : Nat) : Prop :=
  w.runtime.state.pid? = some pid ∧ w.runtime.held = some (child, pid)

/-- The server is stopped, or is being started, and no child is registered. -/
def Vacant (w : World ε) (state : Lifecycle.State) : Prop :=
  w.runtime.state = state ∧ w.runtime.held = none

end World

namespace ServerPhase

/-- The child that the task has custody of. -/
def child? : ServerPhase → Option Nat
  | .spawned child _ => some child
  | .registered child _ => some child
  | .watching child _ => some child
  | .bereft child _ => some child
  | _ => none

theorem child?_of_not_custody {x : ServerPhase} (h : x.hasCustody = false) : x.child? = none := by
  cases x <;> first | rfl | cases h

/-- The world as it is while a task in this phase has custody, and as it is while nobody has. -/
def Fits {ε : Type} (w : World ε) : ServerPhase → Prop
  | .starting => w.Vacant .starting ∧ w.NoneAlive
  | .spawned child _ => w.Vacant .starting ∧ w.Unraised child ∧ w.OnlyAlive child
  | .registered child pid => w.Holds child pid ∧ w.Unraised child ∧ w.OnlyAlive child
  | .watching child pid => w.Holds child pid ∧ w.Unraised child ∧ w.OnlyAlive child
  | .bereft child pid => w.Holds child pid ∧ w.Unraised child ∧ w.NoneAlive
  | _ => w.Vacant .stopped ∧ w.NoneAlive

end ServerPhase

/-! ## Drifting -/

/-- A child that has not come to life again and whose exit has not been told. -/
structure Child.Fades (c c' : Child) : Prop where
  exited : c'.exited = c.exited
  alive : c'.alive = true → c.alive = true

theorem Child.Fades.refl (c : Child) : c.Fades c := ⟨rfl, id⟩

/-- What a world may do without any step of the protocol: a stop begins or is taken back, streams are
handed out, children die. -/
structure World.Drift {ε : Type} (w w' : World ε) : Prop where
  pid : w'.runtime.state.pid? = w.runtime.state.pid?
  starting : w'.runtime.state = .starting ↔ w.runtime.state = .starting
  held : w'.runtime.held = w.runtime.held
  length : w'.children.length = w.children.length
  child : ∀ (i : Nat) (c' : Child), w'.children[i]? = some c' →
    ∃ c, w.children[i]? = some c ∧ c.Fades c'

theorem Lifecycle.State.eq_stopped_iff {s : Lifecycle.State} :
    s = .stopped ↔ s.pid? = none ∧ s ≠ .starting := by
  cases s <;> simp [Lifecycle.State.pid?]

namespace World.Drift

variable {ε : Type} {w w' : World ε}

theorem noneAlive (h : w.Drift w') (hw : w.NoneAlive) : w'.NoneAlive := by
  intro i c' hc'
  obtain ⟨c, hc, hf⟩ := h.child i c' hc'
  by_contra ha
  have := hf.alive (by simpa using ha)
  simp [hw i c hc] at this

theorem onlyAlive (h : w.Drift w') {child : Nat} (hw : w.OnlyAlive child) : w'.OnlyAlive child := by
  intro i c' hc' ha
  obtain ⟨c, hc, hf⟩ := h.child i c' hc'
  exact hw i c hc (hf.alive ha)

theorem unraised (h : w.Drift w') {child : Nat} (hw : w.Unraised child) : w'.Unraised child := by
  obtain ⟨c, hc, he⟩ := hw
  have hlt : child < w'.children.length := h.length ▸ (List.getElem?_eq_some_iff.1 hc).1
  obtain ⟨c₀, hc₀, hf⟩ := h.child child _ (List.getElem?_eq_getElem hlt)
  obtain rfl : c = c₀ := Option.some.inj (hc.symm.trans hc₀)
  exact ⟨_, List.getElem?_eq_getElem hlt, hf.exited.trans he⟩

theorem holds (h : w.Drift w') {child pid : Nat} (hw : w.Holds child pid) : w'.Holds child pid :=
  ⟨h.pid.trans hw.1, h.held.trans hw.2⟩

theorem vacant_starting (h : w.Drift w') (hw : w.Vacant .starting) : w'.Vacant .starting :=
  ⟨h.starting.2 hw.1, h.held.trans hw.2⟩

theorem vacant_stopped (h : w.Drift w') (hw : w.Vacant .stopped) : w'.Vacant .stopped := by
  obtain ⟨hp, hs⟩ := Lifecycle.State.eq_stopped_iff.1 hw.1
  exact ⟨Lifecycle.State.eq_stopped_iff.2 ⟨h.pid.trans hp, fun hc => hs (h.starting.1 hc)⟩,
    h.held.trans hw.2⟩

theorem fits (h : w.Drift w') {x : ServerPhase} (hx : x.Fits w) : x.Fits w' := by
  cases x with
  | starting => exact ⟨h.vacant_starting hx.1, h.noneAlive hx.2⟩
  | spawned child pid => exact ⟨h.vacant_starting hx.1, h.unraised hx.2.1, h.onlyAlive hx.2.2⟩
  | registered child pid => exact ⟨h.holds hx.1, h.unraised hx.2.1, h.onlyAlive hx.2.2⟩
  | watching child pid => exact ⟨h.holds hx.1, h.unraised hx.2.1, h.onlyAlive hx.2.2⟩
  | bereft child pid => exact ⟨h.holds hx.1, h.unraised hx.2.1, h.noneAlive hx.2.2⟩
  | _ => exact ⟨h.vacant_stopped hx.1, h.noneAlive hx.2⟩

theorem trans {w'' : World ε} (h : w.Drift w') (h' : w'.Drift w'') : w.Drift w'' where
  pid := h'.pid.trans h.pid
  starting := h'.starting.trans h.starting
  held := h'.held.trans h.held
  length := h'.length.trans h.length
  child i c'' hc'' := by
    obtain ⟨c', hc', hf'⟩ := h'.child i c'' hc''
    obtain ⟨c, hc, hf⟩ := h.child i c' hc'
    exact ⟨c, hc, hf'.exited.trans hf.exited, fun ha => hf.alive (hf'.alive ha)⟩

/-- The runtime and the children are as they were. -/
theorem ofEq (hr : w'.runtime = w.runtime) (hc : w'.children = w.children) : w.Drift w' where
  pid := by rw [hr]
  starting := by rw [hr]
  held := by rw [hr]
  length := by rw [hc]
  child i c' hc' := ⟨c', hc ▸ hc', .refl c'⟩

/-- One child fades. -/
theorem ofChild {i : Nat} {f : Child → Child} (hf : ∀ c : Child, c.Fades (f c))
    (hr : w'.runtime = w.runtime) (hc : w'.children = w.children.modify i f) : w.Drift w' where
  pid := by rw [hr]
  starting := by rw [hr]
  held := by rw [hr]
  length := by rw [hc, List.length_modify]
  child j c' hc' := by
    rw [hc, List.getElem?_modify] at hc'
    obtain ⟨c, hc, rfl⟩ := Option.map_eq_some_iff.1 hc'
    refine ⟨c, hc, ?_⟩
    split
    · exact hf c
    · exact .refl c

end World.Drift

theorem Child.emit_fades (c : Child) (e : ChildEvent) : c.Fades (c.emit e) := by
  unfold Child.emit
  split
  · cases e with
    | exited exit => exact ⟨rfl, fun ha => by simp at ha⟩
    | _ => exact ⟨rfl, id⟩
  · exact .refl c

theorem Child.Alone.fades {f : Child → Child} (hf : Child.Alone f) (c : Child) : c.Fades (f c) := by
  cases hf with
  | nothing => exact .refl c
  | tell e => exact c.emit_fades e
  | vanish => exact ⟨rfl, fun ha => by simp [Child.vanish] at ha⟩
  | die => exact ⟨rfl, fun ha => by simp at ha⟩

section Drifting

variable {ε : Type} {env : Environment ε} {rs : Roles} {w w' w₁ : World ε} {task : Nat}

theorem World.Hush.drift (h : w.Hush w') : w.Drift w' := by
  obtain ⟨i, f, hf, hc⟩ := h.children
  exact .ofChild hf.fades h.runtime hc

theorem World.exitNow_drift (child : Nat) (e : Option Exit) : w.Drift (w.exitNow child e) := by
  cases e with
  | none => exact .ofEq rfl rfl
  | some exit => exact .ofChild (fun c => c.emit_fades _) rfl rfl

theorem World.take_drift (w : World ε) (child : Nat) (rest : List ChildEvent) :
    w.Drift (w.changeChild child ({ · with events := rest })) :=
  .ofChild (f := ({ · with events := rest })) (fun _ => ⟨rfl, id⟩) rfl rfl

/-- Stopping is no step of the protocol: the custodian stays what it is. -/
theorem World.Stopped.drift {a : Request.StopResult} (h : World.Stopped env w task a w₁) :
    w.Drift w₁ := by
  cases h with
  | delivered pid d h state handle =>
    have begun : w.Drift ({ w with runtime := ⟨.stopping pid d, some h⟩ }.ask env task
        (.terminate h.child h.pid)).2 := {
      pid := by rw [state]; rfl
      starting := by rw [state]; simp [World.ask]
      held := by simp [Supervisor.Runtime.held, handle, World.ask]
      length := rfl
      child := fun i c' hc' => ⟨c', hc', .refl c'⟩ }
    exact begun.trans (World.exitNow_drift _ _)
  | undelivered pid d h e state handle =>
    exact (World.Drift.ofEq rfl rfl : w.Drift (w.ask env task (.terminate h.child h.pid)).2).trans
      (World.exitNow_drift _ _)
  | _ => exact .ofEq rfl rfl

theorem Supervisor.Runtime.takeStreams_held (r : Supervisor.Runtime) :
    r.takeStreams.2.held = r.held := by
  unfold Supervisor.Runtime.takeStreams Supervisor.Runtime.held
  cases hh : r.handle <;> simp [hh]

theorem Supervisor.Runtime.takeStreams_state (r : Supervisor.Runtime) :
    r.takeStreams.2.state = r.state := by
  unfold Supervisor.Runtime.takeStreams
  cases r.handle <;> rfl

theorem World.Performed.drift {r : Request} {a : r.Answer} (h : World.Performed env rs w task r a w₁)
    (hr : r.isNeutral = true) : w.Drift w₁ := by
  cases h with
  | stop a w₁ hs => exact hs.drift
  | killed h handle =>
    exact (World.Drift.ofEq rfl rfl : w.Drift (w.ask env task (.kill h.child h.pid)).2).trans
      (World.exitNow_drift _ _)
  | takeStreams =>
    exact {
      pid := congrArg _ (w.runtime.takeStreams_state)
      starting := by rw [w.runtime.takeStreams_state]
      held := w.runtime.takeStreams_held
      length := rfl
      child := fun i c' hc' => ⟨c', hc', .refl c'⟩ }
  | query | prompted | commanded | readState | restartTarget | currentChild | unkilled
  | announceChange | deadline | exited | timeout | spawnCheck | swapCheck | takeCheck
  | cancelCheck | awaitCheck => exact .ofEq rfl rfl
  | _ => cases hr

end Drifting

/-! ## Children over a run -/

/-- What one request can do to one child. -/
inductive Child.Touched (r : Request) (i : Nat) (c : Child) : Child → Prop where
  | same : Child.Touched r i c c
  | tell (e : ChildEvent) : Child.Touched r i c (c.emit e)
  | took (e : ChildEvent) (rest : List ChildEvent) (events : c.events = e :: rest) :
      Child.Touched r i c { c with events := rest }
  | raised (request : r = .raiseExited i) :
      Child.Touched r i c { c with exited := true, heard := false }

/-- A child that reports its exit, or has no more to report, is dead. -/
def Child.Honest (c : Child) : Prop :=
  (c.speaking = false ∨ ∃ exit, .exited exit ∈ c.events) → c.alive = false

section Children

variable {ε : Type} {env : Environment ε} {rs : Roles} {s : Service} {w w' w₁ : World ε} {task : Nat}

theorem World.modify_touched {r : Request} {i j : Nat} {f : Child → Child} {c : Child}
    (hf : ∀ c₀, w.children[j]? = some c₀ → j = i → c₀.Touched r i (f c₀))
    (hc : (w.children.modify j f)[i]? = some c) :
    ∃ c₀, w.children[i]? = some c₀ ∧ c₀.Touched r i c := by
  rw [List.getElem?_modify] at hc
  obtain ⟨c₀, hc₀, rfl⟩ := Option.map_eq_some_iff.1 hc
  refine ⟨c₀, hc₀, ?_⟩
  split
  · rename_i hj
    exact hf c₀ (hj ▸ hc₀) hj
  · exact .same

theorem World.exitNow_touched {r : Request} {i j : Nat} {e : Option Exit} {c : Child}
    (hc : (w'.exitNow j e).children[i]? = some c) (hw : w'.children = w.children) :
    ∃ c₀, w.children[i]? = some c₀ ∧ c₀.Touched r i c := by
  rw [← hw]
  cases e with
  | none => exact ⟨c, hc, .same⟩
  | some exit => exact World.modify_touched (fun _ _ _ => .tell _) hc

/-- A child behind a request is one from before, perhaps touched, or the one that was just started. -/
theorem World.Performed.child_cases {r : Request} {a : r.Answer}
    (h : World.Performed env rs w task r a w₁) {i : Nat} {c : Child}
    (hc : w₁.children[i]? = some c) :
    (∃ c₀, w.children[i]? = some c₀ ∧ c₀.Touched r i c) ∨
    i = w.children.length ∧ ∃ spec pid, r = .spawn spec ∧
      c = { pid := pid, transport := spec.transport } := by
  cases h with
  | spawned spec pid =>
    simp only at hc
    rw [List.getElem?_append] at hc
    split at hc
    · exact .inl ⟨c, hc, .same⟩
    · rw [List.getElem?_singleton] at hc
      split at hc
      · exact .inr ⟨by omega, spec, pid, rfl, (Option.some.inj hc).symm⟩
      · cases hc
  | stop a w₁ hs =>
    cases hs with
    | delivered pid d h => exact .inl (World.exitNow_touched hc rfl)
    | undelivered pid d h e => exact .inl (World.exitNow_touched hc rfl)
    | _ => exact .inl ⟨c, hc, .same⟩
  | killed h => exact .inl (World.exitNow_touched hc rfl)
  | event child c' e rest found events =>
    refine .inl (World.modify_touched (fun c₀ h₀ _ => ?_) hc)
    obtain rfl : c' = c₀ := Option.some.inj (found.symm.trans h₀)
    exact .took e rest events
  | raiseExited child => exact .inl (World.modify_touched (fun c₀ _ hi => .raised (hi ▸ rfl)) hc)
  | _ => exact .inl ⟨c, hc, .same⟩

theorem Child.Touched.honest {r : Request} {i : Nat} {c c' : Child} (ht : c.Touched r i c')
    (h : c.Honest) : c'.Honest := by
  cases ht with
  | same => exact h
  | tell e =>
    unfold Child.emit
    split
    · rename_i hs
      cases e with
      | exited exit => exact fun _ => rfl
      | _ =>
        rintro (hf | ⟨exit, he⟩)
        · simp [hs] at hf
        · exact h (.inr ⟨exit, by simpa using he⟩)
    · exact h
  | took e rest events =>
    rintro (hf | ⟨exit, he⟩)
    · exact h (.inl hf)
    · exact h (.inr ⟨exit, by rw [events]; exact List.mem_cons_of_mem _ he⟩)
  | raised => exact h

theorem Child.Alone.honest {f : Child → Child} (hf : Child.Alone f) {c : Child} (h : c.Honest) :
    (f c).Honest := by
  cases hf with
  | nothing => exact h
  | tell e => exact (Child.Touched.tell e : c.Touched (.raiseExited 0) 0 _).honest h
  | vanish => exact fun _ => rfl
  | die => exact fun _ => rfl

theorem Run.honest {acts : List Act} (h : Run env s acts w) :
    ∀ (i : Nat) (c : Child), w.children[i]? = some c → c.Honest := by
  refine Run.induct (J := fun _ w => ∀ (i : Nat) (c : Child), w.children[i]? = some c → c.Honest)
    ?_ ?_ ?_ ?_ h
  · intro outside i c hc
    simp at hc
  · intro acts w c hr ih
    exact ih
  · intro acts w w₁ task r k a hr ih hp hperf i c hc
    rcases hperf.child_cases hc with ⟨c₀, hc₀, ht⟩ | ⟨-, spec, pid, -, rfl⟩
    · exact ht.honest (ih i c₀ hc₀)
    · rintro (hf | ⟨exit, he⟩)
      · cases hf
      · cases he
  · intro acts w w' hr ih hh i c hc
    obtain ⟨j, f, hf, hch⟩ := hh.children
    rw [hch, List.getElem?_modify] at hc
    obtain ⟨c₀, hc₀, rfl⟩ := Option.map_eq_some_iff.1 hc
    split
    · exact hf.honest (ih i c₀ hc₀)
    · exact ih i c₀ hc₀

end Children

/-! ## The supervisor's own steps -/

namespace Supervisor.Runtime

variable {r : Supervisor.Runtime}

theorem beginStart_of_open (h : r.beginStart.1 = .open) :
    r.state = .stopped ∧ r.beginStart.2 = ⟨.starting, r.handle⟩ := by
  obtain ⟨state, handle⟩ := r
  cases state with
  | stopped => exact ⟨rfl, rfl⟩
  | _ => cases h

theorem beginStart_of_not_open (h : r.beginStart.1 ≠ .open) : r.beginStart.2 = r := by
  obtain ⟨state, handle⟩ := r
  cases state with
  | stopped => exact absurd rfl h
  | _ => rfl

theorem abortStart_of_starting (h : r.state = .starting) (reason : String) :
    r.abortStart reason = ⟨.stopped, r.handle⟩ := by
  obtain ⟨state, handle⟩ := r
  subst h
  rfl

theorem register_of_starting (h : r.state = .starting) (handle : Handle) (d : Definition) :
    r.register handle d = .ok ⟨.running handle.pid d, some handle⟩ := by
  obtain ⟨state, old⟩ := r
  subst h
  simp [register, Lifecycle.apply, Lifecycle.State.next, Lifecycle.Event.effects]

/-- The exit of the current process ends it all, whether a stop was under way or not. -/
theorem recordExit_of_pid {pid : Nat} (h : r.state.pid? = some pid) (exit : Exit) :
    r.recordExit pid exit = .ok (⟨true, r.state, .stopped, [.clearHandle, .definitionChanged]⟩,
      ⟨.stopped, none⟩) := by
  obtain ⟨state, handle⟩ := r
  cases state with
  | running p d =>
    obtain rfl : p = pid := Option.some.inj h
    simp [recordExit, Lifecycle.apply, Lifecycle.State.next, Lifecycle.Event.effects]
  | stopping p d =>
    obtain rfl : p = pid := Option.some.inj h
    simp [recordExit, Lifecycle.apply, Lifecycle.State.next, Lifecycle.Event.effects]
  | _ => cases h

end Supervisor.Runtime

/-! ## The one custodian -/

/-- The task that has custody; nobody else has. -/
def Custodian (phase : Nat → ServerPhase) (o : Option Nat) : Prop :=
  ∀ i, (phase i).hasCustody = true ↔ o = some i

namespace Custodian

variable {phase : Nat → ServerPhase} {o : Option Nat} {task : Nat} {y : ServerPhase}

theorem eq_some (h : Custodian phase o) (hx : (phase task).hasCustody = true) : o = some task :=
  (h task).1 hx

/-- A task stays in custody, or takes it when nobody has it. -/
theorem take (h : Custodian phase o) (ho : o = none ∨ o = some task)
    (hy : y.hasCustody = true) : Custodian (Function.update phase task y) (some task) := by
  intro i
  by_cases hi : i = task
  · subst hi; simp [hy]
  · rw [Function.update_of_ne hi, h i]
    rcases ho with rfl | rfl <;> simp [Ne.symm hi]

/-- A task gives custody up. -/
theorem release (h : Custodian phase (some task)) (hy : y.hasCustody = false) :
    Custodian (Function.update phase task y) none := by
  intro i
  by_cases hi : i = task
  · subst hi; simp [hy]
  · rw [Function.update_of_ne hi, h i]
    simp [Ne.symm hi]

/-- Someone has custody and the world is as that one's phase tells. -/
theorem take_fits {ε : Type} {w : World ε} (h : Custodian phase o) (ho : o = none ∨ o = some task)
    (hy : y.hasCustody = true) (hf : y.Fits w) :
    ∃ o, Custodian (Function.update phase task y) o ∧
      ((o.map (Function.update phase task y)).getD .free).Fits w :=
  ⟨some task, h.take ho hy, by simpa using hf⟩

theorem release_fits {ε : Type} {w : World ε} (h : Custodian phase (some task))
    (hy : y.hasCustody = false) (hf : ServerPhase.free.Fits w) :
    ∃ o, Custodian (Function.update phase task y) o ∧
      ((o.map (Function.update phase task y)).getD .free).Fits w :=
  ⟨none, h.release hy, hf⟩

/-- A task goes its way without custody. -/
theorem other (h : Custodian phase o) (hx : (phase task).hasCustody = false)
    (hy : y.hasCustody = false) : Custodian (Function.update phase task y) o := by
  intro i
  by_cases hi : i = task
  · subst hi
    simp only [Function.update_self, hy, Bool.false_eq_true, false_iff]
    exact fun ho => by simp [(h i).2 ho] at hx
  · rw [Function.update_of_ne hi, h i]

theorem other_fits {ε : Type} {w : World ε} (h : Custodian phase o)
    (hx : (phase task).hasCustody = false) (hy : y.hasCustody = false)
    (hf : ((o.map phase).getD .free).Fits w) :
    ∃ o, Custodian (Function.update phase task y) o ∧
      ((o.map (Function.update phase task y)).getD .free).Fits w := by
  refine ⟨o, h.other hx hy, ?_⟩
  cases o with
  | none => exact hf
  | some i =>
    have hi : i ≠ task := fun hi => by simp [(h task).2 (congrArg some hi)] at hx
    simpa [Function.update_of_ne hi] using hf

end Custodian

/-- Whether a task has begun a start and neither registered its child nor given up. -/
def underWay (task : Nat) : List Act → Bool
  | [] => false
  | .call _ :: acts => underWay task acts
  | .step t r a :: acts =>
    if t = task then
      match r, a with
      | .beginStart, .open => true
      | .abortStart _, _ => false
      | .register _ _, _ => false
      | _, _ => underWay task acts
    else underWay task acts

/-- The invariant of runs. -/
structure Guarded {ε : Type} (phase : Nat → ServerPhase) (acts : List Act) (w : World ε) : Prop where
  unborn : ∀ i, w.tasks.length ≤ i → phase i = .aside
  custodian : ∃ o, Custodian phase o ∧ ((o.map phase).getD .free).Fits w
  /-- an exit is recorded before the next child is started -/
  recorded : ∀ i child, phase i = .recorded child →
    child < w.children.length ∧ ∀ j, (phase j).child? ≠ some child
  underWay : ∀ i, underWay i acts = (phase i).isStart
  role : ∀ (i : Nat) (ρ : Role), (roles acts)[i]? = some ρ → ρ.allows (phase i) = true

/-! ## From phase to phase -/

namespace ServerPhase.Fits

variable {ε : Type} {w w' : World ε} {child pid : Nat}

theorem enter (h : ServerPhase.free.Fits w) (hopen : w.runtime.beginStart.1 = .open) :
    ServerPhase.starting.Fits { w with runtime := w.runtime.beginStart.2 } := by
  obtain ⟨-, hr⟩ := Supervisor.Runtime.beginStart_of_open hopen
  refine ⟨⟨by rw [hr], ?_⟩, h.2⟩
  rw [hr]
  exact h.1.2

theorem abort (h : ServerPhase.starting.Fits w) (reason : String) :
    ServerPhase.free.Fits { w with runtime := w.runtime.abortStart reason } := by
  have hr := Supervisor.Runtime.abortStart_of_starting h.1.1 reason
  refine ⟨⟨by rw [hr], ?_⟩, h.2⟩
  rw [hr]
  exact h.1.2

/-- The new child is the only one alive, for all others were dead before. -/
theorem spawn (h : ServerPhase.starting.Fits w) {c : Child} (hc : c.exited = false)
    (hr : w'.runtime = w.runtime) (hw : w'.children = w.children ++ [c]) :
    (ServerPhase.spawned w.children.length pid).Fits w' := by
  refine ⟨⟨hr ▸ h.1.1, hr ▸ h.1.2⟩, ⟨c, by simp [hw], hc⟩, fun i c' hc' ha => ?_⟩
  rw [hw, List.getElem?_append] at hc'
  split at hc'
  · simp [h.2 i c' hc'] at ha
  · rw [List.getElem?_singleton] at hc'
    split at hc'
    · omega
    · cases hc'

theorem register (h : (ServerPhase.spawned child pid).Fits w) {streams : Bool} {d : Definition} :
    (ServerPhase.registered child pid).Fits
      { w with runtime := ⟨.running pid d, some ⟨child, pid, streams⟩⟩ } :=
  ⟨⟨rfl, rfl⟩, h.2⟩

theorem bereave (h : (ServerPhase.watching child pid).Fits w)
    (hdead : ∀ c, w.children[child]? = some c → c.alive = false) :
    (ServerPhase.bereft child pid).Fits w := by
  refine ⟨h.1, h.2.1, fun i c hc => ?_⟩
  by_contra ha
  obtain rfl := h.2.2 i c hc (by simpa using ha)
  exact ha (hdead c hc)

theorem record (h : (ServerPhase.bereft child pid).Fits w) :
    ServerPhase.free.Fits { w with runtime := ⟨.stopped, none⟩ } :=
  ⟨⟨rfl, rfl⟩, h.2.2⟩

/-- Telling of an exit concerns nobody who has custody of another child. -/
theorem raise {x : ServerPhase} (h : x.Fits w) (hx : x.child? ≠ some child) :
    x.Fits (w.changeChild child ({ · with exited := true, heard := false })) := by
  -- the flag is all that changes, and nobody in custody looks at this child's
  have old : ∀ (i : Nat) (c' : Child),
      (w.children.modify child ({ · with exited := true, heard := false }))[i]? = some c' →
      ∃ c, w.children[i]? = some c ∧ c'.alive = c.alive := by
    intro i c' hc'
    rw [List.getElem?_modify] at hc'
    obtain ⟨c, hc, rfl⟩ := Option.map_eq_some_iff.1 hc'
    exact ⟨c, hc, by split <;> rfl⟩
  have dead : w.NoneAlive →
      (w.changeChild child ({ · with exited := true, heard := false })).NoneAlive := by
    intro hn i c' hc'
    obtain ⟨c, hc, ha⟩ := old i c' hc'
    exact ha.trans (hn i c hc)
  have only : ∀ j, w.OnlyAlive j →
      (w.changeChild child ({ · with exited := true, heard := false })).OnlyAlive j := by
    intro j hj i c' hc' ha'
    obtain ⟨c, hc, ha⟩ := old i c' hc'
    exact hj i c hc (ha ▸ ha')
  have unraised : ∀ j, j ≠ child → w.Unraised j →
      (w.changeChild child ({ · with exited := true, heard := false })).Unraised j := by
    intro j hj ⟨c, hc, he⟩
    exact ⟨c, by simp [World.changeChild, Ne.symm hj, hc], he⟩
  have ne : ∀ j, x.child? = some j → j ≠ child := fun j hj hjc => hx (hj.trans (congrArg some hjc))
  cases x with
  | starting => exact ⟨h.1, dead h.2⟩
  | spawned j p => exact ⟨h.1, unraised j (ne j rfl) h.2.1, only j h.2.2⟩
  | registered j p => exact ⟨h.1, unraised j (ne j rfl) h.2.1, only j h.2.2⟩
  | watching j p => exact ⟨h.1, unraised j (ne j rfl) h.2.1, only j h.2.2⟩
  | bereft j p => exact ⟨h.1, unraised j (ne j rfl) h.2.1, dead h.2.2⟩
  | _ => exact ⟨h.1, dead h.2⟩

end ServerPhase.Fits

section Guarding

variable {ε : Type} {env : Environment ε} {s : Service} {phase phase' : Nat → ServerPhase}
  {acts : List Act} {w w' w₁ : World ε} {task : Nat} {r : Request} {a : r.Answer} {y : ServerPhase}

theorem Request.birth?_of_neutral (h : r.isNeutral = true) (ρ : Role) (hb : r.birth? = some ρ) :
    ρ = .check := by
  cases r with
  | spawnCheck => exact (Option.some.inj hb).symm
  | observe child pid => cases h
  | _ => cases hb

theorem underWay_of_neutral (h : r.isNeutral = true) (i : Nat) :
    underWay i (.step task r a :: acts) = underWay i acts := by
  cases r with
  | beginStart | abortStart | register => cases h
  | _ => simp [underWay]

/-- A neutral request moves nobody. -/
theorem Guarded.advance_neutral (hg : Guarded phase acts w) (h : r.isNeutral = true)
    (hlt : task < w.tasks.length) :
    advance Role.phase w.tasks.length phase task r (phase task) = phase := by
  cases hb : r.birth? with
  | none => rw [advance_eq_update hb, Function.update_eq_self]
  | some ρ =>
    obtain rfl := Request.birth?_of_neutral h ρ hb
    rw [advance_eq_birth (Nat.ne_of_gt hlt) hb, Function.update_eq_self]
    have hn : phase w.tasks.length = Role.phase .check := hg.unborn _ (Nat.le_refl _)
    rw [← hn, Function.update_eq_self]

theorem Guarded.advance_unborn (hg : Guarded phase acts w) (hlt : task < w.tasks.length)
    (h : World.Performed env s.roles w task r a w₁) (i : Nat) (hi : w₁.tasks.length ≤ i) :
    advance Role.phase w.tasks.length phase task r y i = .aside := by
  rw [h.tasks_length] at hi
  have hold : phase i = .aside := hg.unborn i (by omega)
  have hit : i ≠ task := by omega
  cases hb : r.birth? with
  | none => rw [advance_eq_update hb, Function.update_of_ne hit, hold]
  | some ρ =>
    have hin : i ≠ w.tasks.length := by simp [hb] at hi; omega
    rw [advance_eq_birth (Nat.ne_of_gt hlt) hb, Function.update_of_ne hin,
      Function.update_of_ne hit, hold]

theorem Guarded.advance_role (hg : Guarded phase acts w) (hr : Run env s acts w)
    (hlt : task < w.tasks.length) (hp : Handover (phase task) r a y) (i : Nat) (ρ : Role)
    (hi : (roles (.step task r a :: acts))[i]? = some ρ) :
    ρ.allows (advance Role.phase w.tasks.length phase task r y i) = true := by
  rcases roles_cons_cases hi with ⟨hlti, hold⟩ | ⟨rfl, hb⟩
  · rw [hr.roles_length] at hlti
    by_cases hit : i = task
    · subst hit
      rw [advance_self]
      exact hp.allows (hg.role i ρ hold)
    · rw [advance_old hit hlti]
      exact hg.role i ρ hold
  · rw [hr.roles_length, advance_eq_birth (Nat.ne_of_gt hlt) hb, Function.update_self]
    exact ρ.allows_phase

/-- Nobody records an exit in this step, and a child that comes into custody is new or changes hands. -/
theorem Guarded.recorded_of (hg : Guarded phase acts w)
    (hlen : w.children.length ≤ w'.children.length)
    (hrec : ∀ i child, phase' i = .recorded child → phase i = .recorded child)
    (hchild : ∀ j child, (phase' j).child? = some child →
      (∃ i, (phase i).child? = some child) ∨ w.children.length ≤ child) :
    ∀ i child, phase' i = .recorded child →
      child < w'.children.length ∧ ∀ j, (phase' j).child? ≠ some child := by
  intro i child hi
  -- a new child has a number that no recorded one can have
  obtain ⟨hlt, hne⟩ := hg.recorded i child (hrec i child hi)
  refine ⟨Nat.lt_of_lt_of_le hlt hlen, fun j hj => ?_⟩
  rcases hchild j child hj with ⟨i', hi'⟩ | hge
  · exact hne i' hi'
  · omega

/-- `Guarded.recorded_of` when one task goes on to another phase. -/
theorem Guarded.recorded_update (hg : Guarded phase acts w)
    (hlen : w.children.length ≤ w'.children.length) (hrec : ∀ child, y ≠ .recorded child)
    (hchild : ∀ child, y.child? = some child →
      (phase task).child? = some child ∨ w.children.length ≤ child) :
    ∀ i child, Function.update phase task y i = .recorded child →
      child < w'.children.length ∧
        ∀ j, (Function.update phase task y j).child? ≠ some child := by
  refine hg.recorded_of hlen (fun i child hi => ?_) fun j child hj => ?_
  · by_cases hit : i = task
    · subst hit
      rw [Function.update_self] at hi
      exact absurd hi (hrec child)
    · rwa [Function.update_of_ne hit] at hi
  · by_cases hjt : j = task
    · subst hjt
      rw [Function.update_self] at hj
      exact (hchild child hj).imp (fun h => ⟨j, h⟩) id
    · rw [Function.update_of_ne hjt] at hj
      exact .inl ⟨j, hj⟩

/-- The custodian records the exit of its child, and then nobody has custody of any. -/
theorem Guarded.recorded_release (hg : Guarded phase acts w) (ho : Custodian phase (some task))
    {child : Nat} (hlt : child < w.children.length) :
    ∀ i child', Function.update phase task (.recorded child) i = .recorded child' →
      child' < w.children.length ∧
        ∀ j, (Function.update phase task (.recorded child) j).child? ≠ some child' := by
  have hrel := ho.release (rfl : (ServerPhase.recorded child).hasCustody = false)
  refine fun i child' hi => ⟨?_, fun j => ?_⟩
  · by_cases hit : i = task
    · subst hit
      rw [Function.update_self] at hi
      cases hi
      exact hlt
    · rw [Function.update_of_ne hit] at hi
      exact (hg.recorded i child' hi).1
  · have hj := (hrel j).not.2 (by simp)
    simp [ServerPhase.child?_of_not_custody (Bool.not_eq_true _ ▸ hj)]

/-- The starts under way are those of before, apart from the task that acted. -/
theorem Guarded.underWay_update (hg : Guarded phase acts w)
    (h : Steward.underWay task (.step task r a :: acts) = y.isStart) (i : Nat) :
    Steward.underWay i (.step task r a :: acts) = (Function.update phase task y i).isStart := by
  by_cases hi : i = task
  · subst hi
    rw [h, Function.update_self]
  · rw [Function.update_of_ne hi, ← hg.underWay i]
    simp [Steward.underWay, Ne.symm hi]

/-- The custodian's phase tells how the world is. -/
theorem Guarded.fits (hg : Guarded phase acts w) {x : ServerPhase} (hx : phase task = x)
    (hc : x.hasCustody = true) : Custodian phase (some task) ∧ x.Fits w := by
  subst hx
  obtain ⟨o, ho, hf⟩ := hg.custodian
  obtain rfl := ho.eq_some hc
  exact ⟨ho, hf⟩

theorem ServerPhase.Fits.not_stopped {x : ServerPhase} (hx : x.hasCustody = true) (hf : x.Fits w) :
    w.runtime.state ≠ .stopped := by
  intro h
  cases x with
  | starting => cases h.symm.trans hf.1.1
  | spawned child pid => cases h.symm.trans hf.1.1
  | registered child pid => have hp := hf.1.1; rw [h] at hp; cases hp
  | watching child pid => have hp := hf.1.1; rw [h] at hp; cases hp
  | bereft child pid => have hp := hf.1.1; rw [h] at hp; cases hp
  | _ => cases hx

/-- Whoever has custody of the current child. -/
theorem Guarded.holder (hg : Guarded phase acts w) {child pid : Nat}
    (hh : w.runtime.held = some (child, pid)) :
    ∃ i, phase i = .registered child pid ∨ phase i = .watching child pid ∨
      phase i = .bereft child pid := by
  obtain ⟨o, ho, hf⟩ := hg.custodian
  have vacant : ∀ {state}, ¬ w.Vacant state := fun hv => by simp [hv.2] at hh
  have same : ∀ {c p}, w.Holds c p → c = child ∧ p = pid := fun hc =>
    Prod.mk.inj (Option.some.inj (hc.2.symm.trans hh))
  cases o with
  | none => exact absurd hf.1 vacant
  | some i =>
    refine ⟨i, ?_⟩
    generalize hx : phase i = x
    simp only [Option.map_some, Option.getD_some, hx] at hf
    cases x with
    | registered c p => obtain ⟨rfl, rfl⟩ := same hf.1; exact .inl rfl
    | watching c p => obtain ⟨rfl, rfl⟩ := same hf.1; exact .inr (.inl rfl)
    | bereft c p => obtain ⟨rfl, rfl⟩ := same hf.1; exact .inr (.inr rfl)
    | _ => exact absurd hf.1 vacant

/-- A stopped server is in nobody's custody. -/
theorem Guarded.none_of_stopped (hg : Guarded phase acts w) (h : w.runtime.state = .stopped) :
    Custodian phase none ∧ ServerPhase.free.Fits w := by
  obtain ⟨o, ho, hf⟩ := hg.custodian
  cases o with
  | none => exact ⟨ho, hf⟩
  | some i => exact absurd h (hf.not_stopped ((ho i).2 rfl))

/-- A request of the task `task` that starts no other one: what is left to show. -/
theorem Guarded.act_of (hg : Guarded phase acts w) (hr : Run env s acts w)
    (hlt : task < w.tasks.length) (hp : Handover (phase task) r a y)
    (h : World.Performed env s.roles w task r a w₁) {f : Task → Task}
    (hcust : ∃ o, Custodian (advance Role.phase w.tasks.length phase task r y) o ∧
      ((o.map (advance Role.phase w.tasks.length phase task r y)).getD .free).Fits w₁)
    (hrec : ∀ i child, advance Role.phase w.tasks.length phase task r y i = .recorded child →
      child < w₁.children.length ∧
        ∀ j, (advance Role.phase w.tasks.length phase task r y j).child? ≠ some child)
    (hway : ∀ i, Steward.underWay i (.step task r a :: acts) =
      (advance Role.phase w.tasks.length phase task r y i).isStart) :
    Guarded (advance Role.phase w.tasks.length phase task r y) (.step task r a :: acts)
      (w₁.changeTask task f) where
  unborn i hi := hg.advance_unborn hlt h i (by simpa [World.changeTask] using hi)
  custodian := hcust
  recorded := hrec
  underWay := hway
  role := hg.advance_role hr hlt hp

/-- The same in terms of the one task that goes on to another phase. -/
theorem Guarded.act_update (hg : Guarded phase acts w) (hr : Run env s acts w)
    (hlt : task < w.tasks.length) (hp : Handover (phase task) r a y)
    (h : World.Performed env s.roles w task r a w₁) {f : Task → Task} (hb : r.birth? = none)
    (hcust : ∃ o, Custodian (Function.update phase task y) o ∧
      ((o.map (Function.update phase task y)).getD .free).Fits w₁)
    (hrec : ∀ i child, Function.update phase task y i = .recorded child →
      child < w₁.children.length ∧
        ∀ j, (Function.update phase task y j).child? ≠ some child)
    (hway : Steward.underWay task (.step task r a :: acts) = y.isStart) :
    Guarded (advance Role.phase w.tasks.length phase task r y) (.step task r a :: acts)
      (w₁.changeTask task f) := by
  refine hg.act_of hr hlt hp h ?_ ?_ ?_
  · rwa [advance_eq_update hb]
  · rwa [advance_eq_update hb]
  · rw [advance_eq_update hb]
    exact hg.underWay_update hway

/-- Custody goes from the start to the observer, the task with the next number. -/
theorem Guarded.observe (hg : Guarded phase acts w) (hr : Run env s acts w)
    (hlt : task < w.tasks.length) {child pid : Nat} (hx : phase task = .registered child pid)
    {f : Task → Task} :
    Guarded (advance Role.phase w.tasks.length phase task (.observe child pid) .free)
      (.step task (.observe child pid) () :: acts)
      ((w.addTask (s.roles.observer child pid)).2.changeTask task f) := by
  obtain ⟨ho, hf⟩ := hg.fits hx rfl
  have hn : w.tasks.length ≠ task := Nat.ne_of_gt hlt
  have hbirth : (Request.observe child pid).birth? = some (.observer child pid) := rfl
  refine hg.act_of hr hlt (hx ▸ .observe) (.observe child pid) ?_ ?_ ?_ <;>
    rw [advance_eq_birth hn hbirth]
  · exact (ho.release rfl).take_fits (.inl rfl) rfl hf
  · refine hg.recorded_of (Nat.le_refl _) (fun i child' hi => ?_) fun j child' hj => ?_
    · simp only [Function.update_apply] at hi
      split at hi
      · cases hi
      · split at hi
        · cases hi
        · exact hi
    · simp only [Function.update_apply] at hj
      split at hj
      · exact .inl ⟨task, by rw [hx]; exact hj⟩
      · split at hj
        · cases hj
        · exact .inl ⟨j, hj⟩
  · intro i
    have hway : Steward.underWay i (.step task (.observe child pid) () :: acts) =
        (phase i).isStart := by
      rw [← hg.underWay i]
      simp [Steward.underWay]
    rw [hway]
    simp only [Function.update_apply]
    split
    · rename_i hi
      rw [hi, hg.unborn _ (Nat.le_refl _)]
      rfl
    · split
      · rename_i hi
        rw [hi, hx]
        rfl
      · rfl

/-- **One act keeps the invariant**, step by step of the protocol. -/
theorem Guarded.act (hg : Guarded phase acts w) (hr : Run env s acts w)
    (hlt : task < w.tasks.length) (hp : Handover (phase task) r a y)
    (h : World.Performed env s.roles w task r a w₁) {f : Task → Task} :
    Guarded (advance Role.phase w.tasks.length phase task r y) (.step task r a :: acts)
      (w₁.changeTask task f) := by
  have step := hg.act_update hr hlt hp h (f := f)
  generalize hx : phase task = x at hp
  cases hp with
  | neutral hn =>
    subst hx
    have hadv := hg.advance_neutral hn hlt
    obtain ⟨o, ho, hf⟩ := hg.custodian
    have hd := h.drift hn
    -- nobody moves, and the world drifts within the phase of whoever has custody
    refine hg.act_of hr hlt (.neutral hn) h ?_ ?_ ?_
    · rw [hadv]
      exact ⟨o, ho, hd.fits hf⟩
    · rw [hadv, hd.length]
      exact hg.recorded
    · rw [hadv]
      intro i
      rw [underWay_of_neutral hn, hg.underWay]
  | enter =>
    generalize ha : Supervisor.StartGate.open = gate at h
    cases h with
    | beginStart =>
      -- the gate is open only when the server is stopped, and then nobody has custody
      obtain ⟨ho, hf⟩ := hg.none_of_stopped (Supervisor.Runtime.beginStart_of_open ha.symm).1
      rw [← ha]
      refine step rfl (ho.take_fits (.inl rfl) rfl (hf.enter ha.symm)) ?_ ?_
      · exact hg.recorded_update (Nat.le_refl _) (by simp) (by simp [ServerPhase.child?])
      · simp [Steward.underWay, ServerPhase.isStart]
  | pass hne =>
    cases h with
    | beginStart =>
      have same := Supervisor.Runtime.beginStart_of_not_open hne
      have hup : Function.update phase task .free = phase := hx ▸ Function.update_eq_self task phase
      refine step rfl ?_ ?_ ?_
      · rw [same, hup]
        exact hg.custodian
      · rw [hup]
        exact hg.recorded
      · rw [← hx, ← hg.underWay task]
        simp only [Steward.underWay, if_true]
        split <;> simp_all
  | abort =>
    cases h with
    | abortStart reason =>
      obtain ⟨ho, hf⟩ := hg.fits hx rfl
      refine step rfl (ho.release_fits rfl (hf.abort _)) ?_ ?_
      · exact hg.recorded_update (Nat.le_refl _) (by simp) (by simp [ServerPhase.child?])
      · simp [Steward.underWay, ServerPhase.isStart]
  | spawn =>
    cases h with
    | spawned spec pid =>
      obtain ⟨ho, hf⟩ := hg.fits hx rfl
      refine step rfl (ho.take_fits (.inr rfl) rfl (hf.spawn rfl rfl rfl)) ?_ ?_
      · exact hg.recorded_update (by simp) (by simp) (by simp [ServerPhase.child?])
      · simp [Steward.underWay, ServerPhase.isStart, hg.underWay, hx]
  | unspawned =>
    cases h with
    | unspawned spec e =>
      obtain ⟨ho, hf⟩ := hg.fits hx rfl
      refine step rfl (ho.take_fits (.inr rfl) rfl hf) ?_ ?_
      · exact hg.recorded_update (Nat.le_refl _) (by simp) (by simp [ServerPhase.child?])
      · simp [Steward.underWay, ServerPhase.isStart, hg.underWay, hx]
  | register =>
    cases h with
    | registered handle d runtime taken =>
      obtain ⟨ho, hf⟩ := hg.fits hx rfl
      rw [Supervisor.Runtime.register_of_starting hf.1.1] at taken
      cases taken
      refine step rfl (ho.take_fits (.inr rfl) rfl hf.register) ?_ ?_
      · exact hg.recorded_update (Nat.le_refl _) (by simp) (by simp [ServerPhase.child?, hx])
      · simp [Steward.underWay, ServerPhase.isStart]
  | unregistered =>
    cases h with
    | unregistered handle d e refused =>
      -- a start under way is never refused its child
      obtain ⟨-, hf⟩ := hg.fits hx rfl
      rw [Supervisor.Runtime.register_of_starting hf.1.1] at refused
      cases refused
  | @observe child pid =>
    cases h with
    | observe => exact hg.observe hr hlt hx
  | @event child pid e hne =>
    cases h with
    | event _ c _ rest found events =>
      obtain ⟨ho, hf⟩ := hg.fits hx rfl
      have hd := w.take_drift child rest
      refine step rfl (ho.take_fits (.inr rfl) rfl (hd.fits hf)) ?_ ?_
      · exact hg.recorded_update (Nat.le_of_eq hd.length.symm) (by simp)
          (by simp [ServerPhase.child?, hx])
      · simp [Steward.underWay, ServerPhase.isStart, hg.underWay, hx]
  | @exit child pid exit =>
    cases h with
    | event _ c _ rest found events =>
      obtain ⟨ho, hf⟩ := hg.fits hx rfl
      have hd := w.take_drift child rest
      -- a child that reports its exit is dead, whenever the report is taken
      have hdead : c.alive = false := hr.honest _ c found (.inr ⟨exit, by simp [events]⟩)
      have hb := hf.bereave fun c' hc' => by
        obtain rfl : c = c' := Option.some.inj (found.symm.trans hc')
        exact hdead
      refine step rfl (ho.take_fits (.inr rfl) rfl (hd.fits hb)) ?_ ?_
      · exact hg.recorded_update (Nat.le_of_eq hd.length.symm) (by simp)
          (by simp [ServerPhase.child?, hx])
      · simp [Steward.underWay, ServerPhase.isStart, hg.underWay, hx]
  | silence =>
    cases h with
    | silence child ended =>
      obtain ⟨ho, hf⟩ := hg.fits hx rfl
      have hb := hf.bereave fun c hc => hr.honest _ c hc (.inl (ended c hc).2)
      refine step rfl (ho.take_fits (.inr rfl) rfl hb) ?_ ?_
      · exact hg.recorded_update (Nat.le_refl _) (by simp) (by simp [ServerPhase.child?, hx])
      · simp [Steward.underWay, ServerPhase.isStart, hg.underWay, hx]
  | @record child pid exit _ =>
    -- the pid is that of the state because the child is the custodian's own
    obtain ⟨ho, hf⟩ := hg.fits hx rfl
    have recorded := Supervisor.Runtime.recordExit_of_pid hf.1.1
    cases h with
    | unrecorded pid exit e refused => rw [recorded] at refused; cases refused
    | recorded pid exit t runtime taken =>
      rw [recorded] at taken
      cases taken
      refine step rfl (ho.release_fits rfl hf.record) (hg.recorded_release ho ?_) ?_
      · obtain ⟨c, hc, -⟩ := hf.2.1
        exact (List.getElem?_eq_some_iff.1 hc).1
      · simp [Steward.underWay, ServerPhase.isStart, hg.underWay, hx]
  | @raise child =>
    cases h with
    | raiseExited =>
      -- by now another task may have custody, but of another child
      obtain ⟨o, ho, hf⟩ := hg.custodian
      obtain ⟨hlen, hne⟩ := hg.recorded task child hx
      refine step rfl (ho.other_fits (hx ▸ rfl) rfl (hf.raise ?_)) ?_ ?_
      · cases o with
        | none => simp [ServerPhase.child?]
        | some i => exact hne i
      · exact hg.recorded_update (by simp [World.changeChild]) (by simp) (by simp [ServerPhase.child?])
      · simp [Steward.underWay, ServerPhase.isStart, hg.underWay, hx]

theorem Guarded.call (hg : Guarded phase acts w) (hr : Run env s acts w) (c : Call) :
    Guarded (Function.update phase w.tasks.length .free) (.call c :: acts)
      (w.addTask (c.program s)).2 := by
  have hn : phase w.tasks.length = .aside := hg.unborn _ (Nat.le_refl _)
  obtain ⟨o, ho, hf⟩ := hg.custodian
  refine ⟨fun i hi => ?_, ho.other_fits (hn ▸ rfl) rfl hf, ?_, fun i => ?_, fun i ρ hi => ?_⟩
  · simp only [World.addTask, List.length_append, List.length_singleton] at hi
    rw [Function.update_of_ne (by omega)]
    exact hg.unborn i (by omega)
  · exact hg.recorded_update (Nat.le_refl _) (by simp) (by simp [ServerPhase.child?])
  · by_cases hi : i = w.tasks.length
    · subst hi
      rw [Function.update_self]
      exact (hg.underWay _).trans (by rw [hn]; rfl)
    · rw [Function.update_of_ne hi]
      exact hg.underWay i
  · rcases roles_cons_cases hi with ⟨hlt, hold⟩ | ⟨rfl, hb⟩
    · rw [hr.roles_length] at hlt
      rw [Function.update_of_ne (Nat.ne_of_lt hlt)]
      exact hg.role i ρ hold
    · obtain rfl := Option.some.inj hb
      rw [hr.roles_length, Function.update_self]
      rfl

theorem Guarded.hush (hg : Guarded phase acts w) (h : w.Hush w') : Guarded phase acts w' := by
  obtain ⟨o, ho, hf⟩ := hg.custodian
  refine ⟨fun i hi => hg.unborn i (h.tasks_length ▸ hi), ⟨o, ho, h.drift.fits hf⟩, ?_,
    hg.underWay, hg.role⟩
  rw [h.drift.length]
  exact hg.recorded

theorem Guarded.start (outside : ε) :
    Guarded (fun _ => Role.phase .check) [] { outside := outside } := by
  refine ⟨fun _ _ => rfl, ⟨none, fun i => ?_, ⟨rfl, rfl⟩, ?_⟩, ?_, fun _ => rfl, ?_⟩
  · simp [Role.phase, ServerPhase.hasCustody]
  · intro i c hc
    simp at hc
  · intro i child hi
    cases hi
  · intro i ρ hi
    simp [roles] at hi

/-- **The invariant holds in every run**, with every task where the protocol has brought it. -/
theorem Run.guarded (h : Run env s acts w) :
    ∃ phase, w.Follows Handover ServerPhase.IsIdle phase ∧ Guarded phase acts w :=
  Run.simulate (Role.obeys s) Guarded.start (fun c hr _ hg => hg.call hr c)
    (fun hr _ hg hp hperf hP => hg.act hr (World.lt_of_pending hp) hP hperf)
    (fun _ _ hg hh => hg.hush hh) h

end Guarding

end Steward
