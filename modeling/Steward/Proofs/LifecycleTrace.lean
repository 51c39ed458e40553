import Steward.Lifecycle

/-!
# Effects along the life of a server

The effects of a change are picked by the event alone, its target by the table of changes. That the two
go together is a fact about steps (`turn`) that carries over to whole runs: whoever carries out the
effects holds the process that the state names, and is told of a new definition when there is one.
Refused events and the exits of other processes leave no trace: the run without them has the same steps.
-/

set_option autoImplicit false

namespace Steward.Lifecycle

/-- An event, what became of it and the state behind it. -/
abbrev Step := Event × Except Refusal Transition × State

/-- A refused event has no effects. -/
def effectsOf : Except Refusal Transition → List Effect
  | .ok t => t.effects
  | .error _ => []

def effectsIn (steps : List Step) : List Effect := steps.flatMap fun x => effectsOf x.2.1

/-- What is in hand after an effect is carried out. -/
def Effect.onHandle (held : Option Nat) : Effect → Option Nat
  | .storeHandle pid => some pid
  | .clearHandle => none
  | .definitionChanged => held

def Effect.movesHandle : Effect → Bool
  | .definitionChanged => false
  | _ => true

def Effect.stores : Effect → Bool
  | .storeHandle _ => true
  | _ => false

/-- Handles are stored and cleared in turns, beginning with a store if `stores`. -/
def Alternates : Bool → List Effect → Prop
  | _, [] => True
  | stores, x :: xs => x.stores = stores ∧ Alternates (!stores) xs

/-- Whether a step is neither the refusal of an event nor the exit of a process that is not the
current one. -/
def counts : Step → Bool
  | (_, .error _, _) => false
  | (.processExited pid _, .ok t, _) => t.old.pid? == some pid
  | (_, .ok _, _) => true

/-! ## One step -/

/-- All that an event can do: what becomes of it and the state behind it. -/
inductive Turn (s : State) : Event → Except Refusal Transition → State → Prop
  | refused (e : Event) : Turn s e (.error ⟨s, e⟩) s
  | foreign (pid : Nat) (exit : Exit) : s.pid? ≠ some pid →
      Turn s (.processExited pid exit) (.ok ⟨false, s, s, []⟩) s
  /-- a change that concerns neither the process nor its definition -/
  | inner (e : Event) (target : State) : (∀ pid exit, e ≠ .processExited pid exit) →
      target.pid? = s.pid? → target.definition? = s.definition? →
      Turn s e (.ok ⟨true, s, target, []⟩) target
  | spawned (pid : Nat) (d : Definition) : s = .starting →
      Turn s (.processSpawned pid d)
        (.ok ⟨true, s, .running pid d, [.storeHandle pid, .definitionChanged]⟩) (.running pid d)
  | exited (pid : Nat) (d : Definition) (exit : Exit) : s.pid? = some pid → s.definition? = some d →
      Turn s (.processExited pid exit)
        (.ok ⟨true, s, .stopped, [.clearHandle, .definitionChanged]⟩) .stopped

theorem turn_of_exit {s : State} {pid pid' : Nat} {d : Definition} (exit : Exit)
    (hp : s.pid? = some pid) (hd : s.definition? = some d)
    (hn : s.next (.processExited pid' exit) = if pid = pid' then .moved .stopped else .ignored) :
    Turn s (.processExited pid' exit) (apply s (.processExited pid' exit))
      (after s (.processExited pid' exit)) := by
  by_cases h : pid = pid'
  · subst h
    simp only [after, apply, hn, if_pos]
    exact .exited pid d exit hp hd
  · simp only [after, apply, hn, if_neg h]
    apply Turn.foreign
    intro h'
    rw [hp] at h'
    exact h (Option.some.inj h')

theorem turn : ∀ (s : State) (e : Event), Turn s e (apply s e) (after s e) := by
  intro s e
  cases s with
  | stopped =>
    cases e with
    | startRequested => exact .inner _ .starting (by simp) rfl rfl
    | processExited pid exit => exact .foreign pid exit (by simp [State.pid?])
    | _ => exact .refused _
  | starting =>
    cases e with
    | startAborted reason => exact .inner _ .stopped (by simp) rfl rfl
    | processSpawned pid d => exact .spawned pid d rfl
    | processExited pid exit => exact .foreign pid exit (by simp [State.pid?])
    | _ => exact .refused _
  | running pid d =>
    cases e with
    | stopRequested => exact .inner _ (.stopping pid d) (by simp) rfl rfl
    | processExited pid' exit => exact turn_of_exit exit rfl rfl rfl
    | _ => exact .refused _
  | stopping pid d =>
    cases e with
    | stopFailed reason => exact .inner _ (.running pid d) (by simp) rfl rfl
    | processExited pid' exit => exact turn_of_exit exit rfl rfl rfl
    | _ => exact .refused _

namespace Turn

variable {s s' : State} {e : Event} {x : Except Refusal Transition}

theorem onHandle (h : Turn s e x s') : (effectsOf x).foldl Effect.onHandle s.pid? = s'.pid? := by
  cases h with
  | refused | foreign | spawned | exited => rfl
  | inner _ _ _ hp => exact hp.symm

theorem definitionChanged_iff (h : Turn s e x s') :
    .definitionChanged ∈ effectsOf x ↔ s.definition? ≠ s'.definition? := by
  cases h with
  | refused | foreign => simp [effectsOf]
  | inner _ _ _ _ hd => simp [effectsOf, hd]
  | spawned pid d hs => simp [effectsOf, hs, State.definition?]
  | exited pid d exit _ hd =>
    have hgone : State.stopped.definition? = none := rfl
    simp [effectsOf, hd, hgone]

theorem alternates (h : Turn s e x s') {later : List Effect} (hl : Alternates s'.pid?.isNone later) :
    Alternates s.pid?.isNone ((effectsOf x).filter Effect.movesHandle ++ later) := by
  cases h with
  | refused | foreign => exact hl
  | inner _ _ _ hp =>
    rw [hp] at hl
    exact hl
  | spawned pid d hs =>
    subst hs
    exact ⟨rfl, hl⟩
  | exited pid d exit hp =>
    rw [hp]
    exact ⟨rfl, hl⟩

theorem eq_of_not_counts (h : Turn s e x s') (hc : counts (e, x, s') = false) : s' = s := by
  cases h with
  | refused | foreign => rfl
  | inner _ _ he =>
    -- an accepted event that is no exit counts
    cases e with
    | processExited pid exit => exact absurd rfl (he pid exit)
    | _ => simp [counts] at hc
  | spawned => simp [counts] at hc
  | exited pid d exit hp => simp [counts, hp] at hc

end Turn

theorem after_of_refused {s : State} {e : Event} {r : Refusal} (h : apply s e = .error r) :
    after s e = s := by
  simp [after, h]

/-! ## A run -/

theorem trace_append (s : State) (es es' : List Event) :
    trace s (es ++ es') = trace s es ++ trace (es.foldl after s) es' := by
  induction es generalizing s with
  | nil => rfl
  | cons e es ih => simp [trace, ih]

theorem trace_take (s : State) (es : List Event) (n : Nat) :
    (trace s es).take n = trace s (es.take n) := by
  induction es generalizing s n with
  | nil => simp [trace]
  | cons e es ih =>
    cases n with
    | zero => rfl
    | succ n => simp [trace, ih]

theorem effectsIn_cons (x : Step) (steps : List Step) :
    effectsIn (x :: steps) = effectsOf x.2.1 ++ effectsIn steps := by
  simp [effectsIn]

theorem onHandle_effectsIn (s : State) (es : List Event) :
    (effectsIn (trace s es)).foldl Effect.onHandle s.pid? = (es.foldl after s).pid? := by
  induction es generalizing s with
  | nil => rfl
  | cons e es ih =>
    rw [trace, effectsIn_cons, List.foldl_append, (turn s e).onHandle, ih]
    rfl

theorem alternates_effectsIn (s : State) (es : List Event) :
    Alternates s.pid?.isNone ((effectsIn (trace s es)).filter Effect.movesHandle) := by
  induction es generalizing s with
  | nil => trivial
  | cons e es ih =>
    rw [trace, effectsIn_cons, List.filter_append]
    exact (turn s e).alternates (ih (after s e))

theorem trace_filter_counts (s : State) (es : List Event) :
    trace s (((trace s es).filter counts).map Prod.fst) = (trace s es).filter counts := by
  induction es generalizing s with
  | nil => rfl
  | cons e es ih =>
    rw [trace]
    cases h : counts (e, apply s e, after s e) with
    | true => simp [h, trace, ih]
    | false =>
      -- the step is left out on both sides, and the run goes on from where it was
      have hstay := (turn s e).eq_of_not_counts h
      rw [List.filter_cons_of_neg (by simp [h]), hstay]
      exact ih s

/-- The effects of a run are a mirror of its states. Carried out one after the other they put the
process of the state in hand, after every part of the run, with stores and clears in turns; a step
announces a new definition exactly if it changes it; a refused event has no bearing on anything else;
and a run keeps its other steps, effects and states included, when refused events and the exits of other
processes are left out. -/
theorem effects_mirror_state (es : List Event) :
    (∀ n, (effectsIn ((trace .stopped es).take n)).foldl Effect.onHandle none =
      ((es.take n).foldl after .stopped).pid?) ∧
    Alternates true ((effectsIn (trace .stopped es)).filter Effect.movesHandle) ∧
    (∀ past e rest, es = past ++ e :: rest →
      let s := past.foldl after .stopped
      trace .stopped es =
        trace .stopped past ++ (e, apply s e, after s e) :: trace (after s e) rest ∧
      (.definitionChanged ∈ effectsOf (apply s e) ↔ s.definition? ≠ (after s e).definition?) ∧
      ∀ r, apply s e = .error r → after s e = s ∧
        trace .stopped (past ++ rest) = trace .stopped past ++ trace (after s e) rest) ∧
    trace .stopped (((trace .stopped es).filter counts).map Prod.fst) =
      (trace .stopped es).filter counts := by
  refine ⟨?_, alternates_effectsIn .stopped es, ?_, trace_filter_counts .stopped es⟩
  · intro n
    rw [trace_take]
    exact onHandle_effectsIn .stopped (es.take n)
  · intro past e rest hes s
    refine ⟨?_, (turn s e).definitionChanged_iff, ?_⟩
    · rw [hes, trace_append]
      rfl
    · intro r hr
      rw [after_of_refused hr, trace_append]
      exact ⟨rfl, rfl⟩

end Steward.Lifecycle
