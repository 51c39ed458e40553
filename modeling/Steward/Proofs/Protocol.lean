import Steward.Proofs.Run
import Mathlib.Logic.Function.Basic

/-!
# Protocols

A `Protocol` says in which order a task may put its requests: `P x r a y` lets a task in the state `x`
put the request `r`, and the answer `a` takes it to the state `y`. `Program.Obeys` is the judgment that
a program keeps to a protocol whatever it is told; like a Hoare triple it comes with a postcondition,
and `Program.obeys_bind` composes it along the program.

A protocol is local, it knows one task. What holds of all tasks together is an invariant over the
states of all of them, and `Run.simulate` is the induction over runs that carries such an invariant: an
act of one task moves that task along the protocol, everything else leaves the states alone.
-/

set_option autoImplicit false

namespace Steward

/-- Which request may be put in which state, and where which answer leads. -/
abbrev Protocol (σ : Type) := σ → (r : Request) → r.Answer → σ → Prop

namespace Program

variable {α β σ : Type} {P : Protocol σ}

/-- The program keeps to the protocol from the given state on, and ends in a state and with a value as
the postcondition says. -/
def Obeys (P : Protocol σ) (Q : σ → α → Prop) : σ → Program α → Prop
  | x, .done a => Q x a
  | x, .ask r k => ∀ a, ∃ y, P x r a y ∧ (k a).Obeys P Q y

/-- Every request that the program can put is of one kind. -/
def Only (kind : Request → Bool) : Program α → Prop
  | .done _ => True
  | .ask r k => kind r = true ∧ ∀ a, (k a).Only kind

/-! ## Along the program -/

theorem obeys_bind {Q : σ → β → Prop} {f : α → Program β} {p : Program α} {x : σ} :
    (p.bind f).Obeys P Q x ↔ p.Obeys P (fun y a => (f a).Obeys P Q y) x := by
  induction p generalizing x with
  | done a => exact Iff.rfl
  | ask r k ih =>
    simp only [bind, Obeys]
    exact forall_congr' fun a => exists_congr fun y => and_congr_right fun _ => ih a

/-- One request and what follows it. -/
theorem Obeys.ask {r : Request} {f : r.Answer → Program α} {Q : σ → α → Prop} {x : σ}
    (h : ∀ a, ∃ y, P x r a y ∧ (f a).Obeys P Q y) : ((perform r).bind f).Obeys P Q x := h

theorem Obeys.mono {Q R : σ → α → Prop} (hQR : ∀ y a, Q y a → R y a) {p : Program α} {x : σ}
    (h : p.Obeys P Q x) : p.Obeys P R x := by
  induction p generalizing x with
  | done a => exact hQR x a h
  | ask r k ih =>
    intro a
    obtain ⟨y, hP, hk⟩ := h a
    exact ⟨y, hP, ih a hk⟩

/-! ## Programs of one kind -/

theorem only_done {kind : Request → Bool} {a : α} : (done a).Only kind := trivial

theorem Only.bind {kind : Request → Bool} {p : Program α} {f : α → Program β}
    (hp : p.Only kind) (hf : ∀ a, (f a).Only kind) : (p.bind f).Only kind := by
  induction p with
  | done a => exact hf a
  | ask r k ih => exact ⟨hp.1, fun a => ih a (hp.2 a)⟩

theorem Only.mono {kind kind' : Request → Bool} (h : ∀ r, kind r = true → kind' r = true)
    {p : Program α} (hp : p.Only kind) : p.Only kind' := by
  induction p with
  | done a => trivial
  | ask r k ih => exact ⟨h r hp.1, fun a => ih a (hp.2 a)⟩

theorem only_perform {kind : Request → Bool} {r : Request} (h : kind r = true) :
    (perform r).Only kind := ⟨h, fun _ => trivial⟩

/-- Whichever of the two takes the next step, it takes one of its own. -/
theorem Only.both {kind : Request → Bool} {p : Program α} {q : Program β}
    (hp : p.Only kind) (hq : q.Only kind) (turns : List Side) : (both turns p q).Only kind := by
  have rest : ∀ {p : Program α} {q : Program β}, p.Only kind → q.Only kind →
      (p.bind fun a => q.bind fun b => done (a, b)).Only kind :=
    fun hp hq => hp.bind fun _ => hq.bind fun _ => trivial
  induction turns generalizing p q with
  | nil => cases p <;> cases q <;> exact rest hp hq
  | cons side turns ih =>
    -- one that is done leaves its turns to the other
    cases side with
    | left =>
      cases p with
      | done a => cases q <;> exact rest hp hq
      | ask r k => exact ⟨hp.1, fun a => ih (hp.2 a) hq⟩
    | right =>
      cases q with
      | done b => cases p <;> exact rest hp hq
      | ask r k => cases p <;> exact ⟨hq.1, fun a => ih hp (hq.2 a)⟩

/-- A program that puts only requests which lead back to where they started stays where it is. -/
theorem Only.obeys {kind : Request → Bool} {Q : σ → α → Prop} {x : σ}
    (hP : ∀ r a, kind r = true → P x r a x) {p : Program α} (h : p.Only kind)
    (hQ : ∀ a, Q x a) : p.Obeys P Q x := by
  induction p with
  | done a => exact hQ a
  | ask r k ih => exact fun a => ⟨x, hP r a h.1, ih a (h.2 a)⟩

end Program

/-! ## Tasks -/

section Tasks

variable {σ : Type} {P : Protocol σ} {done : σ → Prop}

/-- How a round of a task may close: another one begins in the state in which the first began, and the
last one ends in a final state. -/
def Closes (done : σ → Prop) (x₀ : σ) : σ → Flow → Prop
  | y, .again => y = x₀
  | y, .finish _ => done y

/-- A task in the state `x` keeps to the protocol, this round and all others. -/
structure Task.Follows (P : Protocol σ) (done : σ → Prop) (x : σ) (t : Task) : Prop where
  rounds : ∃ x₀, t.body.Obeys P (Closes done x₀) x₀ ∧ t.rest.Obeys P (Closes done x₀) x
  ended : t.result.isSome = true → t.cancelled = true ∨ done x

theorem Task.Follows.ofProgram {p : Program Flow} {x : σ} (h : p.Obeys P (Closes done x) x) :
    (Task.ofProgram p).Follows P done x :=
  ⟨⟨x, h, h⟩, fun ho => by simp [Task.ofProgram] at ho⟩

/-- All tasks keep to the protocol, each in a state of its own. -/
def World.Follows {ε : Type} (P : Protocol σ) (done : σ → Prop) (phase : Nat → σ) (w : World ε) :
    Prop :=
  ∀ (i : Nat) (t : Task), w.tasks[i]? = some t → t.Follows P done (phase i)

/-- The states of all tasks after an act: the task that acted goes on to `y`, and the task that the
request starts, the one with the number `n`, begins in the state of its role. -/
def advance (init : Role → σ) (n : Nat) (phase : Nat → σ) (task : Nat) (r : Request) (y : σ) :
    Nat → σ :=
  fun i =>
    if i = task then y
    else if i = n then (r.birth?.map init).getD (phase i)
    else phase i

@[simp] theorem advance_self {init : Role → σ} {n : Nat} {phase : Nat → σ} {task : Nat}
    {r : Request} {y : σ} : advance init n phase task r y task = y := by
  simp [advance]

theorem advance_old {init : Role → σ} {n : Nat} {phase : Nat → σ} {task i : Nat}
    {r : Request} {y : σ} (h : i ≠ task) (hn : i < n) :
    advance init n phase task r y i = phase i := by
  simp [advance, h, Nat.ne_of_lt hn]

theorem advance_eq_update {init : Role → σ} {n : Nat} {phase : Nat → σ} {task : Nat}
    {r : Request} {y : σ} (h : r.birth? = none) :
    advance init n phase task r y = Function.update phase task y := by
  funext i
  simp [advance, Function.update_apply, h]

theorem advance_eq_birth {init : Role → σ} {n : Nat} {phase : Nat → σ} {task : Nat}
    {r : Request} {y : σ} {ρ : Role} (hn : n ≠ task) (h : r.birth? = some ρ) :
    advance init n phase task r y =
      Function.update (Function.update phase task y) n (init ρ) := by
  funext i
  by_cases hi : i = n
  · subst hi; simp [advance, hn, h]
  · simp [advance, Function.update_apply, hi]

end Tasks

/-! ## Chronicles -/

section Chronicles

variable {δ : Type} {f : (r : Request) → r.Answer → Option δ} {i : Nat} {x : Act} {acts : List Act}

/-- What an act tells, if it is one of the task `i`. -/
def Act.tells (f : (r : Request) → r.Answer → Option δ) (i : Nat) : Act → Option δ
  | .call _ => none
  | .step task r a => if task = i then f r a else none

/-- What the acts of a task tell, in their order. -/
def chronicle (f : (r : Request) → r.Answer → Option δ) (i : Nat) (acts : List Act) : List δ :=
  acts.reverse.filterMap (Act.tells f i)

theorem Act.tells_own (i : Nat) (r : Request) (a : r.Answer) : (Act.step i r a).tells f i = f r a := by
  simp [Act.tells]

theorem Act.task?_call_ne (c : Call) (i : Nat) : (Act.call c).task? ≠ some i := by
  simp [Act.task?]

theorem Act.task?_step_ne {task : Nat} (h : i ≠ task) (r : Request) (a : r.Answer) :
    (Act.step task r a).task? ≠ some i :=
  fun he => h (Option.some.inj he).symm

theorem Act.tells_other (h : x.task? ≠ some i) : x.tells f i = none := by
  cases x with
  | call c => rfl
  | step task r a =>
    have hne : task ≠ i := fun he => h (congrArg some he)
    simp [Act.tells, hne]

theorem Act.exists_of_tells {d : δ} (h : x.tells f i = some d) :
    ∃ r a, x = .step i r a ∧ f r a = some d := by
  cases x with
  | call c => cases h
  | step task r a =>
    by_cases hi : task = i
    · subst hi
      exact ⟨r, a, rfl, (Act.tells_own task r a).symm.trans h⟩
    · simp [Act.tells, hi] at h

theorem chronicle_cons (f : (r : Request) → r.Answer → Option δ) (i : Nat) (x : Act)
    (acts : List Act) :
    chronicle f i (x :: acts) = chronicle f i acts ++ (x.tells f i).toList := by
  unfold chronicle
  rw [List.reverse_cons, List.filterMap_append]
  cases hx : x.tells f i <;> simp [hx]

theorem chronicle_own (i : Nat) (r : Request) (a : r.Answer) (acts : List Act) :
    chronicle f i (.step i r a :: acts) = chronicle f i acts ++ (f r a).toList := by
  rw [chronicle_cons, Act.tells_own]

theorem chronicle_other (h : x.task? ≠ some i) :
    chronicle f i (x :: acts) = chronicle f i acts := by
  rw [chronicle_cons, Act.tells_other h, Option.toList_none, List.append_nil]

theorem chronicle_eq_nil (h : ∀ r a, .step i r a ∉ acts) : chronicle f i acts = [] := by
  refine List.filterMap_eq_nil_iff.2 fun x hx => Act.tells_other fun hi => ?_
  cases x with
  | call c => cases hi
  | step task r a =>
    obtain rfl := Option.some.inj hi
    exact h r a (List.mem_reverse.1 hx)

theorem mem_chronicle {d : δ} :
    d ∈ chronicle f i acts ↔ ∃ r a, .step i r a ∈ acts ∧ f r a = some d := by
  simp only [chronicle, List.mem_filterMap, List.mem_reverse]
  constructor
  · rintro ⟨x, hx, hd⟩
    obtain ⟨r, a, rfl, hf⟩ := Act.exists_of_tells hd
    exact ⟨r, a, hx, hf⟩
  · rintro ⟨r, a, hm, hd⟩
    exact ⟨_, hm, (Act.tells_own i r a).trans hd⟩

end Chronicles

/-! ## Runs -/

section Runs

variable {ε σ : Type} {env : Environment ε} {s : Service} {P : Protocol σ} {done : σ → Prop}
  {init : Role → σ} {phase : Nat → σ} {w w' w₁ : World ε} {task : Nat}

theorem World.lt_of_pending {r : Request} {k : r.Answer → Program Flow}
    (h : w.pending task = some ⟨r, k⟩) : task < w.tasks.length := by
  obtain ⟨t, ht, -⟩ := World.pending_eq_some h
  exact (List.getElem?_eq_some_iff.1 ht).1

theorem World.Follows.call (hs : ∀ ρ, (Role.program s ρ).Obeys P (Closes done (init ρ)) (init ρ))
    (hf : w.Follows P done phase) (c : Call) :
    (w.addTask (c.program s)).2.Follows P done
      (Function.update phase w.tasks.length (init (.call c))) := by
  intro i t ht
  simp only [World.addTask] at ht
  rw [List.getElem?_append] at ht
  split at ht
  · rename_i hi
    rw [Function.update_of_ne (Nat.ne_of_lt hi)]
    exact hf i t ht
  · rw [List.getElem?_singleton] at ht
    split at ht
    · obtain rfl : i = w.tasks.length := by omega
      obtain rfl := Option.some.inj ht
      rw [Function.update_self]
      exact .ofProgram (hs (.call c))
    · cases ht

/-- One task of a world is changed and all keep to the protocol. -/
theorem World.Follows.changeTask (hf : w.Follows P done phase) {f : Task → Task}
    (h : ∀ t, w.tasks[task]? = some t → (f t).Follows P done (phase task)) :
    (w.changeTask task f).Follows P done phase := by
  intro i t ht
  simp only [World.changeTask, List.getElem?_modify] at ht
  obtain ⟨t₀, h₀, rfl⟩ := Option.map_eq_some_iff.1 ht
  split
  · rename_i hi
    subst hi
    exact h t₀ h₀
  · exact hf i t₀ h₀

/-- Between acts nobody moves along the protocol. -/
theorem World.Follows.hush (hf : w.Follows P done phase) {m : Move ε}
    (h : w.move env s m = some ([], w')) : w'.Follows P done phase := by
  cases m with
  | call c => cases h
  | step task =>
    generalize hn : ([] : List Act) = new at h
    cases World.move_step_cases h with
    | cancel t found hc =>
      have hf' : (w.forgetPrompt env t).Follows P done phase := by
        unfold World.forgetPrompt
        split <;> exact hf
      refine hf'.changeTask fun t' ht' => ?_
      have ht : w.tasks[task]? = some t' := by
        rw [← ht']
        unfold World.forgetPrompt
        split <;> rfl
      obtain rfl : t = t' := Option.some.inj (found.symm.trans ht)
      exact ⟨(hf task t found).rounds, fun _ => .inl hc⟩
    | finish t o found rest =>
      refine hf.changeTask fun t' ht' => ?_
      obtain rfl : t = t' := Option.some.inj (found.symm.trans ht')
      have hr := (hf task t found).rounds
      obtain ⟨x₀, -, hd⟩ := hr
      rw [rest] at hd
      exact ⟨(hf task t found).rounds, fun _ => .inr hd⟩
    | again t found rest =>
      -- the next round begins in the state in which this one began
      refine hf.changeTask fun t' ht' => ?_
      obtain rfl : t = t' := Option.some.inj (found.symm.trans ht')
      obtain ⟨x₀, hb, hd⟩ := (hf task t found).rounds
      rw [rest] at hd
      have hx : phase task = x₀ := hd
      exact ⟨⟨x₀, hb, hx ▸ hb⟩, (hf task t found).ended⟩
    | ask => cases hn
  | turn outside => cases h; exact hf
  | clock moment => cases h; exact hf
  | tell child e => cases h; exact hf
  | vanish child => cases h; exact hf
  | die child => cases h; exact hf

/-- A task that stands before a request may put it, whatever the answer will be. -/
theorem World.Follows.pending (hf : w.Follows P done phase) {r : Request}
    {k : r.Answer → Program Flow} (hp : w.pending task = some ⟨r, k⟩) (a : r.Answer) :
    ∃ y, P (phase task) r a y := by
  obtain ⟨t, ht, -, -, hrest⟩ := World.pending_eq_some hp
  obtain ⟨x₀, -, hr⟩ := (hf task t ht).rounds
  rw [hrest] at hr
  obtain ⟨y, hP, -⟩ := hr a
  exact ⟨y, hP⟩

/-- An act moves the task that acts along the protocol, and the task that it starts begins. -/
theorem World.Follows.act (hs : ∀ ρ, (Role.program s ρ).Obeys P (Closes done (init ρ)) (init ρ))
    (hf : w.Follows P done phase) {r : Request} {k : r.Answer → Program Flow} {a : r.Answer}
    (hp : w.pending task = some ⟨r, k⟩) (h : World.Performed env s.roles w task r a w₁) :
    ∃ y, P (phase task) r a y ∧ (w₁.changeTask task ({ · with rest := k a })).Follows P done
      (advance init w.tasks.length phase task r y) := by
  obtain ⟨t, ht, hover, hc, hrest⟩ := World.pending_eq_some hp
  have hlt := World.lt_of_pending hp
  -- the protocol has an answer for every answer, so for the one that was given
  obtain ⟨x₀, hb, hr⟩ := (hf task t ht).rounds
  rw [hrest] at hr
  obtain ⟨y, hP, hk⟩ := hr a
  refine ⟨y, hP, fun i t' ht' => ?_⟩
  simp only [World.changeTask, List.getElem?_modify] at ht'
  obtain ⟨t₁, h₁, rfl⟩ := Option.map_eq_some_iff.1 ht'
  rcases h.task_cases h₁ with ⟨t₀, h₀, ht₁⟩ | ⟨hi, ρ, hρ, rfl⟩
  · -- a task from before: the one that acted, or one that was at most cancelled
    have hi : i < w.tasks.length := (List.getElem?_eq_some_iff.1 h₀).1
    by_cases hit : task = i
    · subst hit
      obtain rfl : t = t₀ := Option.some.inj (ht.symm.trans h₀)
      simp only [advance_self, if_true]
      have hres : t.result.isSome = false := by
        simp only [Task.isOver, Bool.or_eq_false_iff] at hover
        exact hover.1
      rcases ht₁ with rfl | ⟨-, rfl⟩
      · exact ⟨⟨x₀, hb, hk⟩, fun ho => by simp [hres] at ho⟩
      · exact ⟨⟨x₀, hb, hk⟩, fun ho => by simp [hres] at ho⟩
    · rw [if_neg hit, advance_old (Ne.symm hit) hi]
      rcases ht₁ with rfl | ⟨-, rfl⟩
      · exact hf i t₁ h₀
      · exact ⟨(hf i t₀ h₀).rounds, fun _ => .inl rfl⟩
  · subst hi
    rw [if_neg (Nat.ne_of_lt hlt), advance_eq_birth (Nat.ne_of_gt hlt) hρ, Function.update_self]
    exact .ofProgram (hs ρ)

/-- **Induction over runs, with the states of all tasks at hand.** If every role keeps to the protocol
and an invariant over the states of all tasks survives calls, acts and all that lies between, it holds
in every run. -/
theorem Run.simulate (hs : ∀ ρ, (Role.program s ρ).Obeys P (Closes done (init ρ)) (init ρ))
    {J : (Nat → σ) → List Act → World ε → Prop}
    (start : ∀ outside, J (fun _ => init .check) [] { outside := outside })
    (call : ∀ {phase acts w} c, Run env s acts w → w.Follows P done phase → J phase acts w →
      J (Function.update phase w.tasks.length (init (.call c))) (.call c :: acts)
        (w.addTask (c.program s)).2)
    (act : ∀ {phase acts w w₁ task} {r : Request} {k : r.Answer → Program Flow} {a : r.Answer} {y},
      Run env s acts w → w.Follows P done phase → J phase acts w →
      w.pending task = some ⟨r, k⟩ → World.Performed env s.roles w task r a w₁ →
      P (phase task) r a y →
      J (advance init w.tasks.length phase task r y) (.step task r a :: acts)
        (w₁.changeTask task ({ · with rest := k a })))
    (hush : ∀ {phase acts w w'}, Run env s acts w → w.Follows P done phase → J phase acts w →
      w.Hush w' → J phase acts w')
    {acts : List Act} {w : World ε} (h : Run env s acts w) :
    ∃ phase, w.Follows P done phase ∧ J phase acts w := by
  induction h with
  | init outside =>
    exact ⟨fun _ => init .check, fun i t ht => by simp at ht, start outside⟩
  | move m hr hm ih =>
    obtain ⟨phase, hf, hJ⟩ := ih
    cases World.move_cases hm with
    | call c => exact ⟨_, hf.call hs c, call c hr hf hJ⟩
    | act pending performed =>
      obtain ⟨y, hP, hf'⟩ := hf.act hs pending performed
      exact ⟨_, hf', act hr hf hJ pending performed hP⟩
    | hush hh => exact ⟨phase, hf.hush hm, hush hr hf hJ hh⟩

/-- Only tasks that there are have acted. -/
theorem Run.acted_lt {acts : List Act} (h : Run env s acts w) {i : Nat} {r : Request} {a : r.Answer}
    (hi : .step i r a ∈ acts) : i < w.tasks.length := by
  refine Run.induct (J := fun acts w => ∀ (i : Nat) (r : Request) (a : r.Answer),
    .step i r a ∈ acts → i < w.tasks.length) ?_ ?_ ?_ ?_ h i r a hi
  · intro outside i r a hi
    cases hi
  · intro acts w c _ ih i r a hi
    obtain hi | hi := List.mem_cons.1 hi
    · cases hi
    · have := ih i r a hi
      simp only [World.addTask, List.length_append, List.length_singleton]
      omega
  · intro acts w w₁ task r' k a' _ ih hp hperf i r a hi
    have hlen : w.tasks.length ≤ (w₁.changeTask task ({ · with rest := k a' })).tasks.length := by
      simp [World.changeTask, hperf.tasks_length]
    obtain hi | hi := List.mem_cons.1 hi
    · injection hi with hi
      exact Nat.lt_of_lt_of_le (hi ▸ World.lt_of_pending hp) hlen
    · exact Nat.lt_of_lt_of_le (ih i r a hi) hlen
  · intro acts w w' _ ih hh i r a hi
    rw [hh.tasks_length]
    exact ih i r a hi

/-- Every task there is has a role. -/
theorem Run.exists_role_of_lt {acts : List Act} (h : Run env s acts w) {i : Nat}
    (hi : i < w.tasks.length) : ∃ ρ, (roles acts)[i]? = some ρ :=
  ⟨_, List.getElem?_eq_getElem (h.roles_length ▸ hi)⟩

/-- So has every task that has acted. -/
theorem Run.exists_role {acts : List Act} (h : Run env s acts w) {i : Nat} {r : Request}
    {a : r.Answer} (hi : .step i r a ∈ acts) : ∃ ρ, (roles acts)[i]? = some ρ :=
  h.exists_role_of_lt (h.acted_lt hi)

/-- A task that does not exist yet has told nothing. -/
theorem Run.chronicle_unborn {acts : List Act} (h : Run env s acts w) {δ : Type}
    {f : (r : Request) → r.Answer → Option δ} {i : Nat} (hi : w.tasks.length ≤ i) :
    chronicle f i acts = [] :=
  chronicle_eq_nil fun _ _ ha => Nat.not_lt.2 hi (h.acted_lt ha)

theorem Run.exists_role_of_told {acts : List Act} (h : Run env s acts w) {δ : Type}
    {f : (r : Request) → r.Answer → Option δ} {i : Nat} (hi : chronicle f i acts ≠ []) :
    ∃ ρ, (roles acts)[i]? = some ρ := by
  obtain ⟨d, hd⟩ := List.exists_mem_of_ne_nil _ hi
  obtain ⟨r, a, hm, -⟩ := mem_chronicle.1 hd
  exact h.exists_role hm

/-- **What a task has told so far follows from its state.** `G ρ x l` is what a task of the role `ρ` in the
state `x` has told; it has to hold of a task that has told nothing and to go along with every step. -/
theorem Run.chronicled (hs : ∀ ρ, (Role.program s ρ).Obeys P (Closes done (init ρ)) (init ρ))
    {δ : Type} {f : (r : Request) → r.Answer → Option δ} {G : Role → σ → List δ → Prop}
    (fresh : ∀ ρ, G ρ (init ρ) [])
    (own : ∀ {ρ x y l} {r : Request} {a : r.Answer}, G ρ x l → P x r a y →
      G ρ y (l ++ (f r a).toList))
    {acts : List Act} (h : Run env s acts w) :
    ∃ phase, w.Follows P done phase ∧
      ∀ (i : Nat) (ρ : Role), (roles acts)[i]? = some ρ → G ρ (phase i) (chronicle f i acts) := by
  refine Run.simulate (J := fun phase acts _ => ∀ (i : Nat) (ρ : Role), (roles acts)[i]? = some ρ →
    G ρ (phase i) (chronicle f i acts)) hs ?_ ?_ ?_ ?_ h
  · intro outside i ρ hi
    simp [roles] at hi
  · intro phase acts w c hr _ hG i ρ hi
    rw [chronicle_other (Act.task?_call_ne c i)]
    rcases roles_cons_cases hi with ⟨hlt, hold⟩ | ⟨rfl, hb⟩
    · rw [hr.roles_length] at hlt
      rw [Function.update_of_ne (Nat.ne_of_lt hlt)]
      exact hG i ρ hold
    · obtain rfl := Option.some.inj hb
      rw [hr.chronicle_unborn (Nat.le_of_eq hr.roles_length.symm), hr.roles_length,
        Function.update_self]
      exact fresh _
  · intro phase acts w w₁ task r k a y hr _ hG hp hperf hP i ρ hi
    have hlt := World.lt_of_pending hp
    rcases roles_cons_cases hi with ⟨hlti, hold⟩ | ⟨rfl, hb⟩
    · rw [hr.roles_length] at hlti
      by_cases hit : i = task
      · subst hit
        rw [advance_self, chronicle_own]
        exact own (hG i ρ hold) hP
      · rw [advance_old hit hlti, chronicle_other (Act.task?_step_ne hit r a)]
        exact hG i ρ hold
    · have hne : (roles acts).length ≠ task := hr.roles_length ▸ Nat.ne_of_gt hlt
      rw [chronicle_other (Act.task?_step_ne hne r a),
        hr.chronicle_unborn (Nat.le_of_eq hr.roles_length.symm), hr.roles_length,
        advance_eq_birth (Nat.ne_of_gt hlt) hb, Function.update_self]
      exact fresh ρ
  · intro phase acts w w' _ _ hG _ i ρ hi
    exact hG i ρ hi

end Runs

end Steward
