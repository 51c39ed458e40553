import Steward.Proofs.Checks
import Steward.Proofs.Coherence

/-!
# The course of a call

A `Course` is a stretch of a run. With every act goes the world in which it was done, so that one can tell
what the clock showed, what the state was and who had been told what.

A call is followed from the moment it is made (`Course.accompany`): its task is the one with the next number,
and it keeps to a protocol whose postcondition speaks about the result. Everybody else may do anything; a
course that is `Undisturbed` is one in which nobody else calls and no other caller goes on.
-/

set_option autoImplicit false

namespace Steward

/-- An act and the world in which it was done. -/
structure Episode (ε : Type) where
  before : World ε
  act : Act

/-- The acts of a course, latest first. -/
def actsOf {ε : Type} (past : List (Episode ε)) : List Act := past.map (·.act)

/-- The world in which a call was just made. -/
abbrev World.called {ε : Type} (s : Service) (w : World ε) (c : Call) : World ε :=
  (w.addTask (c.program s)).2

/-- A stretch of a run from one world on, with its episodes, latest first. -/
inductive Course {ε : Type} (env : Environment ε) (s : Service) (w₀ : World ε) :
    List (Episode ε) → World ε → Prop where
  | here : Course env s w₀ [] w₀
  | move {past : List (Episode ε)} {new : List Act} {w w' : World ε} (m : Move ε) :
      Course env s w₀ past w → w.move env s m = some (new, w') →
      Course env s w₀ (new.map (Episode.mk w) ++ past) w'

/-! ## Moves -/

namespace World

variable {ε : Type} {env : Environment ε} {s : Service} {w w' : World ε}

/-- An act of a task is the answer to the request before which the task stood. -/
theorem move_act {m : Move ε} {task : Nat} {r : Request} {a : r.Answer}
    (h : w.move env s m = some ([.step task r a], w')) :
    ∃ k w₁, w.pending task = some ⟨r, k⟩ ∧ w.perform env s.roles task r = some (a, w₁) ∧
      w' = w₁.changeTask task ({ · with rest := k a }) := by
  cases m with
  | step i =>
    obtain ⟨w'', hattempt, heq⟩ := Option.map_eq_some_iff.1 h
    injection heq with hact hw
    subst hw
    unfold act? at hact
    split at hact
    · cases hact
    · rename_i r' k hp
      cases hperf : w.perform env s.roles i r' with
      | none => simp [hperf] at hact
      | some p =>
        obtain ⟨a', w₁⟩ := p
        simp only [hperf, Option.map_some, Option.toList_some, List.cons.injEq, and_true] at hact
        cases hact
        obtain ⟨t, ht, hover, hcan, hrest⟩ := pending_eq_some hp
        refine ⟨k, w₁, hp, hperf, ?_⟩
        unfold attempt at hattempt
        simp only [ht, hover, hcan, hrest, hperf] at hattempt
        simpa using hattempt.symm
  | call c => cases h
  | _ => cases h

/-- A move is one act at most. -/
theorem Moved.single {new : List Act} (h : w.Moved env s new w') : new = [] ∨ ∃ x, new = [x] := by
  cases h with
  | call c => exact .inr ⟨_, rfl⟩
  | act => exact .inr ⟨_, rfl⟩
  | hush => exact .inl rfl

end World

/-! ## Courses -/

namespace Course

variable {ε : Type} {env : Environment ε} {s : Service} {acts₀ : List Act} {w₀ w : World ε}
  {past : List (Episode ε)}

/-- A course goes on with the run in which it begins. -/
theorem run (h : Course env s w₀ past w) (h₀ : Run env s acts₀ w₀) :
    Run env s (actsOf past ++ acts₀) w := by
  induction h with
  | here => exact h₀
  | @move past new w w' m _ hm ih =>
    have hacts : actsOf (new.map (Episode.mk w) ++ past) = new ++ actsOf past := by
      simp [actsOf, Function.comp_def]
    rw [hacts, List.append_assoc]
    exact .move m ih hm

/-- What an episode tells: the course came through its world, and the act was a move there. -/
theorem split (h : Course env s w₀ past w) {later earlier : List (Episode ε)} {e : Episode ε}
    (hpast : past = later ++ e :: earlier) :
    Course env s w₀ earlier e.before ∧ ∃ m w', e.before.move env s m = some ([e.act], w') := by
  induction h generalizing later with
  | here => simp at hpast
  | @move past new w w' m h hm ih =>
    obtain rfl | ⟨x, rfl⟩ := (World.move_cases hm).single
    · exact ih hpast
    · cases later with
      | nil =>
        obtain ⟨rfl, rfl⟩ := List.cons.inj hpast
        exact ⟨h, m, w', hm⟩
      | cons y later => exact ih (List.cons.inj hpast).2

/-- The world of an episode is one that the course came through. -/
theorem before (h : Course env s w₀ past w) {later earlier : List (Episode ε)} {e : Episode ε}
    (hpast : past = later ++ e :: earlier) : Course env s w₀ earlier e.before :=
  (h.split hpast).1

/-- Whoever did something stood before it. -/
theorem pending (h : Course env s w₀ past w) {later earlier : List (Episode ε)} {v : World ε} {task : Nat}
    {r : Request} {a : r.Answer} (hpast : past = later ++ ⟨v, .step task r a⟩ :: earlier) :
    ∃ k, v.pending task = some ⟨r, k⟩ := by
  obtain ⟨-, m, w', hm⟩ := h.split hpast
  obtain ⟨k, -, hp, -⟩ := World.move_act hm
  exact ⟨k, hp⟩

end Course

/-- A run came through the worlds before and behind each of its acts. -/
theorem Run.split {ε : Type} {env : Environment ε} {s : Service} {later earlier : List Act} {x : Act} {w : World ε}
    (h : Run env s (later ++ x :: earlier) w) :
    ∃ w₀ w₁ m past, Run env s earlier w₀ ∧ w₀.move env s m = some ([x], w₁) ∧
      Course env s w₁ past w ∧ actsOf past = later := by
  generalize hacts : later ++ x :: earlier = acts at h
  induction h generalizing later with
  | init outside => simp at hacts
  | @move acts new w w' m hr hm ih =>
    obtain rfl | ⟨y, rfl⟩ := (World.move_cases hm).single
    · obtain ⟨w₀, w₁, m₀, past, hrun, hm₀, hcourse, hpast⟩ := ih hacts
      exact ⟨w₀, w₁, m₀, past, hrun, hm₀, .move m hcourse hm, hpast⟩
    · cases later with
      | nil =>
        obtain ⟨rfl, rfl⟩ := List.cons.inj hacts
        exact ⟨w, w', m, [], hr, hm, .here, rfl⟩
      | cons z later =>
        obtain ⟨rfl, htail⟩ := List.cons.inj hacts
        obtain ⟨w₀, w₁, m₀, past, hrun, hm₀, hcourse, rfl⟩ := ih htail
        exact ⟨w₀, w₁, m₀, _, hrun, hm₀, .move m hcourse hm, rfl⟩

/-! ## Being left alone -/

/-- Every request has an answer. -/
theorem Request.answerable (r : Request) : Nonempty r.Answer := by
  cases r with
  | query q =>
    cases q with
    | terminate | kill => exact ⟨⟨.ok (), none⟩⟩
    | _ => first | exact ⟨none⟩ | exact ⟨()⟩ | exact ⟨0⟩ | exact ⟨.error (.process "")⟩
  | beginStart => exact ⟨.busy⟩
  | stop => exact ⟨.notRunning⟩
  | readState => exact ⟨.stopped⟩
  | register | recordExit => exact ⟨.error ⟨.stopped, .stopRequested⟩⟩
  | _ => first | exact ⟨none⟩ | exact ⟨()⟩ | exact ⟨0⟩ | exact ⟨true⟩ | exact ⟨.error (.process "")⟩

/-- A task has asked only for what its role asks for. -/
theorem Run.kind_of_acted {ε : Type} {env : Environment ε} {s : Service} {acts : List Act} {w : World ε}
    (h : Run env s acts w) {i : Nat} {ρ : Role} (hi : (roles acts)[i]? = some ρ) {r : Request} {a : r.Answer}
    (hm : .step i r a ∈ acts) : ρ.kinds.contains r.kind = true := by
  obtain ⟨phase, -, hG⟩ := Run.chronicled (f := fun r _ => some r.kind)
    (G := fun ρ x l => x = ρ ∧ ∀ k ∈ l, ρ.kinds.contains k = true) (Role.within s) (fun ρ => ⟨rfl, nofun⟩)
    (by
      rintro ρ x y l r a ⟨rfl, hl⟩ ⟨rfl, hr⟩
      refine ⟨rfl, fun k hk => ?_⟩
      rcases List.mem_append.1 hk with hk | hk
      · exact hl k hk
      · obtain rfl := List.mem_singleton.1 hk
        exact hr) h
  exact (hG i ρ hi).2 r.kind (mem_chronicle.2 ⟨r, a, hm, rfl⟩)

/-- Nor does it stand before anything else. -/
theorem Run.kind_of_pending {ε : Type} {env : Environment ε} {s : Service} {acts : List Act} {w : World ε}
    (h : Run env s acts w) {i : Nat} {ρ : Role} (hi : (roles acts)[i]? = some ρ) {r : Request}
    {k : r.Answer → Program Flow} (hp : w.pending i = some ⟨r, k⟩) : ρ.kinds.contains r.kind = true := by
  obtain ⟨phase, hf, hG⟩ := Run.chronicled (f := fun _ _ => (none : Option Unit)) (G := fun ρ x _ => x = ρ)
    (Role.within s) (fun _ => rfl) (fun hx hP => hP.1.trans hx) h
  obtain ⟨a⟩ := r.answerable
  obtain ⟨y, -, hk⟩ := hf.pending hp a
  exact hG i ρ hi ▸ hk

/-- Whether the act is a call or one of a caller other than the task `i`. -/
def Act.disturbs (ρs : List Role) (i : Nat) : Act → Bool
  | .call _ => true
  | .step task _ _ =>
    task != i && match ρs[task]? with
      | some (.call _) => true
      | _ => false

/-- From the acts `acts₀` on, nobody calls and of all callers only the task `i` goes on. -/
def Undisturbed {ε : Type} (i : Nat) (acts₀ : List Act) (past : List (Episode ε)) : Prop :=
  ∀ e ∈ past, e.act.disturbs (roles (actsOf past ++ acts₀)) i = false

instance {ε : Type} (i : Nat) (acts₀ : List Act) (past : List (Episode ε)) :
    Decidable (Undisturbed i acts₀ past) :=
  inferInstanceAs (Decidable (∀ e ∈ past, e.act.disturbs (roles (actsOf past ++ acts₀)) i = false))

section Undisturbed

variable {ε : Type} {i : Nat} {acts₀ : List Act} {past : List (Episode ε)} {e : Episode ε}

theorem Undisturbed.tail (h : Undisturbed i acts₀ (e :: past)) : Undisturbed i acts₀ past := by
  intro e' he'
  have hwhole := h e' (List.mem_cons_of_mem _ he')
  cases hact : e'.act with
  | call c => simp [hact, Act.disturbs] at hwhole
  | step task r a =>
    rw [hact, Act.disturbs, Bool.and_eq_false_iff] at hwhole
    rw [Act.disturbs, Bool.and_eq_false_iff]
    refine hwhole.imp_right fun hrole => ?_
    -- whoever is a caller stays one
    cases hρ : (roles (actsOf past ++ acts₀))[task]? with
    | none => rfl
    | some ρ =>
      have hlater : (roles (actsOf (e :: past) ++ acts₀))[task]? = some ρ :=
        roles_cons_of_some e.act hρ
      rw [hlater] at hrole
      exact hrole

theorem Undisturbed.suffix {later : List (Episode ε)} (h : Undisturbed i acts₀ (later ++ past)) :
    Undisturbed i acts₀ past := by
  induction later with
  | nil => exact h
  | cons e later ih => exact ih h.tail

/-- Whoever acts is the task itself or no caller. -/
theorem Undisturbed.head {w : World ε} {task : Nat} {r : Request} {a : r.Answer} {ρ : Role}
    (h : Undisturbed i acts₀ (⟨w, .step task r a⟩ :: past)) (hne : task ≠ i)
    (hρ : (roles (actsOf past ++ acts₀))[task]? = some ρ) : ∀ c, ρ ≠ .call c := by
  rintro c rfl
  have hwhole := h _ List.mem_cons_self
  have hlater : (roles (actsOf (⟨w, .step task r a⟩ :: past) ++ acts₀))[task]? = some (.call c) :=
    roles_cons_of_some _ hρ
  simp [Act.disturbs, hlater, hne] at hwhole

theorem Undisturbed.not_call {w : World ε} {c : Call} :
    ¬ Undisturbed i acts₀ (⟨w, .call c⟩ :: past) := by
  intro h
  cases h _ List.mem_cons_self

end Undisturbed

/-! ## One task -/

section Keeping

variable {ε σ : Type} {env : Environment ε} {s : Service} {P : Protocol σ} {Q : σ → Outcome → Prop}
  {x : σ} {w w' : World ε} {i : Nat}

/-- A program ends with an outcome, and that is as the postcondition says. -/
def Finishes (Q : σ → Outcome → Prop) (y : σ) (flow : Flow) : Prop := ∃ o, flow = .finish o ∧ Q y o

/-- The task of a call, in the state `x`, keeps to the protocol up to its result. -/
structure Task.Keeps (P : Protocol σ) (Q : σ → Outcome → Prop) (x : σ) (t : Task) : Prop where
  rest : t.rest.Obeys P (Finishes Q) x
  result : ∀ o, t.result = some o → t.rest = .done (.finish o)
  dropped : t.dropped = false

def World.Keeps (P : Protocol σ) (Q : σ → Outcome → Prop) (i : Nat) (x : σ) (w : World ε) : Prop :=
  ∃ t, w.tasks[i]? = some t ∧ t.cancelled = false ∧ t.Keeps P Q x

theorem World.Keeps.changeOther {task : Nat} {f : Task → Task} (h : w.Keeps P Q i x) (hne : task ≠ i) :
    (w.changeTask task f).Keeps P Q i x := by
  obtain ⟨t, ht, hkeep⟩ := h
  exact ⟨t, by simp [World.changeTask, hne, ht], hkeep⟩

/-- What others do leaves the task as it is. -/
theorem World.Keeps.other (h : w.Keeps P Q i x) {task : Nat} {r : Request} {a : r.Answer} {w₁ : World ε}
    (hperf : World.Performed env s.roles w task r a w₁) (hcan : w₁.isCancelled i = false) :
    w₁.Keeps P Q i x := by
  obtain ⟨t, ht, hc, hkeep⟩ := h
  have hlt : i < w.tasks.length := (List.getElem?_eq_some_iff.1 ht).1
  have hlt₁ : i < w₁.tasks.length := by
    rw [hperf.tasks_length]
    omega
  have ht₁ := List.getElem?_eq_getElem hlt₁
  rcases hperf.task_cases ht₁ with ⟨t₀, h₀, heq | ⟨-, heq⟩⟩ | ⟨hi, -⟩
  · obtain rfl : t = t₀ := Option.some.inj (ht.symm.trans h₀)
    exact ⟨t, heq ▸ ht₁, hc, hkeep⟩
  · simp [World.isCancelled, ht₁, heq] at hcan
  · omega

/-- The task itself goes on. -/
theorem World.Keeps.own (h : w.Keeps P Q i x) {r : Request} {k : r.Answer → Program Flow} {a : r.Answer}
    {w₁ : World ε} (hp : w.pending i = some ⟨r, k⟩)
    (hperf : World.Performed env s.roles w i r a w₁) (hcan : w₁.isCancelled i = false) :
    ∃ y, P x r a y ∧ (w₁.changeTask i ({ · with rest := k a })).Keeps P Q i y := by
  obtain ⟨t, ht, hc, hkeep⟩ := h
  obtain ⟨t', ht', hover, -, hrest⟩ := World.pending_eq_some hp
  obtain rfl : t = t' := Option.some.inj (ht.symm.trans ht')
  have hobeys := hkeep.rest
  rw [hrest] at hobeys
  obtain ⟨y, hP, hk⟩ := hobeys a
  obtain ⟨t₁, ht₁, hc₁, -⟩ := World.Keeps.other ⟨t, ht, hc, hkeep⟩ hperf hcan
  have hsame : t₁ = t := by
    rcases hperf.task_cases ht₁ with ⟨t₀, h₀, heq | ⟨-, heq⟩⟩ | ⟨hi, -⟩
    · exact heq.trans (Option.some.inj (h₀.symm.trans ht))
    · simp [heq] at hc₁
    · have := (List.getElem?_eq_some_iff.1 ht).1
      omega
  subst hsame
  refine ⟨y, hP, { t₁ with rest := k a }, by simp [World.changeTask, ht₁], hc, hk, ?_, hkeep.dropped⟩
  -- a task that goes on has no result
  intro o ho
  simp only [Task.isOver, Bool.or_eq_false_iff, Option.isSome_eq_false_iff, Option.isNone_iff_eq_none]
    at hover
  rw [hover.1] at ho
  cases ho

/-- Between acts the task at most comes to its end. -/
theorem World.Keeps.hush (h : w.Keeps P Q i x) {m : Move ε} (hm : w.move env s m = some ([], w')) :
    w'.Keeps P Q i x := by
  obtain ⟨t, ht, hc, hkeep⟩ := h
  cases m with
  | call c => cases hm
  | step task =>
    by_cases hi : task = i
    · subst hi
      generalize hn : ([] : List Act) = new at hm
      cases World.move_step_cases hm with
      | cancel t' found hcan =>
        obtain rfl : t = t' := Option.some.inj (ht.symm.trans found)
        rw [hc] at hcan
        cases hcan
      | finish t' o found rest =>
        obtain rfl : t = t' := Option.some.inj (ht.symm.trans found)
        refine ⟨{ t with result := some o }, by simp [World.changeTask, ht], hc, hkeep.rest, ?_,
          hkeep.dropped⟩
        intro o' ho'
        obtain rfl := Option.some.inj ho'
        exact rest
      | again t' found rest =>
        obtain rfl : t = t' := Option.some.inj (ht.symm.trans found)
        have hobeys := hkeep.rest
        rw [rest] at hobeys
        obtain ⟨o, ho, -⟩ := hobeys
        cases ho
      | ask => cases hn
    · generalize hn : ([] : List Act) = new at hm
      cases World.move_step_cases hm with
      | cancel t' found hcan =>
        refine World.Keeps.changeOther ?_ hi
        refine ⟨t, ?_, hc, hkeep⟩
        unfold World.forgetPrompt
        split <;> exact ht
      | finish t' o found rest => exact World.Keeps.changeOther ⟨t, ht, hc, hkeep⟩ hi
      | again t' found rest => exact World.Keeps.changeOther ⟨t, ht, hc, hkeep⟩ hi
      | ask => cases hn
  | turn outside => cases hm; exact ⟨t, ht, hc, hkeep⟩
  | clock moment => cases hm; exact ⟨t, ht, hc, hkeep⟩
  | tell child e => cases hm; exact ⟨t, ht, hc, hkeep⟩
  | vanish child => cases hm; exact ⟨t, ht, hc, hkeep⟩
  | die child => cases hm; exact ⟨t, ht, hc, hkeep⟩

/-- The result is as the postcondition says. -/
theorem World.Keeps.result (h : w.Keeps P Q i x) {o : Outcome} (ho : w.result? i = some o) : Q x o := by
  obtain ⟨t, ht, -, hkeep⟩ := h
  simp only [World.result?, ht, Option.bind_some] at ho
  have hobeys := hkeep.rest
  rw [hkeep.result o ho] at hobeys
  obtain ⟨o', ho', hQ⟩ := hobeys
  cases ho'
  exact hQ

theorem World.Keeps.pending (h : w.Keeps P Q i x) {r : Request} {k : r.Answer → Program Flow}
    (hp : w.pending i = some ⟨r, k⟩) (a : r.Answer) : ∃ y, P x r a y := by
  obtain ⟨t, ht, -, hkeep⟩ := h
  obtain ⟨t', ht', -, -, hrest⟩ := World.pending_eq_some hp
  obtain rfl : t = t' := Option.some.inj (ht.symm.trans ht')
  have hobeys := hkeep.rest
  rw [hrest] at hobeys
  obtain ⟨y, hP, -⟩ := hobeys a
  exact ⟨y, hP⟩

end Keeping

/-! ## Coming to an end -/

/-- Whether the answer may have to be waited for. -/
def Request.waits : Request → Bool
  | .awaitPrompt _ => true
  | .awaitCommand _ => true
  | .nextEvent _ => true
  | .awaitExit .. => true
  | .awaitCheck _ => true
  | _ => false

section Ending

variable {ε σ : Type} {env : Environment ε} {s : Service} {P : Protocol σ} {Q : σ → Outcome → Prop}
  {x : σ} {w : World ε} {i : Nat}

theorem World.perform_of_not_waits {rs : Roles} {r : Request} (h : r.waits = false) :
    (w.perform env rs i r).isSome = true := by
  cases r with
  | register handle d =>
    simp only [World.perform]
    split <;> rfl
  | recordExit pid exit =>
    simp only [World.perform]
    split <;> rfl
  | awaitPrompt | awaitCommand | nextEvent | awaitExit | awaitCheck => cases h
  | _ => rfl

theorem World.attempt_of_pending {r : Request} {k : r.Answer → Program Flow} {a : r.Answer} {w₁ : World ε}
    (hp : w.pending i = some ⟨r, k⟩) (hperf : w.perform env s.roles i r = some (a, w₁)) :
    w.attempt env s.roles i = some (w₁.changeTask i ({ · with rest := k a })) := by
  obtain ⟨t, ht, hover, hcan, hrest⟩ := World.pending_eq_some hp
  simp [World.attempt, ht, hover, hcan, hrest, hperf]

/-- A call that has not returned takes a step, unless it waits for something. -/
theorem World.Keeps.goes_on (h : w.Keeps P Q i x) (hres : w.result? i = none) :
    (w.attempt env s.roles i).isSome = true ∨
    ∃ r k, w.pending i = some ⟨r, k⟩ ∧ r.waits = true ∧ w.perform env s.roles i r = none := by
  obtain ⟨t, ht, hc, hkeep⟩ := h
  simp only [World.result?, ht, Option.bind_some] at hres
  have hover : t.isOver = false := by simp [Task.isOver, hres, hkeep.dropped]
  have hobeys := hkeep.rest
  cases hrest : t.rest with
  | done flow =>
    rw [hrest] at hobeys
    obtain ⟨o, rfl, -⟩ := hobeys
    exact .inl (by simp [World.attempt, ht, hover, hc, hrest])
  | ask r k =>
    have hp : w.pending i = some ⟨r, k⟩ := by simp [World.pending, ht, hover, hc, hrest]
    cases hperf : w.perform env s.roles i r with
    | some p =>
      left
      rw [World.attempt_of_pending hp (hperf : _ = some (p.1, p.2))]
      rfl
    | none =>
      refine .inr ⟨r, k, hp, ?_, hperf⟩
      by_contra hw
      have hsome : (w.perform env s.roles i r).isSome = true :=
        World.perform_of_not_waits (Bool.not_eq_true _ ▸ hw)
      rw [hperf] at hsome
      cases hsome

/-- The task returns this: it has done so, or its own next steps, which nothing holds up, lead to it. -/
def World.Returns (env : Environment ε) (s : Service) (w : World ε) (i : Nat) (o : Outcome) : Prop :=
  (∀ o', w.result? i = some o' → o' = o) ∧
  ∃ n acts w', w.moves env s [] (List.replicate n (.step i)) = some (acts, w') ∧ w'.result? i = some o

/-- A call that only asks the world outside a few more things comes to its end. -/
theorem World.Keeps.comes_to (h : w.Keeps P Q i x) {o : Outcome}
    (hP : ∀ (r : Request) (a : r.Answer) (y : σ), P x r a y → (∃ q, r = .query q) ∧ y = x)
    (hQ : ∀ o', Q x o' → o' = o) (acts : List Act) :
    ∃ n acts' w', w.moves env s acts (List.replicate n (.step i)) = some (acts', w') ∧
      w'.result? i = some o := by
  obtain ⟨t, ht, hc, hkeep⟩ := h
  obtain ⟨hobeys, hresult, hdropped⟩ := hkeep
  -- by induction on what is left of the program
  generalize hrest : t.rest = p at hobeys
  induction p generalizing w t acts with
  | done flow =>
    obtain ⟨o', rfl, ho'⟩ := hobeys
    obtain rfl := hQ o' ho'
    cases hres : t.result with
    | some o'' =>
      have := hresult o'' hres
      rw [hrest] at this
      cases this
      exact ⟨0, acts, w, rfl, by simp [World.result?, ht, hres]⟩
    | none =>
      have hover : t.isOver = false := by simp [Task.isOver, hres, hdropped]
      refine ⟨1, (w.act? env s.roles i).toList ++ acts, w.changeTask i ({ · with result := some o' }), ?_, ?_⟩
      · simp [World.moves, World.move, World.attempt, ht, hover, hc, hrest]
      · simp [World.result?, World.changeTask, ht]
  | ask r k ih =>
    have hnone : t.result = none := by
      cases hres : t.result with
      | none => rfl
      | some o' =>
        have := hresult o' hres
        rw [hrest] at this
        cases this
    have hover : t.isOver = false := by simp [Task.isOver, hnone, hdropped]
    obtain ⟨q, rfl⟩ : ∃ q, r = .query q := by
      obtain ⟨a⟩ := r.answerable
      obtain ⟨y, hy, -⟩ := hobeys a
      exact (hP _ _ _ hy).1
    obtain ⟨y, hy, hk⟩ := hobeys (w.ask env i q).1
    obtain ⟨-, rfl⟩ := hP _ _ _ hy
    have hp : w.pending i = some ⟨.query q, k⟩ := by simp [World.pending, ht, hover, hc, hrest]
    obtain ⟨n, acts', w', hmoves, hres'⟩ := ih (w.ask env i q).1
      (w := (w.ask env i q).2.changeTask i ({ · with rest := k (w.ask env i q).1 }))
      ((w.act? env s.roles i).toList ++ acts) { t with rest := k (w.ask env i q).1 }
      (by simp [World.changeTask, World.ask, ht]) hc (fun o' ho' => by simp [hnone] at ho') hdropped rfl hk
    refine ⟨n + 1, acts', w', ?_, hres'⟩
    simp only [List.replicate_succ, World.moves, World.move, World.attempt_of_pending hp rfl,
      Option.map_some]
    exact hmoves

theorem World.Keeps.returns (h : w.Keeps P Q i x) {o : Outcome}
    (hP : ∀ (r : Request) (a : r.Answer) (y : σ), P x r a y → (∃ q, r = .query q) ∧ y = x)
    (hQ : ∀ o', Q x o' → o' = o) : w.Returns env s i o :=
  ⟨fun o' ho' => hQ o' (h.result ho'), h.comes_to hP hQ []⟩

end Ending

/-! ## How many steps it takes -/

namespace Program

variable {α β : Type} {n m : Nat}

/-- The program puts at most `n` requests. -/
def EndsIn : Nat → Program α → Prop
  | _, .done _ => True
  | 0, .ask _ _ => False
  | n + 1, .ask _ k => ∀ a, (k a).EndsIn n

theorem EndsIn.mono {p : Program α} (h : p.EndsIn n) (hle : n ≤ m) : p.EndsIn m := by
  induction p generalizing n m with
  | done a => cases m <;> trivial
  | ask r k ih =>
    cases n with
    | zero => exact h.elim
    | succ n =>
      cases m with
      | zero => omega
      | succ m => exact fun a => ih a (h a) (Nat.le_of_succ_le_succ hle)

theorem EndsIn.done (a : α) : (Program.done a).EndsIn n := by cases n <;> trivial

/-- One request and what follows it. -/
theorem EndsIn.ask {r : Request} {f : r.Answer → Program α} (h : ∀ a, (f a).EndsIn n) :
    ((perform r).bind f).EndsIn (n + 1) := h

theorem EndsIn.bind {p : Program α} {f : α → Program β} (hp : p.EndsIn n) (hf : ∀ a, (f a).EndsIn m) :
    (p.bind f).EndsIn (n + m) := by
  induction p generalizing n with
  | done a => exact (hf a).mono (Nat.le_add_left m n)
  | ask r k ih =>
    cases n with
    | zero => exact hp.elim
    | succ n =>
      rw [Nat.succ_add]
      exact fun a => ih a (hp a)

/-- Side by side, two programs put the requests of both. -/
theorem EndsIn.both {p : Program α} {q : Program β} (hp : p.EndsIn n) (hq : q.EndsIn m)
    (turns : List Side) : (both turns p q).EndsIn (n + m) := by
  have rest : ∀ {n m : Nat} {p : Program α} {q : Program β}, p.EndsIn n → q.EndsIn m →
      (p.bind fun a => q.bind fun b => .done (a, b)).EndsIn (n + m) :=
    fun hp hq => hp.bind fun _ => hq.bind (m := 0) fun _ => trivial
  induction turns generalizing p q n m with
  | nil => cases p <;> cases q <;> exact rest hp hq
  | cons side turns ih =>
    cases side with
    | left =>
      cases p with
      | done a => cases q <;> exact rest hp hq
      | ask r k =>
        cases n with
        | zero => exact hp.elim
        | succ n =>
          rw [Nat.succ_add]
          exact fun a => ih (hp a) hq
    | right =>
      cases q with
      | done b => cases p <;> exact rest hp hq
      | ask r k =>
        cases m with
        | zero => exact hq.elim
        | succ m => cases p <;> exact fun a => ih hp (hq a)

end Program

/-- The number of requests that a task may still put. -/
def Spends : Protocol Nat := fun x _ _ y => x = y + 1

theorem Program.EndsIn.spends {α : Type} {n : Nat} {p : Program α} (h : p.EndsIn n) :
    p.Obeys Spends (fun _ _ => True) n := by
  induction p generalizing n with
  | done a => trivial
  | ask r k ih =>
    cases n with
    | zero => exact h.elim
    | succ n => exact fun a => ⟨n, rfl, ih a (h a)⟩

/-! ## Following a call -/

section Following

variable {ε σ : Type} {env : Environment ε} {s : Service} {acts₀ : List Act} {w₀ w : World ε}
  {past : List (Episode ε)} {P : Protocol σ} {Q : σ → Outcome → Prop} {x₀ : σ} {c : Call}

/-- The task of a call is the one with the next number. -/
theorem Run.role_of_call (h₀ : Run env s acts₀ w₀) (c : Call) (later : List Act) :
    (roles (later ++ .call c :: acts₀))[w₀.tasks.length]? = some (.call c) := by
  induction later with
  | nil =>
    rw [← h₀.roles_length]
    simp [roles, Act.birth?]
  | cons x later ih => exact roles_cons_of_some x ih

/-- A course behind a call goes on with the run in which the call was made. -/
theorem Course.run_of_call (h : Course env s (w₀.called s c) past w) (h₀ : Run env s acts₀ w₀) :
    Run env s (actsOf past ++ .call c :: acts₀) w :=
  h.run (.move (.call c) h₀ rfl)

theorem exists_call_of_role {acts : List Act} {i : Nat} (h : (roles acts)[i]? = some (.call c)) :
    ∃ later earlier, acts = later ++ .call c :: earlier ∧ (roles earlier).length = i := by
  induction acts with
  | nil => simp [roles] at h
  | cons x acts ih =>
    rcases roles_cons_cases h with ⟨-, hold⟩ | ⟨rfl, hb⟩
    · obtain ⟨later, earlier, rfl, hlen⟩ := ih hold
      exact ⟨x :: later, earlier, rfl, hlen⟩
    · cases x with
      | call c' =>
        cases hb
        exact ⟨[], acts, rfl, rfl⟩
      | step task r a => cases r <;> cases hb

/-- The course of a call that was made in a run. -/
theorem Run.course_of_call {acts : List Act} {i : Nat} (h : Run env s acts w)
    (hi : (roles acts)[i]? = some (.call c)) :
    ∃ acts₀ w₀ past, Run env s acts₀ w₀ ∧ w₀.tasks.length = i ∧ Course env s (w₀.called s c) past w ∧
      acts = actsOf past ++ .call c :: acts₀ := by
  obtain ⟨later, acts₀, rfl, rfl⟩ := exists_call_of_role hi
  obtain ⟨w₀, w₁, m, past, h₀, hm, hcourse, rfl⟩ := h.split
  refine ⟨acts₀, w₀, past, h₀, h₀.roles_length.symm, ?_, rfl⟩
  cases World.move_cases hm with
  | call => exact hcourse

/-- **A call in its course.** If the call keeps to a protocol, and an invariant over its state survives what
the call does, what others do and all that lies between, then the invariant holds at every moment of the
course, and the result of the call, once there is one, is as the postcondition says. -/
theorem Course.accompany (h₀ : Run env s acts₀ w₀) (hc : (c.outcome s).Obeys P Q x₀)
    {J : σ → List (Episode ε) → World ε → Prop} (start : J x₀ [] (w₀.called s c))
    (own : ∀ {x y past w w₁} {r : Request} {k : r.Answer → Program Flow} {a : r.Answer},
      Course env s (w₀.called s c) past w → J x past w →
      w.pending w₀.tasks.length = some ⟨r, k⟩ →
      w.perform env s.roles w₀.tasks.length r = some (a, w₁) → P x r a y →
      J y (⟨w, .step w₀.tasks.length r a⟩ :: past)
        (w₁.changeTask w₀.tasks.length ({ · with rest := k a })))
    (other : ∀ {x past w w₁ task} {r : Request} {k : r.Answer → Program Flow} {a : r.Answer},
      Course env s (w₀.called s c) past w → J x past w → task ≠ w₀.tasks.length →
      w.pending task = some ⟨r, k⟩ → w.perform env s.roles task r = some (a, w₁) →
      J x (⟨w, .step task r a⟩ :: past) (w₁.changeTask task ({ · with rest := k a })))
    (call : ∀ {x past w} c', Course env s (w₀.called s c) past w → J x past w →
      J x (⟨w, .call c'⟩ :: past) (w.called s c'))
    (hush : ∀ {x past w w'}, J x past w → w.Hush w' → J x past w')
    (h : Course env s (w₀.called s c) past w) :
    ∃ x, J x past w ∧ w.Keeps P Q w₀.tasks.length x := by
  -- the task of a call is never cancelled
  have uncancelled : ∀ {acts : List Act} {w : World ε}, Run env s (acts ++ .call c :: acts₀) w →
      w.isCancelled w₀.tasks.length = false := by
    intro acts w hrun
    by_contra hcan
    have hcheck := hrun.cancelled_check (Bool.not_eq_false _ ▸ hcan)
    rw [h₀.role_of_call] at hcheck
    cases hcheck
  induction h with
  | here =>
    refine ⟨x₀, start, .ofProgram (c.program s), List.getElem?_concat_length .., rfl, ?_, nofun, rfl⟩
    exact Program.obeys_bind.2 (hc.mono fun y o hQ => ⟨o, rfl, hQ⟩)
  | @move past new w w' m h hm ih =>
    obtain ⟨x, hJ, hkeep⟩ := ih
    have hrun' := (Course.move m h hm).run_of_call h₀
    cases new with
    | nil => exact ⟨x, hush hJ (World.move_nil_hush hm), hkeep.hush hm⟩
    | cons y rest =>
      cases hmoved : World.move_cases hm with
      | call c' =>
        refine ⟨x, call c' h hJ, ?_⟩
        obtain ⟨t, ht, hkeep⟩ := hkeep
        exact ⟨t, by simp [World.addTask, List.getElem?_append_left (List.getElem?_eq_some_iff.1 ht).1, ht],
          hkeep⟩
      | @act task r k a w₁ pending performed =>
        obtain ⟨k', w₂, hp, hperf, heq⟩ := World.move_act hm
        rw [heq] at hrun' ⊢
        have hcan : w₂.isCancelled w₀.tasks.length = false := by
          rw [← World.isCancelled_changeTask (f := ({ · with rest := k' a })) fun _ => rfl]
          exact uncancelled hrun'
        by_cases hi : task = w₀.tasks.length
        · subst hi
          obtain ⟨y, hP, hkeep'⟩ := hkeep.own hp (World.perform_cases hperf) hcan
          exact ⟨y, own h hJ hp hperf hP, hkeep'⟩
        · exact ⟨x, other h hJ hi hp hperf, (hkeep.other (World.perform_cases hperf) hcan).changeOther hi⟩

/-- The same for a course that is undisturbed: whoever else acts is no caller. -/
theorem Course.attend (h₀ : Run env s acts₀ w₀) (hc : (c.outcome s).Obeys P Q x₀)
    {J : σ → List (Episode ε) → World ε → Prop} (start : J x₀ [] (w₀.called s c))
    (own : ∀ {x y past w w₁} {r : Request} {k : r.Answer → Program Flow} {a : r.Answer},
      Course env s (w₀.called s c) past w → J x past w →
      w.pending w₀.tasks.length = some ⟨r, k⟩ →
      w.perform env s.roles w₀.tasks.length r = some (a, w₁) → P x r a y →
      J y (⟨w, .step w₀.tasks.length r a⟩ :: past)
        (w₁.changeTask w₀.tasks.length ({ · with rest := k a })))
    (other : ∀ {x past w w₁ task} {ρ : Role} {r : Request} {k : r.Answer → Program Flow} {a : r.Answer},
      Course env s (w₀.called s c) past w → J x past w → task ≠ w₀.tasks.length →
      (roles (actsOf past ++ .call c :: acts₀))[task]? = some ρ → (∀ c', ρ ≠ .call c') →
      w.pending task = some ⟨r, k⟩ → w.perform env s.roles task r = some (a, w₁) →
      J x (⟨w, .step task r a⟩ :: past) (w₁.changeTask task ({ · with rest := k a })))
    (hush : ∀ {x past w w'}, J x past w → w.Hush w' → J x past w')
    (h : Course env s (w₀.called s c) past w)
    (hu : Undisturbed w₀.tasks.length (.call c :: acts₀) past) :
    ∃ x, J x past w ∧ w.Keeps P Q w₀.tasks.length x := by
  obtain ⟨x, hJ, hkeep⟩ := Course.accompany
    (J := fun x past w => Undisturbed w₀.tasks.length (.call c :: acts₀) past → J x past w) h₀ hc
    (fun _ => start) (fun hcourse hJ hp hperf hP hu => own hcourse (hJ hu.tail) hp hperf hP)
    (fun hcourse hJ hne hp hperf hu => by
      obtain ⟨ρ, hρ⟩ := (hcourse.run_of_call h₀).exists_role_of_lt (World.lt_of_pending hp)
      exact other hcourse (hJ hu.tail) hne hρ (hu.head hne hρ) hp hperf)
    (fun c' _ _ hu => absurd hu Undisturbed.not_call) (fun hJ hh hu => hush (hJ hu) hh) h
  exact ⟨x, hJ hu, hkeep⟩

/-- A call puts no more requests than its program has. -/
theorem Course.steps_le {n : Nat} (h₀ : Run env s acts₀ w₀) (hc : (c.outcome s).EndsIn n)
    (h : Course env s (w₀.called s c) past w) :
    (actsOf past).countP (·.task? == some w₀.tasks.length) ≤ n := by
  have counted : ∃ x, (actsOf past).countP (·.task? == some w₀.tasks.length) + x = n ∧
      w.Keeps Spends (fun _ _ => True) w₀.tasks.length x := by
    refine Course.accompany
      (J := fun x past _ => (actsOf past).countP (·.task? == some w₀.tasks.length) + x = n) h₀ hc.spends
      (Nat.zero_add n) ?_ ?_ ?_ (fun hJ _ => hJ) h
    · intro x y past w w₁ r k a _ hJ hp hperf hP
      obtain rfl : x = y + 1 := hP
      rw [actsOf, List.map_cons, List.countP_cons_of_pos (by simp [Act.task?]), Nat.succ_add]
      exact hJ
    · intro x past w w₁ task r k a _ hJ hne hp hperf
      rw [actsOf, List.map_cons, List.countP_cons_of_neg (by simp [Act.task?, hne])]
      exact hJ
    · intro x past w c' _ hJ
      rw [actsOf, List.map_cons, List.countP_cons_of_neg (by simp [Act.task?])]
      exact hJ
  obtain ⟨x, hx, -⟩ := counted
  exact Nat.le.intro hx

end Following

/-! ## Courses to look at -/

/-- All moves of a list in a row, with their episodes. -/
def World.course {ε : Type} (env : Environment ε) (s : Service) (past : List (Episode ε)) (w : World ε) :
    List (Move ε) → Option (List (Episode ε) × World ε)
  | [] => some (past, w)
  | m :: ms =>
    match w.move env s m with
    | none => none
    | some (new, w') => course env s (new.map (Episode.mk w) ++ past) w' ms

theorem Course.course {ε : Type} {env : Environment ε} {s : Service} {w₀ : World ε} {ms : List (Move ε)} :
    ∀ {past past' : List (Episode ε)} {w w' : World ε}, Course env s w₀ past w →
      w.course env s past ms = some (past', w') → Course env s w₀ past' w' := by
  induction ms with
  | nil =>
    intro past past' w w' h hm
    simp only [World.course, Option.some.injEq, Prod.mk.injEq] at hm
    obtain ⟨rfl, rfl⟩ := hm
    exact h
  | cons m ms ih =>
    intro past past' w w' h hm
    rw [World.course] at hm
    split at hm
    · cases hm
    · rename_i new w₁ h₁
      exact ih (.move m h h₁) hm

namespace Rehearsal

/-- The episodes behind a call and the world after them. -/
def sequel (w₀ : World Script) (c : Call) (ms : List (Move Script)) : List (Episode Script) × World Script :=
  ((w₀.called sample c).course Script.environment sample [] ms).getD ([], w₀.called sample c)

theorem course_sequel (w₀ : World Script) (c : Call) (ms : List (Move Script)) :
    Course Script.environment sample (w₀.called sample c) (sequel w₀ c ms).1 (sequel w₀ c ms).2 := by
  unfold sequel
  cases h : (w₀.called sample c).course Script.environment sample [] ms with
  | none => exact .here
  | some p => exact Course.here.course h

end Rehearsal

end Steward
