import Steward.Proofs.Repertoire

/-!
# Whose the update checks are

At any moment an update check is in one place: in the hands of the activation that has just started it, in
the slot of the current check, in the hands of whoever took it out of the slot, be it to cancel it or to
wait for its result, or it is cancelled. `Grip` is the protocol by which checks change hands. Three things
can happen: a check is started, what a task has in hand and what is in the slot change places, and a check
in hand is cancelled. `Placed` is the invariant, and `Run.placed` proves it.

What follows is that only update checks are cancelled (`Run.cancelled_check`): a call, or the observer of a
child, always runs to its own end.
-/

set_option autoImplicit false

namespace Steward

/-- How far a task has come with an update check. -/
inductive Stage where
  /-- it has nothing to do with update checks -/
  | aloof
  /-- an activation that has not started its check -/
  | active
  /-- it has started the check, which is not yet the current one -/
  | fresh (check : Nat)
  /-- a deactivation that has not looked for the current check -/
  | leaving
  /-- it has the check in hand to cancel it -/
  | doomed (check : Nat)
  /-- a caller who has not looked for the check whose result he wants -/
  | seeking
  /-- it waits for the result of the check -/
  | awaiting (check : Nat)
  /-- it has nothing in hand any more -/
  | through
  deriving Repr, DecidableEq

namespace Stage

/-- The check in hand. -/
def held? : Stage → Option Nat
  | .fresh check => some check
  | .doomed check => some check
  | .awaiting check => some check
  | _ => none

def isDone : Stage → Bool
  | .fresh _ => false
  | .leaving => false
  | .doomed _ => false
  | .seeking => false
  | _ => true

/-- What came out of the slot is to be cancelled. -/
def doom : Option Nat → Stage
  | some check => .doomed check
  | none => .through

/-- What came out of the slot is waited for. -/
def await : Option Nat → Stage
  | some check => .awaiting check
  | none => .through

/-- Whether a task that began at the first stage can be at the second. -/
def leadsTo : Stage → Stage → Bool
  | .aloof, .aloof => true
  | .active, .active => true
  | .active, .fresh _ => true
  | .active, .doomed _ => true
  | .active, .through => true
  | .leaving, .leaving => true
  | .leaving, .doomed _ => true
  | .leaving, .through => true
  | .seeking, .seeking => true
  | .seeking, .awaiting _ => true
  | .seeking, .through => true
  | _, _ => false

@[simp] theorem held?_doom (o : Option Nat) : (doom o).held? = o := by cases o <;> rfl

@[simp] theorem held?_await (o : Option Nat) : (await o).held? = o := by cases o <;> rfl

end Stage

/-- How update checks change hands. -/
inductive Grip : Protocol Stage where
  | other {x : Stage} {r : Request} {a : r.Answer} (h : r.kind ≠ .check) : Grip x r a x
  | spawn {check : Nat} : Grip .active .spawnCheck check (.fresh check)
  | swap {check : Nat} {old : Option Nat} :
      Grip (.fresh check) (.swapCheck check) old (.doom old)
  | take {old : Option Nat} : Grip .leaving .takeCheck old (.doom old)
  | cancel {check : Nat} : Grip (.doomed check) (.cancelCheck check) () .through
  | seek {old : Option Nat} : Grip .seeking .takeCheck old (.await old)
  | await {x : Stage} {check : Nat} {c : Option Update.Check} : Grip x (.awaitCheck check) c x

/-- The stage at which a task begins. -/
def Role.stage : Role → Stage
  | .call .activate => .active
  | .call .deactivate => .leaving
  | .call .waitForUpdateCheck => .seeking
  | _ => .aloof

theorem Role.stage_leadsTo (ρ : Role) : ρ.stage.leadsTo ρ.stage = true := by
  cases ρ with
  | call c => cases c <;> rfl
  | _ => rfl

theorem Role.held?_stage (ρ : Role) : ρ.stage.held? = none := by
  cases ρ with
  | call c => cases c <;> rfl
  | _ => rfl

/-- Every step leads from a stage to one that may follow. -/
theorem Grip.leadsTo {x₀ x y : Stage} {r : Request} {a : r.Answer} (h : Grip x r a y)
    (hx : x₀.leadsTo x = true) : x₀.leadsTo y = true := by
  cases h with
  | other | await => exact hx
  | @swap _ old => cases old <;> cases x₀ <;> first | rfl | cases hx
  | @take old => cases old <;> cases x₀ <;> first | rfl | cases hx
  | @seek old => cases old <;> cases x₀ <;> first | rfl | cases hx
  | _ => cases x₀ <;> first | rfl | cases hx

/-! ## Programs -/

section Gripping

open Program

/-- Programs that know of no update check. -/
theorem Program.Uses.grips {α : Type} {ks : List Request.Kind} {p : Program α} (hp : p.Uses ks)
    (hk : ks.all (· ≠ .check) = true) {x : Stage} {Q : Stage → α → Prop} (hQ : ∀ a, Q x a) :
    p.Obeys Grip Q x :=
  hp.obeys_all hk (fun _ _ hr => .other (of_decide_eq_true hr)) hQ

theorem beginCheck_grips :
    Activation.beginCheck.Obeys Grip (fun y _ => y.isDone = true) .active := by
  refine Obeys.ask fun check => ⟨_, .spawn, Obeys.ask fun old => ⟨_, .swap, ?_⟩⟩
  cases old with
  | none => exact rfl
  | some old => exact fun _ => ⟨_, .cancel, rfl⟩

theorem activate_grips (s : Service) :
    (Activation.activate s).Obeys Grip (fun y _ => y.isDone = true) .active := by
  refine obeys_bind.2 ((uses_write _ _ _ rfl).grips rfl fun _ => ?_)
  refine obeys_bind.2 ((uses_start s).grips rfl fun outcome => ?_)
  split
  · exact obeys_bind.2 (beginCheck_grips.mono fun _ _ hy => hy)
  · exact rfl

theorem waitForUpdateCheck_grips :
    Activation.waitForUpdateCheck.Obeys Grip (fun y _ => y.isDone = true) .seeking := by
  refine Obeys.ask fun check => ⟨_, .seek, ?_⟩
  cases check with
  | none => exact rfl
  | some check => exact fun _ => ⟨_, .await, rfl⟩

theorem deactivate_grips (s : Service) :
    (Activation.deactivate s).Obeys Grip (fun y _ => y.isDone = true) .leaving := by
  refine obeys_bind.2 ((uses_write _ _ _ rfl).grips rfl fun _ => ?_)
  have finish : ((Supervisor.shutdown s.shutdownGrace).bind fun _ => query .closeOutput).Obeys Grip
      (fun y _ => y.isDone = true) .through := by
    have uses : ((Supervisor.shutdown s.shutdownGrace).bind fun _ => query .closeOutput).Uses
        [.talk, .halt] := (uses_shutdown _).bind fun _ => uses_perform rfl
    exact uses.grips rfl fun _ => rfl
  refine Obeys.ask fun check => ⟨_, .take, ?_⟩
  cases check with
  | none => exact finish
  | some check => exact fun _ => ⟨_, .cancel, fun _ => ⟨_, .await, finish⟩⟩

theorem outcome_grips (s : Service) (c : Call) :
    (c.outcome s).Obeys Grip (fun y _ => y.isDone = true) (Role.call c).stage := by
  have bound : ∀ {β : Type} {p : Program β} {f : β → Outcome} {x : Stage},
      p.Obeys Grip (fun y _ => y.isDone = true) x →
      (p.bind fun b => .done (f b)).Obeys Grip (fun y _ => y.isDone = true) x :=
    fun hp => obeys_bind.2 (hp.mono fun _ _ hy => hy)
  cases hc : c.kinds.all (· ≠ .check) with
  | true =>
    refine (Call.uses s c).grips hc fun _ => ?_
    cases c <;> first | rfl | cases hc
  | false =>
    cases c with
    | activate => exact bound (activate_grips s)
    | deactivate => exact bound (deactivate_grips s)
    | waitForUpdateCheck => exact bound waitForUpdateCheck_grips
    | _ => cases hc

/-- **Checks change hands by the protocol, whoever handles them.** -/
theorem Role.grips (s : Service) (ρ : Role) :
    (ρ.program s).Obeys Grip (Closes (·.isDone = true) ρ.stage) ρ.stage := by
  cases ρ with
  | call c => exact obeys_bind.2 ((outcome_grips s c).mono fun _ _ hy => hy)
  | observer child pid =>
    refine obeys_bind.2 ((uses_observeOnce s child pid).grips rfl fun last => ?_)
    cases last <;> rfl
  | check => exact obeys_bind.2 ((uses_check s).grips rfl fun _ => rfl)

end Gripping

/-! ## What a task has in hand -/

section Hands

variable {ε : Type} {env : Environment ε} {s : Service} {acts : List Act} {w : World ε}

/-- What the task has in hand behind a request about update checks. -/
def Request.grip : (r : Request) → r.Answer → Option (Option Nat)
  | .spawnCheck, check => some (some check)
  | .swapCheck _, old => some old
  | .takeCheck, old => some old
  | .cancelCheck _, _ => some none
  | _, _ => none

/-- What is in hand in the end. -/
def lastGrip (grips : List (Option Nat)) : Option Nat := grips.getLast?.join

theorem lastGrip_append (grips : List (Option Nat)) (o : Option (Option Nat)) :
    lastGrip (grips ++ o.toList) = o.getD (lastGrip grips) := by
  cases o with
  | none => simp [lastGrip]
  | some held =>
    have hlast : (grips ++ [held]).getLast? = some held := List.getLast?_concat
    rw [lastGrip, Option.toList_some, hlast]
    rfl

/-- The check that a task has in hand, as its acts tell. -/
def hand (i : Nat) (acts : List Act) : Option Nat := lastGrip (chronicle Request.grip i acts)

theorem hand_own (i : Nat) (r : Request) (a : r.Answer) (acts : List Act) :
    hand i (.step i r a :: acts) = (r.grip a).getD (hand i acts) := by
  rw [hand, chronicle_own, lastGrip_append, hand]

theorem hand_other {i : Nat} {x : Act} (h : x.task? ≠ some i) (acts : List Act) :
    hand i (x :: acts) = hand i acts := by
  rw [hand, chronicle_other h, hand]

theorem Grip.held {x y : Stage} {r : Request} {a : r.Answer} (h : Grip x r a y) :
    y.held? = (r.grip a).getD x.held? := by
  cases h with
  | other hk =>
    cases r with
    | spawnCheck | swapCheck | takeCheck | cancelCheck => exact absurd rfl hk
    | _ => rfl
  | swap => exact Stage.held?_doom _
  | take => exact Stage.held?_doom _
  | seek => exact Stage.held?_await _
  | _ => rfl

/-- The stage of a task fits its role and what it has in hand. -/
theorem Run.gripped (h : Run env s acts w) :
    ∃ stage, w.Follows Grip (·.isDone = true) stage ∧
      ∀ (i : Nat) (ρ : Role), (roles acts)[i]? = some ρ →
        ρ.stage.leadsTo (stage i) = true ∧ (stage i).held? = hand i acts := by
  refine Run.chronicled (G := fun ρ x l => ρ.stage.leadsTo x = true ∧ x.held? = lastGrip l)
    (Role.grips s) (fun ρ => ⟨ρ.stage_leadsTo, ρ.held?_stage⟩) ?_ h
  rintro ρ x y l r a ⟨hleads, hheld⟩ hP
  refine ⟨hP.leadsTo hleads, ?_⟩
  rw [hP.held, hheld, lastGrip_append]

end Hands

/-! ## Which tasks are cancelled, and which check is current -/

section Worlds

variable {ε : Type} {env : Environment ε} {rs : Roles} {w w' w₁ : World ε} {task i : Nat}
  {r : Request} {a : r.Answer}

def World.isCancelled (w : World ε) (i : Nat) : Bool := (w.tasks[i]?).any (·.cancelled)

theorem World.isCancelled_addTask (w : World ε) (p : Program Flow) (i : Nat) :
    (w.addTask p).2.isCancelled i = w.isCancelled i := by
  simp only [isCancelled, addTask]
  rcases Nat.lt_trichotomy i w.tasks.length with hi | rfl | hi
  · rw [List.getElem?_append_left hi]
  · simp [Task.ofProgram]
  · have hi' : (w.tasks ++ [Task.ofProgram p]).length ≤ i := by
      rw [List.length_append]
      exact hi
    rw [List.getElem?_eq_none hi', List.getElem?_eq_none (Nat.le_of_lt hi)]

theorem World.isCancelled_changeTask {f : Task → Task} (hf : ∀ t, (f t).cancelled = t.cancelled) :
    (w.changeTask task f).isCancelled i = w.isCancelled i := by
  simp only [isCancelled, changeTask, List.getElem?_modify]
  cases w.tasks[i]? with
  | none => rfl
  | some t =>
    by_cases hi : task = i
    · simp [hi, hf]
    · simp [hi]

theorem World.isCancelled_cancel {check : Nat} (h : check < w.tasks.length) :
    (w.changeTask check ({ · with cancelled := true })).isCancelled i =
      (w.isCancelled i || i == check) := by
  simp only [isCancelled, changeTask, List.getElem?_modify]
  by_cases hi : check = i
  · subst hi
    simp [List.getElem?_eq_getElem h]
  · have hne : (i == check) = false := by simpa using Ne.symm hi
    rw [hne, Bool.or_false]
    cases w.tasks[i]? <;> simp [hi]

/-- Only a cancellation cancels. -/
theorem World.Performed.isCancelled (h : World.Performed env rs w task r a w₁)
    (hr : ∀ check, r ≠ .cancelCheck check) : w₁.isCancelled i = w.isCancelled i := by
  have htasks := h.tasks
  cases r with
  | cancelCheck check => exact absurd rfl (hr check)
  | observe child pid =>
    rw [← w.isCancelled_addTask (rs.observer child pid), World.isCancelled, World.isCancelled, htasks]
    rfl
  | spawnCheck =>
    rw [← w.isCancelled_addTask rs.updateCheck, World.isCancelled, World.isCancelled, htasks]
    rfl
  | _ => rw [World.isCancelled, World.isCancelled, htasks]; rfl

/-- What is cancelled stays so. -/
theorem World.Performed.isCancelled_of (h : World.Performed env rs w task r a w₁)
    (hc : w.isCancelled i = true) : w₁.isCancelled i = true := by
  by_cases hr : ∃ check, r = .cancelCheck check
  · obtain ⟨check, rfl⟩ := hr
    cases h with
    | cancelCheck =>
      obtain ⟨t, ht, hcan⟩ := (Option.any_eq_true _ _).1 hc
      simp only [World.isCancelled, World.changeTask, List.getElem?_modify, ht]
      by_cases hi : check = i <;> simp [hi, hcan]
  · rw [h.isCancelled fun check hr' => hr ⟨check, hr'⟩]
    exact hc

theorem World.Hush.isCancelled (h : w.Hush w') : w'.isCancelled i = w.isCancelled i := by
  unfold World.isCancelled
  cases ht : w'.tasks[i]? with
  | none =>
    have hi := List.getElem?_eq_none_iff.1 ht
    rw [h.tasks_length] at hi
    rw [List.getElem?_eq_none hi]
  | some t' =>
    obtain ⟨t, hold, hc⟩ := h.task i t' ht
    rw [hold]
    exact hc

/-- The slot of the current update check behind a request. -/
def slotAfter (slot : Option Nat) : Request → Option Nat
  | .swapCheck check => some check
  | .takeCheck => none
  | _ => slot

theorem World.Performed.slot (h : World.Performed env rs w task r a w₁) :
    w₁.slot = slotAfter w.slot r := by
  cases h with
  | stop a w₁ hs =>
    cases hs with
    | delivered pid d h => exact World.exitNow_slot _ _ _
    | undelivered pid d h e => exact World.exitNow_slot _ _ _
    | _ => rfl
  | killed h => exact World.exitNow_slot _ _ _
  | _ => rfl

end Worlds

/-! ## Every check is in one place -/

/-- Where an update check can be. -/
inductive Berth where
  /-- in the hands of the task -/
  | held (task : Nat)
  /-- in the slot: it is the current one -/
  | slot
  /-- nowhere any more -/
  | cancelled
  deriving Repr, DecidableEq

section Places

variable {ε : Type} {acts acts' : List Act} {w w' : World ε} {task check i : Nat} {p q : Berth}
  {place : Nat → Option Berth}

/-- The check lies there. -/
def Berth.Keeps (acts : List Act) (w : World ε) (i : Nat) : Berth → Prop
  | .held task => hand task acts = some i
  | .slot => w.slot = some i
  | .cancelled => w.isCancelled i = true

/-- Every check is in one place, and nothing else is in any. -/
structure Placed (place : Nat → Option Berth) (acts : List Act) (w : World ε) : Prop where
  keeps : ∀ i p, p.Keeps acts w i ↔ place i = some p
  role : ∀ i, (roles acts)[i]? = some .check ↔ (place i).isSome = true

theorem Placed.one (h : Placed place acts w) (hp : p.Keeps acts w i) (hq : q.Keeps acts w i) :
    p = q :=
  Option.some.inj (((h.keeps i p).1 hp).symm.trans ((h.keeps i q).1 hq))

theorem Placed.role_of_keeps (h : Placed place acts w) (hp : p.Keeps acts w i) :
    (roles acts)[i]? = some .check :=
  (h.role i).2 (Option.isSome_of_eq_some ((h.keeps i p).1 hp))

/-- Nothing changes its place. -/
theorem Placed.same (h : Placed place acts w)
    (hkeeps : ∀ (i : Nat) (p : Berth), p.Keeps acts' w' i ↔ p.Keeps acts w i)
    (hrole : ∀ i : Nat, (roles acts')[i]? = some Role.check ↔ (roles acts)[i]? = some .check) :
    Placed place acts' w' where
  keeps i p := (hkeeps i p).trans (h.keeps i p)
  role i := (hrole i).trans (h.role i)

/-- One check, which may be a new one, changes its place. -/
theorem Placed.moved (h : Placed place acts w)
    (hkeeps : ∀ (i : Nat) (q : Berth), q.Keeps acts' w' i ↔ if i = check then q = p else q.Keeps acts w i)
    (hrole : ∀ i : Nat, (roles acts')[i]? = some Role.check ↔
      i = check ∨ (roles acts)[i]? = some .check) :
    Placed (Function.update place check (some p)) acts' w' where
  keeps i q := by
    rw [hkeeps, Function.update_apply]
    by_cases hi : i = check
    · simp [hi, eq_comm]
    · simp [hi, h.keeps]
  role i := by
    rw [hrole, h.role, Function.update_apply]
    by_cases hi : i = check <;> simp [hi]

/-- The hands of one task and the slot change places. -/
def Berth.exchange (task : Nat) : Berth → Berth
  | .held i => if i = task then .slot else .held i
  | .slot => .held task
  | .cancelled => .cancelled

theorem Berth.exchange_exchange (task : Nat) (p : Berth) : (p.exchange task).exchange task = p := by
  cases p with
  | held i => by_cases hi : i = task <;> simp [exchange, hi]
  | slot => simp [exchange]
  | cancelled => rfl

theorem Placed.exchanged (h : Placed place acts w)
    (hkeeps : ∀ (i : Nat) (p : Berth), p.Keeps acts' w' i ↔ (p.exchange task).Keeps acts w i)
    (hrole : ∀ i : Nat, (roles acts')[i]? = some Role.check ↔ (roles acts)[i]? = some .check) :
    Placed (fun i => (place i).map (·.exchange task)) acts' w' where
  keeps i p := by
    rw [hkeeps, h.keeps]
    constructor
    · intro hp
      rw [hp, Option.map_some, Berth.exchange_exchange]
    · intro hp
      obtain ⟨q, hq, rfl⟩ := Option.map_eq_some_iff.1 hp
      rw [hq, Berth.exchange_exchange]
  role i := by
    rw [hrole, h.role, Option.isSome_map]

end Places

section Runs

variable {ε : Type} {env : Environment ε} {s : Service} {acts : List Act} {w w₁ : World ε}
  {task : Nat} {r : Request} {a : r.Answer} {x y : Stage} {place : Nat → Option Berth}
  {rest : Program Flow}

theorem roles_check_cons {x : Act} (h : x.birth? ≠ some .check) (i : Nat) :
    (roles (x :: acts))[i]? = some Role.check ↔ (roles acts)[i]? = some .check := by
  constructor
  · intro hi
    rcases roles_cons_cases hi with ⟨-, hold⟩ | ⟨-, hb⟩
    · exact hold
    · exact absurd hb h
  · exact roles_cons_of_some x

/-- What a task has in hand behind an act. -/
theorem hand_step (i : Nat) : hand i (.step task r a :: acts) =
    if i = task then (r.grip a).getD (hand task acts) else hand i acts := by
  split
  · rename_i hi
    rw [hi, hand_own]
  · rename_i hi
    exact hand_other (Act.task?_step_ne hi r a) acts

/-- How a task goes on does not matter. -/
theorem Placed.goOn (h : Placed place acts w) :
    Placed place acts (w.changeTask task ({ · with rest := rest })) := by
  refine h.same (fun i p => ?_) fun _ => Iff.rfl
  cases p with
  | held j => exact Iff.rfl
  | slot => exact Iff.rfl
  | cancelled =>
    have hcan : (w.changeTask task ({ · with rest := rest })).isCancelled i = w.isCancelled i :=
      World.isCancelled_changeTask fun _ => rfl
    simp only [Berth.Keeps, hcan]

/-- A request that is about no update check, or only waits for one, leaves all where they are. -/
theorem Placed.idle (h : Placed place acts w) (hperf : World.Performed env s.roles w task r a w₁)
    (hgrip : r.grip a = none) : Placed place (.step task r a :: acts) w₁ := by
  have hslot : slotAfter w.slot r = w.slot := by
    cases r <;> first | rfl | cases hgrip
  have hcan : ∀ i, w₁.isCancelled i = w.isCancelled i := fun i =>
    hperf.isCancelled fun check hr => by subst hr; cases hgrip
  have hbirth : (Act.step task r a).birth? ≠ some .check := by
    cases r with
    | spawnCheck => cases hgrip
    | _ => simp [Act.birth?, Request.birth?]
  refine h.same (fun i p => ?_) (roles_check_cons hbirth)
  cases p with
  | held j =>
    simp only [Berth.Keeps, hand_step, hgrip, Option.getD_none]
    by_cases hj : j = task <;> simp [hj]
  | slot => simp only [Berth.Keeps, hperf.slot, hslot]
  | cancelled => simp only [Berth.Keeps, hcan]

theorem Placed.spawned (h : Placed place acts w) (hr : Run env s acts w)
    (hempty : hand task acts = none) :
    Placed (Function.update place w.tasks.length (some (.held task)))
      (.step task .spawnCheck w.tasks.length :: acts) (w.addTask s.roles.updateCheck).2 := by
  -- there was no such task before, so it was in no place
  have hnone : (roles acts)[w.tasks.length]? = none :=
    List.getElem?_eq_none (Nat.le_of_eq hr.roles_length)
  have hnew : ∀ p : Berth, ¬ p.Keeps acts w w.tasks.length := fun p hp => by
    rw [h.role_of_keeps hp] at hnone
    cases hnone
  refine h.moved (fun i p => ?_) fun i => ?_
  · by_cases hi : i = w.tasks.length
    · subst hi
      cases p with
      | held j =>
        by_cases hj : j = task
        · simp [Berth.Keeps, hand_step, Request.grip, hj]
        · simpa [Berth.Keeps, hand_step, Request.grip, hj] using hnew (.held j)
      | slot => simpa [Berth.Keeps, World.addTask] using hnew .slot
      | cancelled => simpa [Berth.Keeps, World.isCancelled_addTask] using hnew .cancelled
    · cases p with
      | held j =>
        by_cases hj : j = task
        · simp [Berth.Keeps, hand_step, Request.grip, hj, hi, hempty, Ne.symm hi]
        · simp [Berth.Keeps, hand_step, hj, hi]
      | slot => simp [hi, Berth.Keeps, World.addTask]
      | cancelled => simp [hi, Berth.Keeps, World.isCancelled_addTask]
  · constructor
    · intro hi
      rcases roles_cons_cases hi with ⟨-, hold⟩ | ⟨hlen, -⟩
      · exact .inr hold
      · exact .inl (hlen.trans hr.roles_length)
    · rintro (rfl | hi)
      · simp [roles, Act.birth?, Request.birth?, ← hr.roles_length]
      · exact roles_cons_of_some _ hi

/-- What comes out of the slot is in hand, and what was in hand goes into the slot. -/
theorem Placed.swapped (h : Placed place acts w) (hgrip : r.grip a = some w.slot)
    (hslot : w₁.slot = hand task acts) (hcan : ∀ i, w₁.isCancelled i = w.isCancelled i)
    (hbirth : r.birth? = none) :
    Placed (fun i => (place i).map (·.exchange task)) (.step task r a :: acts) w₁ := by
  have hnot : (Act.step task r a).birth? ≠ some .check := fun hb => by
    rw [Act.birth?, hbirth] at hb
    cases hb
  refine h.exchanged (fun i p => ?_) (roles_check_cons hnot)
  cases p with
  | held j =>
    by_cases hj : j = task
    · simp [Berth.exchange, Berth.Keeps, hand_step, hgrip, hj]
    · simp [Berth.exchange, Berth.Keeps, hand_step, hj]
  | slot => simp only [Berth.exchange, Berth.Keeps, hslot]
  | cancelled => simp only [Berth.exchange, Berth.Keeps, hcan]

theorem Placed.cancelled (h : Placed place acts w) {check : Nat} (hlt : check < w.tasks.length)
    (hheld : hand task acts = some check) :
    Placed (Function.update place check (some .cancelled))
      (.step task (.cancelCheck check) () :: acts)
      (w.changeTask check ({ · with cancelled := true })) := by
  -- it was in the hands of the task, and so in no other place
  have hone : ∀ p : Berth, p.Keeps acts w check → p = .held task := fun p hp =>
    h.one hp (q := .held task) hheld
  refine h.moved (fun i p => ?_) fun i => ?_
  · by_cases hi : i = check
    · subst hi
      cases p with
      | held j =>
        by_cases hj : j = task
        · simp [Berth.Keeps, hand_step, Request.grip, hj]
        · have hother : hand j acts ≠ some i := fun hh => by
            have := hone (.held j) hh
            simp [hj] at this
          simp [Berth.Keeps, hand_step, hj, hother]
      | slot =>
        have hother : w.slot ≠ some i := fun hh => by cases hone .slot hh
        simp [Berth.Keeps, World.changeTask, hother]
      | cancelled => simp [Berth.Keeps, World.isCancelled_cancel hlt]
    · cases p with
      | held j =>
        by_cases hj : j = task
        · simp [Berth.Keeps, hand_step, Request.grip, hj, hi, hheld, Ne.symm hi]
        · simp [Berth.Keeps, hand_step, hj, hi]
      | slot => simp [Berth.Keeps, World.changeTask, hi]
      | cancelled => simp [Berth.Keeps, World.isCancelled_cancel hlt, hi]
  · have hbirth : (Act.step task (.cancelCheck check) ()).birth? ≠ some .check := by
      simp [Act.birth?, Request.birth?]
    rw [roles_check_cons hbirth]
    constructor
    · exact .inr
    · rintro (rfl | hi)
      · exact h.role_of_keeps (p := .held task) hheld
      · exact hi

/-- One act of a task that keeps to the protocol. -/
theorem Placed.act (h : Placed place acts w) (hr : Run env s acts w)
    (hperf : World.Performed env s.roles w task r a w₁) (hP : Grip x r a y)
    (hx : x.held? = hand task acts) : ∃ place', Placed place' (.step task r a :: acts) w₁ := by
  cases hP with
  | other hk =>
    refine ⟨place, h.idle hperf ?_⟩
    cases r with
    | spawnCheck | swapCheck | takeCheck | cancelCheck => exact absurd rfl hk
    | _ => rfl
  | await => exact ⟨place, h.idle hperf rfl⟩
  | spawn =>
    cases hperf with
    | spawnCheck => exact ⟨_, h.spawned hr hx.symm⟩
  | swap =>
    cases hperf with
    | swapCheck => exact ⟨_, h.swapped rfl hx (fun _ => rfl) rfl⟩
  | take =>
    cases hperf with
    | takeCheck => exact ⟨_, h.swapped rfl hx (fun _ => rfl) rfl⟩
  | seek =>
    cases hperf with
    | takeCheck => exact ⟨_, h.swapped rfl hx (fun _ => rfl) rfl⟩
  | cancel =>
    cases hperf with
    | cancelCheck check =>
      have hrole := h.role_of_keeps (p := .held task) hx.symm
      have hlt : _ < w.tasks.length := hr.roles_length ▸ (List.getElem?_eq_some_iff.1 hrole).1
      exact ⟨_, h.cancelled hlt hx.symm⟩

/-- **Every update check is in one place.** -/
theorem Run.placed (h : Run env s acts w) : ∃ place, Placed place acts w := by
  refine Run.induct (J := fun acts w => ∃ place, Placed place acts w) ?_ ?_ ?_ ?_ h
  · intro outside
    refine ⟨fun _ => none, fun i p => ?_, fun i => by simp [roles]⟩
    cases p <;> simp [Berth.Keeps, hand, lastGrip, chronicle, World.isCancelled]
  · rintro acts w c hr ⟨place, h⟩
    have hbirth : (Act.call c).birth? ≠ some .check := by simp [Act.birth?]
    refine ⟨place, h.same (fun i p => ?_) (roles_check_cons hbirth)⟩
    cases p with
    | held j => simp only [Berth.Keeps, hand_other (Act.task?_call_ne c j)]
    | slot => exact Iff.rfl
    | cancelled => simp only [Berth.Keeps, World.isCancelled_addTask]
  · rintro acts w w₁ task r k a hr ⟨place, h⟩ hp hperf
    obtain ⟨stage, hf, hstage⟩ := hr.gripped
    obtain ⟨y, hP⟩ := hf.pending hp a
    obtain ⟨ρ, hρ⟩ := hr.exists_role_of_lt (World.lt_of_pending hp)
    obtain ⟨-, hheld⟩ := hstage task ρ hρ
    obtain ⟨place', h'⟩ := h.act hr hperf hP hheld
    exact ⟨place', h'.goOn⟩
  · rintro acts w w' _ ⟨place, h⟩ hh
    refine ⟨place, h.same (fun i p => ?_) fun _ => Iff.rfl⟩
    cases p with
    | held j => exact Iff.rfl
    | slot => simp only [Berth.Keeps, hh.slot]
    | cancelled => simp only [Berth.Keeps, hh.isCancelled]

/-- **Only update checks are cancelled.** -/
theorem Run.cancelled_check (h : Run env s acts w) {i : Nat} (hcan : w.isCancelled i = true) :
    (roles acts)[i]? = some .check := by
  obtain ⟨place, hp⟩ := h.placed
  exact hp.role_of_keeps (p := .cancelled) hcan

/-- A call that has returned, or an observer, has gone through its protocol to the end. -/
theorem Run.done_of_returned {σ : Type} (h : Run env s acts w) {P : Protocol σ} {done : σ → Prop}
    {phase : Nat → σ} (hf : w.Follows P done phase) {i : Nat} {ρ : Role}
    (hi : (roles acts)[i]? = some ρ) (hρ : ρ ≠ .check) (hres : (w.result? i).isSome = true) :
    done (phase i) := by
  unfold World.result? at hres
  cases ht : w.tasks[i]? with
  | none => simp [ht] at hres
  | some t =>
    rcases (hf i t ht).ended (by simpa [ht] using hres) with hcan | hd
    · have hcan : w.isCancelled i = true := by simpa [World.isCancelled, ht] using hcan
      exact absurd (Option.some.inj (hi.symm.trans (h.cancelled_check hcan))) hρ
    · exact hd

end Runs

end Steward
