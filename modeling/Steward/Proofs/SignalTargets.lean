import Steward.Proofs.StandardStreams

/-!
# Whom a signal hits

A restart, a shutdown and a deactivation look once for the child that they have to see off, and it is the exit
of this child that they wait for. Their signals do not name it, though: a stop and a kill go to whichever child
is the current one when they are sent, and between the look and the signal other tasks have their turns.

`Course.signals_aimed` says for every course, however disturbed, whom the signals hit. It is the child that was
found as long as its exit is not recorded, and from then on one that was registered after the look. So a signal
goes astray only if both happens in between, the exit of the old child and the arrival of a new one that another
task has brought, and `Course.signals_to_found` rules that out for a call beside which nobody else brings one.
-/

set_option autoImplicit false

namespace Steward

/-! ## Looks and signals -/

/-- The child that a signal is sent to, with its process id. -/
def Query.recipient? : Query → Option (Nat × Nat)
  | .terminate child pid => some (child, pid)
  | .kill child pid => some (child, pid)
  | _ => none

/-- A signal for whichever child is the current one. -/
def Request.strikes : Request → Bool
  | .stop => true
  | .killCurrent => true
  | _ => false

/-- The child that the task found when it looked whom it has to see off. -/
def Act.found? (task : Nat) : Act → Option Nat
  | .call _ => none
  | .step i r a =>
    match r, a with
    | .restartTarget, child => if i = task then child else none
    | .currentChild, child => if i = task then child else none
    | _, _ => none

/-- The task has found this child; `first` lies before the look. -/
def Sighted {ε : Type} (i child : Nat) (past first : List (Episode ε)) : Prop :=
  ∃ between v x, past = between ++ ⟨v, x⟩ :: first ∧ x.found? i = some child ∧ v.runtime.child? = some child

/-- A signal was sent to this child in the world `v`, with `earlier` before it, by a task that had found the
child `found`. -/
structure Hits {ε : Type} (i : Nat) (acts₀ : List Act) (found : Nat) (first : List (Episode ε)) (q : Query)
    (child : Nat) (v : World ε) (earlier : List (Episode ε)) : Prop where
  current : ∃ pid, q.recipient? = some (child, pid) ∧ v.runtime.held = some (child, pid)
  look : Sighted i found earlier first
  /-- it depends on the exit of the child that was found -/
  same_iff : child = found ↔ ¬ Recorded (actsOf earlier ++ acts₀) found
  /-- another one came after the look -/
  newcomer : child ≠ found → ¬ Registered (actsOf first ++ acts₀) child
  /-- and it was not the task itself that brought it -/
  foreign : ∀ (handle : Supervisor.Handle) (d : Definition) (a : _),
    .step i (.register handle d) a ∉ actsOf earlier

/-- The task has found this child, and this is whom each of the signals that it sent has hit. -/
def Aimed {ε : Type} (i : Nat) (acts₀ : List Act) (found : Nat) (past : List (Episode ε)) (sent : List Query) :
    Prop :=
  ∃ first, Sighted i found past first ∧ ∀ q ∈ sent, ∃ (child : Nat) (r : Request) (a : r.Answer),
    r.strikes = true ∧ Did i r a (Hits i acts₀ found first q child) past

section Aims

variable {ε : Type} {i child found : Nat} {acts acts₀ : List Act} {past first : List (Episode ε)} {w w₁ : World ε}
  {sent : List Query}

theorem Registered.append (h : Registered acts child) (later : List Act) : Registered (later ++ acts) child := by
  obtain ⟨task, handle, d, hm, hc⟩ := h
  exact ⟨task, handle, d, List.mem_append_right _ hm, hc⟩

theorem Recorded.append (h : Recorded acts child) (later : List Act) : Recorded (later ++ acts) child := by
  induction later with
  | nil => exact h
  | cons x later ih => exact ih.cons x

theorem Sighted.cons (h : Sighted i child past first) (e : Episode ε) : Sighted i child (e :: past) first := by
  obtain ⟨between, v, x, rfl, hx⟩ := h
  exact ⟨e :: between, v, x, rfl, hx⟩

theorem Aimed.cons (h : Aimed i acts₀ found past sent) (e : Episode ε) : Aimed i acts₀ found (e :: past) sent := by
  obtain ⟨first, hlook, hits⟩ := h
  refine ⟨first, hlook.cons e, fun q hq => ?_⟩
  obtain ⟨child, r, a, hr, hhits⟩ := hits q hq
  exact ⟨child, r, a, hr, hhits.cons e⟩

/-- A stop and a kill go to the current child, if to any. -/
theorem World.Performed.signals_cases {env : Environment ε} {rs : Roles} {r : Request} {a : r.Answer}
    (h : World.Performed env rs w i r a w₁) (hr : r.strikes = true) :
    w₁.signals i = w.signals i ∨ ∃ q child pid, q.recipient? = some (child, pid) ∧
      w.runtime.held = some (child, pid) ∧ w₁.signals i = w.signals i ++ [q] := by
  have sent : ∀ {w₁ : World ε} {q : Query} {b : q.Answer} {handle : Supervisor.Handle},
      w.runtime.handle = some handle → w₁.history = .asked i q b :: w.history → q.isSignal = true →
      q.recipient? = some (handle.child, handle.pid) →
      w₁.signals i = w.signals i ∨ ∃ q child pid, q.recipient? = some (child, pid) ∧
        w.runtime.held = some (child, pid) ∧ w₁.signals i = w.signals i ++ [q] := fun hhandle hw hq hto =>
    .inr ⟨_, _, _, hto, by simp [Supervisor.Runtime.held, hhandle], World.signals_of_sent hw hq⟩
  cases h with
  | stop a w₁ hs =>
    cases hs with
    | delivered p d handle state hhandle => exact sent hhandle (World.exitNow_history _ _ _) rfl rfl
    | undelivered p d handle e state hhandle => exact sent hhandle (World.exitNow_history _ _ _) rfl rfl
    | _ => exact .inl rfl
  | killed handle hhandle => exact sent hhandle (World.exitNow_history _ _ _) rfl rfl
  | unkilled => exact .inl rfl
  | _ => cases hr

theorem Request.strikes_of_remark {r : Request} (h : r.isRemark = true) : r.strikes = false := by
  cases r with
  | query q => rfl
  | _ => cases h

theorem Request.strikes_of_inner {r : Request} (h : r.isInner = true) : r.strikes = false := by
  have hkind : r.kind ≠ .halt := bne_iff_ne.1 (Bool.and_eq_true_iff.1 h).2
  cases r with
  | stop | killCurrent => exact absurd rfl hkind
  | _ => rfl

end Aims

/-! ## The current child and the one that was found -/

section Current

variable {ε : Type} {env : Environment ε} {s : Service} {acts : List Act} {w : World ε} {child found : Nat}

/-- A child that was registered is the current one until its exit is recorded. -/
theorem Run.current_eq_iff (h : Run env s acts w) (hc : w.runtime.child? = some child)
    (hf : Registered acts found) : child = found ↔ ¬ Recorded acts found := by
  have hcurrent : registered acts = some child := h.child_eq_registered.symm.trans hc
  refine ⟨fun heq => heq ▸ (h.serving_of_current hcurrent).2, fun hrec => ?_⟩
  exact Option.some.inj (hcurrent.symm.trans (h.serving_iff.1 ⟨hf, hrec⟩))

theorem Run.registered_of_current (h : Run env s acts w) (hc : w.runtime.child? = some child) :
    Registered acts child :=
  (h.serving_of_current (h.child_eq_registered.symm.trans hc)).1

theorem Run.not_recorded_of_current (h : Run env s acts w) (hc : w.runtime.child? = some child) :
    ¬ Recorded acts child :=
  (h.serving_of_current (h.child_eq_registered.symm.trans hc)).2

end Current

/-! ## Stage by stage -/

/-- What a stage says of the signals that were sent. -/
def Escalation.Aims {ε : Type} (i : Nat) (acts₀ : List Act) (past : List (Episode ε)) (sent : List Query) :
    Escalation → Prop
  | .coming => sent = []
  | .parting _ => sent = []
  | .found child => Aimed i acts₀ child past sent
  | .armed child _ => Aimed i acts₀ child past sent
  | .timed child _ _ => Aimed i acts₀ child past sent
  | .late child => Aimed i acts₀ child past sent
  | _ => sent = [] ∨ ∃ child, Aimed i acts₀ child past sent

/-- A call in this stage of seeing a child off, with its signals. -/
structure Aiming {ε : Type} (i : Nat) (acts₀ : List Act) (x : Escalation) (past : List (Episode ε)) (w : World ε) :
    Prop where
  aims : x.Aims i acts₀ past (w.signals i)
  /-- nothing was done before its time -/
  graded : ∀ (r : Request) (a : r.Answer), .step i r a ∈ actsOf past → r.gravity ≤ x.gravity

section Stages

variable {ε : Type} {env : Environment ε} {s : Service} {strict : Bool} {grace i found : Nat}
  {acts₀ : List Act} {w₀ w w₁ : World ε} {c : Call} {x y : Escalation} {r : Request} {a : r.Answer}
  {past : List (Episode ε)} {sent : List Query} {f : Task → Task}

theorem Escalation.Aims.cons (h : x.Aims i acts₀ past sent) (e : Episode ε) : x.Aims i acts₀ (e :: past) sent := by
  cases x with
  | coming | parting => exact h
  | found | armed | timed | late => exact Aimed.cons h e
  | _ => exact Or.imp_right (fun ⟨child, h⟩ => ⟨child, h.cons e⟩) h

/-- In whatever stage, there was no signal or there was a child to see off. -/
theorem Escalation.Aims.cases (h : x.Aims i acts₀ past sent) :
    sent = [] ∨ ∃ child, Aimed i acts₀ child past sent := by
  cases x with
  | coming | parting => exact .inl h
  | found child | armed child | timed child | late child => exact .inr ⟨child, h⟩
  | _ => exact h

/-- A look finds the current child, or there is none. -/
theorem Escalation.Aims.look {target : Option Nat} (hfound : (Act.step i r a).found? i = target)
    (hcurrent : w.runtime.child? = target) :
    (Escalation.look target).Aims i acts₀ (⟨w, .step i r a⟩ :: past) [] := by
  cases target with
  | none => exact .inl rfl
  | some child => exact ⟨past, ⟨[], w, _, rfl, hfound, hcurrent⟩, List.forall_mem_nil _⟩

/-- The current child is hit. -/
theorem Sighted.hits {child pid : Nat} {first : List (Episode ε)} {q : Query} (h₀ : Run env s acts₀ w₀)
    (h : Course env s (w₀.called s c) past w) (hlook : Sighted i found past first)
    (hheld : w.runtime.held = some (child, pid)) (hto : q.recipient? = some (child, pid))
    (hown : ∀ (handle : Supervisor.Handle) (d : Definition) (a : _), .step i (.register handle d) a ∉ actsOf past) :
    Hits i (.call c :: acts₀) found first q child w past := by
  have hrun := h.run_of_call h₀
  have hcurrent : w.runtime.child? = some child := by
    rw [Supervisor.Runtime.child?_eq_held, hheld]
    rfl
  -- what was the case when the task looked
  obtain ⟨between, u, x, hpast, -, hfound⟩ := id hlook
  have hbefore := (h.before hpast).run_of_call h₀
  have hacts : actsOf past ++ .call c :: acts₀ =
      (actsOf between ++ [x]) ++ (actsOf first ++ .call c :: acts₀) := by
    simp [hpast, actsOf]
  have hregistered : Registered (actsOf past ++ .call c :: acts₀) found :=
    hacts ▸ (hbefore.registered_of_current hfound).append _
  refine ⟨⟨pid, hto, hheld⟩, hlook, hrun.current_eq_iff hcurrent hregistered, fun hne hold => hne ?_, hown⟩
  -- had it been registered before the look, it would have been found
  refine ((hbefore.current_eq_iff hfound hold).2 fun hrec => ?_).symm
  exact hrun.not_recorded_of_current hcurrent (hacts ▸ hrec.append _)

/-- The task sends its signal. -/
theorem Aimed.send (h₀ : Run env s acts₀ w₀) (h : Course env s (w₀.called s c) past w)
    (haim : Aimed i (.call c :: acts₀) found past (w.signals i)) (hperf : World.Performed env s.roles w i r a w₁)
    (hr : r.strikes = true)
    (hown : ∀ (handle : Supervisor.Handle) (d : Definition) (a : _), .step i (.register handle d) a ∉ actsOf past) :
    Aimed i (.call c :: acts₀) found (⟨w, .step i r a⟩ :: past) (w₁.signals i) := by
  rcases hperf.signals_cases hr with hs | ⟨q, child, pid, hto, hheld, hs⟩
  · exact hs ▸ haim.cons _
  · obtain ⟨first, hlook, hits⟩ := haim
    have hnew : Hits i (.call c :: acts₀) found first q child w past := hlook.hits h₀ h hheld hto hown
    refine ⟨first, hlook.cons _, fun q' hq' => ?_⟩
    rw [hs, List.mem_append, List.mem_singleton] at hq'
    rcases hq' with hq' | rfl
    · obtain ⟨child', r', a', hr', hhits⟩ := hits q' hq'
      exact ⟨child', r', a', hr', hhits.cons _⟩
    · exact ⟨child, r, a, hr, .now hnew⟩

/-- A step of the call itself. -/
theorem Escalate.aims (hP : Escalate strict grace x r a y) (h₀ : Run env s acts₀ w₀)
    (h : Course env s (w₀.called s c) past w) {k : r.Answer → Program Flow} (hp : w.pending i = some ⟨r, k⟩)
    (hperf : World.Performed env s.roles w i r a w₁) (hsig : r.kind ≠ .signal)
    (haiming : Aiming i (.call c :: acts₀) x past w) :
    y.Aims i (.call c :: acts₀) (⟨w, .step i r a⟩ :: past) (w₁.signals i) := by
  obtain ⟨hx, hgraded⟩ := haiming
  have hrun := h.run_of_call h₀
  have quiet : r.strikes = false → w₁.signals i = w.signals i := by
    intro hr
    refine hperf.signals_eq (.inr ⟨hrun.not_direct hp a, hsig, ?_, ?_⟩)
    · rintro rfl
      cases hr
    · rintro rfl
      cases hr
  -- before it goes on without the child the call does not launch another
  have unlaunched : x.gravity ≤ 3 → ∀ (handle : Supervisor.Handle) (d : Definition) (a : _),
      .step i (.register handle d) a ∉ actsOf past := fun hlow handle d a hm =>
    absurd (Nat.le_trans (hgraded _ a hm) hlow) (by simp [Request.gravity])
  cases hP with
  | remark hr =>
    rw [quiet (Request.strikes_of_remark hr)]
    exact hx.cons _
  | take | cancel | part =>
    rw [quiet rfl]
    exact hx
  | running | spared | clock | late =>
    rw [quiet rfl]
    exact Aimed.cons hx _
  | gone | inVain =>
    rw [quiet rfl]
    exact .inr ⟨_, Aimed.cons hx _⟩
  | closeClear | closeInVain =>
    rw [quiet rfl]
    exact hx.cons _
  | enter =>
    rw [quiet rfl]
    exact Escalation.Aims.cons (x := .clear) hx _
  | target =>
    rw [quiet rfl, show w.signals i = [] from hx]
    cases hperf with
    | restartTarget => exact .look (if_pos rfl) hrun.restartTarget_eq.symm
  | current =>
    rw [quiet rfl, show w.signals i = [] from hx]
    cases hperf with
    | currentChild => exact .look (if_pos rfl) rfl
  | stop => exact Aimed.send h₀ h hx hperf rfl (unlaunched (Nat.zero_le _))
  | fail => exact .inr ⟨_, Aimed.send h₀ h hx hperf rfl (unlaunched (Nat.zero_le _))⟩
  | kill => exact Aimed.send h₀ h hx hperf rfl (unlaunched (by simp [Escalation.gravity]))
  | inner hr =>
    rw [quiet (Request.strikes_of_inner hr)]
    exact hx.cons _

theorem Aiming.own (hx : Aiming i (.call c :: acts₀) x past w) (hP : Escalate strict grace x r a y)
    (h₀ : Run env s acts₀ w₀) (h : Course env s (w₀.called s c) past w) {k : r.Answer → Program Flow}
    (hp : w.pending i = some ⟨r, k⟩) (hperf : World.Performed env s.roles w i r a w₁) (hsig : r.kind ≠ .signal) :
    Aiming i (.call c :: acts₀) y (⟨w, .step i r a⟩ :: past) (w₁.changeTask i f) := by
  have haims := hP.aims h₀ h hp hperf hsig hx
  refine ⟨haims, fun r' a' hm => ?_⟩
  obtain ⟨honwards, hgrave⟩ := hP.gravity_le
  rcases List.mem_cons.1 hm with heq | hm
  · cases heq
    exact hgrave
  · exact Nat.le_trans (hx.graded r' a' hm) honwards

/-- Whatever others do, the call has sent the same signals. -/
theorem Aiming.other {e : Episode ε} (hx : Aiming i acts₀ x past w) (he : e.act.task? ≠ some i)
    (hs : w₁.signals i = w.signals i) : Aiming i acts₀ x (e :: past) w₁ := by
  refine ⟨hs ▸ hx.aims.cons e, fun r a hm => ?_⟩
  exact hx.graded r a ((List.mem_cons.1 hm).resolve_left fun heq => he (congrArg Act.task? heq.symm))

end Stages

/-! ## Over a course -/

/-- The calls that see the current child off. -/
def Call.seesOff : Call → Bool
  | .restart => true
  | .execute text =>
    match ServerCommand.parse text with
    | .ok .restart => true
    | _ => false
  | c => c.isFarewell

/-- They all go the same way, with a grace of their own. -/
theorem Call.escalates {c : Call} (h : c.seesOff = true) (s : Service) :
    ∃ strict grace, (c.outcome s).Obeys (Escalate strict grace) (fun _ _ => True) .coming := by
  cases c with
  | restart => exact ⟨_, _, (restart_escalates s).mono fun _ _ _ => trivial⟩
  | shutdown grace =>
    exact ⟨_, _, Program.obeys_bind.2 ((shutdown_escalates grace).mono fun _ _ _ => trivial)⟩
  | deactivate => exact ⟨_, _, (deactivate_escalates s).mono fun _ _ _ => trivial⟩
  | execute text =>
    simp only [Call.seesOff] at h
    split at h
    · rename_i hparse
      refine ⟨true, s.stopGrace, ?_⟩
      simp only [Call.outcome, hparse]
      exact Program.obeys_bind.2 (Program.obeys_bind.2
        ((Program.obeys_bind.1 (restart_escalates s)).mono fun _ _ _ => trivial))
    · cases h
  | _ => cases h

section Courses

variable {ε : Type} {env : Environment ε} {s : Service} {acts₀ : List Act} {w₀ w : World ε} {c : Call}
  {past : List (Episode ε)}

/-- **Whom the signals hit.** A call that sees the current child off sends no signal, or it has found a child, and
each signal goes to this child as long as its exit is not recorded and to one that came after the look from then
on. It does not matter what others do meanwhile. -/
theorem Course.signals_aimed (h₀ : Run env s acts₀ w₀) (hc : c.seesOff = true)
    (h : Course env s (w₀.called s c) past w) :
    w.signals w₀.tasks.length = [] ∨
      ∃ found, Aimed w₀.tasks.length (.call c :: acts₀) found past (w.signals w₀.tasks.length) := by
  obtain ⟨strict, grace, hobeys⟩ := Call.escalates hc s
  have aiming : ∃ x, Aiming w₀.tasks.length (.call c :: acts₀) x past w ∧
      w.Keeps (Escalate strict grace) (fun _ _ => True) w₀.tasks.length x := by
    refine Course.accompany (J := Aiming w₀.tasks.length (.call c :: acts₀)) h₀ hobeys ?_ ?_ ?_ ?_ ?_ h
    · exact ⟨h₀.signals_unborn (Nat.le_refl _), fun _ _ hm => absurd hm List.not_mem_nil⟩
    · intro x y past w w₁ r k a hcourse hx hp hperf hP
      exact hx.own hP h₀ hcourse hp (World.perform_cases hperf) (hcourse.not_signal h₀ hp)
    · intro x past w w₁ task r k a _ hx hne _ hperf
      have hs : w₁.signals w₀.tasks.length = w.signals w₀.tasks.length :=
        (World.perform_cases hperf).signals_eq (.inl hne)
      exact hx.other (Act.task?_step_ne (Ne.symm hne) r a) hs
    · exact fun c' _ hx => hx.other (Act.task?_call_ne c' _) rfl
    · exact fun hx hh => ⟨World.signals_congr hh.history _ ▸ hx.aims, hx.graded⟩
  obtain ⟨x, hx, -⟩ := aiming
  exact hx.aims.cases

/-- The child that a restart has found exits before it is told to go, and another start brings the next one. -/
def Rehearsal.overtaken : List (Move Script) :=
  .step 2 :: .tell 0 (.exited {}) :: List.replicate 6 (.step 1) ++ .call .start :: List.replicate 10 (.step 3) ++
    [.step 2]

-- the newcomer is told to go instead
example : (Rehearsal.sequel (Rehearsal.scene {} Rehearsal.started).2 .restart Rehearsal.overtaken).1.filterMap
      (·.act.found? 2) = [0] ∧
    (Rehearsal.sequel (Rehearsal.scene {} Rehearsal.started).2 .restart Rehearsal.overtaken).2.signals 2 =
      [.terminate 1 4001] := by
  decide +kernel

/-- If meanwhile nobody else brings a child, all signals go to the child that was found. -/
theorem Course.signals_to_found (h₀ : Run env s acts₀ w₀) (hc : c.seesOff = true)
    (h : Course env s (w₀.called s c) past w)
    (halone : ∀ (task : Nat) (handle : Supervisor.Handle) (d : Definition),
      .step task (.register handle d) (.ok ()) ∈ actsOf past → task = w₀.tasks.length) :
    w.signals w₀.tasks.length = [] ∨ ∃ found first, Sighted w₀.tasks.length found past first ∧
      ∀ q ∈ w.signals w₀.tasks.length, ∃ pid, q.recipient? = some (found, pid) := by
  refine (h.signals_aimed h₀ hc).imp_right ?_
  rintro ⟨found, first, hlook, hits⟩
  refine ⟨found, first, hlook, fun q hq => ?_⟩
  obtain ⟨child, r, a, -, later, v, earlier, hpast, hhits⟩ := hits q hq
  obtain ⟨pid, hto, hheld⟩ := hhits.current
  obtain rfl : child = found := by
    by_contra hne
    have hcurrent : v.runtime.child? = some child := by
      rw [Supervisor.Runtime.child?_eq_held, hheld]
      rfl
    have hrun := (h.before hpast).run_of_call h₀
    obtain ⟨task, handle, d, hm, hchild⟩ := hrun.registered_of_current hcurrent
    rcases List.mem_append.1 hm with hm | hm
    · obtain rfl := halone task handle d (by
        rw [hpast, actsOf, List.map_append]
        exact List.mem_append_right _ (List.mem_cons_of_mem _ hm))
      exact hhits.foreign handle d _ hm
    · exact hhits.newcomer hne ⟨task, handle, d, List.mem_append_right _ hm, hchild⟩
  exact ⟨pid, hto⟩

end Courses

end Steward
