import Steward.Proofs.Enrolment

/-!
# The account of an exit

The observer of a child says little: perhaps that the process reported an error, in the end that it exited.
Then it records the exit, tells the user if nobody had asked for it, and lets everyone know who waits.
`Report` is this order of things; what follows from it is the list of all that an observer has stated, as a
function of how far it has come.

Whether an exit was asked for is decided by the state of the server at the moment of the record. That the
state is that of the observer's own child, and that it counts as running exactly if the child was not told
to terminate, is known from `Steward.Proofs.Enrolment`. `Run.exits_accounted` puts the two together.
-/

set_option autoImplicit false

namespace Steward

/-! ## Statements -/

/-- What an observer states about its child. -/
inductive Statement where
  /-- an error that the user is shown -/
  | told (text : String)
  | recorded (pid : Nat) (exit : Exit) (answer : Except Lifecycle.Refusal Lifecycle.Transition)
  | raised (child : Nat)

def Request.statement? : (r : Request) → r.Answer → Option Statement
  | .query (.notify .error text), _ => some (.told text)
  | .recordExit pid exit, answer => some (.recorded pid exit answer)
  | .raiseExited child, _ => some (.raised child)
  | _, _ => none

/-- The statements of a task, in their order. -/
def statements (i : Nat) (acts : List Act) : List Statement := chronicle Request.statement? i acts

/-- What the user is told of an exit that nobody asked for. -/
def exitNotice (s : Service) (exit : Exit) : String :=
  s.tool ++ " exited unexpectedly (" ++ exit.display ++ "). Check the output log."

/-- What the user is told when the process reports an error. -/
def errorNotice : String := "Server process reported an error. Check the output log."

theorem String.eq_of_append_eq {a b x y : String} (h : a ++ x = b ++ y)
    (hlen : x.length = y.length) : x = y := by
  have hl := congrArg String.toList h
  rw [String.toList_append, String.toList_append] at hl
  exact String.toList_inj.1 (List.append_inj_right' hl hlen)

/-- The two can be told apart. -/
theorem errorNotice_ne_exitNotice (s : Service) (exit : Exit) : errorNotice ≠ exitNotice s exit := by
  intro h
  have hsplit : errorNotice = "Server process reported an erro" ++ "r. Check the output log." := by
    decide
  rw [hsplit, exitNotice] at h
  have hend := String.eq_of_append_eq h (by decide)
  exact absurd hend (by decide)

/-- Whether the record of an exit calls for a notice. -/
def Lifecycle.Transition.isUnexpected (t : Lifecycle.Transition) : Bool := t.changed && t.old.isRunning

/-- What the user is told once the exit is recorded. -/
def notices (s : Service) (exit : Exit) :
    Except Lifecycle.Refusal Lifecycle.Transition → List Statement
  | .ok t => if t.isUnexpected then [.told (exitNotice s exit)] else []
  | .error _ => []

/-! ## The order of an observer's statements -/

/-- How far a task has come with the exit of a child. -/
inductive Testimony where
  /-- it is no observer -/
  | outside
  | watching (child pid : Nat)
  /-- the exit is recorded, and the user is still to be told -/
  | due (child pid : Nat) (exit : Exit) (t : Lifecycle.Transition)
  /-- there is nothing left to tell the user -/
  | settled (child pid : Nat) (exit : Exit) (answer : Except Lifecycle.Refusal Lifecycle.Transition)
  | closed (child pid : Nat) (exit : Exit) (answer : Except Lifecycle.Refusal Lifecycle.Transition)

inductive Report (s : Service) : Protocol Testimony where
  | outside {r : Request} {a : r.Answer} (h : r.kind ≠ .watch) : Report s .outside r a .outside
  | aside {x : Testimony} {r : Request} {a : r.Answer} (h : r.statement? a = none) :
      Report s x r a x
  | error {child pid : Nat} : Report s (.watching child pid)
      (.query (.notify .error errorNotice)) () (.watching child pid)
  | unexpected {child pid : Nat} {exit : Exit} {t : Lifecycle.Transition}
      (h : t.isUnexpected = true) :
      Report s (.watching child pid) (.recordExit pid exit) (.ok t) (.due child pid exit t)
  | expected {child pid : Nat} {exit : Exit}
      {answer : Except Lifecycle.Refusal Lifecycle.Transition} (h : notices s exit answer = []) :
      Report s (.watching child pid) (.recordExit pid exit) answer (.settled child pid exit answer)
  | tell {child pid : Nat} {exit : Exit} {t : Lifecycle.Transition} (h : t.isUnexpected = true) :
      Report s (.due child pid exit t) (.query (.notify .error (exitNotice s exit))) ()
        (.settled child pid exit (.ok t))
  | raise {child pid : Nat} {exit : Exit}
      {answer : Except Lifecycle.Refusal Lifecycle.Transition} :
      Report s (.settled child pid exit answer) (.raiseExited child) ()
        (.closed child pid exit answer)

def Role.testimony : Role → Testimony
  | .observer child pid => .watching child pid
  | _ => .outside

section Reporting

open Program

variable {α : Type} {s : Service} {child pid : Nat}

/-- Programs that follow no child's life. -/
theorem Program.Uses.outside {ks : List Request.Kind} {p : Program α} (hp : p.Uses ks)
    (hk : ks.all (· ≠ .watch) = true) {Q : Testimony → α → Prop} (hQ : ∀ a, Q .outside a) :
    p.Obeys (Report s) Q .outside :=
  hp.obeys_all hk (fun _ _ hr => .outside (of_decide_eq_true hr)) hQ

theorem handleExit_reports (exit : Exit) :
    (Supervisor.handleExit s pid exit).Obeys (Report s)
      (fun y _ => ∃ answer, y = .settled child pid exit answer) (.watching child pid) := by
  refine Obeys.ask fun recorded => ?_
  cases recorded with
  | error e => exact ⟨_, .expected rfl, _, rfl⟩
  | ok t =>
    have announced : (do
        if t.effects.contains .definitionChanged then perform .announceChange
          : Program Unit).Obeys (Report s) (fun y _ => ∃ answer, y = .settled child pid exit answer)
        (.settled child pid exit (.ok t)) := by
      split
      · exact fun _ => ⟨_, .aside rfl, _, rfl⟩
      · exact ⟨_, rfl⟩
    cases hu : t.isUnexpected with
    | true =>
      obtain ⟨hc, hrun⟩ := Bool.and_eq_true_iff.1 hu
      refine ⟨_, .unexpected hu, ?_⟩
      simp only [hc, hrun, if_true]
      exact Obeys.ask fun _ => ⟨_, .tell hu, announced⟩
    | false =>
      refine ⟨_, .expected (by simp [notices, hu]), ?_⟩
      cases hc : t.changed with
      | false =>
        simp only [hc]
        exact ⟨_, rfl⟩
      | true =>
        have hrun : t.old.isRunning = false := by
          simpa [Lifecycle.Transition.isUnexpected, hc] using hu
        simp only [hc, hrun]
        exact announced

theorem observeOnce_reports :
    (Supervisor.observeOnce s child pid).Obeys (Report s)
      (fun y last => last = false → y = .watching child pid) (.watching child pid) := by
  have concluded : ∀ exit, ((Supervisor.conclude s child pid exit).bind fun _ => done true).Obeys
      (Report s) (fun y last => last = false → y = .watching child pid) (.watching child pid) := by
    intro exit
    refine obeys_bind.2 (Obeys.ask fun _ => ⟨_, .aside rfl, ?_⟩)
    refine obeys_bind.2 ((handleExit_reports exit).mono fun y _ hy => ?_)
    obtain ⟨answer, rfl⟩ := hy
    exact fun _ => ⟨_, .raise, nofun⟩
  refine Obeys.ask fun e => ⟨_, .aside rfl, ?_⟩
  cases e with
  | none => exact concluded _
  | some e =>
    cases e with
    | stdout line => exact fun _ => ⟨_, .aside rfl, fun _ => rfl⟩
    | stderr line => exact fun _ => ⟨_, .aside rfl, fun _ => rfl⟩
    | error reason => exact fun _ => ⟨_, .aside rfl, fun _ => ⟨_, .error, fun _ => rfl⟩⟩
    | exited exit => exact concluded _

/-- **Every observer keeps to the order**, and nobody else says anything of the kind. -/
theorem Role.reports (s : Service) (ρ : Role) :
    (ρ.program s).Obeys (Report s) (Closes (fun _ => True) ρ.testimony) ρ.testimony := by
  have closes : ∀ flow, Closes (fun _ => True) Testimony.outside .outside flow := by
    intro flow
    cases flow with
    | again => rfl
    | finish o => trivial
  cases ρ with
  | call c =>
    have huses : (c.program s).Uses c.kinds := (Call.uses s c).bind fun _ => trivial
    exact huses.outside (by cases c <;> rfl) closes
  | observer child pid =>
    refine obeys_bind.2 (observeOnce_reports.mono fun y last hy => ?_)
    cases last with
    | true => trivial
    | false => exact hy rfl
  | check =>
    have huses : (Role.check.program s).Uses [.talk, .dialogue, .command] :=
      (uses_check s).bind fun _ => trivial
    exact huses.outside rfl closes

end Reporting

/-! ## What an observer has stated -/

/-- The statements behind a task that has come so far, apart from errors that the process reported. -/
def Testimony.trail (s : Service) : Testimony → List Statement
  | .outside => []
  | .watching _ _ => []
  | .due _ pid exit t => [.recorded pid exit (.ok t)]
  | .settled _ pid exit answer => .recorded pid exit answer :: notices s exit answer
  | .closed child pid exit answer =>
    .recorded pid exit answer :: notices s exit answer ++ [.raised child]

/-- The child and the process id that the testimony is about. -/
def Testimony.subject? : Testimony → Option (Nat × Nat)
  | .outside => none
  | .watching child pid => some (child, pid)
  | .due child pid _ _ => some (child, pid)
  | .settled child pid _ _ => some (child, pid)
  | .closed child pid _ _ => some (child, pid)

/-- The child that a role observes, with its process id. -/
def Role.subject? : Role → Option (Nat × Nat)
  | .observer child pid => some (child, pid)
  | _ => none

/-- What a task of the role has stated. An observer's errors are all of one kind. -/
def Testimony.Stated (s : Service) (ρ : Role) (x : Testimony) (l : List Statement) : Prop :=
  x.subject? = ρ.subject? ∧ ∃ errors, l = errors ++ x.trail s ∧
    ∀ d ∈ errors, ∃ text, d = .told text ∧ (x ≠ .outside → text = errorNotice)

theorem Request.statement?_of_kind {r : Request} {a : r.Answer} {d : Statement}
    (h : r.kind ≠ .watch) (hd : r.statement? a = some d) : ∃ text, d = .told text := by
  unfold Request.statement? at hd
  split at hd
  · cases hd; exact ⟨_, rfl⟩
  · exact absurd rfl h
  · exact absurd rfl h
  · cases hd

theorem Testimony.Stated.step {s : Service} {ρ : Role} {x y : Testimony} {l : List Statement}
    {r : Request} {a : r.Answer} (h : x.Stated s ρ l) (hP : Report s x r a y) :
    y.Stated s ρ (l ++ (r.statement? a).toList) := by
  obtain ⟨hsub, errors, rfl, herr⟩ := h
  -- the observer goes on, and its errors stay what they are
  have goes_on : x ≠ .outside → ∀ d ∈ errors, ∃ text, d = .told text ∧ (y ≠ .outside →
      text = errorNotice) := by
    intro hx d hd
    obtain ⟨text, rfl, ht⟩ := herr d hd
    exact ⟨text, rfl, fun _ => ht hx⟩
  cases hP with
  | aside hn => exact ⟨hsub, errors, by simp [hn], herr⟩
  | outside hk =>
    refine ⟨hsub, errors ++ (r.statement? a).toList, by simp [trail], fun d hd => ?_⟩
    rcases List.mem_append.1 hd with hd | hd
    · exact herr d hd
    · obtain ⟨text, rfl⟩ := Request.statement?_of_kind hk (Option.mem_toList.1 hd)
      exact ⟨text, rfl, fun hx => absurd rfl hx⟩
  | error =>
    refine ⟨hsub, errors ++ [.told errorNotice], by simp [trail, Request.statement?], fun d hd => ?_⟩
    rcases List.mem_append.1 hd with hd | hd
    · exact herr d hd
    · exact ⟨errorNotice, List.mem_singleton.1 hd, fun _ => rfl⟩
  | unexpected hu => exact ⟨hsub, errors, by simp [trail, Request.statement?], goes_on nofun⟩
  | expected hn => exact ⟨hsub, errors, by simp [trail, Request.statement?, hn], goes_on nofun⟩
  | tell hu =>
    exact ⟨hsub, errors, by simp [trail, Request.statement?, notices, hu], goes_on nofun⟩
  | raise => exact ⟨hsub, errors, by simp [trail, Request.statement?], goes_on nofun⟩

theorem raised_not_mem_notices {s : Service} {child : Nat} {exit : Exit}
    {answer : Except Lifecycle.Refusal Lifecycle.Transition} :
    .raised child ∉ notices s exit answer := by
  unfold notices
  split
  · split <;> simp
  · simp

/-- A trail is empty, or it begins with the record and goes on to the end of the matter. -/
theorem Testimony.trail_cases {s : Service} {x : Testimony} {child pid : Nat}
    (hx : x.subject? = some (child, pid)) :
    x.trail s = [] ∨ ∃ exit answer, .recorded pid exit answer ∈ x.trail s ∧
      x.trail s <+: .recorded pid exit answer :: notices s exit answer ++ [.raised child] ∧
      (.raised child ∈ x.trail s →
        x.trail s = .recorded pid exit answer :: notices s exit answer ++ [.raised child]) := by
  cases x with
  | outside => cases hx
  | watching c p => exact .inl rfl
  | due c p exit t =>
    cases hx
    exact .inr ⟨exit, .ok t, by simp [trail], by simp [trail], fun hm => by simp [trail] at hm⟩
  | settled c p exit answer =>
    cases hx
    refine .inr ⟨exit, answer, by simp [trail], List.prefix_append _ _, fun hm => ?_⟩
    simp [trail, raised_not_mem_notices] at hm
  | closed c p exit answer =>
    cases hx
    exact .inr ⟨exit, answer, by simp [trail], List.prefix_rfl, fun _ => rfl⟩

section Runs

variable {ε : Type} {env : Environment ε} {s : Service} {acts : List Act} {w : World ε}
  {i child pid : Nat}

theorem mem_acts_of_recorded {exit : Exit} {a : Except Lifecycle.Refusal Lifecycle.Transition}
    (hm : .recorded pid exit a ∈ statements i acts) : .step i (.recordExit pid exit) a ∈ acts := by
  obtain ⟨r, a', hm, hd⟩ := mem_chronicle.1 hm
  unfold Request.statement? at hd
  split at hd <;> cases hd
  exact hm

theorem Run.stated (h : Run env s acts w) {ρ : Role} (hi : (roles acts)[i]? = some ρ) :
    ∃ x, Testimony.Stated s ρ x (statements i acts) := by
  have fresh : ∀ ρ : Role, ρ.testimony.Stated s ρ [] := by
    intro ρ
    cases ρ <;> exact ⟨rfl, [], rfl, by simp⟩
  obtain ⟨phase, -, hG⟩ := Run.chronicled (G := fun ρ x l => x.Stated s ρ l) (Role.reports s) fresh
    (fun hG hP => hG.step hP) h
  exact ⟨phase i, hG i ρ hi⟩

/-- A record of an exit is always taken: it ends what was current. -/
theorem Run.record_taken (h : Run env s acts w) {exit : Exit}
    {a : Except Lifecycle.Refusal Lifecycle.Transition}
    (hm : .step i (.recordExit pid exit) a ∈ acts) :
    ∃ old, old.pid? = some pid ∧
      a = .ok ⟨true, old, .stopped, [.clearHandle, .definitionChanged]⟩ := by
  refine Run.induct (J := fun acts _ => .step i (.recordExit pid exit) a ∈ acts → ∃ old,
    old.pid? = some pid ∧ a = .ok ⟨true, old, .stopped, [.clearHandle, .definitionChanged]⟩)
    ?_ ?_ ?_ ?_ h hm
  · exact fun _ => nofun
  · intro acts w c _ ih hm
    exact ih ((List.mem_cons.1 hm).resolve_left nofun)
  · intro acts w w₁ task r k a' hr ih hp hperf hm
    rcases List.mem_cons.1 hm with hx | hm
    · cases hx
      obtain ⟨phase, y, hstep⟩ := hr.guardedStep hp hperf
      obtain ⟨-, -, -, hpid, ha, -⟩ := hstep.record
      exact ⟨_, hpid, ha⟩
    · exact ih hm
  · exact fun _ ih _ hm => ih hm

/-- Nobody hears of an exit before it is told. -/
theorem Run.raised_of_exited (h : Run env s acts w) (hx : w.Exited child) :
    ∃ i, .step i (.raiseExited child) () ∈ acts := by
  refine Run.induct (J := fun acts w => w.Exited child → ∃ i, .step i (.raiseExited child) () ∈ acts)
    ?_ ?_ ?_ ?_ h hx
  · rintro outside ⟨c, hc, -⟩
    simp at hc
  · intro acts w c _ ih hx
    obtain ⟨i, hm⟩ := ih hx
    exact ⟨i, List.mem_cons_of_mem _ hm⟩
  · rintro acts w w₁ task r k a hr ih hp hperf ⟨c, hc, he⟩
    have old : w.Exited child → ∃ i, .step i (.raiseExited child) () ∈ Act.step task r a :: acts := by
      intro hx
      obtain ⟨i, hm⟩ := ih hx
      exact ⟨i, List.mem_cons_of_mem _ hm⟩
    rcases hperf.child_cases hc with ⟨c₀, hc₀, ht⟩ | ⟨-, spec, p, -, rfl⟩
    · cases ht with
      | same => exact old ⟨c, hc₀, he⟩
      | tell e => exact old ⟨c₀, hc₀, (c₀.emit_fades e).exited ▸ he⟩
      | took e rest => exact old ⟨c₀, hc₀, he⟩
      | raised hreq =>
        subst hreq
        exact ⟨task, List.mem_cons_self⟩
    · cases he
  · rintro acts w w' _ ih hh ⟨c, hc, he⟩
    obtain ⟨c₀, hc₀, hf⟩ := hh.drift.child child c hc
    exact ih ⟨c₀, hc₀, hf.exited ▸ he⟩

/-- Only an observer tells of an exit, and only of that of its own child. -/
theorem Run.role_of_raised (h : Run env s acts w) {ρ : Role} (hi : (roles acts)[i]? = some ρ)
    (hm : .raised child ∈ statements i acts) : ∃ pid, ρ = .observer child pid := by
  obtain ⟨x, hsub, errors, heq, herr⟩ := h.stated hi
  rw [heq, List.mem_append] at hm
  have hm : .raised child ∈ x.trail s := hm.resolve_left fun hd => by
    obtain ⟨text, ht, -⟩ := herr _ hd
    cases ht
  cases x with
  | closed c p exit a =>
    have hc : child = c := by simpa [Testimony.trail, raised_not_mem_notices] using hm
    subst hc
    cases ρ with
    | observer c p => cases hsub; exact ⟨_, rfl⟩
    | _ => cases hsub
  | settled c p exit a => simp [Testimony.trail, raised_not_mem_notices] at hm
  | _ => simp [Testimony.trail] at hm

/-- Whoever is no observer only shows errors. -/
theorem Run.told_of_other (h : Run env s acts w)
    (hi : ∀ child pid, (roles acts)[i]? ≠ some (.observer child pid)) {d : Statement}
    (hd : d ∈ statements i acts) : ∃ text, d = .told text := by
  obtain ⟨ρ, hρ⟩ := h.exists_role_of_told (List.ne_nil_of_mem hd)
  obtain ⟨x, hsub, errors, heq, herr⟩ := h.stated hρ
  have hx : x = .outside := by
    cases ρ with
    | observer child pid => exact absurd hρ (hi child pid)
    | _ => cases x <;> first | rfl | cases hsub
  subst hx
  rw [heq, Testimony.trail, List.append_nil] at hd
  obtain ⟨text, ht, -⟩ := herr d hd
  exact ⟨text, ht⟩

/-- The observer of a child whose exit is known has told of it. -/
theorem Run.observer_of_exited (h : Run env s acts w) (hx : w.Exited child) :
    ∃ i pid, (roles acts)[i]? = some (.observer child pid) ∧ .raised child ∈ statements i acts := by
  obtain ⟨i, hm⟩ := h.raised_of_exited hx
  obtain ⟨ρ, hi⟩ := h.exists_role hm
  have hraised : .raised child ∈ statements i acts := mem_chronicle.2 ⟨_, _, hm, rfl⟩
  obtain ⟨pid, rfl⟩ := h.role_of_raised hi hraised
  exact ⟨i, pid, hi, hraised⟩

/-! ## The whole account -/

/-- All that there is to state about an exit that was recorded in the state `old`. -/
def account (s : Service) (child pid : Nat) (exit : Exit) (old : Lifecycle.State) : List Statement :=
  .recorded pid exit (.ok ⟨true, old, .stopped, [.clearHandle, .definitionChanged]⟩) ::
    (if old.isRunning then [.told (exitNotice s exit)] else []) ++ [.raised child]

/-- The statements of a child's observer, behind errors that the process reported itself. Until the exit is
known there may be none, or only the first ones. -/
def World.Accounts (s : Service) (w : World ε) (child pid : Nat) (l : List Statement) : Prop :=
  ∃ errors rest, l = errors ++ rest ∧
    (∀ d ∈ errors, ∃ text, d = .told text ∧ ∀ exit, text ≠ exitNotice s exit) ∧
    (rest = [] ∧ ¬ w.Exited child ∨
      ∃ exit old, old.pid? = some pid ∧ (old.isRunning = true ↔ ¬ w.Terminated child) ∧
        rest <+: account s child pid exit old ∧
        (w.Exited child → rest = account s child pid exit old))

theorem Run.accounts (h : Run env s acts w) (hi : (roles acts)[i]? = some (.observer child pid)) :
    w.Accounts s child pid (statements i acts) := by
  obtain ⟨phase, -, -, he⟩ := h.enrolled
  obtain ⟨x, hsub, errors, heq, herr⟩ := h.stated hi
  have hne : x ≠ .outside := by
    rintro rfl
    cases hsub
  have hother : ∀ d ∈ errors, ∃ text, d = .told text ∧ ∀ exit, text ≠ exitNotice s exit := by
    intro d hd
    obtain ⟨text, rfl, ht⟩ := herr d hd
    exact ⟨text, rfl, fun exit => ht hne ▸ errorNotice_ne_exitNotice s exit⟩
  -- an exit that is known was told of by this very observer
  have hraised : w.Exited child → .raised child ∈ x.trail s := by
    intro hx
    obtain ⟨j, p, hj, hm⟩ := h.observer_of_exited hx
    obtain rfl := he.unique j i child p pid hj hi
    rw [heq, List.mem_append] at hm
    refine hm.resolve_left fun hd => ?_
    obtain ⟨text, ht, -⟩ := herr _ hd
    cases ht
  refine ⟨errors, x.trail s, heq, hother, ?_⟩
  rcases Testimony.trail_cases hsub with hnil | ⟨exit, answer, hrec, hprefix, hall⟩
  · exact .inl ⟨hnil, fun hx => by simpa [hnil] using hraised hx⟩
  · -- the record was taken in the state of the observer's own child
    have hm := mem_acts_of_recorded (heq ▸ List.mem_append_right errors hrec)
    obtain ⟨old, hpid, rfl⟩ := h.record_taken hm
    exact .inr ⟨exit, old, hpid, he.recorded i child pid pid exit _ hi hm, hprefix,
      fun hx => hall (hraised hx)⟩

/-- **Every exit is accounted for.** In every run, whatever process ids were given out:

* whoever is about to record an exit is the observer of the current child, and the record is taken: the
  server is stopped, the handle and the definition are gone;
* a child whose registration has returned, or whose exit is known, has an observer;
* a child never has two observers, and nobody else records an exit or tells of one;
* once its exit is known the observer has recorded it once, in the state of that child, and has told the
  user, once, if the child was not told to terminate before, and never if it was. -/
theorem Run.exits_accounted (h : Run env s acts w) :
    (∀ task pid exit k, w.pending task = some ⟨.recordExit pid exit, k⟩ →
      ∃ child, (roles acts)[task]? = some (.observer child pid) ∧
        w.runtime.held = some (child, pid) ∧
        w.runtime.recordExit pid exit =
          .ok (⟨true, w.runtime.state, .stopped, [.clearHandle, .definitionChanged]⟩,
            ⟨.stopped, none⟩)) ∧
    (∀ task handle d, .step task (.register handle d) (.ok ()) ∈ acts →
      (w.result? task).isSome = true →
      ∃ i : Nat, (roles acts)[i]? = some (.observer handle.child handle.pid)) ∧
    (∀ child, w.Exited child → ∃ i pid : Nat, (roles acts)[i]? = some (.observer child pid)) ∧
    (∀ i, (∀ child pid, (roles acts)[i]? ≠ some (.observer child pid)) →
      ∀ d ∈ statements i acts, ∃ text, d = .told text) ∧
    (∀ i child pid : Nat, (roles acts)[i]? = some (.observer child pid) →
      (∀ j pid' : Nat, (roles acts)[j]? = some (.observer child pid') → j = i) ∧
      w.Accounts s child pid (statements i acts)) := by
  obtain ⟨phase, hf, hg, he⟩ := h.enrolled
  refine ⟨fun task pid exit k hp => ?_, fun task handle d hm hret => ?_, fun child hx => ?_,
    fun i hi d hd => ?_, fun i child pid hi => ⟨fun j pid' hj => he.unique j i child pid' pid hj hi,
      h.accounts hi⟩⟩
  · obtain ⟨y, hP⟩ := hf.pending hp (.error ⟨.stopped, .stopRequested⟩)
    obtain ⟨child, hx⟩ := hP.of_recordExit
    obtain ⟨-, hfits⟩ := hg.fits hx rfl
    exact ⟨child, hg.observer h (.inr hx), hfits.1.2,
      Supervisor.Runtime.recordExit_of_pid hfits.1.1 exit⟩
  · rcases he.watched task handle d hm with hobs | hx
    · exact hobs
    · -- a call that has returned has left nothing undone
      obtain ⟨ρ, hi⟩ := h.exists_role hm
      have hne : ρ ≠ .check := by
        rintro rfl
        have hallows := hg.role task _ hi
        rw [hx] at hallows
        cases hallows
      have hidle := h.done_of_returned hf hi hne hret
      rw [hx] at hidle
      rcases hidle with hidle | hidle <;> cases hidle
  · obtain ⟨i, pid, hi, -⟩ := h.observer_of_exited hx
    exact ⟨i, pid, hi⟩
  · exact h.told_of_other hi hd

/-- A server dies unasked, is started again as a process with the id of the first, and dies again. -/
def Rehearsal.relapse : List (Move Script) :=
  started ++ died ++ .turn {} :: .call .start :: List.replicate 10 (.step 2) ++
    .tell 1 (.exited {}) :: List.replicate 6 (.step 3)

/-- Both exits of one process id are accounted for, each by its own observer. -/
theorem accounted_with_one_pid : ∃ acts w,
    Run Rehearsal.Script.environment Rehearsal.sample acts w ∧
    roles acts = [.call .start, .observer 0 4000, .call .start, .observer 1 4000] ∧
    w.children.map (·.exited) = [true, true] ∧
    w.Accounts Rehearsal.sample 0 4000 (statements 1 acts) ∧
    w.Accounts Rehearsal.sample 1 4000 (statements 3 acts) := by
  have hr := Rehearsal.run_scene {} Rehearsal.relapse
  have hroles : roles (Rehearsal.scene {} Rehearsal.relapse).1 =
      [.call .start, .observer 0 4000, .call .start, .observer 1 4000] := by decide +kernel
  obtain ⟨-, -, -, -, haccounts⟩ := Run.exits_accounted hr
  exact ⟨_, _, hr, hroles, by decide +kernel, (haccounts 1 0 4000 (congrArg (·[1]?) hroles)).2,
    (haccounts 3 1 4000 (congrArg (·[3]?) hroles)).2⟩

end Runs

end Steward
