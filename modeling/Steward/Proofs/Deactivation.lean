import Steward.Proofs.ChildOutput
import Steward.Proofs.Escalation

/-!
# The end of the service

A deactivation sees the current child off and then closes the output. With nobody else about it leaves a
stopped server, unless the child would not go even when it was killed (`Course.deactivation_retires`).

That the output is closed behind the child's last line rests on the order in which an observer does things: it
writes the exit, records it, and only then tells those who wait. Once the exit is recorded there is nothing left
of the child to be taken (`Run.spent_of_recorded`) and nothing to be written (`Run.written_of_recorded`).
-/

set_option autoImplicit false

namespace Steward

/-! ## The last words of a child -/

/-- An exit is the last thing that the child tells. -/
structure Child.Final (c : Child) : Prop where
  silent : ∀ exit, .exited exit ∈ c.events → c.speaking = false
  last : ∀ front exit rest, c.events = front ++ .exited exit :: rest → rest = []

/-- All that the child told is taken, and there will be no more. -/
def Child.Spent (c : Child) : Prop := c.events = [] ∧ c.speaking = false

section Children

variable {r : Request} {i : Nat} {c c' : Child}

theorem Child.Final.emit (h : c.Final) (e : ChildEvent) : (c.emit e).Final := by
  unfold Child.emit
  split
  · rename_i hs
    have hno : ∀ exit, .exited exit ∉ c.events := by
      intro exit hm
      rw [h.silent exit hm] at hs
      cases hs
    cases e with
    | exited exit =>
      refine ⟨fun _ _ => rfl, fun front exit' rest heq => ?_⟩
      have hevents : (front ++ [.exited exit']) ++ rest = c.events ++ [.exited exit] := by
        simpa using heq.symm
      exact eq_nil_of_exited hevents (List.mem_append_right front List.mem_cons_self) hno
    | stdout line | stderr line | error reason =>
      refine ⟨fun exit hm => ?_, fun front exit rest heq => ?_⟩
      · exact absurd (by simpa using hm) (hno exit)
      · have hm : .exited exit ∈ front ++ .exited exit :: rest :=
          List.mem_append_right front List.mem_cons_self
        rw [← heq] at hm
        exact absurd (by simpa using hm) (hno exit)
  · exact h

theorem Child.Touched.final (ht : c.Touched r i c') (h : c.Final) : c'.Final := by
  cases ht with
  | same => exact h
  | tell e => exact h.emit e
  | took e rest events =>
    refine ⟨fun exit hm => h.silent exit (events ▸ List.mem_cons_of_mem e hm), fun front exit rest' heq => ?_⟩
    exact h.last (e :: front) exit rest' (by rw [events, List.cons_append, ← heq])
  | raised => exact ⟨h.silent, h.last⟩

theorem Child.Alone.final {f : Child → Child} (hf : Child.Alone f) (h : c.Final) : (f c).Final := by
  cases hf with
  | nothing => exact h
  | tell e => exact h.emit e
  | vanish => exact ⟨fun _ _ => rfl, h.last⟩
  | die => exact ⟨h.silent, h.last⟩

theorem Child.Spent.emit (h : c.Spent) (e : ChildEvent) : (c.emit e).Spent := by
  simp only [Child.emit, h.2]
  exact h

theorem Child.Touched.spent (ht : c.Touched r i c') (h : c.Spent) : c'.Spent := by
  cases ht with
  | same => exact h
  | tell e => exact h.emit e
  | took e rest events =>
    rw [h.1] at events
    cases events
  | raised => exact h

theorem Child.Alone.spent {f : Child → Child} (hf : Child.Alone f) (h : c.Spent) : (f c).Spent := by
  cases hf with
  | nothing => exact h
  | tell e => exact h.emit e
  | vanish => exact ⟨h.1, rfl⟩
  | die => exact h

end Children

section Spending

variable {ε : Type} {env : Environment ε} {s : Service} {acts : List Act} {w w' w₁ : World ε}
  {i child pid task : Nat}

/-- The child is there and spent. -/
def World.Spent (w : World ε) (child : Nat) : Prop := ∃ c, w.children[child]? = some c ∧ c.Spent

theorem Run.final (h : Run env s acts w) :
    ∀ (child : Nat) (c : Child), w.children[child]? = some c → c.Final := by
  refine Run.induct (J := fun _ w => ∀ (child : Nat) (c : Child), w.children[child]? = some c → c.Final)
    ?_ ?_ ?_ ?_ h
  · intro outside child c hc
    simp at hc
  · exact fun _ _ ih => ih
  · intro acts w w₁ task r k a hr ih hp hperf child c hc
    rcases hperf.child_cases hc with ⟨c₀, hc₀, ht⟩ | ⟨-, spec, p, -, rfl⟩
    · exact ht.final (ih child c₀ hc₀)
    · exact ⟨nofun, fun front exit rest heq => by simp at heq⟩
  · intro acts w w' hr ih hh child c hc
    obtain ⟨j, f, hf, hch⟩ := hh.children
    rw [hch, List.getElem?_modify] at hc
    obtain ⟨c₀, hc₀, rfl⟩ := Option.map_eq_some_iff.1 hc
    split
    · exact hf.final (ih child c₀ hc₀)
    · exact ih child c₀ hc₀

theorem World.Spent.act {r : Request} {a : r.Answer} (h : w.Spent child)
    (hperf : World.Performed env s.roles w task r a w₁) : w₁.Spent child := by
  obtain ⟨c, hc, hspent⟩ := h
  obtain ⟨c', hc', -⟩ := hperf.outlives child c hc
  rcases hperf.child_cases hc' with ⟨c₀, hc₀, ht⟩ | ⟨hnew, -⟩
  · obtain rfl := Option.some.inj (hc.symm.trans hc₀)
    exact ⟨c', hc', ht.spent hspent⟩
  · have := (List.getElem?_eq_some_iff.1 hc).1
    omega

theorem World.Spent.hush (h : w.Spent child) (hh : w.Hush w') : w'.Spent child := by
  obtain ⟨c, hc, hspent⟩ := h
  obtain ⟨j, f, hf, hch⟩ := hh.children
  refine ⟨if j = child then f c else c, ?_, ?_⟩
  · rw [hch, List.getElem?_modify, hc]
    rfl
  · split
    · exact hf.spent hspent
    · exact hspent

/-- Whoever was told of the exit, or that there is no more, has taken all. -/
theorem Run.spent_of_took (h : Run env s acts w) {e : Option ChildEvent}
    (hm : .step i (.nextEvent child) e ∈ acts) (he : ∀ event, e = some event → ∃ exit, event = .exited exit) :
    w.Spent child := by
  refine Run.induct (J := fun acts w => .step i (.nextEvent child) e ∈ acts → w.Spent child) ?_ ?_ ?_ ?_ h hm
  · exact fun _ hm => absurd hm List.not_mem_nil
  · intro acts w c _ ih hm
    exact ih ((List.mem_cons.1 hm).resolve_left nofun)
  · intro acts w w₁ task r k a hr ih hp hperf hm
    rcases List.mem_cons.1 hm with heq | hm
    · cases heq
      have hlt := hr.lt_of_nextEvent hp
      cases hperf with
      | event _ c event rest found events =>
        obtain ⟨exit, rfl⟩ := he event rfl
        have hfinal := hr.final child c found
        refine ⟨{ c with events := rest }, ?_, hfinal.last [] exit rest events, ?_⟩
        · simp [World.changeTask, World.changeChild, found]
        · exact hfinal.silent exit (events ▸ List.mem_cons_self)
      | silence _ ended => exact ⟨_, List.getElem?_eq_getElem hlt, ended _ (List.getElem?_eq_getElem hlt)⟩
    · have hspent : w₁.Spent child := World.Spent.act (ih hm) hperf
      exact hspent
  · exact fun _ ih hh hm => (ih hm).hush hh

theorem mem_written_cons {entry : OutputLog.Level × String} (h : entry ∈ written i acts) (x : Act) :
    entry ∈ written i (x :: acts) := by
  rw [written, notes, chronicle_cons, entriesOf, List.filterMap_append]
  exact List.mem_append_left _ h

/-- The exit is written before it is recorded. -/
theorem Run.exit_written (h : Run env s acts w) {exit : Exit}
    {a : Except Lifecycle.Refusal Lifecycle.Transition} (hm : .step i (.recordExit pid exit) a ∈ acts) : exitEntry exit ∈ written i acts := by
  refine Run.induct (J := fun acts _ => .step i (.recordExit pid exit) a ∈ acts →
    exitEntry exit ∈ written i acts) ?_ ?_ ?_ ?_ h hm
  · exact fun _ hm => absurd hm List.not_mem_nil
  · intro acts w c _ ih hm
    exact mem_written_cons (ih ((List.mem_cons.1 hm).resolve_left nofun)) _
  · intro acts w w₁ task r k a' hr ih hp hperf hm
    rcases List.mem_cons.1 hm with heq | hm
    · cases heq
      obtain ⟨phase, y, hstep⟩ := hr.guardedStep hp hperf
      obtain ⟨child, hi, -⟩ := hstep.record
      obtain ⟨hwritten, -⟩ := hr.written_of_pending hi hp
      refine mem_written_cons ?_ _
      rw [hwritten]
      exact List.mem_append_right _ List.mem_cons_self
    · exact mem_written_cons (ih hm) _
  · exact fun _ ih _ hm => ih hm

/-- An observer that has recorded the exit has written all that it took, and the exit. -/
theorem Run.written_of_recorded (h : Run env s acts w) (hi : (roles acts)[i]? = some (.observer child pid))
    {p : Nat} {exit : Exit} {a : Except Lifecycle.Refusal Lifecycle.Transition}
    (hm : .step i (.recordExit p exit) a ∈ acts) :
    ∃ exit, written i acts = (takenFrom child acts).filterMap ChildEvent.entry? ++ [exitEntry exit] ∧
      Ends child exit (notes i acts) := by
  have hexit : exitEntry exit ∈ entriesOf (notes i acts) := h.exit_written hm
  -- the line of the exit is none of the child's own
  have hnot : exitEntry exit ∉ entriesDue (notes i acts) := by
    intro hdue
    obtain ⟨e, -, he⟩ := List.mem_filterMap.1 hdue
    exact ChildEvent.entry?_level he rfl
  obtain ⟨phase, -, hkept⟩ := h.passed
  obtain ⟨hchild, -, hpassed⟩ := hkept i _ hi
  rw [h.takenFrom_eq hi]
  generalize phase i = x at hchild hpassed
  cases x with
  | outside => cases hchild
  | ready | bereft => exact absurd (hpassed.1 ▸ hexit) hnot
  | holding c entry => exact absurd (hpassed.1 ▸ List.mem_append_left [entry] hexit) hnot
  | closed c exit' =>
    cases hchild
    exact ⟨exit', hpassed⟩

theorem mem_of_takenFrom {e : ChildEvent} (h : e ∈ takenFrom child acts) :
    ∃ i, .step i (.nextEvent child) (some e) ∈ acts := by
  obtain ⟨x, hx, hfrom⟩ := List.mem_filterMap.1 h
  unfold Act.eventFrom? at hfrom
  split at hfrom
  · split at hfrom
    · rename_i i c e' hc
      obtain rfl : e' = some e := hfrom
      exact ⟨i, hc ▸ List.mem_reverse.1 hx⟩
    · cases hfrom
  · cases hfrom

/-- When an observer is through with a child nothing is left to be taken. -/
theorem Run.spent_of_ends (h : Run env s acts w) (hi : (roles acts)[i]? = some (.observer child pid))
    {exit : Exit} (hends : Ends child exit (notes i acts)) : w.Spent child := by
  rcases hends with ⟨front, hfront⟩ | ⟨-, hm⟩
  · have hexited : .exited exit ∈ takenFrom child acts := by
      rw [h.takenFrom_eq hi, hfront]
      exact List.mem_append_right front List.mem_cons_self
    obtain ⟨j, hm⟩ := mem_of_takenFrom hexited
    refine h.spent_of_took hm fun event he => ⟨exit, ?_⟩
    exact (Option.some.inj he).symm
  · obtain ⟨r, a, hm, hd⟩ := mem_chronicle.1 hm
    unfold Request.note? at hd
    split at hd <;> cases hd
    exact h.spent_of_took hm nofun

/-- The output has all of a child: its observer has written what it took from it and then that it exited, and
there is nothing left to be taken. -/
structure World.Logged (acts : List Act) (w : World ε) (child : Nat) : Prop where
  spent : w.Spent child
  written : ∃ i pid exit, (roles acts)[i]? = some (.observer child pid) ∧ Ends child exit (notes i acts) ∧
    written i acts = (takenFrom child acts).filterMap ChildEvent.entry? ++ [exitEntry exit]

/-- When the exit of a child is recorded the output has all of it. -/
theorem Run.logged_of_recorded (h : Run env s acts w) (hrec : Recorded acts child) : w.Logged acts child := by
  obtain ⟨i, pid, p, exit, a, hi, hm⟩ := hrec
  obtain ⟨exit, hwritten, hends⟩ := h.written_of_recorded hi hm
  exact ⟨h.spent_of_ends hi hends, i, pid, exit, hi, hends, hwritten⟩

end Spending

/-! ## The check that is waited for -/

section Cancelling

variable {ε : Type} {env : Environment ε} {s : Service} {acts : List Act} {w w₁ : World ε} {i check : Nat}

/-- Whoever cancels a check has it in hand. -/
theorem Run.lt_of_cancel (h : Run env s acts w) {k : Unit → Program Flow}
    (hp : w.pending i = some ⟨.cancelCheck check, k⟩) : check < w.tasks.length := by
  obtain ⟨stage, hf, hstage⟩ := h.gripped
  obtain ⟨place, hplaced⟩ := h.placed
  obtain ⟨y, hP⟩ := hf.pending hp ()
  obtain ⟨ρ, hρ⟩ := h.exists_role_of_lt (World.lt_of_pending hp)
  obtain ⟨-, hheld⟩ := hstage i ρ hρ
  have hhand : hand i acts = some check := by
    rw [← hheld]
    generalize stage i = x at hP
    cases hP with
    | other hk => exact absurd rfl hk
    | cancel => rfl
  have hrole := hplaced.role_of_keeps (p := .held i) hhand
  exact h.roles_length ▸ (List.getElem?_eq_some_iff.1 hrole).1

theorem Run.cancelled_of_act (h : Run env s acts w) (hm : .step i (.cancelCheck check) () ∈ acts) :
    w.isCancelled check = true := by
  refine Run.induct (J := fun acts w => .step i (.cancelCheck check) () ∈ acts →
    w.isCancelled check = true) ?_ ?_ ?_ ?_ h hm
  · exact fun _ hm => absurd hm List.not_mem_nil
  · intro acts w c _ ih hm
    rw [World.isCancelled_addTask]
    exact ih ((List.mem_cons.1 hm).resolve_left nofun)
  · intro acts w w₁ task r k a hr ih hp hperf hm
    rw [World.isCancelled_changeTask (f := ({ · with rest := k a })) fun _ => rfl]
    rcases List.mem_cons.1 hm with heq | hm
    · cases heq
      cases hperf with
      | cancelCheck => simp [World.isCancelled_cancel (hr.lt_of_cancel hp)]
    · exact hperf.isCancelled_of (ih hm)
  · intro acts w w' _ ih hh hm
    rw [hh.isCancelled]
    exact ih hm

/-- A cancelled check ends with its next turn, and nobody has to wait for it any more. -/
theorem World.attempt_of_cancelled (env : Environment ε) (s : Service) (hc : w.isCancelled check = true)
    (hres : w.checkResult check = none) :
    ∃ w', w.attempt env s.roles check = some w' ∧ w'.checkResult check = some none ∧
      ∀ j, j ≠ check → w'.pending j = w.pending j := by
  unfold World.isCancelled at hc
  unfold World.checkResult at hres
  cases ht : w.tasks[check]? with
  | none => simp [ht] at hc
  | some t =>
    have hcancelled : t.cancelled = true := by simpa [ht] using hc
    have hover : t.isOver = false := by
      simp only [ht] at hres
      cases hr : t.result with
      | some o =>
        rw [hr] at hres
        cases o <;> cases hres
      | none =>
        simp only [hr] at hres
        split at hres
        · cases hres
        · rename_i hdropped
          simp [Task.isOver, hr, hdropped]
    have hsame : (w.forgetPrompt env t).tasks = w.tasks := by
      unfold World.forgetPrompt
      split <;> rfl
    refine ⟨(w.forgetPrompt env t).changeTask check ({ · with result := some (.check none) }), ?_, ?_, ?_⟩
    · simp [World.attempt, ht, hover, hcancelled]
    · simp [World.checkResult, World.changeTask, hsame, ht]
    · intro j hj
      simp [World.pending, World.changeTask, hsame, hj.symm]

end Cancelling

/-! ## How long a deactivation takes -/

section Counting

open Program

theorem waitExited_endsIn (child grace : Nat) : (Supervisor.waitExited child grace).EndsIn 2 :=
  fun _ => fun _ => trivial

theorem awaitExitOrKill_endsIn (child grace : Nat) : (Supervisor.awaitExitOrKill child grace).EndsIn 5 := by
  refine (waitExited_endsIn child grace).bind (m := 3) fun seen => ?_
  cases seen with
  | true => trivial
  | false => exact EndsIn.ask fun _ => waitExited_endsIn child grace

theorem stop_endsIn : Supervisor.stop.EndsIn 2 := by
  refine EndsIn.ask fun result => ?_
  cases result with
  | alreadyStopping => trivial
  | refused refusal => trivial
  | _ => exact fun _ => trivial

theorem shutdown_endsIn (grace : Nat) : (Supervisor.shutdown grace).EndsIn 9 := by
  refine EndsIn.ask fun current => ?_
  cases current with
  | none => trivial
  | some child =>
    have rest : (discard (Supervisor.awaitExitOrKill child grace)).EndsIn 5 :=
      (awaitExitOrKill_endsIn child grace).bind (m := 0) fun _ => trivial
    refine EndsIn.ask fun state => ?_
    cases state.isRunning with
    | true =>
      simp only [if_true]
      exact EndsIn.bind (n := 2) (stop_endsIn.bind (m := 0) fun _ => EndsIn.done _) fun _ => rest
    | false => exact rest.mono (by decide)

theorem deactivate_endsIn (s : Service) : (Call.deactivate.outcome s).EndsIn 14 := by
  have finish : ((Supervisor.shutdown s.shutdownGrace).bind fun _ => query .closeOutput).EndsIn 10 :=
    (shutdown_endsIn s.shutdownGrace).bind (m := 1) fun _ => EndsIn.ask (n := 0) EndsIn.done
  refine EndsIn.bind (m := 0) (EndsIn.ask fun _ => EndsIn.ask fun check => ?_) fun _ => trivial
  cases check with
  | none => exact finish.mono (by decide)
  | some check => exact fun _ => fun _ => finish

end Counting

/-! ## The course of a deactivation -/

/-- What is the case at any moment of a deactivation. -/
structure Retires {ε : Type} (env : Environment ε) (s : Service) (acts₀ : List Act) (w₀ : World ε)
    (past : List (Episode ε)) (w : World ε) : Prop where
  /-- the current child is told to go at most once, and only if the server was running; it is killed at most
  once -/
  signals : w.signals w₀.tasks.length <+: w₀.warnings ++ w₀.kills
  /-- it is killed only when the grace has passed and its exit has not been seen -/
  patient : ∀ child pid, .kill child pid ∈ w.signals w₀.tasks.length →
    Waited w₀.tasks.length child s.shutdownGrace (fun _ => True) past
  /-- at the end the server is stopped, unless the child was killed, too, and did not exit within the grace -/
  retired : ∀ o, w.result? w₀.tasks.length = some o → o = .nothing ∧
    (w.runtime = ⟨.stopped, none⟩ ∧ w.runtime.definitions = [] ∨
      ∃ child, w₀.runtime.child? = some child ∧ WaitedTwice w₀.tasks.length child s.shutdownGrace past ∧
        w.signals w₀.tasks.length = w₀.warnings ++ w₀.kills)
  /-- with the same exception, the output has all of the child when it is closed -/
  logged : ∀ later v earlier, past = later ++ ⟨v, .step w₀.tasks.length (.query .closeOutput) ()⟩ :: earlier →
    ∀ child, w₀.runtime.child? = some child →
      v.Logged (actsOf earlier ++ .call .deactivate :: acts₀) child ∨
      WaitedTwice w₀.tasks.length child s.shutdownGrace earlier
  /-- it goes on, or waits for a moment that will come, or for a check that ends with its next turn -/
  goesOn : w.result? w₀.tasks.length = none → (w.attempt env s.roles w₀.tasks.length).isSome = true ∨
    (∃ moment, w.deadline? w₀.tasks.length = some moment ∧ w.now < moment) ∨
    ∃ check w', w.attempt env s.roles check = some w' ∧ (w'.attempt env s.roles w₀.tasks.length).isSome = true
  steps : (actsOf past).countP (·.task? == some w₀.tasks.length) ≤ 14

section Deactivating

variable {ε : Type} {env : Environment ε} {s : Service} {acts₀ : List Act} {w₀ w : World ε}
  {past : List (Episode ε)} {x : Escalation} {Q : Escalation → Outcome → Prop}

/-- A deactivation starts nothing. -/
theorem Course.not_launching (h₀ : Run env s acts₀ w₀) (h : Course env s (w₀.called s .deactivate) past w)
    (hx : x.Behind s.shutdownGrace w₀.tasks.length past) : x ≠ .launching := by
  rintro rfl
  have hused := (h.run_of_call h₀).kind_of_acted (h₀.role_of_call .deactivate _) (List.mem_append_left _ hx)
  cases hused

/-- A call that closes the output is through with the child. -/
theorem Escalate.closes {strict : Bool} {grace : Nat} {y : Escalation} {a : Unit}
    (hP : Escalate strict grace x (.query .closeOutput) a y) (hx : x ≠ .launching) :
    x = .clear ∨ ∃ child, x = .inVain child := by
  cases hP with
  | remark h => cases h
  | closeClear => exact .inl rfl
  | closeInVain => exact .inr ⟨_, rfl⟩
  | inner => exact absurd rfl hx

/-- Nothing but time and its own check can hold up a deactivation. -/
theorem Course.deactivation_goes_on (h₀ : Run env s acts₀ w₀)
    (h : Course env s (w₀.called s .deactivate) past w)
    (hbehind : x.Behind s.shutdownGrace w₀.tasks.length past)
    (hkeep : w.Keeps (Escalate false s.shutdownGrace) Q w₀.tasks.length x)
    (hres : w.result? w₀.tasks.length = none) : (w.attempt env s.roles w₀.tasks.length).isSome = true ∨
      (∃ moment, w.deadline? w₀.tasks.length = some moment ∧ w.now < moment) ∨
      ∃ check w', w.attempt env s.roles check = some w' ∧
        (w'.attempt env s.roles w₀.tasks.length).isSome = true := by
  refine (hkeep.goes_on hres).imp_right fun hwait => ?_
  obtain ⟨r, k, hp, hwaits, hnone⟩ := hwait
  have hrun := h.run_of_call h₀
  have hused := hrun.kind_of_pending (h₀.role_of_call .deactivate _) hp
  obtain ⟨t, ht, hover, hcan, hrest⟩ := World.pending_eq_some hp
  cases r with
  | awaitExit child moment =>
    refine .inl ⟨moment, by simp [World.deadline?, ht, hover, hrest], ?_⟩
    simp only [World.perform] at hnone
    split at hnone
    · cases hnone
    · split at hnone
      · cases hnone
      · omega
  | awaitCheck check =>
    have hparting : x = .parting check := by
      obtain ⟨y, hP⟩ := hkeep.pending hp none
      cases hP with
      | remark h => cases h
      | part => rfl
      | inner => exact absurd rfl (h.not_launching h₀ hbehind)
    subst hparting
    have hcancelled := hrun.cancelled_of_act (List.mem_append_left _ hbehind)
    obtain ⟨w', hattempt, hover', hothers⟩ :=
      World.attempt_of_cancelled env s hcancelled (Option.map_eq_none_iff.1 hnone)
    refine .inr ⟨check, w', hattempt, ?_⟩
    have hne : w₀.tasks.length ≠ check := by
      rintro rfl
      simp [World.isCancelled, ht, hcan] at hcancelled
    have hperf : w'.perform env s.roles w₀.tasks.length (.awaitCheck check) = some (none, w') := by
      simp [World.perform, hover']
    rw [World.attempt_of_pending ((hothers _ hne).trans hp) hperf]
    rfl
  | awaitPrompt | awaitCommand | nextEvent => cases hused
  | _ => cases hwaits

/-- A child that was killed has been sent all there is, or it has gone meanwhile. -/
theorem Warned.gone_or_killed {strict : Bool} {i : Nat} {acts : List Act} (h : Warned strict i w₀ true acts w) :
    w.runtime = ⟨.stopped, none⟩ ∨ w.signals i = w₀.warnings ++ w₀.kills := by
  have standing : ∀ {state}, Standing i w₀ state (w₀.signalsDue true) acts w →
      w.runtime = ⟨.stopped, none⟩ ∨ w.signals i = w₀.warnings ++ w₀.kills := by
    intro state hstanding
    cases hstanding with
    | kept held hstate signals => exact .inr signals
    | left runtime recorded signals => exact .inl runtime
  rcases h with hstanding | ⟨-, hstanding⟩
  · exact standing hstanding
  · exact standing hstanding

/-- A deactivation that closes the output knows that the child has exited, or it has waited twice. -/
theorem Course.logged_at_close (h₀ : Run env s acts₀ w₀) (h : Course env s (w₀.called s .deactivate) past w)
    (hx : Escalated false s.shutdownGrace w₀.tasks.length w₀ (.call .deactivate :: acts₀) x past w)
    (hkeep : w.Keeps (Escalate false s.shutdownGrace) Q w₀.tasks.length x) {k : Unit → Program Flow}
    (hp : w.pending w₀.tasks.length = some ⟨.query .closeOutput, k⟩) {child : Nat}
    (hc : w₀.runtime.child? = some child) :
    w.Logged (actsOf past ++ .call .deactivate :: acts₀) child ∨
      WaitedTwice w₀.tasks.length child s.shutdownGrace past := by
  obtain ⟨y, hP⟩ := hkeep.pending hp ()
  rcases hP.closes (h.not_launching h₀ hx.behind) with rfl | ⟨child', rfl⟩
  · have hrun := h.run_of_call h₀
    rw [Supervisor.Runtime.child?_eq_held] at hc
    obtain ⟨⟨child', pid⟩, hheld, rfl⟩ := Option.map_eq_some_iff.1 hc
    exact .inl (hrun.logged_of_recorded ((Standing.cleared hx.stands hrun).2 child' pid hheld))
  · obtain rfl := Option.some.inj (hc.symm.trans hx.stands.1)
    exact .inr hx.behind

/-- **A deactivation retires the server.** Take a deactivation in any run that does not find the server
starting, and follow it for as long as nobody else calls and no other caller goes on. Whatever the child does,
and whatever becomes of the signals, at every moment of it all of `Retires` is the case. -/
theorem Course.deactivation_retires (h₀ : Run env s acts₀ w₀) (hstate : w₀.runtime.state ≠ .starting)
    (h : Course env s (w₀.called s .deactivate) past w)
    (hu : Undisturbed w₀.tasks.length (.call .deactivate :: acts₀) past) : Retires env s acts₀ w₀ past w := by
  obtain ⟨x, hx, hkeep⟩ := h.escalated h₀ (deactivate_escalates s) hstate hu
  have nothing_published : w.runtime = ⟨.stopped, none⟩ →
      w.runtime = ⟨.stopped, none⟩ ∧ w.runtime.definitions = [] := by
    intro hruntime
    exact ⟨hruntime, by rw [hruntime]; rfl⟩
  refine ⟨hx.stands.signals_upTo, hx.killed, fun o ho => ?_, fun later v earlier hpast child hc => ?_,
    h.deactivation_goes_on h₀ hx.behind hkeep, h.steps_le h₀ (deactivate_endsIn s)⟩
  · obtain ⟨rfl, rfl | ⟨child, rfl⟩⟩ := hkeep.result ho
    · exact ⟨rfl, .inl (nothing_published (Standing.cleared hx.stands (h.run_of_call h₀)).1)⟩
    · obtain ⟨hc, hwarned⟩ := hx.stands
      refine ⟨rfl, hwarned.gone_or_killed.imp nothing_published fun hsignals => ?_⟩
      exact ⟨child, hc, hx.behind, hsignals⟩
  · subst hpast
    have hbefore := h.before rfl
    obtain ⟨y, hy, hkept⟩ := hbefore.escalated h₀ (deactivate_escalates s) hstate hu.suffix.tail
    obtain ⟨k, hp⟩ := h.pending rfl
    exact hbefore.logged_at_close h₀ hy hkept hp hc

/-- The child speaks once more. It cannot be told to go, so it is killed when the grace has passed, and its
observer writes what there is to write. -/
def Rehearsal.lastWords : List (Move Script) :=
  .tell 0 (.stdout "bye") :: List.replicate 7 (.step 2) ++ [.clock 5000] ++ List.replicate 3 (.step 2) ++
    List.replicate 9 (.step 1) ++ List.replicate 3 (.step 2)

/-- A deactivation with a child that can only be killed: the server is stopped, and the output was closed behind
the last words of the child. -/
theorem retired_behind_last_words : ∃ past w v earlier,
    Course Rehearsal.Script.environment Rehearsal.sample
      ((Rehearsal.scene { terminateError := some (.process "denied") } Rehearsal.started).2.called
        Rehearsal.sample .deactivate) past w ∧
    w.result? 2 = some .nothing ∧ w.runtime = ⟨.stopped, none⟩ ∧
    w.signals 2 = [.terminate 0 4000, .kill 0 4000] ∧ Waited 2 0 5000 (fun _ => True) past ∧
    past = ⟨v, .step 2 (.query .closeOutput) ()⟩ :: earlier ∧
    v.Logged (actsOf earlier ++ .call .deactivate ::
      (Rehearsal.scene { terminateError := some (.process "denied") } Rehearsal.started).1) 0 ∧
    written 1 (actsOf earlier ++ .call .deactivate ::
      (Rehearsal.scene { terminateError := some (.process "denied") } Rehearsal.started).1) =
      [(.stdout, "bye"), (.info, "[Server] Process exited with signal 9.")] := by
  have hcourse := Rehearsal.course_sequel
    (Rehearsal.scene { terminateError := some (.process "denied") } Rehearsal.started).2 .deactivate
    Rehearsal.lastWords
  have hretires := Course.deactivation_retires
    (Rehearsal.run_scene { terminateError := some (.process "denied") } Rehearsal.started)
    (by decide +kernel) hcourse (by decide +kernel)
  have hkilled : .kill 0 4000 ∈ (Rehearsal.sequel
      (Rehearsal.scene { terminateError := some (.process "denied") } Rehearsal.started).2 .deactivate
      Rehearsal.lastWords).2.signals 2 := by decide +kernel
  have hlogged := hretires.logged [] _ _ rfl 0 (by decide +kernel)
  refine ⟨_, _, _, _, hcourse, by decide +kernel, by decide +kernel, by decide +kernel,
    hretires.patient 0 4000 hkilled, rfl, hlogged.resolve_right fun hw => ?_, by decide +kernel⟩
  exact absurd hw.missed (by decide +kernel)

end Deactivating

end Steward
