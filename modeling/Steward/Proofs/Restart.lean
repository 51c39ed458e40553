import Steward.Proofs.Escalation

/-!
# A restart replaces the server

A restart with nobody else about sees the old child off before it turns to a new one. `Replaces` says what that
means at any moment of it: which signals the old child was sent and when, that nobody is asked for a new server
before the exit of the old one is recorded, and how it ends if the old child cannot be told to go or will not
go. `Course.restart_replaces` proves it, for every child and every answer to the signals.
-/

set_option autoImplicit false

namespace Steward

/-! ## What is asked for a new server -/

/-- Something is asked of those who find, install, configure or start the server. -/
def Request.isSeeking : Request → Bool
  | .query .locate => true
  | .query .readOptions => true
  | .query (.negotiatePort _) => true
  | .query (.hostInstall _) => true
  | .query (.prompt ..) => true
  | .query (.command ..) => true
  | .spawn _ => true
  | _ => false

/-- The user is told something, or the child is looked up or asked to go: neither is it killed, nor is anything
waited for or started. -/
def Request.isModest : Request → Bool
  | .query (.notify ..) => true
  | .query (.write ..) => true
  | .restartTarget => true
  | .currentChild => true
  | .readState => true
  | .stop => true
  | _ => false

theorem Request.gravity_of_seeking {r : Request} (h : r.isSeeking = true) : r.gravity = 4 := by
  cases r with
  | query q => cases q <;> first | rfl | cases h
  | spawn => rfl
  | _ => cases h

theorem Request.modest_of_gravity {r : Request} (h : r.gravity = 0) (hk : r.kind ≠ .check) :
    r.isModest = true := by
  cases r with
  | query q => cases q <;> first | rfl | cases h
  | takeCheck | cancelCheck | awaitCheck => exact absurd rfl hk
  | _ => first | rfl | cases h

section Signals

variable {ε : Type} {env : Environment ε} {s : Service} {acts : List Act} {w w₁ : World ε} {i child pid : Nat}
  {δ : Delivery} {e : Failure}

/-- A child is told to go by a stop, and what the stop is answered is what became of that. -/
theorem World.Performed.told_cases {rs : Roles} {task : Nat} {r : Request} {a : r.Answer}
    (h : World.Performed env rs w task r a w₁) (hkind : r.kind ≠ .direct)
    (hm : .asked i (.terminate child pid) δ ∈ w₁.history) (he : δ.result = .error e) :
    .asked i (.terminate child pid) δ ∈ w.history ∨ Act.step task r a = .step i .stop (.undelivered e) := by
  -- what is new in the history is the answer to this request
  have latest : ∀ {q : Query} {b : q.Answer}, w₁.history = .asked task q b :: w.history →
      .asked i (.terminate child pid) δ ∈ w.history ∨
        Happening.asked i (.terminate child pid) δ = .asked task q b := fun hw =>
    (List.mem_cons.1 (hw ▸ hm)).symm
  cases h with
  | query q =>
    refine (latest rfl).imp_right fun heq => ?_
    injection heq with _ hq
    exact absurd (by rw [← hq]; rfl) hkind
  | spawned | unspawned => exact (latest rfl).imp_right fun heq => nomatch heq
  | killed handle => exact (latest (World.exitNow_history _ _ _)).imp_right fun heq => nomatch heq
  | prompted ticket choice => exact .inl ((List.mem_cons.1 hm).resolve_left fun heq => nomatch heq)
  | stop a w₁ hs =>
    cases hs with
    | delivered p d handle state hhandle told =>
      refine (latest (World.exitNow_history _ _ _)).imp_right fun heq => ?_
      cases heq
      exact nomatch he.symm.trans told
    | undelivered p d handle e' state hhandle told =>
      refine (latest (World.exitNow_history _ _ _)).imp_right fun heq => ?_
      cases heq
      cases he.symm.trans told
      rfl
    | _ => exact .inl hm
  | _ => exact .inl hm

theorem Run.stop_of_told (h : Run env s acts w) (hm : .asked i (.terminate child pid) δ ∈ w.history)
    (he : δ.result = .error e) : .step i .stop (.undelivered e) ∈ acts := by
  refine Run.induct (J := fun acts w => .asked i (.terminate child pid) δ ∈ w.history →
    .step i .stop (.undelivered e) ∈ acts) ?_ ?_ ?_ ?_ h hm
  · exact fun _ hm => absurd hm List.not_mem_nil
  · intro acts w c _ ih hm
    exact List.mem_cons_of_mem _ (ih hm)
  · intro acts w w₁ task r k a hr ih hp hperf hm
    rcases hperf.told_cases (hr.not_direct hp a) hm he with hm | heq
    · exact List.mem_cons_of_mem _ (ih hm)
    · exact heq ▸ List.mem_cons_self
  · intro acts w w' _ ih hh hm
    exact ih (hh.history ▸ hm)

end Signals

/-! ## The course of a restart -/

/-- What is the case at any moment of a restart that found the server with this child. -/
structure Replaces {ε : Type} (env : Environment ε) (s : Service) (acts₀ : List Act) (w₀ : World ε)
    (child pid : Nat) (d : Definition) (past : List (Episode ε)) (w : World ε) : Prop where
  /-- the child is told to go at most once, and only if the server was running; it is killed at most once -/
  signals : w.signals w₀.tasks.length <+:
    (if w₀.runtime.state.isRunning then [.terminate child pid] else []) ++ [.kill child pid]
  /-- it is killed only when the grace has passed and its exit has not been seen -/
  patient : .kill child pid ∈ w.signals w₀.tasks.length →
    Waited w₀.tasks.length child s.stopGrace (fun _ => True) past
  /-- nothing is sought for a new server before the exit is recorded -/
  sought : ∀ (r : Request) (a : r.Answer), .step w₀.tasks.length r a ∈ actsOf past → r.isSeeking = true →
    Recorded (actsOf past ++ .call .restart :: acts₀) child
  /-- the start finds the server stopped and the gate open -/
  began : ∀ v gate, ⟨v, .step w₀.tasks.length .beginStart gate⟩ ∈ past →
    v.runtime = ⟨.stopped, none⟩ ∧ gate = .open
  outcome : ∀ o, w.result? w₀.tasks.length = some o →
    ∃ outcome, o = .start outcome ∧ outcome ≠ .busy ∧ ∀ d, outcome ≠ .alreadyRunning d
  /-- if the child cannot be told to go the restart is given up at once -/
  untold : ∀ δ e, .asked w₀.tasks.length (.terminate child pid) δ ∈ w.history → δ.result = .error e →
    (∀ (r : Request) (a : r.Answer), .step w₀.tasks.length r a ∈ actsOf past → r.isModest = true) ∧
    w.Returns env s w₀.tasks.length (.start (.failed e.message))
  /-- if it does not go, not even when it is killed, the restart is given up too: nothing is sought, no event is
  put to the server any more, and as long as the exit is not recorded the server is stopping with the child -/
  lingering : missed w₀.tasks.length (actsOf past) = true →
    WaitedTwice w₀.tasks.length child s.stopGrace past ∧
    (∀ (r : Request) (a : r.Answer), .step w₀.tasks.length r a ∈ actsOf past → r.isSeeking = false) ∧
    (∀ later earlier, past = later ++ earlier → missed w₀.tasks.length (actsOf earlier) = true →
      ∀ e ∈ later, e.act.isTransitionOf w₀.tasks.length = false) ∧
    w.Returns env s w₀.tasks.length (.start (.failed (lingering s))) ∧
    (w.runtime.held = some (child, pid) ∧ w.runtime.state = .stopping pid d ∨
      w.runtime = ⟨.stopped, none⟩ ∧ w.NoneAlive ∧
        Recorded (actsOf past ++ .call .restart :: acts₀) child)

section Restarting

variable {ε : Type} {env : Environment ε} {s : Service} {acts₀ : List Act} {w₀ w : World ε}
  {past : List (Episode ε)} {child pid : Nat} {d : Definition} {i grace : Nat} {x : Escalation}

/-- A call that has failed, or waited in vain, has only to say so. -/
theorem Escalate.last {strict : Bool} {y : Escalation} {r : Request} {a : r.Answer}
    (hx : (∃ reason, x = .failed reason) ∨ ∃ child, x = .inVain child)
    (hP : Escalate strict grace x r a y) : (∃ q, r = .query q) ∧ y = x := by
  cases hP with
  | remark hr =>
    refine ⟨?_, rfl⟩
    cases r with
    | query q => exact ⟨q, rfl⟩
    | _ => cases hr
  | closeInVain => exact ⟨⟨_, rfl⟩, rfl⟩
  | _ => simp at hx

theorem Run.held_of_pid (h : Run env s acts₀ w₀)
    (hstate : w₀.runtime.state = .running pid d ∨ w₀.runtime.state = .stopping pid d) :
    ∃ child, w₀.runtime.held = some (child, pid) := by
  have hpid := (h.coherent.1 pid).2 ⟨d, hstate⟩
  obtain ⟨handle, hhandle, rfl⟩ := Option.map_eq_some_iff.1 hpid
  exact ⟨handle.child, by simp [Supervisor.Runtime.held, hhandle]⟩

theorem World.signalsDue_eq (hheld : w₀.runtime.held = some (child, pid)) : w₀.signalsDue true =
    (if w₀.runtime.state.isRunning then [.terminate child pid] else []) ++ [.kill child pid] := by
  simp [World.warnings, World.kills, hheld]

/-- A restart that comes to a start has a start's outcome, and it was not turned away. -/
theorem Course.outcome_of_launching (h₀ : Run env s acts₀ w₀) (h : Course env s (w₀.called s .restart) past w)
    (hx : Escalated true grace w₀.tasks.length w₀ (.call .restart :: acts₀) .launching past w)
    {outcome : Supervisor.StartOutcome} (ho : w.result? w₀.tasks.length = some (.start outcome)) :
    outcome ≠ .busy ∧ ∀ d, outcome ≠ .alreadyRunning d := by
  obtain ⟨v, hv, hact⟩ := List.mem_map.1 (hx.behind : .step w₀.tasks.length .beginStart .open ∈ actsOf past)
  have begun : ⟨v.before, .step w₀.tasks.length .beginStart .open⟩ ∈ past := hact ▸ hv
  obtain ⟨venture, hventured, hkeep⟩ := h.ventured h₀ rfl
  have hreached := hventured.reached
  rcases hkeep.result ho with rfl | ⟨outcome', ho', hgives⟩
  · exact absurd begun (hreached v.before)
  · obtain rfl := Option.some.inj ho'
    cases venture with
    | away gate => exact absurd begun (hreached.1 v.before)
    | refused l => exact hreached.elim
    | announced l =>
      obtain ⟨d, rfl⟩ := hgives
      exact ⟨nofun, nofun⟩
    | aborted l e =>
      cases e with
      | none =>
        rcases hgives with rfl | ⟨reason, rfl⟩
        · exact ⟨nofun, nofun⟩
        · exact ⟨nofun, nofun⟩
      | some e =>
        obtain rfl : outcome = .failed e.message := hgives
        exact ⟨nofun, nofun⟩
    | _ => exact hgives.elim

/-- Whoever seeks a new server is in the last stage. -/
theorem Escalated.launching_of_seeking {strict : Bool}
    (hx : Escalated strict grace i w₀ acts₀ x past w) {r : Request} {a : r.Answer}
    (hm : .step i r a ∈ actsOf past) (hr : r.isSeeking = true) : x = .launching := by
  have hgrave := hx.graded r a hm
  rw [Request.gravity_of_seeking hr] at hgrave
  cases x with
  | launching => rfl
  | armed child killed => cases killed <;> exact absurd hgrave (by simp [Escalation.gravity])
  | timed child moment killed => cases killed <;> exact absurd hgrave (by simp [Escalation.gravity])
  | _ => exact absurd hgrave (by simp [Escalation.gravity])

/-- A restart whose child could not be told to go is given up. -/
theorem Course.restart_given_up (h₀ : Run env s acts₀ w₀) (h : Course env s (w₀.called s .restart) past w)
    (hx : Escalated true s.stopGrace w₀.tasks.length w₀ (.call .restart :: acts₀) x past w)
    (hkeep : w.Keeps (Escalate true s.stopGrace) (Escalation.EndsRestart s) w₀.tasks.length x)
    {δ : Delivery} {e : Failure} (hm : .asked w₀.tasks.length (.terminate child pid) δ ∈ w.history)
    (he : δ.result = .error e) :
    (∀ (r : Request) (a : r.Answer), .step w₀.tasks.length r a ∈ actsOf past → r.isModest = true) ∧
    w.Returns env s w₀.tasks.length (.start (.failed e.message)) := by
  have hrun := h.run_of_call h₀
  have hfailed : .step w₀.tasks.length .stop (.undelivered e) ∈ actsOf past := by
    refine (List.mem_append.1 (hrun.stop_of_told hm he)).resolve_right fun hold => ?_
    exact Nat.lt_irrefl _ (h₀.acted_lt ((List.mem_cons.1 hold).resolve_left nofun))
  have hstage := hx.failed rfl (.undelivered e) e.message hfailed rfl
  subst hstage
  refine ⟨fun r a hm => ?_, hkeep.returns (fun r a y hP => hP.last (.inl ⟨_, rfl⟩)) fun o ho => ?_⟩
  · have hused := hrun.kind_of_acted (h₀.role_of_call .restart _) (List.mem_append_left _ hm)
    refine Request.modest_of_gravity (Nat.le_zero.1 (hx.graded r a hm)) fun hk => ?_
    rw [hk] at hused
    cases hused
  · rcases ho with ⟨hx, -⟩ | ⟨reason, hx, rfl⟩ | ⟨child, hx, -⟩
    · cases hx
    · cases hx
      rfl
    · cases hx

/-- So is a restart whose child would not go. -/
theorem Course.restart_lingers
    (hkeep : w.Keeps (Escalate true grace) (Escalation.EndsRestart s) i (.inVain child)) :
    w.Returns env s i (.start (.failed (lingering s))) := by
  refine hkeep.returns (fun r a y hP => hP.last (.inr ⟨_, rfl⟩)) fun o ho => ?_
  rcases ho with ⟨hx, -⟩ | ⟨reason, hx, -⟩ | ⟨child, -, rfl⟩
  · cases hx
  · cases hx
  · rfl

/-- A child that would not go is still the current one of a server that is stopping, or it has gone since. -/
theorem Warned.stopping_or_gone {acts : List Act} {killed : Bool} (h : Warned true i w₀ killed acts w)
    (hrun : Run env s acts w) (hheld : w₀.runtime.held = some (child, pid))
    (hhalted : w₀.runtime.state.halted = .stopping pid d) :
    w.runtime.held = some (child, pid) ∧ w.runtime.state = .stopping pid d ∨
    w.runtime = ⟨.stopped, none⟩ ∧ w.NoneAlive ∧ Recorded acts child := by
  rcases h with hstanding | ⟨hlax, -⟩
  · cases hstanding with
    | kept held state signals => exact .inl ⟨held.trans hheld, state.trans hhalted⟩
    | left runtime recorded signals =>
      obtain ⟨phase, -, hg⟩ := hrun.guarded
      obtain ⟨-, hfits⟩ := hg.none_of_stopped (by rw [runtime])
      exact .inr ⟨runtime, hfits.2, recorded child pid hheld⟩
  · cases hlax

/-- **A restart replaces the server.** Take a restart in any run that finds the server running or stopping, and
follow it for as long as nobody else calls and no other caller goes on. Whatever the child does, and whatever
becomes of the signals, at every moment of it all of `Replaces` is the case. -/
theorem Course.restart_replaces (h₀ : Run env s acts₀ w₀)
    (hstate : w₀.runtime.state = .running pid d ∨ w₀.runtime.state = .stopping pid d)
    (h : Course env s (w₀.called s .restart) past w)
    (hu : Undisturbed w₀.tasks.length (.call .restart :: acts₀) past) :
    ∃ child, w₀.runtime.held = some (child, pid) ∧ Replaces env s acts₀ w₀ child pid d past w := by
  have hne : w₀.runtime.state ≠ .starting := by
    rcases hstate with hs | hs <;> rw [hs] <;> exact nofun
  have hhalted : w₀.runtime.state.halted = .stopping pid d := by
    rcases hstate with hs | hs <;> rw [hs] <;> rfl
  obtain ⟨child, hheld⟩ := h₀.held_of_pid hstate
  obtain ⟨x, hx, hkeep⟩ := h.escalated h₀ (restart_escalates s) hne hu
  refine ⟨child, hheld, ⟨World.signalsDue_eq hheld ▸ hx.stands.signals_upTo, hx.killed child pid,
    fun r a hm hr => ?_, hx.began, fun o ho => ?_, fun δ e => h.restart_given_up h₀ hx hkeep, fun hm => ?_⟩⟩
  · have hlaunching := hx.launching_of_seeking hm hr
    subst hlaunching
    exact hx.stands.2 child pid hheld
  · rcases hkeep.result ho with ⟨rfl, outcome, rfl⟩ | ⟨reason, rfl, rfl⟩ | ⟨child, rfl, rfl⟩
    · exact ⟨outcome, rfl, h.outcome_of_launching h₀ hx ho⟩
    · exact ⟨_, rfl, nofun, nofun⟩
    · exact ⟨_, rfl, nofun, nofun⟩
  · obtain ⟨child', rfl⟩ := hx.missed hm
    obtain ⟨hc, hwarned⟩ := hx.stands
    obtain rfl : child = child' := by
      rw [Supervisor.Runtime.child?_eq_held, hheld] at hc
      exact Option.some.inj hc
    refine ⟨hx.behind, fun r a hm => ?_, hx.settled, Course.restart_lingers hkeep,
      hwarned.stopping_or_gone (h.run_of_call h₀) hheld hhalted⟩
    exact Bool.eq_false_iff.2 fun hr => nomatch hx.launching_of_seeking hm hr

/-- The server runs when it is to be started again. The child does not mind being told to go. -/
def Rehearsal.stubborn : List (Move Script) :=
  List.replicate 4 (.step 2) ++ [.clock 5000] ++ List.replicate 3 (.step 2)

/-- It is killed by the second signal, and a new one is started. -/
def Rehearsal.replaced : List (Move Script) :=
  stubborn ++ List.replicate 6 (.step 1) ++ List.replicate 11 (.step 2)

/-- It survives that, too. -/
def Rehearsal.immortal : List (Move Script) := stubborn ++ [.clock 10000] ++ List.replicate 3 (.step 2)

/-- What is published while the child of `Rehearsal.started` runs. -/
def Rehearsal.published : Definition := .stdio defaultServerName defaultPath ["--verbose=false"]

/-- Two restarts with a child that has to be killed: the first ends with a new server, the second has to leave
the old one as it is. -/
theorem replaced_or_left_stopping :
    (∃ past w, Course Rehearsal.Script.environment Rehearsal.sample
        ((Rehearsal.scene {} Rehearsal.started).2.called Rehearsal.sample .restart) past w ∧
      Replaces Rehearsal.Script.environment Rehearsal.sample (Rehearsal.scene {} Rehearsal.started).1
        (Rehearsal.scene {} Rehearsal.started).2 0 4000 Rehearsal.published past w ∧
      w.signals 2 = [.terminate 0 4000, .kill 0 4000] ∧
      w.result? 2 = some (.start (.started Rehearsal.published))) ∧
    (∃ past w, Course Rehearsal.Script.environment Rehearsal.sample
        ((Rehearsal.scene { ignoreKill := true } Rehearsal.started).2.called Rehearsal.sample .restart) past w ∧
      WaitedTwice 2 0 5000 past ∧ w.runtime.state = .stopping 4000 Rehearsal.published ∧
      w.result? 2 = some (.start (.failed "tool did not exit, not restarting."))) := by
  constructor
  · have hcourse := Rehearsal.course_sequel (Rehearsal.scene {} Rehearsal.started).2 .restart Rehearsal.replaced
    have hstate : (Rehearsal.scene {} Rehearsal.started).2.runtime.state =
        .running 4000 Rehearsal.published := by decide +kernel
    obtain ⟨child, hheld, hreplaces⟩ := Course.restart_replaces
      (Rehearsal.run_scene {} Rehearsal.started) (.inl hstate) hcourse (by decide +kernel)
    obtain rfl : child = 0 := by
      have hzero : (Rehearsal.scene {} Rehearsal.started).2.runtime.held = some (0, 4000) := by decide +kernel
      rw [hzero] at hheld
      cases hheld
      rfl
    exact ⟨_, _, hcourse, hreplaces, by decide +kernel, by decide +kernel⟩
  · have hcourse := Rehearsal.course_sequel (Rehearsal.scene { ignoreKill := true } Rehearsal.started).2
      .restart Rehearsal.immortal
    have hstate : (Rehearsal.scene { ignoreKill := true } Rehearsal.started).2.runtime.state =
        .running 4000 Rehearsal.published := by decide +kernel
    obtain ⟨child, hheld, hreplaces⟩ := Course.restart_replaces
      (Rehearsal.run_scene { ignoreKill := true } Rehearsal.started) (.inl hstate) hcourse (by decide +kernel)
    obtain rfl : child = 0 := by
      have hzero : (Rehearsal.scene { ignoreKill := true } Rehearsal.started).2.runtime.held =
          some (0, 4000) := by decide +kernel
      rw [hzero] at hheld
      cases hheld
      rfl
    obtain ⟨waited, -⟩ := hreplaces.lingering (by decide +kernel)
    exact ⟨_, _, hcourse, waited, by decide +kernel, by decide +kernel⟩

end Restarting

end Steward
