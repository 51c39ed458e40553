import Steward.Rehearsal.Sitting
import Steward.Proofs.Dialogue
import Steward.Proofs.Run

/-!
# The dialogue of a sitting

All that happens to the terminal of a sitting are events, and its dialogue is told only what that terminal
offers. So a command that runs and that nobody interrupts is at every time in a dialogue as `Held` has it,
with the tasks in one order of many.
-/

set_option autoImplicit false

namespace Steward

open Terminal (Event)

/-! ## What tasks do to the terminal -/

namespace Terminal.Reaches

theorem print (t : Terminal) (text : String) : t.Reaches (t.print text) :=
  event t (.aside t.partialLine (t.stdout ++ textLines text) t.stderr) trivial

theorem printError (t : Terminal) (text : String) : t.Reaches (t.printError text) :=
  event t (.aside t.partialLine t.stdout (t.stderr ++ textLines text)) trivial

theorem notify (t : Terminal) (notice : Notice) (text : String) : t.Reaches (t.notify notice text) := by
  cases notice with
  | info => exact print t text
  | warning => exact printError t _
  | error => exact printError t _

end Terminal.Reaches

theorem Station.reaches_answer (q : Query) (st : Station) : st.terminal.Reaches (st.answer q).2.terminal := by
  cases q with
  | notify notice text => exact .notify st.terminal notice text
  | progressStarted title => exact .notify st.terminal .info title
  | prompt severity text choices => exact .event st.terminal (.ask severity text choices) trivial
  | spawn spec =>
    refine .of_eq ?_
    show (st.spawn spec).2.terminal = st.terminal
    unfold Station.spawn
    split <;> rfl
  | command program args =>
    refine .of_eq ?_
    show (st.command program args).2.terminal = st.terminal
    unfold Station.command
    split <;> rfl
  | write writer level text =>
    refine .of_eq ?_
    show (st.write level text).terminal = st.terminal
    unfold Station.write
    split <;> rfl
  | _ => exact .refl st.terminal

namespace World

variable {rs : Roles} {w w' : World Station} {task : Nat}

@[simp] theorem exitNow_outside {ε : Type} (w : World ε) (child : Nat) (e : Option Exit) :
    (w.exitNow child e).outside = w.outside := by
  cases e <;> rfl

theorem reaches_forgetPrompt (w : World Station) (t : Task) :
    w.outside.terminal.Reaches (w.forgetPrompt Station.environment t).outside.terminal := by
  unfold forgetPrompt
  split
  · rename_i ticket _
    exact .event w.outside.terminal (.drop ticket) trivial
  · exact .refl _

theorem Performed.reaches {r : Request} {a : r.Answer} (h : Performed Station.environment rs w task r a w') :
    w.outside.terminal.Reaches w'.outside.terminal := by
  have asked := fun q => Station.reaches_answer q w.outside
  cases h with
  | query q => exact asked q
  | spawned spec pid told => exact asked (.spawn spec)
  | unspawned spec e told => exact asked (.spawn spec)
  | stop a w₁ stopped =>
    cases stopped with
    | delivered pid d h =>
      rw [exitNow_outside]
      exact asked (.terminate h.child h.pid)
    | undelivered pid d h e =>
      rw [exitNow_outside]
      exact asked (.terminate h.child h.pid)
    | _ => exact .refl _
  | killed h handle =>
    rw [exitNow_outside]
    exact asked (.kill h.child h.pid)
  | _ => exact .refl _

theorem reaches_attempt (h : w.attempt Station.environment rs task = some w') :
    w.outside.terminal.Reaches w'.outside.terminal := by
  have step := attempt_cases h
  generalize (w.act? Station.environment rs task).toList = acts at step
  cases step with
  | cancel t found cancelled => exact reaches_forgetPrompt w t
  | finish t o found rest => exact .refl _
  | again t found rest => exact .refl _
  | ask t r k a w₁ found rest pending performed => exact performed.reaches

end World

namespace Schedule

variable (rs : Roles)

theorem reaches_runTask (task steps : Nat) (s : Schedule Station) :
    s.world.outside.terminal.Reaches
      (runTask Station.environment rs task steps s).world.outside.terminal := by
  induction steps generalizing s with
  | zero => exact .refl _
  | succ steps ih =>
    rw [runTask]
    split
    · exact .refl _
    · rename_i w hw
      exact (World.reaches_attempt hw).trans (ih ({ s with world := w }.wake Station.environment rs (some task)))

theorem reaches_drain (turns : Nat) (s : Schedule Station) :
    s.world.outside.terminal.Reaches (drain Station.environment rs turns s).world.outside.terminal := by
  induction turns generalizing s with
  | zero => exact .refl _
  | succ turns ih =>
    rw [drain]
    split
    · exact .refl _
    · rename_i task rest _
      exact (reaches_runTask rs task patience { s with ready := rest }).trans (ih _)

theorem reaches_settle (s : Schedule Station) :
    s.world.outside.terminal.Reaches (s.settle Station.environment rs).world.outside.terminal :=
  reaches_drain rs patience (s.wake Station.environment rs none)

end Schedule

/-! ## What the dialogue does to the terminal -/

namespace Console.Held

variable {es : List Event} {log : Log} {t t' : Terminal} {p : Phase}

theorem reaches (h : Held es log t p) (ht : t.Reaches t') : ∃ es', Held es' log t' p := by
  obtain ⟨es', hcomes⟩ := ht
  induction hcomes with
  | nothing => exact ⟨es, h⟩
  | next e _ possible ih =>
    obtain ⟨es₁, h₁⟩ := ih
    exact ⟨_, .event e h₁ possible⟩

end Console.Held

theorem Console.Offered.over_of_conclude {t t' : Terminal} {p : Phase} {i : Input} (h : Offered t p i t')
    {state : Lifecycle.State} {published : List Definition} {r : CommandLine.Report}
    (hr : .conclude r ∈ (react state published p i).1) : (react state published p i).2 = .over := by
  cases h with
  | @line text rest next =>
    have hr : .conclude r ∈ (answerLine state text).1 := hr
    have hreply := answerLine_reply state text
    generalize answerLine state text = reply at hr hreply
    cases hreply <;> simp at hr
  | closed empty ended => simp [react] at hr
  | changed => simp [react] at hr
  | activated o => simp [react] at hr
  | executed o => cases hr
  | deactivated o => rfl

namespace Rehearsal

open Console (Phase Input Action Held Offered)

namespace Sitting

/-- The sitting is in a dialogue. -/
def Converses (s : Sitting) : Prop := ∃ es log, Held es log s.station.terminal s.phase

theorem Converses.reaches {s s' : Sitting} (h : s.Converses)
    (ht : s.station.terminal.Reaches s'.station.terminal) (hp : s'.phase = s.phase) : s'.Converses := by
  obtain ⟨es, log, held⟩ := h
  obtain ⟨es', held'⟩ := held.reaches ht
  exact ⟨es', log, hp ▸ held'⟩

theorem act_phase (s : Sitting) {a : Action} (ha : ∀ r, a = .conclude r → s.phase = .over) :
    (s.act a).phase = s.phase := by
  cases a with
  | print text => rfl
  | call c => rfl
  | conclude r =>
    rw [ha r rfl]
    cases r <;> rfl

theorem reaches_act (s : Sitting) (a : Action) :
    s.station.terminal.Reaches (s.act a).station.terminal := by
  cases a with
  | print text => exact .print _ text
  | call c => exact .refl _
  | conclude r =>
    cases r with
    | success text => exact .print _ text
    | failure text => exact .printError _ text

theorem Converses.foldl_act {actions : List Action} {s : Sitting} (h : s.Converses)
    (ha : ∀ r, .conclude r ∈ actions → s.phase = .over) : (actions.foldl act s).Converses := by
  induction actions generalizing s with
  | nil => exact h
  | cons a actions ih =>
    have hphase : (s.act a).phase = s.phase := s.act_phase fun r hr => ha r (hr ▸ List.mem_cons_self)
    exact ih (h.reaches (s.reaches_act a) hphase) fun r hr =>
      hphase.trans (ha r (List.mem_cons_of_mem a hr))

theorem offered_nextInput? {s s' : Sitting} {i : Input} (hp : s.phase ≠ .checking)
    (h : s.nextInput? = some (i, s')) :
    Offered s.station.terminal s.phase i s'.station.terminal ∧ s'.phase = s.phase := by
  unfold nextInput? at h
  split at h
  · cases h
  · rename_i hlistening
    rw [hlistening]
    split at h
    · cases h
      exact ⟨.changed, hlistening⟩
    · split at h
      · rename_i line rest hc
        cases h
        exact ⟨.line hc, hlistening⟩
      · rename_i hc
        split at h
        · rename_i hclosed
          cases h
          exact ⟨.closed hc hclosed, hlistening⟩
        · cases h
  · rename_i hover hlistening
    obtain ⟨o, -, ho⟩ := Option.map_eq_some_iff.1 h
    cases ho
    refine ⟨?_, rfl⟩
    show Offered s.station.terminal s.phase (.finished o) s.station.terminal
    cases hphase : s.phase with
    | checking => exact absurd hphase hp
    | activating => exact .activated o
    | listening => exact absurd hphase hlistening
    | executing => exact .executed o
    | deactivating => exact .deactivated o
    | _ => exact absurd hphase hover

theorem Converses.tell {s s' : Sitting} {i : Input} (h : s.Converses) (hn : s.nextInput? = some (i, s')) :
    (s'.tell i).Converses := by
  obtain ⟨es, log, held⟩ := h
  obtain ⟨offered, hphase⟩ := offered_nextInput? held.ne_checking hn
  have told := held.told s'.world.runtime.state s'.world.runtime.definitions offered
  rw [← hphase] at offered told
  exact Converses.foldl_act ⟨es, _, told⟩ fun r hr => offered.over_of_conclude hr

/-! ## Rounds -/

theorem Converses.settleTasks {s : Sitting} (h : s.Converses) : s.settleTasks.Converses :=
  h.reaches (s.schedule.reaches_settle s.roles) rfl

theorem foldl_emit_same (events : List (Nat × ChildEvent)) (s : Sitting) :
    let s' := events.foldl (fun s (child, e) => s.changeWorld (·.changeChild child (·.emit e))) s
    s'.station.terminal = s.station.terminal ∧ s'.phase = s.phase := by
  induction events generalizing s with
  | nil => exact ⟨rfl, rfl⟩
  | cons event events ih => exact ih (s.changeWorld (·.changeChild event.1 (·.emit event.2)))

theorem runProcesses_same (s : Sitting) :
    s.runProcesses.2.station.terminal = s.station.terminal ∧ s.runProcesses.2.phase = s.phase :=
  foldl_emit_same s.station.listen.1 (s.changeStation fun _ => s.station.listen.2)

theorem Converses.quiesce {s : Sitting} (h : s.Converses) (fuel : Nat) : (s.quiesce fuel).Converses := by
  induction fuel generalizing s with
  | zero => exact h
  | succ fuel ih =>
    rw [Sitting.quiesce]
    split
    · exact h
    · have hsettled := h.settleTasks
      dsimp only
      split
      · rename_i hn
        exact ih (hsettled.tell hn)
      · have hran : s.settleTasks.runProcesses.2.Converses := by
          obtain ⟨hterminal, hphase⟩ := s.settleTasks.runProcesses_same
          exact hsettled.reaches (.of_eq hterminal) hphase
        split
        · rename_i s' heq
          rw [heq] at hran
          exact ih hran
        · rename_i s' heq
          rw [heq] at hran
          exact hran

theorem Converses.passTo {s : Sitting} (h : s.Converses) (moment : Nat) : (s.passTo moment).Converses :=
  h.reaches (.refl _) rfl

theorem Converses.waitUntil {s : Sitting} (h : s.Converses) (holds : Sitting → Bool) (limit fuel : Nat) :
    (Sitting.waitUntil holds limit fuel s).Converses := by
  induction fuel generalizing s with
  | zero => exact h
  | succ fuel ih =>
    have hquiet := h.quiesce patience
    rw [Sitting.waitUntil]
    split
    · exact hquiet
    · split
      · rename_i moment _
        split
        · exact ih (hquiet.passTo moment)
        · exact hquiet
      · exact hquiet

theorem Converses.await {s : Sitting} (h : s.Converses) (holds : Sitting → Bool) :
    (s.await holds).Converses :=
  h.waitUntil holds _ patience

/-! ## A whole sitting -/

theorem Converses.perform {s : Sitting} (h : s.Converses) {d : Deed} (hd : d ≠ .interrupt) :
    (s.perform d).Converses := by
  cases d with
  | send text => exact h.reaches (Terminal.reaches_type ..) rfl
  | touch path => exact h.reaches (.refl _) rfl
  | gone path => exact h.await _
  | interrupt => exact absurd rfl hd

theorem Converses.step {s : Sitting} (h : s.Converses) {st : Step} (hst : st.deed ≠ some .interrupt) :
    (s.step st).2.Converses := by
  obtain ⟨deed, wait⟩ := st
  cases deed with
  | none =>
    have hdone := h.quiesce patience
    cases wait with
    | none => exact hdone
    | some text => exact hdone.await _
  | some d =>
    have hdone := (h.perform fun heq => hst (congrArg some heq)).quiesce patience
    cases wait with
    | none => exact hdone
    | some text => exact hdone.await _

theorem Converses.steps {s : Sitting} (h : s.Converses) {todo : List Step}
    (htodo : ∀ st ∈ todo, st.deed ≠ some .interrupt) : (s.steps todo).2.Converses := by
  induction todo generalizing s with
  | nil => exact h
  | cons st todo ih =>
    exact ih (h.step (htodo st List.mem_cons_self)) fun st' hst' =>
      htodo st' (List.mem_cons_of_mem st hst')

theorem Converses.endInput {s : Sitting} (h : s.Converses) : (s.changeTerminal (·.endInput)).Converses :=
  h.reaches (Terminal.reaches_endInput _) rfl

theorem isOver_conclude (s : Sitting) (r : CommandLine.Report) : (s.conclude r).isOver = true := by
  cases r <;> rfl

theorem engage_converses {st : Station} {es : List Event} (h : Held es [] st.terminal .activating)
    (p : CommandLine.Prepared) (c : Call) :
    (engage st p false .activating c).isOver = true ∨ (engage st p false .activating c).Converses := by
  have hasking : { st.terminal with assumeYes := false } = st.terminal := by
    rw [← h.reflects.asking]
  unfold engage
  dsimp only
  split
  · exact .inl (isOver_conclude ..)
  · rename_i service log fs _
    refine .inr ⟨es, [], ?_⟩
    show Held es [] { st.terminal with assumeYes := false } .activating
    rw [hasking]
    exact h

theorem reaches_warnings (warnings : List String) (t : Terminal) :
    t.Reaches (warnings.foldl Terminal.printError t) := by
  induction warnings generalizing t with
  | nil => exact .refl t
  | cons warning warnings ih => exact (Terminal.Reaches.printError t warning).trans (ih _)

/-- A command that runs is in a dialogue from its beginning, unless it could not begin. -/
theorem begin_converses {st : Station} {args : List String} {i : CommandLine.Invocation}
    (hargs : CommandLine.parse args = .ok i) (hrun : i.command = .run false) (hfresh : st.terminal = {}) :
    (begin st args).isOver = true ∨ (begin st args).Converses := by
  obtain ⟨es, held⟩ := (Held.begin [] [] []).reaches
    (reaches_warnings (CommandLine.prepare st.machine.files st.environ i).warnings {})
  rw [begin, hargs]
  dsimp only
  rw [start, hrun]
  refine @engage_converses _ es ?_ _ _
  show Held es [] (List.foldl _ st.terminal _) .activating
  rw [hfresh]
  exact held

/-- Whatever is done at the station short of an interrupt, and also when the input has ended in the end, the
command is in a dialogue. -/
theorem converses {st : Station} {args : List String} {i : CommandLine.Invocation} {todo : List Step}
    (hargs : CommandLine.parse args = .ok i) (hrun : i.command = .run false) (hfresh : st.terminal = {})
    (hbegun : (begin st args).isOver = false) (htodo : ∀ st ∈ todo, st.deed ≠ some .interrupt) :
    ((begin st args).steps todo).2.Converses ∧
      ((((begin st args).steps todo).2.changeTerminal (·.endInput)).await fun _ => false).Converses := by
  have hbegin : (begin st args).Converses := by
    rcases begin_converses hargs hrun hfresh with hover | h
    · rw [hbegun] at hover
      cases hover
    · exact h
  have hdone := hbegin.steps htodo
  exact ⟨hdone, hdone.endInput.await _⟩

end Sitting

end Rehearsal

end Steward
