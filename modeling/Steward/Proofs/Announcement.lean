import Steward.Proofs.Repertoire
import Steward.Proofs.Shutdown

/-!
# Changes and their announcements

What is published changes at two moments only, when a child is registered and when its exit is recorded.
Both times the task that made the change announces it, once and afterwards; nobody announces anything else.
In between lie other steps, so announcements may overtake each other, and they carry no content: whoever
follows them has to look for himself.

`Follower` is such a one. Signals wait for him in a queue that holds sixteen of them; of more he is told
only that he missed some. `Followed.no_change_lost` says that this is enough: the last announcement comes
behind the last change, so his last look is up to date once everything has come to rest.
-/

set_option autoImplicit false

namespace Steward

/-! ## Marks -/

/-- What an act can mean for those who follow what is published. -/
inductive Mark where
  | change
  | signal
  deriving Repr, DecidableEq

def Request.mark? : (r : Request) → r.Answer → Option Mark
  | .register _ _, .ok _ => some .change
  | .recordExit _ _, .ok t =>
    if t.changed && t.effects.contains .definitionChanged then some .change else none
  | .announceChange, _ => some .signal
  | _, _ => none

def Act.mark? : Act → Option Mark
  | .call _ => none
  | .step _ r a => r.mark? a

/-- The marks that a task has left, in their order. -/
def marks (task : Nat) (acts : List Act) : List Mark := chronicle Request.mark? task acts

/-! ## The duty to announce -/

/-- How far a task has come with a change. -/
inductive Duty where
  /-- it will not make any: an update check -/
  | exempt
  /-- it has not made one -/
  | clear
  /-- it has made one and not announced it -/
  | owed
  | paid
  deriving Repr, DecidableEq

/-- The marks that it has left by then. -/
def Duty.marks : Duty → List Mark
  | .exempt => []
  | .clear => []
  | .owed => [.change]
  | .paid => [.change, .signal]

/-- Every change is announced by whoever made it, and only then. -/
inductive Herald : Protocol Duty where
  | mute {x : Duty} {r : Request} {a : r.Answer} (h : r.mark? a = none) : Herald x r a x
  | change {r : Request} {a : r.Answer} (h : r.mark? a = some .change) : Herald .clear r a .owed
  | signal : Herald .owed .announceChange () .paid

def Role.duty : Role → Duty
  | .check => .exempt
  | _ => .clear

/-- Requests of these kinds neither change nor announce anything. -/
def Request.Kind.isMute : Request.Kind → Bool
  | .launch => false
  | .announce => false
  | .watch => false
  | _ => true

section Heralding

open Program

variable {α : Type}

theorem Request.mark?_of_mute {r : Request} (h : r.kind.isMute = true) (a : r.Answer) :
    r.mark? a = none := by
  cases r with
  | register | recordExit | announceChange => cases h
  | _ => rfl

theorem Program.Uses.heralds {ks : List Request.Kind} {p : Program α} (hp : p.Uses ks)
    (hk : ks.all Request.Kind.isMute = true) {x : Duty} {Q : Duty → α → Prop} (hQ : ∀ a, Q x a) :
    p.Obeys Herald Q x :=
  hp.obeys_all hk (fun _ a hr => .mute (Request.mark?_of_mute hr a)) hQ

theorem launchPlan_heralds (s : Service) (p : Supervisor.Plan) :
    (Supervisor.launchPlan s p).Obeys Herald (fun y _ => y ≠ .owed) .clear := by
  refine obeys_bind.2 ((uses_write _ _ _ rfl).heralds rfl fun _ => Obeys.ask fun spawned => ?_)
  refine ⟨.clear, .mute rfl, ?_⟩
  cases spawned with
  | error e =>
    refine obeys_bind.2 ((uses_write _ _ _ rfl).heralds rfl fun _ => ?_)
    refine obeys_bind.2 ((uses_notify _ _).heralds rfl fun _ _ => ?_)
    exact ⟨.clear, .mute rfl, nofun⟩
  | ok identity =>
    obtain ⟨child, pid⟩ := identity
    refine Obeys.ask fun registered => ?_
    cases registered with
    | error refusal => exact ⟨.clear, .mute rfl, fun _ => ⟨.clear, .mute rfl, nofun⟩⟩
    | ok u =>
      -- the observer is started before the change is announced, and may announce the next one first
      refine ⟨.owed, .change rfl, fun _ => ⟨.owed, .mute rfl, ?_⟩⟩
      exact obeys_bind.2 ((uses_write _ _ _ rfl).heralds rfl fun _ _ => ⟨.paid, .signal, nofun⟩)

theorem launchAt_heralds (s : Service) (path : String) :
    (Supervisor.launchAt s path).Obeys Herald (fun y _ => y ≠ .owed) .clear := by
  have failed : ∀ text outcome reason,
      ((notify .error text).bind fun _ => Supervisor.giveUp outcome reason).Obeys Herald
        (fun y _ => y ≠ .owed) .clear := fun _ _ _ =>
    obeys_bind.2 ((uses_notify _ _).heralds rfl fun _ _ => ⟨.clear, .mute rfl, nofun⟩)
  refine Obeys.ask fun options => ⟨.clear, .mute rfl, ?_⟩
  cases options with
  | error e => exact failed _ _ _
  | ok options =>
    dsimp only
    split
    · refine Obeys.ask fun port => ⟨.clear, .mute rfl, ?_⟩
      cases port with
      | error e => exact failed _ _ _
      | ok port => exact launchPlan_heralds s _
    · exact launchPlan_heralds s _

theorem start_heralds (s : Service) :
    (Supervisor.start s).Obeys Herald (fun y _ => y ≠ .owed) .clear := by
  refine Obeys.ask fun gate => ⟨.clear, .mute rfl, ?_⟩
  cases gate with
  | «open» =>
    refine obeys_bind.2 ((uses_resolveProgram s).heralds rfl fun resolved => ?_)
    cases resolved with
    | error outcome => exact fun _ => ⟨.clear, .mute rfl, nofun⟩
    | ok path => exact launchAt_heralds s path
  | running d => exact obeys_bind.2 ((uses_notify _ _).heralds rfl fun _ => nofun)
  | _ => exact nofun

theorem outcome_heralds (s : Service) (c : Call) :
    (c.outcome s).Obeys Herald (fun y _ => y ≠ .owed) .clear := by
  cases hc : c.isUpdate with
  | false =>
    exact Call.obeys_of_start (P := Herald) (Q := (· ≠ Duty.owed)) (by rfl)
      (fun _ _ _ a hr => .mute (Request.mark?_of_mute hr a)) (by decide) (start_heralds s) hc
  | true =>
    cases c with
    | checkForUpdates => exact obeys_bind.2 ((uses_check s).heralds rfl fun _ => nofun)
    | runUpdate => exact obeys_bind.2 ((uses_runUpdate s).heralds rfl fun _ => nofun)
    | _ => cases hc

theorem conclude_heralds (s : Service) (child pid : Nat) (exit : Exit) :
    (Supervisor.conclude s child pid exit).Obeys Herald (fun y _ => y ≠ .owed) .clear := by
  have handled : (Supervisor.handleExit s pid exit).Obeys Herald (fun y _ => y ≠ .owed) .clear := by
    refine Obeys.ask fun recorded => ?_
    cases recorded with
    | error e => exact ⟨.clear, .mute rfl, nofun⟩
    | ok t =>
      cases hc : t.changed with
      | false =>
        refine ⟨.clear, .mute (by simp [Request.mark?, hc]), ?_⟩
        simp only [hc]
        exact nofun
      | true =>
        -- whether the user is told of it makes no difference to the announcement
        have told : ∀ {x : Duty} {p : Program Unit}, p.Obeys Herald (fun y _ => y ≠ .owed) x →
            (if t.old.isRunning = true then
              (notify .error (s.tool ++ " exited unexpectedly (" ++ exit.display ++
                "). Check the output log.")).bind fun _ => p
              else p).Obeys Herald (fun y _ => y ≠ .owed) x := by
          intro x p hp
          split
          · exact obeys_bind.2 ((uses_notify _ _).heralds rfl fun _ => hp)
          · exact hp
        cases he : t.effects.contains .definitionChanged with
        | false =>
          refine ⟨.clear, .mute (by simp only [Request.mark?, hc, he]; rfl), ?_⟩
          simp only [hc, he]
          exact told (nofun : (done ()).Obeys Herald (fun y _ => y ≠ .owed) .clear)
        | true =>
          refine ⟨.owed, .change (by simp only [Request.mark?, hc, he]; rfl), ?_⟩
          simp only [hc, he]
          exact told fun _ => ⟨.paid, .signal, nofun⟩
  refine obeys_bind.2 ((uses_write _ _ _ rfl).heralds rfl fun _ => ?_)
  exact obeys_bind.2 (handled.mono fun y _ hy _ => ⟨y, .mute rfl, hy⟩)

/-- The observer announces what it has recorded, and in every other round nothing. -/
theorem observeOnce_heralds (s : Service) (child pid : Nat) :
    (Supervisor.observeOnce s child pid).Obeys Herald
      (fun y last => if last then y ≠ .owed else y = .clear) .clear := by
  have concluded : ∀ exit, ((Supervisor.conclude s child pid exit).bind fun _ => done true).Obeys
      Herald (fun y last => if last then y ≠ .owed else y = .clear) .clear := fun exit =>
    obeys_bind.2 ((conclude_heralds s child pid exit).mono fun _ _ hy => hy)
  refine Obeys.ask fun e => ⟨.clear, .mute rfl, ?_⟩
  cases e with
  | none => exact concluded _
  | some e =>
    cases e with
    | stdout line => exact obeys_bind.2 ((uses_relay _ _ _).heralds rfl fun _ => rfl)
    | stderr line => exact obeys_bind.2 ((uses_relay _ _ _).heralds rfl fun _ => rfl)
    | error reason =>
      refine obeys_bind.2 ((uses_write _ _ _ rfl).heralds rfl fun _ => ?_)
      exact obeys_bind.2 ((uses_notify _ _).heralds rfl fun _ => rfl)
    | exited exit => exact concluded _

/-- **Every role announces what it changes.** -/
theorem Role.heralds (s : Service) (ρ : Role) :
    (ρ.program s).Obeys Herald (Closes (· ≠ .owed) ρ.duty) ρ.duty := by
  cases ρ with
  | call c => exact obeys_bind.2 ((outcome_heralds s c).mono fun _ _ hy => hy)
  | observer child pid =>
    refine obeys_bind.2 ((observeOnce_heralds s child pid).mono fun y last hy => ?_)
    cases last <;> exact hy
  | check => exact obeys_bind.2 ((uses_check s).heralds rfl fun _ => nofun)

end Heralding

/-! ## In runs -/

section Runs

variable {ε : Type} {env : Environment ε} {s : Service} {acts : List Act} {w w' w₁ : World ε}
  {task : Nat}

/-- What the marks of a task say about its duty. -/
theorem Run.heralded (h : Run env s acts w) :
    ∃ duty, w.Follows Herald (· ≠ .owed) duty ∧ ∀ (i : Nat) (ρ : Role), (roles acts)[i]? = some ρ →
      marks i acts = (duty i).marks ∧ (ρ = .check → duty i = .exempt) := by
  refine Run.chronicled (G := fun ρ x l => l = x.marks ∧ (ρ = .check → x = .exempt))
    (Role.heralds s) (fun ρ => ?_) (fun {ρ x y l r a} hG hP => ?_) h
  · refine ⟨?_, fun hρ => by rw [hρ]; rfl⟩
    cases ρ <;> rfl
  · rw [hG.1]
    cases hP with
    | mute hm => exact ⟨by simp [hm], hG.2⟩
    | change hm => exact ⟨by simp [hm, Duty.marks], fun hρ => by cases hG.2 hρ⟩
    | signal => exact ⟨rfl, fun hρ => by cases hG.2 hρ⟩

/-- **One announcement for each change.** A task makes at most one change, announces it at most once and
afterwards, and announces nothing else; the announcement can be missing only while the task goes on. -/
theorem Run.marks_cases (h : Run env s acts w) (i : Nat) :
    marks i acts = [] ∨ marks i acts = [.change] ∧ w.result? i = none ∨
    marks i acts = [.change, .signal] := by
  by_cases hlt : i < (roles acts).length
  · obtain ⟨duty, hf, hm⟩ := h.heralded
    have hi := List.getElem?_eq_getElem hlt
    obtain ⟨hmarks, hcheck⟩ := hm i _ hi
    cases hd : duty i with
    | exempt => exact .inl (by rw [hmarks, hd]; rfl)
    | clear => exact .inl (by rw [hmarks, hd]; rfl)
    | paid => exact .inr (.inr (by rw [hmarks, hd]; rfl))
    | owed =>
      refine .inr (.inl ⟨by rw [hmarks, hd]; rfl, ?_⟩)
      have hne : (roles acts)[i] ≠ .check := fun hρ => by simp [hd] at hcheck; exact hcheck hρ
      cases hres : w.result? i with
      | none => rfl
      | some o => exact absurd hd (h.done_of_returned hf hi hne (by rw [hres]; rfl))
  · refine .inl (h.chronicle_unborn ?_)
    rw [← h.roles_length]
    exact Nat.le_of_not_lt hlt

/-! ## When what is published changes -/

/-- What a move does to what is published and to the signals, by the mark that it leaves. -/
inductive World.Published (w w' : World ε) : List Mark → Prop where
  | same (definitions : w'.runtime.definitions = w.runtime.definitions)
      (changes : w'.changes = w.changes) : Published w w' []
  | appears (d : Definition) (before : w.runtime.definitions = [])
      (after : w'.runtime.definitions = [d]) (changes : w'.changes = w.changes) :
      Published w w' [.change]
  | vanishes (d : Definition) (before : w.runtime.definitions = [d])
      (after : w'.runtime.definitions = []) (changes : w'.changes = w.changes) :
      Published w w' [.change]
  | signalled (definitions : w'.runtime.definitions = w.runtime.definitions)
      (changes : w'.changes = w.changes + 1) : Published w w' [.signal]

theorem World.Published.congr {ms : List Mark} (h : w.Published w₁ ms)
    (hr : w'.runtime = w₁.runtime) (hc : w'.changes = w₁.changes) : w.Published w' ms := by
  cases h with
  | same definitions changes => exact .same (hr ▸ definitions) (hc.trans changes)
  | appears d before after changes => exact .appears d before (hr ▸ after) (hc.trans changes)
  | vanishes d before after changes => exact .vanishes d before (hr ▸ after) (hc.trans changes)
  | signalled definitions changes => exact .signalled (hr ▸ definitions) (hc.trans changes)

theorem Supervisor.Runtime.beginStart_definitions (r : Supervisor.Runtime) :
    r.beginStart.2.definitions = r.definitions := by
  obtain ⟨state, handle⟩ := r
  cases state <;> rfl

theorem Supervisor.Runtime.abortStart_definitions (r : Supervisor.Runtime) (reason : String) :
    (r.abortStart reason).definitions = r.definitions := by
  obtain ⟨state, handle⟩ := r
  cases state <;> rfl

theorem Supervisor.Runtime.register_definitions {r r' : Supervisor.Runtime}
    {handle : Supervisor.Handle} {d : Definition} (h : r.register handle d = .ok r') :
    r.definitions = [] ∧ r'.definitions = [d] := by
  obtain ⟨state, old⟩ := r
  cases state with
  | starting =>
    rw [Supervisor.Runtime.register_of_starting rfl] at h
    cases h
    exact ⟨rfl, rfl⟩
  | _ => cases h

/-- A stop begins or is taken back, and the definition stays. -/
theorem World.Stopped.published {a : Request.StopResult} (h : World.Stopped env w task a w₁) :
    w.Published w₁ [] := by
  cases h with
  | delivered pid d h state handle =>
    refine .same ?_ (World.exitNow_changes _ _ _)
    rw [World.exitNow_runtime]
    simp [World.ask, Supervisor.Runtime.definitions, state, Lifecycle.State.definition?]
  | undelivered pid d h e state handle =>
    refine .same ?_ (World.exitNow_changes _ _ _)
    rw [World.exitNow_runtime]
    rfl
  | _ => exact .same rfl rfl

theorem Run.published_act (hr : Run env s acts w) {r : Request} {k : r.Answer → Program Flow}
    {a : r.Answer} (hp : w.pending task = some ⟨r, k⟩)
    (h : World.Performed env s.roles w task r a w₁) : w.Published w₁ (r.mark? a).toList := by
  cases h with
  | beginStart => exact .same w.runtime.beginStart_definitions rfl
  | abortStart reason => exact .same (w.runtime.abortStart_definitions reason) rfl
  | registered handle d runtime taken =>
    obtain ⟨before, after⟩ := Supervisor.Runtime.register_definitions taken
    exact .appears d before after rfl
  | stop a w₁ hs => exact hs.published
  | recorded pid exit t runtime taken =>
    -- the exit is that of the current process, so there is something to withdraw
    obtain ⟨phase, hf, hg⟩ := hr.guarded
    obtain ⟨y, hy⟩ := hf.pending hp (.ok t)
    obtain ⟨child, hx⟩ := hy.of_recordExit
    obtain ⟨-, hfits⟩ := hg.fits hx rfl
    have hpid := hfits.1.1
    rw [Supervisor.Runtime.recordExit_of_pid hpid] at taken
    cases taken
    cases hs : w.runtime.state with
    | running p d => exact .vanishes d (by simp [Supervisor.Runtime.definitions, hs,
        Lifecycle.State.definition?]) rfl rfl
    | stopping p d => exact .vanishes d (by simp [Supervisor.Runtime.definitions, hs,
        Lifecycle.State.definition?]) rfl rfl
    | _ => rw [hs] at hpid; cases hpid
  | killed h =>
    refine .same ?_ (World.exitNow_changes _ _ _)
    rw [World.exitNow_runtime]
    rfl
  | takeStreams =>
    exact .same (congrArg (·.definition?.toList) w.runtime.takeStreams_state) rfl
  | announceChange => exact .signalled rfl rfl
  | _ => exact .same rfl rfl

/-- **What a move changes shows in its mark.** -/
theorem Run.published_move (hr : Run env s acts w) {m : Move ε} {new : List Act}
    (hm : w.move env s m = some (new, w')) : w.Published w' (new.filterMap Act.mark?) := by
  cases World.move_cases hm with
  | call c => exact .same rfl rfl
  | @act task r k a w₁ pending performed =>
    have heq : [Act.step task r a].filterMap Act.mark? = (r.mark? a).toList := by
      cases hmark : r.mark? a <;> simp [Act.mark?, hmark]
    rw [heq]
    exact (hr.published_act pending performed).congr rfl rfl
  | hush hh => exact .same (by rw [hh.runtime]) hh.changes

end Runs

/-! ## Following the announcements -/

/-- Someone who looks at what is published each time a change is announced. -/
structure Follower where
  /-- the number of the signal that he gets next -/
  next : Nat := 0
  /-- he was told of a change and has not looked since -/
  due : Bool := false
  /-- what he saw when he looked last -/
  seen : List Definition := []
  deriving Repr, DecidableEq

/-- What he is told. -/
inductive Notification where
  | changed
  /-- so many signals are lost -/
  | lagged (missed : Nat)
  deriving Repr, DecidableEq

namespace Follower

/-- How many signals are kept. -/
def depth : Nat := 16

/-- How many signals wait for him, if so many were ever sent. -/
def queued (f : Follower) (sent : Nat) : Nat := min (sent - f.next) depth

/-- He is told of the oldest signal that waits for him; or, if older ones were not kept, of these. -/
def receive (f : Follower) (sent : Nat) : Option (Notification × Follower) :=
  if sent ≤ f.next then none
  else if sent - f.next ≤ depth then some (.changed, { f with next := f.next + 1, due := true })
  else some (.lagged (sent - depth - f.next), { f with next := sent - depth, due := true })

def look (f : Follower) (published : List Definition) : Follower :=
  { f with seen := published, due := false }

/-- He never gets ahead of what was sent. -/
theorem receive_next_le {f f' : Follower} {sent : Nat} {n : Notification}
    (h : f.receive sent = some (n, f')) : f'.due = true ∧ f'.next ≤ sent := by
  unfold receive at h
  split at h
  · cases h
  · split at h
    · cases h
      exact ⟨rfl, by simp only; omega⟩
    · cases h
      exact ⟨rfl, Nat.sub_le _ _⟩

end Follower

/-- A run with someone who follows it from the beginning. Between what he is told and his look anything
can happen. -/
inductive Followed {ε : Type} (env : Environment ε) (s : Service) :
    List Act → World ε → Follower → Prop where
  | init (outside : ε) : Followed env s [] { outside := outside } {}
  | move {acts new : List Act} {w w' : World ε} {f : Follower} (m : Move ε) :
      Followed env s acts w f → w.move env s m = some (new, w') → Followed env s (new ++ acts) w' f
  | receive {acts : List Act} {w : World ε} {f f' : Follower} (n : Notification) :
      Followed env s acts w f → f.due = false → f.receive w.changes = some (n, f') →
      Followed env s acts w f'
  | look {acts : List Act} {w : World ε} {f : Follower} :
      Followed env s acts w f → f.due = true → Followed env s acts w (f.look w.runtime.definitions)

section Following

variable {ε : Type} {env : Environment ε} {s : Service} {acts : List Act} {w w' : World ε}
  {f f' : Follower}

theorem Followed.run (h : Followed env s acts w f) : Run env s acts w := by
  induction h with
  | init outside => exact .init outside
  | move m _ hm ih => exact .move m ih hm
  | receive _ _ _ _ ih => exact ih
  | look _ _ ih => exact ih

theorem Followed.moves (h : Followed env s acts w f) :
    ∀ {ms : List (Move ε)} {acts' : List Act} {w' : World ε},
      w.moves env s acts ms = some (acts', w') → Followed env s acts' w' f :=
  World.moves_induct (J := (Followed env s · · f)) .move h

/-- Whoever is not up to date will hear of it: someone still has to announce a change, a signal is on its
way, or he has just been told. -/
def Follower.Awaits (f : Follower) (acts : List Act) (w : World ε) : Prop :=
  (∃ i, marks i acts = [.change]) ∨ f.due = true ∨ f.next < w.changes

/-- The task that acted has left the mark. -/
theorem marks_of_mark {x : Act} {m : Mark} (h : x.mark? = some m) (acts : List Act) :
    ∃ i, marks i (x :: acts) = marks i acts ++ [m] := by
  cases x with
  | call c => cases h
  | step i r a =>
    have hm : r.mark? a = some m := h
    exact ⟨i, by rw [marks, chronicle_own, hm]; rfl⟩

/-- An act without a mark leaves everyone's alone. -/
theorem marks_of_none {x : Act} (h : x.mark? = none) (i : Nat) (acts : List Act) :
    marks i (x :: acts) = marks i acts := by
  have hx : x.tells Request.mark? i = none := by
    cases x with
    | call c => rfl
    | step task r a =>
      have hm : r.mark? a = none := h
      simp [Act.tells, hm]
  rw [marks, chronicle_cons, hx, Option.toList_none, List.append_nil]
  rfl

/-- A change is owed by whoever has just made it. -/
theorem Run.owed_of_change {x : Act} (hr : Run env s (x :: acts) w) (hx : x.mark? = some .change) :
    ∃ i, marks i (x :: acts) = [.change] := by
  obtain ⟨i, hi⟩ := marks_of_mark hx acts
  refine ⟨i, ?_⟩
  rcases hr.marks_cases i with hm | ⟨hm, -⟩ | hm
  · rw [hm] at hi
    simp at hi
  · exact hm
  · -- the last mark would be the signal
    rw [hm] at hi
    have hlast := congrArg List.getLast? hi
    simp at hlast

/-- One move of the run: who was up to date is, or will hear of it. -/
theorem Run.awaits_move (hr : Run env s acts w) {m : Move ε} {new : List Act}
    (hm : w.move env s m = some (new, w')) (hle : f.next ≤ w.changes)
    (h : f.seen = w.runtime.definitions ∨ f.Awaits acts w) :
    f.next ≤ w'.changes ∧ (f.seen = w'.runtime.definitions ∨ f.Awaits (new ++ acts) w') := by
  have hr' : Run env s (new ++ acts) w' := .move m hr hm
  have hpub := hr.published_move hm
  have hone : new = [] ∨ ∃ x, new = [x] := by
    cases World.move_cases hm with
    | hush => exact .inl rfl
    | _ => exact .inr ⟨_, rfl⟩
  -- without a mark nothing has changed, and whoever owed something still does
  have quiet : new.filterMap Act.mark? = [] → w'.runtime.definitions = w.runtime.definitions →
      w'.changes = w.changes → f.seen = w'.runtime.definitions ∨ f.Awaits (new ++ acts) w' := by
    intro hnone hdef hch
    rcases h with h | ⟨i, hi⟩ | hdue | hlt
    · exact .inl (h.trans hdef.symm)
    · refine .inr (.inl ⟨i, ?_⟩)
      rcases hone with rfl | ⟨x, rfl⟩
      · exact hi
      · have hx : x.mark? = none := by simpa using hnone
        rw [List.singleton_append, marks_of_none hx, hi]
    · exact .inr (.inr (.inl hdue))
    · exact .inr (.inr (.inr (hch ▸ hlt)))
  have changed : new.filterMap Act.mark? = [.change] → f.Awaits (new ++ acts) w' := by
    intro hmark
    rcases hone with rfl | ⟨x, rfl⟩
    · cases hmark
    · have hx : x.mark? = some .change := by
        cases hx : x.mark? <;> simp_all
      exact .inl (hr'.owed_of_change hx)
  generalize hms : new.filterMap Act.mark? = ms at hpub
  cases hpub with
  | same definitions changes => exact ⟨changes ▸ hle, quiet hms definitions changes⟩
  | appears d before after changes => exact ⟨changes ▸ hle, .inr (changed hms)⟩
  | vanishes d before after changes => exact ⟨changes ▸ hle, .inr (changed hms)⟩
  | signalled definitions changes =>
    exact ⟨by omega, .inr (.inr (.inr (by omega)))⟩

/-- **Nobody who follows is left behind.** -/
theorem Followed.awaits (h : Followed env s acts w f) :
    f.next ≤ w.changes ∧ (f.seen = w.runtime.definitions ∨ f.Awaits acts w) := by
  induction h with
  | init outside => exact ⟨Nat.le_refl _, .inl rfl⟩
  | move m hf hm ih => exact hf.run.awaits_move hm ih.1 ih.2
  | receive n _ _ hrec ih =>
    obtain ⟨hdue, hle⟩ := Follower.receive_next_le hrec
    exact ⟨hle, .inr (.inr (.inl hdue))⟩
  | look _ _ ih => exact ⟨ih.1, .inl rfl⟩

/-- Nothing is under way: every call has returned, and so has every observer that has withdrawn what was
published. -/
def World.AtRest (acts : List Act) (w : World ε) : Prop :=
  w.AllReturned acts ∧ ∀ (i child pid : Nat), (roles acts)[i]? = some (.observer child pid) →
    marks i acts = [] ∨ (w.result? i).isSome = true

/-- At rest nobody owes an announcement. -/
theorem Run.none_owed (h : Run env s acts w) (hrest : w.AtRest acts) (i : Nat) :
    marks i acts ≠ [.change] := by
  intro hi
  have hres : w.result? i = none := by
    rcases h.marks_cases i with hm | ⟨-, hres⟩ | hm
    · rw [hi] at hm; cases hm
    · exact hres
    · rw [hi] at hm; cases hm
  have htold : marks i acts ≠ [] := by
    rw [hi]
    exact List.cons_ne_nil _ _
  obtain ⟨ρ, hρ⟩ := h.exists_role_of_told htold
  cases ρ with
  | call c =>
    have hret := hrest.1 i c hρ
    simp [hres] at hret
  | observer child pid =>
    rcases hrest.2 i child pid hρ with hn | hret
    · rw [hi] at hn; cases hn
    · simp [hres] at hret
  | check =>
    obtain ⟨duty, -, hm⟩ := h.heralded
    obtain ⟨hmarks, hex⟩ := hm i _ hρ
    rw [hex rfl, hi] at hmarks
    cases hmarks

/-- **No change is lost.** In every run: what is published appears when a child is registered, vanishes
when its exit is recorded, and changes at no other moment; whoever made the change announces it once,
afterwards, and no signal is sent for anything else. So whoever follows the announcements from the
beginning, even with signals dropped on the way, has seen what is published now, as soon as nothing is
under way, no signal waits for him and he has looked after the last. -/
theorem Followed.no_change_lost (h : Followed env s acts w f) :
    (∀ m new w', w.move env s m = some (new, w') → w.Published w' (new.filterMap Act.mark?)) ∧
    (∀ i, marks i acts = [] ∨ marks i acts = [.change] ∧ w.result? i = none ∨
      marks i acts = [.change, .signal]) ∧
    (w.AtRest acts → f.queued w.changes = 0 → f.due = false → f.seen = w.runtime.definitions) := by
  refine ⟨fun m new w' hm => h.run.published_move hm, h.run.marks_cases, fun hrest hq hdue => ?_⟩
  obtain ⟨hle, hseen | ⟨i, hi⟩ | hd | hlt⟩ := h.awaits
  · exact hseen
  · exact absurd hi (h.run.none_owed hrest i)
  · rw [hdue] at hd
    cases hd
  · -- a signal that was sent and not fetched waits, or others of later date do
    unfold Follower.queued Follower.depth at hq
    omega

theorem followed_scene (script : Rehearsal.Script) (ms : List (Move Rehearsal.Script)) :
    Followed Rehearsal.Script.environment Rehearsal.sample (Rehearsal.scene script ms).1
      (Rehearsal.scene script ms).2 {} := by
  unfold Rehearsal.scene
  cases h : World.moves Rehearsal.Script.environment Rehearsal.sample [] { outside := script } ms with
  | none => exact .init script
  | some p => exact (Followed.init script).moves h

/-- The server is started, the follower is told and looks: he sees the definition of the running server. -/
theorem follower_sees_start : ∃ acts w f,
    Followed Rehearsal.Script.environment Rehearsal.sample acts w f ∧ w.changes = 1 ∧
    f.seen = w.runtime.definitions ∧ w.runtime.definitions ≠ [] := by
  have hf := ((followed_scene {} Rehearsal.started).receive .changed rfl rfl).look rfl
  have hroles : roles (Rehearsal.scene {} Rehearsal.started).1 =
      [.call .start, .observer 0 4000] := by decide +kernel
  refine ⟨_, _, _, hf, by decide +kernel, hf.no_change_lost.2.2 ⟨fun i c hi => ?_,
    fun i child pid hi => ?_⟩ (by decide +kernel) rfl, by decide +kernel⟩
  · rw [hroles] at hi
    match i with
    | 0 => decide +kernel
    | 1 => cases hi
    | _ + 2 => cases hi
  · rw [hroles] at hi
    match i with
    | 0 => cases hi
    | 1 => exact .inl (by decide +kernel)
    | _ + 2 => cases hi

end Following

end Steward
