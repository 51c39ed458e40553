import Steward.Station
import Steward.Proofs.Listening
import Steward.Proofs.Relay
import Mathlib.Data.List.Basic

/-!
# The output of a child

At a station the children are processes, and the tasks that listen to them speak into the channels that
their observers take events from. `Attended` runs are the runs at a station in which nobody else does: a
reader, the task that waits or any task of the supervisor may have its turn at any moment, and a reader may
get any bytes.

`Heard` is what holds in all of them: the events that were taken from a child and those that were not are
together what the listening tasks have told.
-/

set_option autoImplicit false

namespace Steward

open Text.Utf8 (Bytes encode)

/-! ## Attended runs -/

/-- One of the tasks that listen to a child has its turn; `none` if there is nothing for it to do. -/
def World.heed (w : World Station) (child : Nat) (t : Launch.Heed) : Option (World Station) :=
  match w.outside.launches[child]? with
  | none => none
  | some l =>
    (l.heed w.outside.machine t).map fun (events, l) =>
      { w with
        outside := { w.outside with launches := w.outside.launches.set child l }
        children := w.children.modify child fun c => events.foldl Child.emit c }

/-- A move in which nobody speaks into the channel of a child. -/
def Move.IsMute (w : World Station) : Move Station → Prop
  | .turn outside => outside.launches = w.outside.launches
  | .tell _ _ => False
  | .vanish _ => False
  | _ => True

inductive Attended (s : Service) : List (Nat × Launch.Heed) → List Act → World Station → Prop where
  | init (outside : Station) (h : outside.launches = []) : Attended s [] [] { outside := outside }
  | move {heeds : List (Nat × Launch.Heed)} {acts new : List Act} {w w' : World Station}
      (m : Move Station) (run : Attended s heeds acts w) (mute : m.IsMute w)
      (moved : w.move Station.environment s m = some (new, w')) : Attended s heeds (new ++ acts) w'
  | heed {heeds : List (Nat × Launch.Heed)} {acts : List Act} {w w' : World Station} (child : Nat)
      (t : Launch.Heed) (run : Attended s heeds acts w) (heeded : w.heed child t = some w') :
      Attended s (heeds ++ [(child, t)]) acts w'

/-- The bytes that were read from a stream of a child. -/
def bytesRead (heeds : List (Nat × Launch.Heed)) (child : Nat) (o : Outlet) : Bytes :=
  heeds.flatMap fun (c, t) => if c = child then t.bytes o else []

theorem bytesRead_own (heeds : List (Nat × Launch.Heed)) (child : Nat) (t : Launch.Heed) (o : Outlet) :
    bytesRead (heeds ++ [(child, t)]) child o = bytesRead heeds child o ++ t.bytes o := by
  simp [bytesRead]

theorem bytesRead_other {heeds : List (Nat × Launch.Heed)} {child c : Nat} (h : c ≠ child)
    (t : Launch.Heed) : bytesRead (heeds ++ [(c, t)]) child = bytesRead heeds child := by
  funext o
  simp [bytesRead, h]

section Runs

variable {s : Service} {heeds : List (Nat × Launch.Heed)} {acts : List Act} {w w' : World Station}

theorem Run.tells {ε : Type} {env : Environment ε} {w : World ε} (h : Run env s acts w) (child : Nat)
    (events : List ChildEvent) :
    Run env s acts (w.changeChild child fun c => events.foldl Child.emit c) := by
  induction events generalizing w with
  | nil =>
    have hsame : w.changeChild child (fun c => c) = w := by
      rw [World.changeChild, show (fun c : Child => c) = id from rfl, List.modify_id]
    simp only [List.foldl_nil, hsame]
    exact h
  | cons e events ih =>
    have htell : Run env s acts (w.changeChild child (·.emit e)) := .move (.tell child e) h rfl
    have hrest := ih htell
    simp only [World.changeChild, List.modify_modify_eq] at hrest
    exact hrest

theorem Attended.run (h : Attended s heeds acts w) : Run Station.environment s acts w := by
  induction h with
  | init outside _ => exact .init outside
  | move m _ _ moved ih => exact .move m ih moved
  | @heed _ acts w w' child t _ heeded ih =>
    unfold World.heed at heeded
    split at heeded
    · cases heeded
    · obtain ⟨⟨events, l'⟩, -, rfl⟩ := Option.map_eq_some_iff.1 heeded
      have hturn : Run Station.environment s acts
          { w with outside := { w.outside with launches := w.outside.launches.set child l' } } :=
        .move (.turn _) ih rfl
      exact hturn.tells child events

end Runs

/-! ## What an act means for the channels -/

theorem Station.answer_launches {q : Query} (h : ∀ spec, q ≠ .spawn spec) (s : Station) :
    (Station.answer q s).2.launches = s.launches := by
  cases q with
  | spawn spec => exact absurd rfl (h spec)
  | command program args =>
    simp only [Station.answer, Station.command]
    split <;> rfl
  | write writer level text =>
    simp only [Station.answer, Station.write]
    split <;> rfl
  | _ => rfl

/-- The servers are the same, and nothing was told or taken. -/
structure World.Unheard (w w' : World Station) : Prop where
  launches : w'.outside.launches = w.outside.launches
  length : w'.children.length = w.children.length
  child : ∀ (i : Nat) (c' : Child), w'.children[i]? = some c' →
    ∃ c, w.children[i]? = some c ∧ c'.speaking = c.speaking ∧ c'.events = c.events

theorem World.Unheard.ofEq {w w' : World Station} (hl : w'.outside.launches = w.outside.launches)
    (hc : w'.children = w.children) : w.Unheard w' where
  launches := hl
  length := by rw [hc]
  child i c' hi := ⟨c', hc ▸ hi, rfl, rfl⟩

theorem World.Unheard.ofChild {w w' : World Station} (hl : w'.outside.launches = w.outside.launches)
    {child : Nat} {f : Child → Child} (hf : ∀ c, (f c).speaking = c.speaking ∧ (f c).events = c.events)
    (hc : w'.children = w.children.modify child f) : w.Unheard w' where
  launches := hl
  length := by rw [hc, List.length_modify]
  child i c' hi := by
    rw [hc, List.getElem?_modify] at hi
    obtain ⟨c, hfound, rfl⟩ := Option.map_eq_some_iff.1 hi
    refine ⟨c, hfound, ?_⟩
    split
    · exact hf c
    · exact ⟨rfl, rfl⟩

/-- Everything that an act can mean for the channels of the children. -/
inductive World.Sounded (w : World Station) : (r : Request) → r.Answer → World Station → Prop where
  | mute {r : Request} {a : r.Answer} {w₁ : World Station} (unheard : w.Unheard w₁)
      (other : ∀ child, r ≠ .nextEvent child) : Sounded w r a w₁
  | spawned {spec : LaunchSpec} {w₁ : World Station} {l : Launch} {m m' : Machine} {v : Variables}
      (started : Launch.start m v spec = .ok (l, m'))
      (launches : w₁.outside.launches = w.outside.launches ++ [l])
      (children : w₁.children = w.children ++ [{ pid := l.pid, transport := spec.transport }]) :
      Sounded w (.spawn spec) (.ok (w.children.length, l.pid)) w₁
  | event {child : Nat} {c : Child} {e : ChildEvent} {rest : List ChildEvent}
      (found : w.children[child]? = some c) (events : c.events = e :: rest) :
      Sounded w (.nextEvent child) (some e) (w.changeChild child ({ · with events := rest }))
  | silence {child : Nat}
      (ended : ∀ c, w.children[child]? = some c → c.events = [] ∧ c.speaking = false) :
      Sounded w (.nextEvent child) none w

section Acts

variable {rs : Roles} {w w₁ : World Station} {task : Nat} {r : Request} {a : r.Answer}

theorem World.ask_unheard {q : Query} (h : ∀ spec, q ≠ .spawn spec) (w : World Station) (task : Nat) :
    w.Unheard (w.ask Station.environment task q).2 :=
  .ofEq (Station.answer_launches h w.outside) rfl

theorem World.Stopped.unheard {a : Request.StopResult}
    (h : World.Stopped Station.environment w task a w₁) : w.Unheard w₁ := by
  -- a signal at a station is only sent; the exit comes later, if at all
  cases h <;> exact .ofEq rfl rfl

theorem World.Performed.sounded (h : World.Performed Station.environment rs w task r a w₁)
    (hd : r.kind ≠ .direct) : w.Sounded r a w₁ := by
  cases h with
  | query q =>
    refine .mute (World.ask_unheard ?_ w task) (by rintro child ⟨⟩)
    rintro spec rfl
    exact hd rfl
  | spawned spec pid told =>
    simp only [World.ask, Station.environment, Station.answer, Station.spawn] at told ⊢
    split at told
    · rename_i l m' hstart
      cases told
      exact .spawned hstart rfl rfl
    · cases told
  | unspawned spec e told =>
    refine .mute (.ofEq ?_ rfl) (by rintro child ⟨⟩)
    simp only [World.ask, Station.environment, Station.answer, Station.spawn] at told ⊢
    split at told
    · cases told
    · rfl
  | stop a w₁ hs => exact .mute hs.unheard (by rintro child ⟨⟩)
  | killed h handle => exact .mute (.ofEq rfl rfl) (by rintro child ⟨⟩)
  | event child c e rest found events => exact .event found events
  | silence child ended => exact .silence ended
  | raiseExited child =>
    exact .mute (.ofChild (f := ({ · with exited := true, heard := false })) rfl (fun _ => ⟨rfl, rfl⟩) rfl)
      (by rintro child ⟨⟩)
  | _ => exact .mute (.ofEq rfl rfl) (by rintro child ⟨⟩)

/-- Whoever waits for an event waits for one of a child that there is. -/
theorem Run.lt_of_nextEvent {ε : Type} {env : Environment ε} {s : Service} {acts : List Act} {w : World ε}
    (h : Run env s acts w) {child : Nat} {k : Option ChildEvent → Program Flow}
    (hp : w.pending task = some ⟨.nextEvent child, k⟩) : child < w.children.length := by
  obtain ⟨phase, hf, hg, he⟩ := h.enrolled
  obtain ⟨y, hP⟩ := hf.pending hp none
  obtain ⟨pid, hx⟩ : ∃ pid, phase task = .watching child pid := by
    generalize phase task = x at hP
    cases hP with
    | neutral hn => cases hn
    | silence => exact ⟨_, rfl⟩
  exact he.started child (he.observed child ⟨task, pid, hg.observer h (.inl hx)⟩)

end Acts

/-! ## What is in the channels -/

def Act.eventFrom? (child : Nat) : Act → Option ChildEvent
  | .step _ (.nextEvent c) e => if c = child then e else none
  | _ => none

/-- The events that were taken from the channel of a child, in their order. -/
def takenFrom (child : Nat) (acts : List Act) : List ChildEvent :=
  acts.reverse.filterMap (Act.eventFrom? child)

theorem takenFrom_cons (child : Nat) (x : Act) (acts : List Act) :
    takenFrom child (x :: acts) = takenFrom child acts ++ (x.eventFrom? child).toList := by
  unfold takenFrom
  rw [List.reverse_cons, List.filterMap_append]
  cases hx : x.eventFrom? child <;> simp [hx]

theorem takenFrom_cons_none {child : Nat} {x : Act} (h : x.eventFrom? child = none) (acts : List Act) :
    takenFrom child (x :: acts) = takenFrom child acts := by
  rw [takenFrom_cons, h, Option.toList_none, List.append_nil]

theorem Act.eventFrom?_other {task : Nat} {r : Request} (h : ∀ child, r ≠ .nextEvent child) (a : r.Answer)
    (child : Nat) : (Act.step task r a).eventFrom? child = none := by
  cases r with
  | nextEvent c => exact absurd rfl (h c)
  | _ => rfl

theorem Act.eventFrom?_ne {task c child : Nat} (h : c ≠ child) (e : Option ChildEvent) :
    (Act.step task (.nextEvent c) e).eventFrom? child = none := if_neg h

theorem Act.eventFrom?_silence (task c child : Nat) :
    (Act.step task (.nextEvent c) none).eventFrom? child = none := by
  simp [Act.eventFrom?]

/-- What was taken from a child and what was not is all that the tasks have told that listen to it. -/
structure Heard (heeds : List (Nat × Launch.Heed)) (acts : List Act) (w : World Station) : Prop where
  length : w.outside.launches.length = w.children.length
  unborn : ∀ child, w.children.length ≤ child →
    (∀ o, bytesRead heeds child o = []) ∧ takenFrom child acts = []
  told : ∀ (child : Nat) (l : Launch) (c : Child), w.outside.launches[child]? = some l →
    w.children[child]? = some c → c.speaking = !l.told ∧
      l.Told (bytesRead heeds child) (takenFrom child acts ++ c.events)
  /-- the events of a child do not end before its exit -/
  ended : ∀ i child, .step i (.nextEvent child) none ∈ acts → ∃ exit, .exited exit ∈ takenFrom child acts

namespace Heard

variable {s : Service} {heeds : List (Nat × Launch.Heed)} {acts : List Act} {w w' w₁ : World Station}
  {task child : Nat}

theorem unheard {new : List Act} (h : Heard heeds acts w) (hu : w.Unheard w')
    (htaken : ∀ child, takenFrom child (new ++ acts) = takenFrom child acts)
    (hnew : ∀ i child, .step i (.nextEvent child) none ∉ new) : Heard heeds (new ++ acts) w' where
  length := by rw [hu.launches, hu.length, h.length]
  unborn child hc := by
    rw [htaken]
    exact h.unborn child (hu.length ▸ hc)
  told child l c' hl hc' := by
    obtain ⟨c, hc, hs, he⟩ := hu.child child c' hc'
    rw [hs, he, htaken]
    exact h.told child l c (hu.launches ▸ hl) hc
  ended i child hm := by
    rw [htaken]
    exact h.ended i child ((List.mem_append.1 hm).resolve_left (hnew i child))

theorem spawn (h : Heard heeds acts w) {spec : LaunchSpec} {l : Launch} {m m' : Machine} {v : Variables}
    {x : Act} (hx : ∀ child, x.eventFrom? child = none) (hne : ∀ i child, x ≠ .step i (.nextEvent child) none)
    (hstart : Launch.start m v spec = .ok (l, m'))
    (hl : w'.outside.launches = w.outside.launches ++ [l])
    (hc : w'.children = w.children ++ [{ pid := l.pid, transport := spec.transport }]) :
    Heard heeds (x :: acts) w' where
  length := by rw [hl, hc, List.length_append, List.length_append, h.length]; rfl
  unborn child hlen := by
    rw [takenFrom_cons_none (hx child)]
    rw [hc, List.length_append] at hlen
    exact h.unborn child (by omega)
  told child l' c hl' hc' := by
    rw [takenFrom_cons_none (hx child)]
    rw [hl, List.getElem?_append] at hl'
    rw [hc, List.getElem?_append] at hc'
    split at hl'
    · rename_i hlt
      rw [if_pos (h.length ▸ hlt)] at hc'
      exact h.told child l' c hl' hc'
    · rename_i hge
      have hge' : ¬ child < w.children.length := h.length ▸ hge
      obtain ⟨hread, htaken⟩ := h.unborn child (Nat.le_of_not_lt hge')
      rw [if_neg hge'] at hc'
      obtain rfl : l = l' := List.mem_singleton.1 (List.mem_of_getElem? hl') |>.symm
      obtain rfl : _ = c := List.mem_singleton.1 (List.mem_of_getElem? hc') |>.symm
      obtain ⟨hfresh, -⟩ := Launch.start_cases hstart
      refine ⟨by rw [hfresh]; rfl, ?_⟩
      rw [htaken, show bytesRead heeds child = fun _ => [] from funext hread]
      exact .start hstart
  ended i child hm := by
    rw [takenFrom_cons_none (hx child)]
    exact h.ended i child ((List.mem_cons.1 hm).resolve_left (hne i child ·.symm))

theorem event (h : Heard heeds acts w) {c : Child} {e : ChildEvent} {rest : List ChildEvent}
    (hc : w.children[child]? = some c) (he : c.events = e :: rest) :
    Heard heeds (.step task (.nextEvent child) (some e) :: acts)
      (w.changeChild child ({ · with events := rest })) where
  length := by
    rw [World.changeChild, List.length_modify]
    exact h.length
  unborn i hi := by
    rw [World.changeChild, List.length_modify] at hi
    have hlt : child < w.children.length := (List.getElem?_eq_some_iff.1 hc).1
    rw [takenFrom_cons_none (Act.eventFrom?_ne (by omega) _)]
    exact h.unborn i hi
  told i l c' hl hc' := by
    rw [World.changeChild, List.getElem?_modify] at hc'
    obtain ⟨c₀, hfound, rfl⟩ := Option.map_eq_some_iff.1 hc'
    by_cases hi : child = i
    · subst hi
      obtain rfl : c = c₀ := Option.some.inj (hc.symm.trans hfound)
      obtain ⟨hs, ht⟩ := h.told child l c hl hfound
      rw [if_pos rfl, takenFrom_cons]
      refine ⟨hs, ?_⟩
      rw [he] at ht
      simpa [Act.eventFrom?] using ht
    · rw [if_neg hi, takenFrom_cons_none (Act.eventFrom?_ne hi _)]
      exact h.told i l c₀ hl hfound
  ended i child' hm := by
    rcases List.mem_cons.1 hm with hx | hm
    · cases hx
    · obtain ⟨exit, hexit⟩ := h.ended i child' hm
      refine ⟨exit, ?_⟩
      rw [takenFrom_cons]
      exact List.mem_append_left _ hexit

/-- When the channel is empty for good, the exit was taken from it. -/
theorem silence (h : Heard heeds acts w) (hlt : child < w.children.length)
    (hend : ∀ c, w.children[child]? = some c → c.events = [] ∧ c.speaking = false) :
    Heard heeds (.step task (.nextEvent child) none :: acts) w where
  length := h.length
  unborn i hi := by
    rw [takenFrom_cons_none (Act.eventFrom?_silence task child i)]
    exact h.unborn i hi
  told i l c hl hc := by
    rw [takenFrom_cons_none (Act.eventFrom?_silence task child i)]
    exact h.told i l c hl hc
  ended i child' hm := by
    rw [takenFrom_cons_none (Act.eventFrom?_silence task child child')]
    rcases List.mem_cons.1 hm with hx | hm
    · cases hx
      have hc := List.getElem?_eq_getElem hlt
      have hl := List.getElem?_eq_getElem (h.length ▸ hlt)
      obtain ⟨hs, ht⟩ := h.told child _ _ hl hc
      obtain ⟨hempty, hsilent⟩ := hend _ hc
      rw [hsilent] at hs
      obtain ⟨-, front, exit, -, hsent, -⟩ := ht.told (by simpa using hs)
      rw [hempty, List.append_nil] at hsent
      exact ⟨exit, by simp [hsent]⟩
    · exact h.ended i child' hm

theorem act {r : Request} {a : r.Answer} (h : Heard heeds acts w) (hs : w.Sounded r a w₁)
    (hlt : ∀ child, r = .nextEvent child → child < w.children.length) :
    Heard heeds (.step task r a :: acts) w₁ := by
  cases hs with
  | mute hu other =>
    show Heard heeds ([.step task r a] ++ acts) w₁
    refine h.unheard hu (fun child => ?_) fun i child hm => ?_
    · exact takenFrom_cons_none (Act.eventFrom?_other other a child) acts
    · cases List.mem_singleton.1 hm
      exact other child rfl
  | spawned started launches children =>
    exact h.spawn (fun _ => rfl) (fun _ _ => nofun) started launches children
  | event found events => exact h.event found events
  | silence ended => exact h.silence (hlt _ rfl) ended

theorem changeTask (h : Heard heeds acts w) (task : Nat) (f : Task → Task) :
    Heard heeds acts (w.changeTask task f) :=
  ⟨h.length, h.unborn, h.told, h.ended⟩

/-- What is no act leaves the channels alone. -/
theorem hush (h : Heard heeds acts w) (hu : w.Unheard w') : Heard heeds acts w' := by
  show Heard heeds ([] ++ acts) w'
  exact h.unheard hu (fun _ => rfl) nofun

theorem move (h : Heard heeds acts w) (hr : Run Station.environment s acts w) {m : Move Station}
    {new : List Act} (hmute : m.IsMute w) (hm : w.move Station.environment s m = some (new, w')) :
    Heard heeds (new ++ acts) w' := by
  cases m with
  | call c =>
    cases hm
    refine h.unheard (.ofEq rfl rfl) (fun child => takenFrom_cons_none rfl acts) fun i child hm => ?_
    cases List.mem_singleton.1 hm
  | step task =>
    cases World.move_step_cases hm with
    | cancel t =>
      refine (h.hush (.ofEq ?_ ?_)).changeTask task _
      all_goals
        unfold World.forgetPrompt
        split <;> rfl
    | finish t o => exact (h.hush (.ofEq rfl rfl)).changeTask task _
    | again t => exact (h.hush (.ofEq rfl rfl)).changeTask task _
    | ask t r k a w₁ found rest pending performed =>
      refine (h.act (performed.sounded (hr.not_direct pending a)) ?_).changeTask task _
      rintro child rfl
      exact hr.lt_of_nextEvent pending
  | turn outside =>
    cases hm
    exact h.hush (.ofEq hmute rfl)
  | clock moment =>
    cases hm
    exact h.hush (.ofEq rfl rfl)
  | tell child e => exact hmute.elim
  | vanish child => exact hmute.elim
  | die child =>
    cases hm
    exact h.hush (.ofChild (f := ({ · with alive := false })) rfl (fun _ => ⟨rfl, rfl⟩) rfl)

end Heard

theorem Child.foldl_emit {c : Child} {events : List ChildEvent} (hs : c.speaking = true)
    (hne : ∀ exit, .exited exit ∉ events) :
    events.foldl Child.emit c = { c with events := c.events ++ events } := by
  induction events generalizing c with
  | nil =>
    rw [List.foldl_nil, List.append_nil]
  | cons e events ih =>
    have hemit : c.emit e = { c with events := c.events ++ [e] } := by
      cases e with
      | exited exit => exact absurd List.mem_cons_self (hne exit)
      | _ => simp [Child.emit, hs]
    have hrest : ∀ exit, .exited exit ∉ events := fun exit hm => hne exit (List.mem_cons_of_mem _ hm)
    have hih := ih (c := { c with events := c.events ++ [e] }) hs hrest
    rw [List.foldl_cons, hemit, hih, List.append_assoc]
    rfl

/-- The channel takes in all that a task tells. -/
theorem Launch.Told.emits {l l' : Launch} {read : Outlet → Bytes} {sent events : List ChildEvent}
    {t : Launch.Heed} {c : Child} (h : l.Told read sent) (ht : Launch.Heeded l t events l')
    (hs : c.speaking = !l.told) :
    (events.foldl Child.emit c).speaking = !l'.told ∧
      (events.foldl Child.emit c).events = c.events ++ events := by
  have open_channel : l.told = false → l'.told = l.told → (∀ exit, .exited exit ∉ events) →
      (events.foldl Child.emit c).speaking = !l'.told ∧
        (events.foldl Child.emit c).events = c.events ++ events := by
    intro huntold hsame hne
    rw [Child.foldl_emit (by rw [hs, huntold]; rfl) hne, hsame]
    exact ⟨hs, rfl⟩
  cases ht with
  | chunk o c' bytes reads =>
    exact open_channel (h.untold_of_reader reads) (Launch.setCapture_told _)
      fun exit hm => o.not_isOwn_exited exit (Capture.mem_feed hm)
  | ended o c' reads =>
    exact open_channel (h.untold_of_reader reads) (Launch.setCapture_told _)
      fun exit hm => o.not_isOwn_exited exit (Capture.mem_close hm)
  | learnt statusLost exit _ unknown errors =>
    refine open_channel (h.untold_of_unknown unknown) rfl fun exit hm => ?_
    obtain ⟨reason, he⟩ := errors _ hm
    cases he
  | told exit known untold through =>
    have hspeaks : c.speaking = true := by rw [hs, untold]; rfl
    simp [Child.emit, hspeaks]
  | idle _ silent =>
    rw [List.foldl_nil, List.append_nil]
    exact ⟨hs, rfl⟩

theorem Heard.heed {heeds : List (Nat × Launch.Heed)} {acts : List Act} {w w' : World Station}
    {child : Nat} {t : Launch.Heed} (h : Heard heeds acts w) (hh : w.heed child t = some w') :
    Heard (heeds ++ [(child, t)]) acts w' := by
  unfold World.heed at hh
  split at hh
  · cases hh
  · rename_i l hl
    obtain ⟨⟨events, l'⟩, hheed, rfl⟩ := Option.map_eq_some_iff.1 hh
    have hheeded := Launch.heed_cases hheed
    have hlt : child < w.children.length := h.length ▸ (List.getElem?_eq_some_iff.1 hl).1
    refine { length := ?_, unborn := ?_, told := ?_, ended := h.ended }
    · rw [List.length_set, List.length_modify]
      exact h.length
    · intro i hi
      rw [List.length_modify] at hi
      rw [bytesRead_other (by omega)]
      exact h.unborn i hi
    · intro i l₁ c₁ hl₁ hc₁
      rw [List.getElem?_modify] at hc₁
      obtain ⟨c, hc, rfl⟩ := Option.map_eq_some_iff.1 hc₁
      by_cases hi : child = i
      · subst hi
        rw [List.getElem?_set_self (h.length ▸ hlt)] at hl₁
        cases hl₁
        obtain ⟨hs, ht⟩ := h.told child l c hl hc
        obtain ⟨hs', he'⟩ := ht.emits hheeded hs
        rw [if_pos rfl]
        refine ⟨hs', ?_⟩
        rw [he', ← List.append_assoc, funext (bytesRead_own heeds child t)]
        exact ht.heed hheeded
      · rw [List.getElem?_set_ne hi] at hl₁
        rw [if_neg hi, bytesRead_other hi]
        exact h.told i l₁ c hl₁ hc

theorem Attended.heard {s : Service} {heeds : List (Nat × Launch.Heed)} {acts : List Act}
    {w : World Station} (h : Attended s heeds acts w) : Heard heeds acts w := by
  induction h with
  | init outside hl =>
    refine { length := by rw [hl]; rfl, unborn := fun _ _ => ⟨fun _ => rfl, rfl⟩, told := ?_, ended := nofun }
    intro child l c _ hc
    simp at hc
  | move m run mute moved ih => exact ih.move run.run mute moved
  | heed child t run heeded ih => exact ih.heed heeded

/-! ## From the channel to the output -/

def Outlet.level : Outlet → OutputLog.Level
  | .stdout => .stdout
  | .stderr => .stderr

/-- The texts among some entries that were written as lines of a stream. -/
def Outlet.linesIn (o : Outlet) (entries : List (OutputLog.Level × String)) : List String :=
  entries.filterMap fun entry => if entry.1 = o.level then some entry.2 else none

theorem Outlet.linesIn_entries (o : Outlet) (events : List ChildEvent) :
    o.linesIn (events.filterMap ChildEvent.entry?) = events.filterMap o.line? := by
  rw [Outlet.linesIn, List.filterMap_filterMap]
  congr 1
  funext e
  cases e <;> cases o <;> rfl

theorem ChildEvent.entry?_level {e : ChildEvent} {entry : OutputLog.Level × String}
    (h : e.entry? = some entry) : entry.1 ≠ .info := by
  cases e <;> cases h <;> nofun

section Output

variable {ε : Type} {env : Environment ε} {s : Service} {acts : List Act} {i child pid : Nat}

/-- All that was taken from a child was taken by its observer. -/
theorem Run.takenFrom_eq {w : World ε} (h : Run env s acts w)
    (hi : (roles acts)[i]? = some (.observer child pid)) :
    takenFrom child acts = eventsOf (notes i acts) := by
  obtain ⟨phase, -, -, he⟩ := h.enrolled
  rw [takenFrom, eventsOf, notes, chronicle, List.filterMap_filterMap]
  refine List.filterMap_congr fun x hx => ?_
  cases x with
  | call c => rfl
  | step j r a =>
    by_cases hr : ∃ c, r = .nextEvent c
    · obtain ⟨c, rfl⟩ := hr
      obtain ⟨pid', hj⟩ := h.observer_of_took (List.mem_reverse.1 hx)
      have hown : c = child ↔ j = i := by
        constructor
        · rintro rfl
          exact he.unique j i c pid' pid hj hi
        · rintro rfl
          cases Option.some.inj (hj.symm.trans hi)
          rfl
      simp only [Act.eventFrom?, Act.tells, hown]
      split <;> rfl
    · have hnone : (Act.step j r a).eventFrom? child = none :=
        Act.eventFrom?_other (fun c hc => hr ⟨c, hc⟩) a child
      rw [hnone]
      cases htells : (Act.step j r a).tells Request.note? i with
      | none => rfl
      | some d =>
        obtain ⟨r', a', hx', hd⟩ := Act.exists_of_tells htells
        cases hx'
        unfold Request.note? at hd
        split at hd
        · exact absurd ⟨_, rfl⟩ hr
        · cases hd
          rfl
        · cases hd

/-- An observer that is about to deal with the exit has written all that it has taken, and the exit. -/
theorem Run.written_of_pending {w : World ε} (h : Run env s acts w)
    (hi : (roles acts)[i]? = some (.observer child pid)) {p : Nat} {exit : Exit}
    {k : Except Lifecycle.Refusal Lifecycle.Transition → Program Flow}
    (hp : w.pending i = some ⟨.recordExit p exit, k⟩) :
    written i acts = (takenFrom child acts).filterMap ChildEvent.entry? ++ [exitEntry exit] ∧
      Ends child exit (notes i acts) := by
  obtain ⟨phase, hf, hkept⟩ := h.passed
  obtain ⟨y, hP⟩ := hf.pending hp (.error ⟨.stopped, .stopRequested⟩)
  obtain ⟨hchild, -, hpassed⟩ := hkept i _ hi
  generalize phase i = x at hP hchild hpassed
  rw [h.takenFrom_eq hi]
  cases hP with
  | outside => cases hchild
  | aside watch => exact absurd rfl watch
  | settle =>
    cases hchild
    exact hpassed

/-- At no time has an observer written more than one line of its own. -/
theorem Run.exit_written_once {w : World ε} (h : Run env s acts w)
    (hi : (roles acts)[i]? = some (.observer child pid)) :
    ((written i acts).filter (·.1 = .info)).length ≤ 1 := by
  have hdue : ∀ l : List Note, (entriesDue l).filter (·.1 = .info) = [] := by
    intro l
    refine List.filter_eq_nil_iff.2 fun entry hm => ?_
    obtain ⟨e, -, he⟩ := List.mem_filterMap.1 hm
    simpa using ChildEvent.entry?_level he
  obtain ⟨phase, -, hkept⟩ := h.passed
  obtain ⟨-, -, hpassed⟩ := hkept i _ hi
  rw [written]
  cases hx : phase i with
  | outside =>
    rw [hx] at hpassed
    exact hpassed.elim
  | ready | bereft =>
    rw [hx] at hpassed
    rw [hpassed.1, hdue]
    exact Nat.zero_le 1
  | holding c entry =>
    rw [hx] at hpassed
    have hall := congrArg (List.filter (·.1 = .info)) hpassed.1
    rw [hdue, List.filter_append, List.append_eq_nil_iff] at hall
    rw [hall.1]
    exact Nat.zero_le 1
  | closed c exit =>
    rw [hx] at hpassed
    rw [hpassed.1, List.filter_append, hdue]
    exact Nat.le_refl 1

/-- Nothing comes behind the exit. -/
theorem eq_nil_of_exited {taken rest front : List ChildEvent} {e exit : Exit}
    (h : taken ++ rest = front ++ [.exited e]) (hm : .exited exit ∈ taken)
    (hfront : ∀ e, .exited e ∉ front) : rest = [] := by
  rcases List.eq_nil_or_concat rest with rfl | ⟨init, last, rfl⟩
  · rfl
  · rw [List.concat_eq_append, ← List.append_assoc] at h
    obtain ⟨hinit, -⟩ := List.append_inj' h rfl
    exact absurd (hinit ▸ List.mem_append_left init hm) (hfront exit)

variable {heeds : List (Nat × Launch.Heed)} {w : World Station} {l : Launch} {c : Child}

/-- An observer that is about to deal with the exit has taken it, and with it all that there was. -/
theorem Heard.taken_of_pending (hh : Heard heeds acts w) (h : Run Station.environment s acts w)
    (hl : w.outside.launches[child]? = some l) (hc : w.children[child]? = some c)
    (hi : (roles acts)[i]? = some (.observer child pid)) {exit : Exit}
    (hends : Ends child exit (notes i acts)) :
    (∀ o, l.reader? o = none) ∧ l.Told (bytesRead heeds child) (takenFrom child acts) := by
  obtain ⟨-, ht⟩ := hh.told child l c hl hc
  obtain ⟨e, hm⟩ : ∃ e, .exited e ∈ takenFrom child acts := by
    rcases hends with ⟨front, hfront⟩ | ⟨-, hm⟩
    · rw [h.takenFrom_eq hi, hfront]
      exact ⟨exit, List.mem_append_right front List.mem_cons_self⟩
    · obtain ⟨r, a, hm, hd⟩ := mem_chronicle.1 hm
      unfold Request.note? at hd
      split at hd <;> cases hd
      exact hh.ended i child hm
  have htold : l.told = true := by
    by_contra hne
    exact ht.untold (Bool.not_eq_true _ ▸ hne) e (List.mem_append_left c.events hm)
  obtain ⟨hthrough, front, e', -, hsent, hfront⟩ := ht.told htold
  have hempty := eq_nil_of_exited hsent hm hfront
  rw [hempty, List.append_nil] at ht
  exact ⟨hthrough, ht⟩

/-- **The output of a child comes through, and before its exit.** However the streams are cut into chunks
and in whatever order the two readers, the task that waits and the observer have their turns:

* until the process has ended and both streams are read to their ends, there is no exit in the channel;
  from then on there is one, as soon as the task that waits has had its turn, and it is the last event;
* an observer that is about to deal with the exit of a server over HTTP has written the lines of both
  streams that are not blank, without the blanks at their ends, those of each stream in their order and
  each once, and behind all of them that the process exited;
* that is the only line of its own that an observer writes, and nobody but an observer writes lines of a
  child. -/
theorem Attended.output_relayed (h : Attended s heeds acts w)
    (hl : w.outside.launches[child]? = some l) (hc : w.children[child]? = some c) :
    ((l.exit = none ∨ ∃ o, l.reader? o ≠ none) →
      ∀ exit, .exited exit ∉ takenFrom child acts ++ c.events) ∧
    (∀ exit, l.exit = some exit → (∀ o, l.reader? o = none) →
      ∃ front, takenFrom child acts ++ c.events ++ l.tellExit.1 = front ++ [.exited exit] ∧
        ∀ e, .exited e ∉ front) ∧
    (∀ i pid, (roles acts)[i]? = some (.observer child pid) →
      (∀ text : Outlet → List Char, l.transport = .http →
        (∀ o, bytesRead heeds child o = encode (text o)) →
        ∀ p exit k, w.pending i = some ⟨.recordExit p exit, k⟩ →
          ∃ lines, written i acts = lines ++ [exitEntry exit] ∧
            (∀ o : Outlet, o.linesIn lines = Capture.spoken (text o)) ∧ ∀ entry ∈ lines, entry.1 ≠ .info) ∧
      ((written i acts).filter (·.1 = .info)).length ≤ 1) ∧
    (∀ i writer (o : Outlet) text, .step i (.query (.write writer o.level text)) () ∈ acts →
      ∃ child pid, (roles acts)[i]? = some (.observer child pid)) := by
  have hh := h.heard
  obtain ⟨-, ht⟩ := hh.told child l c hl hc
  refine ⟨ht.not_exited, fun exit => ht.exited, fun i pid hi => ⟨?_, h.run.exit_written_once hi⟩, ?_⟩
  · intro text hhttp hread p exit k hp
    obtain ⟨hwritten, hends⟩ := h.run.written_of_pending hi hp
    obtain ⟨hthrough, htaken⟩ := hh.taken_of_pending h.run hl hc hi hends
    refine ⟨_, hwritten, fun o => ?_, fun entry hm => ?_⟩
    · obtain ⟨st, hst⟩ := ht.piped hhttp o
      rw [o.linesIn_entries]
      exact htaken.lines_of_ended hst (hthrough o) (hread o)
    · obtain ⟨e, -, he⟩ := List.mem_filterMap.1 hm
      exact ChildEvent.entry?_level he
  · intro i writer o text hm
    refine h.run.observer_of_wrote hm ?_
    cases o with
    | stdout => exact .inl rfl
    | stderr => exact .inr rfl

end Output

/-! ## A child to listen to -/

namespace Rehearsal

/-- What comes next at a station. -/
inductive Cue where
  | move (m : World Station → Move Station)
  | heed (child : Nat) (t : Launch.Heed)

instance (w : World Station) : (m : Move Station) → Decidable (m.IsMute w)
  | .turn _ => inferInstanceAs (Decidable (_ = _))
  | .tell _ _ => .isFalse id
  | .vanish _ => .isFalse id
  | .call _ => .isTrue trivial
  | .step _ => .isTrue trivial
  | .clock _ => .isTrue trivial
  | .die _ => .isTrue trivial

/-- All of them in a row. -/
def attend (heeds : List (Nat × Launch.Heed)) (acts : List Act) (w : World Station) :
    List Cue → Option (List (Nat × Launch.Heed) × List Act × World Station)
  | [] => some (heeds, acts, w)
  | .move m :: cues =>
    if (m w).IsMute w then
      match w.move Station.environment sample (m w) with
      | none => none
      | some (new, w) => attend heeds (new ++ acts) w cues
    else none
  | .heed child t :: cues =>
    match w.heed child t with
    | none => none
    | some w => attend (heeds ++ [(child, t)]) acts w cues

theorem attended_attend {heeds heeds' : List (Nat × Launch.Heed)} {acts acts' : List Act}
    {w w' : World Station} {cues : List Cue} (h : Attended sample heeds acts w)
    (ha : attend heeds acts w cues = some (heeds', acts', w')) : Attended sample heeds' acts' w' := by
  induction cues generalizing heeds acts w with
  | nil =>
    cases ha
    exact h
  | cons cue cues ih =>
    cases cue with
    | move m =>
      rw [attend] at ha
      split at ha
      · rename_i hmute
        split at ha
        · cases ha
        · rename_i new w₁ hm
          exact ih (.move (m w) h hmute hm) ha
      · cases ha
    | heed child t =>
      rw [attend] at ha
      split at ha
      · cases ha
      · rename_i w₁ hheed
        exact ih (.heed child t h hheed) ha

/-- A station with a tool and settings by which it is run over HTTP. -/
def stage : Station where
  machine := { files := { nodes :=
    [(["tool"], .file (Machine.mark ++ encode "true".toList) 0o755),
      (["settings"], .file (encode "[server]\nenable_streamable_http = true".toList) 0o644)] } }
  binaryName := "/tool"
  configPath := "/settings"
  time := ⟨⟨2024, 1, 1⟩, 0, 0, 0, 0⟩

/-- A server is started and heard in pieces while its observer writes; it exits before its last line is
complete. -/
def broadcast : List Cue :=
  .move (fun _ => .call .start) :: List.replicate 10 (.move fun _ => .step 0) ++
    [.heed 0 (.chunk .stdout (encode "rea".toList)), .heed 0 (.chunk .stderr (encode "warm \n".toList)),
      .heed 0 (.chunk .stdout (encode "dy\n  \nbye".toList)), .move fun _ => .step 1,
      .move fun w => .turn (w.outside.changeMachine (·.exitWith 101 3)), .heed 0 (.waited false),
      .heed 0 .joined, .heed 0 (.ended .stdout), .heed 0 (.ended .stderr), .heed 0 .joined] ++
    List.replicate 10 (.move fun _ => .step 1)

/-- What `broadcast` comes to. -/
def heard : List (Nat × Launch.Heed) × List Act × World Station :=
  (attend [] [] { outside := stage } broadcast).getD ([], [], { outside := stage })

theorem attended_heard : Attended sample heard.1 heard.2.1 heard.2.2 := by
  unfold heard
  cases h : attend [] [] { outside := stage } broadcast with
  | none => exact .init stage rfl
  | some p => exact attended_attend (.init stage rfl) h

end Rehearsal

/-- The lines of both streams are written before the exit is dealt with. -/
theorem relayed_in_pieces : ∃ heeds acts w, Attended Rehearsal.sample heeds acts w ∧
    bytesRead heeds 0 .stdout = encode "ready\n  \nbye".toList ∧
    bytesRead heeds 0 .stderr = encode "warm \n".toList ∧
    (∃ k, w.pending 1 = some ⟨.recordExit 101 { code := some 3 }, k⟩) ∧
    ∃ lines, written 1 acts = lines ++ [(.info, "[Server] Process exited with code 3.")] ∧
      Outlet.stdout.linesIn lines = ["ready", "bye"] ∧ Outlet.stderr.linesIn lines = ["warm"] := by
  have h := Rehearsal.attended_heard
  obtain ⟨hlaunched, hborn, hout, herr, hrole, hpending⟩ :
      Rehearsal.heard.2.2.outside.launches[0]?.map (·.transport) = some .http ∧
      (Rehearsal.heard.2.2.children[0]?).isSome = true ∧
      bytesRead Rehearsal.heard.1 0 .stdout = encode "ready\n  \nbye".toList ∧
      bytesRead Rehearsal.heard.1 0 .stderr = encode "warm \n".toList ∧
      (roles Rehearsal.heard.2.1)[1]? = some (.observer 0 101) ∧
      (Rehearsal.heard.2.2.pending 1).map Sigma.fst = some (.recordExit 101 { code := some 3 }) := by
    decide +kernel
  obtain ⟨l, hl, hhttp⟩ := Option.map_eq_some_iff.1 hlaunched
  obtain ⟨c, hc⟩ := Option.isSome_iff_exists.1 hborn
  obtain ⟨⟨r, k⟩, hp, hr⟩ := Option.map_eq_some_iff.1 hpending
  obtain rfl : r = .recordExit 101 { code := some 3 } := hr
  obtain ⟨-, -, hwritten, -⟩ := Attended.output_relayed h hl hc
  obtain ⟨lines, hlines, hstreams, -⟩ := (hwritten 1 101 hrole).1
    (fun o => match o with | .stdout => "ready\n  \nbye".toList | .stderr => "warm \n".toList) hhttp
    (fun o => match o with | .stdout => hout | .stderr => herr) 101 _ k hp
  refine ⟨_, _, _, h, hout, herr, ⟨k, hp⟩, lines, hlines, ?_, ?_⟩
  · rw [hstreams]
    decide +kernel
  · rw [hstreams]
    decide +kernel

end Steward
