import Steward.Proofs.Enrolment

/-!
# What an observer passes on

The observer of a child takes its events one by one and writes each of them before it takes the next. At
the exit it writes one line more, and only then deals with the exit. `PassOn` is this order of things.

What follows is that the entries of an observer are those of the events it has taken (`Relay.Kept`), and
that nobody else takes events or writes lines of a child.
-/

set_option autoImplicit false

namespace Steward

/-! ## Notes -/

/-- What an observer does for the output. -/
inductive Note where
  | took (child : Nat) (e : Option ChildEvent)
  | wrote (entry : OutputLog.Level × String)

def Request.note? : (r : Request) → r.Answer → Option Note
  | .nextEvent child, e => some (.took child e)
  | .query (.write _ level text), _ => some (.wrote (level, text))
  | _, _ => none

/-- The notes of a task, in their order. -/
def notes (i : Nat) (acts : List Act) : List Note := chronicle Request.note? i acts

def Note.event? : Note → Option ChildEvent
  | .took _ e => e
  | .wrote _ => none

def Note.entry? : Note → Option (OutputLog.Level × String)
  | .took _ _ => none
  | .wrote entry => some entry

/-- What is written for an event. -/
def ChildEvent.entry? : ChildEvent → Option (OutputLog.Level × String)
  | .stdout line => some (.stdout, line)
  | .stderr line => some (.stderr, line)
  | .error reason => some (.error, "[Server] " ++ reason)
  | .exited _ => none

/-- What is written at the exit. -/
def exitEntry (exit : Exit) : OutputLog.Level × String :=
  (.info, "[Server] Process exited with " ++ exit.display ++ ".")

/-- The events among the notes. -/
def eventsOf (l : List Note) : List ChildEvent := l.filterMap Note.event?

/-- The entries among the notes. -/
def entriesOf (l : List Note) : List (OutputLog.Level × String) := l.filterMap Note.entry?

/-- What a task has written. -/
def written (i : Nat) (acts : List Act) : List (OutputLog.Level × String) := entriesOf (notes i acts)

/-! ## The order of things -/

/-- How far a task has come with the events of a child. -/
inductive Relay where
  /-- it is no observer -/
  | outside
  | ready (child : Nat)
  /-- it has taken an event whose entry is not written yet -/
  | holding (child : Nat) (entry : OutputLog.Level × String)
  /-- it has learnt of the exit -/
  | bereft (child : Nat) (exit : Exit)
  | closed (child : Nat) (exit : Exit)

/-- Requests of these kinds have nothing to do with what a child tells. -/
def Request.Kind.isOwn : Request.Kind → Bool
  | .relay => false
  | .watch => false
  | _ => true

inductive PassOn : Protocol Relay where
  | outside {r : Request} {a : r.Answer} (h : r.kind.isOwn = true) : PassOn .outside r a .outside
  | aside {x : Relay} {r : Request} {a : r.Answer} (watch : r.kind ≠ .watch) (h : r.note? a = none) :
      PassOn x r a x
  | take {child : Nat} {e : ChildEvent} {entry : OutputLog.Level × String} (h : e.entry? = some entry) :
      PassOn (.ready child) (.nextEvent child) (some e) (.holding child entry)
  | write {child : Nat} {writer : Writer} {level : OutputLog.Level} {text : String} :
      PassOn (.holding child (level, text)) (.query (.write writer level text)) () (.ready child)
  | exit {child : Nat} {exit : Exit} :
      PassOn (.ready child) (.nextEvent child) (some (.exited exit)) (.bereft child exit)
  | silence {child : Nat} : PassOn (.ready child) (.nextEvent child) none (.bereft child {})
  | close {child : Nat} {exit : Exit} {writer : Writer} :
      PassOn (.bereft child exit) (.query (.write writer (exitEntry exit).1 (exitEntry exit).2)) ()
        (.closed child exit)
  | settle {child pid : Nat} {exit : Exit} {a : Except Lifecycle.Refusal Lifecycle.Transition} :
      PassOn (.closed child exit) (.recordExit pid exit) a (.closed child exit)
  | raise {child : Nat} {exit : Exit} :
      PassOn (.closed child exit) (.raiseExited child) () (.closed child exit)

def Role.relay : Role → Relay
  | .observer child _ => .ready child
  | _ => .outside

section Passing

open Program

variable {α : Type} {s : Service} {child pid : Nat}

theorem handleExit_passes (exit : Exit) :
    (Supervisor.handleExit s pid exit).Obeys PassOn (fun y _ => y = .closed child exit)
      (.closed child exit) := by
  have announced : ∀ t : Lifecycle.Transition, (do
      if t.effects.contains .definitionChanged then perform .announceChange
        : Program Unit).Obeys PassOn (fun y _ => y = .closed child exit) (.closed child exit) := by
    intro t
    split
    · exact fun _ => ⟨_, .aside nofun rfl, rfl⟩
    · rfl
  refine Obeys.ask fun recorded => ⟨_, .settle, ?_⟩
  cases recorded with
  | error e => rfl
  | ok t =>
    dsimp only
    split
    · split
      · exact Obeys.ask fun _ => ⟨_, .aside nofun rfl, announced t⟩
      · exact announced t
    · rfl

theorem observeOnce_passes :
    (Supervisor.observeOnce s child pid).Obeys PassOn (fun y last => last = false → y = .ready child)
      (.ready child) := by
  have concluded : ∀ exit, ((Supervisor.conclude s child pid exit).bind fun _ => done true).Obeys
      PassOn (fun y last => last = false → y = .ready child) (.bereft child exit) := by
    intro exit
    refine obeys_bind.2 (Obeys.ask fun _ => ⟨_, .close, ?_⟩)
    refine obeys_bind.2 ((handleExit_passes exit).mono fun y _ hy => ?_)
    subst hy
    exact fun _ => ⟨_, .raise, nofun⟩
  refine Obeys.ask fun e => ?_
  cases e with
  | none => exact ⟨_, .silence, concluded _⟩
  | some e =>
    cases e with
    | stdout line => exact ⟨_, .take rfl, fun _ => ⟨_, .write, fun _ => rfl⟩⟩
    | stderr line => exact ⟨_, .take rfl, fun _ => ⟨_, .write, fun _ => rfl⟩⟩
    | error reason =>
      exact ⟨_, .take rfl, fun _ => ⟨_, .write, fun _ => ⟨_, .aside nofun rfl, fun _ => rfl⟩⟩⟩
    | exited exit => exact ⟨_, .exit, concluded exit⟩

/-- **Every observer passes on what it takes**, and nobody else takes or passes on anything. -/
theorem Role.passes (s : Service) (ρ : Role) :
    (ρ.program s).Obeys PassOn (Closes (fun _ => True) ρ.relay) ρ.relay := by
  have closes : ∀ flow, Closes (fun _ => True) Relay.outside .outside flow := by
    intro flow
    cases flow with
    | again => rfl
    | finish o => trivial
  have own : ∀ (r : Request) (a : r.Answer), r.kind.isOwn = true → PassOn .outside r a .outside :=
    fun _ _ hr => .outside hr
  cases ρ with
  | call c =>
    have huses : (c.program s).Uses c.kinds := (Call.uses s c).bind fun _ => trivial
    exact huses.obeys_all (by cases c <;> rfl) own closes
  | observer child pid =>
    refine obeys_bind.2 (observeOnce_passes.mono fun y last hy => ?_)
    cases last with
    | true => trivial
    | false => exact hy rfl
  | check =>
    have huses : (Role.check.program s).Uses [.talk, .dialogue, .command] :=
      (uses_check s).bind fun _ => trivial
    exact huses.obeys_all rfl own closes

end Passing

/-! ## What an observer has written -/

/-- What there is to write for the events among the notes. -/
def entriesDue (l : List Note) : List (OutputLog.Level × String) := (eventsOf l).filterMap ChildEvent.entry?

/-- The child's last event was its exit, or its events ended without one. -/
def Ends (child : Nat) (exit : Exit) (l : List Note) : Prop :=
  (∃ front, eventsOf l = front ++ [.exited exit]) ∨
  (∀ e, .exited e ∉ eventsOf l) ∧ .took child none ∈ l

/-- How the entries and the events of an observer belong together. -/
def Relay.Passed : Relay → List Note → Prop
  | .outside, _ => False
  | .ready _, l => entriesOf l = entriesDue l ∧ ∀ e, .exited e ∉ eventsOf l
  | .holding _ entry, l => entriesOf l ++ [entry] = entriesDue l ∧ ∀ e, .exited e ∉ eventsOf l
  | .bereft child exit, l => entriesOf l = entriesDue l ∧ Ends child exit l
  | .closed child exit, l => entriesOf l = entriesDue l ++ [exitEntry exit] ∧ Ends child exit l

def Relay.child? : Relay → Option Nat
  | .outside => none
  | .ready child => some child
  | .holding child _ => some child
  | .bereft child _ => some child
  | .closed child _ => some child

def Note.isOwn : Note → Bool
  | .took _ _ => false
  | .wrote (level, _) => level != .stdout && level != .stderr

/-- Notes of an observer are about its own child. -/
def OfChild (child : Nat) (l : List Note) : Prop := ∀ c e, .took c e ∈ l → c = child

/-- What a task of the role has noted so far. -/
def Relay.Kept : Role → Relay → List Note → Prop
  | .observer child _, x, l => x.child? = some child ∧ OfChild child l ∧ x.Passed l
  | _, x, l => x = .outside ∧ ∀ d ∈ l, d.isOwn = true

section Keeping

variable {l : List Note} {child : Nat}

theorem eventsOf_took (l : List Note) (child : Nat) (e : ChildEvent) :
    eventsOf (l ++ [.took child (some e)]) = eventsOf l ++ [e] := by
  simp [eventsOf, Note.event?]

theorem eventsOf_silence (l : List Note) (child : Nat) :
    eventsOf (l ++ [.took child none]) = eventsOf l := by
  simp [eventsOf, Note.event?]

theorem eventsOf_wrote (l : List Note) (entry : OutputLog.Level × String) :
    eventsOf (l ++ [.wrote entry]) = eventsOf l := by
  simp [eventsOf, Note.event?]

theorem entriesOf_took (l : List Note) (child : Nat) (e : Option ChildEvent) :
    entriesOf (l ++ [.took child e]) = entriesOf l := by
  simp [entriesOf, Note.entry?]

theorem entriesOf_wrote (l : List Note) (entry : OutputLog.Level × String) :
    entriesOf (l ++ [.wrote entry]) = entriesOf l ++ [entry] := by
  simp [entriesOf, Note.entry?]

theorem entriesDue_took {e : ChildEvent} {entry : OutputLog.Level × String} (h : e.entry? = some entry)
    (l : List Note) (child : Nat) :
    entriesDue (l ++ [.took child (some e)]) = entriesDue l ++ [entry] := by
  simp [entriesDue, eventsOf_took, h]

theorem Request.isOwn_note {r : Request} {a : r.Answer} {d : Note} (h : r.kind.isOwn = true)
    (hd : r.note? a = some d) : d.isOwn = true := by
  unfold Request.note? at hd
  split at hd
  · cases h
  · rename_i writer level text _
    cases hd
    cases level with
    | stdout | stderr => cases h
    | info | error => rfl
  · cases hd

theorem OfChild.took (h : OfChild child l) (e : Option ChildEvent) :
    OfChild child (l ++ [.took child e]) := by
  intro c e' hm
  rcases List.mem_append.1 hm with hm | hm
  · exact h c e' hm
  · cases List.mem_singleton.1 hm
    rfl

theorem OfChild.wrote (h : OfChild child l) (entry : OutputLog.Level × String) :
    OfChild child (l ++ [.wrote entry]) := by
  intro c e hm
  rcases List.mem_append.1 hm with hm | hm
  · exact h c e hm
  · cases List.mem_singleton.1 hm

theorem Relay.Passed.take {e : ChildEvent} {entry : OutputLog.Level × String}
    (h : (Relay.ready child).Passed l) (he : e.entry? = some entry) :
    (Relay.holding child entry).Passed (l ++ [.took child (some e)]) := by
  obtain ⟨heq, hno⟩ := h
  constructor
  · rw [entriesOf_took, entriesDue_took he, heq]
  · intro exit hm
    rw [eventsOf_took] at hm
    rcases List.mem_append.1 hm with hm | hm
    · exact hno exit hm
    · rw [← List.mem_singleton.1 hm] at he
      cases he

theorem Relay.Passed.write {entry : OutputLog.Level × String} (h : (Relay.holding child entry).Passed l) :
    (Relay.ready child).Passed (l ++ [.wrote entry]) := by
  obtain ⟨heq, hno⟩ := h
  constructor
  · rw [entriesOf_wrote, heq, entriesDue, entriesDue, eventsOf_wrote]
  · rw [eventsOf_wrote]
    exact hno

theorem Relay.Passed.exit (h : (Relay.ready child).Passed l) (exit : Exit) :
    (Relay.bereft child exit).Passed (l ++ [.took child (some (.exited exit))]) := by
  obtain ⟨heq, hno⟩ := h
  constructor
  · rw [entriesOf_took, heq, entriesDue, entriesDue, eventsOf_took, List.filterMap_append]
    exact (List.append_nil _).symm
  · exact .inl ⟨eventsOf l, eventsOf_took l child _⟩

theorem Relay.Passed.silence (h : (Relay.ready child).Passed l) :
    (Relay.bereft child {}).Passed (l ++ [.took child none]) := by
  obtain ⟨heq, hno⟩ := h
  constructor
  · rw [entriesOf_took, heq, entriesDue, entriesDue, eventsOf_silence]
  · refine .inr ⟨?_, List.mem_append_right l List.mem_cons_self⟩
    rw [eventsOf_silence]
    exact hno

theorem Relay.Passed.close {exit : Exit} (h : (Relay.bereft child exit).Passed l) :
    (Relay.closed child exit).Passed (l ++ [.wrote (exitEntry exit)]) := by
  obtain ⟨heq, hends⟩ := h
  constructor
  · rw [entriesOf_wrote, heq, entriesDue, entriesDue, eventsOf_wrote]
  · rw [Ends, eventsOf_wrote]
    exact hends.imp_right fun ⟨hno, hm⟩ => ⟨hno, List.mem_append_left _ hm⟩

theorem Relay.Kept.step {ρ : Role} {x y : Relay} {r : Request} {a : r.Answer} (h : x.Kept ρ l)
    (hP : PassOn x r a y) : y.Kept ρ (l ++ (r.note? a).toList) := by
  have other : x = .outside ∧ (∀ d ∈ l, d.isOwn = true) →
      y = .outside ∧ ∀ d ∈ l ++ (r.note? a).toList, d.isOwn = true := by
    rintro ⟨rfl, hown⟩
    cases hP with
    | outside hr =>
      refine ⟨rfl, fun d hd => ?_⟩
      rcases List.mem_append.1 hd with hd | hd
      · exact hown d hd
      · exact Request.isOwn_note hr (Option.mem_toList.1 hd)
    | aside _ hn =>
      rw [hn, Option.toList_none, List.append_nil]
      exact ⟨rfl, hown⟩
  cases ρ with
  | call c => exact other h
  | check => exact other h
  | observer child pid =>
    have unnoted : r.note? a = none → x.Kept (.observer child pid) (l ++ (r.note? a).toList) := by
      intro hn
      rw [hn, Option.toList_none, List.append_nil]
      exact h
    obtain ⟨hchild, hown, hpassed⟩ := h
    cases hP with
    | outside hr => cases hchild
    | aside _ hn => exact unnoted hn
    | settle => exact unnoted rfl
    | raise => exact unnoted rfl
    | take he =>
      cases hchild
      exact ⟨rfl, hown.took _, hpassed.take he⟩
    | write => exact ⟨hchild, hown.wrote _, hpassed.write⟩
    | exit =>
      cases hchild
      exact ⟨rfl, hown.took _, hpassed.exit _⟩
    | silence =>
      cases hchild
      exact ⟨rfl, hown.took _, hpassed.silence⟩
    | close => exact ⟨hchild, hown.wrote _, hpassed.close⟩

end Keeping

section Runs

variable {ε : Type} {env : Environment ε} {s : Service} {acts : List Act} {w : World ε} {i child pid : Nat}

theorem Run.passed (h : Run env s acts w) :
    ∃ phase, w.Follows PassOn (fun _ => True) phase ∧
      ∀ (i : Nat) (ρ : Role), (roles acts)[i]? = some ρ → (phase i).Kept ρ (notes i acts) := by
  have fresh : ∀ ρ : Role, ρ.relay.Kept ρ [] := by
    intro ρ
    cases ρ with
    | observer child pid => exact ⟨rfl, nofun, rfl, nofun⟩
    | _ => exact ⟨rfl, nofun⟩
  exact Run.chronicled (G := Relay.Kept) (Role.passes s) fresh (fun hG hP => hG.step hP) h

/-- Whoever takes an event of a child is its observer. -/
theorem Run.observer_of_took (h : Run env s acts w) {a : Option ChildEvent}
    (hm : .step i (.nextEvent child) a ∈ acts) : ∃ pid, (roles acts)[i]? = some (.observer child pid) := by
  obtain ⟨phase, -, hkept⟩ := h.passed
  obtain ⟨ρ, hi⟩ := h.exists_role hm
  have htook : .took child a ∈ notes i acts := mem_chronicle.2 ⟨_, _, hm, rfl⟩
  have hρ := hkept i ρ hi
  cases ρ with
  | observer c p =>
    obtain rfl := hρ.2.1 child a htook
    exact ⟨p, hi⟩
  | call c => cases hρ.2 _ htook
  | check => cases hρ.2 _ htook

/-- Whoever writes a line of a child is an observer. -/
theorem Run.observer_of_wrote (h : Run env s acts w) {writer : Writer} {level : OutputLog.Level}
    {text : String} (hm : .step i (.query (.write writer level text)) () ∈ acts)
    (hl : level = .stdout ∨ level = .stderr) :
    ∃ child pid, (roles acts)[i]? = some (.observer child pid) := by
  obtain ⟨phase, -, hkept⟩ := h.passed
  obtain ⟨ρ, hi⟩ := h.exists_role hm
  have hwrote : .wrote (level, text) ∈ notes i acts := mem_chronicle.2 ⟨_, _, hm, rfl⟩
  have hρ := hkept i ρ hi
  cases ρ with
  | observer c p => exact ⟨c, p, hi⟩
  | call c => rcases hl with rfl | rfl <;> cases hρ.2 _ hwrote
  | check => rcases hl with rfl | rfl <;> cases hρ.2 _ hwrote

end Runs

end Steward
