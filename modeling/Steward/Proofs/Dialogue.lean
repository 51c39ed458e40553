import Steward.Console
import Steward.Proofs.PromptRouting

/-!
# The dialogue and its lines

While lines and prompts come to the terminal, the dialogue takes commands from it and is told of changes, in
whatever order (`Held`). It has answered the commands that it has taken, each once and in their order. It
leaves at the first that asks it to, or when all are answered and no more can come, and deactivates as it
leaves.

That it comes to rest is `Settles`: changes apart, which leave everything as it is, whatever it is told next
brings it nearer to its end or to a terminal without commands.
-/

set_option autoImplicit false

namespace Steward.Console

open Terminal (Event Reflects Routed asks forwarded isClosed waiting)

/-- What the dialogue can be told, and how the terminal is left. Nobody interrupts. -/
inductive Offered (t : Terminal) : Phase → Input → Terminal → Prop where
  | line {text : String} {rest : List String} (next : t.commands = text :: rest) :
      Offered t .listening (.line text) { t with commands := rest }
  | closed (empty : t.commands = []) (ended : t.closed = true) : Offered t .listening .closed t
  | changed : Offered t .listening .changed t
  | activated (o : Outcome) : Offered t .activating (.finished o) t
  | executed (o : Outcome) : Offered t .executing (.finished o) t
  | deactivated (o : Outcome) : Offered t .deactivating (.finished o) t

/-- What the dialogue was told and what it did, earliest first. -/
abbrev Log := List (Input × List Action)

/-- A dialogue at a terminal to which events come, latest first. -/
inductive Held : List Event → Log → Terminal → Phase → Prop where
  | begin (partialLine : Text.Utf8.Bytes) (stdout stderr : List String) :
      Held [] [] { partialLine := partialLine, stdout := stdout, stderr := stderr } .activating
  | event {es : List Event} {log : Log} {t : Terminal} {p : Phase} (e : Event) (before : Held es log t p)
      (possible : e.Possible t) : Held (e :: es) log (e.apply t) p
  | told {es : List Event} {log : Log} {t t' : Terminal} {p : Phase} {i : Input} (state : Lifecycle.State)
      (published : List Definition) (before : Held es log t p) (offered : Offered t p i t') :
      Held es (log ++ [(i, (react state published p i).1)]) t' (react state published p i).2

/-! ## What it was told and what it did -/

def Input.line? : Input → Option String
  | .line text => some text
  | _ => none

def Action.call? : Action → Option Call
  | .call c => some c
  | _ => none

def callsIn (actions : List Action) : List Call := actions.filterMap Action.call?

/-- The commands that the dialogue has taken. -/
def linesOf (log : Log) : List String := log.filterMap (·.1.line?)

def callsOf (log : Log) : List Call := log.flatMap (callsIn ·.2)

/-- Whether a command asks the dialogue to leave. -/
def isQuit (text : String) : Bool := Text.trimmed text == "quit" || Text.trimmed text == "exit"

/-- The call that a command asks for. -/
def request? (text : String) : Option Call :=
  (ServerCommand.parse (Text.trimmed text)).toOption.map fun _ => .execute (Text.trimmed text)

/-- The commands that come before the first that asks to leave. -/
def handled (es : List Event) : List String := (forwarded es).takeWhile fun text => !isQuit text

def Phase.isLeaving : Phase → Bool
  | .deactivating => true
  | .over => true
  | _ => false

theorem linesOf_snoc (log : Log) (i : Input) (actions : List Action) :
    linesOf (log ++ [(i, actions)]) = linesOf log ++ i.line?.toList := by
  rw [linesOf, List.filterMap_append, ← linesOf]
  cases h : i.line? <;> simp [h]

theorem callsOf_snoc (log : Log) (i : Input) (actions : List Action) :
    callsOf (log ++ [(i, actions)]) = callsOf log ++ callsIn actions := by
  simp [callsOf]

theorem callsIn_print (texts : List String) : callsIn (texts.map .print) = [] := by
  simp [callsIn, Action.call?]

/-! ## One step -/

section Step

variable {state : Lifecycle.State} {published : List Definition} {text : String}

theorem answerLine_quit (h : isQuit text = true) :
    answerLine state text = ([.call .deactivate], .deactivating) := by
  rw [isQuit, Bool.or_eq_true, beq_iff_eq, beq_iff_eq] at h
  rcases h with h | h <;> simp only [answerLine, h]

/-- Words of the dialogue itself are no commands to the server. -/
theorem request?_eq_none (h : Text.trimmed text ∈ ["", "status"]) : request? text = none := by
  have hwords : ∀ word ∈ ["", "status"], ServerCommand.parse word = .error ⟨word⟩ := by
    intro word hword
    rcases List.mem_cons.1 hword with rfl | hword
    · rfl
    · obtain rfl := List.mem_singleton.1 hword
      rfl
  rw [request?, hwords _ h]
  rfl

theorem answerLine_stays (h : isQuit text = false) :
    callsIn (answerLine state text).1 = (request? text).toList ∧
      (answerLine state text).2 = if (request? text).isSome then .executing else .listening := by
  rw [isQuit, Bool.or_eq_false_iff, beq_eq_false_iff_ne, beq_eq_false_iff_ne] at h
  unfold answerLine
  split
  · rename_i hword
    rw [request?_eq_none (by simp [hword])]
    exact ⟨rfl, rfl⟩
  · rename_i hword
    exact absurd hword h.1
  · rename_i hword
    exact absurd hword h.2
  · rename_i hword
    rw [request?_eq_none (by simp [hword])]
    exact ⟨rfl, rfl⟩
  · cases hp : ServerCommand.parse (Text.trimmed text) with
    | ok c =>
      rw [request?, hp]
      exact ⟨rfl, rfl⟩
    | error unknown =>
      rw [request?, hp]
      exact ⟨rfl, rfl⟩

/-- What a command brings about. -/
inductive Reply (text : String) : List Action × Phase → Prop where
  | blank (word : Text.trimmed text = "") : Reply text ([], .listening)
  | quit (word : Text.trimmed text = "quit" ∨ Text.trimmed text = "exit") :
      Reply text ([.call .deactivate], .deactivating)
  | status (state : Lifecycle.State) (word : Text.trimmed text = "status") :
      Reply text ([.print state.status], .listening)
  | command (c : ServerCommand) (known : ServerCommand.parse (Text.trimmed text) = .ok c) :
      Reply text ([.call (.execute (Text.trimmed text))], .executing)
  | unknown (u : ServerCommand.Unknown) (other : Text.trimmed text ∉ ["", "quit", "exit", "status"])
      (unknown : ServerCommand.parse (Text.trimmed text) = .error u) :
      Reply text ([.print (u.failure.message ++ ". " ++ help)], .listening)

theorem answerLine_reply (state : Lifecycle.State) (text : String) : Reply text (answerLine state text) := by
  unfold answerLine
  split
  · exact .blank ‹_›
  · exact .quit (.inl ‹_›)
  · exact .quit (.inr ‹_›)
  · exact .status state ‹_›
  · split
    · exact .command _ ‹_›
    · refine .unknown _ ?_ ‹_›
      simp only [List.mem_cons, List.not_mem_nil, or_false, not_or]
      exact ⟨‹_›, ‹_›, ‹_›, ‹_›⟩

/-- What is new in the log after a step, and where the dialogue is then. -/
inductive Reaction (t t' : Terminal) : Phase → List String → List Call → Phase → Prop where
  | stay {text : String} {p' : Phase} (next : t.commands = text :: t'.commands)
      (stays : isQuit text = false) (phase : p'.isLeaving = false) :
      Reaction t t' .listening [text] (request? text).toList p'
  | quit {text : String} (next : t.commands = text :: t'.commands) (quits : isQuit text = true) :
      Reaction t t' .listening [text] [.deactivate] .deactivating
  | closed (empty : t.commands = []) (ended : t.closed = true) (same : t' = t) :
      Reaction t t' .listening [] [.deactivate] .deactivating
  | silent {p p' : Phase} (same : t' = t) (phase : p'.isLeaving = p.isLeaving) : Reaction t t' p [] [] p'

theorem Offered.reaction {t t' : Terminal} {p : Phase} {i : Input} (h : Offered t p i t') :
    Reaction t t' p i.line?.toList (callsIn (react state published p i).1) (react state published p i).2 := by
  cases h with
  | @line text rest next =>
    cases hq : isQuit text with
    | true =>
      have hreact : react state published .listening (.line text) = ([.call .deactivate], .deactivating) :=
        answerLine_quit hq
      rw [hreact]
      exact .quit next hq
    | false =>
      obtain ⟨hcalls, hphase⟩ := @answerLine_stays state text hq
      have hreact : react state published .listening (.line text) = answerLine state text := rfl
      rw [hreact, hcalls]
      refine .stay next hq ?_
      rw [hphase]
      split <;> rfl
  | closed empty ended => exact .closed empty ended rfl
  | changed =>
    have hcalls : callsIn (react state published .listening .changed).1 = [] := callsIn_print _
    rw [hcalls]
    exact .silent rfl rfl
  | activated o =>
    have hcalls : callsIn (react state published .activating (.finished o)).1 = [] := callsIn_print _
    rw [hcalls]
    exact .silent rfl rfl
  | executed o => exact .silent rfl rfl
  | deactivated o => exact .silent rfl rfl

end Step

/-! ## Coming to rest -/

/-- The dialogue is over or has nothing to do, now or after whatever it is told next. Changes do not count:
they leave terminal and phase as they are. -/
inductive Settles : Terminal → Phase → Prop where
  | over (t : Terminal) : Settles t .over
  | idle {t : Terminal} (empty : t.commands = []) (more : t.closed = false) : Settles t .listening
  | next {t : Terminal} {p : Phase} (some : ∃ i t', Offered t p i t' ∧ i ≠ .changed)
      (all : ∀ i t' state published, Offered t p i t' → i ≠ .changed →
        Settles t' (react state published p i).2) : Settles t p

/-- How many steps are left at most. -/
def remaining (t : Terminal) : Phase → Nat
  | .checking => 0
  | .activating => 2 * t.commands.length + 4
  | .listening => 2 * t.commands.length + 3
  | .executing => 2 * t.commands.length + 4
  | .deactivating => 1
  | .over => 0

theorem Offered.remaining_lt {t t' : Terminal} {p : Phase} {i : Input} (h : Offered t p i t')
    (hi : i ≠ .changed) (state : Lifecycle.State) (published : List Definition) :
    remaining t' (react state published p i).2 < remaining t p := by
  cases h with
  | @line text rest next =>
    show remaining _ (answerLine state text).2 < 2 * t.commands.length + 3
    rw [next, List.length_cons]
    cases hq : isQuit text with
    | true =>
      rw [answerLine_quit hq]
      simp only [remaining]
      omega
    | false =>
      rw [(answerLine_stays hq).2]
      split <;> simp only [remaining] <;> omega
  | closed empty ended =>
    show 1 < 2 * t.commands.length + 3
    omega
  | changed => exact absurd rfl hi
  | activated o => exact Nat.lt_succ_self _
  | executed o => exact Nat.lt_succ_self _
  | deactivated o => exact Nat.lt_succ_self _

theorem Offered.ne_checking {t t' : Terminal} {p : Phase} {i : Input} (h : Offered t p i t')
    (state : Lifecycle.State) (published : List Definition) :
    (react state published p i).2 ≠ .checking := by
  cases h with
  | @line text rest next =>
    show (answerLine state text).2 ≠ .checking
    cases hq : isQuit text with
    | true =>
      rw [answerLine_quit hq]
      nofun
    | false =>
      rw [(answerLine_stays hq).2]
      split <;> nofun
  | _ => nofun

theorem settles (t : Terminal) {p : Phase} (hp : p ≠ .checking) : Settles t p := by
  induction hn : remaining t p using Nat.strongRecOn generalizing t p with
  | ind n ih =>
    have hall : ∀ i t' state published, Offered t p i t' → i ≠ .changed →
        Settles t' (react state published p i).2 := by
      intro i t' state published offered hi
      have hlt := offered.remaining_lt hi state published
      exact ih _ (hn ▸ hlt) t' (offered.ne_checking state published) rfl
    cases p with
    | checking => exact absurd rfl hp
    | activating => exact .next ⟨_, _, .activated .nothing, nofun⟩ hall
    | executing => exact .next ⟨_, _, .executed .nothing, nofun⟩ hall
    | deactivating => exact .next ⟨_, _, .deactivated .nothing, nofun⟩ hall
    | listening =>
      cases hc : t.commands with
      | cons text rest => exact .next ⟨_, _, .line hc, nofun⟩ hall
      | nil =>
        cases hclosed : t.closed with
        | true => exact .next ⟨_, _, .closed hc hclosed, nofun⟩ hall
        | false => exact .idle hc hclosed
    | _ => exact .over t

/-! ## The whole dialogue -/

/-- How the commands that were taken have been answered. -/
structure Answered (es : List Event) (log : Log) (p : Phase) : Prop where
  /-- as long as the dialogue listens, each that was taken is answered and none asks to leave -/
  going : p.isLeaving = false →
    linesOf log <+: handled es ∧ callsOf log = (linesOf log).filterMap request?
  /-- it leaves at one that asks to, or because no more can come -/
  left : p.isLeaving = true →
    (∃ text, isQuit text = true ∧ linesOf log = handled es ++ [text]) ∨
      linesOf log = handled es ∧ handled es = forwarded es ∧ isClosed es = true
  /-- and then it has answered all before that, and deactivates once -/
  calls : p.isLeaving = true → callsOf log = (handled es).filterMap request? ++ [.deactivate]

section Handled

variable {es : List Event} {lines rest : List String}

/-- If those that were taken are none that asks to leave, all else depends on the others. -/
theorem handled_eq (hc : lines ++ rest = forwarded es) (hl : lines <+: handled es) :
    handled es = lines ++ rest.takeWhile fun text => !isQuit text := by
  rw [handled, ← hc, List.takeWhile_append_of_pos]
  intro text htext
  exact List.all_eq_true.1 List.all_takeWhile text (hl.subset htext)

theorem handled_prefix_line (text : List Char) (es : List Event) :
    handled es <+: handled (.line text :: es) := by
  rw [handled, handled, Terminal.forwarded_line, List.takeWhile_append]
  split
  · exact (List.takeWhile_prefix _).trans (List.prefix_append ..)
  · exact List.prefix_rfl

theorem handled_line_of_quit {quit : String} (hc : handled es ++ [quit] <+: forwarded es)
    (text : List Char) : handled (.line text :: es) = handled es := by
  rw [handled, Terminal.forwarded_line, List.takeWhile_append, if_neg]
  · rfl
  · have hlength := hc.length_le
    rw [List.length_append, List.length_singleton] at hlength
    exact Nat.ne_of_lt hlength

end Handled

namespace Answered

variable {es : List Event} {log : Log} {p p' : Phase} {t t' : Terminal}

theorem start : Answered [] [] .activating where
  going _ := ⟨List.nil_prefix, rfl⟩
  left := nofun
  calls := nofun

theorem of_forwarded_eq (h : Answered es log p) {e : Event} (hf : forwarded (e :: es) = forwarded es)
    (hc : isClosed es = true → isClosed (e :: es) = true) : Answered (e :: es) log p := by
  have hhandled : handled (e :: es) = handled es := by rw [handled, hf, handled]
  refine ⟨?_, ?_, ?_⟩
  · rw [hhandled]
    exact h.going
  · rw [hhandled, hf]
    intro hp
    rcases h.left hp with hquit | ⟨htaken, hall, hclosed⟩
    · exact .inl hquit
    · exact .inr ⟨htaken, hall, hc hclosed⟩
  · rw [hhandled]
    exact h.calls

/-- A line that comes after the dialogue has left is nothing to it. -/
theorem handled_line (h : Answered es log p) (hr : Reflects es (linesOf log) t)
    (hopen : isClosed es = false) (hp : p.isLeaving = true) (text : List Char) :
    handled (.line text :: es) = handled es := by
  rcases h.left hp with ⟨quit, -, htaken⟩ | ⟨-, -, hclosed⟩
  · have hfront : handled es ++ [quit] <+: forwarded es := by
      rw [← htaken, ← hr.commands]
      exact List.prefix_append ..
    exact handled_line_of_quit hfront text
  · rw [hopen] at hclosed
    cases hclosed

theorem line (h : Answered es log p) (hr : Reflects es (linesOf log) t) (hopen : isClosed es = false)
    (text : List Char) : Answered (.line text :: es) log p where
  going hp := ⟨(h.going hp).1.trans (handled_prefix_line text es), (h.going hp).2⟩
  left hp := by
    rw [h.handled_line hr hopen hp]
    rcases h.left hp with hquit | ⟨-, -, hclosed⟩
    · exact .inl hquit
    · rw [hopen] at hclosed
      cases hclosed
  calls hp := by
    rw [h.handled_line hr hopen hp]
    exact h.calls hp

theorem event (h : Answered es log p) (hr : Reflects es (linesOf log) t) {e : Event}
    (he : e.Possible t) : Answered (e :: es) log p := by
  cases e with
  | line text => exact h.line hr (hr.closed.symm.trans he) text
  | ask severity text choices => exact h.of_forwarded_eq rfl id
  | drop j => exact h.of_forwarded_eq rfl id
  | close => exact h.of_forwarded_eq rfl fun _ => rfl
  | aside partialLine stdout stderr => exact h.of_forwarded_eq rfl id

theorem reaction (h : Answered es log p) (hr : Reflects es (linesOf log) t) {i : Input}
    {actions : List Action} (hreact : Reaction t t' p i.line?.toList (callsIn actions) p') :
    Answered es (log ++ [(i, actions)]) p' := by
  have hlines := linesOf_snoc log i actions
  have hcalls := callsOf_snoc log i actions
  generalize i.line?.toList = lines at hreact hlines
  generalize callsIn actions = calls at hreact hcalls
  cases hreact with
  | @stay text p' next stays phase =>
    obtain ⟨hfront, hso⟩ := h.going rfl
    have hhandled := handled_eq (next ▸ hr.commands) hfront
    rw [List.takeWhile_cons_of_pos (by rw [stays]; rfl)] at hhandled
    refine ⟨fun _ => ⟨?_, ?_⟩, ?_, ?_⟩
    · rw [hlines, hhandled]
      exact ⟨_, List.append_assoc ..⟩
    · rw [hlines, hcalls, hso, List.filterMap_append]
      cases hq : request? text <;> simp [hq]
    · rw [phase]
      nofun
    · rw [phase]
      nofun
  | @quit text next quits =>
    obtain ⟨hfront, hso⟩ := h.going rfl
    have hhandled := handled_eq (next ▸ hr.commands) hfront
    rw [List.takeWhile_cons_of_neg (by rw [quits]; nofun), List.append_nil] at hhandled
    refine ⟨nofun, fun _ => .inl ⟨text, quits, ?_⟩, fun _ => ?_⟩
    · rw [hlines, hhandled]
    · rw [hcalls, hhandled, hso]
  | closed empty ended same =>
    obtain ⟨hfront, hso⟩ := h.going rfl
    have htaken : linesOf log ++ [] = forwarded es := empty ▸ hr.commands
    have hhandled : handled es = linesOf log ++ [] := handled_eq htaken hfront
    refine ⟨nofun, fun _ => .inr ⟨?_, ?_, ?_⟩, fun _ => ?_⟩
    · rw [hlines, hhandled]
    · rw [hhandled, htaken]
    · exact hr.closed.symm.trans ended
    · rw [hcalls, hhandled, hso, List.append_nil]
  | silent same phase =>
    rw [List.append_nil] at hlines hcalls
    refine ⟨?_, ?_, ?_⟩
    · rw [phase, hlines, hcalls]
      exact h.going
    · rw [phase, hlines]
      exact h.left
    · rw [phase, hcalls]
      exact h.calls

end Answered

namespace Held

variable {es : List Event} {log : Log} {t : Terminal} {p : Phase}

theorem reflects (h : Held es log t p) : Reflects es (linesOf log) t := by
  induction h with
  | begin partialLine stdout stderr => exact Reflects.start partialLine stdout stderr
  | event e _ _ ih => exact ih.apply e
  | told state published _ offered ih =>
    rw [linesOf_snoc]
    cases offered with
    | line next => exact ih.take next
    | _ => simpa [Input.line?] using ih

theorem answered (h : Held es log t p) : Answered es log p := by
  induction h with
  | begin _ _ _ => exact .start
  | event e before possible ih => exact ih.event before.reflects possible
  | told state published before offered ih => exact ih.reaction before.reflects offered.reaction

theorem ne_checking (h : Held es log t p) : p ≠ .checking := by
  induction h with
  | begin _ _ _ => nofun
  | event _ _ _ ih => exact ih
  | told state published _ offered _ => exact offered.ne_checking state published

theorem replies (h : Held es log t p) {text : String} {actions : List Action}
    (hm : (.line text, actions) ∈ log) : ∃ next, Reply text (actions, next) := by
  induction h with
  | begin _ _ _ => cases hm
  | event _ _ _ ih => exact ih hm
  | told state published _ offered ih =>
    rcases List.mem_append.1 hm with hm | hm
    · exact ih hm
    · obtain ⟨rfl, rfl⟩ := Prod.mk.inj (List.mem_singleton.1 hm)
      cases offered
      exact ⟨_, answerLine_reply state text⟩

/-- Every line goes to one place and comes there once: to the prompt that was opened last, if that still
waits for it, and else to the dialogue, which answers all up to the first that asks it to leave or up to the
last, and then deactivates. -/
theorem lines_accounted (h : Held es log t p) :
    (∀ k, waiting es = some k ↔ ∃ since severity text choices before,
      es = since ++ .ask severity text choices :: before ∧ asks before = k ∧ isClosed before = false ∧
        ∀ e ∈ since, e.leaves k) ∧
    Routed es (linesOf log) t ∧
    Answered es log p ∧
    (∀ text actions, (.line text, actions) ∈ log → ∃ next, Reply text (actions, next)) ∧
    Settles t p ∧
    ∀ t' state published, Offered t p .changed t' → t' = t ∧ (react state published p .changed).2 = p := by
  refine ⟨fun k => Terminal.waiting_eq_some, h.reflects.routed, h.answered, fun _ _ hm => h.replies hm,
    settles t h.ne_checking, ?_⟩
  intro t' state published offered
  cases offered
  exact ⟨rfl, rfl⟩

end Held

/-! ## An exchange -/

/-- What comes next: to the terminal, or to the dialogue. -/
inductive Cue where
  | event (e : Event)
  | input (i : Input)

instance (t : Terminal) : (e : Event) → Decidable (e.Possible t)
  | .line _ => inferInstanceAs (Decidable (_ = _))
  | .ask .. => .isTrue trivial
  | .drop _ => .isTrue trivial
  | .close => .isTrue trivial
  | .aside .. => .isTrue trivial

/-- How the terminal is left, if that can be told. -/
def offer? (t : Terminal) : Phase → Input → Option Terminal
  | .listening, .line text =>
    match t.commands with
    | next :: rest => if next = text then some { t with commands := rest } else none
    | [] => none
  | .listening, .closed => if t.commands = [] ∧ t.closed = true then some t else none
  | .listening, .changed => some t
  | .activating, .finished _ => some t
  | .executing, .finished _ => some t
  | .deactivating, .finished _ => some t
  | _, _ => none

theorem offered_offer? {t t' : Terminal} {p : Phase} {i : Input} (h : offer? t p i = some t') :
    Offered t p i t' := by
  unfold offer? at h
  split at h
  · split at h
    · rename_i hc
      split at h
      · rename_i heq
        cases h
        exact .line (heq ▸ hc)
      · cases h
    · cases h
  · split at h
    · rename_i hc
      cases h
      exact .closed hc.1 hc.2
    · cases h
  · cases h
    exact .changed
  · cases h
    exact .activated _
  · cases h
    exact .executed _
  · cases h
    exact .deactivated _
  · cases h

/-- All of them in a row, with a server that is stopped. -/
def exchange (es : List Event) (log : Log) (t : Terminal) (p : Phase) :
    List Cue → Option (List Event × Log × Terminal × Phase)
  | [] => some (es, log, t, p)
  | .event e :: cues => if e.Possible t then exchange (e :: es) log (e.apply t) p cues else none
  | .input i :: cues =>
    match offer? t p i with
    | none => none
    | some t' =>
      exchange es (log ++ [(i, (react .stopped [] p i).1)]) t' (react .stopped [] p i).2 cues

theorem held_exchange {es es' : List Event} {log log' : Log} {t t' : Terminal} {p p' : Phase}
    {cues : List Cue} (h : Held es log t p) (hx : exchange es log t p cues = some (es', log', t', p')) :
    Held es' log' t' p' := by
  induction cues generalizing es log t p with
  | nil =>
    cases hx
    exact h
  | cons cue cues ih =>
    cases cue with
    | event e =>
      rw [exchange] at hx
      split at hx
      · rename_i possible
        exact ih (.event e h possible) hx
      · cases hx
    | input i =>
      rw [exchange] at hx
      split at hx
      · cases hx
      · rename_i t₁ hoffer
        exact ih (.told .stopped [] h (offered_offer? hoffer)) hx

/-- Two prompts that overlap, one that is dropped, and a line after the last command. -/
def chat : List Cue :=
  [.event (.line "status".toList), .event (.ask .info "Install?" ["Install"]),
    .event (.ask .info "Update?" ["Update"]), .event (.line "y".toList),
    .event (.ask .warning "Again?" ["Yes"]), .input (.finished .nothing), .input (.line "status"),
    .input .changed, .event (.drop 2), .event (.line " stop ".toList), .input (.line " stop "),
    .event (.line "quit".toList), .event (.line "start".toList), .input (.finished .nothing),
    .input (.line "quit"), .event .close, .input (.finished .nothing)]

/-- What `chat` comes to. -/
def chatted : List Event × Log × Terminal × Phase :=
  (exchange [] [] {} .activating chat).getD ([], [], {}, .activating)

theorem held_chatted : Held chatted.1 chatted.2.1 chatted.2.2.1 chatted.2.2.2 := by
  unfold chatted
  cases h : exchange [] [] {} .activating chat with
  | none => exact .begin [] [] []
  | some x => exact held_exchange (.begin [] [] []) h

/-- The second prompt dismisses the first and gets its line; the line after a prompt that was dropped is a
command, and the one after `quit` is left alone. -/
theorem overlapping_prompts_accounted : ∃ es log t, Held es log t .over ∧
    forwarded es = ["status", " stop ", "quit", "start"] ∧
    linesOf log = ["status", " stop ", "quit"] ∧
    callsOf log = [.execute "stop", .deactivate] ∧
    t.reply? 0 = some none ∧ t.reply? 1 = some (some "Update") ∧ t.reply? 2 = none := by
  have h := held_chatted
  obtain ⟨hover, hforwarded, hhandled, hlines, hgiven, hchoices, hfirst, hthird⟩ :
      chatted.2.2.2 = .over ∧
      forwarded chatted.1 = ["status", " stop ", "quit", "start"] ∧
      handled chatted.1 = ["status", " stop "] ∧
      linesOf chatted.2.1 = ["status", " stop ", "quit"] ∧
      Terminal.given 1 chatted.1 = ["y"] ∧
      Terminal.choicesOf 1 chatted.1 = ["Update"] ∧
      chatted.2.2.1.reply? 0 = some none ∧
      chatted.2.2.1.reply? 2 = none := by
    decide +kernel
  rw [hover] at h
  obtain ⟨-, routed, answered, -⟩ := Held.lines_accounted h
  refine ⟨_, _, _, h, hforwarded, hlines, ?_, hfirst, ?_, hthird⟩
  · rw [answered.calls rfl, hhandled]
    decide +kernel
  · rw [routed.answered 1 "y" (by rw [hgiven]; exact List.mem_singleton_self _), hchoices]
    decide +kernel

end Steward.Console
