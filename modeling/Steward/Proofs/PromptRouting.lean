import Steward.Terminal

/-!
# Where a line goes

Lines, prompts, callers that give up and the end of the input come to a terminal in any order. Where a line
goes is a matter of what came before it: `waiting` looks back for the prompt that was opened last and asks
whether a line, the end of the input or its caller's leave has come since. If not, the line is the answer to
that prompt, and otherwise it is a command.

`Reflects` compares a terminal with what came to it. Of a prompt it knows the `fate`, which is a matter of
the past as well.
-/

set_option autoImplicit false

namespace Steward.Terminal

/-- What comes to a terminal. -/
inductive Event where
  | line (text : List Char)
  | ask (severity : Severity) (text : String) (choices : List String)
  | drop (ticket : Nat)
  | close
  /-- output is shown, or a line that is not complete is kept -/
  | aside (partialLine : Text.Utf8.Bytes) (stdout stderr : List String)

def Event.apply (t : Terminal) : Event → Terminal
  | .line text => t.takeLine text
  | .ask severity text choices => (t.openPrompt severity text choices).2
  | .drop ticket => t.dropPrompt ticket
  | .close => t.closeInput
  | .aside partialLine stdout stderr =>
    { t with partialLine := partialLine, stdout := stdout, stderr := stderr }

/-! ## Looking back -/

section Past

/-- How many prompts there were. In these lists the latest event comes first. -/
def asks : List Event → Nat
  | [] => 0
  | .ask .. :: es => asks es + 1
  | .line _ :: es => asks es
  | .drop _ :: es => asks es
  | .close :: es => asks es
  | .aside .. :: es => asks es

def isClosed : List Event → Bool
  | [] => false
  | .close :: _ => true
  | .ask .. :: es => isClosed es
  | .line _ :: es => isClosed es
  | .drop _ :: es => isClosed es
  | .aside .. :: es => isClosed es

/-- The choices of a prompt. -/
def choicesOf (k : Nat) : List Event → List String
  | [] => []
  | .ask _ _ choices :: es => if asks es = k then choices else choicesOf k es
  | .line _ :: es => choicesOf k es
  | .drop _ :: es => choicesOf k es
  | .close :: es => choicesOf k es
  | .aside .. :: es => choicesOf k es

/-- The prompt that the next line answers. -/
def waiting : List Event → Option Nat
  | [] => none
  | .line _ :: _ => none
  | .ask .. :: es => if isClosed es then none else some (asks es)
  | .drop k :: es => (waiting es).filter (· ≠ k)
  | .close :: _ => none
  | .aside .. :: es => waiting es

/-- All lines in their order, each with the prompt that it answers or with none. -/
def places : List Event → List (String × Option Nat)
  | [] => []
  | .line text :: es => places es ++ [(String.ofList text, waiting es)]
  | .ask .. :: es => places es
  | .drop _ :: es => places es
  | .close :: es => places es
  | .aside .. :: es => places es

/-- The lines that are commands. -/
def forwarded (es : List Event) : List String :=
  (places es).filterMap fun place => if place.2 = none then some place.1 else none

/-- The lines that answer a prompt. -/
def given (k : Nat) (es : List Event) : List String :=
  (places es).filterMap fun place => if place.2 = some k then some place.1 else none

/-- What has become of a prompt. -/
def fate (k : Nat) : List Event → Option Prompt
  | [] => none
  | .line text :: es =>
    if waiting es = some k then some (.ended (Choice.pick (String.ofList text) (choicesOf k es)))
    else fate k es
  | .ask _ _ choices :: es =>
    if asks es = k then some (if isClosed es then .ended none else .waiting choices)
    else if waiting es = some k then some (.ended none)
    else fate k es
  | .drop j :: es => if waiting es = some k ∧ j = k then some .dropped else fate k es
  | .close :: es => if waiting es = some k then some (.ended none) else fate k es
  | .aside .. :: es => fate k es

/-- Whether an event leaves a prompt as it is. -/
def Event.leaves (k : Nat) : Event → Prop
  | .drop j => j ≠ k
  | .aside .. => True
  | _ => False

end Past

variable {es : List Event} {k : Nat}

/-- A prompt that was just opened waits, if there is input. -/
theorem waiting_ask {severity : Severity} {text : String} {choices : List String} :
    waiting (.ask severity text choices :: es) = some k ↔ isClosed es = false ∧ asks es = k := by
  rw [waiting]
  split
  · simp [*]
  · simp [*]

/-- A prompt waits if it was opened while there was input, and since then no line, no other prompt and no
end of the input has come, and its caller has not left. -/
theorem waiting_eq_some : waiting es = some k ↔ ∃ since severity text choices before,
    es = since ++ .ask severity text choices :: before ∧ asks before = k ∧ isClosed before = false ∧
      ∀ e ∈ since, e.leaves k := by
  constructor
  · intro h
    induction es with
    | nil => cases h
    | cons e es ih =>
      cases e with
      | line text => cases h
      | close => cases h
      | ask severity text choices =>
        obtain ⟨hopen, hk⟩ := waiting_ask.1 h
        exact ⟨[], severity, text, choices, es, rfl, hk, hopen, nofun⟩
      | drop j =>
        rw [waiting, Option.filter_eq_some_iff] at h
        obtain ⟨since, severity, text, choices, before, rfl, hk, hopen, hsince⟩ := ih h.1
        refine ⟨.drop j :: since, severity, text, choices, before, rfl, hk, hopen, fun e he => ?_⟩
        rcases List.mem_cons.1 he with rfl | he
        · exact fun hj => of_decide_eq_true h.2 hj.symm
        · exact hsince e he
      | aside partialLine stdout stderr =>
        obtain ⟨since, severity, text, choices, before, rfl, hk, hopen, hsince⟩ := ih h
        refine ⟨.aside partialLine stdout stderr :: since, severity, text, choices, before, rfl, hk, hopen,
          fun e he => ?_⟩
        rcases List.mem_cons.1 he with rfl | he
        · trivial
        · exact hsince e he
  · rintro ⟨since, severity, text, choices, before, rfl, hk, hopen, hsince⟩
    induction since with
    | nil => exact waiting_ask.2 ⟨hopen, hk⟩
    | cons e since ih =>
      have hrest := ih fun e' he' => hsince e' (List.mem_cons_of_mem _ he')
      have he := hsince e List.mem_cons_self
      cases e with
      | drop j =>
        rw [List.cons_append, waiting, hrest, Option.filter_some, if_pos (decide_eq_true (Ne.symm he))]
      | aside partialLine stdout stderr => exact hrest
      | _ => exact he.elim

theorem waiting_lt (h : waiting es = some k) : k < asks es := by
  induction es with
  | nil => cases h
  | cons e es ih =>
    cases e with
    | line text => cases h
    | close => cases h
    | ask severity text choices =>
      obtain ⟨-, rfl⟩ := waiting_ask.1 h
      exact Nat.lt_succ_self _
    | drop j =>
      rw [waiting, Option.filter_eq_some_iff] at h
      exact ih h.1
    | aside partialLine stdout stderr => exact ih h

theorem waiting_of_closed (h : isClosed es = true) : waiting es = none := by
  induction es with
  | nil => rfl
  | cons e es ih =>
    cases e with
    | line text => rfl
    | close => rfl
    | ask severity text choices =>
      have hes : isClosed es = true := h
      rw [waiting, hes]
      rfl
    | drop j =>
      rw [waiting, ih h]
      rfl
    | aside partialLine stdout stderr => exact ih h

/-! ## Lines and prompts -/

theorem given_line (k : Nat) (text : List Char) (es : List Event) :
    given k (.line text :: es) =
      given k es ++ if waiting es = some k then [String.ofList text] else [] := by
  rw [given, places, List.filterMap_append, ← given]
  congr 1
  split <;> simp [*]

theorem forwarded_line (text : List Char) (es : List Event) :
    forwarded (.line text :: es) =
      forwarded es ++ if waiting es = none then [String.ofList text] else [] := by
  rw [forwarded, places, List.filterMap_append, ← forwarded]
  congr 1
  split <;> simp [*]

/-- A prompt that is not opened yet has no answer. -/
theorem given_eq_nil_of_le (h : asks es ≤ k) : given k es = [] := by
  induction es with
  | nil => rfl
  | cons e es ih =>
    cases e with
    | line text =>
      rw [given_line, ih h]
      split
      · rename_i hk
        exact absurd (waiting_lt hk) (Nat.not_lt.2 h)
      · rfl
    | ask severity text choices => exact ih (Nat.le_of_succ_le h)
    | drop j => exact ih h
    | close => exact ih h
    | aside partialLine stdout stderr => exact ih h

/-- A prompt that waits has no answer. -/
theorem given_eq_nil_of_waiting (h : waiting es = some k) : given k es = [] := by
  induction es with
  | nil => rfl
  | cons e es ih =>
    cases e with
    | line text => cases h
    | close => cases h
    | ask severity text choices =>
      show given k es = []
      exact given_eq_nil_of_le (Nat.le_of_eq (waiting_ask.1 h).2)
    | drop j =>
      rw [waiting, Option.filter_eq_some_iff] at h
      exact ih h.1
    | aside partialLine stdout stderr => exact ih h

theorem given_length_le (k : Nat) (es : List Event) : (given k es).length ≤ 1 := by
  induction es with
  | nil => exact Nat.zero_le 1
  | cons e es ih =>
    cases e with
    | line text =>
      rw [given_line]
      split
      · rename_i hk
        rw [given_eq_nil_of_waiting hk]
        exact Nat.le_refl 1
      · rw [List.append_nil]
        exact ih
    | _ => exact ih

/-! ## Fates -/

theorem fate_eq_waiting {choices : List String} :
    fate k es = some (.waiting choices) ↔ waiting es = some k ∧ choicesOf k es = choices := by
  induction es with
  | nil => simp [fate, waiting]
  | cons e es ih =>
    cases e with
    | line text =>
      rw [fate, waiting]
      split <;> simp_all
    | close =>
      rw [fate, waiting]
      split <;> simp_all
    | ask severity text choices' =>
      rw [fate, waiting, choicesOf]
      by_cases hk : asks es = k
      · cases hopen : isClosed es <;> simp [hk]
      · have hother : (if isClosed es then none else some (asks es)) ≠ some k := by
          split
          · nofun
          · exact fun he => hk (Option.some.inj he)
        rw [if_neg hk]
        by_cases hw : waiting es = some k
        · simp [hw, hother]
        · simp [hw, hother, ih]
    | drop j =>
      rw [fate, waiting, choicesOf, Option.filter_eq_some_iff]
      by_cases hj : j = k
      · subst hj
        by_cases hw : waiting es = some j
        · simp [hw]
        · simp [hw, ih]
      · simp [hj, Ne.symm hj, ih]
    | aside partialLine stdout stderr => exact ih

theorem fate_isSome : (fate k es).isSome = true ↔ k < asks es := by
  induction es with
  | nil => simp [fate, asks]
  | cons e es ih =>
    -- a prompt that waits is one that was opened
    have opened : waiting es = some k → k < asks es := waiting_lt
    cases e with
    | line text =>
      rw [fate, asks]
      split <;> simp_all
    | close =>
      rw [fate, asks]
      split <;> simp_all
    | ask severity text choices =>
      rw [fate, asks]
      split
      · simp_all
      · split
        · rename_i hw
          have := opened hw
          simp
          omega
        · rw [ih]
          omega
    | drop j =>
      rw [fate, asks]
      split
      · rename_i hw
        simpa using opened hw.1
      · exact ih
    | aside partialLine stdout stderr => exact ih

theorem fate_of_given {x : String} (h : x ∈ given k es) :
    fate k es = some (.ended (Choice.pick x (choicesOf k es))) := by
  induction es with
  | nil => cases h
  | cons e es ih =>
    have unasked : waiting es = some k → x ∉ given k es := by
      intro hw
      rw [given_eq_nil_of_waiting hw]
      nofun
    cases e with
    | line text =>
      rw [given_line] at h
      rw [fate, choicesOf]
      split
      · rename_i hw
        rw [given_eq_nil_of_waiting hw, if_pos hw] at h
        rw [List.mem_singleton.1 h]
      · rename_i hw
        rw [if_neg hw, List.append_nil] at h
        exact ih h
    | ask severity text choices =>
      have h : x ∈ given k es := h
      have hne : asks es ≠ k := by
        rintro rfl
        rw [given_eq_nil_of_le (Nat.le_refl _)] at h
        cases h
      rw [fate, choicesOf, if_neg hne, if_neg hne, if_neg fun hw => unasked hw h]
      exact ih h
    | drop j =>
      rw [fate, if_neg fun hw => unasked hw.1 h]
      exact ih h
    | close =>
      rw [fate, if_neg fun hw => unasked hw h]
      exact ih h
    | aside partialLine stdout stderr => exact ih h

/-- A prompt that ends without a line ends without a choice. -/
theorem eq_none_of_not_given {choice : Option String} (h : given k es = [])
    (hf : fate k es = some (.ended choice)) : choice = none := by
  induction es with
  | nil => cases hf
  | cons e es ih =>
    cases e with
    | line text =>
      rw [given_line, List.append_eq_nil_iff] at h
      rw [fate] at hf
      split at hf
      · rename_i hw
        rw [if_pos hw] at h
        cases h.2
      · exact ih h.1 hf
    | ask severity text choices =>
      rw [fate] at hf
      split at hf
      · cases hopen : isClosed es with
        | true =>
          rw [hopen] at hf
          cases hf
          rfl
        | false =>
          rw [hopen] at hf
          cases hf
      · split at hf
        · cases hf
          rfl
        · exact ih h hf
    | drop j =>
      rw [fate] at hf
      split at hf
      · cases hf
      · exact ih h hf
    | close =>
      rw [fate] at hf
      split at hf
      · cases hf
        rfl
      · exact ih h hf
    | aside partialLine stdout stderr => exact ih h hf

theorem mem_of_fate_dropped (h : fate k es = some .dropped) : .drop k ∈ es := by
  induction es with
  | nil => cases h
  | cons e es ih =>
    cases e with
    | line text =>
      rw [fate] at h
      split at h
      · cases h
      · exact List.mem_cons_of_mem _ (ih h)
    | ask severity text choices =>
      rw [fate] at h
      split at h
      · cases hopen : isClosed es <;> rw [hopen] at h <;> cases h
      · split at h
        · cases h
        · exact List.mem_cons_of_mem _ (ih h)
    | drop j =>
      rw [fate] at h
      split at h
      · rename_i hw
        rw [hw.2]
        exact List.mem_cons_self
      · exact List.mem_cons_of_mem _ (ih h)
    | close =>
      rw [fate] at h
      split at h
      · cases h
      · exact List.mem_cons_of_mem _ (ih h)
    | aside partialLine stdout stderr => exact List.mem_cons_of_mem _ (ih h)

/-! ## A terminal and its past -/

/-- The terminal is as its past has it, if `taken` are the commands that were taken from it. -/
structure Reflects (es : List Event) (taken : List String) (t : Terminal) : Prop where
  asking : t.assumeYes = false
  heard : t.hasReceiver = true
  closed : t.closed = isClosed es
  length : t.prompts.length = asks es
  prompts : ∀ k, t.prompts[k]? = fate k es
  slot : ∀ k, waiting es = some k → t.pending = some k
  commands : taken ++ t.commands = forwarded es

theorem Prompt.finish_eq_self {p : Prompt} (h : ∀ choices, p ≠ .waiting choices)
    (choice : List String → Option String) : p.finish choice = p := by
  cases p with
  | waiting choices => exact absurd rfl (h choices)
  | _ => rfl

theorem Prompt.drop_eq_self {p : Prompt} (h : ∀ choices, p ≠ .waiting choices) : p.drop = p := by
  cases p with
  | waiting choices => exact absurd rfl (h choices)
  | _ => rfl

@[simp] theorem dismissPending_assumeYes (t : Terminal) : t.dismissPending.assumeYes = t.assumeYes := by
  unfold dismissPending
  split <;> rfl

@[simp] theorem dismissPending_hasReceiver (t : Terminal) :
    t.dismissPending.hasReceiver = t.hasReceiver := by
  unfold dismissPending
  split <;> rfl

@[simp] theorem dismissPending_closed (t : Terminal) : t.dismissPending.closed = t.closed := by
  unfold dismissPending
  split <;> rfl

@[simp] theorem dismissPending_commands (t : Terminal) : t.dismissPending.commands = t.commands := by
  unfold dismissPending
  split <;> rfl

@[simp] theorem dismissPending_length (t : Terminal) :
    t.dismissPending.prompts.length = t.prompts.length := by
  unfold dismissPending
  split
  · exact List.length_modify ..
  · rfl

theorem route_waiting {t : Terminal} {ticket : Nat} {choices : List String} (hp : t.pending = some ticket)
    (hw : t.prompts[ticket]? = some (.waiting choices)) (line : String) :
    t.route line =
      (none, { t with pending := none }.changePrompt ticket (·.finish (Choice.pick line))) := by
  simp [route, hp, hw]

theorem route_free {t : Terminal}
    (h : ∀ ticket choices, t.pending = some ticket → t.prompts[ticket]? ≠ some (.waiting choices))
    (line : String) : t.route line = (some line, { t with pending := none }) := by
  unfold route
  cases hp : t.pending with
  | none =>
    obtain ⟨assumeYes, prompts, pending, closed, partialLine, hasReceiver, commands, stdout, stderr⟩ := t
    obtain rfl : pending = none := hp
    rfl
  | some ticket =>
    cases hj : t.prompts[ticket]? with
    | none => simp [hj]
    | some p =>
      cases p with
      | waiting choices => exact absurd hj (h ticket choices hp)
      | _ => simp [hj]

theorem openPrompt_fst (t : Terminal) (severity : Severity) (text : String) (choices : List String) :
    (t.openPrompt severity text choices).1 = t.prompts.length := by
  simp only [openPrompt]
  split
  · rfl
  · split <;> rfl

theorem getElem?_opened (ps : List Prompt) (p : Prompt) (k : Nat) :
    (ps ++ [p])[k]? = if ps.length = k then some p else ps[k]? := by
  rw [List.getElem?_append]
  by_cases hk : ps.length = k
  · subst hk
    simp
  · rw [if_neg hk]
    by_cases hlt : k < ps.length
    · rw [if_pos hlt]
    · rw [if_neg hlt, List.getElem?_eq_none (by simp; omega), List.getElem?_eq_none (by omega)]

namespace Reflects

variable {taken : List String} {t : Terminal}

theorem start (partialLine : Text.Utf8.Bytes) (stdout stderr : List String) :
    Reflects [] [] { partialLine := partialLine, stdout := stdout, stderr := stderr } where
  asking := rfl
  heard := rfl
  closed := rfl
  length := rfl
  prompts _ := rfl
  slot _ := nofun
  commands := rfl

/-- Only the prompt that waits can still be changed. -/
theorem modify_prompts (h : Reflects es taken t) {f : Prompt → Prompt}
    (hf : ∀ p : Prompt, (∀ choices, p ≠ .waiting choices) → f p = p) (j k : Nat) :
    (t.prompts.modify j f)[k]? =
      if waiting es = some k ∧ j = k then some (f (.waiting (choicesOf k es))) else fate k es := by
  rw [List.getElem?_modify, h.prompts k]
  by_cases hw : waiting es = some k
  · rw [fate_eq_waiting.2 ⟨hw, rfl⟩]
    by_cases hj : j = k <;> simp [hw, hj]
  · rw [if_neg fun hand => hw hand.1]
    cases hp : fate k es with
    | none => rfl
    | some p =>
      have hfixed : f p = p := by
        refine hf p fun choices hwaits => hw ?_
        exact (fate_eq_waiting.1 (hp.trans (congrArg some hwaits))).1
      simp [hfixed]

theorem dismissed_prompts (h : Reflects es taken t) (k : Nat) :
    t.dismissPending.prompts[k]? = if waiting es = some k then some (.ended none) else fate k es := by
  unfold dismissPending
  cases hp : t.pending with
  | none =>
    have hw : waiting es ≠ some k := by
      intro hw
      have hslot := h.slot k hw
      rw [hp] at hslot
      cases hslot
    rw [if_neg hw]
    exact h.prompts k
  | some j =>
    have hmodified := h.modify_prompts (f := (·.finish fun _ => none))
      (fun p hne => Prompt.finish_eq_self hne _) j k
    refine hmodified.trans ?_
    by_cases hw : waiting es = some k
    · have hj : j = k := Option.some.inj (hp.symm.trans (h.slot k hw))
      simp [hw, hj, Prompt.finish]
    · simp [hw]

theorem line (h : Reflects es taken t) (text : List Char) :
    Reflects (.line text :: es) taken (t.takeLine text) := by
  cases hw : waiting es with
  | some k =>
    have hslot := h.slot k hw
    have hwaits : t.prompts[k]? = some (.waiting (choicesOf k es)) :=
      (h.prompts k).trans (fate_eq_waiting.2 ⟨hw, rfl⟩)
    have htake : t.takeLine text =
        { t with pending := none }.changePrompt k (·.finish (Choice.pick (String.ofList text))) := by
      rw [takeLine, route_waiting hslot hwaits]
    rw [htake]
    exact {
      asking := h.asking
      heard := h.heard
      closed := h.closed
      length := (List.length_modify ..).trans h.length
      prompts := fun j => by
        have hmodified := h.modify_prompts (f := (·.finish (Choice.pick (String.ofList text))))
          (fun p hne => Prompt.finish_eq_self hne _) k j
        refine hmodified.trans ?_
        by_cases hj : k = j
        · subst hj
          rw [if_pos ⟨hw, rfl⟩, fate, if_pos hw]
          rfl
        · rw [if_neg fun hand => hj hand.2, fate, if_neg fun hw' => hj (Option.some.inj (hw.symm.trans hw'))]
      slot := nofun
      commands := by
        rw [forwarded_line, hw, if_neg nofun, List.append_nil]
        exact h.commands }
  | none =>
    -- whatever is in the slot has been dropped
    have hfree : ∀ j choices, t.pending = some j → t.prompts[j]? ≠ some (.waiting choices) := by
      intro j choices _ hj
      have hwaits := (fate_eq_waiting.1 ((h.prompts j).symm.trans hj)).1
      rw [hw] at hwaits
      cases hwaits
    have htake : t.takeLine text =
        { t with pending := none, commands := t.commands ++ [String.ofList text] } := by
      rw [takeLine, route_free hfree]
      exact if_pos h.heard
    rw [htake]
    exact {
      asking := h.asking
      heard := h.heard
      closed := h.closed
      length := h.length
      prompts := fun k => by
        rw [fate, hw, if_neg nofun]
        exact h.prompts k
      slot := nofun
      commands := by
        rw [forwarded_line, hw, if_pos rfl, ← h.commands, List.append_assoc] }

theorem ask (h : Reflects es taken t) (severity : Severity) (text : String) (choices : List String) :
    Reflects (.ask severity text choices :: es) taken (t.openPrompt severity text choices).2 := by
  cases hc : isClosed es with
  | true =>
    have hw := waiting_of_closed hc
    have hopen : (t.openPrompt severity text choices).2 =
        { t with prompts := t.prompts ++ [.ended none] } := by
      simp [openPrompt, h.asking, h.closed, hc]
    rw [hopen]
    refine {
      asking := h.asking
      heard := h.heard
      closed := h.closed
      length := ?_
      prompts := fun k => ?_
      slot := fun k hk => ?_
      commands := h.commands }
    · rw [List.length_append, h.length]
      rfl
    · rw [getElem?_opened, h.length, h.prompts, fate, hc, hw]
      rfl
    · rw [waiting, hc] at hk
      cases hk
  | false =>
    have hopen : (t.openPrompt severity text choices).2 =
        { (t.dismissPending.print ("[" ++ severity.display ++ "] " ++ text)).print (Choice.menu choices) with
          prompts := t.dismissPending.prompts ++ [.waiting choices]
          pending := some (asks es) } := by
      simp [openPrompt, h.asking, h.closed, hc, h.length]
    rw [hopen]
    refine {
      asking := t.dismissPending_assumeYes.trans h.asking
      heard := t.dismissPending_hasReceiver.trans h.heard
      closed := t.dismissPending_closed.trans h.closed
      length := ?_
      prompts := fun k => ?_
      slot := fun k hk => ?_
      commands := ?_ }
    · rw [List.length_append, dismissPending_length, h.length]
      rfl
    · rw [getElem?_opened, dismissPending_length, h.length, h.dismissed_prompts, fate, hc]
      rfl
    · rw [waiting, hc] at hk
      exact hk
    · show taken ++ t.dismissPending.commands = forwarded es
      rw [dismissPending_commands]
      exact h.commands

theorem drop (h : Reflects es taken t) (j : Nat) : Reflects (.drop j :: es) taken (t.dropPrompt j) where
  asking := h.asking
  heard := h.heard
  closed := h.closed
  length := (List.length_modify ..).trans h.length
  prompts k := by
    have hmodified := h.modify_prompts (f := Prompt.drop) (fun p hne => Prompt.drop_eq_self hne) j k
    rw [fate]
    exact hmodified
  slot k hk := by
    rw [waiting, Option.filter_eq_some_iff] at hk
    exact h.slot k hk.1
  commands := h.commands

theorem close (h : Reflects es taken t) : Reflects (.close :: es) taken t.closeInput where
  asking := t.dismissPending_assumeYes.trans h.asking
  heard := t.dismissPending_hasReceiver.trans h.heard
  closed := rfl
  length := t.dismissPending_length.trans h.length
  prompts k := by
    rw [fate]
    exact h.dismissed_prompts k
  slot := nofun
  commands := by
    show taken ++ t.dismissPending.commands = forwarded es
    rw [dismissPending_commands]
    exact h.commands

theorem aside (h : Reflects es taken t) (partialLine : Text.Utf8.Bytes) (stdout stderr : List String) :
    Reflects (.aside partialLine stdout stderr :: es) taken
      { t with partialLine := partialLine, stdout := stdout, stderr := stderr } :=
  ⟨h.asking, h.heard, h.closed, h.length, h.prompts, h.slot, h.commands⟩

/-- A command is taken. -/
theorem take (h : Reflects es taken t) {x : String} {rest : List String} (hc : t.commands = x :: rest) :
    Reflects es (taken ++ [x]) { t with commands := rest } where
  asking := h.asking
  heard := h.heard
  closed := h.closed
  length := h.length
  prompts := h.prompts
  slot := h.slot
  commands := by
    rw [← h.commands, hc, List.append_assoc]
    rfl

theorem apply (h : Reflects es taken t) (e : Event) : Reflects (e :: es) taken (e.apply t) := by
  cases e with
  | line text => exact h.line text
  | ask severity text choices => exact h.ask severity text choices
  | drop j => exact h.drop j
  | close => exact h.close
  | aside partialLine stdout stderr => exact h.aside partialLine stdout stderr

end Reflects

/-! ## The law of lines and prompts -/

theorem reply?_eq_some {t : Terminal} {choice : Option String} :
    t.reply? k = some choice ↔ t.prompts[k]? = some (.ended choice) := by
  unfold reply?
  split
  · rename_i hp
    simp [hp]
  · rename_i hp
    simpa using hp choice

/-- Where lines went and what prompts returned, if `taken` are the commands that were taken. -/
structure Routed (es : List Event) (taken : List String) (t : Terminal) : Prop where
  /-- every line that answers no prompt is a command, in its order -/
  commands : taken ++ t.commands = forwarded es
  /-- prompts are numbered as they are opened -/
  numbered : ∀ severity text choices, (t.openPrompt severity text choices).1 = asks es
  once : ∀ k, (given k es).length ≤ 1
  answered : ∀ k, ∀ x ∈ given k es, t.reply? k = some (Choice.pick x (choicesOf k es))
  unanswered : ∀ k choice, given k es = [] → t.reply? k = some choice → choice = none
  waits : ∀ k, waiting es = some k → given k es = [] ∧ t.reply? k = none
  /-- a prompt that neither waits nor was left by its caller has returned -/
  returned : ∀ k, k < asks es → waiting es = some k ∨ .drop k ∈ es ∨ ∃ choice, t.reply? k = some choice
  /-- a newer prompt dismisses the one that waits, and so does the end of the input -/
  dismissed : ∀ k, waiting es = some k → t.closeInput.reply? k = some none ∧
    ∀ severity text choices, (t.openPrompt severity text choices).2.reply? k = some none
  /-- without input every prompt returns at once -/
  ended : isClosed es = true → waiting es = none ∧ ∀ severity text choices,
    (t.openPrompt severity text choices).2.reply? (asks es) = some none

theorem Reflects.routed {taken : List String} {t : Terminal} (h : Reflects es taken t) :
    Routed es taken t where
  commands := h.commands
  numbered severity text choices := (t.openPrompt_fst severity text choices).trans h.length
  once k := given_length_le k es
  answered k x hx := reply?_eq_some.2 ((h.prompts k).trans (fate_of_given hx))
  unanswered k choice hnone hreply :=
    eq_none_of_not_given hnone ((h.prompts k).symm.trans (reply?_eq_some.1 hreply))
  waits k hw := by
    have hwaits := (h.prompts k).trans (fate_eq_waiting.2 ⟨hw, rfl⟩)
    refine ⟨given_eq_nil_of_waiting hw, ?_⟩
    rw [reply?, hwaits]
  returned k hk := by
    obtain ⟨p, hp⟩ := Option.isSome_iff_exists.1 (fate_isSome.2 hk)
    cases p with
    | waiting choices => exact .inl (fate_eq_waiting.1 hp).1
    | dropped => exact .inr (.inl (mem_of_fate_dropped hp))
    | ended choice => exact .inr (.inr ⟨choice, reply?_eq_some.2 ((h.prompts k).trans hp)⟩)
  dismissed k hw := by
    refine ⟨reply?_eq_some.2 ?_, fun severity text choices => reply?_eq_some.2 ?_⟩
    · rw [h.close.prompts, fate, if_pos hw]
    · have hne : asks es ≠ k := Nat.ne_of_gt (waiting_lt hw)
      rw [(h.ask severity text choices).prompts, fate, if_neg hne, if_pos hw]
  ended hc := by
    refine ⟨waiting_of_closed hc, fun severity text choices => reply?_eq_some.2 ?_⟩
    rw [(h.ask severity text choices).prompts, fate, if_pos rfl, hc]
    rfl

/-! ## What is typed -/

/-- Lines come only while there is input. -/
def Event.Possible (t : Terminal) : Event → Prop
  | .line _ => t.closed = false
  | _ => True

/-- What can come one after the other. -/
inductive Comes (t : Terminal) : List Event → Terminal → Prop where
  | nothing : Comes t [] t
  | next {es : List Event} {t' : Terminal} (e : Event) (before : Comes t es t') (possible : e.Possible t') :
      Comes t (e :: es) (e.apply t')

theorem Comes.trans {t t₁ t₂ : Terminal} {es es' : List Event} (h : Comes t es t₁) (h' : Comes t₁ es' t₂) :
    Comes t (es' ++ es) t₂ := by
  induction h' with
  | nothing => exact h
  | next e _ possible ih => exact .next e ih possible

/-- From one state to the other events have come, and nothing else. -/
def Reaches (t t' : Terminal) : Prop := ∃ es, Comes t es t'

namespace Reaches

variable {t t₁ t₂ : Terminal}

theorem refl (t : Terminal) : t.Reaches t := ⟨[], .nothing⟩

theorem of_eq (h : t₁ = t) : t.Reaches t₁ := h ▸ refl t

theorem trans (h : t.Reaches t₁) (h' : t₁.Reaches t₂) : t.Reaches t₂ := by
  obtain ⟨es, hes⟩ := h
  obtain ⟨es', hes'⟩ := h'
  exact ⟨_, hes.trans hes'⟩

theorem event (t : Terminal) (e : Event) (h : e.Possible t) : t.Reaches (e.apply t) :=
  ⟨_, .next e .nothing h⟩

end Reaches

theorem reaches_takeLines (atEnd : Bool) (lines : List Text.Line) (t : Terminal) :
    t.Reaches (t.takeLines atEnd lines) := by
  induction lines generalizing t with
  | nil => exact .refl t
  | cons line lines ih =>
    rw [takeLines]
    split
    · exact .refl t
    · rename_i hopen
      split
      · exact .event t (.aside line.bytes t.stdout t.stderr) trivial
      · split
        · rename_i text _
          have hopen : t.closed = false := by simpa using hopen
          have hline : t.Reaches (t.takeLine text) := .event t (.line text) hopen
          exact hline.trans (ih (t.takeLine text))
        · exact .event t .close trivial

/-- Bytes that come in are lines, and perhaps the end of the input. -/
theorem reaches_type (t : Terminal) (bytes : Text.Utf8.Bytes) : t.Reaches (t.type bytes) := by
  unfold type
  split
  · exact .refl t
  · have hemptied : t.Reaches { t with partialLine := [] } := .event t (.aside [] t.stdout t.stderr) trivial
    exact hemptied.trans (reaches_takeLines ..)

theorem reaches_endInput (t : Terminal) : t.Reaches t.endInput := by
  unfold endInput
  split
  · exact .refl t
  · exact (reaches_takeLines ..).trans (.event _ .close trivial)

end Steward.Terminal
