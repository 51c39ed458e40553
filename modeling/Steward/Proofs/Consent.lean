import Steward.Proofs.Coherence
import Steward.Proofs.Repertoire

/-!
# Nothing is installed without consent

Two ways lead to the install command: a start that finds no tool asks the user to install it, and an
update check offers a newer version. Both ask in their own words and take one answer only for a yes. Calls
that start the server and update checks run side by side, are repeated and cancelled; but a question, its
answer and the command all belong to one task, and a task asks at most once.

So the deeds of a task tell everything: look-ups of the installed version, then the question, its answer,
and the command if the answer was yes (`Run.deeds_cases`). `Run.installs_consented` draws the conclusion for
the run as a whole.
-/

set_option autoImplicit false

namespace Steward

/-! ## Questions and commands -/

/-- What the user is asked to agree to. -/
inductive Consent where
  /-- a missing tool is installed, so that the server can start -/
  | install
  /-- an installed tool is replaced by a newer one -/
  | update
  deriving Repr, DecidableEq

/-- The one answer that means yes. -/
def Consent.choice : Consent → String
  | .install => Tool.installChoice
  | .update => Update.updateChoice

structure Question where
  severity : Severity
  text : String
  choices : List String
  deriving Repr, DecidableEq

/-- The question in which the consent is asked for. -/
inductive Consent.Asks (s : Service) : Consent → Question → Prop where
  | install : Consent.Asks s .install
      ⟨.warning, Tool.installQuestion s, [Tool.installChoice, Tool.cancelChoice]⟩
  | update (versions : Version.Pair) : Consent.Asks s .update
      ⟨.info, "A new version (" ++ versions.shortPublished ++ ") of " ++ s.tool ++ " is available.",
        [Update.updateChoice]⟩

/-- The consent that a task asks for. -/
def Role.consent : Role → Consent
  | .check => .update
  | .call .checkForUpdates => .update
  | _ => .install

/-- What a task does towards an installation. -/
inductive Deed where
  | asked (q : Question) (ticket : Nat)
  | answered (ticket : Nat) (choice : Option String)
  | ran (program : String) (args : List String)
  deriving Repr, DecidableEq

def Request.deed? : (r : Request) → r.Answer → Option Deed
  | .query (.prompt severity text choices), ticket => some (.asked ⟨severity, text, choices⟩ ticket)
  | .query (.command program args), _ => some (.ran program args)
  | .awaitPrompt ticket, choice => some (.answered ticket choice)
  | _, _ => none

/-- The deeds of a task, in their order. -/
def deeds (i : Nat) (acts : List Act) : List Deed := chronicle Request.deed? i acts

/-- The command that finds out the installed version. -/
def Deed.lookUp (s : Service) (path : String) : Deed :=
  .ran s.toolchain.program (s.toolchain.versionArgs path)

/-- The command that installs the tool. -/
def Deed.install (s : Service) : Deed :=
  .ran s.toolchain.program (s.toolchain.installArgs s.identity.source)

theorem Deed.install_ne_lookUp (s : Service) (path : String) : Deed.install s ≠ Deed.lookUp s path := by
  intro h
  have hargs : s.toolchain.installArgs s.identity.source = s.toolchain.versionArgs path := by
    injection h
  simp [Tool.Toolchain.installArgs, Tool.Toolchain.versionArgs] at hargs

/-! ## From the question to the command -/

/-- How far a task has come with an installation. -/
inductive Permit where
  /-- it need not ask: whoever called it has done so -/
  | exempt
  | unasked (c : Consent)
  | asked (c : Consent) (q : Question) (ticket : Nat)
  | agreed (c : Consent) (q : Question) (ticket : Nat)
  | used (c : Consent) (q : Question) (ticket : Nat)
  | refused (c : Consent) (q : Question) (ticket : Nat) (choice : Option String)
  deriving Repr, DecidableEq

/-- The steps towards an installation. Versions are looked up only before anything is asked. -/
inductive Ask (s : Service) : Protocol Permit where
  | exempt {r : Request} {a : r.Answer} : Ask s .exempt r a .exempt
  | aside {x : Permit} {r : Request} {a : r.Answer} (h : r.deed? a = none) : Ask s x r a x
  | lookUp {c : Consent} {r : Request} {a : r.Answer} {path : String}
      (h : r.deed? a = some (.lookUp s path)) : Ask s (.unasked c) r a (.unasked c)
  | ask {c : Consent} {r : Request} {a : r.Answer} {q : Question} {ticket : Nat}
      (h : r.deed? a = some (.asked q ticket)) (hq : c.Asks s q) :
      Ask s (.unasked c) r a (.asked c q ticket)
  | agree {c : Consent} {q : Question} {ticket : Nat} :
      Ask s (.asked c q ticket) (.awaitPrompt ticket) (some c.choice) (.agreed c q ticket)
  | refuse {c : Consent} {q : Question} {ticket : Nat} {choice : Option String}
      (h : choice ≠ some c.choice) :
      Ask s (.asked c q ticket) (.awaitPrompt ticket) choice (.refused c q ticket choice)
  | use {c : Consent} {q : Question} {ticket : Nat} {r : Request} {a : r.Answer}
      (h : r.deed? a = some (.install s)) : Ask s (.agreed c q ticket) r a (.used c q ticket)

def Role.permit : Role → Permit
  | .call .runUpdate => .exempt
  | ρ => .unasked ρ.consent

section Asking

open Program

variable {α : Type} {s : Service}

/-- Requests of these kinds neither ask nor run a command. -/
def Request.Kind.isIdle : Request.Kind → Bool
  | .dialogue => false
  | .command => false
  | _ => true

theorem Request.deed?_of_idle {r : Request} (h : r.kind.isIdle = true) (a : r.Answer) :
    r.deed? a = none := by
  cases r with
  | query q => cases q <;> first | rfl | cases h
  | _ => first | rfl | cases h

theorem Program.Uses.asks {ks : List Request.Kind} {p : Program α} (hp : p.Uses ks)
    (hk : ks.all Request.Kind.isIdle = true) {x : Permit} {Q : Permit → α → Prop}
    (hQ : ∀ a, Q x a) : p.Obeys (Ask s) Q x :=
  hp.obeys_all hk (fun _ a hr => .aside (Request.deed?_of_idle hr a)) hQ

/-- With consent the command is run, once. -/
theorem runInstall_asks {c : Consent} {q : Question} {ticket : Nat} :
    (Tool.runInstall s).Obeys (Ask s) (fun _ _ => True) (.agreed c q ticket) := by
  refine fun _ => ⟨_, .use rfl, fun output => ⟨_, .aside rfl, ?_⟩⟩
  cases output with
  | error e => trivial
  | ok o => dsimp only [Program.bind]; split <;> trivial

theorem installPrompted_asks :
    (Tool.installPrompted s).Obeys (Ask s) (fun _ _ => True) (.unasked .install) := by
  refine fun ticket => ⟨_, .ask rfl .install, fun choice => ?_⟩
  by_cases hc : choice = some Tool.installChoice
  · subst hc
    refine ⟨_, .agree, ?_⟩
    simp only [Program.bind, bne_self_eq_false, Bool.false_eq_true, if_false]
    refine obeys_bind.2 (runInstall_asks.mono fun y outcome _ => ?_)
    cases outcome with
    | cancelled => trivial
    | _ => exact fun _ => ⟨y, .aside rfl, trivial⟩
  · refine ⟨_, .refuse hc, ?_⟩
    simp only [Program.bind, bne_iff_ne, ne_eq, hc, not_false_eq_true, if_true]
    trivial

theorem install_asks : (Tool.install s).Obeys (Ask s) (fun _ _ => True) (.unasked .install) := by
  refine fun outcome => ⟨_, .aside rfl, ?_⟩
  cases outcome with
  | none => exact installPrompted_asks
  | some o => trivial

theorem resolveProgram_asks :
    (Supervisor.resolveProgram s).Obeys (Ask s) (fun _ _ => True) (.unasked .install) := by
  refine Obeys.ask fun path => ⟨_, .aside rfl, ?_⟩
  cases path with
  | some path => trivial
  | none =>
    refine obeys_bind.2 (install_asks.mono fun y outcome _ => ?_)
    cases outcome with
    | installed =>
      refine Obeys.ask fun path => ⟨y, .aside rfl, ?_⟩
      cases path with
      | some path => trivial
      | none => exact fun _ => ⟨y, .aside rfl, trivial⟩
    | _ => trivial

theorem start_asks : (Supervisor.start s).Obeys (Ask s) (fun _ _ => True) (.unasked .install) := by
  refine Obeys.ask fun gate => ⟨_, .aside rfl, ?_⟩
  cases gate with
  | «open» =>
    refine obeys_bind.2 (resolveProgram_asks.mono fun y resolved _ => ?_)
    cases resolved with
    | error outcome => exact fun _ => ⟨y, .aside rfl, trivial⟩
    | ok path => exact (uses_launchAt s path).asks rfl fun _ => trivial
  | running d => exact fun _ => ⟨_, .aside rfl, trivial⟩
  | _ => trivial

theorem runUpdate_asks {c : Consent} {q : Question} {ticket : Nat} :
    (Update.runUpdate s).Obeys (Ask s) (fun _ _ => True) (.agreed c q ticket) := by
  have install : (Tool.installUnprompted s).Obeys (Ask s) (fun _ _ => True) (.agreed c q ticket) := by
    refine fun outcome => ⟨_, .aside rfl, ?_⟩
    cases outcome with
    | none => exact runInstall_asks
    | some o => trivial
  refine Obeys.ask fun _ => ⟨_, .aside rfl, Obeys.ask fun _ => ⟨_, .aside rfl, ?_⟩⟩
  refine obeys_bind.2 (install.mono fun y outcome _ => ?_)
  cases outcome with
  | cancelled => exact fun _ => ⟨y, .aside rfl, trivial⟩
  | _ => exact fun _ => ⟨y, .aside rfl, fun _ => ⟨y, .aside rfl, fun _ => ⟨y, .aside rfl, trivial⟩⟩⟩

theorem offer_asks (versions : Version.Pair) :
    (Update.offer s versions).Obeys (Ask s) (fun _ _ => True) (.unasked .update) := by
  refine fun _ => ⟨_, .aside rfl, fun ticket => ⟨_, .ask rfl (.update versions), fun choice => ?_⟩⟩
  by_cases hc : choice = some Update.updateChoice
  · subst hc
    refine ⟨_, .agree, ?_⟩
    simp only [Program.bind, bne_self_eq_false, Bool.false_eq_true, if_false]
    refine obeys_bind.2 (runUpdate_asks.mono fun y outcome _ => ?_)
    cases outcome <;> trivial
  · refine ⟨_, .refuse hc, ?_⟩
    simp only [Program.bind, bne_iff_ne, ne_eq, hc, not_false_eq_true, if_true]
    trivial

/-- A step of the look-up of versions. -/
def Request.isInquiry (s : Service) (path : String) : Request → Bool
  | .query (.command program args) =>
    program == s.toolchain.program && args == s.toolchain.versionArgs path
  | .awaitCommand _ => true
  | r => r.kind == .talk

/-- Whatever turns the two look-ups take, they ask nothing and run nothing else. -/
theorem inquiry_asks {path : String} {c : Consent} {p : Program α}
    (hp : p.Only (Request.isInquiry s path)) {Q : Permit → α → Prop} (hQ : ∀ a, Q (.unasked c) a) :
    p.Obeys (Ask s) Q (.unasked c) := by
  refine hp.obeys (fun r a hr => ?_) hQ
  unfold Request.isInquiry at hr
  split at hr
  · rw [Bool.and_eq_true, beq_iff_eq, beq_iff_eq] at hr
    obtain ⟨rfl, rfl⟩ := hr
    exact .lookUp rfl
  · exact .aside rfl
  · rw [beq_iff_eq] at hr
    exact .aside (Request.deed?_of_idle (by simp [hr, Request.Kind.isIdle]) a)

theorem checkAt_asks (path : String) :
    (Update.checkAt s path).Obeys (Ask s) (fun _ _ => True) (.unasked .update) := by
  have installed : (Version.lookupInstalled s.toolchain path).Only (Request.isInquiry s path) := by
    refine ⟨by simp [Request.isInquiry], fun ticket => ⟨rfl, fun output => ?_⟩⟩
    cases output with
    | error e => trivial
    | ok o => dsimp only [Program.bind]; split <;> trivial
  have published : (Version.lookupPublished s.excludedTagStart).Only (Request.isInquiry s path) := by
    refine Only.mono (fun r hr => ?_) (uses_lookupPublished s.excludedTagStart)
    have hk : r.kind = .talk := by simpa using hr
    unfold Request.isInquiry
    split
    · cases hk
    · rfl
    · exact beq_iff_eq.2 hk
  refine obeys_bind.2 (inquiry_asks (installed.both published s.turns) fun versions => ?_)
  split
  · dsimp only
    split
    · exact offer_asks _
    · exact fun _ => ⟨_, .aside rfl, trivial⟩
  · trivial

theorem check_asks : (Update.check s).Obeys (Ask s) (fun _ _ => True) (.unasked .update) := by
  refine fun _ => ⟨_, .aside rfl, fun path => ⟨_, .aside rfl, ?_⟩⟩
  cases path with
  | none => exact fun _ => ⟨_, .aside rfl, trivial⟩
  | some path => exact checkAt_asks path

/-- Whoever has consent already may do anything. -/
theorem Program.asks_exempt (p : Program α) {Q : Permit → α → Prop} (hQ : ∀ a, Q .exempt a) :
    p.Obeys (Ask s) Q .exempt := by
  induction p with
  | done a => exact hQ a
  | ask r k ih => exact fun a => ⟨.exempt, .exempt, ih a⟩

/-- **Every role asks before it installs.** -/
theorem Role.asks (s : Service) (ρ : Role) :
    (ρ.program s).Obeys (Ask s) (Closes (fun _ => True) ρ.permit) ρ.permit := by
  cases ρ with
  | call c =>
    cases hc : c.isUpdate with
    | false =>
      have hinit : (Role.call c).permit = .unasked .install := by
        cases c <;> first | rfl | cases hc
      rw [hinit]
      exact obeys_bind.2 ((Call.obeys_of_start (P := Ask s) (Q := fun _ => True) (by rfl)
        (fun _ _ _ a hr => .aside (Request.deed?_of_idle hr a)) trivial start_asks hc).mono
          fun _ _ hy => hy)
    | true =>
      cases c with
      | checkForUpdates => exact obeys_bind.2 (obeys_bind.2 (check_asks.mono fun _ _ hy => hy))
      | runUpdate => exact obeys_bind.2 (asks_exempt _ fun _ => trivial)
      | _ => cases hc
  | observer child pid =>
    refine obeys_bind.2 ((uses_observeOnce s child pid).asks rfl fun last => ?_)
    cases last with
    | true => trivial
    | false => rfl
  | check => exact obeys_bind.2 (check_asks.mono fun _ _ hy => hy)

end Asking

/-! ## The deeds of a task -/

/-- What a task has done since it stopped looking up versions, and how far it has come by that. -/
inductive Permit.Trail (s : Service) (c : Consent) : Permit → List Deed → Prop where
  | unasked : Permit.Trail s c (.unasked c) []
  | asked {q : Question} {ticket : Nat} (hq : c.Asks s q) :
      Permit.Trail s c (.asked c q ticket) [.asked q ticket]
  | agreed {q : Question} {ticket : Nat} (hq : c.Asks s q) :
      Permit.Trail s c (.agreed c q ticket) [.asked q ticket, .answered ticket (some c.choice)]
  | used {q : Question} {ticket : Nat} (hq : c.Asks s q) :
      Permit.Trail s c (.used c q ticket)
        [.asked q ticket, .answered ticket (some c.choice), .install s]
  | refused {q : Question} {ticket : Nat} {choice : Option String} (h : choice ≠ some c.choice) :
      Permit.Trail s c (.refused c q ticket choice) [.asked q ticket, .answered ticket choice]

/-- Look-ups first, then the trail of the permit. -/
def Permit.Accounts (s : Service) (c : Consent) (x : Permit) (ds : List Deed) : Prop :=
  ∃ lookUps trail, ds = lookUps ++ trail ∧ (∀ d ∈ lookUps, ∃ path, d = .lookUp s path) ∧
    x.Trail s c trail

section Deeds

variable {s : Service} {c : Consent} {x y : Permit} {ds before later : List Deed}

/-- A step of the protocol lengthens the trail by its deed. -/
theorem Permit.Accounts.step (h : x.Accounts s c ds) {r : Request} {a : r.Answer}
    (hP : Ask s x r a y) : y.Accounts s c (ds ++ (r.deed? a).toList) := by
  obtain ⟨lookUps, trail, rfl, hl, ht⟩ := h
  cases hP with
  | exempt => cases ht
  | aside hd => exact ⟨lookUps, trail, by simp [hd], hl, ht⟩
  | @lookUp _ _ _ path hd =>
    cases ht
    refine ⟨lookUps ++ [.lookUp s path], [], by simp [hd], fun d hm => ?_, .unasked⟩
    rw [List.mem_append, List.mem_singleton] at hm
    exact hm.elim (hl d) fun hd => ⟨path, hd⟩
  | ask hd hq =>
    cases ht
    exact ⟨lookUps, _, by simp [hd], hl, .asked hq⟩
  | agree =>
    cases ht with
    | asked hq => exact ⟨lookUps, _, by simp [Request.deed?], hl, .agreed hq⟩
  | refuse hc =>
    cases ht
    exact ⟨lookUps, _, by simp [Request.deed?], hl, .refused hc⟩
  | use hd =>
    cases ht with
    | agreed hq => exact ⟨lookUps, _, by simp [hd], hl, .used hq⟩

/-- A deed other than a look-up belongs to the trail, and so does everything behind it. -/
theorem Permit.Accounts.split {d : Deed} (h : x.Accounts s c (before ++ d :: later))
    (hd : ∀ path, d ≠ .lookUp s path) :
    ∃ lookUps front, before = lookUps ++ front ∧ x.Trail s c (front ++ d :: later) := by
  obtain ⟨lookUps, trail, heq, hl, ht⟩ := h
  rcases List.append_eq_append_iff.1 heq with ⟨bs, rfl, hbs⟩ | ⟨front, rfl, rfl⟩
  · -- the deed would stand among the look-ups
    cases bs with
    | nil => exact ⟨before, [], by simp, by simpa [hbs] using ht⟩
    | cons b bs =>
      obtain ⟨rfl, -⟩ := List.cons.inj hbs
      obtain ⟨path, hp⟩ := hl d (by simp)
      exact absurd hp (hd path)
  · exact ⟨lookUps, front, rfl, ht⟩

/-- The install command is the last deed, right behind the question and its yes. -/
theorem Permit.Accounts.of_install (h : x.Accounts s c (before ++ .install s :: later)) :
    later = [] ∧ ∃ lookUps q ticket, c.Asks s q ∧
      before = lookUps ++ [.asked q ticket, .answered ticket (some c.choice)] := by
  obtain ⟨lookUps, front, rfl, ht⟩ := h.split (Deed.install_ne_lookUp s)
  generalize htrail : front ++ Deed.install s :: later = trail at ht
  cases ht with
  | used hq =>
    -- it is the third deed of the trail: the other two are none such
    rcases front with _ | ⟨asked, _ | ⟨answered, _ | ⟨third, front⟩⟩⟩
    · cases htrail
    · cases htrail
    · cases htrail
      exact ⟨rfl, lookUps, _, _, hq, rfl⟩
    · simp at htrail
  | _ => simp [List.append_eq_cons_iff, List.cons_eq_append_iff, Deed.install] at htrail

/-- Behind an answer other than yes there is nothing. -/
theorem Permit.Accounts.of_refusal {ticket : Nat} {choice : Option String}
    (h : x.Accounts s c (before ++ .answered ticket choice :: later)) (hc : choice ≠ some c.choice) :
    later = [] := by
  obtain ⟨lookUps, front, rfl, ht⟩ := h.split (fun path => nofun)
  generalize htrail : front ++ Deed.answered ticket choice :: later = trail at ht
  cases ht with
  | used hq =>
    simp [List.append_eq_cons_iff, List.cons_eq_append_iff, Deed.install, hc] at htrail
  | refused hr =>
    rcases front with _ | ⟨asked, _ | ⟨second, front⟩⟩
    · cases htrail
    · cases htrail
      rfl
    · simp at htrail
  | _ => simp [List.append_eq_cons_iff, List.cons_eq_append_iff, hc] at htrail

theorem Permit.Accounts.of_command {program : String} {args : List String}
    (h : x.Accounts s c ds) (hd : .ran program args ∈ ds) :
    Deed.ran program args = .install s ∨ ∃ path, Deed.ran program args = .lookUp s path := by
  obtain ⟨lookUps, trail, rfl, hl, ht⟩ := h
  rcases List.mem_append.1 hd with hd | hd
  · exact .inr (hl _ hd)
  · cases ht with
    | used hq => simpa using Or.inl hd
    | _ => simp at hd

end Deeds

/-! ## The order of deeds -/

/-- The deeds of a task in the first `n` acts of a run. -/
def deedsUpTo (i n : Nat) (acts : List Act) : List Deed :=
  (acts.reverse.take n).filterMap (Act.tells Request.deed? i)

section Order

variable {acts : List Act} {i m n : Nat} {x y : Act} {d e : Deed}

theorem deedsUpTo_of_lt (hx : acts.reverse[n]? = some x) (hd : x.tells Request.deed? i = some d) (hnm : n < m) :
    ∃ later, deedsUpTo i m acts = deedsUpTo i n acts ++ d :: later := by
  obtain ⟨hn, rfl⟩ := List.getElem?_eq_some_iff.1 hx
  have hlt : n < (acts.reverse.take m).length := by
    rw [List.length_take]
    omega
  have hsplit : acts.reverse.take m =
      acts.reverse.take n ++ acts.reverse[n] :: (acts.reverse.take m).drop (n + 1) := calc
    acts.reverse.take m = (acts.reverse.take m).take n ++ (acts.reverse.take m).drop n :=
      (List.take_append_drop ..).symm
    _ = acts.reverse.take n ++ acts.reverse[n] :: (acts.reverse.take m).drop (n + 1) := by
      rw [List.take_take, Nat.min_eq_left (Nat.le_of_lt hnm), List.drop_eq_getElem_cons hlt,
        List.getElem_take]
  refine ⟨((acts.reverse.take m).drop (n + 1)).filterMap (Act.tells Request.deed? i), ?_⟩
  rw [deedsUpTo, hsplit, List.filterMap_append, List.filterMap_cons_some hd, ← hsplit]
  rfl

theorem deeds_eq_upTo (hx : acts.reverse[n]? = some x) (hd : x.tells Request.deed? i = some d) :
    ∃ later, deeds i acts = deedsUpTo i n acts ++ d :: later := by
  have hn := (List.getElem?_eq_some_iff.1 hx).1
  obtain ⟨later, h⟩ := deedsUpTo_of_lt hx hd hn
  refine ⟨later, ?_⟩
  rw [← h, deeds, chronicle, deedsUpTo, List.take_length]

/-- Two deeds of a task, one behind the other. -/
theorem deeds_eq_of_lt (hx : acts.reverse[n]? = some x) (hd : x.tells Request.deed? i = some d)
    (hy : acts.reverse[m]? = some y) (he : y.tells Request.deed? i = some e) (hnm : n < m) :
    ∃ between later, deeds i acts = deedsUpTo i n acts ++ d :: (between ++ e :: later) := by
  obtain ⟨between, hb⟩ := deedsUpTo_of_lt hx hd hnm
  obtain ⟨later, hl⟩ := deeds_eq_upTo hy he
  exact ⟨between, later, by rw [hl, hb, List.append_assoc, List.cons_append]⟩

/-- Every deed has its act. -/
theorem exists_act_of_deed {before later : List Deed}
    (h : deedsUpTo i n acts = before ++ d :: later) :
    ∃ m x, m < n ∧ acts.reverse[m]? = some x ∧ x.tells Request.deed? i = some d ∧
      deedsUpTo i m acts = before := by
  obtain ⟨l₁, l₂, htake, hbefore, hrest⟩ := List.filterMap_eq_append_iff.1 h
  obtain ⟨l₃, x, l₄, rfl, hnone, hx, -⟩ := List.filterMap_eq_cons_iff.1 hrest
  have hlen := congrArg List.length htake
  rw [List.length_take] at hlen
  simp only [List.length_append, List.length_cons] at hlen
  have hm : l₁.length + l₃.length < n := by omega
  have hpast : ∀ k, k ≤ l₁.length + l₃.length →
      acts.reverse.take k = (l₁ ++ (l₃ ++ x :: l₄)).take k := by
    intro k hk
    rw [← htake, List.take_take, Nat.min_eq_left (by omega)]
  refine ⟨l₁.length + l₃.length, x, hm, ?_, hx, ?_⟩
  · rw [← List.getElem?_take_of_lt hm, htake, ← List.append_assoc, ← List.length_append,
      List.getElem?_append_right (Nat.le_refl _), Nat.sub_self]
    rfl
  · unfold deedsUpTo
    rw [hpast _ (Nat.le_refl _), ← List.append_assoc, ← List.length_append, List.take_left',
      List.filterMap_append, hbefore, List.filterMap_eq_nil_iff.2 hnone, List.append_nil]
    rfl

theorem Act.of_deed?_asked {q : Question} {ticket : Nat}
    (h : x.tells Request.deed? i = some (.asked q ticket)) :
    x = .step i (.query (.prompt q.severity q.text q.choices)) ticket := by
  obtain ⟨r, a, rfl, hr⟩ := Act.exists_of_tells h
  unfold Request.deed? at hr
  split at hr <;> cases hr
  rfl

theorem Act.of_deed?_answered {ticket : Nat} {choice : Option String}
    (h : x.tells Request.deed? i = some (.answered ticket choice)) :
    x = .step i (.awaitPrompt ticket) choice := by
  obtain ⟨r, a, rfl, hr⟩ := Act.exists_of_tells h
  unfold Request.deed? at hr
  split at hr <;> cases hr
  rfl

end Order

/-! ## The run as a whole -/

/-- In the `n`th act of the run the task `i` has the command run. -/
def RunsAt (acts : List Act) (n i : Nat) (program : String) (args : List String) : Prop :=
  ∃ ticket, acts.reverse[n]? = some (.step i (.query (.command program args)) ticket)

/-- In the `n`th act of the run the task `i` has the tool installed. -/
def InstallsAt (s : Service) (acts : List Act) (n i : Nat) : Prop :=
  RunsAt acts n i s.toolchain.program (s.toolchain.baseArgs ++ ["install", s.identity.source])

/-- Before the `n`th act the task `i` has asked, in the act numbered `asked`, for the consent that its role
needs, and the answer was yes. -/
def ConsentedAt (s : Service) (acts : List Act) (n i asked : Nat) : Prop :=
  ∃ ρ q ticket m, (roles acts)[i]? = some ρ ∧ ρ.consent.Asks s q ∧ asked < m ∧ m < n ∧
    acts.reverse[asked]? = some (.step i (.query (.prompt q.severity q.text q.choices)) ticket) ∧
    acts.reverse[m]? = some (.step i (.awaitPrompt ticket) (some ρ.consent.choice))

section Whole

variable {ε : Type} {env : Environment ε} {s : Service} {acts : List Act} {w : World ε}
  {i i' n n' asked : Nat} {ρ : Role}

theorem InstallsAt.task_eq (h : InstallsAt s acts n i) (h' : InstallsAt s acts n i') : i = i' := by
  obtain ⟨ticket, hn⟩ := h
  obtain ⟨ticket', hn'⟩ := h'
  exact Option.some.inj (congrArg Act.task? (Option.some.inj (hn.symm.trans hn')))

theorem ConsentedAt.task_eq (h : ConsentedAt s acts n i asked) (h' : ConsentedAt s acts n' i' asked) :
    i = i' := by
  obtain ⟨_, _, _, _, _, _, _, _, hq, _⟩ := h
  obtain ⟨_, _, _, _, _, _, _, _, hq', _⟩ := h'
  exact Option.some.inj (congrArg Act.task? (Option.some.inj (hq.symm.trans hq')))

/-- The deeds of a task that has to ask, in every run. -/
theorem Run.deeds_accounted (h : Run env s acts w) (hi : (roles acts)[i]? = some ρ)
    (hρ : ρ ≠ .call .runUpdate) : ∃ x, Permit.Accounts s ρ.consent x (deeds i acts) := by
  have fresh : ∀ ρ : Role, ρ ≠ .call .runUpdate → ρ.permit.Accounts s ρ.consent [] := by
    intro ρ hρ
    have hinit : ρ.permit = .unasked ρ.consent := by
      unfold Role.permit
      split
      · exact absurd rfl hρ
      · rfl
    rw [hinit]
    exact ⟨[], [], rfl, by simp, .unasked⟩
  obtain ⟨phase, -, hG⟩ := Run.chronicled (G := fun ρ x l =>
    ρ ≠ .call .runUpdate → Permit.Accounts s ρ.consent x l) (Role.asks s) fresh
    (fun hG hP hρ => (hG hρ).step hP) h
  exact ⟨phase i, hG i ρ hi hρ⟩

/-- Whoever acts where nobody installs unasked has to ask. -/
theorem Run.accounted_of_acted (h : Run env s acts w) (hno : Role.call .runUpdate ∉ roles acts)
    {r : Request} {a : r.Answer} (hn : acts.reverse[n]? = some (.step i r a)) :
    ∃ ρ x, (roles acts)[i]? = some ρ ∧ Permit.Accounts s ρ.consent x (deeds i acts) := by
  have hmem : .step i r a ∈ acts := List.mem_reverse.1 (List.mem_of_getElem? hn)
  obtain ⟨ρ, hi⟩ := h.exists_role hmem
  obtain ⟨x, hx⟩ := h.deeds_accounted hi fun he => hno (he ▸ List.mem_of_getElem? hi)
  exact ⟨ρ, x, hi, hx⟩

/-- One installation has one question, answered with yes in between. -/
theorem Run.exists_consent (h : Run env s acts w) (hno : Role.call .runUpdate ∉ roles acts)
    (hn : InstallsAt s acts n i) :
    ∃ asked, ConsentedAt s acts n i asked := by
  obtain ⟨output, hn⟩ := hn
  obtain ⟨ρ, x, hi, hx⟩ := h.accounted_of_acted hno hn
  obtain ⟨later, hl⟩ := deeds_eq_upTo hn (Act.tells_own ..)
  rw [hl] at hx
  obtain ⟨-, lookUps, q, ticket, hq, hbefore⟩ := hx.of_install
  have hyes : deedsUpTo i n acts = (lookUps ++ [.asked q ticket]) ++
      [.answered ticket (some ρ.consent.choice)] := by simp [hbefore]
  obtain ⟨m, y, hm, hy, hyd, hrest⟩ := exists_act_of_deed hyes
  obtain ⟨asked, z, ha, hz, hzd, -⟩ := exists_act_of_deed hrest
  obtain rfl := Act.of_deed?_answered hyd
  obtain rfl := Act.of_deed?_asked hzd
  exact ⟨asked, ρ, q, ticket, m, hi, hq, ha, hm, hz, hy⟩

/-- A task installs at most once. -/
theorem Run.installs_once (h : Run env s acts w) (hno : Role.call .runUpdate ∉ roles acts)
    (hn : InstallsAt s acts n i) (hn' : InstallsAt s acts n' i) : n = n' := by
  have later_impossible : ∀ {n n'}, InstallsAt s acts n i → InstallsAt s acts n' i → ¬ n < n' := by
    rintro n n' ⟨_, hn⟩ ⟨_, hn'⟩ hlt
    obtain ⟨ρ, x, -, hx⟩ := h.accounted_of_acted hno hn
    obtain ⟨between, later, hd⟩ :=
      deeds_eq_of_lt hn (Act.tells_own ..) hn' (Act.tells_own ..) hlt
    rw [hd] at hx
    have hnil := hx.of_install.1
    simp at hnil
  have h₁ := later_impossible hn hn'
  have h₂ := later_impossible hn' hn
  omega

/-- Behind an answer that is not the yes a task runs no command. -/
theorem Run.before_refusal (h : Run env s acts w) (hno : Role.call .runUpdate ∉ roles acts)
    {m ticket : Nat} {choice : Option String} (hi : (roles acts)[i]? = some ρ)
    (hm : acts.reverse[m]? = some (.step i (.awaitPrompt ticket) choice))
    (hc : choice ≠ some ρ.consent.choice) {program : String} {args : List String}
    (hn : RunsAt acts n i program args) : n < m := by
  obtain ⟨output, hn⟩ := hn
  by_contra hge
  rcases Nat.lt_or_eq_of_le (Nat.le_of_not_lt hge) with hlt | rfl
  · obtain ⟨ρ', x, hi', hx⟩ := h.accounted_of_acted hno hm
    obtain rfl := Option.some.inj (hi.symm.trans hi')
    obtain ⟨between, later, hd⟩ :=
      deeds_eq_of_lt hm (Act.tells_own ..) hn (Act.tells_own ..) hlt
    rw [hd] at hx
    have hnil := hx.of_refusal hc
    simp at hnil
  · rw [hm] at hn
    cases hn

/-- **Nothing is installed without consent of its own.** In every run in which nobody calls for an update
without asking: every command is a look-up of the installed version or the install command, word for word.
To each execution of the install command belongs a question of its own, which the same task asked before and
which was answered with yes in between: the offer to install the tool if the task is to start the server,
the offer of an update if it is an update check. Behind any other answer a task runs no command at all. -/
theorem Run.installs_consented (h : Run env s acts w) (hno : Role.call .runUpdate ∉ roles acts) :
    (∀ n i program args, RunsAt acts n i program args → program = s.toolchain.program ∧
      (args = s.toolchain.baseArgs ++ ["install", s.identity.source] ∨
        ∃ path, args = s.toolchain.versionArgs path)) ∧
    (∃ question : Nat → Nat,
      (∀ n i, InstallsAt s acts n i → ConsentedAt s acts n i (question n)) ∧
      ∀ n i n' i', InstallsAt s acts n i → InstallsAt s acts n' i' → question n = question n' →
        n = n') ∧
    (∀ m i ρ ticket choice, (roles acts)[i]? = some ρ →
      acts.reverse[m]? = some (.step i (.awaitPrompt ticket) choice) →
      choice ≠ some ρ.consent.choice →
      ∀ n program args, RunsAt acts n i program args → n < m) := by
  refine ⟨fun n i program args hn => ?_, ?_, fun m i ρ ticket choice hi hm hc n program args hn =>
    h.before_refusal hno hi hm hc hn⟩
  · obtain ⟨output, hn⟩ := hn
    obtain ⟨ρ, x, -, hx⟩ := h.accounted_of_acted hno hn
    obtain ⟨later, hl⟩ := deeds_eq_upTo hn (Act.tells_own ..)
    have hran : .ran program args ∈ deeds i acts := by simp [hl]
    rcases hx.of_command hran with hd | ⟨path, hd⟩
    · injection hd with hp ha
      exact ⟨hp, .inl ha⟩
    · injection hd with hp ha
      exact ⟨hp, .inr ⟨path, ha⟩⟩
  · have hasked : ∀ n, ∃ asked, ∀ i, InstallsAt s acts n i → ConsentedAt s acts n i asked := by
      intro n
      by_cases hex : ∃ i, InstallsAt s acts n i
      · obtain ⟨i, hn⟩ := hex
        obtain ⟨asked, hc⟩ := h.exists_consent hno hn
        exact ⟨asked, fun i' hn' => hn.task_eq hn' ▸ hc⟩
      · exact ⟨0, fun i hn => absurd ⟨i, hn⟩ hex⟩
    obtain ⟨question, hquestion⟩ := Classical.axiomOfChoice hasked
    refine ⟨question, hquestion, fun n i n' i' hn hn' heq => ?_⟩
    -- one question is asked by one task
    have htask := (hquestion n i hn).task_eq (heq ▸ hquestion n' i' hn')
    exact h.installs_once hno hn (htask ▸ hn')

end Whole

/-- The tool is missing, the user agrees to have it installed, and the command is run. -/
theorem installed_after_yes : ∃ acts w,
    Run Rehearsal.Script.environment Rehearsal.sample acts w ∧
    InstallsAt Rehearsal.sample acts 6 0 ∧ ∃ asked, ConsentedAt Rehearsal.sample acts 6 0 asked := by
  have hr := Rehearsal.run_scene { toolPath := none, answers := [.choice (some "Install")] }
    (.call .start :: List.replicate 6 (.step 0))
  obtain ⟨-, ⟨question, hquestion, -⟩, -⟩ := Run.installs_consented hr (by decide +kernel)
  exact ⟨_, _, hr, ⟨0, rfl⟩, question 6, hquestion 6 0 ⟨0, rfl⟩⟩

end Steward
