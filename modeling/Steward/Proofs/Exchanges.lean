import Steward.Proofs.Course

/-!
# What a call has asked and was told

A call that has come to its end has gone along one path of its program: request by request, each with the answer
that was given to it. `Program.Yields` are the paths of a program, and `Course.yields` says that the exchanges of
the call in its course are such a path, whatever else went on meanwhile. So what a call returns can be read off
what it was told, and this is a matter of its program alone.

The paths of two programs side by side are the paths of both, shuffled (`Program.Yields.both`).
-/

set_option autoImplicit false

namespace Steward

/-- A request and the answer to it. -/
structure Exchange where
  request : Request
  answer : request.Answer

/-- What a task has asked and was told, in the order in which it happened. -/
def exchanges (i : Nat) (acts : List Act) : List Exchange := chronicle (fun r a => some ⟨r, a⟩) i acts

/-! ## Paths -/

namespace Program

variable {α β : Type}

/-- The program can put these requests, is told this, and ends with the value. -/
def Yields : Program α → List Exchange → α → Prop
  | .done a, l, b => l = [] ∧ b = a
  | .ask r k, l, b => ∃ a l', l = ⟨r, a⟩ :: l' ∧ (k a).Yields l' b

theorem yields_bind {p : Program α} {f : α → Program β} {l : List Exchange} {b : β} :
    (p.bind f).Yields l b ↔ ∃ l₁ l₂ a, l = l₁ ++ l₂ ∧ p.Yields l₁ a ∧ (f a).Yields l₂ b := by
  induction p generalizing l with
  | done a =>
    constructor
    · intro h
      exact ⟨[], l, a, rfl, ⟨rfl, rfl⟩, h⟩
    · rintro ⟨l₁, l₂, a', rfl, ⟨rfl, rfl⟩, h⟩
      exact h
  | ask r k ih =>
    constructor
    · rintro ⟨x, l', rfl, h⟩
      obtain ⟨l₁, l₂, a, rfl, hp, hf⟩ := (ih x).1 h
      exact ⟨⟨r, x⟩ :: l₁, l₂, a, rfl, ⟨x, l₁, rfl, hp⟩, hf⟩
    · rintro ⟨l₁, l₂, a, rfl, ⟨x, l', rfl, hp⟩, hf⟩
      exact ⟨x, l' ++ l₂, rfl, (ih x).2 ⟨l', l₂, a, rfl, hp, hf⟩⟩

/-- One request and what follows it. -/
theorem yields_ask {r : Request} {f : r.Answer → Program α} {l : List Exchange} {b : α} :
    ((perform r).bind f).Yields l b ↔ ∃ a l', l = ⟨r, a⟩ :: l' ∧ (f a).Yields l' b := Iff.rfl

theorem yields_map {p : Program α} {f : α → β} {l : List Exchange} {b : β} :
    (p.bind fun a => .done (f a)).Yields l b ↔ ∃ a, p.Yields l a ∧ b = f a := by
  constructor
  · intro h
    obtain ⟨l₁, l₂, a, rfl, hp, rfl, rfl⟩ := yields_bind.1 h
    exact ⟨a, by rwa [List.append_nil], rfl⟩
  · rintro ⟨a, hp, rfl⟩
    exact yields_bind.2 ⟨l, [], a, (List.append_nil l).symm, hp, rfl, rfl⟩

/-- Two programs side by side: what is said to both is what is said to each, in some order. -/
theorem Yields.both {turns : List Side} {p : Program α} {q : Program β} {l : List Exchange} {ab : α × β}
    (h : (Program.both turns p q).Yields l ab) :
    ∃ l₁ l₂, p.Yields l₁ ab.1 ∧ q.Yields l₂ ab.2 ∧ l.Perm (l₁ ++ l₂) := by
  -- without turns the left one goes first
  have rest : ∀ {p : Program α} {q : Program β} {l : List Exchange},
      (p.bind fun a => q.bind fun b => .done (a, b)).Yields l ab →
        ∃ l₁ l₂, p.Yields l₁ ab.1 ∧ q.Yields l₂ ab.2 ∧ l.Perm (l₁ ++ l₂) := by
    intro p q l h
    obtain ⟨l₁, l', a, rfl, hp, h⟩ := yields_bind.1 h
    obtain ⟨l₂, l'', b, rfl, hq, rfl, rfl⟩ := yields_bind.1 h
    exact ⟨l₁, l₂, hp, hq, by rw [List.append_nil]⟩
  induction turns generalizing p q l with
  | nil => cases p <;> cases q <;> exact rest h
  | cons side turns ih =>
    cases side with
    | left =>
      cases p with
      | done a => cases q <;> exact rest h
      | ask r k =>
        obtain ⟨x, l', rfl, h⟩ := h
        obtain ⟨l₁, l₂, hp, hq, hperm⟩ := ih h
        exact ⟨⟨r, x⟩ :: l₁, l₂, ⟨x, l₁, rfl, hp⟩, hq, hperm.cons _⟩
    | right =>
      cases q with
      | done b => cases p <;> exact rest h
      | ask r k =>
        have hstep : ∃ x l', l = ⟨r, x⟩ :: l' ∧ (Program.both turns p (k x)).Yields l' ab := by
          cases p <;> exact h
        obtain ⟨x, l', rfl, hrest⟩ := hstep
        obtain ⟨l₁, l₂, hp, hq, hperm⟩ := ih hrest
        exact ⟨l₁, ⟨r, x⟩ :: l₂, hp, ⟨x, l₂, rfl, hq⟩, (hperm.cons _).trans List.perm_middle.symm⟩

/-- A program of one kind puts only requests of that kind. -/
theorem Only.yields {kind : Request → Bool} {p : Program α} (hp : p.Only kind) {l : List Exchange} {a : α}
    (h : p.Yields l a) : ∀ e ∈ l, kind e.request = true := by
  induction p generalizing l with
  | done b =>
    obtain ⟨rfl, -⟩ := h
    exact List.forall_mem_nil _
  | ask r k ih =>
    obtain ⟨x, l', rfl, h⟩ := h
    exact List.forall_mem_cons.2 ⟨hp.1, ih x (hp.2 x) h⟩

end Program

/-! ## Calls -/

section Exchanges

variable {i : Nat} {acts : List Act}

theorem mem_exchanges {e : Exchange} :
    e ∈ exchanges i acts ↔ .step i e.request e.answer ∈ acts := by
  constructor
  · intro h
    obtain ⟨r, a, hm, heq⟩ := mem_chronicle.1 h
    cases heq
    exact hm
  · intro h
    exact mem_chronicle.2 ⟨_, _, h, rfl⟩

end Exchanges

/-- A task takes the next request of what is left of its program, and goes on with the answer. -/
def Proceeds : Protocol (Program Outcome) := fun p r a q => ∃ k, p = .ask r k ∧ q = k a

theorem Program.proceeds (p : Program Outcome) : p.Obeys Proceeds (fun q o => q = .done o) p := by
  induction p with
  | done o => rfl
  | ask r k ih => exact fun a => ⟨k a, ⟨k, rfl, rfl⟩, ih a⟩

section Calls

variable {ε : Type} {env : Environment ε} {s : Service} {acts₀ : List Act} {w₀ w : World ε} {c : Call}
  {past : List (Episode ε)}

/-- A call has gone along a path of its program so far, and what is left of it leads on. -/
theorem Course.proceeds (h₀ : Run env s acts₀ w₀) (h : Course env s (w₀.called s c) past w) :
    ∃ p : Program Outcome, (∀ l o, p.Yields l o →
      (c.outcome s).Yields (exchanges w₀.tasks.length (actsOf past) ++ l) o) ∧
      w.Keeps Proceeds (fun q o => q = .done o) w₀.tasks.length p := by
  refine Course.accompany
    (J := fun p past _ => ∀ l o, p.Yields l o →
      (c.outcome s).Yields (exchanges w₀.tasks.length (actsOf past) ++ l) o)
    h₀ (c.outcome s).proceeds (fun l o h => h) ?_ ?_ ?_ (fun hJ _ => hJ) h
  · rintro x y past w w₁ r k a - hJ hp hperf ⟨k', rfl, rfl⟩ l o hl
    rw [exchanges, actsOf, List.map_cons, chronicle_own, List.append_assoc]
    exact hJ _ o ⟨a, l, rfl, hl⟩
  · intro x past w w₁ task r k a _ hJ hne hp hperf l o hl
    rw [exchanges, actsOf, List.map_cons, chronicle_other (Act.task?_step_ne (Ne.symm hne) r a)]
    exact hJ l o hl
  · intro x past w c' _ hJ l o hl
    rw [exchanges, actsOf, List.map_cons, chronicle_other (Act.task?_call_ne c' _)]
    exact hJ l o hl

/-- **A call goes along a path of its program**, and what it returns is what stands at the end of it. -/
theorem Course.yields (h₀ : Run env s acts₀ w₀) (h : Course env s (w₀.called s c) past w) {o : Outcome}
    (ho : w.result? w₀.tasks.length = some o) :
    (c.outcome s).Yields (exchanges w₀.tasks.length (actsOf past)) o := by
  obtain ⟨p, hpath, hkeep⟩ := h.proceeds h₀
  obtain rfl := hkeep.result ho
  have hend := hpath [] o ⟨rfl, rfl⟩
  rwa [List.append_nil] at hend

/-- What the call was told, it was told in some world of the course, and the world outside said so. -/
theorem Course.episode_of_query (h : Course env s w₀ past w) {i : Nat} {q : Query} {a : q.Answer}
    (he : ⟨.query q, a⟩ ∈ exchanges i (actsOf past)) :
    ∃ v, ⟨v, .step i (.query q) a⟩ ∈ past ∧ (env.answer q v.outside).1 = a := by
  obtain ⟨e, hm, hact⟩ := List.mem_map.1 (mem_exchanges.1 he)
  obtain ⟨v, x⟩ := e
  obtain rfl : x = .step i (.query q) a := hact
  refine ⟨v, hm, ?_⟩
  obtain ⟨later, earlier, hpast⟩ := List.append_of_mem hm
  obtain ⟨-, m, w', hmove⟩ := h.split hpast
  obtain ⟨k, w₁, -, hperf, -⟩ := World.move_act hmove
  exact congrArg Prod.fst (Option.some.inj hperf)

end Calls

end Steward
