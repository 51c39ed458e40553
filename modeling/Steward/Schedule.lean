import Steward.World

/-!
# One order of steps

A single thread of execution: a task runs until it has to wait, tasks that can go on queue up, and the
call in the foreground goes first whenever it can. Time stands still as long as anything can go on; then
it jumps to the next moment that someone waits for.

The loops count their steps; the bounds are far above what any finite set of calls needs.
-/

namespace Steward

structure Schedule (ε : Type) where
  world : World ε
  /-- the tasks that can go on, first come first served -/
  ready : List Nat := []
  /-- the task that the caller itself waits for -/
  foreground : Option Nat := none

namespace Schedule

variable {ε : Type}

/-- How many steps a loop takes at most. -/
def patience : Nat := 100000

variable (env : Environment ε) (roles : Roles)

def canGoOn (s : Schedule ε) (task : Nat) : Bool := (s.world.attempt env roles task).isSome

/-- Queues up the tasks that can go on, apart from the one that is running. -/
def wake (s : Schedule ε) (running : Option Nat) : Schedule ε :=
  let woken := (List.range s.world.tasks.length).filter fun t =>
    some t != running && some t != s.foreground && !s.ready.contains t && s.canGoOn env roles t
  { s with ready := s.ready ++ woken }

/-- Runs a task until it has to wait or is over. -/
def runTask (task : Nat) : Nat → Schedule ε → Schedule ε
  | 0, s => s
  | steps + 1, s =>
    match s.world.attempt env roles task with
    | none => s
    | some w => runTask task steps ({ s with world := w }.wake env roles (some task))

/-- Runs the queued tasks until none is left. -/
def drain : Nat → Schedule ε → Schedule ε
  | 0, s => s
  | turns + 1, s =>
    match s.ready with
    | [] => s
    | t :: rest => drain turns (runTask env roles t patience { s with ready := rest })

/-- Lets everything go on that can. -/
def settle (s : Schedule ε) : Schedule ε := drain env roles patience (s.wake env roles none)

/-- Lets time pass up to `target`, moment by moment. -/
def passTo (target : Nat) : Nat → Schedule ε → Schedule ε
  | 0, s => s
  | moments + 1, s =>
    let s := s.settle env roles
    match s.world.nextDeadline? with
    | some moment =>
      if s.world.now < moment && moment ≤ target then
        passTo target moments { s with world := { s.world with now := moment } }
      else { s with world := { s.world with now := max s.world.now target } }.settle env roles
    | none => { s with world := { s.world with now := max s.world.now target } }.settle env roles

/-- Goes on until `finished` holds, while time passes up to `limit`; tells whether it came to hold. The
foreground task runs first, then the others. -/
def runUntil (finished : World ε → Bool) (limit : Nat) : Nat → Schedule ε → Bool × Schedule ε
  | 0, s => (false, s)
  | rounds + 1, s =>
    let s := match s.foreground with
      | some t => runTask env roles t patience s
      | none => s
    if finished s.world then (true, s)
    else
      let s := s.settle env roles
      let fresh := match s.foreground with
        | some t => s.canGoOn env roles t
        | none => false
      if finished s.world then (true, s)
      else if fresh then runUntil finished limit rounds s
      else
        match s.world.nextDeadline? with
        | some moment =>
          if s.world.now < moment && moment ≤ limit then
            runUntil finished limit rounds { s with world := { s.world with now := moment } }
          else (false, s)
        | none => (false, s)

/-- Adds a task and runs it in the foreground; `none` if it is not over by the time `limit`, in which
case it is given up. -/
def call (s : Schedule ε) (p : Program Flow) (limit : Nat) : Option Outcome × Schedule ε :=
  let (task, w) := s.world.addTask p
  let (finished, s) := runUntil env roles (fun w => (w.result? task).isSome) limit patience
    { s with world := w, foreground := some task }
  let s := { s with foreground := none }
  if finished then (s.world.result? task, s.settle env roles)
  else
    let w := { s.world with now := limit }
    (none, { s with world := w.drop env task }.settle env roles)

end Schedule

end Steward
