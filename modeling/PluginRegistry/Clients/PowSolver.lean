import PluginRegistry.Clients.Pow
import PluginRegistry.Lib.Machine

namespace PluginRegistry.Acprctl
open Lib

structure PowTask where
  challengeID : String
  salt : String
  difficulty : Int

inductive Goroutine
  | polling
  | counting
  | testing (nonce : Nat)
  | sending (nonce : Nat)
  | stopped
  deriving DecidableEq

/-- What the goroutines share: the atomic counter, the channel with room for one
nonce, and whether `ctx` is done. `none` in `returned` is a function that still waits. -/
structure Solver where
  counter : Nat
  goroutines : Nat → Goroutine
  result : Option String
  done : Bool
  returned : Option (Except String String)

/-- `deadline` is the timeout of `ctx`; `receive` and `giveUp` are the two cases of
the last `select`, of which Go picks any that is ready. -/
inductive SolverEvent
  | step (worker : Nat)
  | deadline
  | receive
  | giveUp
  deriving DecidableEq

namespace Solver

def start (workers : Nat) : Solver where
  counter := 0
  goroutines := fun i => if i < max 1 workers then .polling else .stopped
  result := none
  done := false
  returned := none

def setGoroutine (s : Solver) (worker : Nat) (g : Goroutine) : Solver :=
  { s with goroutines := Function.update s.goroutines worker g }

/-- `counter.Add(1) - 1` on a `uint64`. -/
def draw (s : Solver) : Solver :=
  { s with counter := (s.counter + 1) % 2 ^ 64 }

/-- `result <- candidate`, or nothing if the channel is full. -/
def send (s : Solver) (candidate : String) : Solver :=
  { s with result := some (s.result.getD candidate) }

def advance (task : PowTask) (s : Solver) (worker : Nat) : Solver :=
  match s.goroutines worker with
  | .polling => s.setGoroutine worker (if s.done then .stopped else .counting)
  | .counting => s.draw.setGoroutine worker (.testing s.counter)
  | .testing nonce =>
    s.setGoroutine worker
      (if registerPOWValid task.challengeID task.salt (toString nonce) task.difficulty then
        .sending nonce
      else .polling)
  | .sending nonce => (s.send (toString nonce)).setGoroutine worker .stopped
  | .stopped => s

/-- The end of the function, which cancels `ctx`. -/
def finish (s : Solver) (answer : Except String String) : Solver :=
  { s with done := true, returned := some answer }

def step (task : PowTask) (s : Solver) : SolverEvent → Solver
  | .step worker => s.advance task worker
  | .deadline => { s with done := true }
  | .receive =>
    match s.returned, s.result with
    | none, some nonce => { s with result := none }.finish (.ok nonce)
    | _, _ => s
  | .giveUp =>
    if s.returned.isNone && s.done then s.finish (.error "register PoW timed out") else s

end Solver

def solveRegisterPOW (task : PowTask) (workers : Nat) : Machine Solver SolverEvent where
  init := .start workers
  step := Solver.step task

end PluginRegistry.Acprctl
