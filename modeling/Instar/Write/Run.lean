import Instar.Write.Exec
import Instar.Write.Act

/-!
# Runs of the plan / execute / resume loop

The system a caller drives: the planner state, the buffers and the devices.  `serve` runs one
request through the loop of the operations: plan a window, execute it, and on a full buffer plan
again with the same arguments.  `runRequests` serves a list of requests.

`eager` is the reference machine the windowed loop is compared with: it carries out one action at
a time and executes its step at once.
-/

namespace Instar.Write

open Instar.Qcow2

/-- A planner, its regions and its devices. -/
structure Sys where
  state : WriteState
  regions : Regions
  devices : Devices

/-- A request and, for a write, the caller-data buffer the operation has filled for it. -/
inductive Request where
  | write (voff len : Nat) (data : DataSource) (callerData : Buffer)
  | flush

/-- How serving a request ended. `running` is an exhausted loop bound. -/
inductive Served where
  | done (result : Except WriteError Unit) (sys : Sys) (steps : List Step)
  | execFailed
  | running

/-! ## The windowed loop -/

/-- A planner over the system's buffers with an empty step buffer. -/
def Sys.planner (sys : Sys) (capacity : Nat) : Planner :=
  ⟨sys.state, sys.regions.staged, ⟨capacity, []⟩⟩

/-- One planner call for a request. -/
def planRequest (pl : Planner) : Request → Option (Except WriteError Unit × Planner)
  | .write voff len data _ => planWrite pl voff len data
  | .flush => planFlush pl

/-- Execute the window a planner call emitted; `none` if a step fails. -/
def Sys.perform (sys : Sys) (pl : Planner) : Option Sys :=
  match execute pl.steps.steps { sys.regions with staged := pl.staged } sys.devices with
  | (.ok (), regions, devices) => some ⟨pl.state, regions, devices⟩
  | (.error _, _, _) => none

/-- Serve a request: plan, execute, resume after a full buffer. -/
def serve (capacity : Nat) (req : Request) : Nat → Sys → List Step → Served
  | 0, _, _ => .running
  | fuel + 1, sys, acc =>
    match planRequest (sys.planner capacity) req with
    | none => .running
    | some (r, pl) =>
      match sys.perform pl with
      | none => .execFailed
      | some sys =>
        match r with
        | .error .bufFull => serve capacity req fuel sys (acc ++ pl.steps.steps)
        | r => .done r sys (acc ++ pl.steps.steps)

/-- A bound on the windows of a request. -/
def Request.fuel (st : WriteState) : Request → Nat
  | .write _ len _ _ => 15 * len + 16
  | .flush => flushFuel st

/-- The caller puts the request's bytes into its data buffer. -/
def Sys.stage (sys : Sys) : Request → Sys
  | .write _ _ _ callerData => { sys with regions := { sys.regions with callerData } }
  | .flush => sys

/-- The outcome of one request: its result and the steps emitted for it. -/
structure Reply where
  result : Except WriteError Unit
  steps : List Step

/-- How a run of requests ends. -/
inductive Run where
  | done (sys : Sys) (replies : List Reply)
  | execFailed
  | running

/-- Every request has been answered. -/
def Run.isDone : Run → Bool
  | .done _ _ => true
  | _ => false

theorem Run.isDone_iff {run : Run} : run.isDone = true ↔
    ∃ sys replies, run = .done sys replies := by
  cases run <;> simp [Run.isDone]

/-- Every request has completed. -/
def Run.allOk : Run → Bool
  | .done _ replies => replies.all fun reply => reply.result.isOk
  | _ => false

theorem Run.allOk_iff {run : Run} : run.allOk = true ↔
    ∃ sys replies, run = .done sys replies ∧ ∀ reply ∈ replies, reply.result = .ok () := by
  have hok : ∀ r : Except WriteError Unit, r.isOk = true ↔ r = .ok () := by
    intro r
    cases r <;> simp [Except.isOk, Except.toBool]
  cases run <;> simp [Run.allOk, hok]

/-- Serve a list of requests with one way of serving each. -/
def runWith (serveOne : Request → Sys → Served) : List Request → Sys → List Reply → Run
  | [], sys, acc => .done sys acc
  | req :: reqs, sys, acc =>
    match serveOne req (sys.stage req) with
    | .done r sys steps => runWith serveOne reqs sys (acc ++ [⟨r, steps⟩])
    | .execFailed => .execFailed
    | .running => .running

/-- Serve a list of requests through windows of the given capacity. -/
def runRequests (capacity : Nat) (reqs : List Request) (sys : Sys) : Run :=
  runWith (fun req sys => serve capacity req (req.fuel sys.state) sys []) reqs sys []

/-! ## The eager machine -/

/-- The number of steps since a barrier, once a step has been pushed. -/
def WriteState.countStep (st : WriteState) : Option Step → WriteState
  | none => st
  | some step =>
    { st with stepsSinceBarrier := match step.kind with
      | .barrier _ => 0
      | _ => st.stepsSinceBarrier + 1 }

def Regions.setRefblocks (r : Regions) (refblocks : Buffer) : Regions :=
  { r with staged := { r.staged with refblocks } }

/-- Execute one step; `none` if it fails. -/
def execOne (r : Regions) (devs : Devices) (step : Step) : Option (Regions × Devices) :=
  match execStep r devs step with
  | (.ok (), r, devs) => some (r, devs)
  | (.error _, _, _) => none

/-- Carry out a move and execute its step at once. -/
def Sys.move (sys : Sys) (step : Option Step) (update : WriteState → WriteState)
    (refblocks : Buffer) : Option Sys :=
  let st := (update (sys.state.countStep step)).pendingZeroClearAll
  let regions := sys.regions.setRefblocks refblocks
  match step with
  | none => some ⟨st, regions, sys.devices⟩
  | some step =>
    match execOne regions sys.devices step with
    | none => none
    | some (regions, devices) => some ⟨st, regions, devices⟩

/-- The system after a refusal. -/
def Sys.refuse (sys : Sys) (update : WriteState → WriteState) (refblocks : Buffer) : Sys :=
  ⟨(update sys.state).pendingZeroClearAll, sys.regions.setRefblocks refblocks, sys.devices⟩

/-- Run actions one at a time. -/
def eager {P : Type} (actOf : WriteState → StagedRegions → P → Act P) :
    Nat → Sys → P → List Step → Served
  | 0, _, _, _ => .running
  | fuel + 1, sys, prog, acc =>
    match actOf sys.state sys.regions.staged prog with
    | .refuse e update refblocks => .done (.error e) (sys.refuse update refblocks) acc
    | .move step _ update refblocks prog _ =>
      match sys.move step update refblocks with
      | none => .execFailed
      | some sys => eager actOf fuel sys prog (acc ++ step.toList)
    | .finish step =>
      match sys.move step id sys.regions.staged.refblocks with
      | none => .execFailed
      | some sys => .done (.ok ()) sys (acc ++ step.toList)

/-- The system as the next planner call sees it: queued slot zeroings have been executed. -/
def Sys.settle (sys : Sys) : Sys := { sys with state := sys.state.pendingZeroClearAll }

/-- Serve a request on the eager machine. -/
def serveEager (req : Request) (sys : Sys) : Served :=
  match validateStaged sys.state sys.regions.staged 1 with
  | .error e => .done (.error e) sys []
  | .ok () =>
    match req with
    | .write voff len data _ =>
      match admitWrite sys.state.geometry voff len data with
      | .error e => .done (.error e) sys []
      | .ok none => .done (.ok ()) sys []
      | .ok (some prog) => eager writeActOf (req.fuel sys.state) sys prog []
    | .flush => eager flushActOf (req.fuel sys.state) sys ⟨.preBarrier, 0⟩ []

/-- Serve a list of requests on the eager machine. -/
def runEager (reqs : List Request) (sys : Sys) : Run := runWith serveEager reqs sys []

def Served.settle : Served → Served
  | .done r sys steps => .done r sys.settle steps
  | .execFailed => .execFailed
  | .running => .running

def Run.settle : Run → Run
  | .done sys replies => .done sys.settle replies
  | .execFailed => .execFailed
  | .running => .running

end Instar.Write
