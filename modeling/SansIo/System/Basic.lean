import SansIo.Bus.System
import SansIo.Worker.Basic

/-!
# A controller and its workers

`src/controller.rs`.  A controller has three buses: one on which it tells its workers
what to do, one on which they answer, and one that they share among themselves.  A
`System` is a controller with the threads of its workers.

The machine `system` interleaves the calls of the controller's methods with the steps
of the workers in any way.  A method that loops over workers or messages is a loop of
the machine too: `ControllerPc` says where it stands.  What a message is received for
is part of the step that receives it.  `add_worker` is one step, because it waits until
the thread it has started has built its worker.

One `send` is one step, and here a `publish` and a `broadcast` are as well.  In the source
these two hold read locks, which others share, and the mutex of one leg at a time, so that
other threads push, pop and receive between two copies.  `SansIo.Bus.Traffic` has these
steps for a bus, and `SansIo.System.Fleet` for the workers on theirs; the one step is what
comes of them where nothing comes between (`SansIo.Bus.Calls`).  What is proved of `system`
is about the buses of the controller, whose messages go to one leg, about who is
registered and what is offered to whom; the order of copies is a matter of `fleet`.
-/

namespace SansIo

open Lib Bus Backend Collections

variable {t : WorkerTypes} {I : Type} {n : Nat}

/-- Where the controller stands in its methods. -/
inductive ControllerPc where
  /-- Between two calls. -/
  | idle
  /-- In `shutdown`, before the worker with this index. -/
  | shutdown (i : Nat)
  /-- In `process`, before the worker with this index is asked for its stats. -/
  | request (i : Nat)
  /-- At the head of the loop of `process` over `worker_event`. -/
  | recv
  /-- The thread has ended. -/
  | panicked
deriving DecidableEq

/-- A `Controller` and the threads it has started.  The `STACK_SIZE` of its buses is
`n`, and an awaker is the index of the worker it wakes. -/
structure System (t : WorkerTypes) (I : Type) (n : Nat) where
  /-- `worker_inner_bus`. -/
  workerInnerBus : BusSystem t.ChannelId t.Event Nat n
  /-- `worker_control_bus`. -/
  workerControlBus : BusSystem UInt16 (WorkerControlIn t.ExtIn t.SCfg) Nat n
  /-- `worker_event_bus`. -/
  workerEventBus : BusSystem UInt16 (WorkerControlOut t.ExtOut t.SCfg) Nat n
  /-- `worker_event.leg_index`. -/
  workerEvent : Nat
  /-- The `stats` of `worker_threads`. -/
  stats : List WorkerStats
  /-- `output`. -/
  output : DynamicDeque t.ExtOut 16
  /-- `shutdown`. -/
  shutdown : Bool
  /-- Where the controller stands. -/
  pc : ControllerPc
  /-- The threads. -/
  workers : List (Worker t I)

/-- What an observer sees of a step. -/
inductive SystemEvent (t : WorkerTypes) (I : Type) where
  /-- The controller has a new worker. -/
  | added (i : Nat)
  /-- A worker's thread has made this step. -/
  | worker (i : Nat) (m : WorkerMoment t I)
  /-- A message was offered on the bus between workers. -/
  | inner (o : Offer t.ChannelId t.Event Nat)
  /-- The controller has offered a message to a worker. -/
  | control (o : Offer UInt16 (WorkerControlIn t.ExtIn t.SCfg) Nat)
  /-- A worker has offered a message to the controller. -/
  | event (o : Offer UInt16 (WorkerControlOut t.ExtOut t.SCfg) Nat)
  /-- `process` has recorded the stats of a worker. -/
  | recorded (i : Nat) (stats : WorkerStats)
  /-- `process` has returned. -/
  | processed (result : Option Unit)
  /-- `pop_event` has returned. -/
  | popped (out : Option t.ExtOut)

/-- What a worker's thread is to be answered; a bus answers from its legs. -/
inductive WorkerTurn (t : WorkerTypes) where
  | run
  | clock (now : Instant)
  | elapsed (duration : Nat)
  | control
  | incoming (event : Option (BackendIncomingInternal t.Owner))
  | bus

/-- A call of a method of the controller, or the next step of the method that it is
in, or of a worker's thread. -/
inductive SystemOp (t : WorkerTypes) where
  | addWorker (tick : Nat) (cfg : t.ICfg) (now : Instant)
  | spawn (cfg : t.SCfg)
  | shutdown
  | sendTo (worker : UInt16) (ext : t.ExtIn)
  | sendToBest (ext : t.ExtIn)
  | process
  | popEvent
  | controller
  | worker (i : Nat) (turn : WorkerTurn t)

namespace System

/-! ## The controller -/

/-- `Default::default`: the controller takes the first leg of `worker_event_bus`. -/
def default : System t I n :=
  let (workerEvent, workerEventBus) := BusSystem.default.newWorker
  { workerInnerBus := .default
    workerControlBus := .default
    workerEventBus, workerEvent
    stats := []
    output := .default
    shutdown := false
    pc := .idle
    workers := [] }

/-- `add_worker`, up to the start signal of the new thread: `Inner::build` and
`Worker::new` run there. -/
def addWorker [WorkerInner t I] (s : System t I n) (tick : Nat) (cfg : t.ICfg) (now : Instant) :
    System t I n :=
  let (workerIn, workerControlBus) := s.workerControlBus.newWorker
  let (workerOut, workerEventBus) := s.workerEventBus.newWorker
  let (workerInner, workerInnerBus) := s.workerInnerBus.newWorker
  let inner := WorkerInner.build (.ofNat workerIn) cfg
  { s with
    workerInnerBus := workerInnerBus.setAwaker workerInner s.stats.length
    workerControlBus, workerEventBus
    stats := s.stats ++ [.default]
    workers := s.workers ++ [.new now tick inner workerInner workerOut workerIn] }

/-- `worker_control_bus.send`.  The callers only log an error. -/
def sendControl (s : System t I n) (worker : Nat) (safe : Bool)
    (msg : WorkerControlIn t.ExtIn t.SCfg) : System t I n × List (SystemEvent t I) :=
  match s.workerControlBus.sendExternal worker safe msg with
  | .ok (o, workerControlBus) => ({ s with workerControlBus }, [.control o])
  | .error _ => ({ s with pc := .panicked }, [])

/-- The first worker with the lowest load. -/
def bestWorker (stats : List WorkerStats) : Option Nat :=
  (stats.map WorkerStats.load).min?.map (stats.map WorkerStats.load).idxOf

/-- `spawn`. -/
def spawn (s : System t I n) (cfg : t.SCfg) : System t I n × List (SystemEvent t I) :=
  match bestWorker s.stats with
  | none => ({ s with pc := .panicked }, [])
  | some i =>
    { s with stats := s.stats.modify i fun w ↦ { w with tasks := usizeAdd w.tasks 1 } }.sendControl
      i true (.spawn cfg)

/-- `send_to`. -/
def sendTo (s : System t I n) (worker : UInt16) (ext : t.ExtIn) :
    System t I n × List (SystemEvent t I) :=
  s.sendControl worker.toNat true (.ext ext)

/-- `send_to_best`. -/
def sendToBest (s : System t I n) (ext : t.ExtIn) : System t I n × List (SystemEvent t I) :=
  match bestWorker s.stats with
  | none => ({ s with pc := .panicked }, [])
  | some i => s.sendControl i true (.ext ext)

/-- `pop_event`. -/
def popEvent (s : System t I n) : System t I n × List (SystemEvent t I) :=
  ({ s with output := s.output.popFront.2 }, [.popped s.output.popFront.1])

/-- `count_running_workers`. -/
def countRunningWorkers (s : System t I n) : Nat :=
  (s.stats.filter fun w ↦ 0 < w.tasks ∧ ¬ w.isEmpty).length

/-- The head of `process`. -/
def process (s : System t I n) : System t I n × List (SystemEvent t I) :=
  if s.shutdown = true ∧ s.countRunningWorkers = 0 then (s, [.processed none])
  else ({ s with pc := .request 0 }, [])

/-- The body of the loop of `process` over `worker_event`, and the exit from it. -/
def onWorkerEvent (s : System t I n) :
    Option (BusEventSource UInt16 × WorkerControlOut t.ExtOut t.SCfg) →
      System t I n × List (SystemEvent t I)
  | some (.direct (i + 1), .stats stats) =>
    if i < s.stats.length then ({ s with stats := s.stats.set i stats }, [.recorded i stats])
    else ({ s with pc := .panicked }, [])
  | some (.direct _, .ext ext) => ({ s with output := s.output.pushBack ext }, [])
  | some (.direct _, .spawn cfg) => s.spawn cfg
  | some _ => ({ s with pc := .panicked }, [])
  | none => ({ s with pc := .idle }, [.processed (some ())])

/-- The next step of the method that the controller is in. -/
def controllerStep (s : System t I n) : Option (System t I n × List (SystemEvent t I)) :=
  match s.pc with
  | .shutdown i =>
    if i < s.stats.length then
      some ({ s with pc := .shutdown (i + 1) }.sendControl i true .shutdown)
    else some ({ s with pc := .idle }, [])
  | .request i =>
    if i < s.stats.length then
      some ({ s with pc := .request (i + 1) }.sendControl i false .statsRequest)
    else some ({ s with pc := .recv }, [])
  | .recv =>
    let (msg, workerEventBus) := s.workerEventBus.recv s.workerEvent
    some ({ s with workerEventBus }.onWorkerEvent msg)
  | _ => none

/-! ## The workers -/

/-- The answer to a worker's thread, and the system after it. -/
def answer (s : System t I n) (x : Worker t I) : WorkerTurn t → Answer t × System t I n
  | .run => (.run, s)
  | .clock now => (.clock now, s)
  | .elapsed d => (.elapsed d, s)
  | .control =>
    let (msg, workerControlBus) := s.workerControlBus.recv x.workerIn
    (.control (msg.map Prod.snd), { s with workerControlBus })
  | .incoming event => (.incoming event, s)
  | .bus =>
    let (msg, workerInnerBus) := s.workerInnerBus.recv x.innerBus
    (.bus msg, { s with workerInnerBus })

variable [DecidableEq t.ChannelId]

/-- What an act of a worker does to the buses.  A safe `send` is never refused
(`QueueInternal.send_eq`), which is what the worker expects of those it unwraps. -/
def perform (s : System t I n) (x : Worker t I) :
    Act t → Panics (List (SystemEvent t I) × System t I n)
  | .workerOut safe msg => do
    let (o, workerEventBus) ← s.workerEventBus.send x.workerOut 0 safe msg
    .ok ([.event o], { s with workerEventBus })
  | .subscribe channel =>
    .ok ([], { s with workerInnerBus := s.workerInnerBus.subscribe x.innerBus channel })
  | .unsubscribe channel =>
    .ok ([], { s with workerInnerBus := s.workerInnerBus.unsubscribe x.innerBus channel })
  | .publish channel safe msg => do
    let (os, workerInnerBus) ← s.workerInnerBus.publish x.innerBus channel safe msg
    .ok (os.map .inner, { s with workerInnerBus })
  | .broadcast safe msg => do
    let (os, workerInnerBus) ← s.workerInnerBus.broadcast x.innerBus safe msg
    .ok (os.map .inner, { s with workerInnerBus })
  | _ => .ok ([], s)

/-- The acts of a step, in order. -/
def performAll (s : System t I n) (x : Worker t I) :
    List (Act t) → Panics (List (SystemEvent t I) × System t I n)
  | [] => .ok ([], s)
  | act :: acts => do
    let (events, s) ← s.perform x act
    let (events', s) ← s.performAll x acts
    .ok (events ++ events', s)

variable [WorkerInner t I] [DecidableEq t.Owner]

/-- A step of a worker's thread. -/
def workerStep (s : System t I n) (i : Nat) (turn : WorkerTurn t) :
    Option (System t I n × List (SystemEvent t I)) :=
  match s.workers[i]? with
  | none => none
  | some x =>
    match worker.step x (s.answer x turn).1 with
    | none => none
    | some (x', acts) =>
      match (s.answer x turn).2.performAll x acts with
      | .ok (events, s') =>
        some ({ s' with workers := s'.workers.set i x' },
          .worker i ⟨x, (s.answer x turn).1, acts, x'⟩ :: events)
      | .error _ =>
        let s' := (s.answer x turn).2
        some ({ s' with workers := s'.workers.set i { x' with pc := .panicked } }, [])

/-- One step of the system. -/
def step (s : System t I n) : SystemOp t → Option (System t I n × List (SystemEvent t I))
  | .worker i turn => s.workerStep i turn
  | .controller => s.controllerStep
  | .addWorker tick cfg now =>
    if s.pc = .idle then some (s.addWorker tick cfg now, [.added s.stats.length]) else none
  | .spawn cfg => if s.pc = .idle then some (s.spawn cfg) else none
  | .shutdown =>
    if s.pc = .idle then some ({ s with shutdown := true, pc := .shutdown 0 }, []) else none
  | .sendTo i ext => if s.pc = .idle then some (s.sendTo i ext) else none
  | .sendToBest ext => if s.pc = .idle then some (s.sendToBest ext) else none
  | .process => if s.pc = .idle then some s.process else none
  | .popEvent => if s.pc = .idle then some s.popEvent else none

end System

/-- A controller and its workers, under every interleaving. -/
def system [WorkerInner t I] [DecidableEq t.Owner] [DecidableEq t.ChannelId] :
    Machine (System t I n) (SystemOp t) (SystemEvent t I) where
  step := System.step

/-- A moment of a system. -/
abbrev SystemMoment (t : WorkerTypes) (I : Type) (n : Nat) :=
  Moment (System t I n) (SystemOp t) (SystemEvent t I)

/-- A history of a system. -/
abbrev SystemHistory (t : WorkerTypes) (I : Type) (n : Nat) :=
  History (System t I n) (SystemOp t) (SystemEvent t I)

/-! ## What a history reports of one worker -/

/-- What an event reports of a worker. -/
def SystemEvent.report (i : Nat) : SystemEvent t I → Option (WorkerMoment t I)
  | .worker j m => if j = i then some m else none
  | _ => none

/-- What a history reports of a worker. -/
def SystemHistory.of (h : SystemHistory t I n) (i : Nat) : WorkerHistory t I :=
  h.events.filterMap (SystemEvent.report i)

@[simp] theorem SystemHistory.of_append (h h' : SystemHistory t I n) (i : Nat) :
    SystemHistory.of (h ++ h') i = SystemHistory.of h i ++ SystemHistory.of h' i := by
  simp [SystemHistory.of]

/-- What the events of a step of a worker report. -/
theorem report_worker {j : Nat} {w : WorkerMoment t I} {events : List (SystemEvent t I)}
    (h : ∀ e ∈ events, (∃ o, e = .inner o) ∨ ∃ o, e = .event o) (i : Nat) :
    (.worker j w :: events).filterMap (SystemEvent.report i) = if j = i then [w] else [] := by
  have hnone : events.filterMap (SystemEvent.report i) = [] := by
    rw [List.filterMap_eq_nil_iff]
    intro e he
    rcases h e he with ⟨o, rfl⟩ | ⟨o, rfl⟩ <;> rfl
  rw [List.filterMap_cons, hnone]
  rcases eq_or_ne j i with rfl | hne
  · simp [SystemEvent.report]
  · simp [SystemEvent.report, hne]

end SansIo
