import SansIo.Backend.Basic
import SansIo.Bus.Leg
import SansIo.Bus.LocalHub
import SansIo.Lib.Machine
import SansIo.Task.Switcher

/-!
# Workers

`src/worker.rs`.  A worker drives an inner value, which takes inputs and is popped for
outputs, from a control bus, a clock, a backend and the bus between workers.

`Worker.step` cuts `init` and `process` where they ask something of the world outside
the worker: the time, a message, an event of the backend.  What the world answers is
the label, so that a run of the machine `worker` is a run of `init` and of any number
of calls of `process` against every world.  A `Pc` says where the worker stands
between two steps.  What a step does to the inner value and to the world is its list
of `Act`s.  Receiving a message and giving it to the inner value is one step, and so
is popping an output and acting on it: each takes from the world, or gives to it, once
at most.  A `StatsRequest` takes two steps, since a lock is taken to receive it and
another one to send the answer, and others come in between.
-/

namespace SansIo

open Lib Bus Backend

/-- The type parameters that a worker and its controller share. -/
structure WorkerTypes where
  /-- What the inner value calls its parts. -/
  Owner : Type
  /-- Messages from outside the controller. -/
  ExtIn : Type
  /-- Messages to the outside. -/
  ExtOut : Type
  /-- The channels of the bus between workers. -/
  ChannelId : Type
  /-- The messages of the bus between workers. -/
  Event : Type
  /-- How an inner value is built. -/
  ICfg : Type
  /-- How a task is spawned. -/
  SCfg : Type

/-! ## What is said to and by a worker -/

/-- `BusChannelControl`.  The `Bool` of `publish` says whether the message is safe. -/
inductive BusChannelControl (ChannelId MSG : Type) where
  | subscribe (channel : ChannelId)
  | unsubscribe (channel : ChannelId)
  | publish (channel : ChannelId) (safe : Bool) (msg : MSG)

/-- `BusControl`. -/
inductive BusControl (Owner ChannelId MSG : Type) where
  | channel (owner : Owner) (control : BusChannelControl ChannelId MSG)
  | broadcast (safe : Bool) (msg : MSG)

/-- `BusEvent`. -/
inductive BusEvent (Owner ChannelId MSG : Type) where
  | broadcast (source : UInt16) (msg : MSG)
  | channel (owner : Owner) (channel : ChannelId) (msg : MSG)

/-- `WorkerControlIn`. -/
inductive WorkerControlIn (Ext SCfg : Type) where
  | ext (ext : Ext)
  | spawn (cfg : SCfg)
  | statsRequest
  | shutdown

/-- `WorkerStats`. -/
structure WorkerStats where
  /-- How many tasks the worker has. -/
  tasks : Nat
  /-- Always zero. -/
  utilization : UInt32
  /-- What `is_empty` of the inner value returned. -/
  isEmpty : Bool
deriving DecidableEq, Repr

/-- `Default::default`, as derived. -/
def WorkerStats.default : WorkerStats := ⟨0, 0, false⟩

/-- `load`: the tasks `as u32`. -/
def WorkerStats.load (s : WorkerStats) : Nat := s.tasks % 2 ^ 32

/-- `WorkerControlOut`. -/
inductive WorkerControlOut (Ext SCfg : Type) where
  | stats (stats : WorkerStats)
  | ext (ext : Ext)
  | spawn (cfg : SCfg)

/-- `WorkerInnerInput`. -/
inductive WorkerInnerInput (t : WorkerTypes) where
  | net (owner : t.Owner) (event : BackendIncoming)
  | bus (event : BusEvent t.Owner t.ChannelId t.Event)
  | ext (ext : t.ExtIn)

/-- `WorkerInnerOutput`.  The `Bool` of `ext` says whether the message is safe. -/
inductive WorkerInnerOutput (t : WorkerTypes) where
  | net (owner : t.Owner) (action : BackendOutgoing)
  | bus (event : BusControl t.Owner t.ChannelId t.Event)
  | ext (safe : Bool) (ext : t.ExtOut)
  | spawn (cfg : t.SCfg)
  | continue

/-- The trait `WorkerInner`.  A method that takes `&mut self` returns the new value. -/
class WorkerInner (t : outParam WorkerTypes) (I : Type) where
  /-- `build`. -/
  build : UInt16 → t.ICfg → I
  /-- `tasks`. -/
  tasks : I → Nat
  /-- `is_empty`. -/
  isEmpty : I → Bool
  /-- `spawn`. -/
  spawn : I → Instant → t.SCfg → I
  /-- `on_tick`. -/
  onTick : I → Instant → I
  /-- `on_event`. -/
  onEvent : I → Instant → WorkerInnerInput t → I
  /-- `on_shutdown`. -/
  onShutdown : I → Instant → I
  /-- `pop_output`. -/
  popOutput : I → Instant → Option (WorkerInnerOutput t) × I

/-- A call that gives the inner value an input. -/
inductive InnerCall (t : WorkerTypes) where
  | spawn (cfg : t.SCfg)
  | onTick
  | onEvent (event : WorkerInnerInput t)
  | onShutdown

/-- Something a worker does. -/
inductive Act (t : WorkerTypes) where
  /-- It gives the inner value an input. -/
  | input (call : InnerCall t)
  /-- It pops the inner value. -/
  | popOutput (out : Option (WorkerInnerOutput t))
  /-- `worker_out.send(0, safe, msg)`. -/
  | workerOut (safe : Bool) (msg : WorkerControlOut t.ExtOut t.SCfg)
  /-- `inner_bus.subscribe(channel)`. -/
  | subscribe (channel : t.ChannelId)
  /-- `inner_bus.unsubscribe(channel)`. -/
  | unsubscribe (channel : t.ChannelId)
  /-- `inner_bus.publish(channel, safe, msg)`. -/
  | publish (channel : t.ChannelId) (safe : Bool) (msg : t.Event)
  /-- `inner_bus.broadcast(safe, msg)`. -/
  | broadcast (safe : Bool) (msg : t.Event)
  /-- `backend.on_action(owner, action)`. -/
  | onAction (owner : t.Owner) (action : BackendOutgoing)
  /-- `backend.poll_incoming(remain_time)`. -/
  | pollIncoming (remainTime : Nat)
  /-- `backend.finish_incoming_cycle()`. -/
  | finishIncomingCycle
  /-- `backend.finish_outgoing_cycle()`. -/
  | finishOutgoingCycle

/-- What a worker is answered when it asks. -/
inductive Answer (t : WorkerTypes) where
  /-- It has asked nothing. -/
  | run
  /-- `Instant::now()`. -/
  | clock (now : Instant)
  /-- `now.elapsed()`, in nanoseconds. -/
  | elapsed (duration : Nat)
  /-- `worker_in.recv()`, without the source. -/
  | control (msg : Option (WorkerControlIn t.ExtIn t.SCfg))
  /-- `backend.pop_incoming()`. -/
  | incoming (event : Option (BackendIncomingInternal t.Owner))
  /-- `inner_bus.recv()`. -/
  | bus (msg : Option (BusEventSource t.ChannelId × t.Event))

/-- Where a worker stands in `init` and `process`, apart from `pop_inner`. -/
inductive Pc (t : WorkerTypes) where
  /-- Before `init`. -/
  | start
  /-- Between two calls of `process`. -/
  | idle
  /-- At the head of the loop over `worker_in`. -/
  | control
  /-- In that loop, with a `StatsRequest` in hand. -/
  | reply
  /-- Before the test of `last_tick`. -/
  | tick
  /-- Before `poll_incoming`. -/
  | poll
  /-- At the head of the loop over `pop_incoming`. -/
  | incoming
  /-- At the head of the loop of `on_awake`. -/
  | awake
  /-- At the head of its loop over the subscribers of a channel. -/
  | deliver (subscribers : List t.Owner) (channel : t.ChannelId) (event : t.Event)
  /-- The thread has ended. -/
  | panicked

/-- `Worker`, with the local variables of its thread.  The three `BusWorker`s are the
indices of their legs, and the backend is part of the world. -/
structure Worker (t : WorkerTypes) (I : Type) where
  /-- `tick`, in nanoseconds. -/
  tick : Nat
  /-- `last_tick`. -/
  lastTick : Instant
  /-- `inner`. -/
  inner : I
  /-- `bus_local_hub`. -/
  busLocalHub : BusLocalHub t.Owner t.ChannelId
  /-- `inner_bus.leg_index`. -/
  innerBus : Nat
  /-- `worker_out.leg_index`. -/
  workerOut : Nat
  /-- `worker_in.leg_index`. -/
  workerIn : Nat
  /-- The local variable `now`. -/
  now : Instant
  /-- Where the thread stands. -/
  pc : Pc t
  /-- Whether it is in the loop of `pop_inner`, which it leaves for `pc`. -/
  popping : Bool

namespace Worker

variable {t : WorkerTypes} {I : Type}

/-- `Worker::new`, at a time. -/
def new (now : Instant) (tick : Nat) (inner : I) (innerBus workerOut workerIn : Nat) :
    Worker t I where
  tick := tick
  lastTick := now - 2 * tick
  inner := inner
  busLocalHub := .default
  innerBus := innerBus
  workerOut := workerOut
  workerIn := workerIn
  now := now
  pc := .start
  popping := false

section Output

variable [DecidableEq t.Owner] [DecidableEq t.ChannelId]

/-- `process_inner_output`. -/
def processInnerOutput (x : Worker t I) : WorkerInnerOutput t → Worker t I × List (Act t)
  | .spawn cfg => (x, [.workerOut true (.spawn cfg)])
  | .net owner action => (x, [.onAction owner action])
  | .bus (.channel owner (.subscribe channel)) =>
    let (first, busLocalHub) := x.busLocalHub.subscribe owner channel
    ({ x with busLocalHub }, if first then [.subscribe channel] else [])
  | .bus (.channel owner (.unsubscribe channel)) =>
    let (last, busLocalHub) := x.busLocalHub.unsubscribe owner channel
    ({ x with busLocalHub }, if last then [.unsubscribe channel] else [])
  | .bus (.channel _ (.publish channel safe msg)) => (x, [.publish channel safe msg])
  | .bus (.broadcast safe msg) => (x, [.broadcast safe msg])
  | .ext safe ext => (x, [.workerOut safe (.ext ext)])
  | .continue => (x, [])

/-- An output changes the hub only. -/
theorem processInnerOutput_eq (x : Worker t I) (out : WorkerInnerOutput t) :
    (x.processInnerOutput out).1 =
      { x with busLocalHub := (x.processInnerOutput out).1.busLocalHub } := by
  rcases out with _ | (⟨_, _ | _ | _⟩ | _) | _ | _ | _ <;> rfl

@[simp] theorem pc_processInnerOutput (x : Worker t I) (out : WorkerInnerOutput t) :
    (x.processInnerOutput out).1.pc = x.pc := by
  rw [processInnerOutput_eq]

@[simp] theorem popping_processInnerOutput (x : Worker t I) (out : WorkerInnerOutput t) :
    (x.processInnerOutput out).1.popping = x.popping := by
  rw [processInnerOutput_eq]

/-- What an output is passed on as. -/
inductive PassedOn : WorkerInnerOutput t → List (Act t) → Prop
  | spawn {cfg} : PassedOn (.spawn cfg) [.workerOut true (.spawn cfg)]
  | net {owner action} : PassedOn (.net owner action) [.onAction owner action]
  | subscribe {owner channel} :
      PassedOn (.bus (.channel owner (.subscribe channel))) [.subscribe channel]
  | unsubscribe {owner channel} :
      PassedOn (.bus (.channel owner (.unsubscribe channel))) [.unsubscribe channel]
  | publish {owner channel safe msg} :
      PassedOn (.bus (.channel owner (.publish channel safe msg))) [.publish channel safe msg]
  | broadcast {safe msg} : PassedOn (.bus (.broadcast safe msg)) [.broadcast safe msg]
  | ext {safe e} : PassedOn (.ext safe e) [.workerOut safe (.ext e)]
  | /-- The hub has changed, and not who is registered. -/
    hub {owner control} (h : ∀ channel safe msg, control ≠ .publish channel safe msg) :
      PassedOn (.bus (.channel owner control)) []
  | continue : PassedOn .continue []

/-- **An output is passed on** as one act or none. -/
theorem passedOn (x : Worker t I) (out : WorkerInnerOutput t) :
    PassedOn out (x.processInnerOutput out).2 := by
  rcases out with _ | (⟨o, c | c | _⟩ | _) | _ | _ | _
  case bus.channel.subscribe =>
    simp only [processInnerOutput]
    split
    · exact .subscribe
    · exact .hub nofun
  case bus.channel.unsubscribe =>
    simp only [processInnerOutput]
    split
    · exact .unsubscribe
    · exact .hub nofun
  all_goals constructor

/-- It is no call of the inner value, and never its stats. -/
theorem processInnerOutput_acts (x : Worker t I) (out : WorkerInnerOutput t) {a : Act t}
    (ha : a ∈ (x.processInnerOutput out).2) :
    (∀ c, a ≠ .input c) ∧ (∀ out', a ≠ .popOutput out') ∧
      ∀ safe stats, a ≠ .workerOut safe (.stats stats) := by
  have hpassed := x.passedOn out
  generalize (x.processInnerOutput out).2 = acts at ha hpassed
  cases hpassed with
  | hub h => cases ha
  | «continue» => cases ha
  | _ =>
      cases List.mem_singleton.1 ha
      exact ⟨nofun, nofun, nofun⟩

end Output

variable [WorkerInner t I]

/-- Give the inner value an input. -/
def call (x : Worker t I) : InnerCall t → Worker t I
  | .spawn cfg => { x with inner := WorkerInner.spawn x.inner x.now cfg }
  | .onTick => { x with inner := WorkerInner.onTick x.inner x.now }
  | .onEvent event => { x with inner := WorkerInner.onEvent x.inner x.now event }
  | .onShutdown => { x with inner := WorkerInner.onShutdown x.inner x.now }

/-- An input changes the inner value only. -/
theorem call_eq (x : Worker t I) (c : InnerCall t) :
    x.call c = { x with inner := (x.call c).inner } := by
  cases c <;> rfl

@[simp] theorem pc_call (x : Worker t I) (c : InnerCall t) : (x.call c).pc = x.pc := by
  rw [call_eq]

@[simp] theorem popping_call (x : Worker t I) (c : InnerCall t) :
    (x.call c).popping = x.popping := by
  rw [call_eq]

@[simp] theorem busLocalHub_call (x : Worker t I) (c : InnerCall t) :
    (x.call c).busLocalHub = x.busLocalHub := by
  rw [call_eq]

/-- Give the inner value an input, and go to `pop_inner`. -/
def callAndPop (x : Worker t I) (c : InnerCall t) : Worker t I × List (Act t) :=
  ({ x.call c with popping := true }, [.input c])

/-- The stats that a `StatsRequest` is answered with. -/
def stats (x : Worker t I) : WorkerStats where
  tasks := WorkerInner.tasks x.inner
  utilization := 0
  isEmpty := WorkerInner.isEmpty x.inner

/-- The body of the loop over `worker_in`, and the exit from it. -/
def onControl (x : Worker t I) :
    Option (WorkerControlIn t.ExtIn t.SCfg) → Worker t I × List (Act t)
  | some (.ext ext) => x.callAndPop (.onEvent (.ext ext))
  | some (.spawn cfg) => (x.call (.spawn cfg), [.input (.spawn cfg)])
  | some .statsRequest => ({ x with pc := .reply }, [])
  | some .shutdown => (x.call .onShutdown, [.input .onShutdown])
  | none => ({ x with pc := .tick }, [])

/-- The answer to a `StatsRequest`. -/
def reply (x : Worker t I) : Worker t I × List (Act t) :=
  ({ x with pc := .control }, [.workerOut true (.stats x.stats)])

/-- The test of `last_tick`. -/
def tickDue (x : Worker t I) : Prop := x.tick ≤ (x.now - x.lastTick).toNat

instance (x : Worker t I) : Decidable x.tickDue := inferInstanceAs (Decidable (_ ≤ _))

/-- The tick. -/
def onTick (x : Worker t I) : Worker t I × List (Act t) :=
  if x.tickDue then { x with lastTick := x.now, pc := .poll }.callAndPop .onTick
  else ({ x with pc := .poll }, [])

/-- `remain_time`: what is left of 1 ms, and 1 µs if nothing is. -/
def remainTime (elapsed : Nat) : Nat :=
  if elapsed ≤ 1000000 then 1000000 - elapsed else 1000

/-- The body of the loop over `pop_incoming`, and the exit from it. -/
def onIncoming (x : Worker t I) :
    Option (BackendIncomingInternal t.Owner) → Worker t I × List (Act t)
  | some .awake => ({ x with pc := .awake }, [])
  | some (.event owner event) => x.callAndPop (.onEvent (.net owner event))
  | none => ({ x with pc := .idle }, [.finishIncomingCycle, .finishOutgoingCycle])

/-- The body of the loop of `on_awake`, and the exit from it. -/
def onAwake (x : Worker t I) :
    Option (BusEventSource t.ChannelId × t.Event) → Worker t I × List (Act t)
  | some (.channel _ channel, event) => match x.busLocalHub.getSubscribers channel with
    | some subscribers => ({ x with pc := .deliver subscribers channel event }, [])
    | none => (x, [])
  | some (.broadcast source, event) =>
    x.callAndPop (.onEvent (.bus (.broadcast (.ofNat source) event)))
  | some _ => ({ x with pc := .panicked }, [])
  | none => ({ x with pc := .incoming }, [])

/-- The body of the loop over subscribers, and the exit from it. -/
def deliver (x : Worker t I) (channel : t.ChannelId) (event : t.Event) :
    List t.Owner → Worker t I × List (Act t)
  | subscriber :: subscribers =>
    { x with pc := .deliver subscribers channel event }.callAndPop
      (.onEvent (.bus (.channel subscriber channel event)))
  | [] => ({ x with pc := .awake }, [])

variable [DecidableEq t.Owner] [DecidableEq t.ChannelId]

/-- The body of the loop of `pop_inner`, and the exit from it. -/
def popInner (x : Worker t I) : Worker t I × List (Act t) :=
  match WorkerInner.popOutput x.inner x.now with
  | (some out, inner) =>
    let (x, acts) := { x with inner }.processInnerOutput out
    (x, .popOutput (some out) :: acts)
  | (none, inner) => ({ x with inner, popping := false }, [.popOutput none])

/-- One step of a worker's thread. -/
def step (x : Worker t I) (a : Answer t) : Option (Worker t I × List (Act t)) :=
  if x.popping then match a with
    | .run => some x.popInner
    | _ => none
  else match x.pc, a with
    | .start, .clock now => some ({ x with now, pc := .idle, popping := true }, [])
    | .idle, .clock now => some ({ x with now, pc := .control }, [])
    | .control, .control msg => some (x.onControl msg)
    | .reply, .run => some x.reply
    | .tick, .run => some x.onTick
    | .poll, .elapsed d => some ({ x with pc := .incoming }, [.pollIncoming (remainTime d)])
    | .incoming, .incoming event => some (x.onIncoming event)
    | .awake, .bus msg => some (x.onAwake msg)
    | .deliver subscribers channel event, .run => some (x.deliver channel event subscribers)
    | _, _ => none

end Worker

variable {t : WorkerTypes} {I : Type} [WorkerInner t I] [DecidableEq t.Owner]
  [DecidableEq t.ChannelId]

/-- One worker's thread, in every world. -/
def worker : Machine (Worker t I) (Answer t) (Act t) where
  step := Worker.step

/-- Numbers for everything that is named; an inner value is built from a script for its
outputs. -/
abbrev plainTypes : WorkerTypes :=
  ⟨Nat, Nat, Nat, Nat, Nat, List (Option (BusControl Nat Nat Nat)), Unit⟩

/-- An inner value that counts its tasks and talks to the bus as its script says. -/
structure Scripted where
  /-- What `pop_output` is to return, one call after the other. -/
  script : List (Option (BusControl Nat Nat Nat))
  /-- The number of tasks spawned. -/
  tasks : Nat

instance : WorkerInner plainTypes Scripted where
  build _ script := ⟨script, 0⟩
  tasks i := i.tasks
  isEmpty i := i.tasks == 0
  spawn i _ _ := { i with tasks := i.tasks + 1 }
  onTick i _ := i
  onEvent i _ _ := i
  onShutdown i _ := i
  popOutput i _ := (i.script.head?.join.map .bus, { i with script := i.script.tail })

/-- A new worker whose inner value has a script. -/
def scriptedWorker (script : List (Option (BusControl Nat Nat Nat))) :
    Worker plainTypes Scripted :=
  .new 0 10 ⟨script, 0⟩ 0 1 0

/-- A moment of a worker's thread. -/
abbrev WorkerMoment (t : WorkerTypes) (I : Type) := Moment (Worker t I) (Answer t) (Act t)

/-- A history of a worker's thread. -/
abbrev WorkerHistory (t : WorkerTypes) (I : Type) := History (Worker t I) (Answer t) (Act t)

end SansIo
