import SansIo.Worker.Delivery

/-!
# What the inner value is told of the bus

A message that a worker receives from the bus fans out: a message of a channel goes to
each owner that the hub lists when it is received, and a broadcast goes to the inner
value once.  `told_append_pending` is the whole of it: what the inner value has been
told, and what it is still to be told, are what was received, fanned out, in order and
without a gap.
-/

namespace SansIo

open Lib Bus Backend

variable {t : WorkerTypes} {I : Type}

/-- What an act tells the inner value of the bus. -/
def Act.busEvent : Act t → Option (BusEvent t.Owner t.ChannelId t.Event)
  | .input (.onEvent (.bus event)) => some event
  | _ => none

@[simp] theorem Act.busEvent_popOutput (out : Option (WorkerInnerOutput t)) :
    (Act.popOutput out).busEvent = none := rfl

/-- The message that a worker takes from the bus. -/
def Answer.busMessage : Answer t → Option (BusEventSource t.ChannelId × t.Event)
  | .bus msg => msg
  | _ => none

/-- What the inner value has been told of the bus, in order. -/
def toldOfBus (h : WorkerHistory t I) : List (BusEvent t.Owner t.ChannelId t.Event) :=
  h.events.filterMap Act.busEvent

/-- What a worker has received from the bus, in order. -/
def fromBus (h : WorkerHistory t I) : List (BusEventSource t.ChannelId × t.Event) :=
  h.filterMap fun m ↦ m.label.busMessage

/-- What a message is to be told as, by what the hub lists. -/
def Bus.BusLocalHub.fanOut (hub : BusLocalHub t.Owner t.ChannelId) :
    BusEventSource t.ChannelId × t.Event → List (BusEvent t.Owner t.ChannelId t.Event)
  | (.channel _ channel, msg) => (hub.subscribers channel).map fun o ↦ .channel o channel msg
  | (.broadcast source, msg) => [.broadcast (.ofNat source) msg]
  | _ => []

/-- What the message that a step receives is to be told as. -/
def fannedOut (m : WorkerMoment t I) : List (BusEvent t.Owner t.ChannelId t.Event) :=
  m.label.busMessage.toList.flatMap m.pre.busLocalHub.fanOut

/-- What is still to be told. -/
def Pc.toTell : Pc t → List (BusEvent t.Owner t.ChannelId t.Event)
  | .deliver subscribers channel msg => subscribers.map fun o ↦ .channel o channel msg
  | _ => []

@[simp] theorem toldOfBus_append (h h' : WorkerHistory t I) :
    toldOfBus (h ++ h') = toldOfBus h ++ toldOfBus h' := by
  simp [toldOfBus]

theorem toldOfBus_singleton (m : WorkerMoment t I) :
    toldOfBus [m] = m.events.filterMap Act.busEvent := by
  simp [toldOfBus]

@[simp] theorem fromBus_append (h h' : WorkerHistory t I) :
    fromBus (h ++ h') = fromBus h ++ fromBus h' :=
  List.filterMap_append

variable [DecidableEq t.Owner] [DecidableEq t.ChannelId]

/-- Passing on an output tells the inner value nothing. -/
theorem busEvent_processInnerOutput (x : Worker t I) (out : WorkerInnerOutput t) :
    (x.processInnerOutput out).2.filterMap Act.busEvent = [] := by
  rw [List.filterMap_eq_nil_iff]
  intro a ha
  have hinput := (Worker.processInnerOutput_acts x out ha).1
  unfold Act.busEvent
  split
  · exact absurd rfl (hinput _)
  · rfl

variable [WorkerInner t I]

/-- **A step tells the first of what is still to be told**, or nothing; and what it
receives is told from then on. -/
theorem told_step {m : WorkerMoment t I} (hm : worker.Fires m) :
    toldOfBus [m] ++ m.post.pc.toTell = m.pre.pc.toTell ++ fannedOut m := by
  obtain ⟨pre, a, acts, post⟩ := m
  have hdoes : WorkerDoes pre a post acts := worker_cases hm
  cases hdoes
  case pop out inner hp hout =>
    rw [toldOfBus_singleton, List.filterMap_cons, Act.busEvent_popOutput,
      busEvent_processInnerOutput]
    simp [fannedOut, Answer.busMessage]
  case receive leg c ev subs hp hpc hc =>
    simp [toldOfBus, fannedOut, Answer.busMessage, Pc.toTell, hpc, BusLocalHub.fanOut,
      BusLocalHub.getSubscribers_some hc]
  case ignore leg c ev hp hpc hc =>
    simp [toldOfBus, fannedOut, Answer.busMessage, Pc.toTell, hpc, BusLocalHub.fanOut,
      BusLocalHub.getSubscribers_none hc]
  case invalid source ev hp hpc hs =>
    rcases hs with rfl | ⟨leg, rfl⟩ <;>
      simp [toldOfBus, fannedOut, Answer.busMessage, Pc.toTell, hpc, BusLocalHub.fanOut]
  all_goals
    simp_all [toldOfBus, fannedOut, Answer.busMessage, Pc.toTell, Act.busEvent,
      BusLocalHub.fanOut]

/-- **The inner value is told of each message once for each of its owners**, in the order
in which the messages were received. -/
theorem told_append_pending {x₀ x : Worker t I} {h : WorkerHistory t I}
    (hr : worker.Run x₀ h x) (h₀ : x₀.pc.toTell = []) :
    toldOfBus h ++ x.pc.toTell = h.flatMap fannedOut := by
  induction hr with
  | nil => exact h₀
  | @snoc h m hr hm ih =>
      rw [toldOfBus_append, List.append_assoc, told_step hm, ← List.append_assoc, ih]
      simp

end SansIo
