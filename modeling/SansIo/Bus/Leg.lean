import SansIo.Collections.Dequeue

/-!
# A bus leg

`src/bus/leg.rs`.  A leg is one receiver's queue behind a mutex, shared by every
sender, together with the awaker that the receiver may have installed.  Each
function below runs under the mutex, so it is one step of whatever interleaving
it occurs in.

Calling an awaker is an effect outside the leg.  The functions that may do so
return the awakers they called, in order.
-/

namespace SansIo.Bus

open SansIo.Collections

variable {ChannelId MSG Awk : Type} {n : Nat}

/-- Where a message of the bus comes from. -/
inductive BusEventSource (ChannelId : Type) where
  | channel (leg : Nat) (channel : ChannelId)
  | broadcast (leg : Nat)
  | direct (leg : Nat)
  | external
deriving DecidableEq, Repr

/-- Why a leg refuses a message. -/
inductive BusLegSenderErr where
  | channelFull
deriving DecidableEq, Repr

/-- `QueueInternal`: what the mutex of a leg protects. -/
structure QueueInternal (ChannelId MSG Awk : Type) (n : Nat) where
  /-- The receiver's awaker, once it is installed. -/
  awaker : Option Awk
  /-- The messages waiting. -/
  queue : DynamicDeque (BusEventSource ChannelId × MSG) n

namespace QueueInternal

/-- `Default::default`, which is what `create_bus_leg` starts with. -/
def default : QueueInternal ChannelId MSG Awk n := ⟨none, .default⟩

/-- The messages waiting, oldest first. -/
def toList (q : QueueInternal ChannelId MSG Awk n) : List (BusEventSource ChannelId × MSG) :=
  q.queue.toList

/-- The awakers called after a push that left `after` messages. -/
def awake (q : QueueInternal ChannelId MSG Awk n) (after : Nat) : List Awk :=
  if after = 1 then q.awaker.toList else []

/-- `push_safe`. -/
def pushSafe (q : QueueInternal ChannelId MSG Awk n) (source : BusEventSource ChannelId)
    (msg : MSG) : Nat × QueueInternal ChannelId MSG Awk n × List Awk :=
  let queue := q.queue.pushBack (source, msg)
  let after := queue.len
  (after, { q with queue }, q.awake after)

/-- `push_generic`. -/
def pushGeneric (q : QueueInternal ChannelId MSG Awk n) (safe : Bool)
    (source : BusEventSource ChannelId) (msg : MSG) :
    Except Unit Nat × QueueInternal ChannelId MSG Awk n × List Awk :=
  if safe then
    let queue := q.queue.pushBack (source, msg)
    let after := queue.len
    (.ok after, { q with queue }, q.awake after)
  else match q.queue.pushBackStack (source, msg) with
    | .error _ => (.error (), q, [])
    | .ok queue =>
      let after := queue.len
      (.ok after, { q with queue }, q.awake after)

/-- `pop_front`. -/
def popFront (q : QueueInternal ChannelId MSG Awk n) :
    Option (BusEventSource ChannelId × MSG) × QueueInternal ChannelId MSG Awk n :=
  (q.queue.popFront.1, { q with queue := q.queue.popFront.2 })

/-- `SharedBusQueue::send_safe`. -/
def sendSafe (q : QueueInternal ChannelId MSG Awk n) (source : BusEventSource ChannelId)
    (msg : MSG) : Nat × QueueInternal ChannelId MSG Awk n × List Awk :=
  q.pushSafe source msg

/-- `SharedBusQueue::send`. -/
def send (q : QueueInternal ChannelId MSG Awk n) (source : BusEventSource ChannelId)
    (safe : Bool) (msg : MSG) :
    Except BusLegSenderErr Nat × QueueInternal ChannelId MSG Awk n × List Awk :=
  let r := q.pushGeneric safe source msg
  (r.1.mapError fun _ ↦ .channelFull, r.2)

/-- `SharedBusQueue::recv`. -/
def recv (q : QueueInternal ChannelId MSG Awk n) :
    Option (BusEventSource ChannelId × MSG) × QueueInternal ChannelId MSG Awk n :=
  q.popFront

/-- `SharedBusQueue::set_awaker`. -/
def setAwaker (q : QueueInternal ChannelId MSG Awk n) (awaker : Awk) :
    QueueInternal ChannelId MSG Awk n :=
  { q with awaker := some awaker }

/-! ## What the operations do to the list of messages -/

@[simp] theorem awaker_default : (default : QueueInternal ChannelId MSG Awk n).awaker = none := rfl

@[simp] theorem toList_default : (default : QueueInternal ChannelId MSG Awk n).toList = [] := rfl

@[simp] theorem awaker_setAwaker (q : QueueInternal ChannelId MSG Awk n) (a : Awk) :
    (q.setAwaker a).awaker = some a := rfl

@[simp] theorem toList_setAwaker (q : QueueInternal ChannelId MSG Awk n) (a : Awk) :
    (q.setAwaker a).toList = q.toList := rfl

@[simp] theorem awaker_recv (q : QueueInternal ChannelId MSG Awk n) :
    q.recv.2.awaker = q.awaker := rfl

theorem toList_recv (hn : 0 < n) (q : QueueInternal ChannelId MSG Awk n) :
    q.recv.2.toList = q.toList.tail := DynamicDeque.toList_popFront hn q.queue

/-- Whatever the capacity, `recv` takes the oldest message or, where it returns
nothing, leaves the queue as it was. -/
theorem recv_cases (q : QueueInternal ChannelId MSG Awk n) :
    (∃ x, q.recv.1 = some x ∧ q.toList = x :: q.recv.2.toList) ∨
      (q.recv.1 = none ∧ q.recv.2.toList = q.toList) :=
  DynamicDeque.popFront_cases q.queue

/-- The leg after a message has been accepted. -/
def accept (q : QueueInternal ChannelId MSG Awk n) (source : BusEventSource ChannelId)
    (msg : MSG) : QueueInternal ChannelId MSG Awk n :=
  { q with queue := q.queue.pushBack (source, msg) }

@[simp] theorem awaker_accept (q : QueueInternal ChannelId MSG Awk n)
    (source : BusEventSource ChannelId) (msg : MSG) : (q.accept source msg).awaker = q.awaker :=
  rfl

@[simp] theorem toList_accept (q : QueueInternal ChannelId MSG Awk n)
    (source : BusEventSource ChannelId) (msg : MSG) :
    (q.accept source msg).toList = q.toList ++ [(source, msg)] :=
  DynamicDeque.toList_pushBack q.queue (source, msg)

/-- A push calls the awaker exactly on the edge from empty to non-empty. -/
theorem awake_accept (q : QueueInternal ChannelId MSG Awk n) (source : BusEventSource ChannelId)
    (msg : MSG) :
    q.awake (q.queue.pushBack (source, msg)).len =
      if q.toList = [] then q.awaker.toList else [] := by
  by_cases h : q.queue.toList = [] <;> simp [awake, DynamicDeque.len_eq, toList, h]

theorem sendSafe_eq (q : QueueInternal ChannelId MSG Awk n) (source : BusEventSource ChannelId)
    (msg : MSG) :
    q.sendSafe source msg = (q.toList.length + 1, q.accept source msg,
      if q.toList = [] then q.awaker.toList else []) := by
  simp only [sendSafe, pushSafe, awake_accept]
  simp [DynamicDeque.len_eq, toList, accept]

/-- A `send` is accepted if it is safe or the leg holds fewer than `STACK_SIZE`
messages; otherwise it is refused, changes nothing and calls nobody. -/
theorem send_eq (q : QueueInternal ChannelId MSG Awk n) (source : BusEventSource ChannelId)
    (safe : Bool) (msg : MSG) :
    q.send source safe msg =
      if safe = true ∨ q.toList.length < n then
        (.ok (q.toList.length + 1), q.accept source msg,
          if q.toList = [] then q.awaker.toList else [])
      else (.error .channelFull, q, []) := by
  cases safe with
  | true =>
      simp only [send, pushGeneric, if_pos, awake_accept, true_or]
      simp [DynamicDeque.len_eq, toList, accept, Except.mapError]
  | false =>
      simp only [send, pushGeneric, Bool.false_eq_true, if_false, false_or,
        DynamicDeque.pushBackStack_eq]
      by_cases h : q.queue.toList.length < n
      · simp only [if_pos h, awake_accept]
        simp [DynamicDeque.len_eq, toList, accept, Except.mapError, h]
      · simp [toList, h, Except.mapError]

end QueueInternal

end SansIo.Bus
