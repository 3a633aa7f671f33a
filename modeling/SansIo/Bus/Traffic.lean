import SansIo.Bus.System
import SansIo.Lib.Machine

/-!
# Traffic on a bus

In `SansIo.Bus.System` a `broadcast` or a `publish` is one step.  Here every push is one,
since the mutex of a leg is held for no longer: a call goes from leg to leg, and other
calls and receivers go on in between.

While a call goes on it holds a read lock of the legs, and a `publish` one of the
channels as well.  What needs a write lock has to wait for it: `new_worker`, and
`subscribe` and `unsubscribe`.  A call begins where it has all its locks.

`delivers_of_run` is what the bus promises under every interleaving: a leg hands over
what it has accepted, in that order; it refuses what is not safe while it is full; and
a `broadcast` or a `publish` offers one copy to each leg that it is for.
-/

namespace SansIo.Bus

open Lib

variable {ChannelId MSG Awk : Type} {n : Nat}

/-! ## Pushing -/

/-- How a message is pushed. -/
inductive Push where
  | sendSafe
  | send (safe : Bool)
deriving DecidableEq

namespace Push

/-- Whether it may go to the heap. -/
def safe : Push → Bool
  | .sendSafe => true
  | .send safe => safe

/-- `BusLegSender::send_safe` or `BusLegSender::send`. -/
def run (how : Push) (leg : QueueInternal ChannelId MSG Awk n) (source : BusEventSource ChannelId)
    (msg : MSG) : Except BusLegSenderErr Nat × QueueInternal ChannelId MSG Awk n × List Awk :=
  match how with
  | .sendSafe =>
    let r := leg.sendSafe source msg
    (.ok r.1, r.2)
  | .send safe => leg.send source safe msg

theorem run_eq (how : Push) (leg : QueueInternal ChannelId MSG Awk n)
    (source : BusEventSource ChannelId) (msg : MSG) :
    how.run leg source msg = leg.send source how.safe msg := by
  cases how with
  | sendSafe => simp [run, safe, QueueInternal.sendSafe_eq, QueueInternal.send_eq]
  | send safe => rfl

end Push

namespace BusSystem

/-- `legs[dest].send_safe(source, msg)` or `legs[dest].send(source, safe, msg)`. -/
def push (b : BusSystem ChannelId MSG Awk n) (how : Push) (source : BusEventSource ChannelId)
    (msg : MSG) (dest : Nat) :
    Panics (Offer ChannelId MSG Awk × BusSystem ChannelId MSG Awk n) := do
  let leg ← index b.legs dest
  let r := how.run leg source msg
  .ok (⟨dest, source, msg, r.1, r.2.2⟩, { b with legs := b.legs.set dest r.2.1 })

theorem push_eq (b : BusSystem ChannelId MSG Awk n) (how : Push)
    (source : BusEventSource ChannelId) (msg : MSG) :
    b.push how source msg = b.offer source how.safe msg := by
  funext dest
  simp only [push, offer, Push.run_eq]

/-- The legs that a broadcast goes to.  The source treats a single leg apart, to save a
clone of the message. -/
def broadcastDests (b : BusSystem ChannelId MSG Awk n) : List Nat :=
  match b.legs.length with
  | 0 => []
  | 1 => [0]
  | len => List.range len

/-- The legs that a message of a channel goes to, with a single leg apart as well. -/
def publishDests (b : BusSystem ChannelId MSG Awk n) (channel : ChannelId) : List Nat :=
  match b.channels channel with
  | none => []
  | some [leg] => [leg]
  | some entry => entry

theorem broadcastDests_eq (b : BusSystem ChannelId MSG Awk n) :
    b.broadcastDests = List.range b.legs.length := by
  unfold broadcastDests
  split
  · rename_i hlen
    rw [hlen]
    rfl
  · rename_i hlen
    rw [hlen]
    rfl
  · rfl

theorem publishDests_eq (b : BusSystem ChannelId MSG Awk n) (channel : ChannelId) :
    b.publishDests channel = b.registered channel := by
  unfold publishDests registered
  split
  · rename_i hc
    rw [hc]
    rfl
  · rename_i hc
    rw [hc]
    rfl
  · rename_i hc
    rw [hc]
    rfl

end BusSystem

/-! ## Calls -/

/-- Who sends: the builder, or the worker of a leg. -/
inductive Sender where
  | builder
  | worker (leg : Nat)

namespace Sender

/-- Where its messages to one leg come from. -/
def direct : Sender → BusEventSource ChannelId
  | .builder => .external
  | .worker leg => .direct leg

/-- Where its messages to all legs come from. -/
def broadcast : Sender → BusEventSource ChannelId
  | .builder => .external
  | .worker leg => .broadcast leg

/-- A worker exists once its leg does. -/
def Exists (b : BusSystem ChannelId MSG Awk n) : Sender → Prop
  | .builder => True
  | .worker leg => leg < b.legs.length

instance (b : BusSystem ChannelId MSG Awk n) (sender : Sender) : Decidable (sender.Exists b) := by
  unfold Exists
  split <;> infer_instance

end Sender

/-- The calls that send. -/
inductive Request (ChannelId MSG : Type) where
  | sendSafe (sender : Sender) (destLeg : Nat) (msg : MSG)
  | send (sender : Sender) (destLeg : Nat) (safe : Bool) (msg : MSG)
  | broadcast (sender : Sender) (safe : Bool) (msg : MSG)
  | publish (leg : Nat) (channel : ChannelId) (safe : Bool) (msg : MSG)

/-- A call that has begun. -/
structure Call (ChannelId MSG : Type) where
  /-- Where its message comes from. -/
  source : BusEventSource ChannelId
  /-- Its message. -/
  msg : MSG
  /-- How it pushes it. -/
  how : Push
  /-- The legs that it has not come to. -/
  rest : List Nat
  /-- Whether it reads the channels, -/
  channels : Bool
  /-- and whether it still goes on. -/
  running : Bool

namespace Request

/-- Who sends. -/
def sender : Request ChannelId MSG → Sender
  | .sendSafe sender _ _ | .send sender _ _ _ | .broadcast sender _ _ => sender
  | .publish leg _ _ _ => .worker leg

/-- The call, where it begins. -/
def call (b : BusSystem ChannelId MSG Awk n) : Request ChannelId MSG → Call ChannelId MSG
  | .sendSafe sender destLeg msg => ⟨sender.direct, msg, .sendSafe, [destLeg], false, true⟩
  | .send sender destLeg safe msg => ⟨sender.direct, msg, .send safe, [destLeg], false, true⟩
  | .broadcast sender safe msg =>
    ⟨sender.broadcast, msg, .send safe, b.broadcastDests, false, true⟩
  | .publish leg channel safe msg =>
    ⟨.channel leg channel, msg, .send safe, b.publishDests channel, true, true⟩

end Request

/-- A bus and the calls that have begun, oldest first. -/
structure Traffic (ChannelId MSG Awk : Type) (n : Nat) where
  /-- The bus. -/
  bus : BusSystem ChannelId MSG Awk n
  /-- The calls. -/
  calls : List (Call ChannelId MSG)

/-- What can happen to a bus. -/
inductive TrafficOp (ChannelId MSG Awk : Type) where
  | newWorker
  | subscribe (leg : Nat) (channel : ChannelId)
  | unsubscribe (leg : Nat) (channel : ChannelId)
  | setAwaker (leg : Nat) (awaker : Awk)
  | recv (leg : Nat)
  | /-- A call begins. -/ request (r : Request ChannelId MSG)
  | /-- It pushes to its next leg. -/ push (call : Nat)
  | /-- It returns. -/ finish (call : Nat)

/-- What is seen of it. -/
inductive TrafficEvent (ChannelId MSG Awk : Type) where
  | received (leg : Nat) (out : Option (BusEventSource ChannelId × MSG))
  | offered (call : Nat) (how : Push) (offer : Offer ChannelId MSG Awk)
  | panicked (call : Nat)
  | returned (call : Nat)

namespace Traffic

/-- Before the first worker. -/
def empty : Traffic ChannelId MSG Awk n := ⟨.default, []⟩

/-- A read lock of the legs is held. -/
def legsRead (t : Traffic ChannelId MSG Awk n) : Bool := t.calls.any (·.running)

/-- A read lock of the channels is held. -/
def channelsRead (t : Traffic ChannelId MSG Awk n) : Bool :=
  t.calls.any fun c ↦ c.running && c.channels

section Machine

variable [DecidableEq ChannelId]

/-- One step. -/
def step (t : Traffic ChannelId MSG Awk n) : TrafficOp ChannelId MSG Awk →
    Option (Traffic ChannelId MSG Awk n × List (TrafficEvent ChannelId MSG Awk))
  | .newWorker => if t.legsRead then none else some ({ t with bus := t.bus.newWorker.2 }, [])
  | .subscribe leg channel =>
    if leg < t.bus.legs.length ∧ t.channelsRead = false then
      some ({ t with bus := t.bus.subscribe leg channel }, [])
    else none
  | .unsubscribe leg channel =>
    if leg < t.bus.legs.length ∧ t.channelsRead = false then
      some ({ t with bus := t.bus.unsubscribe leg channel }, [])
    else none
  | .setAwaker leg awaker =>
    if leg < t.bus.legs.length then some ({ t with bus := t.bus.setAwaker leg awaker }, [])
    else none
  | .recv leg =>
    if leg < t.bus.legs.length then
      some ({ t with bus := (t.bus.recv leg).2 }, [.received leg (t.bus.recv leg).1])
    else none
  | .request r =>
    if r.sender.Exists t.bus then some ({ t with calls := t.calls ++ [r.call t.bus] }, []) else none
  | .push k => match t.calls[k]? with
    | none => none
    | some call => match call.running, call.rest with
      | true, dest :: rest => match t.bus.push call.how call.source call.msg dest with
        | .ok (o, bus) =>
          some ({ bus, calls := t.calls.set k { call with rest } }, [.offered k call.how o])
        | .error _ =>
          -- the index is out of range, and unwinding gives the locks back
          some ({ t with calls := t.calls.set k { call with running := false } }, [.panicked k])
      | _, _ => none
  | .finish k => match t.calls[k]? with
    | none => none
    | some call => match call.running, call.rest with
      | true, [] =>
        some ({ t with calls := t.calls.set k { call with running := false } }, [.returned k])
      | _, _ => none

/-- A bus under every interleaving. -/
def machine (ChannelId MSG Awk : Type) (n : Nat) [DecidableEq ChannelId] :
    Machine (Traffic ChannelId MSG Awk n) (TrafficOp ChannelId MSG Awk)
      (TrafficEvent ChannelId MSG Awk) := ⟨step⟩

end Machine

end Traffic

/-- A history of a bus. -/
abbrev TrafficHistory (ChannelId MSG Awk : Type) (n : Nat) :=
  History (Traffic ChannelId MSG Awk n) (TrafficOp ChannelId MSG Awk)
    (TrafficEvent ChannelId MSG Awk)

/-! ## What a step does -/

/-- What a step can do. -/
inductive TrafficDoes (t : Traffic ChannelId MSG Awk n) : TrafficOp ChannelId MSG Awk →
    Traffic ChannelId MSG Awk n → List (TrafficEvent ChannelId MSG Awk) → Prop
  | /-- The bus changes under a lock; its messages do not. -/
    changes {op bus} (hwait : ∀ leg, bus.waiting leg = t.bus.waiting leg)
      (hlen : t.bus.legs.length ≤ bus.legs.length)
      (hlegs : t.legsRead = true → bus.legs.length = t.bus.legs.length)
      (hchannels : t.channelsRead = true → ∀ c, bus.registered c = t.bus.registered c)
      (hregistered : ∀ c leg, leg ∈ bus.registered c ↔
        op = .subscribe leg c ∨ (op ≠ .unsubscribe leg c ∧ leg ∈ t.bus.registered c))
      (hrange : ∀ c leg, op = .subscribe leg c → leg < t.bus.legs.length) :
      TrafficDoes t op { t with bus } []
  | /-- A leg is popped. -/
    receives {leg} : TrafficDoes t (.recv leg) { t with bus := (t.bus.recv leg).2 }
      [.received leg (t.bus.recv leg).1]
  | /-- A call begins. -/
    begins {r} : TrafficDoes t (.request r) { t with calls := t.calls ++ [r.call t.bus] } []
  | /-- It pushes. -/
    pushes {k call dest rest o bus} (hcall : t.calls[k]? = some call)
      (hrunning : call.running = true) (hrest : call.rest = dest :: rest)
      (hpush : t.bus.push call.how call.source call.msg dest = .ok (o, bus)) :
      TrafficDoes t (.push k) { bus, calls := t.calls.set k { call with rest } }
        [.offered k call.how o]
  | /-- It panics. -/
    panics {k call dest rest} (hcall : t.calls[k]? = some call) (hrunning : call.running = true)
      (hrest : call.rest = dest :: rest)
      (hpush : ¬ ∃ r, t.bus.push call.how call.source call.msg dest = .ok r) :
      TrafficDoes t (.push k) { t with calls := t.calls.set k { call with running := false } }
        [.panicked k]
  | /-- It returns. -/
    returns {k call} (hcall : t.calls[k]? = some call) (hrunning : call.running = true)
      (hrest : call.rest = []) :
      TrafficDoes t (.finish k) { t with calls := t.calls.set k { call with running := false } }
        [.returned k]

theorem Traffic.step_cases [DecidableEq ChannelId] {t t' : Traffic ChannelId MSG Awk n}
    {op : TrafficOp ChannelId MSG Awk} {events : List (TrafficEvent ChannelId MSG Awk)}
    (h : t.step op = some (t', events)) : TrafficDoes t op t' events := by
  cases op with
  | newWorker =>
      simp only [step] at h
      split at h
      · cases h
      · rename_i hlocked
        cases h
        refine .changes (by simp) (by simp [BusSystem.newWorker]) (fun hl ↦ absurd hl hlocked)
          (fun _ c ↦ rfl) (fun c leg ↦ ?_) (by simp)
        simp [BusSystem.registered, BusSystem.newWorker]
  | subscribe leg channel =>
      simp only [step] at h
      split at h
      · rename_i hguard
        cases h
        refine .changes (fun leg ↦ by simp [BusSystem.waiting]) (by simp) (by simp) ?_ ?_ ?_
        · intro hl
          rw [hguard.2] at hl
          cases hl
        · intro c leg'
          rw [BusSystem.mem_subscribe]
          simp [eq_comm]
        · intro c leg' heq
          cases heq
          exact hguard.1
      · cases h
  | unsubscribe leg channel =>
      simp only [step] at h
      split at h
      · rename_i hguard
        cases h
        refine .changes (fun leg ↦ by simp [BusSystem.waiting]) (by simp) (by simp) ?_ ?_ (by simp)
        · intro hl
          rw [hguard.2] at hl
          cases hl
        · intro c leg'
          rw [BusSystem.mem_unsubscribe]
          simp [eq_comm]
      · cases h
  | setAwaker leg awaker =>
      simp only [step] at h
      split at h
      · cases h
        refine .changes (by simp) (by simp [BusSystem.setAwaker]) (by simp [BusSystem.setAwaker])
          (fun _ c ↦ rfl) (fun c leg ↦ ?_) (by simp)
        simp [BusSystem.registered, BusSystem.setAwaker]
      · cases h
  | recv leg =>
      simp only [step] at h
      split at h
      · cases h
        exact .receives
      · cases h
  | request r =>
      simp only [step] at h
      split at h
      · cases h
        exact .begins
      · cases h
  | push k =>
      simp only [step] at h
      split at h
      · cases h
      · rename_i call hcall
        split at h
        · rename_i dest rest hrunning hrest
          split at h
          · rename_i hpush
            cases h
            exact .pushes hcall hrunning hrest hpush
          · rename_i hpush
            cases h
            refine .panics hcall hrunning hrest ?_
            rintro ⟨r, hr⟩
            cases hpush.symm.trans hr
        · cases h
  | finish k =>
      simp only [step] at h
      split at h
      · cases h
      · rename_i call hcall
        split at h
        · rename_i hrunning hrest
          cases h
          exact .returns hcall hrunning hrest
        · cases h

end SansIo.Bus
