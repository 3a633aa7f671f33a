import SansIo.Bus.Deliver
import SansIo.Lib.Room

/-!
# Room for what is not safe

A message that is sent unsafely is refused where `STACK_SIZE` messages wait, and one that is
sent safely never is.  So a leg can hold any number of messages, and what has been sent
unsafely is still served soon: it stands among the first `STACK_SIZE` of them, whatever
other senders do (`unsafe_of_run`).
-/

namespace SansIo.Bus

open Lib

variable {ChannelId MSG Awk : Type} {n : Nat}

/-- A message accepted by a leg, with how it was pushed. -/
def TrafficEvent.acceptedHow (leg : Nat) :
    TrafficEvent ChannelId MSG Awk → Option (Push × BusEventSource ChannelId × MSG)
  | .offered _ how o =>
    if o.leg = leg ∧ o.result.isOk = true then some (how, o.source, o.msg) else none
  | _ => none

open TrafficEvent

/-- The messages accepted by a leg, in order, with how they were pushed. -/
def acceptedHow (leg : Nat) (h : TrafficHistory ChannelId MSG Awk n) :
    List (Push × BusEventSource ChannelId × MSG) :=
  h.events.filterMap (TrafficEvent.acceptedHow leg)

/-- Those that have not been received. -/
def waitingHow (leg : Nat) (h : TrafficHistory ChannelId MSG Awk n) :
    List (Push × BusEventSource ChannelId × MSG) :=
  (acceptedHow leg h).drop (received leg h).length

/-- A message that was sent unsafely. -/
def isUnsafe (p : Push × BusEventSource ChannelId × MSG) : Bool := !p.1.safe

variable {t t' : Traffic ChannelId MSG Awk n} {op : TrafficOp ChannelId MSG Awk}
  {events : List (TrafficEvent ChannelId MSG Awk)} {h : TrafficHistory ChannelId MSG Awk n}

theorem map_acceptedHow (leg : Nat) (h : TrafficHistory ChannelId MSG Awk n) :
    (acceptedHow leg h).map Prod.snd = accepted leg h := by
  rw [acceptedHow, accepted, List.map_filterMap]
  congr 1
  funext e
  cases e with
  | offered k how o =>
      simp only [TrafficEvent.acceptedHow, acceptedBy]
      split <;> rfl
  | _ => rfl

/-- A step has at most one message accepted, and one that is not safe only where there is room. -/
theorem TrafficDoes.acceptedHow (hd : TrafficDoes t op t' events) (leg : Nat) :
    events.filterMap (TrafficEvent.acceptedHow leg) = [] ∨
      ∃ x, events.filterMap (TrafficEvent.acceptedHow leg) = [x] ∧
        (isUnsafe x = true → (t.bus.waiting leg).length < n) := by
  cases hd with
  | @pushes k call dest rest o bus hcall hrunning hrest hpush =>
      obtain ⟨rfl, -⟩ := push_cases hpush
      rw [BusSystem.push_eq] at hpush
      simp only [List.filterMap_cons, List.filterMap_nil, TrafficEvent.acceptedHow]
      split
      · exact .inl rfl
      · rename_i x hx
        split at hx
        · rename_i hok
          obtain ⟨rfl, hok⟩ := hok
          cases hx
          refine .inr ⟨_, rfl, fun hflag ↦ ?_⟩
          obtain ⟨-, -, hresult, -, -⟩ | ⟨hroom, -⟩ := BusSystem.offer_result hpush
          · rw [hresult] at hok
            cases hok
          · rw [isUnsafe, Bool.not_eq_true'] at hflag
            exact hroom.resolve_left (by simp [hflag])
        · cases hx
  | _ => exact .inl rfl

section Runs

variable [DecidableEq ChannelId]

/-- What waits is what has not been received. -/
theorem map_waitingHow (hr : (Traffic.machine ChannelId MSG Awk n).Run .empty h t) (leg : Nat) :
    (waitingHow leg h).map Prod.snd = t.bus.waiting leg := by
  rw [waitingHow, List.map_drop, map_acceptedHow, ← fifo_of_run hr leg, List.drop_left]

/-- **There is room for what is not safe** in every leg. -/
theorem room_of_run (hr : (Traffic.machine ChannelId MSG Awk n).Run .empty h t) (leg : Nat) :
    Room isUnsafe n (waitingHow leg h) := by
  induction hr with
  | nil => exact Room.nil
  | @snoc h m hr hm ih =>
      have hwait : (waitingHow leg h).length = (m.pre.bus.waiting leg).length := by
        rw [← map_waitingHow hr leg, List.length_map]
      have hle : (received leg h).length ≤ (acceptedHow leg h).length := by
        have hfifo := congrArg List.length (fifo_of_run hr leg)
        rw [← map_acceptedHow, List.length_append, List.length_map] at hfifo
        exact hfifo ▸ Nat.le_add_right _ _
      have hpost : waitingHow leg (h ++ [m]) =
          (waitingHow leg h ++ m.events.filterMap (TrafficEvent.acceptedHow leg)).drop
            (m.events.filterMap (receivedFrom leg)).length := by
        simp only [waitingHow, acceptedHow, received, History.events_append,
          History.events_singleton, List.filterMap_append, List.length_append]
        rw [← List.drop_drop]
        exact congrArg (List.drop _) (List.drop_append_of_le_length hle)
      rw [hpost]
      refine ih.step (List.take_append_drop _ _) ?_
      rw [hwait]
      exact (does_of_fires hm).acceptedHow leg

/-- **What has been sent unsafely stands among the first `STACK_SIZE` messages of its leg**,
so that it is handed over by one of the next `STACK_SIZE` messages that are received. -/
theorem unsafe_of_run (hr : (Traffic.machine ChannelId MSG Awk n).Run .empty h t) (leg : Nat) :
    (∀ j how source msg, (acceptedHow leg h)[j]? = some (how, source, msg) → how.safe = false →
        j < (received leg h).length + n) ∧
      (waitingHow leg h).map Prod.snd = t.bus.waiting leg ∧
      (waitingHow leg h).countP isUnsafe ≤ n := by
  have hroom := room_of_run hr leg
  refine ⟨?_, map_waitingHow hr leg, hroom.countP_le⟩
  intro j how source msg hj hsafe
  rcases Nat.lt_or_ge j (received leg h).length with hlt | hge
  · exact Nat.lt_add_right n hlt
  · obtain ⟨k, rfl⟩ := Nat.exists_eq_add_of_le hge
    apply Nat.add_lt_add_left
    apply hroom.lt (x := (how, source, msg))
    · rw [waitingHow, List.getElem?_drop, hj]
    · rw [isUnsafe, hsafe]
      rfl

end Runs

/-- The run of `interleaving` before its messages are received. -/
def crowded : TrafficHistory Nat Nat Nat 1 × Traffic Nat Nat Nat 1 :=
  ((Traffic.machine Nat Nat Nat 1).exec .empty (interleaving.take 11)).get (by decide +kernel)

theorem crowded_run : (Traffic.machine Nat Nat Nat 1).Run .empty crowded.1 crowded.2 :=
  Machine.exec_run_get _

/-- Two messages wait where there is room for one. -/
theorem unsafe_of_run_crowded :
    (crowded.2.bus.waiting 1).map Prod.snd = [40, 41] ∧
      (waitingHow 1 crowded.1).countP isUnsafe = 1 ∧
      (waitingHow 1 crowded.1).countP isUnsafe ≤ 1 :=
  ⟨by decide +kernel, by decide +kernel, (unsafe_of_run crowded_run 1).2.2⟩

end SansIo.Bus
