import Mathlib.Logic.Function.Basic
import SansIo.Bus.Leg
import SansIo.Lib.Panics
import SansIo.Lib.SwapRemove

/-!
# The bus that workers share

`src/bus.rs`.  A `BusSystem` is what a `BusSystemBuilder` and the `BusWorker`s it has
created share: the legs, one for each `BusWorker`, and the legs registered for each
channel.  A `BusWorker` is an index into the legs.

A message is offered to legs one by one, and each may refuse it.  An `Offer` records
one `send` of a leg, with what it returned and the awakers it called.
-/

namespace SansIo.Bus

open SansIo.Lib

variable {ChannelId MSG Awk : Type} {n : Nat}

/-- One `BusLegSender::send`, and what came of it. -/
structure Offer (ChannelId MSG Awk : Type) where
  /-- The leg the message was offered to. -/
  leg : Nat
  /-- Where it comes from. -/
  source : BusEventSource ChannelId
  /-- The message. -/
  msg : MSG
  /-- The number of messages then in the leg, or why it was refused. -/
  result : Except BusLegSenderErr Nat
  /-- The awakers called. -/
  awoken : List Awk

/-- What the `Arc`s of a `BusSystemBuilder` hold. -/
structure BusSystem (ChannelId MSG Awk : Type) (n : Nat) where
  /-- The legs, by `leg_index`. -/
  legs : List (QueueInternal ChannelId MSG Awk n)
  /-- The legs registered for each channel that has an entry. -/
  channels : ChannelId → Option (List Nat)
  /-- No leg is registered twice. -/
  nodup : ∀ {c l}, channels c = some l → l.Nodup

namespace BusSystem

/-- `Default::default`. -/
def default : BusSystem ChannelId MSG Awk n := ⟨[], fun _ ↦ none, fun h ↦ (by cases h)⟩

/-- `BusSystemBuilder::new_worker`. -/
def newWorker (b : BusSystem ChannelId MSG Awk n) : Nat × BusSystem ChannelId MSG Awk n :=
  (b.legs.length, { b with legs := b.legs ++ [.default] })

/-- `legs[dest].send(source, safe, msg)`. -/
def offer (b : BusSystem ChannelId MSG Awk n) (source : BusEventSource ChannelId) (safe : Bool)
    (msg : MSG) (dest : Nat) :
    Panics (Offer ChannelId MSG Awk × BusSystem ChannelId MSG Awk n) := do
  let leg ← index b.legs dest
  let r := leg.send source safe msg
  .ok (⟨dest, source, msg, r.1, r.2.2⟩, { b with legs := b.legs.set dest r.2.1 })

/-- A loop over legs that offers a message to each. -/
def offerAll (b : BusSystem ChannelId MSG Awk n) (source : BusEventSource ChannelId) (safe : Bool)
    (msg : MSG) :
    List Nat → Panics (List (Offer ChannelId MSG Awk) × BusSystem ChannelId MSG Awk n)
  | [] => .ok ([], b)
  | dest :: dests => do
    let (first, b) ← b.offer source safe msg dest
    let (rest, b) ← b.offerAll source safe msg dests
    .ok (first :: rest, b)

/-- `BusSystemBuilder::send`. -/
def sendExternal (b : BusSystem ChannelId MSG Awk n) (destLeg : Nat) (safe : Bool) (msg : MSG) :
    Panics (Offer ChannelId MSG Awk × BusSystem ChannelId MSG Awk n) :=
  b.offer .external safe msg destLeg

/-- `BusWorker::send`. -/
def send (b : BusSystem ChannelId MSG Awk n) (legIndex destLeg : Nat) (safe : Bool) (msg : MSG) :
    Panics (Offer ChannelId MSG Awk × BusSystem ChannelId MSG Awk n) :=
  b.offer (.direct legIndex) safe msg destLeg

/-- `BusWorker::broadcast`.  The source treats a single leg apart, to save a clone of
the message. -/
def broadcast (b : BusSystem ChannelId MSG Awk n) (legIndex : Nat) (safe : Bool) (msg : MSG) :
    Panics (List (Offer ChannelId MSG Awk) × BusSystem ChannelId MSG Awk n) :=
  b.offerAll (.broadcast legIndex) safe msg (List.range b.legs.length)

/-- `BusWorker::recv`, on the receiver's own leg. -/
def recv (b : BusSystem ChannelId MSG Awk n) (legIndex : Nat) :
    Option (BusEventSource ChannelId × MSG) × BusSystem ChannelId MSG Awk n :=
  match b.legs[legIndex]? with
  | none => (none, b)
  | some leg => (leg.recv.1, { b with legs := b.legs.set legIndex leg.recv.2 })

/-- `BusWorker::set_awaker`. -/
def setAwaker (b : BusSystem ChannelId MSG Awk n) (legIndex : Nat) (awaker : Awk) :
    BusSystem ChannelId MSG Awk n :=
  { b with legs := b.legs.modify legIndex (·.setAwaker awaker) }

/-- The legs registered for a channel. -/
def registered (b : BusSystem ChannelId MSG Awk n) (channel : ChannelId) : List Nat :=
  (b.channels channel).getD []

theorem nodup_registered (b : BusSystem ChannelId MSG Awk n) (c : ChannelId) :
    (b.registered c).Nodup := by
  unfold registered
  cases hc : b.channels c with
  | none => exact List.nodup_nil
  | some l => exact b.nodup hc

/-- `BusWorker::publish`.  The source treats a single leg apart, to save a clone of the
message. -/
def publish (b : BusSystem ChannelId MSG Awk n) (legIndex : Nat) (channel : ChannelId)
    (safe : Bool) (msg : MSG) :
    Panics (List (Offer ChannelId MSG Awk) × BusSystem ChannelId MSG Awk n) :=
  match b.channels channel with
  | none => .ok ([], b)
  | some entry => b.offerAll (.channel legIndex channel) safe msg entry

section Registration

variable [DecidableEq ChannelId]

/-- A bus with another list for one channel. -/
def put (b : BusSystem ChannelId MSG Awk n) (channel : ChannelId) (l : List Nat)
    (hl : l.Nodup) : BusSystem ChannelId MSG Awk n where
  legs := b.legs
  channels := Function.update b.channels channel (some l)
  nodup {c l'} hc := by
    rcases eq_or_ne c channel with rfl | hne
    · rw [Function.update_self] at hc
      cases hc
      exact hl
    · exact b.nodup (by rwa [Function.update_of_ne hne] at hc)

@[simp] theorem registered_put (b : BusSystem ChannelId MSG Awk n) (channel : ChannelId)
    (l : List Nat) (hl : l.Nodup) (c : ChannelId) :
    (b.put channel l hl).registered c = if c = channel then l else b.registered c := by
  by_cases hc : c = channel <;> simp [put, registered, hc]

@[simp] theorem legs_put (b : BusSystem ChannelId MSG Awk n) (channel : ChannelId)
    (l : List Nat) (hl : l.Nodup) : (b.put channel l hl).legs = b.legs := rfl

/-- `BusWorker::subscribe`.  `entry(..).or_default()` leaves an entry behind. -/
def subscribe (b : BusSystem ChannelId MSG Awk n) (legIndex : Nat) (channel : ChannelId) :
    BusSystem ChannelId MSG Awk n :=
  let entry := b.registered channel
  if hmem : legIndex ∈ entry then b.put channel entry (b.nodup_registered channel)
  else b.put channel (entry ++ [legIndex])
    (List.nodup_append.mpr ⟨b.nodup_registered channel, List.nodup_singleton legIndex,
      fun _ hx _ hy he ↦ hmem (List.mem_singleton.mp hy ▸ he ▸ hx)⟩)

/-- `BusWorker::unsubscribe`.  An entry that has become empty stays. -/
def unsubscribe (b : BusSystem ChannelId MSG Awk n) (legIndex : Nat) (channel : ChannelId) :
    BusSystem ChannelId MSG Awk n :=
  match hc : b.channels channel with
  | none => b
  | some entry => b.put channel (discard entry legIndex) (nodup_discard (b.nodup hc) legIndex)

@[simp] theorem legs_subscribe (b : BusSystem ChannelId MSG Awk n) (i : Nat) (c : ChannelId) :
    (b.subscribe i c).legs = b.legs := by
  unfold subscribe
  by_cases hmem : i ∈ b.registered c <;> simp [hmem]

@[simp] theorem legs_unsubscribe (b : BusSystem ChannelId MSG Awk n) (i : Nat) (c : ChannelId) :
    (b.unsubscribe i c).legs = b.legs := by
  unfold unsubscribe
  split <;> rfl

/-- Subscribing registers the leg, and nothing else. -/
theorem mem_subscribe (b : BusSystem ChannelId MSG Awk n) (i j : Nat) (c c' : ChannelId) :
    j ∈ (b.subscribe i c).registered c' ↔ (j = i ∧ c' = c) ∨ j ∈ b.registered c' := by
  unfold subscribe
  by_cases hc : c' = c
  · subst hc
    by_cases hmem : i ∈ b.registered c'
    · simp only [dif_pos hmem, registered_put, if_true, and_true]
      exact ⟨.inr, fun hj ↦ hj.elim (fun he ↦ he ▸ hmem) id⟩
    · simp [hmem, or_comm]
  · by_cases hmem : i ∈ b.registered c <;> simp [hmem, hc]

/-- Unsubscribing takes the leg out, and nothing else. -/
theorem mem_unsubscribe (b : BusSystem ChannelId MSG Awk n) (i j : Nat) (c c' : ChannelId) :
    j ∈ (b.unsubscribe i c).registered c' ↔ ¬(j = i ∧ c' = c) ∧ j ∈ b.registered c' := by
  unfold unsubscribe
  split
  · rename_i hc
    have hnil : b.registered c = [] := by simp [registered, hc]
    by_cases hcc : c' = c
    · simp [hcc, hnil]
    · simp [hcc]
  · rename_i entry hc
    have hentry : b.registered c = entry := by simp [registered, hc]
    by_cases hcc : c' = c
    · simp [hcc, mem_discard (b.nodup hc), hentry]
    · simp [hcc]

end Registration

/-! ## What waits in the legs -/

/-- The messages waiting in a leg, oldest first. -/
def waiting (b : BusSystem ChannelId MSG Awk n) (leg : Nat) :
    List (BusEventSource ChannelId × MSG) :=
  (b.legs[leg]?.map QueueInternal.toList).getD []

@[simp] theorem waiting_default (leg : Nat) :
    (default : BusSystem ChannelId MSG Awk n).waiting leg = [] := rfl

/-- A new leg is empty, as was the place where it is now. -/
@[simp] theorem waiting_newWorker (b : BusSystem ChannelId MSG Awk n) (leg : Nat) :
    b.newWorker.2.waiting leg = b.waiting leg := by
  unfold waiting newWorker
  rcases Nat.lt_trichotomy leg b.legs.length with h | rfl | h
  · rw [List.getElem?_append_left h]
  · simp
  · rw [List.getElem?_eq_none (by simpa using Nat.succ_le_of_lt h),
      List.getElem?_eq_none (Nat.le_of_lt h)]

@[simp] theorem waiting_setAwaker (b : BusSystem ChannelId MSG Awk n) (i : Nat) (a : Awk)
    (leg : Nat) : (b.setAwaker i a).waiting leg = b.waiting leg := by
  unfold waiting setAwaker
  rcases eq_or_ne leg i with rfl | h
  · cases hl : b.legs[leg]? <;> simp [hl]
  · simp [h.symm]

/-- The shape of a `send` that returns. -/
theorem offer_cases {b b' : BusSystem ChannelId MSG Awk n} {source : BusEventSource ChannelId}
    {safe : Bool} {msg : MSG} {dest : Nat} {o : Offer ChannelId MSG Awk}
    (h : b.offer source safe msg dest = .ok (o, b')) :
    o.leg = dest ∧ o.source = source ∧ o.msg = msg ∧
      b'.channels = b.channels ∧ b'.legs.length = b.legs.length ∧ dest < b.legs.length ∧
      (∀ leg, leg ≠ dest → b'.waiting leg = b.waiting leg) ∧
      (b'.waiting dest = b.waiting dest ++ [(source, msg)] ∨
        safe = false ∧ b'.waiting dest = b.waiting dest) := by
  obtain ⟨leg, hleg, hret⟩ := bind_ok.mp h
  obtain ⟨hdest, rfl⟩ := List.getElem?_eq_some_iff.mp (index_eq_ok.mp hleg)
  cases hret
  refine ⟨rfl, rfl, rfl, rfl, by simp, hdest, fun l hl ↦ ?_, ?_⟩
  · simp [waiting, hl.symm]
  · rw [QueueInternal.send_eq]
    split
    · left
      simp [waiting, hdest]
    · rename_i hfull
      right
      simp only [not_or, Bool.not_eq_true] at hfull
      exact ⟨hfull.1, by simp [waiting, hdest]⟩

/-- A `send` is refused exactly where it is not safe and the leg is full, and then nothing
happens. -/
theorem offer_result {b b' : BusSystem ChannelId MSG Awk n} {source : BusEventSource ChannelId}
    {safe : Bool} {msg : MSG} {dest : Nat} {o : Offer ChannelId MSG Awk}
    (h : b.offer source safe msg dest = .ok (o, b')) :
    (safe = false ∧ n ≤ (b.waiting dest).length ∧ o.result = .error .channelFull ∧
        o.awoken = [] ∧ b' = b) ∨
      ((safe = true ∨ (b.waiting dest).length < n) ∧ (∃ len, o.result = .ok len) ∧
        b'.waiting dest = b.waiting dest ++ [(source, msg)]) := by
  obtain ⟨leg, hleg, hret⟩ := bind_ok.mp h
  obtain ⟨hdest, rfl⟩ := List.getElem?_eq_some_iff.mp (index_eq_ok.mp hleg)
  have hwait : b.waiting dest = b.legs[dest].toList := by simp [waiting, hdest]
  simp only [QueueInternal.send_eq] at hret
  rw [hwait]
  split at hret
  · rename_i hroom
    cases hret
    exact .inr ⟨hroom, ⟨_, rfl⟩, by simp [waiting, hdest]⟩
  · rename_i hfull
    cases hret
    rw [not_or, Bool.not_eq_true, Nat.not_lt] at hfull
    exact .inl ⟨hfull.1, hfull.2, rfl, rfl, by simp⟩

/-- A `send` to a leg that exists returns. -/
theorem offer_ok (b : BusSystem ChannelId MSG Awk n) (source : BusEventSource ChannelId)
    (safe : Bool) (msg : MSG) {dest : Nat} (h : dest < b.legs.length) :
    ∃ r, b.offer source safe msg dest = .ok r := by
  rw [offer, index_of_lt h]
  exact ⟨_, rfl⟩

/-- A loop over legs that exist offers one copy to each, in order. -/
theorem offerAll_ok (b : BusSystem ChannelId MSG Awk n) (source : BusEventSource ChannelId)
    (safe : Bool) (msg : MSG) {dests : List Nat} (h : ∀ d ∈ dests, d < b.legs.length) :
    ∃ r, b.offerAll source safe msg dests = .ok r := by
  induction dests generalizing b with
  | nil => exact ⟨_, rfl⟩
  | cons d ds ih =>
      obtain ⟨⟨o, b₁⟩, ho⟩ := b.offer_ok source safe msg (h d (by simp))
      obtain ⟨-, -, -, -, hlen, -⟩ := offer_cases ho
      obtain ⟨⟨os, b₂⟩, hos⟩ := ih b₁ fun d' hd' ↦ hlen ▸ h d' (by simp [hd'])
      exact ⟨(o :: os, b₂), by simp [offerAll, ho, hos]⟩

theorem offerAll_cases {b b' : BusSystem ChannelId MSG Awk n}
    {source : BusEventSource ChannelId} {safe : Bool} {msg : MSG} {dests : List Nat}
    {os : List (Offer ChannelId MSG Awk)}
    (h : b.offerAll source safe msg dests = .ok (os, b')) :
    os.map Offer.leg = dests ∧ (∀ o ∈ os, o.source = source ∧ o.msg = msg) ∧
      b'.channels = b.channels ∧ b'.legs.length = b.legs.length := by
  induction dests generalizing b os with
  | nil =>
      cases h
      exact ⟨rfl, by simp, rfl, rfl⟩
  | cons d ds ih =>
      obtain ⟨⟨o, b₁⟩, ho, h⟩ := bind_ok.mp h
      obtain ⟨⟨os', b₂⟩, hos, h⟩ := bind_ok.mp h
      cases h
      obtain ⟨hleg, hsource, hmsg, hch, hlen, -⟩ := offer_cases ho
      obtain ⟨hlegs, hall, hch', hlen'⟩ := ih hos
      refine ⟨by simp [hleg, hlegs], ?_, hch'.trans hch, hlen'.trans hlen⟩
      simp only [List.mem_cons, forall_eq_or_imp]
      exact ⟨⟨hsource, hmsg⟩, hall⟩

/-- `publish` offers one copy to each leg registered for the channel. -/
theorem publish_eq (b : BusSystem ChannelId MSG Awk n) (i : Nat) (c : ChannelId) (safe : Bool)
    (msg : MSG) : b.publish i c safe msg = b.offerAll (.channel i c) safe msg (b.registered c) := by
  unfold publish registered
  cases b.channels c <;> rfl

/-- `recv` takes the oldest message of the receiver's leg or, where it returns
nothing, takes none. -/
theorem recv_cases (b : BusSystem ChannelId MSG Awk n) (i : Nat) :
    (b.recv i).2.channels = b.channels ∧ (b.recv i).2.legs.length = b.legs.length ∧
      (∀ leg, leg ≠ i → (b.recv i).2.waiting leg = b.waiting leg) ∧
      ((∃ x, (b.recv i).1 = some x ∧ b.waiting i = x :: (b.recv i).2.waiting i) ∨
        (b.recv i).1 = none ∧ (b.recv i).2.waiting i = b.waiting i) := by
  unfold recv
  split
  · exact ⟨rfl, rfl, fun _ _ ↦ rfl, .inr ⟨rfl, rfl⟩⟩
  · rename_i q hq
    obtain ⟨hi, rfl⟩ := List.getElem?_eq_some_iff.mp hq
    refine ⟨rfl, by simp, fun leg hleg ↦ by simp [waiting, hleg.symm], ?_⟩
    rcases b.legs[i].recv_cases with ⟨x, hx, hlist⟩ | ⟨hx, hlist⟩
    · exact .inl ⟨x, hx, by simp [waiting, hi, hlist]⟩
    · exact .inr ⟨hx, by simp [waiting, hi, hlist]⟩

/-- What waits after a `recv` waited before it. -/
theorem mem_waiting_of_recv {b : BusSystem ChannelId MSG Awk n} {i leg : Nat}
    {p : BusEventSource ChannelId × MSG} (h : p ∈ (b.recv i).2.waiting leg) :
    p ∈ b.waiting leg := by
  obtain ⟨-, -, hother, hrecv⟩ := b.recv_cases i
  rcases eq_or_ne leg i with rfl | hne
  · rcases hrecv with ⟨x, -, hwait⟩ | ⟨-, hwait⟩
    · rw [hwait]
      exact List.mem_cons_of_mem x h
    · rwa [hwait] at h
  · rwa [hother leg hne] at h

end BusSystem

end SansIo.Bus
