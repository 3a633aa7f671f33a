import SansIo.Backend.Exclusive

/-!
# The awake flag, step by step

An awaker may be called in any thread while a worker polls, so neither `awake` nor
`poll_incoming` is one step of an interleaving.  Here each of their accesses to
`awake_flag` is one.  Without interference the steps come to `PollingBackend.awake`
(`awakeRest_step`) and to `PollingBackend.pollIncoming` (`pollRest_step`).

The accesses are taken as sequentially consistent.
-/

namespace SansIo.Backend

open Lib Collections

variable {Owner : Type} {n q : Nat}

/-- Where a call of `awake` stands. -/
inductive AwakePc where
  /-- Before `awake_flag.load`. -/
  | load
  /-- Before `awake_flag.store(true)`. -/
  | store
  /-- Before `poll.notify`. -/
  | notify
deriving DecidableEq

/-- Where a call of `poll_incoming` stands. -/
inductive PollPc where
  /-- Before `poll.wait`. -/
  | wait
  /-- Before `awake_flag.load`, with the events of the wait. -/
  | load (events : List Token)
  /-- Before `awake_flag.store(false)`. -/
  | store (events : List Token)
  /-- Before token 0 is pushed. -/
  | queue (events : List Token)
  /-- Before these events are pushed. -/
  | push (events : List Token)
  /-- The thread has ended. -/
  | panicked
deriving DecidableEq

namespace PollingBackend

/-! ## `awake` -/

/-- One step of `awake`, and where it goes on, if it does. -/
def awakeStep (b : PollingBackend Owner n q) : AwakePc → Option AwakePc × PollingBackend Owner n q
  | .load => (if b.awakeFlag then none else some .store, b)
  | .store => (some .notify, { b with awakeFlag := true })
  | .notify => (none, b)

/-- What is left of a call of `awake`. -/
def awakeRest (b : PollingBackend Owner n q) : Option AwakePc → PollingBackend Owner n q
  | some .load => b.awake
  | some .store => { b with awakeFlag := true }
  | some .notify | none => b

/-- **A step of `awake` leaves what is left of it.** -/
theorem awakeRest_step (b : PollingBackend Owner n q) (pc : AwakePc) :
    (b.awakeStep pc).2.awakeRest (b.awakeStep pc).1 = b.awakeRest (some pc) := by
  cases pc with
  | load =>
      rw [awakeStep, awakeRest, awake]
      split <;> rfl
  | store => rfl
  | notify => rfl

theorem awakeStep_frame (b : PollingBackend Owner n q) (pc : AwakePc) :
    (b.awakeStep pc).2.eventBuffer2 = b.eventBuffer2 ∧ (b.awakeStep pc).2.sockets = b.sockets := by
  cases pc <;> exact ⟨rfl, rfl⟩

/-! ## `poll_incoming` -/

/-- One step of `poll_incoming`, and where it goes on, if it does.  `wait` is what
`poll.wait` gives. -/
def pollStep (b : PollingBackend Owner n q) (wait : Except IoError (List Token)) :
    PollPc → Option PollPc × PollingBackend Owner n q
  | .wait => match wait with
    | .error _ => (none, b)
    | .ok events => (some (.load events), b)
  | .load events => (some (if b.awakeFlag then .store events else .push events), b)
  | .store events => (some (.queue events), { b with awakeFlag := false })
  | .queue events => match b.pushToken 0 with
    | .ok b => (some (.push events), b)
    | .error _ => (some .panicked, b)
  | .push [] => (none, b)
  | .push (event :: events) => match b.pushToken event with
    | .ok b => (some (.push events), b)
    | .error _ => (some .panicked, b)
  | .panicked => (some .panicked, b)

/-- What is left of a call of `poll_incoming`. -/
def pollRest (b : PollingBackend Owner n q) (wait : Except IoError (List Token)) :
    Option PollPc → Panics (PollingBackend Owner n q)
  | none => .ok b
  | some .wait => b.pollIncoming wait
  | some (.load events) => b.pollIncoming (.ok events)
  | some (.store events) => pushToken { b with awakeFlag := false } 0 >>= events.foldlM pushToken
  | some (.queue events) => b.pushToken 0 >>= events.foldlM pushToken
  | some (.push events) => events.foldlM pushToken b
  | some .panicked => throw "Should not full"

theorem pushToken_error {b : PollingBackend Owner n q} {token : Token} {text : String}
    (h : b.pushToken token = .error text) : text = "Should not full" := by
  rw [pushToken] at h
  split at h
  · cases h
  · exact (Except.error.inj h).symm

/-- **A step of `poll_incoming` leaves what is left of it.** -/
theorem pollRest_step (b : PollingBackend Owner n q) (wait : Except IoError (List Token))
    (pc : PollPc) :
    (b.pollStep wait pc).2.pollRest wait (b.pollStep wait pc).1 = b.pollRest wait (some pc) := by
  cases pc with
  | wait => cases wait <;> rfl
  | load events =>
      rw [pollStep, pollRest, pollIncoming]
      cases hflag : b.awakeFlag <;> simp [pollRest]
  | store events => rfl
  | queue events =>
      rw [pollStep, pollRest]
      cases hpush : b.pushToken 0 with
      | ok b' => rfl
      | error text =>
          cases pushToken_error hpush
          rfl
  | push events =>
      cases events with
      | nil => rfl
      | cons event events =>
          rw [pollStep, pollRest, List.foldlM_cons]
          cases hpush : b.pushToken event with
          | ok b' => rfl
          | error text =>
              cases pushToken_error hpush
              rfl
  | panicked => rfl

/-! ## `pop_incoming` and `on_action` -/

/-- The loop of `pop_cached_event` changes the tokens only, and a waker's token in front
wakes. -/
theorem turn_front (recv : Nat → Recv) {b : PollingBackend Owner n q}
    (hwaker : b.sockets.get 0 = some (some .waker))
    (hfront : b.eventBuffer2.toList.head? = some 0) :
    ∃ b', b.turn recv = .inr (.ok (some .awake, b')) := by
  obtain ⟨rest, htokens⟩ := List.head?_eq_some_iff.1 hfront
  refine ⟨{ b with eventBuffer2 := b.eventBuffer2.popFront.2 }, ?_⟩
  rw [turn_eq htokens, readiness, hwaker]

theorem turn_awakeFlag {recv : Nat → Recv} {b : PollingBackend Owner n q} :
    (∀ b', b.turn recv = .inl b' → b'.awakeFlag = b.awakeFlag) ∧
      ∀ out b', b.turn recv = .inr (.ok (out, b')) → b'.awakeFlag = b.awakeFlag := by
  cases htokens : b.eventBuffer2.toList with
  | nil =>
      simp only [turn, htokens]
      constructor
      · intro b' h
        cases h
      · intro out b' h
        cases h
        rfl
  | cons token tokens =>
      rw [turn_eq htokens]
      constructor
      · intro b' h
        split at h
        · cases h
        · cases h
          rfl
        · cases h
          rfl
      · intro out b' h
        split at h
        · cases h
          rfl
        · cases h
        · cases h

/-- `pop_incoming` does not touch the flag, and while the waker's token is in front it gives
what is in the output queue, or wakes. -/
theorem popIncoming_flag {recv : Nat → Recv} {b b' : PollingBackend Owner n q}
    {out : Option (BackendIncomingInternal Owner)} (h : b.popIncoming recv = .ok (out, b'))
    (hwaker : b.sockets.get 0 = some (some .waker)) :
    b'.awakeFlag = b.awakeFlag ∧ (b.eventBuffer2.toList.head? = some 0 →
      out = some .awake ∨ out ≠ none ∧ b'.eventBuffer2 = b.eventBuffer2) := by
  rw [popIncoming, popCachedEvent] at h
  split at h
  · cases h
    exact ⟨rfl, fun _ ↦ .inr ⟨Option.some_ne_none _, rfl⟩⟩
  · rename_i output _
    have hreturns : Loop.Returns (turn recv) { b with output } (.ok (out, b')) := by
      rw [← h]
      exact Loop.returns_run _
    constructor
    · obtain ⟨t, hvisits, hleave⟩ := hreturns.exit
      have hflag : t.awakeFlag = b.awakeFlag :=
        hvisits.invariant (I := fun t ↦ t.awakeFlag = b.awakeFlag)
          (fun _ _ ht hturn ↦ (turn_awakeFlag.1 _ hturn).trans ht) rfl
      exact (turn_awakeFlag.2 _ _ hleave).trans hflag
    · intro hfront
      obtain ⟨b₁, hturn⟩ := turn_front recv (b := { b with output }) hwaker hfront
      have hout := hreturns.unique (.leave hturn)
      cases hout
      exact .inl rfl

/-- Actions leave the waker in its slot. -/
theorem waker_onAction {b b' : PollingBackend Owner n q} {owner : Owner} {opening : Opening}
    {action : BackendOutgoing} {sent : List Datagram}
    (h : b.onAction owner opening action = .ok (b', sent))
    (hwaker : b.sockets.get 0 = some (some .waker)) : b'.sockets.get 0 = some (some .waker) := by
  rw [← Slots.held_eq_some] at hwaker ⊢
  have hm : (machine Owner n q).Fires
      ⟨b, .onAction owner opening action, queuedBetween b.output b'.output, b'⟩ := by
    show step b (.onAction owner opening action) = some (b', queuedBetween b.output b'.output)
    rw [step, h]
  exact ((slotTable Owner n q).table_eq_other hm rfl).2 hwaker

end PollingBackend

end SansIo.Backend
