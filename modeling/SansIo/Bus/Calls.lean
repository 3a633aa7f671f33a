import SansIo.Bus.Deliver

/-!
# The calls that a worker makes on the bus

A worker that publishes or broadcasts makes a call: it begins with one copy for each leg
that it is to come to, and each push takes the first of them away and offers it.  Who makes
a call is told by the source of its copies.

`calls_cases` is what a step of the bus does to the calls.  A call that nothing comes
between does what `BusSystem.publish` and `BusSystem.broadcast` do (`run_publish`,
`run_broadcast`).
-/

namespace SansIo.Bus

open Lib

variable {ChannelId MSG Awk : Type} {n : Nat}

/-- The leg of the worker that a message comes from. -/
def BusEventSource.sender : BusEventSource ChannelId → Option Nat
  | .channel leg _ | .broadcast leg | .direct leg => some leg
  | .external => none

/-- The leg of the worker whose output a step of the bus begins to pass on. -/
def TrafficOp.passedOnBy : TrafficOp ChannelId MSG Awk → Option Nat
  | .subscribe leg _ | .unsubscribe leg _ => some leg
  | .request (.publish leg _ _ _) | .request (.broadcast (.worker leg) _ _) => some leg
  | _ => none

/-- One copy of a message for one leg. -/
structure Copy (ChannelId MSG : Type) where
  /-- The leg. -/
  leg : Nat
  /-- Whether it may not be refused. -/
  safe : Bool
  /-- Where it comes from. -/
  source : BusEventSource ChannelId
  /-- The message. -/
  msg : MSG

/-- The copies that a call is still to offer. -/
def Call.copies (c : Call ChannelId MSG) : List (Copy ChannelId MSG) :=
  c.rest.map (⟨·, c.how.safe, c.source, c.msg⟩)

/-- A copy that a worker offers. -/
def TrafficEvent.copyBy (i : Nat) : TrafficEvent ChannelId MSG Awk → Option (Copy ChannelId MSG)
  | .offered _ how o =>
    if o.source.sender = some i then some ⟨o.leg, how.safe, o.source, o.msg⟩ else none
  | _ => none

/-- The copies that a worker has offered, in order. -/
def offeredBy (i : Nat) (h : TrafficHistory ChannelId MSG Awk n) : List (Copy ChannelId MSG) :=
  h.events.filterMap (TrafficEvent.copyBy i)

/-- The copies of a call of a worker that begins. -/
def copiesBy (i : Nat)
    (m : Moment (Traffic ChannelId MSG Awk n) (TrafficOp ChannelId MSG Awk)
      (TrafficEvent ChannelId MSG Awk)) : List (Copy ChannelId MSG) :=
  match m.label with
  | .request r =>
    if (r.call m.pre.bus).source.sender = some i then (r.call m.pre.bus).copies else []
  | _ => []

/-- What a worker has begun to do on the bus, in order. -/
def begunBy (i : Nat) (h : TrafficHistory ChannelId MSG Awk n) :
    List (TrafficOp ChannelId MSG Awk) :=
  (h.map Moment.label).filter (·.passedOnBy = some i)

@[simp] theorem begunBy_append (i : Nat) (h h' : TrafficHistory ChannelId MSG Awk n) :
    begunBy i (h ++ h') = begunBy i h ++ begunBy i h' := by
  simp [begunBy]

/-- It is a call that goes on after it has begun. -/
def TrafficOp.isRequest : TrafficOp ChannelId MSG Awk → Bool
  | .request _ => true
  | _ => false

/-- What a step of the bus does to the calls. -/
inductive CallsDo (t : Traffic ChannelId MSG Awk n) :
    TrafficOp ChannelId MSG Awk → List (Call ChannelId MSG) →
      List (TrafficEvent ChannelId MSG Awk) → Prop
  | /-- They are left alone. -/
    keeps {op events} (hop : op.isRequest = false) (hpush : ∀ k, op ≠ .push k)
      (hfinish : ∀ k, op ≠ .finish k)
      (hevents : ∀ i, events.filterMap (TrafficEvent.copyBy i) = []) :
      CallsDo t op t.calls events
  | begins {r} : CallsDo t (.request r) (t.calls ++ [r.call t.bus]) []
  | pushes {k call dest rest o} (hcall : t.calls[k]? = some call) (hrunning : call.running = true)
      (hrest : call.rest = dest :: rest) (hleg : o.leg = dest) (hsource : o.source = call.source)
      (hmsg : o.msg = call.msg) :
      CallsDo t (.push k) (t.calls.set k { call with rest }) [.offered k call.how o]
  | panics {k call dest rest} (hcall : t.calls[k]? = some call)
      (hrest : call.rest = dest :: rest) (hdest : ¬ dest < t.bus.legs.length) :
      CallsDo t (.push k) (t.calls.set k { call with running := false }) [.panicked k]
  | returns {k call} (hcall : t.calls[k]? = some call) (hrunning : call.running = true)
      (hrest : call.rest = []) :
      CallsDo t (.finish k) (t.calls.set k { call with running := false }) [.returned k]

theorem calls_cases [DecidableEq ChannelId] {t t' : Traffic ChannelId MSG Awk n}
    {op : TrafficOp ChannelId MSG Awk} {events : List (TrafficEvent ChannelId MSG Awk)}
    (h : t.step op = some (t', events)) : CallsDo t op t'.calls events := by
  cases op with
  | newWorker | subscribe | unsubscribe | setAwaker | recv =>
      simp only [Traffic.step] at h
      split at h <;> cases h
      exact .keeps rfl (by simp) (by simp) fun _ ↦ rfl
  | request r =>
      simp only [Traffic.step] at h
      split at h <;> cases h
      exact .begins
  | push k =>
      simp only [Traffic.step] at h
      split at h
      · cases h
      · rename_i call hcall
        split at h
        · rename_i dest rest hrunning hrest
          split at h
          · rename_i hpush
            cases h
            obtain ⟨hleg, hsource, hmsg, -⟩ := push_cases hpush
            exact .pushes hcall hrunning hrest hleg hsource hmsg
          · rename_i hpush
            cases h
            refine .panics hcall hrest fun hdest ↦ ?_
            obtain ⟨r, hr⟩ := t.bus.offer_ok call.source call.how.safe call.msg hdest
            rw [BusSystem.push_eq] at hpush
            cases hpush.symm.trans hr
        · cases h
  | finish k =>
      simp only [Traffic.step] at h
      split at h
      · cases h
      · rename_i call hcall
        split at h
        · rename_i hrunning hrest
          cases h
          exact .returns hcall hrunning hrest
        · cases h

/-- What a leg accepts of a worker are copies that the worker offers, in that order. -/
theorem accepted_sublist (i j : Nat) (es : List (TrafficEvent ChannelId MSG Awk)) :
    ((es.filterMap (TrafficEvent.acceptedBy i)).filter (·.1.sender = some j)).Sublist
      (((es.filterMap (TrafficEvent.copyBy j)).filter (·.leg = i)).map
        fun c ↦ (c.source, c.msg)) := by
  induction es with
  | nil => exact .slnil
  | cons e es ih =>
      cases e with
      | offered k how o =>
          by_cases hsender : o.source.sender = some j
          · by_cases hleg : o.leg = i
            · by_cases hok : o.result.isOk = true
              · simpa [TrafficEvent.acceptedBy, TrafficEvent.copyBy, hsender, hleg, hok] using ih
              · simpa [TrafficEvent.acceptedBy, TrafficEvent.copyBy, hsender, hleg, hok] using
                  ih.cons _
            · simpa [TrafficEvent.acceptedBy, TrafficEvent.copyBy, hsender, hleg] using ih
          · by_cases hin : o.leg = i ∧ o.result.isOk = true
            · simpa [TrafficEvent.acceptedBy, TrafficEvent.copyBy, hsender, hin] using ih
            · simpa [TrafficEvent.acceptedBy, TrafficEvent.copyBy, hsender, hin] using ih
      | received | panicked | returned => exact ih

/-! ## Calls that nothing comes between -/

section Uninterrupted

variable [DecidableEq ChannelId] {b b' : BusSystem ChannelId MSG Awk n}
  {calls : List (Call ChannelId MSG)} {offers : List (Offer ChannelId MSG Awk)}

/-- The pushes of a call, one right after the other, are a loop over its legs. -/
theorem run_offerAll {k : Nat} {call : Call ChannelId MSG} (hcall : calls[k]? = some call)
    (hrunning : call.running = true)
    (h : b.offerAll call.source call.how.safe call.msg call.rest = .ok (offers, b')) :
    ∃ g, (Traffic.machine ChannelId MSG Awk n).Run ⟨b, calls⟩ g
        ⟨b', calls.set k { call with rest := [] }⟩ ∧
      g.events = offers.map (.offered k call.how) := by
  obtain ⟨source, msg, how, rest, channels, running⟩ := call
  dsimp only at hrunning h ⊢
  subst hrunning
  have hk : k < calls.length := (List.getElem?_eq_some_iff.mp hcall).1
  induction rest generalizing b calls offers with
  | nil =>
      cases h
      obtain ⟨hk, hcall⟩ := List.getElem?_eq_some_iff.mp hcall
      refine ⟨[], ?_, rfl⟩
      rw [← hcall, List.set_getElem_self]
      exact .nil
  | cons dest rest ih =>
      obtain ⟨⟨o, b₁⟩, hoffer, h⟩ := bind_ok.mp h
      obtain ⟨⟨os, b₂⟩, hrest, h⟩ := bind_ok.mp h
      cases h
      obtain ⟨g, hrun, hevents⟩ := ih hrest
        (List.getElem?_set_self hk : (calls.set k ⟨source, msg, how, rest, channels, true⟩)[k]? = _)
        (by rwa [List.length_set])
      rw [List.set_set] at hrun
      have hpush : b.push how source msg dest = .ok (o, b₁) := by rwa [b.push_eq]
      let m : Moment (Traffic ChannelId MSG Awk n) (TrafficOp ChannelId MSG Awk)
          (TrafficEvent ChannelId MSG Awk) :=
        ⟨⟨b, calls⟩, .push k, [.offered k how o],
          ⟨b₁, calls.set k ⟨source, msg, how, rest, channels, true⟩⟩⟩
      refine ⟨m :: g, Machine.Run.cons (m := m) ?_ hrun, ?_⟩
      · change Traffic.step ⟨b, calls⟩ (.push k) = _
        simp only [Traffic.step, hcall, hpush]
        rfl
      · simp only [History.events, List.flatMap_cons, List.map_cons] at hevents ⊢
        rw [hevents]
        rfl

/-- A call that nothing comes between, from its beginning to its return. -/
theorem run_request {r : Request ChannelId MSG} (hsender : r.sender.Exists b)
    (h : b.offerAll (r.call b).source (r.call b).how.safe (r.call b).msg (r.call b).rest =
      .ok (offers, b')) :
    ∃ g calls', (Traffic.machine ChannelId MSG Awk n).Run ⟨b, calls⟩ g ⟨b', calls'⟩ ∧
      g.events = offers.map (.offered calls.length (r.call b).how) ++
        [.returned calls.length] := by
  have hrunning : (r.call b).running = true := by cases r <;> rfl
  have hcall : (calls ++ [r.call b])[calls.length]? = some (r.call b) :=
    List.getElem?_concat_length
  obtain ⟨g, hrun, hevents⟩ := run_offerAll hcall hrunning h
  have hlen : calls.length < (calls ++ [r.call b]).length := by simp
  let first : Moment (Traffic ChannelId MSG Awk n) (TrafficOp ChannelId MSG Awk)
      (TrafficEvent ChannelId MSG Awk) :=
    ⟨⟨b, calls⟩, .request r, [], ⟨b, calls ++ [r.call b]⟩⟩
  have hfirst : (Traffic.machine ChannelId MSG Awk n).Fires first := by
    change Traffic.step ⟨b, calls⟩ (.request r) = _
    simp only [Traffic.step, if_pos hsender]
    rfl
  let done := (calls ++ [r.call b]).set calls.length { r.call b with rest := [] }
  let last : Moment (Traffic ChannelId MSG Awk n) (TrafficOp ChannelId MSG Awk)
      (TrafficEvent ChannelId MSG Awk) :=
    ⟨⟨b', done⟩, .finish calls.length, [.returned calls.length],
      ⟨b', done.set calls.length { r.call b with rest := [], running := false }⟩⟩
  have hlast : (Traffic.machine ChannelId MSG Awk n).Fires last := by
    change Traffic.step ⟨b', done⟩ (.finish calls.length) = _
    have hdone : done[calls.length]? = some { r.call b with rest := [] } :=
      List.getElem?_set_self hlen
    simp only [Traffic.step, hdone, hrunning]
    rfl
  refine ⟨first :: (g ++ [last]), _,
    Machine.Run.cons (m := first) hfirst (Machine.Run.snoc (m := last) hrun hlast), ?_⟩
  rw [← List.singleton_append, History.events_append, History.events_append,
    History.events_singleton, History.events_singleton, hevents, List.nil_append]

/-- **Where nothing comes between, `publish` is one step.** -/
theorem run_publish {leg : Nat} (hleg : leg < b.legs.length) {c : ChannelId} {safe : Bool}
    {msg : MSG} (h : b.publish leg c safe msg = .ok (offers, b')) :
    ∃ g calls', (Traffic.machine ChannelId MSG Awk n).Run ⟨b, calls⟩ g ⟨b', calls'⟩ ∧
      g.events = offers.map (.offered calls.length (.send safe)) ++ [.returned calls.length] := by
  rw [b.publish_eq, ← b.publishDests_eq] at h
  exact run_request (r := .publish leg c safe msg) hleg h

/-- **And so is `broadcast`.** -/
theorem run_broadcast {leg : Nat} (hleg : leg < b.legs.length) {safe : Bool} {msg : MSG}
    (h : b.broadcast leg safe msg = .ok (offers, b')) :
    ∃ g calls', (Traffic.machine ChannelId MSG Awk n).Run ⟨b, calls⟩ g ⟨b', calls'⟩ ∧
      g.events = offers.map (.offered calls.length (.send safe)) ++ [.returned calls.length] := by
  rw [BusSystem.broadcast, ← b.broadcastDests_eq] at h
  exact run_request (r := .broadcast (.worker leg) safe msg) hleg h

end Uninterrupted

end SansIo.Bus
