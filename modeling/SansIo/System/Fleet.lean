import SansIo.Bus.Calls
import SansIo.System.PubSub

/-!
# The workers and the bus they share, lock by lock

In `SansIo.System.Basic` a worker passes an output on in the step that pops it, with all
the copies that a `publish` or a `broadcast` offers.  The source holds shared read locks
meanwhile, and the mutex of one leg at a time.  So other workers pop, receive and push in
between, and two broadcasts can come to two legs in different orders.

The machine `fleet` has these steps.  It puts the threads of `worker` on the bus of
`Traffic.machine`: a worker that pops an output has something due on the bus; it does
that in a later step, when the locks allow it; and a call pushes to one leg a step.  What
is not on this bus, the clock, the messages of the controller and the events of the
backend, is answered in any way.

A run of `fleet` is a run of the bus (`traffic_of_run`) and one of each worker
(`thread_of_run`).
-/

namespace SansIo

open Lib Bus Backend

variable {t : WorkerTypes} {I : Type} {n : Nat}

/-- What an act of the worker with a leg asks of the bus. -/
def Act.onBus (leg : Nat) : Act t → Option (TrafficOp t.ChannelId t.Event Nat)
  | .subscribe channel => some (.subscribe leg channel)
  | .unsubscribe channel => some (.unsubscribe leg channel)
  | .publish channel safe msg => some (.request (.publish leg channel safe msg))
  | .broadcast safe msg => some (.request (.broadcast (.worker leg) safe msg))
  | _ => none

/-- A worker's thread, and where it stands with the bus. -/
structure Member (t : WorkerTypes) (I : Type) where
  /-- The worker. -/
  worker : Worker t I
  /-- What it is to do on the bus next. -/
  due : Option (TrafficOp t.ChannelId t.Event Nat)
  /-- The call that it is in. -/
  call : Option Nat

/-- The workers of a controller, and the bus they share. -/
structure Fleet (t : WorkerTypes) (I : Type) (n : Nat) where
  /-- The bus. -/
  traffic : Traffic t.ChannelId t.Event Nat n
  /-- The workers, by their legs. -/
  members : List (Member t I)

/-- What a worker's thread does next. -/
inductive FleetTurn (t : WorkerTypes) where
  | /-- It goes on, with an answer from elsewhere. -/ go (a : Answer t)
  | /-- It receives from the bus. -/ recv
  | /-- It does what is due. -/ act
  | /-- Its call pushes to the next leg. -/ push
  | /-- Its call returns. -/ finish

/-- What can happen to a fleet.  `add_worker` takes a leg, and the thread that it starts
builds the worker. -/
inductive FleetOp (t : WorkerTypes) where
  | newWorker
  | start (tick : Nat) (cfg : t.ICfg) (now : Instant)
  | member (i : Nat) (turn : FleetTurn t)

/-- A moment of the bus. -/
abbrev BusMoment (t : WorkerTypes) (n : Nat) :=
  Moment (Traffic t.ChannelId t.Event Nat n) (TrafficOp t.ChannelId t.Event Nat)
    (TrafficEvent t.ChannelId t.Event Nat)

/-- What is seen of a step: that of a worker, and that of the bus. -/
inductive FleetEvent (t : WorkerTypes) (I : Type) (n : Nat) where
  | worker (i : Nat) (m : WorkerMoment t I)
  | bus (m : BusMoment t n)

/-- The answer is a message of the bus, or that there is none. -/
def Answer.isBus : Answer t → Bool
  | .bus _ => true
  | _ => false

/-- It has nothing to do on the bus. -/
def Member.Free (x : Member t I) : Prop := x.due = none ∧ x.call = none

namespace Fleet

/-- Before the first worker. -/
def empty : Fleet t I n := ⟨.empty, []⟩

section Step

variable [DecidableEq t.ChannelId]

/-- A step of the bus. -/
def onBus (s : Fleet t I n) (op : TrafficOp t.ChannelId t.Event Nat) : Option (BusMoment t n) :=
  (s.traffic.step op).map fun r ↦ ⟨s.traffic, op, r.2, r.1⟩

variable [WorkerInner t I] [DecidableEq t.Owner]

/-- A step of a worker's thread with an answer.  What it passes on to the bus is due. -/
def thread (s : Fleet t I n) (i : Nat) (x : Member t I) (a : Answer t) :
    Option (Fleet t I n × List (FleetEvent t I n)) :=
  (worker.step x.worker a).map fun r ↦
    ({ s with
        members := s.members.set i
          ⟨r.1, (r.2.filterMap (Act.onBus x.worker.innerBus)).head?, none⟩ },
      [.worker i ⟨x.worker, a, r.2, r.1⟩])

/-- A step of a worker. -/
def memberStep (s : Fleet t I n) (i : Nat) (x : Member t I) :
    FleetTurn t → Option (Fleet t I n × List (FleetEvent t I n))
  | .go a => match x.due, x.call, a.isBus with
    | none, none, false => s.thread i x a
    | _, _, _ => none
  | .recv => match x.due, x.call, s.onBus (.recv x.worker.innerBus) with
    | none, none, some m =>
      (thread { s with traffic := m.post } i x
          (.bus (s.traffic.bus.recv x.worker.innerBus).1)).map fun r ↦ (r.1, .bus m :: r.2)
    | _, _, _ => none
  | .act => match x.due, x.call with
    | some op, none => (s.onBus op).map fun m ↦
      (⟨m.post, s.members.set i
          ⟨x.worker, none, if op.isRequest then some s.traffic.calls.length else none⟩⟩, [.bus m])
    | _, _ => none
  | .push => match x.call with
    | some k => (s.onBus (.push k)).map fun m ↦ ({ s with traffic := m.post }, [.bus m])
    | none => none
  | .finish => match x.call with
    | some k => (s.onBus (.finish k)).map fun m ↦
      (⟨m.post, s.members.set i { x with call := none }⟩, [.bus m])
    | none => none

/-- One step.  The controller goes on after the thread of a new worker has built it. -/
def step (s : Fleet t I n) : FleetOp t → Option (Fleet t I n × List (FleetEvent t I n))
  | .newWorker =>
    if s.traffic.bus.legs.length = s.members.length then
      (s.onBus .newWorker).map fun m ↦ ({ s with traffic := m.post }, [.bus m])
    else none
  | .start tick cfg now =>
    let leg := s.members.length
    if leg < s.traffic.bus.legs.length then
      (s.onBus (.setAwaker leg leg)).map fun m ↦
        (⟨m.post, s.members ++
            [⟨.new now tick (WorkerInner.build (.ofNat leg) cfg) leg (leg + 1) leg, none, none⟩]⟩,
          [.bus m])
    else none
  | .member i turn => match s.members[i]? with
    | some x => s.memberStep i x turn
    | none => none

end Step

end Fleet

/-- Workers on their bus, under every interleaving. -/
def fleet [WorkerInner t I] [DecidableEq t.Owner] [DecidableEq t.ChannelId] :
    Machine (Fleet t I n) (FleetOp t) (FleetEvent t I n) where
  step := Fleet.step

/-- A moment of a fleet. -/
abbrev FleetMoment (t : WorkerTypes) (I : Type) (n : Nat) :=
  Moment (Fleet t I n) (FleetOp t) (FleetEvent t I n)

/-- A history of a fleet. -/
abbrev FleetHistory (t : WorkerTypes) (I : Type) (n : Nat) :=
  History (Fleet t I n) (FleetOp t) (FleetEvent t I n)

namespace FleetEvent

/-- What an event reports of a worker. -/
def report (i : Nat) : FleetEvent t I n → Option (WorkerMoment t I)
  | .worker j m => if j = i then some m else none
  | .bus _ => none

/-- What it reports of the bus. -/
def ofBus : FleetEvent t I n → Option (BusMoment t n)
  | .bus m => some m
  | .worker .. => none

@[simp] theorem report_worker (i j : Nat) (w : WorkerMoment t I) (es : List (FleetEvent t I n)) :
    (worker j w :: es).filterMap (report i) =
      (if j = i then [w] else []) ++ es.filterMap (report i) := by
  rw [List.filterMap_cons]
  by_cases hji : j = i <;> simp [report, hji]

@[simp] theorem report_bus (i : Nat) (m : BusMoment t n) (es : List (FleetEvent t I n)) :
    (bus m :: es).filterMap (report i) = es.filterMap (report i) := rfl

@[simp] theorem ofBus_worker (j : Nat) (w : WorkerMoment t I) (es : List (FleetEvent t I n)) :
    (worker j w :: es).filterMap ofBus = es.filterMap ofBus := rfl

@[simp] theorem ofBus_bus (m : BusMoment t n) (es : List (FleetEvent t I n)) :
    (bus m :: es).filterMap ofBus = m :: es.filterMap ofBus := rfl

end FleetEvent

/-- The history of a worker. -/
def FleetHistory.of (h : FleetHistory t I n) (i : Nat) : WorkerHistory t I :=
  h.events.filterMap (FleetEvent.report i)

/-- The history of the bus. -/
def FleetHistory.bus (h : FleetHistory t I n) : TrafficHistory t.ChannelId t.Event Nat n :=
  h.events.filterMap FleetEvent.ofBus

@[simp] theorem FleetHistory.of_append (h h' : FleetHistory t I n) (i : Nat) :
    FleetHistory.of (h ++ h') i = FleetHistory.of h i ++ FleetHistory.of h' i := by
  simp [FleetHistory.of]

@[simp] theorem FleetHistory.bus_append (h h' : FleetHistory t I n) :
    FleetHistory.bus (h ++ h') = FleetHistory.bus h ++ FleetHistory.bus h' := by
  simp [FleetHistory.bus]

/-! ## What a step does -/

section Steps

variable [WorkerInner t I] [DecidableEq t.Owner] [DecidableEq t.ChannelId]

/-- A moment of the bus from a state. -/
structure Moves (s : Fleet t I n) (op : TrafficOp t.ChannelId t.Event Nat) (m : BusMoment t n) :
    Prop where
  /-- It is a step of the bus, -/
  fires : (Traffic.machine t.ChannelId t.Event Nat n).Fires m
  /-- from there, -/
  pre : m.pre = s.traffic
  /-- of this kind. -/
  label : m.label = op

/-- What a step can do. -/
inductive FleetDoes (s : Fleet t I n) : FleetOp t → Fleet t I n → List (FleetEvent t I n) → Prop
  | newWorker {m} (hm : Moves s .newWorker m)
      (hlen : s.traffic.bus.legs.length = s.members.length) :
      FleetDoes s .newWorker { s with traffic := m.post } [.bus m]
  | start {tick cfg now m} (hm : Moves s (.setAwaker s.members.length s.members.length) m)
      (hlen : s.members.length < s.traffic.bus.legs.length) :
      FleetDoes s (.start tick cfg now)
        ⟨m.post, s.members ++ [⟨.new now tick
          (WorkerInner.build (.ofNat s.members.length) cfg) s.members.length
            (s.members.length + 1) s.members.length, none, none⟩]⟩ [.bus m]
  | /-- A worker goes on. -/
    goes {i x a w acts} (hx : s.members[i]? = some x) (hfree : x.Free) (ha : a.isBus = false)
      (hstep : worker.step x.worker a = some (w, acts)) :
      FleetDoes s (.member i (.go a))
        { s with
          members := s.members.set i
            ⟨w, (acts.filterMap (Act.onBus x.worker.innerBus)).head?, none⟩ }
        [.worker i ⟨x.worker, a, acts, w⟩]
  | /-- It receives. -/
    receives {i x w acts m} (hx : s.members[i]? = some x) (hfree : x.Free)
      (hm : Moves s (.recv x.worker.innerBus) m)
      (hstep : worker.step x.worker (.bus (s.traffic.bus.recv x.worker.innerBus).1) =
        some (w, acts)) :
      FleetDoes s (.member i .recv)
        ⟨m.post, s.members.set i
          ⟨w, (acts.filterMap (Act.onBus x.worker.innerBus)).head?, none⟩⟩
        [.bus m, .worker i ⟨x.worker, .bus (s.traffic.bus.recv x.worker.innerBus).1, acts, w⟩]
  | /-- It does what is due. -/
    acts {i x op m} (hx : s.members[i]? = some x) (hdue : x.due = some op) (hcall : x.call = none)
      (hm : Moves s op m) :
      FleetDoes s (.member i .act)
        ⟨m.post, s.members.set i
          ⟨x.worker, none, if op.isRequest then some s.traffic.calls.length else none⟩⟩ [.bus m]
  | /-- Its call pushes. -/
    pushes {i x k m} (hx : s.members[i]? = some x) (hcall : x.call = some k)
      (hm : Moves s (.push k) m) :
      FleetDoes s (.member i .push) { s with traffic := m.post } [.bus m]
  | /-- Its call returns. -/
    finishes {i x k m} (hx : s.members[i]? = some x) (hcall : x.call = some k)
      (hm : Moves s (.finish k) m) :
      FleetDoes s (.member i .finish) ⟨m.post, s.members.set i { x with call := none }⟩ [.bus m]

omit [WorkerInner t I] [DecidableEq t.Owner] in
theorem moves_of_onBus {s : Fleet t I n} {op : TrafficOp t.ChannelId t.Event Nat}
    {m : BusMoment t n} (h : s.onBus op = some m) : Moves s op m := by
  obtain ⟨⟨traffic, events⟩, hstep, rfl⟩ := Option.map_eq_some_iff.mp h
  exact ⟨hstep, rfl, rfl⟩

/-- **Every step of a fleet is one of these.** -/
theorem fleet_cases {s s' : Fleet t I n} {op : FleetOp t} {events : List (FleetEvent t I n)}
    (h : fleet.step s op = some (s', events)) : FleetDoes s op s' events := by
  simp only [fleet] at h
  cases op with
  | newWorker =>
      simp only [Fleet.step] at h
      split at h
      · rename_i hlen
        obtain ⟨m, hm, heq⟩ := Option.map_eq_some_iff.mp h
        cases heq
        exact .newWorker (moves_of_onBus hm) hlen
      · cases h
  | start tick cfg now =>
      simp only [Fleet.step] at h
      split at h
      · rename_i hlen
        obtain ⟨m, hm, heq⟩ := Option.map_eq_some_iff.mp h
        cases heq
        exact .start (moves_of_onBus hm) hlen
      · cases h
  | member i turn =>
      simp only [Fleet.step] at h
      split at h
      · rename_i x hx
        cases turn with
        | go a =>
            simp only [Fleet.memberStep] at h
            split at h
            · rename_i hdue hcall ha
              obtain ⟨⟨w, acts⟩, hstep, heq⟩ := Option.map_eq_some_iff.mp h
              cases heq
              exact .goes hx ⟨hdue, hcall⟩ ha hstep
            · cases h
        | recv =>
            simp only [Fleet.memberStep] at h
            split at h
            · rename_i hdue hcall hm
              obtain ⟨r, hthread, heq⟩ := Option.map_eq_some_iff.mp h
              obtain ⟨⟨w, acts⟩, hstep, hr⟩ := Option.map_eq_some_iff.mp hthread
              cases hr
              cases heq
              exact .receives hx ⟨hdue, hcall⟩ (moves_of_onBus hm) hstep
            · cases h
        | act =>
            simp only [Fleet.memberStep] at h
            split at h
            · rename_i hdue hcall
              obtain ⟨m, hm, heq⟩ := Option.map_eq_some_iff.mp h
              cases heq
              exact .acts hx hdue hcall (moves_of_onBus hm)
            · cases h
        | push =>
            simp only [Fleet.memberStep] at h
            split at h
            · rename_i hcall
              obtain ⟨m, hm, heq⟩ := Option.map_eq_some_iff.mp h
              cases heq
              exact .pushes hx hcall (moves_of_onBus hm)
            · cases h
        | finish =>
            simp only [Fleet.memberStep] at h
            split at h
            · rename_i hcall
              obtain ⟨m, hm, heq⟩ := Option.map_eq_some_iff.mp h
              cases heq
              exact .finishes hx hcall (moves_of_onBus hm)
            · cases h
      · cases h

/-! ## The runs of the bus and of a worker -/

/-- The thread of a worker. -/
def Fleet.threadAt (s : Fleet t I n) (i : Nat) : Option (Worker t I) :=
  s.members[i]?.map Member.worker

omit [WorkerInner t I] [DecidableEq t.Owner] [DecidableEq t.ChannelId] in
theorem Fleet.threadAt_set {s : Fleet t I n} {traffic : Traffic t.ChannelId t.Event Nat n}
    {i : Nat} {x y : Member t I} (hx : s.members[i]? = some x) (j : Nat) :
    Fleet.threadAt ⟨traffic, s.members.set i y⟩ j =
      if i = j then some y.worker else s.threadAt j := by
  have hi : i < s.members.length := (List.getElem?_eq_some_iff.mp hx).1
  unfold threadAt
  split
  · rename_i hij
    subst hij
    rw [List.getElem?_set_self hi]
    rfl
  · rename_i hij
    rw [List.getElem?_set_ne hij]

omit [WorkerInner t I] [DecidableEq t.Owner] [DecidableEq t.ChannelId] in
/-- What is due and the call are not part of it. -/
theorem Fleet.threadAt_keep {s : Fleet t I n} {traffic : Traffic t.ChannelId t.Event Nat n}
    {i : Nat} {x : Member t I} {due : Option (TrafficOp t.ChannelId t.Event Nat)}
    {call : Option Nat} (hx : s.members[i]? = some x) (j : Nat) :
    Fleet.threadAt ⟨traffic, s.members.set i ⟨x.worker, due, call⟩⟩ j = s.threadAt j := by
  rw [threadAt_set hx]
  split
  · rename_i hij
    rw [threadAt, ← hij, hx]
    rfl
  · rfl

/-- A step with an answer is a step of the thread. -/
theorem follows_thread {s : Fleet t I n} {traffic : Traffic t.ChannelId t.Event Nat n} {i : Nat}
    {x y : Member t I} {a : Answer t} {acts : List (Act t)} (hx : s.members[i]? = some x)
    (hstep : worker.step x.worker a = some (y.worker, acts)) (j : Nat) :
    Follows worker (Started j) (s.threadAt j) (Fleet.threadAt ⟨traffic, s.members.set i y⟩ j)
      ([FleetEvent.worker i ⟨x.worker, a, acts, y.worker⟩].filterMap
        (FleetEvent.report (n := n) j)) := by
  rw [Fleet.threadAt_set hx]
  simp only [List.filterMap_cons, List.filterMap_nil, FleetEvent.report]
  split
  · rename_i hij
    rw [Fleet.threadAt, ← hij, hx]
    exact .move (m := ⟨x.worker, a, acts, y.worker⟩) hstep
  · cases s.threadAt j with
    | none => exact .absent
    | some w => exact .idle

variable {s s' : Fleet t I n} {op : FleetOp t} {events : List (FleetEvent t I n)}

/-- What a step is for the thread of a worker. -/
theorem FleetDoes.thread (hd : FleetDoes s op s' events) (i : Nat) :
    Follows worker (Started i) (s.threadAt i) (s'.threadAt i)
      (events.filterMap (FleetEvent.report i)) := by
  have hstay : Follows worker (Started i) (s.threadAt i) (s.threadAt i) [] := by
    cases s.threadAt i with
    | none => exact .absent
    | some x => exact .idle
  cases hd with
  | newWorker => exact hstay
  | @start tick cfg now m hm hlen =>
      simp only [List.filterMap_cons, List.filterMap_nil, FleetEvent.report]
      unfold Fleet.threadAt at hstay ⊢
      rw [getElem?_concat]
      split
      · rename_i hi
        rw [hi, List.getElem?_eq_none le_rfl]
        exact .start ⟨now, tick, cfg, rfl⟩
      · exact hstay
  | goes hx hfree ha hstep => exact follows_thread (y := ⟨_, _, _⟩) hx hstep i
  | receives hx hfree hm hstep => exact follows_thread (y := ⟨_, _, _⟩) hx hstep i
  | acts hx =>
      rw [Fleet.threadAt_keep hx]
      exact hstay
  | pushes => exact hstay
  | finishes hx =>
      rw [Fleet.threadAt_keep hx]
      exact hstay

/-- What a step is for the bus. -/
theorem FleetDoes.bus (hd : FleetDoes s op s' events) :
    Follows (Traffic.machine t.ChannelId t.Event Nat n) (fun _ ↦ False) (some s.traffic)
      (some s'.traffic) (events.filterMap FleetEvent.ofBus) := by
  cases hd with
  | goes => exact .idle
  | newWorker hm | start hm | receives _ _ hm | acts _ _ _ hm | pushes _ _ hm | finishes _ _ hm =>
      rw [← hm.pre]
      exact .move hm.fires

/-- What is possible in a fleet. -/
theorem FleetDoes.of_fires {m : FleetMoment t I n} (hm : fleet.Fires m) :
    FleetDoes m.pre m.label m.post m.events := fleet_cases hm

/-- **What a run of a fleet reports of a worker is a run of the worker.** -/
theorem thread_of_run {h : FleetHistory t I n} (hr : fleet.Run .empty h s)
    {i : Nat} {x : Member t I} (hx : s.members[i]? = some x) :
    ∃ x₀, Started i x₀ ∧ worker.Run x₀ (FleetHistory.of h i) x.worker :=
  hr.component (p := fun s ↦ s.threadAt i) rfl (fun _ _ _ hm ↦ (FleetDoes.of_fires hm).thread i)
    (by rw [Fleet.threadAt, hx]; rfl)

/-- **What it reports of the bus is a run of the bus.** -/
theorem traffic_of_run {h : FleetHistory t I n} (hr : fleet.Run .empty h s) :
    (Traffic.machine t.ChannelId t.Event Nat n).Run .empty (FleetHistory.bus h) s.traffic := by
  obtain ⟨x, hx, hrun⟩ := hr.component_from (p := fun s ↦ some s.traffic) rfl
    fun _ _ _ hm ↦ (FleetDoes.of_fires hm).bus
  cases hx
  exact hrun

end Steps

end SansIo
