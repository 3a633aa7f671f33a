import SansIo.System.Locks
import SansIo.Worker.FanOut

/-!
# From one inner value to another

What an inner value publishes or broadcasts goes through three hands before another one
is told of it: the worker that pops it offers a copy to legs, the leg of a worker keeps
it in line, and that worker fans it out to its owners.  Each hand is the subject of a
module of its own.  Here they are put together for the workers of a controller, in the
machine `fleet`, whose steps are the pushes, pops and registrations themselves.

Three equations follow a message.  What the outputs of a worker ask of the bus is begun in
that order, or due (`begun_of_run`).  A call that has begun has offered one copy to each
leg that was registered for it then, or is still to come to it (`copied_of_run`).  What a
leg has accepted is received, or waits, in that order (`received_of_run`).
`endToEnd_of_run` is all of it.
-/

namespace SansIo

open Lib Bus Backend

variable {t : WorkerTypes} {I : Type} {n : Nat}

/-! ## What a worker has to do on the bus -/

section Keeps

variable {s s' : Fleet t I n}

/-- What a worker is to do on the bus next. -/
def Fleet.due (s : Fleet t I n) (i : Nat) : List (TrafficOp t.ChannelId t.Event Nat) :=
  (s.members[i]?.bind Member.due).toList

theorem Fleet.due_set {traffic : Traffic t.ChannelId t.Event Nat n} {j : Nat} {x y : Member t I}
    (hx : s.members[j]? = some x) (i : Nat) :
    Fleet.due ⟨traffic, s.members.set j y⟩ i = if j = i then y.due.toList else s.due i := by
  have hj : j < s.members.length := (List.getElem?_eq_some_iff.mp hx).1
  unfold due
  split
  · rename_i hji
    subst hji
    rw [List.getElem?_set_self hj]
    rfl
  · rename_i hji
    rw [List.getElem?_set_ne hji]

theorem Fleet.due_start {traffic : Traffic t.ChannelId t.Event Nat n} {w : Worker t I} (i : Nat) :
    Fleet.due ⟨traffic, s.members ++ [⟨w, none, none⟩]⟩ i = s.due i := by
  unfold due
  rw [getElem?_concat]
  split
  · rename_i hi
    rw [hi, List.getElem?_eq_none le_rfl]
    rfl
  · rfl

/-- What the outputs of a worker ask of the bus, in order. -/
def askedOfBus (i : Nat) (h : WorkerHistory t I) : List (TrafficOp t.ChannelId t.Event Nat) :=
  h.events.filterMap (Act.onBus i)

/-- The call that a worker is in. -/
def Fleet.callAt (s : Fleet t I n) (i : Nat) : Option (Bus.Call t.ChannelId t.Event) :=
  (s.members[i]?.bind Member.call).bind (s.traffic.calls[·]?)

/-- The copies that it is still to offer. -/
def Fleet.pending (s : Fleet t I n) (i : Nat) : List (Copy t.ChannelId t.Event) :=
  (s.callAt i).toList.flatMap Bus.Call.copies

theorem Fleet.callAt_eq {i k : Nat} {x : Member t I} (hx : s.members[i]? = some x)
    (hcall : x.call = some k) : s.callAt i = s.traffic.calls[k]? := by
  rw [callAt, hx, Option.bind_some, hcall, Option.bind_some]

theorem Fleet.callAt_none {i : Nat} {x : Member t I} (hx : s.members[i]? = some x)
    (hcall : x.call = none) : s.callAt i = none := by
  rw [callAt, hx, Option.bind_some, hcall, Option.bind_none]

/-- A worker that is left alone is in the same call, where that stays. -/
theorem Fleet.callAt_congr {i : Nat} (hmembers : s'.members[i]? = s.members[i]?)
    (hcalls : ∀ x k, s.members[i]? = some x → x.call = some k →
      s'.traffic.calls[k]? = s.traffic.calls[k]?) : s'.callAt i = s.callAt i := by
  unfold callAt
  rw [hmembers]
  cases hx : s.members[i]? with
  | none => rfl
  | some x =>
      cases hk : x.call with
      | none => simp [hk]
      | some k => simpa [hk] using hcalls x k hx hk

/-- What happens to the call of one worker does not happen to those of the others. -/
theorem Fleet.Wf.callAt_ne (hwf : s.Wf) {i j k : Nat} {x : Member t I}
    (hx : s.members[j]? = some x) (hcall : x.call = some k) (hji : j ≠ i)
    (hmembers : s'.members[i]? = s.members[i]?)
    (hcalls : ∀ k', k ≠ k' → s'.traffic.calls[k']? = s.traffic.calls[k']?) :
    s'.callAt i = s.callAt i := by
  refine Fleet.callAt_congr hmembers fun y k' hy hk' ↦ hcalls k' ?_
  rintro rfl
  obtain ⟨c, hc, -, hj⟩ := hwf.call hx hcall
  obtain ⟨c', hc', -, hi⟩ := hwf.call hy hk'
  cases hc.symm.trans hc'
  exact hji (Option.some.inj (hj.symm.trans hi))

/-- A worker that goes on outside of a call has none before and after. -/
theorem pending_go {i j : Nat} {x : Member t I} {traffic : Traffic t.ChannelId t.Event Nat n}
    (hx : s.members[j]? = some x) (hcall : x.call = none)
    (hcalls : traffic.calls = s.traffic.calls) (w : Worker t I)
    (due : Option (TrafficOp t.ChannelId t.Event Nat)) :
    Fleet.pending ⟨traffic, s.members.set j ⟨w, due, none⟩⟩ i = s.pending i := by
  have hj : j < s.members.length := (List.getElem?_eq_some_iff.mp hx).1
  rw [Fleet.pending, Fleet.pending]
  by_cases hji : j = i
  · subst hji
    rw [Fleet.callAt_none hx hcall, Fleet.callAt_none (List.getElem?_set_self hj) rfl]
  · rw [Fleet.callAt_congr (List.getElem?_set_ne hji) fun x k _ _ ↦ by rw [hcalls]]

/-- A worker that joins has none. -/
theorem pending_start {i : Nat} {traffic : Traffic t.ChannelId t.Event Nat n}
    (hcalls : traffic.calls = s.traffic.calls) (w : Worker t I) :
    Fleet.pending ⟨traffic, s.members ++ [⟨w, none, none⟩]⟩ i = s.pending i := by
  rw [Fleet.pending, Fleet.pending]
  by_cases hi : i = s.members.length
  · subst hi
    rw [Fleet.callAt_none List.getElem?_concat_length rfl, Fleet.callAt,
      List.getElem?_eq_none le_rfl]
    rfl
  · rw [Fleet.callAt_congr (getElem?_concat.trans (if_neg hi)) fun x k _ _ ↦ by rw [hcalls]]

/-- The channel has a listener in the worker, apart from a change that is due on the bus. -/
def Member.Listens (x : Member t I) (c : t.ChannelId) : Prop :=
  match x.due with
  | some (.subscribe _ c') => c ≠ c' ∧ x.worker.busLocalHub.subscribers c ≠ []
  | some (.unsubscribe _ c') => c = c' ∨ x.worker.busLocalHub.subscribers c ≠ []
  | _ => x.worker.busLocalHub.subscribers c ≠ []

/-- The hub is ahead of the bus by what is due. -/
structure Member.Ahead (x : Member t I) : Prop where
  /-- A channel that is to be registered has a subscriber. -/
  subscribe : ∀ {leg c}, x.due = some (.subscribe leg c) → x.worker.busLocalHub.subscribers c ≠ []
  /-- One that is to be taken out has none. -/
  unsubscribe : ∀ {leg c}, x.due = some (.unsubscribe leg c) →
    x.worker.busLocalHub.subscribers c = []

theorem Member.listens_of_due {x : Member t I} (hsub : ∀ leg c, x.due ≠ some (.subscribe leg c))
    (hunsub : ∀ leg c, x.due ≠ some (.unsubscribe leg c)) (c : t.ChannelId) :
    x.Listens c ↔ x.worker.busLocalHub.subscribers c ≠ [] := by
  unfold Listens
  split
  · rename_i leg c' hdue
    exact absurd hdue (hsub leg c')
  · rename_i leg c' hdue
    exact absurd hdue (hunsub leg c')
  · rfl

/-- Once what is due is done, the leg is registered where the hub lists an owner. -/
theorem Member.Ahead.registered {x : Member t I} (hahead : x.Ahead) {i : Nat}
    {op : TrafficOp t.ChannelId t.Event Nat} (hdue : x.due = some op)
    (hby : op.passedOnBy = some i) (c : t.ChannelId) :
    op = .subscribe i c ∨ (op ≠ .unsubscribe i c ∧ x.Listens c) ↔
      x.worker.busLocalHub.subscribers c ≠ [] := by
  rw [Member.Listens, hdue]
  cases op with
  | subscribe leg c' =>
      cases hby
      have hne := hahead.subscribe hdue
      simp only [TrafficOp.subscribe.injEq, true_and, ne_eq, reduceCtorEq, not_false_eq_true]
      constructor
      · rintro (rfl | ⟨-, h⟩)
        · exact hne
        · exact h
      · exact fun h ↦ (eq_or_ne c' c).imp_right fun hcc ↦ ⟨hcc.symm, h⟩
  | unsubscribe leg c' =>
      cases hby
      have hnil := hahead.unsubscribe hdue
      simp only [reduceCtorEq, false_or, ne_eq, TrafficOp.unsubscribe.injEq, true_and]
      constructor
      · rintro ⟨hcc, rfl | h⟩
        · exact absurd rfl hcc
        · exact h
      · intro h
        refine ⟨?_, .inr h⟩
        rintro rfl
        exact h hnil
  | request r => simp
  | _ => cases hby

/-- What is due at one worker registers no other leg. -/
theorem passedOnBy_ne {op : TrafficOp t.ChannelId t.Event Nat} {i j : Nat}
    (hby : op.passedOnBy = some j) (hij : i ≠ j) (c : t.ChannelId) :
    op ≠ .subscribe i c ∧ op ≠ .unsubscribe i c := by
  constructor
  · rintro rfl
    exact hij (Option.some.inj hby)
  · rintro rfl
    exact hij (Option.some.inj hby)

/-- Who is registered, and what is due, agree with the hubs. -/
structure Fleet.Agrees (s : Fleet t I n) : Prop where
  /-- A leg is registered for the channels that have a listener in its worker. -/
  registered : ∀ i c, i ∈ s.traffic.bus.registered c ↔
    ∃ x, s.members[i]? = some x ∧ x.Listens c
  /-- The hubs are ahead. -/
  ahead : ∀ {i : Nat} {x : Member t I}, s.members[i]? = some x → x.Ahead

/-- A worker that is replaced by one that listens to the same. -/
theorem Fleet.Agrees.of_set (hagrees : s.Agrees) {traffic : Traffic t.ChannelId t.Event Nat n}
    {j : Nat} {x y : Member t I} (hx : s.members[j]? = some x) (hahead : y.Ahead)
    (hregistered : ∀ i c, i ∈ traffic.bus.registered c ↔
      if i = j then y.Listens c else i ∈ s.traffic.bus.registered c) :
    (Fleet.mk traffic (s.members.set j y)).Agrees := by
  have hj : j < s.members.length := (List.getElem?_eq_some_iff.mp hx).1
  constructor
  · intro i c
    rw [hregistered i c]
    split
    · rename_i hij
      subst hij
      simp [List.getElem?_set_self hj]
    · rename_i hij
      rw [hagrees.registered i c]
      simp [List.getElem?_set_ne (Ne.symm hij)]
  · intro i z hz
    rcases getElem?_set_cases hz with ⟨rfl, rfl⟩ | ⟨-, hz⟩
    · exact hahead
    · exact hagrees.ahead hz

end Keeps

/-! ## What a moment of the bus adds -/

section Moments

variable [DecidableEq t.ChannelId] {s : Fleet t I n}

theorem begunBy_moves {op : TrafficOp t.ChannelId t.Event Nat} {m : BusMoment t n}
    (hm : Moves s op m) (i : Nat) :
    begunBy i [m] = if op.passedOnBy = some i then [op] else [] := by
  simp only [begunBy, List.map_cons, List.map_nil, hm.label, List.filter_cons, List.filter_nil,
    decide_eq_true_eq]

/-- A moment of the bus that begins nothing offers what it offers of a call. -/
theorem copiesBy_moves {op : TrafficOp t.ChannelId t.Event Nat} {m : BusMoment t n}
    (hm : Moves s op m) (hop : op.isRequest = false) (i : Nat) : copiesBy i m = [] := by
  unfold copiesBy
  rw [hm.label]
  cases op <;> first | rfl | cases hop

/-- Only a call that pushes offers. -/
theorem offered_moves {op : TrafficOp t.ChannelId t.Event Nat} {m : BusMoment t n}
    (hm : Moves s op m) (hpush : ∀ k, op ≠ .push k) (i : Nat) :
    m.events.filterMap (TrafficEvent.copyBy i) = [] := by
  have hcalls := hm.calls
  generalize m.post.calls = calls at hcalls
  generalize m.events = busEvents at hcalls
  cases hcalls with
  | keeps _ _ _ hevents => exact hevents i
  | begins => rfl
  | pushes => exact absurd rfl (hpush _)
  | panics => rfl
  | returns => rfl

/-- A call that begins has all its copies to offer. -/
theorem pending_begin (hwf : s.Wf) {i j : Nat} {x : Member t I} {r : Request t.ChannelId t.Event}
    {m : BusMoment t n} (hx : s.members[j]? = some x) (hdue : x.due = some (.request r))
    (hcall : x.call = none) (hm : Moves s (.request r) m) :
    s.pending i ++ copiesBy i m =
      Fleet.pending ⟨m.post, s.members.set j ⟨x.worker, none, some s.traffic.calls.length⟩⟩ i := by
  have hj : j < s.members.length := (List.getElem?_eq_some_iff.mp hx).1
  have hcalls : m.post.calls = s.traffic.calls ++ [r.call s.traffic.bus] := by
    rw [post_request hm.fires hm.label, hm.pre]
  obtain ⟨-, hsender, -⟩ := call_of_passedOnBy hwf.registered (hwf.due hx hdue)
  have hcopies : copiesBy i m = if j = i then (r.call s.traffic.bus).copies else [] := by
    simp only [copiesBy, hm.label, hm.pre, hsender, Option.some.injEq]
  rw [hcopies, Fleet.pending, Fleet.pending]
  by_cases hji : j = i
  · subst hji
    rw [Fleet.callAt_none hx hcall, Fleet.callAt_eq (List.getElem?_set_self hj) rfl, hcalls,
      List.getElem?_concat_length, if_pos rfl]
    simp
  · have hsame : Fleet.callAt ⟨m.post, s.members.set j
        ⟨x.worker, none, some s.traffic.calls.length⟩⟩ i = s.callAt i := by
      refine Fleet.callAt_congr (List.getElem?_set_ne hji) fun y k hy hk ↦ ?_
      obtain ⟨c, hc, -⟩ := hwf.call hy hk
      rw [hcalls]
      exact List.getElem?_append_left (List.getElem?_eq_some_iff.mp hc).1
    rw [hsame, if_neg hji, List.append_nil]

/-- A call that pushes offers the first of them. -/
theorem pending_push (hwf : s.Wf) {i j k : Nat} {x : Member t I} {m : BusMoment t n}
    (hx : s.members[j]? = some x) (hcall : x.call = some k) (hm : Moves s (.push k) m) :
    s.pending i = offeredBy i [m] ++ Fleet.pending ⟨m.post, s.members⟩ i := by
  obtain ⟨call, dest, rest, o, hc, hrest, hcalls, hevents, hleg, hsource, hmsg⟩ := hm.push hwf
  have hk : k < s.traffic.calls.length := (List.getElem?_eq_some_iff.mp hc).1
  obtain ⟨c, hc', -, hsender⟩ := hwf.call hx hcall
  cases hc.symm.trans hc'
  simp only [offeredBy, History.events_singleton, hevents, List.filterMap_cons,
    List.filterMap_nil, TrafficEvent.copyBy, hsource, hsender, Option.some.injEq, hleg, hmsg]
  rw [Fleet.pending, Fleet.pending]
  by_cases hji : j = i
  · subst hji
    have hpost : Fleet.callAt ⟨m.post, s.members⟩ j = some { call with rest } := by
      rw [Fleet.callAt_eq (s := ⟨m.post, s.members⟩) hx hcall, hcalls, List.getElem?_set_self hk]
    rw [Fleet.callAt_eq hx hcall, hc, hpost]
    simp [Bus.Call.copies, hrest]
  · have hsame : Fleet.callAt ⟨m.post, s.members⟩ i = s.callAt i :=
      hwf.callAt_ne hx hcall hji rfl fun k' hne ↦ by rw [hcalls, List.getElem?_set_ne hne]
    rw [hsame, if_neg hji]
    rfl

/-- A call that returns has none left. -/
theorem pending_finish (hwf : s.Wf) {i j k : Nat} {x : Member t I} {m : BusMoment t n}
    (hx : s.members[j]? = some x) (hcall : x.call = some k) (hm : Moves s (.finish k) m) :
    Fleet.pending ⟨m.post, s.members.set j { x with call := none }⟩ i = s.pending i := by
  obtain ⟨call, hc, hrest, hcalls, -⟩ := hm.finish
  have hj : j < s.members.length := (List.getElem?_eq_some_iff.mp hx).1
  rw [Fleet.pending, Fleet.pending]
  by_cases hji : j = i
  · subst hji
    rw [Fleet.callAt_none (List.getElem?_set_self hj) rfl, Fleet.callAt_eq hx hcall, hc]
    simp [Bus.Call.copies, hrest]
  · rw [hwf.callAt_ne hx hcall hji (List.getElem?_set_ne hji) fun k' hne ↦ by
      rw [hcalls, List.getElem?_set_ne hne]]

/-- Only a `recv` receives. -/
theorem received_moves {op : TrafficOp t.ChannelId t.Event Nat} {m : BusMoment t n}
    (hm : Moves s op m) (hop : ∀ leg, op ≠ .recv leg) (i : Nat) : Bus.received i [m] = [] := by
  rw [Bus.received, History.events_singleton]
  have hdoes := hm.does
  generalize m.post = traffic at hdoes
  generalize m.events = busEvents at hdoes
  cases hdoes with
  | receives => exact absurd rfl (hop _)
  | _ => rfl

/-- It receives what is in front of the leg. -/
theorem received_recv {leg : Nat} {m : BusMoment t n} (hm : Moves s (.recv leg) m) (i : Nat) :
    Bus.received i [m] = if leg = i then (s.traffic.bus.recv leg).1.toList else [] := by
  rw [Bus.received, History.events_singleton]
  have hstep := hm.fires
  rw [Machine.Fires, hm.pre, hm.label] at hstep
  simp only [Traffic.machine, Traffic.step] at hstep
  split at hstep
  · rw [← (Prod.mk.inj (Option.some.inj hstep)).2, List.filterMap_cons, List.filterMap_nil,
      TrafficEvent.receivedFrom]
    by_cases hi : leg = i
    · cases hout : (s.traffic.bus.recv leg).1 <;> simp [hi]
    · simp [hi]
  · cases hstep

/-- Other steps of the bus leave the registrations alone. -/
theorem registered_moves {op : TrafficOp t.ChannelId t.Event Nat} {m : BusMoment t n}
    (hm : Moves s op m) (hsub : ∀ leg c, op ≠ .subscribe leg c)
    (hunsub : ∀ leg c, op ≠ .unsubscribe leg c) (i : Nat) (c : t.ChannelId) :
    i ∈ m.post.bus.registered c ↔ i ∈ s.traffic.bus.registered c := by
  rw [hm.does.mem_registered c i]
  simp [hsub i c, hunsub i c]

end Moments

section Steps

variable [WorkerInner t I] [DecidableEq t.Owner] [DecidableEq t.ChannelId]
  {s s' : Fleet t I n} {op : FleetOp t} {events : List (FleetEvent t I n)}

/-! ## What is asked is begun -/

/-- A step of a worker asks one thing of the bus, or nothing. -/
theorem onBus_of_step {w w' : Worker t I} {a : Answer t} {acts : List (Act t)}
    (h : worker.step w a = some (w', acts)) (leg : Nat) :
    (acts.filterMap (Act.onBus leg)).head?.toList = acts.filterMap (Act.onBus leg) := by
  have hdoes := worker_cases h
  cases hdoes
  case pop out inner hp hout =>
    have hpassed := Worker.passedOn { w with inner } out
    generalize ({ w with inner }.processInnerOutput out).2 = acts at hpassed
    cases hpassed <;> rfl
  all_goals rfl

/-- **What a worker asks of the bus in a step** is due then, and what was due is begun. -/
theorem FleetDoes.asked (hd : FleetDoes s op s' events) (hwf : s.Wf) (i : Nat) :
    s.due i ++ askedOfBus i (events.filterMap (FleetEvent.report i)) =
      begunBy i (events.filterMap FleetEvent.ofBus) ++ s'.due i := by
  have hnone : askedOfBus i ([] : WorkerHistory t I) = [] := rfl
  -- a worker with nothing due goes on
  have hgo {j : Nat} {x : Member t I} {a : Answer t} {w : Worker t I} {acts : List (Act t)}
      (hx : s.members[j]? = some x) (hfree : x.Free)
      (hstep : worker.step x.worker a = some (w, acts)) (traffic) :
      s.due i ++ askedOfBus i (if j = i then [⟨x.worker, a, acts, w⟩] else []) =
        Fleet.due (n := n) ⟨traffic, s.members.set j
          ⟨w, (acts.filterMap (Act.onBus x.worker.innerBus)).head?, none⟩⟩ i := by
    rw [Fleet.due_set hx, hwf.leg hx]
    split
    · rename_i hji
      subst hji
      rw [onBus_of_step hstep, Fleet.due, hx, Option.bind_some, hfree.1]
      simp [askedOfBus]
    · rw [hnone, List.append_nil]
  cases hd with
  | newWorker hm | pushes _ _ hm =>
      simp only [FleetEvent.report_bus, FleetEvent.ofBus_bus, List.filterMap_nil, hnone,
        begunBy_moves hm, List.append_nil]
      rfl
  | start hm hlen =>
      simp only [FleetEvent.report_bus, FleetEvent.ofBus_bus, List.filterMap_nil, hnone,
        begunBy_moves hm, List.append_nil, Fleet.due_start]
      rfl
  | goes hx hfree ha hstep =>
      simp only [FleetEvent.report_worker, FleetEvent.ofBus_worker, List.filterMap_nil,
        List.append_nil]
      exact hgo hx hfree hstep s.traffic
  | receives hx hfree hm hstep =>
      simp only [FleetEvent.report_bus, FleetEvent.report_worker, FleetEvent.ofBus_bus,
        FleetEvent.ofBus_worker, List.filterMap_nil, List.append_nil, begunBy_moves hm]
      exact hgo hx hfree hstep _
  | @acts j x op m hx hdue hcall hm =>
      simp only [FleetEvent.report_bus, FleetEvent.ofBus_bus, List.filterMap_nil, hnone,
        begunBy_moves hm, List.append_nil, Fleet.due_set hx, hwf.due hx hdue, Option.some.injEq]
      split
      · rename_i hji
        subst hji
        simp [Fleet.due, hx, hdue]
      · rfl
  | @finishes j x k m hx hcall hm =>
      simp only [FleetEvent.report_bus, FleetEvent.ofBus_bus, List.filterMap_nil, hnone,
        begunBy_moves hm, List.append_nil, Fleet.due_set hx]
      by_cases hji : j = i
      · subst hji
        simp [Fleet.due, hx, TrafficOp.passedOnBy]
      · simp [hji, TrafficOp.passedOnBy]

theorem begun_of_run {h : FleetHistory t I n} (hr : fleet.Run .empty h s) (i : Nat) :
    askedOfBus i (FleetHistory.of h i) = begunBy i (FleetHistory.bus h) ++ s.due i := by
  induction hr with
  | nil => rfl
  | @snoc h m hr hm ih =>
      have hstep := (FleetDoes.of_fires hm).asked (wf_of_fleet hr) i
      rw [FleetHistory.of_append, FleetHistory.bus_append, begunBy_append, askedOfBus,
        History.events_append, List.filterMap_append, ← askedOfBus, ← askedOfBus, ih,
        List.append_assoc, List.append_assoc]
      simpa [FleetHistory.of, FleetHistory.bus] using hstep

/-! ## What has begun is offered -/

/-- **What a call of a worker begins with** is offered, or it is still to come to it. -/
theorem FleetDoes.copied (hd : FleetDoes s op s' events) (hwf : s.Wf) (i : Nat) :
    s.pending i ++ (events.filterMap FleetEvent.ofBus).flatMap (copiesBy i) =
      offeredBy i (events.filterMap FleetEvent.ofBus) ++ s'.pending i := by
  -- a step that neither begins a call nor pushes
  have hquiet {op : TrafficOp t.ChannelId t.Event Nat} {m : BusMoment t n} (hm : Moves s op m)
      (hop : op.isRequest = false) (hpush : ∀ k, op ≠ .push k)
      (hsame : s'.pending i = s.pending i) :
      s.pending i ++ [m].flatMap (copiesBy i) = offeredBy i [m] ++ s'.pending i := by
    rw [List.flatMap_singleton, copiesBy_moves hm hop, offeredBy, History.events_singleton,
      offered_moves hm hpush, List.append_nil, List.nil_append, hsame]
  cases hd with
  | @newWorker m hm hlen =>
      have hcalls := hm.calls_eq rfl (by simp) (by simp)
      have hsame : Fleet.callAt ⟨m.post, s.members⟩ i = s.callAt i :=
        Fleet.callAt_congr rfl fun x k _ _ ↦ by rw [hcalls]
      exact hquiet hm rfl (by simp) (congrArg (·.toList.flatMap Bus.Call.copies) hsame)
  | start hm hlen =>
      exact hquiet hm rfl (by simp) (pending_start (hm.calls_eq rfl (by simp) (by simp)) _)
  | goes hx hfree ha hstep =>
      exact (List.append_nil _).trans (pending_go hx hfree.2 rfl _ _).symm
  | receives hx hfree hm hstep =>
      exact hquiet hm rfl (by simp)
        (pending_go hx hfree.2 (hm.calls_eq rfl (by simp) (by simp)) _ _)
  | @acts j x op m hx hdue hcall hm =>
      have hby := hwf.due hx hdue
      cases op with
      | request r =>
          rw [FleetEvent.ofBus_bus, List.filterMap_nil, List.flatMap_singleton, offeredBy,
            History.events_singleton, offered_moves hm (by simp), List.nil_append]
          exact pending_begin hwf hx hdue hcall hm
      | _ =>
          refine hquiet hm rfl (by cases hby <;> simp) (pending_go hx hcall ?_ _ _)
          exact hm.calls_eq rfl (by cases hby <;> simp) (by cases hby <;> simp)
  | pushes hx hcall hm =>
      rw [FleetEvent.ofBus_bus, List.filterMap_nil, List.flatMap_singleton, copiesBy_moves hm rfl,
        List.append_nil]
      exact pending_push hwf hx hcall hm
  | finishes hx hcall hm => exact hquiet hm rfl (by simp) (pending_finish hwf hx hcall hm)

theorem copied_of_run {h : FleetHistory t I n} (hr : fleet.Run .empty h s) (i : Nat) :
    offeredBy i (FleetHistory.bus h) ++ s.pending i =
      (FleetHistory.bus h).flatMap (copiesBy i) := by
  induction hr with
  | nil => rfl
  | @snoc h m hr hm ih =>
      have hstep := (FleetDoes.of_fires hm).copied (wf_of_fleet hr) i
      rw [FleetHistory.bus_append, List.flatMap_append, ← ih, List.append_assoc, offeredBy,
        History.events_append, List.filterMap_append, ← offeredBy, ← offeredBy, List.append_assoc]
      simpa [FleetHistory.bus] using hstep.symm

/-! ## What is accepted is received -/

/-- **A worker takes what it receives from its leg.** -/
theorem FleetDoes.received (hd : FleetDoes s op s' events) (hwf : s.Wf) (i : Nat) :
    fromBus (events.filterMap (FleetEvent.report i)) =
      Bus.received i (events.filterMap FleetEvent.ofBus) := by
  have hquiet {op : TrafficOp t.ChannelId t.Event Nat} {m : BusMoment t n} (hm : Moves s op m)
      (hop : ∀ leg, op ≠ .recv leg) :
      fromBus ([FleetEvent.bus m].filterMap (FleetEvent.report (I := I) i)) =
        Bus.received i ([FleetEvent.bus m].filterMap (FleetEvent.ofBus (I := I))) := by
    exact (received_moves hm hop i).symm
  cases hd with
  | newWorker hm | start hm | pushes _ _ hm | finishes _ _ hm => exact hquiet hm (by simp)
  | @goes j x a w acts hx hfree ha hstep =>
      rw [FleetEvent.report_worker, FleetEvent.ofBus_worker]
      split
      · cases a <;> first | rfl | cases ha
      · rfl
  | @receives j x w acts m hx hfree hm hstep =>
      rw [FleetEvent.report_bus, FleetEvent.report_worker, FleetEvent.ofBus_bus,
        FleetEvent.ofBus_worker, List.filterMap_nil, List.filterMap_nil, List.append_nil,
        received_recv hm, hwf.leg hx]
      split
      · simp only [fromBus, List.filterMap_cons, List.filterMap_nil, Answer.busMessage]
        cases (s.traffic.bus.recv j).1 <;> rfl
      · rfl
  | @acts j x op m hx hdue hcall hm =>
      refine hquiet hm ?_
      rintro leg rfl
      cases hwf.due hx hdue

/-- **What a worker has received and what waits in its leg** are the copies that it has
accepted, in the order in which they were pushed. -/
theorem received_of_run {h : FleetHistory t I n} (hr : fleet.Run .empty h s) (i : Nat) :
    fromBus (FleetHistory.of h i) ++ s.traffic.bus.waiting i =
      accepted i (FleetHistory.bus h) := by
  suffices hreceived : fromBus (FleetHistory.of h i) = Bus.received i (FleetHistory.bus h) by
    rw [hreceived]
    exact fifo_of_run (traffic_of_run hr) i
  induction hr with
  | nil => rfl
  | @snoc h m hr hm ih =>
      have hstep := (FleetDoes.of_fires hm).received (wf_of_fleet hr) i
      rw [FleetHistory.of_append, FleetHistory.bus_append, fromBus_append, ih, Bus.received,
        Bus.received, History.events_append, List.filterMap_append]
      simpa [FleetHistory.of, FleetHistory.bus, Bus.received] using hstep

/-! ## Who is registered -/

/-- A step of the thread changes the hub and what is due together. -/
theorem listens_of_step {x : Member t I} (hfree : x.Free) {a : Answer t} {w : Worker t I}
    {acts : List (Act t)} (hstep : worker.step x.worker a = some (w, acts)) (leg : Nat) :
    Member.Ahead (⟨w, (acts.filterMap (Act.onBus leg)).head?, none⟩ : Member t I) ∧
      ∀ c, Member.Listens (⟨w, (acts.filterMap (Act.onBus leg)).head?, none⟩ : Member t I) c ↔
        x.Listens c := by
  have hx (c : t.ChannelId) : x.Listens c ↔ x.worker.busLocalHub.subscribers c ≠ [] :=
    Member.listens_of_due (by simp [hfree.1]) (by simp [hfree.1]) c
  obtain ⟨hno, hhub⟩ | ⟨out, c', hacts, hfirst, hhub⟩ | ⟨out, c', hacts, hlast, hhub⟩ :=
    registration_cases (m := ⟨x.worker, a, acts, w⟩) hstep
  · -- what is due is no registration
    have hdue (op : TrafficOp t.ChannelId t.Event Nat)
        (hop : (acts.filterMap (Act.onBus leg)).head? = some op) :
        (∀ leg c, op ≠ .subscribe leg c) ∧ ∀ leg c, op ≠ .unsubscribe leg c := by
      obtain ⟨act, hact, honBus⟩ := List.mem_filterMap.mp (List.mem_of_head? hop)
      cases act with
      | subscribe c => exact absurd hact (hno c).1
      | unsubscribe c => exact absurd hact (hno c).2
      | publish c safe msg =>
          cases honBus
          exact ⟨by simp, by simp⟩
      | broadcast safe msg =>
          cases honBus
          exact ⟨by simp, by simp⟩
      | _ => cases honBus
    refine ⟨⟨fun h ↦ absurd rfl ((hdue _ h).1 _ _), fun h ↦ absurd rfl ((hdue _ h).2 _ _)⟩,
      fun c ↦ ?_⟩
    rw [hx c, ← hhub c]
    exact Member.listens_of_due (fun leg c h ↦ (hdue _ h).1 leg c rfl)
      (fun leg c h ↦ (hdue _ h).2 leg c rfl) c
  · obtain rfl : acts = [.popOutput out, .subscribe c'] := hacts
    dsimp only at hhub hfirst
    refine ⟨⟨fun h ↦ ?_, fun h ↦ ?_⟩, fun c ↦ ?_⟩
    · cases h
      exact (hhub c').mpr (.inl rfl)
    · cases h
    · rw [hx c]
      change c ≠ c' ∧ w.busLocalHub.subscribers c ≠ [] ↔ _
      rw [hhub c]
      constructor
      · rintro ⟨hne, hc | hc⟩
        · exact absurd hc hne
        · exact hc
      · intro hc
        refine ⟨?_, .inr hc⟩
        rintro rfl
        exact hc hfirst
  · obtain rfl : acts = [.popOutput out, .unsubscribe c'] := hacts
    dsimp only at hhub hlast
    refine ⟨⟨fun h ↦ ?_, fun h ↦ ?_⟩, fun c ↦ ?_⟩
    · cases h
    · cases h
      by_contra hne
      exact ((hhub c').mp hne).1 rfl
    · rw [hx c]
      change c = c' ∨ w.busLocalHub.subscribers c ≠ [] ↔ _
      rw [hhub c]
      constructor
      · rintro (rfl | ⟨-, hc⟩)
        · exact hlast
        · exact hc
      · intro hc
        by_cases hcc : c = c'
        · exact .inl hcc
        · exact .inr ⟨hcc, hc⟩

theorem FleetDoes.agrees (hd : FleetDoes s op s' events) (hwf : s.Wf) (hagrees : s.Agrees) :
    s'.Agrees := by
  -- whether the leg of a worker is registered, by the worker
  have hown {j : Nat} {x : Member t I} (hx : s.members[j]? = some x) (c : t.ChannelId) :
      j ∈ s.traffic.bus.registered c ↔ x.Listens c := by
    rw [hagrees.registered j c]
    simp [hx]
  cases hd with
  | newWorker hm | pushes _ _ hm =>
      refine ⟨fun i c ↦ ?_, hagrees.ahead⟩
      rw [registered_moves hm (by simp) (by simp), hagrees.registered i c]
  | @start tick cfg now m hm hlen =>
      constructor
      · intro i c
        rw [registered_moves hm (by simp) (by simp), hagrees.registered i c, getElem?_concat]
        split
        · rename_i hi
          rw [hi, List.getElem?_eq_none le_rfl]
          simp [Member.Listens, Worker.new]
        · rfl
      · intro i x hx
        rcases getElem?_concat_cases hx with hx | ⟨rfl, rfl⟩
        · exact hagrees.ahead hx
        · exact ⟨fun h ↦ (by cases h), fun h ↦ (by cases h)⟩
  | @goes j x a w acts hx hfree ha hstep =>
      obtain ⟨hahead, hlistens⟩ := listens_of_step hfree hstep x.worker.innerBus
      refine hagrees.of_set hx hahead fun i c ↦ ?_
      split
      · rename_i hij
        rw [hij, hown hx c, hlistens c]
      · rfl
  | @receives j x w acts m hx hfree hm hstep =>
      obtain ⟨hahead, hlistens⟩ := listens_of_step hfree hstep x.worker.innerBus
      refine hagrees.of_set hx hahead fun i c ↦ ?_
      rw [registered_moves hm (by simp) (by simp)]
      split
      · rename_i hij
        rw [hij, hown hx c, hlistens c]
      · rfl
  | @finishes j x k m hx hcall hm =>
      have hahead := hagrees.ahead hx
      refine hagrees.of_set hx ⟨hahead.subscribe, hahead.unsubscribe⟩ fun i c ↦ ?_
      rw [registered_moves hm (by simp) (by simp)]
      split
      · rename_i hij
        rw [hij, hown hx c]
        rfl
      · rfl
  | @acts j x op m hx hdue hcall hm =>
      have hby := hwf.due hx hdue
      have hahead := hagrees.ahead hx
      refine hagrees.of_set hx ⟨fun h ↦ (by cases h), fun h ↦ (by cases h)⟩ fun i c ↦ ?_
      rw [hm.does.mem_registered c i]
      change _ ↔ if i = j then x.worker.busLocalHub.subscribers c ≠ [] else _
      by_cases hij : i = j
      · subst hij
        rw [if_pos rfl, hown hx c]
        exact hahead.registered hdue hby c
      · obtain ⟨hsub, hunsub⟩ := passedOnBy_ne hby hij c
        rw [if_neg hij]
        simp [hsub, hunsub]

theorem agrees_of_fleet {h : FleetHistory t I n} (hr : fleet.Run .empty h s) : s.Agrees := by
  induction hr with
  | nil =>
      refine ⟨fun i c ↦ ?_, fun h ↦ (by cases h)⟩
      simp [Fleet.empty, Traffic.empty, BusSystem.registered, BusSystem.default]
  | snoc hr hm ih => exact (FleetDoes.of_fires hm).agrees (wf_of_fleet hr) ih

/-! ## From end to end -/

/-- What becomes of the messages of a worker and of those for it, after a run. -/
structure EndToEnd (h : FleetHistory t I n) (s : Fleet t I n) (i : Nat) (x : Member t I) :
    Prop where
  /-- What its outputs ask of the bus is begun in that order, or due. -/
  asked : askedOfBus i (FleetHistory.of h i) = begunBy i (FleetHistory.bus h) ++ x.due.toList
  /-- What its calls begin with is offered in that order, or still to be offered. -/
  copied : offeredBy i (FleetHistory.bus h) ++ s.pending i =
    (FleetHistory.bus h).flatMap (copiesBy i)
  /-- A `publish` begins with one copy for each leg that is subscribed then. -/
  publishes : ∀ h₁ m h₂, FleetHistory.bus h = h₁ ++ m :: h₂ → ∀ c safe ev,
    m.label = .request (.publish i c safe ev) → ∃ dests : List Nat, dests.Nodup ∧
      (∀ d, d ∈ dests ↔ SubscribedTo d c h₁) ∧
      copiesBy i m = dests.map (⟨·, safe, .channel i c, ev⟩)
  /-- A `broadcast` begins with one copy for each leg. -/
  broadcasts : ∀ m ∈ FleetHistory.bus h, ∀ safe ev,
    m.label = .request (.broadcast (.worker i) safe ev) →
      copiesBy i m = (List.range m.pre.bus.legs.length).map (⟨·, safe, .broadcast i, ev⟩)
  /-- A copy is refused exactly where it is not safe and finds its leg full. -/
  refused : ∀ m ∈ FleetHistory.bus h, ∀ k how o, .offered k how o ∈ m.events →
    ((∃ e, o.result = .error e) ↔ how.safe = false ∧ n ≤ (m.pre.bus.waiting o.leg).length)
  /-- The copies that its leg has accepted are received in that order, or waiting. -/
  received : fromBus (FleetHistory.of h i) ++ s.traffic.bus.waiting i =
    accepted i (FleetHistory.bus h)
  /-- Those of one worker are in the order in which that worker sends them. -/
  inOrder : ∀ j, ((fromBus (FleetHistory.of h i) ++ s.traffic.bus.waiting i).filter
    (·.1.sender = some j)).Sublist
      ((((FleetHistory.bus h).flatMap (copiesBy j)).filter (·.leg = i)).map
        fun c ↦ (c.source, c.msg))
  /-- Of each that was received its inner value was told once for each owner listed then, or
  is to be told next, in order. -/
  told : toldOfBus (FleetHistory.of h i) ++ x.worker.pc.toTell =
    (FleetHistory.of h i).flatMap fannedOut
  /-- Its leg is registered for the channels that have owners listed, apart from a change
  that is due. -/
  registered : ∀ c, i ∈ s.traffic.bus.registered c ↔ x.Listens c
  /-- What is due can be done as soon as no call holds a lock, -/
  unlocked : x.due ≠ none → (s.step (.member i .act)).isSome = true ∨
    ∃ (j : Nat) (y : Member t I) (k : Nat), s.members[j]? = some y ∧ y.call = some k
  /-- and a call can go on at any time. -/
  goesOn : x.call ≠ none →
    (s.step (.member i .push)).isSome = true ∨ (s.step (.member i .finish)).isSome = true

end Steps

/-- Two workers broadcast at a time: one comes to the first leg first, the other one to the
second.  The second worker is woken then, and receives. -/
def crossing : List (FleetOp plainTypes) :=
  [.newWorker, .start 10 [some (.broadcast true 7)] 0, .newWorker,
    .start 10 [some (.broadcast true 8)] 0, .member 0 (.go (.clock 0)), .member 0 (.go .run),
    .member 1 (.go (.clock 0)), .member 1 (.go .run), .member 0 .act, .member 1 .act,
    .member 0 .push, .member 1 .push, .member 1 .push, .member 0 .push, .member 0 .finish,
    .member 1 .finish, .member 1 (.go .run), .member 1 (.go (.clock 1)),
    .member 1 (.go (.control none)), .member 1 (.go .run), .member 1 (.go .run),
    .member 1 (.go (.elapsed 0)), .member 1 (.go (.incoming (some .awake))), .member 1 .recv]

/-- What comes of it. -/
def crossed : FleetHistory plainTypes Scripted 1 × Fleet plainTypes Scripted 1 :=
  ((fleet (t := plainTypes)).exec .empty crossing).get rfl

theorem crossed_run : (fleet (t := plainTypes)).Run .empty crossed.1 crossed.2 :=
  Machine.exec_run_get _

end SansIo
