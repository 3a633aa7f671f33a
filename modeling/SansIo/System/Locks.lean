import SansIo.System.Fleet

/-!
# The workers and their calls

A worker of a fleet is in one call of the bus at most, has nothing else due meanwhile, and
no call goes on but those of workers: `Fleet.Wf`, which every step keeps (`wf_of_fleet`).

So no lock is held for ever.  A call can always push or return (`goesOn_of_wf`), and what
waits for the calls to end can be done when there are none (`due_or_call_of_wf`).
-/

namespace SansIo

open Lib Bus Backend

variable {t : WorkerTypes} {I : Type} {n : Nat}

/-! ## What a fleet keeps to -/

/-- The indices belong together, and the calls that go on are those of the workers. -/
structure Fleet.Wf (s : Fleet t I n) : Prop where
  /-- A worker has the leg of its index. -/
  leg : ∀ {i : Nat} {x : Member t I}, s.members[i]? = some x → x.worker.innerBus = i
  /-- The legs are there. -/
  legs : s.members.length ≤ s.traffic.bus.legs.length
  /-- What is due to a worker is of its own. -/
  due : ∀ {i : Nat} {x : Member t I} {op : TrafficOp t.ChannelId t.Event Nat},
    s.members[i]? = some x → x.due = some op → op.passedOnBy = some i
  /-- A worker in a call has nothing due. -/
  apart : ∀ {i k : Nat} {x : Member t I}, s.members[i]? = some x → x.call = some k → x.due = none
  /-- The call of a worker goes on, and is its own. -/
  call : ∀ {i k : Nat} {x : Member t I}, s.members[i]? = some x → x.call = some k →
    ∃ c, s.traffic.calls[k]? = some c ∧ c.running = true ∧ c.source.sender = some i
  /-- A call that goes on is one of a worker. -/
  running : ∀ {k : Nat} {c : Bus.Call t.ChannelId t.Event}, s.traffic.calls[k]? = some c →
    c.running = true → ∃ (i : Nat) (x : Member t I), s.members[i]? = some x ∧ x.call = some k
  /-- The legs that a call is still to come to are there. -/
  rest : ∀ {k : Nat} {c : Bus.Call t.ChannelId t.Event}, s.traffic.calls[k]? = some c →
    ∀ d ∈ c.rest, d < s.traffic.bus.legs.length
  /-- So are those that are registered. -/
  registered : InRange s.traffic.bus

theorem wf_empty : (Fleet.empty : Fleet t I n).Wf where
  leg h := by cases h
  legs := Nat.le_refl 0
  due h := by cases h
  apart h := by cases h
  call h := by cases h
  running h := by cases h
  rest h := by cases h
  registered _ _ h := by cases h

namespace Fleet.Wf

variable {s : Fleet t I n}

/-- The bus may change, as long as the calls do not. -/
theorem of_bus (hwf : s.Wf) {bus : BusSystem t.ChannelId t.Event Nat n}
    (hlegs : s.traffic.bus.legs.length ≤ bus.legs.length) (hregistered : InRange bus) :
    (Fleet.mk ⟨bus, s.traffic.calls⟩ s.members).Wf where
  leg := hwf.leg
  legs := hwf.legs.trans hlegs
  due := hwf.due
  apart := hwf.apart
  call := hwf.call
  running := hwf.running
  rest hc d hd := (hwf.rest hc d hd).trans_le hlegs
  registered := hregistered

/-- A worker may join. -/
theorem of_start (hwf : s.Wf) {w : Worker t I} (hw : w.innerBus = s.members.length)
    (hlen : s.members.length < s.traffic.bus.legs.length) :
    (Fleet.mk s.traffic (s.members ++ [⟨w, none, none⟩])).Wf := by
  refine ⟨fun hx ↦ ?_, by simpa using Nat.succ_le_of_lt hlen, fun hx hdue ↦ ?_, fun hx hcall ↦ ?_,
    fun hx hcall ↦ ?_, fun hc hrunning ↦ ?_, hwf.rest, hwf.registered⟩
  · rcases getElem?_concat_cases hx with hx | ⟨rfl, rfl⟩
    · exact hwf.leg hx
    · exact hw
  · rcases getElem?_concat_cases hx with hx | ⟨rfl, rfl⟩
    · exact hwf.due hx hdue
    · cases hdue
  · rcases getElem?_concat_cases hx with hx | ⟨rfl, rfl⟩
    · exact hwf.apart hx hcall
    · cases hcall
  · rcases getElem?_concat_cases hx with hx | ⟨rfl, rfl⟩
    · exact hwf.call hx hcall
    · cases hcall
  · obtain ⟨i, x, hx, hcall⟩ := hwf.running hc hrunning
    have hi : i < s.members.length := (List.getElem?_eq_some_iff.mp hx).1
    exact ⟨i, x, (List.getElem?_append_left hi).trans hx, hcall⟩

/-- A worker that is in no call may go on, and may have something due then. -/
theorem of_go (hwf : s.Wf) {i : Nat} {x : Member t I} (hx : s.members[i]? = some x)
    (hcall : x.call = none) {w : Worker t I} (hw : w.innerBus = x.worker.innerBus)
    {due : Option (TrafficOp t.ChannelId t.Event Nat)}
    (hdue : ∀ op, due = some op → op.passedOnBy = some i) :
    (Fleet.mk s.traffic (s.members.set i ⟨w, due, none⟩)).Wf := by
  refine ⟨fun hy ↦ ?_, by simpa using hwf.legs, fun hy hop ↦ ?_, fun hy hk ↦ ?_, fun hy hk ↦ ?_,
    fun hc hrunning ↦ ?_, hwf.rest, hwf.registered⟩
  · rcases getElem?_set_cases hy with ⟨rfl, rfl⟩ | ⟨-, hy⟩
    · exact hw.trans (hwf.leg hx)
    · exact hwf.leg hy
  · rcases getElem?_set_cases hy with ⟨rfl, rfl⟩ | ⟨-, hy⟩
    · exact hdue _ hop
    · exact hwf.due hy hop
  · rcases getElem?_set_cases hy with ⟨rfl, rfl⟩ | ⟨-, hy⟩
    · cases hk
    · exact hwf.apart hy hk
  · rcases getElem?_set_cases hy with ⟨rfl, rfl⟩ | ⟨-, hy⟩
    · cases hk
    · exact hwf.call hy hk
  · obtain ⟨j, y, hy, hk⟩ := hwf.running hc hrunning
    have hji : i ≠ j := by
      rintro rfl
      cases hx.symm.trans hy
      cases hcall.symm.trans hk
    exact ⟨j, y, (List.getElem?_set_ne hji).trans hy, hk⟩

/-- It may begin a call. -/
theorem of_begin (hwf : s.Wf) {i : Nat} {x : Member t I} (hx : s.members[i]? = some x)
    (hcall : x.call = none) {c : Bus.Call t.ChannelId t.Event} (hc : c.running = true)
    (hsender : c.source.sender = some i) (hrest : ∀ d ∈ c.rest, d < s.traffic.bus.legs.length) :
    (Fleet.mk { s.traffic with calls := s.traffic.calls ++ [c] }
      (s.members.set i ⟨x.worker, none, some s.traffic.calls.length⟩)).Wf := by
  have hi : i < s.members.length := (List.getElem?_eq_some_iff.mp hx).1
  refine ⟨fun hy ↦ ?_, by simpa using hwf.legs, fun hy hop ↦ ?_, fun hy hk ↦ ?_, fun hy hk ↦ ?_,
    fun hk hrunning ↦ ?_, fun hk ↦ ?_, hwf.registered⟩
  · rcases getElem?_set_cases hy with ⟨rfl, rfl⟩ | ⟨-, hy⟩
    · exact (hwf.leg hx :)
    · exact hwf.leg hy
  · rcases getElem?_set_cases hy with ⟨rfl, rfl⟩ | ⟨-, hy⟩
    · cases hop
    · exact hwf.due hy hop
  · rcases getElem?_set_cases hy with ⟨rfl, rfl⟩ | ⟨-, hy⟩
    · rfl
    · exact hwf.apart hy hk
  · rcases getElem?_set_cases hy with ⟨rfl, rfl⟩ | ⟨-, hy⟩
    · cases hk
      exact ⟨c, List.getElem?_concat_length, hc, hsender⟩
    · obtain ⟨c', hc', hsame⟩ := hwf.call hy hk
      have hlt := (List.getElem?_eq_some_iff.mp hc').1
      exact ⟨c', (List.getElem?_append_left hlt).trans hc', hsame⟩
  · rcases getElem?_concat_cases hk with hk | ⟨rfl, rfl⟩
    · obtain ⟨j, y, hy, hcall'⟩ := hwf.running hk hrunning
      have hji : i ≠ j := by
        rintro rfl
        cases hx.symm.trans hy
        cases hcall.symm.trans hcall'
      exact ⟨j, y, (List.getElem?_set_ne hji).trans hy, hcall'⟩
    · exact ⟨i, _, List.getElem?_set_self hi, rfl⟩
  · rcases getElem?_concat_cases hk with hk | ⟨rfl, rfl⟩
    · exact hwf.rest hk
    · exact hrest

/-- Its call may push. -/
theorem of_push (hwf : s.Wf) {k dest : Nat} {rest : List Nat} {c : Bus.Call t.ChannelId t.Event}
    (hc : s.traffic.calls[k]? = some c) (hrest : c.rest = dest :: rest) :
    (Fleet.mk { s.traffic with calls := s.traffic.calls.set k { c with rest } } s.members).Wf := by
  have hk : k < s.traffic.calls.length := (List.getElem?_eq_some_iff.mp hc).1
  refine ⟨hwf.leg, hwf.legs, hwf.due, hwf.apart, fun hy hcall ↦ ?_, fun hk' hrunning ↦ ?_,
    fun hk' d hd ↦ ?_, hwf.registered⟩
  · rename_i i j y
    obtain ⟨c', hc', hsame⟩ := hwf.call hy hcall
    by_cases hkj : k = j
    · subst hkj
      cases hc.symm.trans hc'
      exact ⟨_, List.getElem?_set_self hk, hsame⟩
    · exact ⟨c', (List.getElem?_set_ne hkj).trans hc', hsame⟩
  · rcases getElem?_set_cases hk' with ⟨rfl, rfl⟩ | ⟨-, hk'⟩
    · exact hwf.running hc hrunning
    · exact hwf.running hk' hrunning
  · rcases getElem?_set_cases hk' with ⟨rfl, rfl⟩ | ⟨-, hk'⟩
    · exact hwf.rest hc d (hrest ▸ List.mem_cons_of_mem dest hd)
    · exact hwf.rest hk' d hd

/-- Its call may return. -/
theorem of_finish (hwf : s.Wf) {i k : Nat} {x : Member t I} (hx : s.members[i]? = some x)
    (hcall : x.call = some k) {c : Bus.Call t.ChannelId t.Event}
    (hc : s.traffic.calls[k]? = some c) :
    (Fleet.mk { s.traffic with calls := s.traffic.calls.set k { c with running := false } }
      (s.members.set i { x with call := none })).Wf := by
  -- no other worker is in this call
  have hown {j : Nat} {y : Member t I} (hy : s.members[j]? = some y) (hk : y.call = some k) :
      j = i := by
    obtain ⟨c₁, hc₁, -, hi⟩ := hwf.call hx hcall
    obtain ⟨c₂, hc₂, -, hj⟩ := hwf.call hy hk
    cases hc₁.symm.trans hc₂
    exact Option.some.inj (hj.symm.trans hi)
  refine ⟨fun hy ↦ ?_, by simpa using hwf.legs, fun hy hop ↦ ?_, fun hy hk ↦ ?_, fun hy hk ↦ ?_,
    fun hk hrunning ↦ ?_, fun hk ↦ ?_, hwf.registered⟩
  · rcases getElem?_set_cases hy with ⟨rfl, rfl⟩ | ⟨-, hy⟩
    · exact (hwf.leg hx :)
    · exact hwf.leg hy
  · rcases getElem?_set_cases hy with ⟨rfl, rfl⟩ | ⟨-, hy⟩
    · exact hwf.due hx hop
    · exact hwf.due hy hop
  · rcases getElem?_set_cases hy with ⟨rfl, rfl⟩ | ⟨-, hy⟩
    · cases hk
    · exact hwf.apart hy hk
  · rcases getElem?_set_cases hy with ⟨rfl, rfl⟩ | ⟨hij, hy⟩
    · cases hk
    · obtain ⟨c', hc', hsame⟩ := hwf.call hy hk
      refine ⟨c', (List.getElem?_set_ne ?_).trans hc', hsame⟩
      rintro rfl
      exact hij (hown hy hk).symm
  · rcases getElem?_set_cases hk with ⟨rfl, rfl⟩ | ⟨hne, hk⟩
    · cases hrunning
    · obtain ⟨j, y, hy, hk'⟩ := hwf.running hk hrunning
      have hji : i ≠ j := by
        rintro rfl
        cases hx.symm.trans hy
        exact hne (Option.some.inj (hcall.symm.trans hk'))
      exact ⟨j, y, (List.getElem?_set_ne hji).trans hy, hk'⟩
  · rcases getElem?_set_cases hk with ⟨rfl, rfl⟩ | ⟨-, hk⟩
    · exact (hwf.rest hc :)
    · exact hwf.rest hk

end Fleet.Wf

/-- What an act asks of the bus is of its worker. -/
theorem passedOnBy_of_onBus {act : Act t} {leg : Nat} {op : TrafficOp t.ChannelId t.Event Nat}
    (h : act.onBus leg = some op) : op.passedOnBy = some leg := by
  cases act <;> cases h <;> rfl

/-- A call of a worker names it, and comes to legs that are there. -/
theorem call_of_passedOnBy {b : BusSystem t.ChannelId t.Event Nat n} (hb : InRange b)
    {r : Request t.ChannelId t.Event} {i : Nat}
    (h : (.request r : TrafficOp t.ChannelId t.Event Nat).passedOnBy = some i) :
    (r.call b).running = true ∧ (r.call b).source.sender = some i ∧
      ∀ d ∈ (r.call b).rest, d < b.legs.length := by
  cases r with
  | publish leg c safe msg =>
      cases h
      exact ⟨rfl, rfl, fun d hd ↦ hb c d (b.publishDests_eq c ▸ hd)⟩
  | broadcast sender safe msg =>
      cases sender with
      | builder => cases h
      | worker leg =>
          cases h
          exact ⟨rfl, rfl, fun d hd ↦ List.mem_range.1 (b.broadcastDests_eq ▸ hd)⟩
  | _ => cases h

section Steps

variable [DecidableEq t.ChannelId] {s s' : Fleet t I n} {op : FleetOp t}
  {events : List (FleetEvent t I n)}

/-- What a moment of the bus does to the calls, -/
theorem Moves.calls {op : TrafficOp t.ChannelId t.Event Nat} {m : BusMoment t n}
    (hm : Moves s op m) : CallsDo s.traffic op m.post.calls m.events := by
  have hcalls := calls_cases hm.fires
  rwa [hm.pre, hm.label] at hcalls

/-- and to all the rest. -/
theorem Moves.does {op : TrafficOp t.ChannelId t.Event Nat} {m : BusMoment t n}
    (hm : Moves s op m) : TrafficDoes s.traffic op m.post m.events := by
  have hdoes := does_of_fires hm.fires
  rwa [hm.pre, hm.label] at hdoes

/-- The calls stay, unless one begins, pushes or returns. -/
theorem Moves.calls_eq {op : TrafficOp t.ChannelId t.Event Nat} {m : BusMoment t n}
    (hm : Moves s op m) (hop : op.isRequest = false) (hpush : ∀ k, op ≠ .push k)
    (hfinish : ∀ k, op ≠ .finish k) : m.post.calls = s.traffic.calls := by
  have hcalls := hm.calls
  generalize m.post.calls = calls at hcalls
  generalize m.events = busEvents at hcalls
  cases hcalls with
  | keeps => rfl
  | begins => cases hop
  | pushes => exact absurd rfl (hpush _)
  | panics => exact absurd rfl (hpush _)
  | returns => exact absurd rfl (hfinish _)

/-- A push goes to the next leg of its call, and does not panic. -/
theorem Moves.push {k : Nat} {m : BusMoment t n} (hm : Moves s (.push k) m) (hwf : s.Wf) :
    ∃ call dest rest o, s.traffic.calls[k]? = some call ∧ call.rest = dest :: rest ∧
      m.post.calls = s.traffic.calls.set k { call with rest } ∧
      m.events = [.offered k call.how o] ∧ o.leg = dest ∧ o.source = call.source ∧
      o.msg = call.msg := by
  have hcalls := hm.calls
  generalize m.post.calls = calls at hcalls
  generalize m.events = busEvents at hcalls
  cases hcalls with
  | keeps _ hpush => exact absurd rfl (hpush k)
  | @pushes _ call dest rest o hcall hrunning hrest hleg hsource hmsg =>
      exact ⟨call, dest, rest, o, hcall, hrest, rfl, rfl, hleg, hsource, hmsg⟩
  | @panics _ call dest rest hcall hrest hdest =>
      exact absurd (hwf.rest hcall dest (hrest ▸ List.mem_cons_self)) hdest

/-- A call returns behind the last leg. -/
theorem Moves.finish {k : Nat} {m : BusMoment t n} (hm : Moves s (.finish k) m) :
    ∃ call, s.traffic.calls[k]? = some call ∧ call.rest = [] ∧
      m.post.calls = s.traffic.calls.set k { call with running := false } ∧
      m.events = [.returned k] := by
  have hcalls := hm.calls
  generalize m.post.calls = calls at hcalls
  generalize m.events = busEvents at hcalls
  cases hcalls with
  | keeps _ _ hfinish => exact absurd rfl (hfinish k)
  | @returns _ call hcall hrunning hrest => exact ⟨call, hcall, hrest, rfl, rfl⟩

/-- Where the calls stay, what a fleet keeps to stays as well. -/
theorem Fleet.Wf.of_moves (hwf : s.Wf) {op : TrafficOp t.ChannelId t.Event Nat}
    {m : BusMoment t n} (hm : Moves s op m) (hcalls : m.post.calls = s.traffic.calls) :
    (Fleet.mk m.post s.members).Wf := by
  have hbus := hwf.of_bus hm.does.legs_le (hm.does.inRange hwf.registered)
  rwa [← hcalls] at hbus

variable [WorkerInner t I] [DecidableEq t.Owner]

theorem FleetDoes.wf (hd : FleetDoes s op s' events) (hwf : s.Wf) : s'.Wf := by
  have hdue {i : Nat} {x : Member t I} (hx : s.members[i]? = some x) (acts : List (Act t))
      (op : TrafficOp t.ChannelId t.Event Nat)
      (hop : (acts.filterMap (Act.onBus x.worker.innerBus)).head? = some op) :
      op.passedOnBy = some i := by
    obtain ⟨act, -, hact⟩ := List.mem_filterMap.mp (List.mem_of_head? hop)
    rw [← hwf.leg hx]
    exact passedOnBy_of_onBus hact
  cases hd with
  | newWorker hm => exact hwf.of_moves hm (hm.calls_eq rfl (by simp) (by simp))
  | start hm hlen =>
      have hwf' := hwf.of_moves hm (hm.calls_eq rfl (by simp) (by simp))
      exact hwf'.of_start rfl (hlen.trans_le hm.does.legs_le)
  | goes hx hfree _ hstep => exact hwf.of_go hx hfree.2 (legs_of_step hstep).1 (hdue hx _)
  | receives hx hfree hm hstep =>
      have hwf' := hwf.of_moves hm (hm.calls_eq rfl (by simp) (by simp))
      exact hwf'.of_go hx hfree.2 (legs_of_step hstep).1 (hdue hx _)
  | @acts i x op m hx hop hcall hm =>
      have hby := hwf.due hx hop
      cases op with
      | request r =>
          obtain ⟨hrunning, hsender, hrest⟩ := call_of_passedOnBy hwf.registered hby
          have hpost : m.post =
              { s.traffic with calls := s.traffic.calls ++ [r.call s.traffic.bus] } :=
            hm.pre ▸ post_request hm.fires hm.label
          rw [hpost]
          exact hwf.of_begin hx hcall hrunning hsender hrest
      | _ =>
          have hwf' := hwf.of_moves hm
            (hm.calls_eq rfl (by cases hby <;> simp) (by cases hby <;> simp))
          exact hwf'.of_go hx hcall rfl (by simp)
  | @pushes i x k m hx hcall hm =>
      obtain ⟨call, dest, rest, o, hc, hrest, hcalls, -⟩ := hm.push hwf
      have hwf' := (hwf.of_push hc hrest).of_bus hm.does.legs_le (hm.does.inRange hwf.registered)
      rwa [← hcalls] at hwf'
  | @finishes i x k m hx hcall hm =>
      obtain ⟨call, hc, -, hcalls, -⟩ := hm.finish
      have hwf' := (hwf.of_finish hx hcall hc).of_bus hm.does.legs_le
        (hm.does.inRange hwf.registered)
      rwa [← hcalls] at hwf'

theorem wf_of_fleet {h : FleetHistory t I n} (hr : fleet.Run .empty h s) : s.Wf :=
  hr.invariant (I := Fleet.Wf) wf_empty fun _ hm hwf ↦ (FleetDoes.of_fires hm).wf hwf

/-! ## Nobody waits for a lock for ever -/

/-- A call can push or return at any time. -/
theorem goesOn_of_wf (hwf : s.Wf) {i k : Nat} {x : Member t I} (hx : s.members[i]? = some x)
    (hcall : x.call = some k) :
    (s.step (.member i .push)).isSome = true ∨ (s.step (.member i .finish)).isSome = true := by
  obtain ⟨c, hc, hrunning, -⟩ := hwf.call hx hcall
  cases hrest : c.rest with
  | nil =>
      right
      simp [Fleet.step, hx, Fleet.memberStep, hcall, Fleet.onBus, Traffic.step, hc, hrunning, hrest]
  | cons dest rest =>
      left
      have hdest := hwf.rest hc dest (hrest ▸ List.mem_cons_self)
      obtain ⟨⟨o, bus⟩, hr⟩ := s.traffic.bus.offer_ok c.source c.how.safe c.msg hdest
      rw [← BusSystem.push_eq] at hr
      simp [Fleet.step, hx, Fleet.memberStep, hcall, Fleet.onBus, Traffic.step, hc, hrunning, hrest,
        hr]

/-- What is due can be done, or a call holds a lock. -/
theorem due_or_call_of_wf (hwf : s.Wf) {i : Nat} {x : Member t I}
    {op : TrafficOp t.ChannelId t.Event Nat} (hx : s.members[i]? = some x)
    (hdue : x.due = some op) :
    (s.step (.member i .act)).isSome = true ∨
      ∃ (j : Nat) (y : Member t I) (k : Nat), s.members[j]? = some y ∧ y.call = some k := by
  have hcall : x.call = none := by
    cases hk : x.call with
    | none => rfl
    | some k => cases (hwf.apart hx hk).symm.trans hdue
  have hi : i < s.traffic.bus.legs.length :=
    (List.getElem?_eq_some_iff.mp hx).1.trans_le hwf.legs
  have hdone (hop : (s.traffic.step op).isSome = true) :
      (s.step (.member i .act)).isSome = true := by
    simp [Fleet.step, hx, Fleet.memberStep, hcall, hdue, Fleet.onBus, hop]
  have hlocked (hread : s.traffic.channelsRead = true) :
      ∃ (j : Nat) (y : Member t I) (k : Nat), s.members[j]? = some y ∧ y.call = some k := by
    obtain ⟨c, hmem, hc⟩ := List.any_eq_true.mp hread
    obtain ⟨k, hk⟩ := List.mem_iff_getElem?.mp hmem
    obtain ⟨j, y, hy, hycall⟩ := hwf.running hk (Bool.and_eq_true_iff.mp hc).1
    exact ⟨j, y, k, hy, hycall⟩
  have hby := hwf.due hx hdue
  cases op with
  | subscribe leg c =>
      cases hby
      cases hread : s.traffic.channelsRead with
      | true => exact .inr (hlocked hread)
      | false => exact .inl (hdone (by simp [Traffic.step, hi, hread]))
  | unsubscribe leg c =>
      cases hby
      cases hread : s.traffic.channelsRead with
      | true => exact .inr (hlocked hread)
      | false => exact .inl (hdone (by simp [Traffic.step, hi, hread]))
  | request r =>
      refine .inl (hdone ?_)
      cases r with
      | publish leg c safe msg =>
          cases hby
          simp [Traffic.step, Request.sender, Sender.Exists, hi]
      | broadcast sender safe msg =>
          cases sender with
          | builder => cases hby
          | worker leg =>
              cases hby
              simp [Traffic.step, Request.sender, Sender.Exists, hi]
      | _ => cases hby
  | _ => cases hby

end Steps

end SansIo
