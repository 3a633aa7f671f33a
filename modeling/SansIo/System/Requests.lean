import SansIo.Lib.Room
import SansIo.System.Messages
import SansIo.System.Shutdown

/-!
# Requests for stats

Each `process` of a controller asks every worker for its stats, and nothing keeps it from
being called again before they answer.  A request is sent unsafely, so no more than
`STACK_SIZE` of them wait for a worker; and a worker that takes a request has it in hand
until it sends its stats, safely, and takes no other message before.  `process` goes on
until no message is left for the controller.

So each request that a worker was sent is waiting, is in hand, is answered by stats on their
way, or is answered by stats that have been recorded (`asked_of_run`).  Between two calls
`STACK_SIZE` can wait and one more be answered late, and one is sent on top of that: at most
`STACK_SIZE + 2` are not recorded yet (`requests_of_run`), however the calls and the threads
interleave.
-/

namespace SansIo

open Lib Bus Backend Collections

variable {t : WorkerTypes} {I : Type} {n : Nat}

/-- The message asks a worker for its stats. -/
def WorkerControlIn.isRequest {Ext SCfg : Type} : WorkerControlIn Ext SCfg → Bool
  | .statsRequest => true
  | _ => false

/-- How many requests wait in the control leg of a worker. -/
def System.requests (s : System t I n) (i : Nat) : Nat :=
  (s.controlWaiting i).countP WorkerControlIn.isRequest

/-- How many requests a worker has taken and not answered. -/
def Worker.inHand (x : Worker t I) : Nat :=
  match x.pc with
  | .reply => 1
  | _ => 0

/-- How many the worker with an index has. -/
def System.inHand (s : System t I n) (i : Nat) : Nat :=
  match s.workers[i]? with
  | some x => x.inHand
  | none => 0

/-- How many requests to a worker have not led to stats that are recorded. -/
def System.unrecorded (s : System t I n) (i : Nat) : Nat :=
  s.requests i + s.inHand i + (s.inFlight i).length

/-- How many requests the control leg of a worker has accepted. -/
def asked (i : Nat) (h : SystemHistory t I n) : Nat :=
  (sentTo i h).countP WorkerControlIn.isRequest

/-- Where the controller stands, it has received all it will before it asks the worker
again. -/
def ControllerPc.settled (i : Nat) : ControllerPc → Bool
  | .idle | .shutdown _ => true
  | .request j => j ≤ i
  | _ => false

/-- Where a controller tells a worker to send stats. -/
theorem request_of_tells {s : System t I n} {op : SystemOp t} {i : Nat} {safe : Bool}
    {msg : WorkerControlIn t.ExtIn t.SCfg} (hchosen : s.chosen op = some i)
    (htells : s.tells op = some (safe, msg)) (hrequest : msg.isRequest = true) :
    op = .controller ∧ s.pc = .request i ∧ safe = false := by
  cases op with
  | controller =>
      simp only [System.tells] at htells
      simp only [System.chosen] at hchosen
      split at htells
      · cases htells
        cases hrequest
      · rename_i j hpc
        rw [hpc] at hchosen
        cases htells
        cases hchosen
        exact ⟨rfl, hpc, rfl⟩
      · split at htells
        · cases htells
          cases hrequest
        · cases htells
      · cases htells
  | spawn | sendTo | sendToBest =>
      cases htells
      cases hrequest
  | _ => cases htells

/-- A worker has one request in hand, or none. -/
theorem System.inHand_le (s : System t I n) (i : Nat) : s.inHand i ≤ 1 := by
  unfold inHand Worker.inHand
  split
  · split
    · exact le_rfl
    · exact Nat.zero_le 1
  · exact Nat.zero_le 1

variable [DecidableEq t.ChannelId] [WorkerInner t I] [DecidableEq t.Owner]

/-! ## Each request is answered once -/

/-- A worker takes a request into its hand, and sends stats out of it. -/
theorem stats_of_message {x x' : Worker t I} {a : Answer t} {acts : List (Act t)}
    (h : worker.step x a = some (x', acts)) :
    (acts.filterMap Act.stats).length + x'.inHand =
      x.inHand + a.message.toList.countP WorkerControlIn.isRequest := by
  have hdoes := worker_cases h
  clear h
  cases hdoes
  case pop out inner hp hout =>
    have hnone : (({ x with inner }.processInnerOutput out).2).filterMap Act.stats = [] := by
      rw [List.filterMap_eq_nil_iff]
      intro act hact
      obtain ⟨-, -, hno⟩ := Worker.processInnerOutput_acts _ out hact
      by_contra hstats
      obtain ⟨stats, hstats⟩ := Option.ne_none_iff_exists'.1 hstats
      obtain ⟨safe, rfl⟩ := Act.stats_eq_some.1 hstats
      exact hno safe stats rfl
    rw [List.filterMap_cons]
    simp only [Act.stats, hnone, Worker.inHand, Worker.pc_processInnerOutput]
    exact Nat.zero_add _
  case popped => exact Nat.zero_add _
  all_goals simp [Worker.inHand, Act.stats, Answer.message, WorkerControlIn.isRequest, *]

/-- **A request is in the hand of its worker** from the step that takes it to the step that
answers it. -/
theorem inHand_step {m : SystemMoment t I n} (hwf : m.pre.Wf) (hm : system.Fires m) (i : Nat) :
    (produced i [m]).length + m.post.inHand i =
      m.pre.inHand i + (takenBy i [m]).countP WorkerControlIn.isRequest := by
  obtain ⟨s, op, events, s'⟩ := m
  have hdoes : SystemDoes s op s' events := system_cases hwf hm
  cases hdoes with
  | @added tick cfg now =>
      show 0 + (s.addWorker tick cfg now).inHand i = s.inHand i + 0
      rw [Nat.zero_add, Nat.add_zero]
      simp only [System.inHand, System.addWorker]
      rw [getElem?_concat]
      by_cases hi : i = s.workers.length
      · rw [if_pos hi, hi, List.getElem?_eq_none le_rfl]
        rfl
      · rw [if_neg hi]
  | quiet hev => rcases hev with rfl | ⟨out, rfl⟩ <;> exact Nat.zero_add _
  | @worker j turn x x' acts events s₂ hx hstep hperf hp =>
      have hstats := stats_of_message hstep
      have hj : j < s.workers.length := (List.getElem?_eq_some_iff.mp hx).1
      rw [produced_singleton, report_worker hp.events]
      simp only [takenBy, SystemHistory.of, History.events_singleton, report_worker hp.events,
        System.inHand]
      split
      · rename_i hji
        subst hji
        rw [List.getElem?_set_self hj, hx]
        simp only [History.events_singleton, List.filterMap_cons, List.filterMap_nil]
        rw [hstats]
        cases (s.answer x turn).1.message <;> rfl
      · rename_i hne
        rw [List.getElem?_set_ne hne]
        exact Nat.zero_add _
  | _ => exact Nat.zero_add _

/-- **Requests are neither lost nor made up** by a step. -/
theorem unrecorded_step {m : SystemMoment t I n} (hwf : m.pre.Wf) (hm : system.Fires m) (i : Nat) :
    m.post.unrecorded i + (recorded i [m]).length = m.pre.unrecorded i + asked i [m] := by
  have hstats := congrArg List.length (recorded_step hwf hm i)
  have hrequests := congrArg (List.countP WorkerControlIn.isRequest) (taken_step hwf hm i)
  have hinHand := inHand_step hwf hm i
  simp only [List.length_append, List.countP_append] at hstats hrequests
  simp only [System.unrecorded, System.requests, asked]
  omega

/-- **Each request that was sent is waiting or in hand, or its answer is on its way or
recorded.** -/
theorem asked_of_run {h : SystemHistory t I n} {s : System t I n}
    (hr : system.Run .default h s) (i : Nat) :
    asked i h =
      s.requests i + s.inHand i + (s.inFlight i).length + (recorded i h).length := by
  induction hr with
  | nil => rfl
  | @snoc h m hr hm ih =>
      have hstep := unrecorded_step (wf_of_run hr) hm i
      rw [asked, sentTo_append, List.countP_append, ← asked, ← asked, ih, recorded_append,
        List.length_append]
      simp only [System.unrecorded] at hstep
      omega

/-! ## Requests go unsafely -/

/-- A step has at most one message accepted for a worker.  It asks for stats only where the
controller is about to, and only where there is room. -/
theorem sentTo_step {m : SystemMoment t I n} (hwf : m.pre.Wf) (hm : system.Fires m) (i : Nat) :
    sentTo i [m] = [] ∨ ∃ msg, sentTo i [m] = [msg] ∧ (msg.isRequest = true →
      m.label = .controller ∧ m.pre.pc = .request i ∧ (m.pre.controlWaiting i).length < n) := by
  obtain ⟨s, op, events, s'⟩ := m
  have hdoes : Transition s op s' events := system_transition hwf hm
  cases hdoes with
  | turns _ _ _ hev => rcases hev with rfl | rfl <;> exact .inl rfl
  | @told _ j safe msg eventBus bus o stats pc hchosen htells hlen hpc hbus hsend =>
      obtain ⟨hleg, -, hmsg, -⟩ := BusSystem.offer_cases hsend
      simp only [sentTo, History.events_singleton, List.filterMap_cons, List.filterMap_nil,
        SystemEvent.controlTo, hleg]
      split
      · exact .inl rfl
      · rename_i sent hsent
        refine .inr ⟨sent, rfl, fun hrequest ↦ ?_⟩
        split at hsent
        · rename_i hji
          subst hji
          obtain ⟨rfl, hroom⟩ : sent = msg ∧
              (safe = true ∨ (s.workerControlBus.waiting j).length < n) := by
            obtain ⟨-, -, hresult, -, -⟩ | ⟨hroom, ⟨len, hresult⟩, -⟩ :=
              BusSystem.offer_result hsend
            · simp [Offer.accepted, hresult, Except.isOk, Except.toBool] at hsent
            · simp only [Offer.accepted, hresult, Except.isOk, Except.toBool, if_true,
                Option.map_some, Option.some.injEq] at hsent
              exact ⟨hsent.symm.trans hmsg, hroom⟩
          obtain ⟨rfl, hpc', rfl⟩ := request_of_tells hchosen htells hrequest
          rw [System.controlWaiting, List.length_map]
          exact ⟨rfl, hpc', hroom.resolve_left Bool.false_ne_true⟩
        · cases hsent
  | @worker j turn x x' acts events s₂ hx hstep hperf hp =>
      left
      rw [sentTo, History.events_singleton]
      exact controlTo_worker hp.events i
  | _ => exact .inl rfl

/-! ## Where the controller stands -/

section Standing

omit [DecidableEq t.ChannelId] [WorkerInner t I] [DecidableEq t.Owner]

theorem pc_sendControl (s : System t I n) (i : Nat) (safe : Bool)
    (msg : WorkerControlIn t.ExtIn t.SCfg) :
    (s.sendControl i safe msg).1.pc = s.pc ∨ (s.sendControl i safe msg).1.pc = .panicked := by
  rcases s.sendControl_cases i safe msg with ⟨o, bus, -, heq⟩ | ⟨-, heq⟩
  · rw [heq]
    exact .inl rfl
  · rw [heq]
    exact .inr rfl

theorem pc_spawn (s : System t I n) (cfg : t.SCfg) :
    (s.spawn cfg).1.pc = s.pc ∨ (s.spawn cfg).1.pc = .panicked := by
  unfold System.spawn
  split
  · exact .inr rfl
  · exact pc_sendControl _ _ _ _

/-- `process` ends where nothing is received. -/
theorem settled_onWorkerEvent {s : System t I n} (hpc : s.pc = .recv)
    {msg : Option (BusEventSource UInt16 × WorkerControlOut t.ExtOut t.SCfg)} {i : Nat}
    (h : (s.onWorkerEvent msg).1.pc.settled i = true) : msg = none := by
  unfold System.onWorkerEvent at h
  split at h
  · split at h
    · rw [hpc] at h
      cases h
    · cases h
  · rw [hpc] at h
    cases h
  · rename_i cfg
    rcases pc_spawn s cfg with hsame | hpanicked
    · rw [hsame, hpc] at h
      cases h
    · rw [hpanicked] at h
      cases h
  · cases h
  · rfl

/-- A leg that has room for messages returns one where it has one. -/
theorem waiting_of_recv_none {ChannelId MSG Awk : Type} (hn : 0 < n)
    {b : BusSystem ChannelId MSG Awk n} {leg : Nat} (h : (b.recv leg).1 = none) :
    b.waiting leg = [] := by
  unfold BusSystem.recv at h
  split at h
  · rename_i hnone
    rw [BusSystem.waiting, hnone]
    rfl
  · rename_i q hq
    have hfirst : q.toList.head? = none := (DynamicDeque.popFront_fst hn q.queue).symm.trans h
    rw [BusSystem.waiting, hq]
    exact List.head?_eq_none_iff.1 hfirst

end Standing

/-- **The controller settles where it finds nothing more to receive**, and a request
unsettles it. -/
theorem settled_step {s s' : System t I n} {op : SystemOp t} {events : List (SystemEvent t I)}
    (hwf : s.Wf) (hstep : s.step op = some (s', events)) {i : Nat}
    (h : s'.pc.settled i = true) :
    s.pc.settled i = true ∧ (op = .controller → s.pc ≠ .request i) ∨
      s.pc = .recv ∧ (s.workerEventBus.recv 0).1 = none := by
  have hidle (hpc : s.pc = .idle) (hop : op ≠ .controller) :
      s.pc.settled i = true ∧ (op = .controller → s.pc ≠ .request i) := by
    rw [hpc]
    exact ⟨rfl, fun heq ↦ absurd heq hop⟩
  cases op with
  | controller =>
      simp only [System.step, System.controllerStep] at hstep
      split at hstep
      · rename_i j hpc
        left
        rw [hpc]
        exact ⟨rfl, by simp⟩
      · rename_i j hpc
        left
        rw [hpc]
        split at hstep
        · obtain rfl := congrArg Prod.fst (Option.some.inj hstep)
          rcases pc_sendControl { s with pc := .request (j + 1) } j false .statsRequest with
            hnext | hpanicked
          · rw [hnext] at h
            have hlt : j < i := of_decide_eq_true h
            refine ⟨decide_eq_true hlt.le, fun _ heq ↦ ?_⟩
            cases heq
            exact Nat.lt_irrefl _ hlt
          · rw [hpanicked] at h
            cases h
        · cases hstep
          cases h
      · rename_i hpc
        right
        refine ⟨hpc, ?_⟩
        obtain rfl := congrArg Prod.fst (Option.some.inj hstep)
        rw [hwf.recv_eq] at h
        let s₁ : System t I n := { s with workerEventBus := (s.workerEventBus.recv 0).2 }
        exact settled_onWorkerEvent (s := s₁) hpc h
      · cases hstep
  | worker j turn =>
      obtain ⟨x, x', acts, acted, s₂, hx, -, -, hp, rfl, -⟩ := hwf.workerStep_cases hstep
      have hpc : s₂.pc = s.pc := by
        rw [hp.frame, (s.answer_frame x turn).1]
      exact .inl ⟨hpc ▸ h, by simp⟩
  | _ =>
      simp only [System.step] at hstep
      split at hstep
      · exact .inl (hidle ‹_› (by simp))
      · cases hstep

/-! ## How many are not recorded -/

/-- What may be on its way to and from a worker. -/
structure Paced (i : Nat) (s : System t I n) : Prop where
  /-- Its requests are among the first messages that wait for it. -/
  room : Room WorkerControlIn.isRequest n (s.controlWaiting i)
  /-- One more than there is room for is not recorded, and another one in a `process`. -/
  within : s.unrecorded i ≤ n + if s.pc.settled i then min n 1 else 2 * min n 1

theorem Paced.step {m : SystemMoment t I n} (hwf : m.pre.Wf) (hm : system.Fires m) {i : Nat}
    (h : Paced i m.pre) : Paced i m.post := by
  have hsent := sentTo_step hwf hm i
  have hflow := unrecorded_step hwf hm i
  have hroom : Room WorkerControlIn.isRequest n (m.post.controlWaiting i) := by
    refine h.room.step (taken_step hwf hm i) (hsent.imp_right ?_)
    rintro ⟨msg, hmsg, hrequest⟩
    exact ⟨msg, hmsg, fun hr ↦ (hrequest hr).2.2⟩
  refine ⟨hroom, ?_⟩
  have hwithin := h.within
  by_cases hasked : asked i [m] = 0
  · by_cases hpost : m.post.pc.settled i = true
    · rw [if_pos hpost]
      rcases settled_step hwf hm hpost with ⟨hpre, -⟩ | ⟨hpc, hnone⟩
      · rw [if_pos hpre] at hwithin
        omega
      · rcases Nat.eq_zero_or_pos n with rfl | hn
        · simp only [Nat.zero_min, Nat.mul_zero, ite_self] at hwithin
          omega
        · have hflight : m.pre.inFlight i = [] := by
            rw [System.inFlight, waiting_of_recv_none hn hnone]
            rfl
          have hrequests := h.room.countP_le
          have hhand := m.pre.inHand_le i
          rw [Nat.min_eq_right hn]
          simp only [System.unrecorded, System.requests, hflight, List.length_nil] at hflow ⊢
          omega
    · rw [if_neg hpost]
      split at hwithin
      all_goals omega
  · obtain ⟨hlabel, hpc, hlen, hone⟩ : m.label = .controller ∧ m.pre.pc = .request i ∧
        (m.pre.controlWaiting i).length < n ∧ asked i [m] ≤ 1 := by
      rcases hsent with hnil | ⟨msg, hmsg, hrequest⟩
      · rw [asked, hnil] at hasked
        exact absurd rfl hasked
      · rw [asked, hmsg] at hasked ⊢
        cases hr : msg.isRequest with
        | false => simp [hr] at hasked
        | true =>
            obtain ⟨hlabel, hpc, hlen⟩ := hrequest hr
            exact ⟨hlabel, hpc, hlen, List.countP_le_length⟩
    have hpost : ¬ m.post.pc.settled i = true := by
      intro hpost
      rcases settled_step hwf hm hpost with ⟨-, hne⟩ | ⟨hrecv, -⟩
      · exact hne hlabel hpc
      · cases hpc.symm.trans hrecv
    have hpre : m.pre.pc.settled i = true := by
      rw [hpc]
      exact decide_eq_true le_rfl
    rw [if_pos hpre] at hwithin
    rw [if_neg hpost]
    omega

theorem paced_of_run {h : SystemHistory t I n} {s : System t I n}
    (hr : system.Run .default h s) (i : Nat) : Paced i s := by
  induction hr with
  | nil => exact ⟨Room.nil, Nat.zero_le _⟩
  | snoc hr hm ih => exact ih.step (wf_of_run hr) hm

/-- **Requests for stats do not pile up**, however often `process` is called and however
slowly the workers answer.  Each one that was sent to a worker waits or is in hand, or its
answer is on its way or recorded.  At most `STACK_SIZE` wait and at most one is in hand; with
the answers on their way they are at most `STACK_SIZE + 2`, and one less between two calls. -/
theorem requests_of_run {h : SystemHistory t I n} {s : System t I n}
    (hr : system.Run .default h s) (i : Nat) :
    asked i h =
        s.requests i + s.inHand i + (s.inFlight i).length + (recorded i h).length ∧
      s.requests i ≤ n ∧ s.inHand i ≤ 1 ∧
      s.requests i + s.inHand i + (s.inFlight i).length ≤ n + 2 ∧
      (s.pc = .idle → s.requests i + s.inHand i + (s.inFlight i).length ≤ n + 1) := by
  have hpaced := paced_of_run hr i
  have hwithin := hpaced.within
  have hone : min n 1 ≤ 1 := Nat.min_le_right n 1
  refine ⟨asked_of_run hr i, hpaced.room.countP_le, s.inHand_le i, ?_, fun hpc ↦ ?_⟩
  · refine hwithin.trans (Nat.add_le_add_left ?_ n)
    split <;> omega
  · rw [hpc] at hwithin
    exact hwithin.trans (Nat.add_le_add_left hone n)

/-- A worker has a request in hand while it is asked again.  It answers the first one after
`process` has returned, takes the second one, and is asked a third time. -/
def askedAgain : SystemHistory plainTypes Scripted 1 × System plainTypes Scripted 1 :=
  (system.exec .default [.addWorker 10 [] 0, .worker 0 (.clock 0), .worker 0 .run, .process,
    .controller, .controller, .controller, .worker 0 (.clock 0), .worker 0 .control, .process,
    .controller, .controller, .controller, .worker 0 .run, .worker 0 .control, .process,
    .controller]).get rfl

theorem askedAgain_run : system.Run .default askedAgain.1 askedAgain.2 :=
  Machine.exec_run_get _

/-- One request waits then, one is in hand, and one answer is on its way. -/
theorem requests_of_run_askedAgain :
    asked 0 askedAgain.1 = 3 ∧ askedAgain.2.requests 0 = 1 ∧ askedAgain.2.inHand 0 = 1 ∧
      (askedAgain.2.inFlight 0).length = 1 ∧
      askedAgain.2.requests 0 + askedAgain.2.inHand 0 + (askedAgain.2.inFlight 0).length ≤ 3 :=
  ⟨by decide, by decide, by decide, by decide, (requests_of_run askedAgain_run 0).2.2.2.1⟩

end SansIo
