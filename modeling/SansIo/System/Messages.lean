import SansIo.System.Steps

/-!
# Messages between a controller and its workers

`SystemDoes` says what a step does to the parts of a system.  Here it is the messages
that are followed.  A message that a leg has accepted waits in it until its receiver
takes it, so what is taken and what waits is what was accepted, for the control leg of
each worker (`taken_append_waiting`) and for the leg of the controller
(`heard_append_waiting`).

`Transition` lists the steps once more, with what the controller chooses, tells and
hears in each of them.
-/

namespace SansIo

open Lib Bus Backend Collections

variable {t : WorkerTypes} {I : Type} {n : Nat}

/-! ## What a worker sends to the controller -/

/-- What an act sends to the controller, with its flag. -/
def Act.toController : Act t → Option (Bool × WorkerControlOut t.ExtOut t.SCfg)
  | .workerOut safe msg => some (safe, msg)
  | _ => none

/-- A message offered to the controller. -/
def SystemEvent.toController :
    SystemEvent t I → Option (Offer UInt16 (WorkerControlOut t.ExtOut t.SCfg) Nat)
  | .event o => some o
  | _ => none

/-- The message of an offer that was accepted, with its source. -/
def Bus.Offer.accepted {ChannelId MSG Awk : Type} (o : Offer ChannelId MSG Awk) :
    Option (BusEventSource ChannelId × MSG) :=
  if o.result.isOk then some (o.source, o.msg) else none

section Sends

variable {ChannelId MSG Awk : Type}

/-- Messages sent one after the other from a leg to a leg. -/
inductive Sends (source dest : Nat) : BusSystem ChannelId MSG Awk n → List (Bool × MSG) →
    List (Offer ChannelId MSG Awk) → BusSystem ChannelId MSG Awk n → Prop
  | nil {b} : Sends source dest b [] [] b
  | cons {b b₁ b₂ safe msg msgs o os} (h : b.send source dest safe msg = .ok (o, b₁))
      (hs : Sends source dest b₁ msgs os b₂) :
      Sends source dest b ((safe, msg) :: msgs) (o :: os) b₂

variable {source dest : Nat} {b b' b'' : BusSystem ChannelId MSG Awk n}
  {msgs msgs' : List (Bool × MSG)} {os os' : List (Offer ChannelId MSG Awk)}

theorem Sends.append (h : Sends source dest b msgs os b')
    (h' : Sends source dest b' msgs' os' b'') :
    Sends source dest b (msgs ++ msgs') (os ++ os') b'' := by
  induction h with
  | nil => exact h'
  | cons hsend _ ih => exact .cons hsend (ih h')

/-- One message that is offered. -/
theorem offer_waiting {src : BusEventSource ChannelId} {safe : Bool} {msg : MSG}
    {o : Offer ChannelId MSG Awk} (h : b.offer src safe msg dest = .ok (o, b')) :
    b'.waiting dest = b.waiting dest ++ o.accepted.toList := by
  obtain ⟨-, hsource, hmsg, -⟩ := BusSystem.offer_cases h
  obtain ⟨-, -, hresult, -, hbus⟩ | ⟨-, ⟨len, hresult⟩, hwait⟩ := BusSystem.offer_result h
  · simp [Offer.accepted, hresult, hbus, Except.isOk, Except.toBool]
  · simp [Offer.accepted, hresult, hwait, hsource, hmsg, Except.isOk, Except.toBool]

/-- **What waits after some messages are sent** is what waited and what was accepted. -/
theorem Sends.waiting (h : Sends source dest b msgs os b') :
    b'.waiting dest = b.waiting dest ++ os.filterMap Offer.accepted := by
  induction h with
  | nil => simp
  | cons hsend _ ih =>
      rw [ih, offer_waiting hsend, List.append_assoc, List.filterMap_cons]
      cases Bus.Offer.accepted _ <;> rfl

/-- They are all offered. -/
theorem Sends.offered (h : Sends source dest b msgs os b') :
    os.map Offer.msg = msgs.map Prod.snd ∧
      ∀ o ∈ os, o.leg = dest ∧ o.source = .direct source := by
  induction h with
  | nil => exact ⟨rfl, nofun⟩
  | cons hsend _ ih =>
      obtain ⟨hleg, hsource, hmsg, -⟩ := BusSystem.offer_cases hsend
      refine ⟨by simp [hmsg, ih.1], ?_⟩
      simp only [List.mem_cons, forall_eq_or_imp]
      exact ⟨⟨hleg, hsource⟩, ih.2⟩

end Sends

section Performing

variable [DecidableEq t.ChannelId]

/-- What an act sends to the controller. -/
theorem perform_sends {s s' : System t I n} {x : Worker t I} {act : Act t}
    {events : List (SystemEvent t I)} (h : s.perform x act = .ok (events, s')) :
    Sends x.workerOut 0 s.workerEventBus act.toController.toList
      (events.filterMap SystemEvent.toController) s'.workerEventBus := by
  have hinner (os : List (Offer t.ChannelId t.Event Nat)) :
      (os.map SystemEvent.inner).filterMap (SystemEvent.toController (I := I)) = [] := by
    rw [List.filterMap_map, List.filterMap_eq_nil_iff]
    exact fun _ _ ↦ rfl
  cases act with
  | workerOut safe msg =>
      obtain ⟨⟨o, b⟩, ho, hret⟩ := bind_ok.mp h
      cases hret
      exact .cons ho .nil
  | publish c safe msg =>
      obtain ⟨⟨os, b⟩, ho, hret⟩ := bind_ok.mp h
      cases hret
      rw [hinner]
      exact .nil
  | broadcast safe msg =>
      obtain ⟨⟨os, b⟩, ho, hret⟩ := bind_ok.mp h
      cases hret
      rw [hinner]
      exact .nil
  | _ =>
      cases h
      exact .nil

theorem performAll_sends {s s' : System t I n} {x : Worker t I} {acts : List (Act t)}
    {events : List (SystemEvent t I)} (h : s.performAll x acts = .ok (events, s')) :
    Sends x.workerOut 0 s.workerEventBus (acts.filterMap Act.toController)
      (events.filterMap SystemEvent.toController) s'.workerEventBus := by
  induction acts generalizing s events with
  | nil =>
      cases h
      exact .nil
  | cons act acts ih =>
      obtain ⟨⟨events₁, s₁⟩, hact, hrest⟩ := bind_ok.mp h
      obtain ⟨⟨events₂, s₂⟩, hacts, hret⟩ := bind_ok.mp hrest
      cases hret
      have hfirst := perform_sends hact
      rw [List.filterMap_append, List.filterMap_cons]
      cases hout : act.toController with
      | none =>
          rw [hout] at hfirst
          exact hfirst.append (ih hacts)
      | some out =>
          rw [hout] at hfirst
          exact hfirst.append (ih hacts)

end Performing

/-! ## What a step is about -/

/-- The worker that the controller chooses in a step to tell something. -/
def System.chosen (s : System t I n) : SystemOp t → Option Nat
  | .spawn _ | .sendToBest _ => System.bestWorker s.stats
  | .sendTo i _ => some i.toNat
  | .controller => match s.pc with
    | .shutdown i | .request i => some i
    | .recv => System.bestWorker s.stats
    | _ => none
  | _ => none

/-- What the controller hears in a step. -/
def System.hears (s : System t I n) :
    SystemOp t → Option (BusEventSource UInt16 × WorkerControlOut t.ExtOut t.SCfg)
  | .controller => if s.pc = .recv then (s.workerEventBus.recv s.workerEvent).1 else none
  | _ => none

/-- What it tells a worker in a step, with its flag. -/
def System.tells (s : System t I n) : SystemOp t → Option (Bool × WorkerControlIn t.ExtIn t.SCfg)
  | .spawn cfg => some (true, .spawn cfg)
  | .sendTo _ ext | .sendToBest ext => some (true, .ext ext)
  | .controller => match s.pc with
    | .shutdown _ => some (true, .shutdown)
    | .request _ => some (false, .statsRequest)
    | .recv => match (s.workerEventBus.recv s.workerEvent).1 with
      | some (_, .spawn cfg) => some (true, .spawn cfg)
      | _ => none
    | _ => none
  | _ => none

variable [DecidableEq t.ChannelId] [WorkerInner t I] [DecidableEq t.Owner]

/-- The steps of a system, where its indices belong together, with what the controller
chooses, hears and tells in them. -/
inductive Transition (s : System t I n) :
    SystemOp t → System t I n → List (SystemEvent t I) → Prop
  | added {tick cfg now} :
      Transition s (.addWorker tick cfg now) (s.addWorker tick cfg now) [.added s.stats.length]
  | /-- The controller goes on without a message. -/
    turns {op pc shutdown events} (hhears : s.hears op = none)
      (htells : s.tells op = none ∨ ∀ i, s.chosen op = some i → s.workers.length ≤ i)
      (hpc : op = .controller ∨ op = .process → pc ≠ .panicked)
      (hev : events = [] ∨ events = [.processed none]) :
      Transition s op { s with pc, shutdown } events
  | popped :
      Transition s .popEvent { s with output := s.output.popFront.2 }
        [.popped s.output.popFront.1]
  | /-- It tells a worker something, for itself or because it has heard a `Spawn`. -/
    told {op i safe msg eventBus bus o stats pc} (hchosen : s.chosen op = some i)
      (htells : s.tells op = some (safe, msg)) (hlen : stats.length = s.stats.length)
      (hpc : pc ≠ .panicked)
      (hbus : s.hears op = none ∧ eventBus = s.workerEventBus ∨
        ∃ source cfg, s.hears op = some (source, .spawn cfg) ∧
          s.workerEventBus.recv 0 = (some (source, .spawn cfg), eventBus))
      (hsend : s.workerControlBus.sendExternal i safe msg = .ok (o, bus)) :
      Transition s op
        { s with workerEventBus := eventBus, workerControlBus := bus, stats, pc } [.control o]
  | recorded {i stats bus} (hi : i < s.stats.length)
      (hhears : s.hears .controller = some (.direct (i + 1), .stats stats))
      (hrecv : s.workerEventBus.recv 0 = (some (.direct (i + 1), .stats stats), bus))
      (hpc : s.pc = .recv) :
      Transition s .controller
        { s with workerEventBus := bus, stats := s.stats.set i stats } [.recorded i stats]
  | heard {source ext bus} (hhears : s.hears .controller = some (source, .ext ext))
      (hrecv : s.workerEventBus.recv 0 = (some (source, .ext ext), bus)) (hpc : s.pc = .recv) :
      Transition s .controller
        { s with workerEventBus := bus, output := s.output.pushBack ext } []
  | processed {bus} (hhears : s.hears .controller = none)
      (hrecv : s.workerEventBus.recv 0 = (none, bus)) :
      Transition s .controller { s with workerEventBus := bus, pc := .idle }
        [.processed (some ())]
  | worker {i turn x x' acts events s'} (hx : s.workers[i]? = some x)
      (hstep : worker.step x (s.answer x turn).1 = some (x', acts))
      (hperf : (s.answer x turn).2.performAll x acts = .ok (events, s'))
      (hp : Performed x acts (s.answer x turn).2 s' events) :
      Transition s (.worker i turn) { s' with workers := s.workers.set i x' }
        (.worker i ⟨x, (s.answer x turn).1, acts, x'⟩ :: events)

omit [DecidableEq t.ChannelId] [WorkerInner t I] [DecidableEq t.Owner] in
theorem hears_of_pc {s : System t I n} (h : s.pc ≠ .recv) : s.hears .controller = none :=
  if_neg h

omit [DecidableEq t.ChannelId] [WorkerInner t I] [DecidableEq t.Owner] in
theorem hears_recv {s : System t I n} (hwf : s.Wf) (h : s.pc = .recv) :
    s.hears .controller = (s.workerEventBus.recv 0).1 := by
  rw [System.hears, if_pos h, hwf.workerEvent]

/-- Telling the worker that was chosen. -/
theorem Transition.of_sendControl {s s' : System t I n} (hwf : s.Wf) {op : SystemOp t} {i : Nat}
    {safe : Bool} {msg : WorkerControlIn t.ExtIn t.SCfg} {pc : ControllerPc}
    {events : List (SystemEvent t I)} (hchosen : s.chosen op = some i)
    (htells : s.tells op = some (safe, msg)) (hhears : s.hears op = none) (hpc : pc ≠ .panicked)
    (hop : op = .controller ∨ op = .process → i < s.workers.length)
    (h : { s with pc }.sendControl i safe msg = (s', events)) : Transition s op s' events := by
  rcases System.sendControl_cases { s with pc } i safe msg with
    ⟨o, bus, hsend, heq⟩ | ⟨hle, heq⟩
  · cases h.symm.trans heq
    exact .told hchosen htells rfl hpc (.inl ⟨hhears, rfl⟩) hsend
  · cases h.symm.trans heq
    have hle' : s.workers.length ≤ i := hwf.controlLegs ▸ hle
    refine .turns hhears (.inr fun j hj ↦ ?_) (fun hop' ↦ ?_) (.inl rfl)
    · cases hchosen.symm.trans hj
      exact hle'
    · exact absurd (hop hop') (Nat.not_lt.2 hle')

/-- Spawning a task on the worker that was chosen. -/
theorem Transition.of_spawn {s s' : System t I n} (hwf : s.Wf) {op : SystemOp t} {cfg : t.SCfg}
    {eventBus : BusSystem UInt16 (WorkerControlOut t.ExtOut t.SCfg) Nat n}
    {events : List (SystemEvent t I)} (hchosen : s.chosen op = System.bestWorker s.stats)
    (htells : s.tells op = some (true, .spawn cfg)) (hpc : s.pc ≠ .panicked)
    (hbus : s.hears op = none ∧ eventBus = s.workerEventBus ∧ op ≠ .controller ∧ op ≠ .process ∨
      s.stats ≠ [] ∧ ∃ source, s.hears op = some (source, .spawn cfg) ∧
        s.workerEventBus.recv 0 = (some (source, .spawn cfg), eventBus))
    (h : { s with workerEventBus := eventBus }.spawn cfg = (s', events)) :
    Transition s op s' events := by
  rcases System.spawn_cases (s := { s with workerEventBus := eventBus })
    (hwf.stats.trans hwf.controlLegs.symm) cfg with
    ⟨hbest, heq⟩ | ⟨best, o, bus, hbest, hsend, heq⟩
  · cases h.symm.trans heq
    obtain ⟨hhears, rfl, hop⟩ | ⟨hne, -⟩ := hbus
    · refine .turns hhears (.inr fun i hi ↦ ?_) (fun hop' ↦ ?_) (.inl rfl)
      · cases hbest.symm.trans (hchosen.symm.trans hi)
      · exact absurd hop' (not_or.2 hop)
    · exact absurd (System.bestWorker_eq_none.1 hbest) hne
  · cases h.symm.trans heq
    refine .told (hchosen.trans hbest) htells (List.length_modify ..) hpc ?_ hsend
    rcases hbus with ⟨hhears, hbus, -⟩ | ⟨-, source, hhears, hrecv⟩
    · exact .inl ⟨hhears, hbus⟩
    · exact .inr ⟨source, cfg, hhears, hrecv⟩

/-- Doing what a worker has told. -/
theorem Transition.of_onWorkerEvent {s s' : System t I n} (hwf : s.Wf) (hpc : s.pc = .recv)
    {events : List (SystemEvent t I)}
    (h : { s with workerEventBus := (s.workerEventBus.recv 0).2 }.onWorkerEvent
      (s.workerEventBus.recv 0).1 = (s', events)) : Transition s .controller s' events := by
  obtain ⟨-, -, -, hrecv⟩ := s.workerEventBus.recv_cases 0
  have hhears := hears_recv hwf hpc
  have htells : s.tells .controller = match (s.workerEventBus.recv 0).1 with
      | some (_, .spawn cfg) => some (true, .spawn cfg)
      | _ => none := by
    simp only [System.tells, hpc, hwf.workerEvent]
  generalize hr : s.workerEventBus.recv 0 = r at h hrecv hhears htells
  obtain ⟨msg, bus⟩ := r
  rcases hrecv with ⟨⟨source, msg'⟩, rfl, hwait⟩ | ⟨rfl, -⟩
  · obtain ⟨i, hi, rfl⟩ := hwf.sources _ (hwait ▸ List.mem_cons_self)
    rw [← hwf.stats] at hi
    cases msg' with
    | stats stats =>
        simp only [System.onWorkerEvent, if_pos hi] at h
        cases h
        exact .recorded hi hhears hr hpc
    | ext ext =>
        cases h
        exact .heard hhears hr hpc
    | spawn cfg =>
        have hne : s.stats ≠ [] := List.ne_nil_of_length_pos (Nat.zero_lt_of_lt hi)
        refine .of_spawn hwf ?_ htells (by simp [hpc]) (.inr ⟨hne, _, hhears, hr⟩) h
        simp only [System.chosen, hpc]
  · cases h
    exact .processed hhears hr

/-- Telling the workers one after the other, up to the last one. -/
theorem Transition.of_loop {s s' : System t I n} (hwf : s.Wf) {i : Nat} {safe : Bool}
    {msg : WorkerControlIn t.ExtIn t.SCfg} {next last : ControllerPc}
    {events : List (SystemEvent t I)} (hhears : s.hears .controller = none)
    (hchosen : s.chosen .controller = some i) (htells : s.tells .controller = some (safe, msg))
    (hnext : next ≠ .panicked) (hlast : last ≠ .panicked)
    (h : (if i < s.stats.length then some ({ s with pc := next }.sendControl i safe msg)
      else some ({ s with pc := last }, [])) = some (s', events)) :
    Transition s .controller s' events := by
  split at h
  · rename_i hi
    exact .of_sendControl hwf hchosen htells hhears hnext (fun _ ↦ hwf.stats ▸ hi)
      (Option.some.inj h)
  · rename_i hi
    cases h
    refine .turns hhears (.inr fun j hj ↦ ?_) (fun _ ↦ hlast) (.inl rfl)
    cases hchosen.symm.trans hj
    exact hwf.stats ▸ Nat.not_lt.1 hi

/-- The controller between two operations on it. -/
theorem Transition.of_controllerStep {s s' : System t I n} (hwf : s.Wf)
    {events : List (SystemEvent t I)} (h : s.controllerStep = some (s', events)) :
    Transition s .controller s' events := by
  unfold System.controllerStep at h
  split at h
  · rename_i i hpc
    refine .of_loop hwf (hears_of_pc (by simp [hpc])) ?_ ?_ (by simp) (by simp) h
    · simp only [System.chosen, hpc]
    · simp only [System.tells, hpc]
  · rename_i i hpc
    refine .of_loop hwf (hears_of_pc (by simp [hpc])) ?_ ?_ (by simp) (by simp) h
    · simp only [System.chosen, hpc]
    · simp only [System.tells, hpc]
  · rename_i hpc
    rw [hwf.recv_eq] at h
    exact .of_onWorkerEvent hwf hpc (Option.some.inj h)
  · cases h

/-- **Every step of a system is one of these**, where its indices belong together. -/
theorem system_transition {s s' : System t I n} {op : SystemOp t} {events : List (SystemEvent t I)}
    (hwf : s.Wf) (h : system.step s op = some (s', events)) : Transition s op s' events := by
  cases op with
  | addWorker tick cfg now =>
      simp only [system, System.step] at h
      split at h
      · cases h
        exact .added
      · cases h
  | spawn cfg =>
      simp only [system, System.step] at h
      split at h
      · rename_i hpc
        exact .of_spawn hwf rfl rfl (by simp [hpc]) (.inl ⟨rfl, rfl, by simp, by simp⟩)
          (Option.some.inj h)
      · cases h
  | shutdown =>
      simp only [system, System.step] at h
      split at h
      · cases h
        exact .turns rfl (.inl rfl) (by simp) (.inl rfl)
      · cases h
  | sendTo i ext =>
      simp only [system, System.step] at h
      split at h
      · rename_i hpc
        have hsent : { s with pc := s.pc }.sendControl i.toNat true (.ext ext) = (s', events) :=
          Option.some.inj h
        refine .of_sendControl hwf rfl rfl rfl ?_ ?_ hsent
        · simp [hpc]
        · rintro (hop | hop) <;> cases hop
      · cases h
  | sendToBest ext =>
      simp only [system, System.step, System.sendToBest] at h
      split at h
      · rename_i hpc
        split at h
        · rename_i hbest
          cases h
          refine .turns rfl (.inr fun i hi ↦ ?_) (fun hop ↦ ?_) (.inl rfl)
          · cases hbest.symm.trans hi
          · rcases hop with hop | hop <;> cases hop
        · rename_i i hbest
          have hsent : { s with pc := s.pc }.sendControl i true (.ext ext) = (s', events) :=
            Option.some.inj h
          refine .of_sendControl hwf hbest rfl rfl ?_ ?_ hsent
          · simp [hpc]
          · rintro (hop | hop) <;> cases hop
      · cases h
  | process =>
      simp only [system, System.step, System.process] at h
      split at h
      · rename_i hpc
        split at h
        · cases h
          exact .turns rfl (.inl rfl) (by simp [hpc]) (.inr rfl)
        · cases h
          exact .turns rfl (.inl rfl) (by simp) (.inl rfl)
      · cases h
  | popEvent =>
      simp only [system, System.step] at h
      split at h
      · cases h
        exact .popped
      · cases h
  | controller => exact .of_controllerStep hwf h
  | worker i turn =>
      obtain ⟨x, x', acts, acted, s₂, hx, hstep, hok, hperf, rfl, rfl⟩ := hwf.workerStep_cases h
      exact .worker hx hstep hok hperf

/-! ## What is taken and what waits -/

section Flow

omit [DecidableEq t.ChannelId] [WorkerInner t I] [DecidableEq t.Owner]

/-- What waits in the control leg of a worker, without its source. -/
def System.controlWaiting (s : System t I n) (i : Nat) : List (WorkerControlIn t.ExtIn t.SCfg) :=
  (s.workerControlBus.waiting i).map Prod.snd

/-- A message that the control leg of a worker has accepted. -/
def SystemEvent.controlTo (i : Nat) : SystemEvent t I → Option (WorkerControlIn t.ExtIn t.SCfg)
  | .control o => if o.leg = i then o.accepted.map Prod.snd else none
  | _ => none

/-- The message that a worker takes from its control leg. -/
def Answer.message : Answer t → Option (WorkerControlIn t.ExtIn t.SCfg)
  | .control msg => msg
  | _ => none

/-- The messages that the control leg of a worker has accepted, in order. -/
def sentTo (i : Nat) (h : SystemHistory t I n) : List (WorkerControlIn t.ExtIn t.SCfg) :=
  h.events.filterMap (SystemEvent.controlTo i)

/-- The messages that a worker has taken, in order. -/
def takenBy (i : Nat) (h : SystemHistory t I n) : List (WorkerControlIn t.ExtIn t.SCfg) :=
  (SystemHistory.of h i).filterMap fun w ↦ w.label.message

/-- What the controller has heard, in order. -/
def heard (h : SystemHistory t I n) :
    List (BusEventSource UInt16 × WorkerControlOut t.ExtOut t.SCfg) :=
  h.filterMap fun m ↦ m.pre.hears m.label

/-- What its leg has accepted, in order. -/
def told (h : SystemHistory t I n) :
    List (BusEventSource UInt16 × WorkerControlOut t.ExtOut t.SCfg) :=
  (h.events.filterMap SystemEvent.toController).filterMap Offer.accepted

@[simp] theorem sentTo_append (i : Nat) (h h' : SystemHistory t I n) :
    sentTo i (h ++ h') = sentTo i h ++ sentTo i h' := by
  simp [sentTo]

@[simp] theorem takenBy_append (i : Nat) (h h' : SystemHistory t I n) :
    takenBy i (h ++ h') = takenBy i h ++ takenBy i h' := by
  simp [takenBy]

@[simp] theorem heard_append (h h' : SystemHistory t I n) : heard (h ++ h') = heard h ++ heard h' :=
  List.filterMap_append

@[simp] theorem told_append (h h' : SystemHistory t I n) : told (h ++ h') = told h ++ told h' := by
  simp [told]

/-- A worker's step sends no worker anything. -/
theorem controlTo_worker {j : Nat} {w : WorkerMoment t I} {events : List (SystemEvent t I)}
    (h : ∀ e ∈ events, (∃ o, e = .inner o) ∨ ∃ o, e = .event o) (i : Nat) :
    (.worker j w :: events).filterMap (SystemEvent.controlTo i) = [] := by
  rw [List.filterMap_eq_nil_iff]
  intro e he
  rcases List.mem_cons.mp he with rfl | he
  · rfl
  · rcases h e he with ⟨o, rfl⟩ | ⟨o, rfl⟩ <;> rfl

theorem controlWaiting_congr {s s' : System t I n} {i : Nat}
    (h : s'.workerControlBus.waiting i = s.workerControlBus.waiting i) :
    s'.controlWaiting i = s.controlWaiting i := congrArg (List.map Prod.snd) h

/-- What a worker takes for an answer, and what then waits. -/
theorem message_answer {s : System t I n} {x : Worker t I} {i : Nat} (hx : x.workerIn = i)
    (turn : WorkerTurn t) :
    (s.answer x turn).1.message.toList ++ (s.answer x turn).2.controlWaiting i =
      s.controlWaiting i ∧
    ∀ j, j ≠ i → (s.answer x turn).2.controlWaiting j = s.controlWaiting j := by
  subst hx
  rcases s.answer_cases x turn with ⟨hs, hcontrol, -⟩ | h | h
  · have hnone : (s.answer x turn).1.message = none := by
      cases ha : (s.answer x turn).1 with
      | control msg => exact absurd ha (hcontrol msg)
      | _ => rfl
    rw [hnone, hs]
    exact ⟨rfl, fun _ _ ↦ rfl⟩
  · rw [h]
    obtain ⟨-, -, hother, hrecv⟩ := s.workerControlBus.recv_cases x.workerIn
    refine ⟨?_, fun j hj ↦ controlWaiting_congr (hother j hj)⟩
    rcases hrecv with ⟨y, hy, hwait⟩ | ⟨hy, hwait⟩
    · simp [Answer.message, System.controlWaiting, hy, hwait]
    · simp [Answer.message, System.controlWaiting, hy, hwait]
  · rw [h]
    exact ⟨rfl, fun _ _ ↦ rfl⟩

/-- What the controller hears, and what then waits. -/
theorem waiting_of_recv {s : System t I n}
    {out : Option (BusEventSource UInt16 × WorkerControlOut t.ExtOut t.SCfg)}
    {bus : BusSystem UInt16 (WorkerControlOut t.ExtOut t.SCfg) Nat n}
    (h : s.workerEventBus.recv 0 = (out, bus)) :
    out.toList ++ bus.waiting 0 = s.workerEventBus.waiting 0 := by
  obtain ⟨-, -, -, ⟨x, hx, hwait⟩ | ⟨hx, hwait⟩⟩ := s.workerEventBus.recv_cases 0
  · rw [h] at hx hwait
    cases hx
    exact hwait.symm
  · rw [h] at hx hwait
    cases hx
    exact hwait

end Flow

/-- **A message to a worker is taken in its turn.** -/
theorem taken_step {m : SystemMoment t I n} (hwf : m.pre.Wf) (hm : system.Fires m) (i : Nat) :
    takenBy i [m] ++ m.post.controlWaiting i = m.pre.controlWaiting i ++ sentTo i [m] := by
  obtain ⟨s, op, events, s'⟩ := m
  have hdoes : Transition s op s' events := system_transition hwf hm
  have hsame : s.controlWaiting i = s.controlWaiting i ++ [] := (List.append_nil _).symm
  cases hdoes with
  | @added tick cfg now =>
      have hpost : (s.addWorker tick cfg now).controlWaiting i = s.controlWaiting i :=
        controlWaiting_congr (by simp [System.addWorker])
      exact hpost.trans hsame
  | turns _ _ _ hev => rcases hev with rfl | rfl <;> exact hsame
  | @told _ j safe msg eventBus bus o stats pc hchosen htells hlen hpc hbus hsend =>
      obtain ⟨hleg, -, -, -, -, -, hother, -⟩ := BusSystem.offer_cases hsend
      have hwait := offer_waiting hsend
      show (bus.waiting i).map Prod.snd = s.controlWaiting i ++ sentTo i _
      simp only [sentTo, History.events_singleton, List.filterMap_cons, List.filterMap_nil,
        SystemEvent.controlTo, hleg]
      by_cases hij : j = i
      · subst hij
        rw [hwait, List.map_append, if_pos rfl]
        cases o.accepted <;> rfl
      · rw [if_neg hij, hother i (Ne.symm hij)]
        exact hsame
  | @worker j turn x x' acts events s₂ hx hstep hperf hp =>
      obtain ⟨hwait, hother⟩ := message_answer (s := s) (hwf.legs hx).2.2 turn
      have hpost : s₂.controlWaiting i = (s.answer x turn).2.controlWaiting i := by
        rw [hp.frame]
        rfl
      show takenBy i _ ++ s₂.controlWaiting i = _
      simp only [takenBy, SystemHistory.of, sentTo, History.events_singleton,
        report_worker hp.events, controlTo_worker hp.events, hpost, List.append_nil]
      by_cases hji : j = i
      · subst hji
        rw [if_pos rfl, ← hwait]
        cases hmsg : (s.answer x turn).1.message <;> simp [hmsg]
      · rw [if_neg hji, hother i (Ne.symm hji)]
        rfl
  | _ => exact hsame

theorem taken_append_waiting {h : SystemHistory t I n} {s : System t I n}
    (hr : system.Run .default h s) (i : Nat) : takenBy i h ++ s.controlWaiting i = sentTo i h := by
  induction hr with
  | nil => rfl
  | snoc hr hm ih =>
      rw [takenBy_append, sentTo_append, ← ih, List.append_assoc, List.append_assoc,
        taken_step (wf_of_run hr) hm]

/-- **A message to the controller is heard in its turn.** -/
theorem heard_step {m : SystemMoment t I n} (hwf : m.pre.Wf) (hm : system.Fires m) :
    heard [m] ++ m.post.workerEventBus.waiting 0 = m.pre.workerEventBus.waiting 0 ++ told [m] := by
  obtain ⟨s, op, events, s'⟩ := m
  have hdoes : Transition s op s' events := system_transition hwf hm
  have hheard : heard [(⟨s, op, events, s'⟩ : SystemMoment t I n)] = (s.hears op).toList := by
    cases hh : s.hears op <;> simp [heard, hh]
  have hsame : s.workerEventBus.waiting 0 = s.workerEventBus.waiting 0 ++ [] :=
    (List.append_nil _).symm
  rw [hheard]
  cases hdoes with
  | @added tick cfg now =>
      have hpost : (s.addWorker tick cfg now).workerEventBus.waiting 0 =
          s.workerEventBus.waiting 0 := by
        simp [System.addWorker]
      exact hpost.trans hsame
  | turns hhears _ _ hev =>
      rw [hhears]
      rcases hev with rfl | rfl <;> exact hsame
  | popped => exact hsame
  | told hchosen htells hlen hpc hbus hsend =>
      rcases hbus with ⟨hhears, rfl⟩ | ⟨source, cfg, hhears, hrecv⟩
      · rw [hhears]
        exact hsame
      · rw [hhears]
        exact (waiting_of_recv hrecv).trans hsame
  | recorded hi hhears hrecv hpc =>
      rw [hhears]
      exact (waiting_of_recv hrecv).trans hsame
  | heard hhears hrecv hpc =>
      rw [hhears]
      exact (waiting_of_recv hrecv).trans hsame
  | processed hhears hrecv =>
      rw [hhears]
      exact (waiting_of_recv hrecv).trans hsame
  | @worker j turn x x' acts events s₂ hx hstep hperf hp =>
      have hsends := (performAll_sends hperf).waiting
      rw [(s.answer_frame x turn).1] at hsends
      show s₂.workerEventBus.waiting 0 = s.workerEventBus.waiting 0 ++ told _
      rw [told, History.events_singleton]
      exact hsends

theorem heard_append_waiting {h : SystemHistory t I n} {s : System t I n}
    (hr : system.Run .default h s) : heard h ++ s.workerEventBus.waiting 0 = told h := by
  induction hr with
  | nil => rfl
  | snoc hr hm ih =>
      rw [heard_append, told_append, ← ih, List.append_assoc, List.append_assoc,
        heard_step (wf_of_run hr) hm]

end SansIo
