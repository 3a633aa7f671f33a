import SansIo.Backend.AwakeFlag
import SansIo.Bus.Traffic
import SansIo.Worker.Steps

/-!
# A worker is woken for what waits for it

A worker installs the awaker of its backend in the leg that others send to.  A push onto
the empty leg calls it, and the call runs under the lock of the leg.  The awaker sets a
flag; the worker turns the flag into a token when it polls, and the token into an `Awake`
when it pops; and then it receives until its leg is empty.

The flag is tested and set by one thread, and tested and cleared by another.  In the
machine `polled` these are steps of their own, under every interleaving.  `Wakeful` is the
invariant that carries a push over to the `Awake` that answers it: the queue of tokens is
empty when the worker looks at the flag, so token 0 goes to the front, where no failed
read takes it away.
-/

namespace SansIo

open Lib Bus Backend Collections

variable {t : WorkerTypes} {I : Type} {n q k : Nat}

/-! ## The machine -/

/-- A worker on a `PollingBackend`, with the leg of its `inner_bus`, whose awaker is the
one of the backend. -/
structure PolledWorker (t : WorkerTypes) (I : Type) (n q k : Nat) where
  /-- The worker, with its thread. -/
  thread : Worker t I
  /-- `backend`. -/
  backend : PollingBackend t.Owner n q
  /-- Where its `poll_incoming` stands, if it is called. -/
  polling : Option PollPc
  /-- What the mutex of the leg protects. -/
  leg : QueueInternal t.ChannelId t.Event Unit k
  /-- Where the sender that holds the mutex stands in its call of `awake`. -/
  sender : Option AwakePc

/-- What a worker's thread asks, with what it does not ask its backend or its leg. -/
inductive Ask (t : WorkerTypes) where
  | run
  | clock (now : Instant)
  | elapsed (duration : Nat)
  | control (msg : Option (WorkerControlIn t.ExtIn t.SCfg))
  | /-- `os` is what the reads of sockets give. -/
    incoming (os : UdpSocket → Nat → Recv)
  | bus

/-- A step of a sender, or of the worker's thread. -/
inductive PolledOp (t : WorkerTypes) where
  | /-- A sender locks the leg and pushes. -/
    push (how : Push) (source : BusEventSource t.ChannelId) (msg : t.Event)
  | /-- The sender that holds the lock goes on with `awake`. -/
    sender
  | /-- The worker goes on with `poll_incoming`. -/
    poll (wait : Except IoError (List Token))
  | /-- The worker goes on elsewhere; `opening` is for a socket that it opens. -/
    worker (opening : Opening) (ask : Ask t)

namespace PolledWorker

/-- The answer to the worker's thread, and what is left of it.  `recv` has to wait for the
lock, and `pop_incoming` does not panic. -/
def answer (s : PolledWorker t I n q k) : Ask t → Option (Answer t × PolledWorker t I n q k)
  | .run => some (.run, s)
  | .clock now => some (.clock now, s)
  | .elapsed d => some (.elapsed d, s)
  | .control msg => some (.control msg, s)
  | .incoming os => match s.backend.popIncoming (s.backend.recvOf os) with
    | .ok (event, backend) => some (.incoming event, { s with backend })
    | .error _ => none
  | .bus => match s.sender with
    | some _ => none
    | none =>
      let (msg, leg) := s.leg.recv
      some (.bus msg, { s with leg })

/-- What an act of the worker does to its backend.  What it pushes onto its own leg is a
push like any other. -/
def perform (opening : Opening) (s : PolledWorker t I n q k) :
    Act t → Panics (PolledWorker t I n q k)
  | .onAction owner action => do
    let (backend, _) ← s.backend.onAction owner opening action
    return { s with backend }
  | .pollIncoming _ => .ok { s with polling := some .wait }
  | _ => .ok s

variable [WorkerInner t I] [DecidableEq t.Owner] [DecidableEq t.ChannelId]

/-- A step of the worker's thread outside of `poll_incoming`. -/
def workerStep (s : PolledWorker t I n q k) (opening : Opening) (ask : Ask t) :
    Option (PolledWorker t I n q k × List (Act t)) :=
  match s.polling with
  | some _ => none
  | none => match s.answer ask with
    | none => none
    | some (a, s') => match worker.step s.thread a with
      | none => none
      | some (x, acts) => match acts.foldlM (perform opening) s' with
        | .ok s' => some ({ s' with thread := x }, acts)
        | .error _ => none

/-- One step. -/
def step (s : PolledWorker t I n q k) :
    PolledOp t → Option (PolledWorker t I n q k × List (Act t))
  | .push how source msg => match s.sender with
    | some _ => none
    | none =>
      let (_, leg, awoken) := how.run s.leg source msg
      some ({ s with leg, sender := if awoken.isEmpty then none else some .load }, [])
  | .sender => match s.sender with
    | none => none
    | some pc =>
      let (sender, backend) := s.backend.awakeStep pc
      some ({ s with backend, sender }, [])
  | .poll wait => match s.polling with
    | none => none
    | some pc =>
      let (polling, backend) := s.backend.pollStep wait pc
      some ({ s with backend, polling }, [])
  | .worker opening ask => s.workerStep opening ask

end PolledWorker

/-- A worker on a `PollingBackend` and the senders to its leg, under every
interleaving. -/
def polled [WorkerInner t I] [DecidableEq t.Owner] [DecidableEq t.ChannelId] :
    Machine (PolledWorker t I n q k) (PolledOp t) (Act t) := ⟨PolledWorker.step⟩

/-! ## Where a worker is -/

/-- Where a worker is in `process`. -/
inductive Phase where
  /-- Not in the loop over `pop_incoming`. -/
  | outside
  /-- In that loop, but not in `on_awake`. -/
  | incoming
  /-- Between popping an `Awake` and the end of the loop of `on_awake`.  A thread that
  panics there does not come to the end. -/
  | awake
deriving DecidableEq

/-- Where a worker is. -/
def Pc.phase : Pc t → Phase
  | .start | .idle | .control | .reply | .tick | .poll => .outside
  | .incoming => .incoming
  | .awake | .deliver .. | .panicked => .awake

/-- Where it is after it has popped. -/
def Phase.afterPop {Owner : Type} : Option (BackendIncomingInternal Owner) → Phase
  | some .awake => .awake
  | some (.event ..) => .incoming
  | none => .outside

/-- Acts other than `poll_incoming`. -/
def Quiet (acts : List (Act t)) : Prop := ∀ act ∈ acts, ∀ r, act ≠ .pollIncoming r

/-- How a worker comes from one phase to another. -/
inductive Passes : Phase → Answer t → Phase → List (Act t) → Prop
  | polls {d r} : Passes .outside (.elapsed d) .incoming [.pollIncoming r]
  | pops {event acts} (hacts : Quiet acts) :
      Passes .incoming (.incoming event) (.afterPop event) acts
  | receives {msg acts} (hacts : Quiet acts) : Passes .awake (.bus (some msg)) .awake acts
  | drained : Passes .awake (.bus none) .incoming []
  | stays {p a acts} (hpop : ∀ event, a ≠ .incoming event) (hrecv : ∀ msg, a ≠ .bus msg)
      (hacts : Quiet acts) : Passes p a p acts

section Phases

variable [WorkerInner t I] [DecidableEq t.Owner] [DecidableEq t.ChannelId]

omit [WorkerInner t I] in
theorem quiet_processInnerOutput (x : Worker t I) (out : WorkerInnerOutput t) :
    Quiet (x.processInnerOutput out).2 := by
  have hpassed := x.passedOn out
  generalize (x.processInnerOutput out).2 = acts at hpassed
  cases hpassed <;> simp [Quiet]

/-- **Every step of a worker passes** from phase to phase. -/
theorem passes_of_step {x x' : Worker t I} {a : Answer t} {acts : List (Act t)}
    (h : worker.step x a = some (x', acts)) : Passes x.pc.phase a x'.pc.phase acts := by
  have hnil : Quiet ([] : List (Act t)) := nofun
  have hinput (c : InnerCall t) : Quiet [Act.input c] := by simp [Quiet]
  have hdoes := worker_cases h
  cases hdoes
  case poll hp hpc =>
    rw [hpc]
    exact .polls
  case woken hp hpc =>
    rw [hpc]
    exact .pops hnil
  case net hp hpc =>
    rw [Worker.pc_call, hpc]
    exact .pops (hinput _)
  case polled hp hpc =>
    rw [hpc]
    exact .pops (by simp [Quiet])
  case receive hp hpc hc =>
    rw [hpc]
    exact .receives hnil
  case ignore hp hpc hc =>
    rw [hpc]
    exact .receives hnil
  case broadcast hp hpc =>
    rw [Worker.pc_call, hpc]
    exact .receives (hinput _)
  case invalid hp hpc hs =>
    rw [hpc]
    exact .receives hnil
  case drained hp hpc =>
    rw [hpc]
    exact .drained
  case pop out inner hp hout =>
    rw [Worker.pc_processInnerOutput]
    refine .stays nofun nofun ?_
    intro act hact r heq
    rcases List.mem_cons.1 hact with rfl | hact
    · cases heq
    · exact quiet_processInnerOutput _ _ act hact r heq
  case popped inner hp hout => exact .stays nofun nofun (by simp [Quiet])
  case init hp hpc =>
    rw [hpc]
    exact .stays nofun nofun hnil
  case cycle hp hpc =>
    rw [hpc]
    exact .stays nofun nofun hnil
  case controlled hp hpc =>
    rw [hpc]
    exact .stays nofun nofun hnil
  case ext hp hpc =>
    rw [Worker.pc_call]
    exact .stays nofun nofun (hinput _)
  case spawn hp hpc =>
    rw [Worker.pc_call]
    exact .stays nofun nofun (hinput _)
  case shutdown hp hpc =>
    rw [Worker.pc_call]
    exact .stays nofun nofun (hinput _)
  case statsRequest hp hpc =>
    rw [hpc]
    exact .stays nofun nofun hnil
  case reply hp hpc =>
    rw [hpc]
    exact .stays nofun nofun (by simp [Quiet])
  case tick hp hpc hdue =>
    rw [Worker.pc_call, hpc]
    exact .stays nofun nofun (hinput _)
  case notDue hp hpc hdue =>
    rw [hpc]
    exact .stays nofun nofun hnil
  case deliver hp hpc =>
    rw [Worker.pc_call, hpc]
    exact .stays nofun nofun (hinput _)
  case delivered hp hpc =>
    rw [hpc]
    exact .stays nofun nofun hnil

end Phases

/-! ## The invariant -/

/-- Before `poll_incoming` pushes anything. -/
def Backend.PollPc.Early : PollPc → Prop
  | .push _ | .panicked => False
  | _ => True

namespace PolledWorker

/-- Where the worker is. -/
def phase (s : PolledWorker t I n q k) : Phase := s.thread.pc.phase

/-- The worker has loaded `true` and not yet pushed token 0. -/
def Clears (s : PolledWorker t I n q k) : Prop :=
  ∃ events, s.polling = some (.store events) ∨ s.polling = some (.queue events)

/-- An `Awake` is on its way to the worker: the flag is set, or it has been taken for
token 0, which is in front. -/
def Pending (s : PolledWorker t I n q k) : Prop :=
  s.backend.awakeFlag = true ∨ s.backend.eventBuffer2.toList.head? = some 0 ∨ s.Clears

/-- One is on its way, or a sender sees to it. -/
def Covered (s : PolledWorker t I n q k) : Prop :=
  s.Pending ∨ s.sender = some .load ∨ s.sender = some .store

/-- The invariant of a worker that has installed its awaker. -/
structure Wakeful (s : PolledWorker t I n q k) : Prop where
  /-- The awaker is installed. -/
  awaker : s.leg.awaker = some ()
  /-- Slot 0 is the waker's. -/
  waker : s.backend.sockets.get 0 = some (some .waker)
  /-- A call of `poll_incoming` stands before the loop over `pop_incoming`. -/
  polling : s.polling ≠ none → s.phase = .incoming
  /-- Outside of that loop there are no tokens. -/
  outside : s.phase = .outside → s.backend.eventBuffer2.toList = []
  /-- Nor are there any before `poll_incoming` pushes one. -/
  early : ∀ pc, s.polling = some pc → pc.Early → s.backend.eventBuffer2.toList = []
  /-- What waits is covered, but where the worker is receiving. -/
  covered : s.leg.toList ≠ [] → s.phase ≠ .awake → s.Covered

variable {s s' : PolledWorker t I n q k}

theorem Covered.pending (h : s.Covered) (hsender : s.sender = none ∨ s.sender = some .notify) :
    s.Pending := by
  refine h.resolve_right ?_
  rintro (hload | hstore)
  · rcases hsender with hnone | hnotify
    · cases hload.symm.trans hnone
    · cases hload.symm.trans hnotify
  · rcases hsender with hnone | hnotify
    · cases hstore.symm.trans hnone
    · cases hstore.symm.trans hnotify

theorem not_clears {polling : Option PollPc} (hpolling : s.polling = polling)
    (hpc : ∀ events, polling ≠ some (.store events) ∧ polling ≠ some (.queue events)) :
    ¬ s.Clears := by
  rintro ⟨events, hstore | hqueue⟩
  · exact (hpc events).1 (hpolling.symm.trans hstore)
  · exact (hpc events).2 (hpolling.symm.trans hqueue)

/-- What is on its way stays so while nothing is taken away. -/
theorem Covered.keep (h : s.Covered) (hclears : s.Clears → s'.Covered)
    (hflag : s'.backend.awakeFlag = s.backend.awakeFlag)
    (hfront : s.backend.eventBuffer2.toList.head? = some 0 → s'.Covered)
    (hsender : s'.sender = s.sender) : s'.Covered := by
  obtain (hset | hhead | hc) | hbusy := h
  · exact .inl (.inl (hflag.trans hset))
  · exact hfront hhead
  · exact hclears hc
  · rw [← hsender] at hbusy
    exact .inr hbusy

/-- A sender pushes while nobody holds the lock. -/
theorem Wakeful.push (hs : s.Wakeful) (hsender : s.sender = none) (how : Push)
    (source : BusEventSource t.ChannelId) (msg : t.Event) :
    Wakeful { s with
      leg := (how.run s.leg source msg).2.1
      sender := if (how.run s.leg source msg).2.2.isEmpty then none else some .load } := by
  rw [Push.run_eq, QueueInternal.send_eq]
  split
  · refine ⟨hs.awaker, hs.waker, hs.polling, hs.outside, hs.early, fun _ hphase ↦ ?_⟩
    by_cases hempty : s.leg.toList = []
    · have hload : (if (if s.leg.toList = [] then s.leg.awaker.toList else []).isEmpty = true
          then none else some AwakePc.load) = some .load := by
        rw [if_pos hempty, hs.awaker]
        rfl
      exact .inr (.inl hload)
    · exact .inl ((hs.covered hempty hphase).pending (.inl hsender))
  · refine ⟨hs.awaker, hs.waker, hs.polling, hs.outside, hs.early, fun hwait hphase ↦ ?_⟩
    exact .inl ((hs.covered hwait hphase).pending (.inl hsender))

/-- The sender that holds the lock goes on. -/
theorem Wakeful.sender (hs : s.Wakeful) {pc : AwakePc} (hsender : s.sender = some pc) :
    Wakeful { s with
      backend := (s.backend.awakeStep pc).2
      sender := (s.backend.awakeStep pc).1 } := by
  obtain ⟨htokens, hsockets⟩ := s.backend.awakeStep_frame pc
  refine ⟨hs.awaker, ?_, hs.polling, fun hphase ↦ ?_, fun p hp he ↦ ?_, fun hwait hphase ↦ ?_⟩
  · exact (congrArg (·.get 0) hsockets).trans hs.waker
  · exact (congrArg Bounded.toList htokens).trans (hs.outside hphase)
  · exact (congrArg Bounded.toList htokens).trans (hs.early p hp he)
  · cases pc with
    | load =>
        cases hflag : s.backend.awakeFlag with
        | true => exact .inl (.inl hflag)
        | false =>
            have hstore : (s.backend.awakeStep .load).1 = some .store := by
              rw [PollingBackend.awakeStep, hflag]
              rfl
            exact .inr (.inr hstore)
    | store => exact .inl (.inl rfl)
    | notify => exact .inl ((hs.covered hwait hphase).pending (.inr hsender))

/-- The worker goes on with `poll_incoming`.  The flag is cleared only after it was seen
set, and token 0 is pushed onto an empty queue. -/
theorem Wakeful.poll (hs : s.Wakeful) {pc : PollPc} (hpolling : s.polling = some pc)
    (wait : Except IoError (List Token)) :
    Wakeful { s with
      backend := (s.backend.pollStep wait pc).2
      polling := (s.backend.pollStep wait pc).1 } := by
  have hphase : s.phase = .incoming := hs.polling (by simp [hpolling])
  have hinside : ¬ s.phase = .outside := by simp [hphase]
  have htokens := hs.early pc hpolling
  cases pc with
  | wait =>
      have hclears := not_clears hpolling (by simp)
      cases wait with
      | error e =>
          exact ⟨hs.awaker, hs.waker, absurd rfl, hs.outside, by rintro _ ⟨⟩, fun hwait hp ↦
            (hs.covered hwait hp).keep (absurd · hclears) rfl (.inl ∘ .inr ∘ .inl) rfl⟩
      | ok events =>
          exact ⟨hs.awaker, hs.waker, fun _ ↦ hphase, hs.outside, fun _ _ _ ↦ htokens trivial,
            fun hwait hp ↦
              (hs.covered hwait hp).keep (absurd · hclears) rfl (.inl ∘ .inr ∘ .inl) rfl⟩
  | load events =>
      have hclears := not_clears hpolling (by simp)
      have hfront : s.backend.eventBuffer2.toList.head? ≠ some 0 := by simp [htokens trivial]
      refine ⟨hs.awaker, hs.waker, fun _ ↦ hphase, hs.outside, fun _ _ _ ↦ htokens trivial,
        fun hwait hp ↦ ?_⟩
      exact (hs.covered hwait hp).keep (absurd · hclears) rfl (absurd · hfront) rfl
  | store events =>
      exact ⟨hs.awaker, hs.waker, fun _ ↦ hphase, hs.outside, fun _ _ _ ↦ htokens trivial,
        fun _ _ ↦ .inl (.inr (.inr ⟨events, .inr rfl⟩))⟩
  | queue events =>
      -- the queue is empty, so there is room for token 0, and it is in front
      have hroom : s.backend.eventBuffer2.length < queuePktNum := by
        rw [← Bounded.length_toList, htokens trivial]
        decide
      obtain ⟨b, hpush⟩ := (s.backend.pushToken_ok_iff 0).2 hroom
      obtain ⟨hlist, hframe⟩ := PollingBackend.pushToken_eq hpush
      rw [htokens trivial, List.nil_append] at hlist
      simp only [PollingBackend.pollStep, hpush]
      refine ⟨hs.awaker, ?_, fun _ ↦ hphase, fun hp ↦ absurd hp hinside, ?_, fun _ _ ↦ ?_⟩
      · exact (congrArg (·.sockets.get 0) hframe).trans hs.waker
      · rintro _ ⟨⟩ ⟨⟩
      · exact .inl (.inr (.inl (congrArg List.head? hlist)))
  | push events =>
      have hclears := not_clears hpolling (by simp)
      cases events with
      | nil =>
          exact ⟨hs.awaker, hs.waker, absurd rfl, hs.outside, by rintro _ ⟨⟩, fun hwait hp ↦
            (hs.covered hwait hp).keep (absurd · hclears) rfl (.inl ∘ .inr ∘ .inl) rfl⟩
      | cons event events =>
          rw [PollingBackend.pollStep]
          cases hpush : s.backend.pushToken event with
          | ok b =>
              obtain ⟨hlist, hframe⟩ := PollingBackend.pushToken_eq hpush
              have hflag : b.awakeFlag = s.backend.awakeFlag := congrArg (·.awakeFlag) hframe
              refine ⟨hs.awaker, ?_, fun _ ↦ hphase, fun hp ↦ absurd hp hinside, ?_,
                fun hwait hp ↦ ?_⟩
              · exact (congrArg (·.sockets.get 0) hframe).trans hs.waker
              · rintro _ ⟨⟩ ⟨⟩
              · refine (hs.covered hwait hp).keep (absurd · hclears) hflag (fun hfront ↦ ?_) rfl
                refine .inl (.inr (.inl ?_))
                show b.eventBuffer2.toList.head? = some 0
                rw [hlist, List.head?_append, hfront]
                rfl
          | error text =>
              refine ⟨hs.awaker, hs.waker, fun _ ↦ hphase, hs.outside, ?_, fun hwait hp ↦ ?_⟩
              · rintro _ ⟨⟩ ⟨⟩
              · exact (hs.covered hwait hp).keep (absurd · hclears) rfl (.inl ∘ .inr ∘ .inl) rfl
  | panicked =>
      have hclears := not_clears hpolling (by simp)
      refine ⟨hs.awaker, hs.waker, fun _ ↦ hphase, hs.outside, ?_, fun hwait hp ↦ ?_⟩
      · rintro _ ⟨⟩ ⟨⟩
      · exact (hs.covered hwait hp).keep (absurd · hclears) rfl (.inl ∘ .inr ∘ .inl) rfl

/-! ### The worker's thread -/

/-- What a worker does outside of `poll_incoming`, to all but its thread. -/
structure Frame (s s' : PolledWorker t I n q k) : Prop where
  polling : s'.polling = s.polling
  leg : s'.leg = s.leg
  sender : s'.sender = s.sender
  tokens : s'.backend.eventBuffer2 = s.backend.eventBuffer2
  flag : s'.backend.awakeFlag = s.backend.awakeFlag
  waker : s.backend.sockets.get 0 = some (some .waker) →
    s'.backend.sockets.get 0 = some (some .waker)

theorem Frame.refl (s : PolledWorker t I n q k) : Frame s s := ⟨rfl, rfl, rfl, rfl, rfl, id⟩

theorem Frame.trans {s'' : PolledWorker t I n q k} (h : Frame s s') (h' : Frame s' s'') :
    Frame s s'' where
  polling := h'.polling.trans h.polling
  leg := h'.leg.trans h.leg
  sender := h'.sender.trans h.sender
  tokens := h'.tokens.trans h.tokens
  flag := h'.flag.trans h.flag
  waker := h'.waker ∘ h.waker

/-- A quiet act may change sockets and outputs. -/
theorem Frame.perform {opening : Opening} {act : Act t} (hact : ∀ r, act ≠ .pollIncoming r)
    (h : s.perform opening act = .ok s') : Frame s s' := by
  cases act with
  | onAction owner action =>
      obtain ⟨⟨backend, sent⟩, haction, hret⟩ := bind_ok.1 h
      cases hret
      obtain ⟨htokens, hflag⟩ := PollingBackend.onAction_frame haction
      exact ⟨rfl, rfl, rfl, htokens, hflag, PollingBackend.waker_onAction haction⟩
  | pollIncoming r => exact absurd rfl (hact r)
  | _ =>
      cases h
      exact .refl _

theorem Frame.performAll {opening : Opening} {acts : List (Act t)} (hacts : Quiet acts)
    (h : acts.foldlM (PolledWorker.perform opening) s = .ok s') : Frame s s' := by
  induction acts generalizing s with
  | nil =>
      cases h
      exact .refl _
  | cons act acts ih =>
      rw [List.foldlM_cons] at h
      obtain ⟨s₁, hact, hrest⟩ := bind_ok.1 h
      have hquiet : Quiet acts := fun act hmem ↦ hacts act (List.mem_cons_of_mem _ hmem)
      exact (Frame.perform (hacts _ List.mem_cons_self) hact).trans (ih hquiet hrest)

/-- The parts of a state that the invariant is about, where the worker is not polling. -/
theorem Wakeful.of_frame {x : Worker t I} (h : Frame s s')
    (hpolling : s.polling = none)
    (hawaker : s.leg.awaker = some ()) (hwaker : s.backend.sockets.get 0 = some (some .waker))
    (houtside : x.pc.phase = .outside → s.backend.eventBuffer2.toList = [])
    (hcovered : s.leg.toList ≠ [] → x.pc.phase ≠ .awake → s.Covered) :
    Wakeful { s' with thread := x } where
  awaker := h.leg ▸ hawaker
  waker := h.waker hwaker
  polling hp := absurd (h.polling.trans hpolling) hp
  outside hp := h.tokens ▸ houtside hp
  early pc hp := by cases (h.polling.trans hpolling).symm.trans hp
  covered hwait hp := by
    have hcov := hcovered (h.leg ▸ hwait) hp
    have hclears := not_clears hpolling (by simp)
    refine hcov.keep (absurd · hclears) h.flag (fun hfront ↦ ?_) h.sender
    refine .inl (.inr (.inl ?_))
    show s'.backend.eventBuffer2.toList.head? = some 0
    rw [h.tokens, hfront]

/-- What an answer takes. -/
theorem answer_cases {ask : Ask t} {a : Answer t} (h : s.answer ask = some (a, s')) :
    (s' = s ∧ (∀ event, a ≠ .incoming event) ∧ ∀ msg, a ≠ .bus msg) ∨
    (∃ os event backend, s.backend.popIncoming (s.backend.recvOf os) = .ok (event, backend) ∧
      a = .incoming event ∧ s' = { s with backend }) ∨
    (a = .bus s.leg.recv.1 ∧ s' = { s with leg := s.leg.recv.2 }) := by
  cases ask with
  | incoming os =>
      simp only [answer] at h
      split at h
      · rename_i event backend hpop
        cases h
        exact .inr (.inl ⟨os, event, backend, hpop, rfl, rfl⟩)
      · cases h
  | bus =>
      simp only [answer] at h
      split at h
      · cases h
      · cases h
        exact .inr (.inr ⟨rfl, rfl⟩)
  | _ =>
      cases h
      exact .inl ⟨rfl, nofun, nofun⟩

/-- The worker begins to poll. -/
theorem Wakeful.polls (hs : s.Wakeful) (hpolling : s.polling = none) (hphase : s.phase = .outside)
    {x : Worker t I} (hx : x.pc.phase = .incoming) :
    Wakeful { s with polling := some .wait, thread := x } where
  awaker := hs.awaker
  waker := hs.waker
  polling _ := hx
  outside hp := by cases hx.symm.trans hp
  early _ _ _ := hs.outside hphase
  covered hwait _ := by
    have hclears := not_clears hpolling (by simp)
    have hcov := hs.covered hwait (by simp [hphase])
    exact hcov.keep (absurd · hclears) rfl (.inl ∘ .inr ∘ .inl) rfl

/-- The worker pops.  While token 0 is in front, it does not come to the end, and it is no
token that gives it a packet. -/
theorem Wakeful.pops (hs : s.Wakeful) (hpolling : s.polling = none) (hphase : s.phase = .incoming)
    {os : UdpSocket → Nat → Recv} {event : Option (BackendIncomingInternal t.Owner)}
    {backend : PollingBackend t.Owner n q}
    (hpop : s.backend.popIncoming (s.backend.recvOf os) = .ok (event, backend))
    {x : Worker t I} (hx : x.pc.phase = .afterPop event) (h : Frame { s with backend } s') :
    Wakeful { s' with thread := x } := by
  obtain ⟨hflag, hfront⟩ := PollingBackend.popIncoming_flag hpop hs.waker
  refine .of_frame h hpolling hs.awaker ?_ (fun hp ↦ ?_) fun hwait hp ↦ ?_
  · exact (congrArg (·.get 0) (PollingBackend.popIncoming_does hpop).1).trans hs.waker
  · rw [hx] at hp
    have hnone : event = none := by
      rcases event with _ | (_ | _)
      · rfl
      · cases hp
      · cases hp
    exact PollingBackend.tokens_eq_nil_of_popIncoming hpop (.inl hnone)
  · rw [hx] at hp
    have hclears := not_clears hpolling (by simp)
    have hcov := hs.covered hwait (by simp [hphase])
    refine hcov.keep (absurd · hclears) hflag (fun hhead ↦ ?_) rfl
    obtain rfl | ⟨-, hsame⟩ := hfront hhead
    · exact absurd rfl hp
    · refine .inl (.inr (.inl ?_))
      show backend.eventBuffer2.toList.head? = some 0
      rw [hsame, hhead]

/-- The worker receives. -/
theorem Wakeful.receives (hk : 0 < k) (hs : s.Wakeful) (hpolling : s.polling = none)
    {x : Worker t I} (houtside : x.pc.phase ≠ .outside)
    (hx : s.leg.recv.1 ≠ none → x.pc.phase = .awake)
    (h : Frame { s with leg := s.leg.recv.2 } s') : Wakeful { s' with thread := x } := by
  refine .of_frame h hpolling hs.awaker hs.waker (fun hp ↦ absurd hp houtside) fun hwait hp ↦ ?_
  have hnone : s.leg.recv.1 = none := by
    by_contra hsome
    exact hp (hx hsome)
  have hempty : s.leg.toList = [] := by
    have hhead : s.leg.recv.1 = s.leg.toList.head? := DynamicDeque.popFront_fst hk s.leg.queue
    exact List.head?_eq_none_iff.1 (hhead.symm.trans hnone)
  refine absurd ?_ hwait
  show s.leg.recv.2.toList = []
  rw [QueueInternal.toList_recv hk, hempty, List.tail_nil]

variable [WorkerInner t I] [DecidableEq t.Owner] [DecidableEq t.ChannelId]

/-- The worker goes on outside of `poll_incoming`.  It leaves the loop over `pop_incoming`
only when there are no tokens, and that of `on_awake` only when nothing waits. -/
theorem Wakeful.worker (hk : 0 < k) (hs : s.Wakeful) {opening : Opening} {ask : Ask t}
    {acts : List (Act t)} (h : s.workerStep opening ask = some (s', acts)) : s'.Wakeful := by
  unfold workerStep at h
  split at h
  · cases h
  · rename_i hpolling
    split at h
    · cases h
    · rename_i a s₁ hanswer
      split at h
      · cases h
      · rename_i x acts' hstep
        split at h
        · rename_i s₂ hperf
          cases h
          have hpasses := passes_of_step hstep
          generalize hphase : s.thread.pc.phase = p at hpasses
          generalize hx : x.pc.phase = p' at hpasses
          cases hpasses with
          | polls =>
              obtain ⟨rfl, -⟩ | ⟨_, _, _, -, ha, -⟩ | ⟨ha, -⟩ := answer_cases hanswer
              · cases hperf
                exact hs.polls hpolling hphase hx
              · cases ha
              · cases ha
          | pops hacts =>
              obtain ⟨-, ha, -⟩ | ⟨os, event, backend, hpop, ha, rfl⟩ | ⟨ha, -⟩ :=
                answer_cases hanswer
              · exact absurd rfl (ha _)
              · cases ha
                exact hs.pops hpolling hphase hpop hx (.performAll hacts hperf)
              · cases ha
          | receives hacts =>
              obtain ⟨-, -, ha⟩ | ⟨_, _, _, -, ha, -⟩ | ⟨-, rfl⟩ := answer_cases hanswer
              · exact absurd rfl (ha _)
              · cases ha
              · exact hs.receives hk hpolling (by simp [hx]) (fun _ ↦ hx) (.performAll hacts hperf)
          | drained =>
              obtain ⟨-, -, ha⟩ | ⟨_, _, _, -, ha, -⟩ | ⟨ha, rfl⟩ := answer_cases hanswer
              · exact absurd rfl (ha _)
              · cases ha
              · cases hperf
                refine hs.receives hk hpolling (by simp [hx]) (fun hsome ↦ ?_) (.refl _)
                exact absurd (Answer.bus.inj ha).symm hsome
          | stays hpop hrecv hacts =>
              obtain ⟨rfl, -⟩ | ⟨_, event, _, -, rfl, -⟩ | ⟨rfl, -⟩ := answer_cases hanswer
              · exact .of_frame (.performAll hacts hperf) hpolling hs.awaker hs.waker
                  (fun hp ↦ hs.outside (hphase.trans (hx.symm.trans hp)))
                  fun hwait hp ↦ hs.covered hwait fun he ↦ hp (hx.trans (hphase.symm.trans he))
              · exact absurd rfl (hpop event)
              · exact absurd rfl (hrecv _)
        · cases h

/-- **Every step keeps a worker wakeful**, where its leg has room. -/
theorem Wakeful.step (hk : 0 < k) (hs : s.Wakeful) {op : PolledOp t} {acts : List (Act t)}
    (h : polled.step s op = some (s', acts)) : s'.Wakeful := by
  cases op with
  | push how source msg =>
      simp only [polled, PolledWorker.step] at h
      split at h
      · cases h
      · rename_i hsender
        cases h
        exact hs.push hsender how source msg
  | sender =>
      simp only [polled, PolledWorker.step] at h
      split at h
      · cases h
      · rename_i pc hsender
        cases h
        exact hs.sender hsender
  | poll wait =>
      simp only [polled, PolledWorker.step] at h
      split at h
      · cases h
      · rename_i pc hpolling
        cases h
        exact hs.poll hpolling wait
  | worker opening ask => exact hs.worker hk h

end PolledWorker

/-! ## Wake-ups -/

namespace PolledWorker

/-- A new worker has installed its awaker, while nothing waited in its leg. -/
structure Installed (s : PolledWorker t I n q k) : Prop where
  /-- `Worker::new`. -/
  thread : ∃ now tick inner innerBus workerOut workerIn,
    s.thread = .new now tick inner innerBus workerOut workerIn
  /-- Its backend is new. -/
  backend : s.backend = .default
  /-- It does not poll yet. -/
  polling : s.polling = none
  /-- The awaker. -/
  awaker : s.leg.awaker = some ()
  /-- Nothing waits. -/
  empty : s.leg.toList = []
  /-- Nobody holds the lock. -/
  sender : s.sender = none

/-- What waits for a worker is followed by an `Awake`, while the worker is not receiving:
the flag is set, or token 0 is queued, or the worker has loaded the flag and is about to
queue it, or a sender is in `awake`. -/
def Woken (s : PolledWorker t I n q k) : Prop :=
  s.leg.toList ≠ [] → s.phase ≠ .awake →
    s.backend.awakeFlag = true ∨ 0 ∈ s.backend.eventBuffer2.toList ∨ s.Clears ∨ s.sender ≠ none

variable {s s' : PolledWorker t I n q k}

theorem Installed.wakeful (h : s.Installed) : s.Wakeful where
  awaker := h.awaker
  waker := by
    rw [h.backend]
    exact Slots.held_eq_some.1 ((PollingBackend.held_sockets_default 0).trans (if_pos rfl))
  polling hp := absurd h.polling hp
  outside _ := by
    rw [h.backend]
    rfl
  early pc hp := by cases h.polling.symm.trans hp
  covered hwait := absurd h.empty hwait

theorem Wakeful.woken (h : s.Wakeful) : s.Woken := by
  intro hwait hphase
  obtain (hflag | hfront | hclears) | hload | hstore := h.covered hwait hphase
  · exact .inl hflag
  · exact .inr (.inl (List.mem_of_head? hfront))
  · exact .inr (.inr (.inl hclears))
  · exact .inr (.inr (.inr (by simp [hload])))
  · exact .inr (.inr (.inr (by simp [hstore])))

end PolledWorker

variable [WorkerInner t I] [DecidableEq t.Owner] [DecidableEq t.ChannelId]

/-- **No wake-up is lost** between the senders to a leg and the worker that receives from
it.  A leg has room for at least one message. -/
theorem woken_of_run (hk : 0 < k) {s₀ s : PolledWorker t I n q k}
    {h : History (PolledWorker t I n q k) (PolledOp t) (Act t)} (hinstalled : s₀.Installed)
    (hr : polled.Run s₀ h s) : s.Woken :=
  (hr.invariant (I := PolledWorker.Wakeful) hinstalled.wakeful fun _ hm hs ↦ hs.step hk hm).woken

/-- A new worker and its leg. -/
def newPolled : PolledWorker plainTypes Scripted 2 1 1 where
  thread := scriptedWorker []
  backend := .default
  polling := none
  leg := QueueInternal.default.setAwaker ()
  sender := none

theorem installed_newPolled : newPolled.Installed :=
  ⟨⟨_, _, _, _, _, _, rfl⟩, rfl, rfl, rfl, rfl, rfl⟩

/-- A message is pushed before the worker first polls; a second one comes when the flag has
been cleared and token 0 has not been queued yet. -/
def pushing : List (PolledOp plainTypes) :=
  [.push (.send false) (.broadcast 1) 5, .sender, .sender, .sender] ++
    ([.clock 0, .run, .clock 0, .control none, .run, .run, .elapsed 0].map
      (.worker (.refused "refused"))) ++
    [.poll (.ok []), .poll (.ok []), .poll (.ok []), .push .sendSafe (.broadcast 1) 6]

/-- What comes of it. -/
def pushed : History (PolledWorker plainTypes Scripted 2 1 1) (PolledOp plainTypes)
    (Act plainTypes) × PolledWorker plainTypes Scripted 2 1 1 :=
  ((polled (t := plainTypes)).exec newPolled pushing).get (by decide +kernel)

/-- The theorem there: two messages wait, and nothing but the worker's next step is left of
the call of the awaker. -/
theorem woken_of_run_pushed :
    pushed.2.leg.toList.length = 2 ∧ pushed.2.backend.awakeFlag = false ∧
      pushed.2.backend.eventBuffer2.toList = [] ∧ pushed.2.sender = none ∧ pushed.2.Clears := by
  have hr : (polled (t := plainTypes)).Run newPolled pushed.1 pushed.2 := Machine.exec_run_get _
  have hlen : pushed.2.leg.toList.length = 2 := by decide +kernel
  have hflag : pushed.2.backend.awakeFlag = false := by decide +kernel
  have htokens : pushed.2.backend.eventBuffer2.toList = [] := by decide +kernel
  have hsender : pushed.2.sender = none := by decide +kernel
  have hphase : pushed.2.phase ≠ .awake := by decide +kernel
  refine ⟨hlen, hflag, htokens, hsender, ?_⟩
  obtain hset | hmem | hclears | hbusy :=
    woken_of_run (by decide) installed_newPolled hr (List.ne_nil_of_length_pos (by omega)) hphase
  · cases hset.symm.trans hflag
  · rw [htokens] at hmem
    cases hmem
  · exact hclears
  · exact absurd hsender hbusy

end SansIo
