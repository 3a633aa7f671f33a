import SansIo.Lib.Split
import SansIo.System.Aligned

/-!
# Messages are conserved

A task that is to be spawned, or a message from outside, goes from leg to leg until a
worker takes it.  `Conserved` says that it is always in one place: what was asked for is
what waits in the legs and what the workers have been given, counted with its
multiplicity.  A message to the outside may be refused on its first leg, and on no other.

Every hop is first in, first out (`taken_append_waiting`, `heard_append_waiting`), so it
remains to show that what comes out of one goes into the next: into the leg of the
controller what the workers ask for (`says_of_step`), and into their own legs what the
controller is asked for (`controls_of_step`).
-/

namespace SansIo

open Lib Bus Backend Collections

variable {t : WorkerTypes} {I : Type} {n : Nat}

/-! ## What the messages are -/

/-- The task that a worker is to spawn. -/
def WorkerControlIn.task {Ext SCfg : Type} : WorkerControlIn Ext SCfg → Option SCfg
  | .spawn cfg => some cfg
  | _ => none

/-- The message from outside. -/
def WorkerControlIn.message {Ext SCfg : Type} : WorkerControlIn Ext SCfg → Option Ext
  | .ext e => some e
  | _ => none

/-- The task that a worker asks for. -/
def WorkerControlOut.task {Ext SCfg : Type} : WorkerControlOut Ext SCfg → Option SCfg
  | .spawn cfg => some cfg
  | _ => none

/-- The message to the outside. -/
def WorkerControlOut.message {Ext SCfg : Type} : WorkerControlOut Ext SCfg → Option Ext
  | .ext e => some e
  | _ => none

/-- The task that an inner value asks for. -/
def Act.asked : Act t → Option t.SCfg
  | .popOutput (some (.spawn cfg)) => some cfg
  | _ => none

/-- The task that an inner value is given. -/
def Act.spawned : Act t → Option t.SCfg
  | .input (.spawn cfg) => some cfg
  | _ => none

/-- The message from outside that an inner value is given. -/
def Act.given : Act t → Option t.ExtIn
  | .input (.onEvent (.ext ext)) => some ext
  | _ => none

/-- The message to the outside that an inner value has, with its flag. -/
def Act.produced : Act t → Option (Bool × t.ExtOut)
  | .popOutput (some (.ext safe ext)) => some (safe, ext)
  | _ => none

/-- The task that a call from outside asks for. -/
def SystemOp.asked : SystemOp t → Option t.SCfg
  | .spawn cfg => some cfg
  | _ => none

/-- The message that a call from outside sends, to a worker that there is. -/
def System.sends (s : System t I n) : SystemOp t → Option t.ExtIn
  | .sendTo i ext => if i.toNat < s.workers.length then some ext else none
  | .sendToBest ext => some ext
  | _ => none

/-! ## What a worker says -/

section Worker

variable [WorkerInner t I] [DecidableEq t.Owner] [DecidableEq t.ChannelId]

/-- What a worker sends to the controller in a step is stats, or what its inner value
asks for. -/
structure Says (acts : List (Act t)) : Prop where
  /-- At most one message. -/
  one : (acts.filterMap Act.toController).length ≤ 1
  /-- The tasks that it asks for, -/
  tasks : (acts.filterMap Act.toController).filterMap (·.2.task) = acts.filterMap Act.asked
  /-- which may not be refused. -/
  safe : ∀ p ∈ acts.filterMap Act.toController, p.2.task ≠ none → p.1 = true
  /-- Its messages to the outside. -/
  messages : (acts.filterMap Act.toController).filterMap (fun p ↦ p.2.message.map (p.1, ·)) =
    acts.filterMap Act.produced

omit [WorkerInner t I] [DecidableEq t.Owner] [DecidableEq t.ChannelId] in
theorem says_nil {acts : List (Act t)} (hout : acts.filterMap Act.toController = [])
    (htask : acts.filterMap Act.asked = []) (hmsg : acts.filterMap Act.produced = []) :
    Says acts := by
  constructor
  · rw [hout]
    exact Nat.zero_le 1
  · rw [hout, htask]
    rfl
  · rw [hout]
    exact nofun
  · rw [hout, hmsg]
    rfl

theorem says_of_step {x x' : Worker t I} {a : Answer t} {acts : List (Act t)}
    (h : worker.step x a = some (x', acts)) : Says acts := by
  have hdoes := worker_cases h
  cases hdoes
  case reply hp hpc =>
    exact ⟨Nat.le_refl 1, rfl, fun p hp htask ↦ absurd (List.mem_singleton.1 hp ▸ rfl) htask, rfl⟩
  case pop out inner hp hout =>
    have hpassed := Worker.passedOn { x with inner } out
    generalize ({ x with inner }.processInnerOutput out).2 = acts at hpassed
    cases hpassed with
    | ext =>
        exact ⟨Nat.le_refl 1, rfl, fun p hp htask ↦ absurd (List.mem_singleton.1 hp ▸ rfl) htask,
          rfl⟩
    | spawn => exact ⟨Nat.le_refl 1, rfl, fun p hp _ ↦ List.mem_singleton.1 hp ▸ rfl, rfl⟩
    | _ => exact says_nil rfl rfl rfl
  all_goals exact says_nil rfl rfl rfl

/-- What it does with what it takes. -/
theorem given_of_step {x x' : Worker t I} {a : Answer t} {acts : List (Act t)}
    (h : worker.step x a = some (x', acts)) :
    acts.filterMap Act.spawned = (a.message.bind WorkerControlIn.task).toList ∧
      acts.filterMap Act.given = (a.message.bind WorkerControlIn.message).toList := by
  have hdoes := worker_cases h
  cases hdoes
  case pop out inner hp hout =>
    have hpassed := Worker.passedOn { x with inner } out
    generalize ({ x with inner }.processInnerOutput out).2 = acts at hpassed
    cases hpassed <;> exact ⟨rfl, rfl⟩
  all_goals exact ⟨rfl, rfl⟩

/-- So it does in a run: each task and each message that it takes is given to its inner
value once. -/
theorem given_of_run {x₀ x : Worker t I} {g : WorkerHistory t I} (hr : worker.Run x₀ g x) :
    g.events.filterMap Act.spawned =
        (g.filterMap fun w ↦ w.label.message).filterMap WorkerControlIn.task ∧
      g.events.filterMap Act.given =
        (g.filterMap fun w ↦ w.label.message).filterMap WorkerControlIn.message := by
  induction hr with
  | nil => exact ⟨rfl, rfl⟩
  | @snoc g w hr hw ih =>
      obtain ⟨hspawned, hgiven⟩ := given_of_step hw
      have hlast {β : Type} (f : WorkerControlIn t.ExtIn t.SCfg → Option β) :
          ([w].filterMap fun w ↦ w.label.message).filterMap f =
            (w.label.message.bind f).toList := by
        cases hmsg : w.label.message with
        | none => simp [hmsg]
        | some msg => cases hf : f msg <;> simp [hmsg, hf]
      simp only [History.events_append, History.events_singleton, List.filterMap_append, hlast]
      rw [ih.1, ih.2, hspawned, hgiven]
      exact ⟨rfl, rfl⟩

end Worker

/-! ## What is accepted -/

section Accepted

variable {b b' : BusSystem UInt16 (WorkerControlOut t.ExtOut t.SCfg) Nat n} {source : Nat}
  {msgs : List (Bool × WorkerControlOut t.ExtOut t.SCfg)}
  {os : List (Offer UInt16 (WorkerControlOut t.ExtOut t.SCfg) Nat)}

/-- No task is refused that is sent safely. -/
theorem Sends.tasks (h : Sends source 0 b msgs os b')
    (hsafe : ∀ p ∈ msgs, p.2.task ≠ none → p.1 = true) :
    (os.filterMap Offer.accepted).filterMap (·.2.task) = msgs.filterMap (·.2.task) := by
  induction h with
  | nil => rfl
  | @cons b b₁ b₂ safe msg msgs o os hsend hs ih =>
      have hrest := ih fun p hp ↦ hsafe p (List.mem_cons_of_mem _ hp)
      have hfirst : o.accepted.bind (·.2.task) = msg.task := by
        obtain ⟨-, hsource, hmsg, -⟩ := BusSystem.offer_cases hsend
        obtain ⟨hflag, -, hresult, -⟩ | ⟨-, ⟨len, hresult⟩, -⟩ := BusSystem.offer_result hsend
        · have hnone : msg.task = none := by
            by_contra htask
            exact Bool.noConfusion (hflag.symm.trans (hsafe _ List.mem_cons_self htask))
          simp [Offer.accepted, hresult, hnone, Except.isOk, Except.toBool]
        · simp [Offer.accepted, hresult, hmsg, Except.isOk, Except.toBool]
      rw [List.filterMap_cons (a := (safe, msg)), List.filterMap_cons (a := o)]
      dsimp only
      rw [← hfirst, ← hrest]
      cases o.accepted with
      | none => rfl
      | some p =>
          cases htask : p.2.task <;> simp [htask]

/-- The messages to the outside that are offered. -/
theorem Sends.messages (h : Sends source 0 b msgs os b') :
    os.filterMap (·.msg.message) = msgs.filterMap (·.2.message) := by
  have hmsgs := congrArg (List.filterMap WorkerControlOut.message) h.offered.1
  rw [List.filterMap_map, List.filterMap_map] at hmsgs
  exact hmsgs

end Accepted

/-! ## The acts of all workers -/

/-- The acts of a worker that an event reports, with its index. -/
def SystemEvent.acts : SystemEvent t I → List (Nat × Act t)
  | .worker i w => w.events.map (i, ·)
  | _ => []

/-- What the workers have done, in order. -/
def allActs (h : SystemHistory t I n) : List (Nat × Act t) := h.events.flatMap SystemEvent.acts

@[simp] theorem allActs_append (h h' : SystemHistory t I n) :
    allActs (h ++ h') = allActs h ++ allActs h' := by
  simp [allActs]

/-- The acts of one worker among them. -/
theorem filterMap_of {β : Type} (f : Act t → Option β) (h : SystemHistory t I n) (i : Nat) :
    (SystemHistory.of h i).events.filterMap f = partOf Prod.fst (fun p ↦ f p.2) i (allActs h) := by
  rw [SystemHistory.of, allActs]
  induction h.events with
  | nil => rfl
  | cons e es ih =>
      rw [List.flatMap_cons, partOf, List.filterMap_append, ← partOf, ← partOf, ← ih,
        List.filterMap_cons]
      cases e with
      | worker j w =>
          by_cases hji : j = i
          · subst hji
            simp [SystemEvent.report, SystemEvent.acts, partOf, List.filterMap_map, History.events]
          · simp [SystemEvent.report, SystemEvent.acts, partOf, List.filterMap_map, hji]
      | _ => rfl

/-- **What all workers have done is what each of them has.** -/
theorem sum_filterMap_of {β : Type} (f : Act t → Option β) {h : SystemHistory t I n} {k : Nat}
    (hk : ∀ p ∈ allActs h, p.1 < k) :
    ∑ i ∈ Finset.range k, ((SystemHistory.of h i).events.filterMap f : Multiset β) =
      ((allActs h).filterMap fun p ↦ f p.2 : Multiset β) := by
  rw [Finset.sum_congr rfl fun i _ ↦ congrArg _ (filterMap_of f h i)]
  exact sum_filterMap_key Prod.fst _ fun p hp _ ↦ hk p hp

/-- The acts of a step of a worker. -/
theorem acts_worker {j : Nat} {w : WorkerMoment t I} {events : List (SystemEvent t I)}
    (h : ∀ e ∈ events, (∃ o, e = .inner o) ∨ ∃ o, e = .event o) :
    (.worker j w :: events).flatMap SystemEvent.acts = w.events.map (j, ·) := by
  have hnone : events.flatMap SystemEvent.acts = [] := by
    rw [List.flatMap_eq_nil_iff]
    intro e he
    rcases h e he with ⟨o, rfl⟩ | ⟨o, rfl⟩ <;> rfl
  rw [List.flatMap_cons, hnone, List.append_nil]
  rfl

variable [WorkerInner t I] [DecidableEq t.Owner] [DecidableEq t.ChannelId]

theorem lt_of_allActs {h : SystemHistory t I n} {s : System t I n}
    (hr : system.Run .default h s) : ∀ p ∈ allActs h, p.1 < s.workers.length := by
  intro p hp
  obtain ⟨e, he, hp⟩ := List.mem_flatMap.1 hp
  cases e with
  | worker i w =>
      obtain ⟨act, -, rfl⟩ := List.mem_map.1 hp
      refine lt_of_report hr (w := w) (List.mem_filterMap.2 ⟨_, he, ?_⟩)
      exact if_pos rfl
  | _ => cases hp

omit [WorkerInner t I] [DecidableEq t.Owner] [DecidableEq t.ChannelId] in
/-- A step that is none of a worker. -/
theorem not_worker {events : List (SystemEvent t I)}
    (h : ∀ e ∈ events, (∀ i w, e ≠ .worker i w) ∧ ∀ o, e ≠ .event o) :
    events.flatMap SystemEvent.acts = [] ∧ events.filterMap SystemEvent.toController = [] := by
  constructor
  · rw [List.flatMap_eq_nil_iff]
    intro e he
    cases e with
    | worker i w => exact absurd rfl ((h _ he).1 i w)
    | _ => rfl
  · rw [List.filterMap_eq_nil_iff]
    intro e he
    cases e with
    | event o => exact absurd rfl ((h _ he).2 o)
    | _ => rfl

/-- A step of the system is one of a worker, with what that sends to the controller, or
one in which no worker does anything. -/
theorem worker_or_not {s s' : System t I n} {op : SystemOp t} {events : List (SystemEvent t I)}
    (hwf : s.Wf) (h : system.step s op = some (s', events)) :
    (∃ i w, .worker i w ∈ events ∧ Says w.events ∧
        events.flatMap SystemEvent.acts = w.events.map (i, ·) ∧
        Sends (i + 1) 0 s.workerEventBus (w.events.filterMap Act.toController)
          (events.filterMap SystemEvent.toController) s'.workerEventBus) ∨
      ∀ e ∈ events, (∀ i w, e ≠ .worker i w) ∧ ∀ o, e ≠ .event o := by
  have hdoes : SystemDoes s op s' events := system_cases hwf h
  cases hdoes with
  | @worker j turn x x' acts events s₂ hx hstep hperf hp =>
      left
      have hsends := performAll_sends hperf
      rw [(s.answer_frame x turn).1, (hwf.legs hx).2.1] at hsends
      exact ⟨j, ⟨x, (s.answer x turn).1, acts, x'⟩, List.mem_cons_self, says_of_step hstep,
        acts_worker hp.events, hsends⟩
  | quiet hev =>
      right
      rcases hev with rfl | ⟨out, rfl⟩
      · simp
      · simp
  | _ =>
      right
      simp

/-! ## Tasks -/

/-- **What the controller is told to spawn is what the workers ask for.** -/
theorem told_tasks {h : SystemHistory t I n} {s : System t I n} (hr : system.Run .default h s) :
    (told h).filterMap (·.2.task) = (allActs h).filterMap (·.2.asked) := by
  induction hr with
  | nil => rfl
  | @snoc h m hr hm ih =>
      have hstep : (told [m]).filterMap (·.2.task) = (allActs [m]).filterMap (·.2.asked) := by
        rw [told, allActs, History.events_singleton]
        obtain ⟨i, w, -, hsays, hacts, hsends⟩ | hnot := worker_or_not (wf_of_run hr) hm
        · rw [hacts, hsends.tasks hsays.safe, hsays.tasks, List.filterMap_map]
          rfl
        · rw [(not_worker hnot).1, (not_worker hnot).2]
          rfl
      rw [told_append, allActs_append, List.filterMap_append, List.filterMap_append, ih, hstep]

/-! ## What the controller sends on -/

/-- What a worker's control leg has accepted, with the index of the worker. -/
def SystemEvent.toWorker : SystemEvent t I → Option (Nat × WorkerControlIn t.ExtIn t.SCfg)
  | .control o => o.accepted.map (o.leg, ·.2)
  | _ => none

/-- A call of `add_worker`. -/
def SystemOp.adds : SystemOp t → Bool
  | .addWorker .. => true
  | _ => false

/-- A controller has at least one worker: its first call is `add_worker`. -/
def Staffed (h : SystemHistory t I n) : Prop := ∀ m ∈ h, m.pre.workers = [] → m.label.adds = true

omit [WorkerInner t I] [DecidableEq t.Owner] [DecidableEq t.ChannelId] in
/-- What the controller tells in a step is what it is asked for, from outside or by what
it hears. -/
theorem asked_of_tells {s : System t I n} (hwf : s.Wf) {op : SystemOp t} {i : Nat} {safe : Bool}
    {msg : WorkerControlIn t.ExtIn t.SCfg} (hchosen : s.chosen op = some i)
    (hi : i < s.workers.length) (htells : s.tells op = some (safe, msg)) :
    msg.task.toList = op.asked.toList ++ ((s.hears op).bind (·.2.task)).toList ∧
      msg.message = s.sends op ∧ (safe = true ∨ msg = .statsRequest) := by
  cases op with
  | spawn cfg =>
      cases htells
      exact ⟨rfl, rfl, .inl rfl⟩
  | sendTo j ext =>
      cases htells
      cases hchosen
      exact ⟨rfl, (if_pos hi).symm, .inl rfl⟩
  | sendToBest ext =>
      cases htells
      exact ⟨rfl, rfl, .inl rfl⟩
  | controller =>
      simp only [System.tells] at htells
      split at htells
      · rename_i hpc
        cases htells
        rw [hears_of_pc (by simp [hpc])]
        exact ⟨rfl, rfl, .inl rfl⟩
      · rename_i hpc
        cases htells
        rw [hears_of_pc (by simp [hpc])]
        exact ⟨rfl, rfl, .inr rfl⟩
      · rename_i hpc
        rw [hears_recv hwf hpc, ← hwf.workerEvent]
        split at htells
        · rename_i hrecv
          cases htells
          rw [hrecv]
          exact ⟨rfl, rfl, .inl rfl⟩
        · cases htells
      · cases htells
  | _ => cases htells

omit [WorkerInner t I] [DecidableEq t.Owner] [DecidableEq t.ChannelId] in
/-- Where it tells nothing, it is asked for nothing. -/
theorem asked_of_not_tells {s : System t I n} (hwf : s.Wf) {op : SystemOp t}
    (hworkers : s.workers = [] → op.adds = true)
    (htells : s.tells op = none ∨ ∀ i, s.chosen op = some i → s.workers.length ≤ i) :
    op.asked = none ∧ s.sends op = none := by
  have hbest (hop : ¬ op.adds = true) :
      ∃ i, System.bestWorker s.stats = some i ∧ i < s.workers.length := by
    have hne : s.stats ≠ [] := by
      intro hnil
      have hlen := hwf.stats
      rw [hnil, List.length_nil] at hlen
      exact hop (hworkers (List.length_eq_zero_iff.1 hlen.symm))
    obtain ⟨i, hi⟩ := Option.ne_none_iff_exists'.1 (hne ∘ System.bestWorker_eq_none.1)
    exact ⟨i, hi, hwf.stats ▸ System.bestWorker_lt hi⟩
  cases op with
  | spawn cfg =>
      obtain ⟨i, hi, hlt⟩ := hbest nofun
      exact absurd (htells.resolve_left nofun i hi) (Nat.not_le.2 hlt)
  | sendToBest ext =>
      obtain ⟨i, hi, hlt⟩ := hbest nofun
      exact absurd (htells.resolve_left nofun i hi) (Nat.not_le.2 hlt)
  | sendTo j ext =>
      have hle := htells.resolve_left nofun _ rfl
      exact ⟨rfl, if_neg (Nat.not_lt.2 hle)⟩
  | _ => exact ⟨rfl, rfl⟩

omit [WorkerInner t I] [DecidableEq t.Owner] [DecidableEq t.ChannelId] in
/-- What a control leg accepts that may not refuse. -/
theorem accepted_of_sendExternal {b b' : BusSystem UInt16 (WorkerControlIn t.ExtIn t.SCfg) Nat n}
    {i : Nat} {safe : Bool} {msg : WorkerControlIn t.ExtIn t.SCfg}
    {o : Offer UInt16 (WorkerControlIn t.ExtIn t.SCfg) Nat}
    (h : b.sendExternal i safe msg = .ok (o, b')) (hsafe : safe = true ∨ msg = .statsRequest) :
    (([.control o] : List (SystemEvent t I)).filterMap SystemEvent.toWorker).filterMap
        (·.2.task) = msg.task.toList ∧
      (([.control o] : List (SystemEvent t I)).filterMap SystemEvent.toWorker).filterMap
        (·.2.message) = msg.message.toList := by
  obtain ⟨-, -, hmsg, -⟩ := BusSystem.offer_cases h
  obtain ⟨hflag, -, hresult, -⟩ | ⟨-, ⟨len, hresult⟩, -⟩ := BusSystem.offer_result h
  · have hrequest : msg = .statsRequest := hsafe.resolve_left (by simp [hflag])
    have hnone : o.accepted = none := by simp [Offer.accepted, hresult, Except.isOk, Except.toBool]
    simp [SystemEvent.toWorker, hnone, hrequest, WorkerControlIn.task, WorkerControlIn.message]
  · have hsome : o.accepted = some (o.source, msg) := by
      simp [Offer.accepted, hresult, hmsg, Except.isOk, Except.toBool]
    simp only [List.filterMap_cons, List.filterMap_nil, SystemEvent.toWorker, hsome]
    cases msg <;> exact ⟨rfl, rfl⟩

/-- **What the controller tells its workers in a step** is what it is asked for. -/
theorem controls_of_step {s s' : System t I n} {op : SystemOp t} {events : List (SystemEvent t I)}
    (hwf : s.Wf) (hworkers : s.workers = [] → op.adds = true)
    (h : system.step s op = some (s', events)) :
    (events.filterMap SystemEvent.toWorker).filterMap (·.2.task) =
        op.asked.toList ++ ((s.hears op).bind (·.2.task)).toList ∧
      (events.filterMap SystemEvent.toWorker).filterMap (·.2.message) = (s.sends op).toList := by
  have hdoes : Transition s op s' events := system_transition hwf h
  cases hdoes with
  | turns hhears htells hpc hev =>
      obtain ⟨hasked, hsends⟩ := asked_of_not_tells hwf hworkers htells
      rw [hhears, hasked, hsends]
      rcases hev with rfl | rfl <;> exact ⟨rfl, rfl⟩
  | told hchosen htells hlen hpc hbus hsend =>
      obtain ⟨-, -, -, -, -, hlt, -⟩ := BusSystem.offer_cases hsend
      obtain ⟨htask, hmessage, hsafe⟩ := asked_of_tells hwf hchosen (hwf.controlLegs ▸ hlt) htells
      rw [← htask, ← hmessage]
      exact accepted_of_sendExternal hsend hsafe
  | recorded hi hhears hrecv hpc =>
      rw [hhears]
      exact ⟨rfl, rfl⟩
  | heard hhears hrecv hpc =>
      rw [hhears]
      exact ⟨rfl, rfl⟩
  | processed hhears hrecv =>
      rw [hhears]
      exact ⟨rfl, rfl⟩
  | @worker j turn x x' acts events s₂ hx hstep hperf hp =>
      have hnone : events.filterMap SystemEvent.toWorker = [] := by
        rw [List.filterMap_eq_nil_iff]
        intro e he
        rcases hp.events e he with ⟨o, rfl⟩ | ⟨o, rfl⟩ <;> rfl
      rw [List.filterMap_cons, hnone]
      exact ⟨rfl, rfl⟩
  | _ => exact ⟨rfl, rfl⟩

/-! ## What was called for -/

omit [WorkerInner t I] [DecidableEq t.Owner] [DecidableEq t.ChannelId] in
/-- What a worker's control leg has accepted, among what all of them have. -/
theorem sentTo_filterMap {β : Type} (f : WorkerControlIn t.ExtIn t.SCfg → Option β)
    (h : SystemHistory t I n) (i : Nat) :
    (sentTo i h).filterMap f =
      partOf Prod.fst (fun p ↦ f p.2) i (h.events.filterMap SystemEvent.toWorker) := by
  rw [sentTo, partOf, List.filterMap_filterMap, List.filterMap_filterMap]
  refine List.filterMap_congr fun e _ ↦ ?_
  cases e with
  | control o =>
      cases hacc : o.accepted with
      | none => simp [SystemEvent.controlTo, SystemEvent.toWorker, hacc]
      | some p =>
          by_cases hi : o.leg = i
          · simp [SystemEvent.controlTo, SystemEvent.toWorker, hacc, hi]
          · simp [SystemEvent.controlTo, SystemEvent.toWorker, hacc, hi]
  | _ => rfl

/-- The same in a run. -/
theorem controls_of_run {h : SystemHistory t I n} {s : System t I n}
    (hr : system.Run .default h s) (hstaffed : Staffed h) :
    (h.events.filterMap SystemEvent.toWorker).filterMap (·.2.task) =
        h.flatMap (fun m ↦ m.label.asked.toList ++
          ((m.pre.hears m.label).bind (·.2.task)).toList) ∧
      (h.events.filterMap SystemEvent.toWorker).filterMap (·.2.message) =
        h.filterMap fun m ↦ m.pre.sends m.label := by
  induction hr with
  | nil => exact ⟨rfl, rfl⟩
  | @snoc h m hr hm ih =>
      obtain ⟨htasks, hmessages⟩ := ih fun m hm ↦ hstaffed m (List.mem_append_left _ hm)
      obtain ⟨htask, hmessage⟩ := controls_of_step (wf_of_run hr)
        (hstaffed m (List.mem_append_right _ List.mem_cons_self)) hm
      simp only [History.events_append, History.events_singleton, List.filterMap_append,
        List.flatMap_append, List.flatMap_singleton]
      rw [htasks, hmessages, htask, hmessage]
      refine ⟨rfl, ?_⟩
      cases hsends : m.pre.sends m.label <;> simp [hsends]

omit [WorkerInner t I] [DecidableEq t.Owner] [DecidableEq t.ChannelId] in
/-- The tasks that the controller is asked for are those of its calls and those it has
heard of. -/
theorem asked_perm (h : SystemHistory t I n) :
    (h.flatMap fun m ↦ m.label.asked.toList ++
        ((m.pre.hears m.label).bind (·.2.task)).toList).Perm
      (h.filterMap (·.label.asked) ++ (heard h).filterMap (·.2.task)) := by
  have hheard : (heard h).filterMap (·.2.task) =
      h.flatMap fun m ↦ ((m.pre.hears m.label).bind (·.2.task)).toList := by
    rw [heard, List.filterMap_filterMap, List.filterMap_eq_flatMap_toList]
  rw [hheard, List.filterMap_eq_flatMap_toList]
  exact (List.flatMap_append_perm h _ _).symm

/-- What waits for a worker and what its inner value was given is what its leg has
accepted. -/
theorem given_append_waiting {h : SystemHistory t I n} {s : System t I n}
    (hr : system.Run .default h s) {i : Nat} (hi : i < s.workers.length) :
    (SystemHistory.of h i).events.filterMap Act.spawned ++
        (s.controlWaiting i).filterMap WorkerControlIn.task =
      (sentTo i h).filterMap WorkerControlIn.task ∧
    (SystemHistory.of h i).events.filterMap Act.given ++
        (s.controlWaiting i).filterMap WorkerControlIn.message =
      (sentTo i h).filterMap WorkerControlIn.message := by
  obtain ⟨x₀, -, hw⟩ := worker_of_run hr (List.getElem?_eq_getElem hi)
  obtain ⟨hspawned, hgiven⟩ := given_of_run hw
  rw [hspawned, hgiven, ← List.filterMap_append, ← List.filterMap_append]
  have hflow := taken_append_waiting hr i
  exact ⟨congrArg _ hflow, congrArg _ hflow⟩

/-- The controller tells something only to a worker that there is. -/
theorem lt_of_toWorker {h : SystemHistory t I n} {s : System t I n}
    (hr : system.Run .default h s) :
    ∀ p ∈ h.events.filterMap SystemEvent.toWorker, p.1 < s.workers.length := by
  induction hr with
  | nil => exact nofun
  | @snoc h m hr hm ih =>
      intro p hp
      have hle := workers_le (wf_of_run hr) hm
      rw [History.events_append, History.events_singleton, List.filterMap_append] at hp
      rcases List.mem_append.1 hp with hp | hp
      · exact Nat.lt_of_lt_of_le (ih p hp) hle
      · obtain ⟨e, he, hpe⟩ := List.mem_filterMap.1 hp
        obtain ⟨s, op, events, s'⟩ := m
        have hwf : s.Wf := wf_of_run hr
        have hdoes : Transition s op s' events := system_transition hwf hm
        cases hdoes with
        | turns _ _ _ hev =>
            rcases hev with rfl | rfl
            · cases he
            · cases List.mem_singleton.1 he
              cases hpe
        | told _ _ _ _ _ hsend =>
            obtain ⟨hleg, -, -, -, -, hlt, -⟩ := BusSystem.offer_cases hsend
            cases List.mem_singleton.1 he
            obtain ⟨q, -, rfl⟩ := Option.map_eq_some_iff.1 hpe
            show _ < s.workers.length
            rw [hleg, ← hwf.controlLegs]
            exact hlt
        | worker _ _ _ hperformed =>
            rcases List.mem_cons.1 he with rfl | he
            · cases hpe
            · rcases hperformed.events e he with ⟨o, rfl⟩ | ⟨o, rfl⟩ <;> cases hpe
        | heard => cases he
        | _ =>
            cases List.mem_singleton.1 he
            cases hpe

omit [WorkerInner t I] [DecidableEq t.Owner] [DecidableEq t.ChannelId] in
/-- **What all workers are told** is given to one of them, or waits for one. -/
theorem sum_sentTo {β : Type} (f : WorkerControlIn t.ExtIn t.SCfg → Option β)
    {h : SystemHistory t I n} {k : Nat}
    (hk : ∀ p ∈ h.events.filterMap SystemEvent.toWorker, p.1 < k) :
    ∑ i ∈ Finset.range k, ((sentTo i h).filterMap f : Multiset β) =
      ((h.events.filterMap SystemEvent.toWorker).filterMap (fun p ↦ f p.2) : Multiset β) := by
  rw [Finset.sum_congr rfl fun i _ ↦ congrArg _ (sentTo_filterMap f h i)]
  exact sum_filterMap_key Prod.fst _ fun p hp _ ↦ hk p hp

/-! ## Messages to the outside -/

/-- A message to the outside that the leg of the controller does not refuse, with the
index of its worker: it is safe, or the leg has room for it. -/
def System.keeps (s : System t I n) (p : Nat × Act t) : Option (Nat × t.ExtOut) :=
  p.2.produced.bind fun q ↦
    if q.1 = false ∧ n ≤ (s.workerEventBus.waiting 0).length then none else some (p.1, q.2)

/-- The messages to the outside that are not refused, in the order in which the workers
produce them. -/
def kept (h : SystemHistory t I n) : List (Nat × t.ExtOut) :=
  h.flatMap fun m ↦ (m.events.flatMap SystemEvent.acts).filterMap m.pre.keeps

/-- What `pop_event` has returned. -/
def SystemEvent.output : SystemEvent t I → Option t.ExtOut
  | .popped out => out
  | _ => none

/-- The messages that have come out of `pop_event`, in order. -/
def poppedOut (h : SystemHistory t I n) : List t.ExtOut := h.events.filterMap SystemEvent.output

/-- One message to the controller is refused only where its leg is full. -/
theorem told_messages_step {s s' : System t I n} {op : SystemOp t}
    {events : List (SystemEvent t I)} (hwf : s.Wf) (h : system.step s op = some (s', events)) :
    ((events.filterMap SystemEvent.toController).filterMap Offer.accepted).filterMap
        (·.2.message) =
      ((events.flatMap SystemEvent.acts).filterMap s.keeps).map Prod.snd := by
  obtain ⟨i, w, -, hsays, hacts, hsends⟩ | hnot := worker_or_not hwf h
  · have hkeeps (act : Act t) : s.keeps (i, act) = act.produced.bind fun q ↦
        if q.1 = false ∧ n ≤ (s.workerEventBus.waiting 0).length then none else some (i, q.2) := rfl
    have hproduced : (w.events.map (i, ·)).filterMap s.keeps =
        (w.events.filterMap Act.produced).filterMap fun q ↦
          if q.1 = false ∧ n ≤ (s.workerEventBus.waiting 0).length then none
          else some (i, q.2) := by
      rw [List.filterMap_map, List.filterMap_filterMap]
      exact List.filterMap_congr fun act _ ↦ hkeeps act
    rw [hacts, hproduced, ← hsays.messages]
    have hone := hsays.one
    generalize w.events.filterMap Act.toController = msgs at hone hsends
    generalize events.filterMap SystemEvent.toController = os at hsends
    generalize s'.workerEventBus = bus at hsends
    cases hsends with
    | nil => rfl
    | @cons _ _ _ safe msg msgs o os hsend hs =>
        have hnil : msgs = [] := by simpa using hone
        subst hnil
        cases hs
        obtain ⟨-, -, hmsg, -⟩ := BusSystem.offer_cases hsend
        obtain ⟨hsafe, hfull, hresult, -⟩ | ⟨hroom, ⟨len, hresult⟩, -⟩ :=
          BusSystem.offer_result hsend
        · have hnone : o.accepted = none := by
            simp [Offer.accepted, hresult, Except.isOk, Except.toBool]
          cases hmessage : msg.message <;> simp [hnone, hmessage, hsafe, hfull]
        · have hsome : o.accepted = some (o.source, msg) := by
            simp [Offer.accepted, hresult, hmsg, Except.isOk, Except.toBool]
          have hkeep : ¬ (safe = false ∧ n ≤ (s.workerEventBus.waiting 0).length) := by
            rintro ⟨hsafe, hfull⟩
            rcases hroom with hsafe' | hlt
            · exact Bool.noConfusion (hsafe.symm.trans hsafe')
            · exact absurd hlt (Nat.not_lt.2 hfull)
          cases hmessage : msg.message <;> simp [hsome, hmessage, hkeep]
  · rw [(not_worker hnot).1, (not_worker hnot).2]
    rfl

/-- **The controller is told what is not refused**, in the order in which it is produced. -/
theorem told_messages {h : SystemHistory t I n} {s : System t I n}
    (hr : system.Run .default h s) : (told h).filterMap (·.2.message) = (kept h).map Prod.snd := by
  induction hr with
  | nil => rfl
  | @snoc h m hr hm ih =>
      have hstep : (told [m]).filterMap (·.2.message) = (kept [m]).map Prod.snd := by
        rw [told, kept, History.events_singleton, List.flatMap_singleton]
        exact told_messages_step (wf_of_run hr) hm
      rw [told_append, List.filterMap_append, ih, hstep, kept, kept, kept, List.flatMap_append,
        List.map_append]

omit [WorkerInner t I] [DecidableEq t.Owner] [DecidableEq t.ChannelId] in
/-- One call of `pop_event`. -/
theorem popped_of_popFront (s : System t I n) :
    s.output.popFront.1.toList ++ s.output.popFront.2.toList = s.output.toList := by
  rw [DynamicDeque.popFront_fst (by decide), DynamicDeque.toList_popFront (by decide)]
  cases s.output.toList <;> rfl

/-- What the controller has heard comes out of `pop_event` in its turn. -/
theorem popped_step {s s' : System t I n} {op : SystemOp t} {events : List (SystemEvent t I)}
    (hwf : s.Wf) (h : system.step s op = some (s', events)) :
    events.filterMap SystemEvent.output ++ s'.output.toList =
      s.output.toList ++ ((s.hears op).bind (·.2.message)).toList := by
  have hsame : s.output.toList = s.output.toList ++ [] := (List.append_nil _).symm
  have hdoes : Transition s op s' events := system_transition hwf h
  cases hdoes with
  | turns hhears _ _ hev =>
      rw [hhears]
      rcases hev with rfl | rfl <;> exact hsame
  | popped =>
      have hpop : ([.popped s.output.popFront.1] : List (SystemEvent t I)).filterMap
          SystemEvent.output = s.output.popFront.1.toList := by
        cases hout : s.output.popFront.1 <;> simp [SystemEvent.output]
      rw [hpop]
      exact (popped_of_popFront s).trans hsame
  | told _ _ _ _ hbus =>
      rcases hbus with ⟨hhears, -⟩ | ⟨source, cfg, hhears, -⟩
      · rw [hhears]
        exact hsame
      · rw [hhears]
        exact hsame
  | recorded hi hhears =>
      rw [hhears]
      exact hsame
  | heard hhears =>
      rw [hhears]
      exact DynamicDeque.toList_pushBack ..
  | processed hhears =>
      rw [hhears]
      exact hsame
  | @worker j turn x x' acts events s₂ hx hstep hperf hp =>
      have hnone : events.filterMap SystemEvent.output = [] := by
        rw [List.filterMap_eq_nil_iff]
        intro e he
        rcases hp.events e he with ⟨o, rfl⟩ | ⟨o, rfl⟩ <;> rfl
      have hout : s₂.output = s.output := by
        rw [hp.frame, (s.answer_frame x turn).1]
      rw [List.filterMap_cons, hnone]
      show s₂.output.toList = _
      rw [hout]
      exact hsame
  | _ => exact hsame

theorem popped_append_output {h : SystemHistory t I n} {s : System t I n}
    (hr : system.Run .default h s) :
    poppedOut h ++ s.output.toList = (heard h).filterMap (·.2.message) := by
  induction hr with
  | nil => rfl
  | @snoc h m hr hm ih =>
      have hstep : (heard [m]).filterMap (·.2.message) =
          ((m.pre.hears m.label).bind (·.2.message)).toList := by
        cases hhears : m.pre.hears m.label with
        | none => simp [heard, hhears]
        | some p => cases hp : p.2.message <;> simp [heard, hhears, hp]
      rw [heard_append, List.filterMap_append, ← ih, hstep, List.append_assoc,
        ← popped_step (wf_of_run hr) hm, poppedOut, poppedOut, History.events_append,
        History.events_singleton, List.filterMap_append, List.append_assoc]

omit [WorkerInner t I] [DecidableEq t.Owner] [DecidableEq t.ChannelId] in
/-- Of each worker they are some of those it has produced, in its order. -/
theorem kept_sublist (h : SystemHistory t I n) (i : Nat) :
    List.Sublist (partOf Prod.fst (fun p ↦ some p.2) i (kept h))
      (((SystemHistory.of h i).events.filterMap Act.produced).map Prod.snd) := by
  have hproduced : ((SystemHistory.of h i).events.filterMap Act.produced).map Prod.snd =
      partOf Prod.fst (fun p ↦ p.2.produced.map Prod.snd) i (allActs h) := by
    rw [List.map_filterMap]
    exact filterMap_of _ h i
  rw [hproduced]
  clear hproduced
  induction h with
  | nil => exact .slnil
  | cons m h ih =>
      have hacts : allActs (m :: h) = m.events.flatMap SystemEvent.acts ++ allActs h := by
        rw [← List.singleton_append, allActs_append, allActs, History.events_singleton]
      rw [hacts, kept, List.flatMap_cons, ← kept, partOf_append, partOf_append]
      refine List.Sublist.append ?_ ih
      rw [partOf, partOf, List.filterMap_filterMap]
      refine filterMap_sublist_filterMap (fun p e hp ↦ ?_) _
      obtain ⟨q, hkeeps, hq⟩ := Option.bind_eq_some_iff.1 hp
      obtain ⟨r, hr, hkept⟩ := Option.bind_eq_some_iff.1 hkeeps
      split at hkept
      · cases hkept
      · cases hkept
        split at hq
        · rename_i hi
          cases hq
          simp only [if_pos hi, hr, Option.map_some]
        · cases hq

/-! ## Conservation -/

/-- Nothing is lost or duplicated between the calls of a controller, its workers and what
comes out of it. -/
structure Conserved (h : SystemHistory t I n) (s : System t I n) : Prop where
  /-- Each task that was asked for, from outside or by a worker, waits in the leg of the
  controller, or in that of one worker, or was given to one inner value. -/
  tasks : (h.filterMap (·.label.asked) : Multiset t.SCfg) +
      ∑ i ∈ Finset.range s.workers.length,
        ((SystemHistory.of h i).events.filterMap Act.asked : Multiset t.SCfg) =
    ((s.workerEventBus.waiting 0).filterMap (·.2.task) : Multiset t.SCfg) +
      ∑ i ∈ Finset.range s.workers.length,
        (((s.controlWaiting i).filterMap WorkerControlIn.task : Multiset t.SCfg) +
          ((SystemHistory.of h i).events.filterMap Act.spawned : Multiset t.SCfg))
  /-- Each message that was sent to a worker waits in the leg of one worker, or was given
  to one inner value. -/
  messages : (h.filterMap (fun m ↦ m.pre.sends m.label) : Multiset t.ExtIn) =
    ∑ i ∈ Finset.range s.workers.length,
      (((s.controlWaiting i).filterMap WorkerControlIn.message : Multiset t.ExtIn) +
        ((SystemHistory.of h i).events.filterMap Act.given : Multiset t.ExtIn))
  /-- Each message to the outside that is not refused has come out, or will, in its turn. -/
  outputs : poppedOut h ++ s.output.toList ++
      (s.workerEventBus.waiting 0).filterMap (·.2.message) = (kept h).map Prod.snd
  /-- Its turn is that in which its worker has produced it. -/
  order : ∀ i, List.Sublist (partOf Prod.fst (fun p ↦ some p.2) i (kept h))
    (((SystemHistory.of h i).events.filterMap Act.produced).map Prod.snd)

/-- What waits for the workers and what their inner values were given is what they were
told. -/
theorem sum_given {β : Type} (f : WorkerControlIn t.ExtIn t.SCfg → Option β)
    (g : Act t → Option β) {h : SystemHistory t I n} {s : System t I n}
    (hr : system.Run .default h s)
    (hgiven : ∀ i < s.workers.length, (SystemHistory.of h i).events.filterMap g ++
      (s.controlWaiting i).filterMap f = (sentTo i h).filterMap f) :
    ∑ i ∈ Finset.range s.workers.length, (((s.controlWaiting i).filterMap f : Multiset β) +
        ((SystemHistory.of h i).events.filterMap g : Multiset β)) =
      ((h.events.filterMap SystemEvent.toWorker).filterMap (fun p ↦ f p.2) : Multiset β) := by
  rw [← sum_sentTo f (lt_of_toWorker hr)]
  refine Finset.sum_congr rfl fun i hi ↦ ?_
  rw [← hgiven i (Finset.mem_range.1 hi), add_comm, Multiset.coe_add]

/-- Numbers for everything; an inner value is built from what it asks for. -/
abbrev orderTypes : WorkerTypes := ⟨Nat, Nat, Nat, Nat, Nat, List (Nat ⊕ Bool × Nat), Nat⟩

/-- An inner value that asks for tasks and sends messages to the outside. -/
structure Orders where
  /-- What `pop_output` is to return, one call after the other. -/
  script : List (Nat ⊕ Bool × Nat)

instance : WorkerInner orderTypes Orders where
  build _ script := ⟨script⟩
  tasks i := i.script.length
  isEmpty i := i.script.isEmpty
  spawn i _ _ := i
  onTick i _ := i
  onEvent i _ _ := i
  onShutdown i _ := i
  popOutput i _ := (i.script.head?.map (Sum.elim .spawn fun p ↦ .ext p.1 p.2), ⟨i.script.tail⟩)

/-- A worker asks for a task and sends three messages to the outside, while a task and a
message are sent to the workers. -/
def ordering : List (SystemOp orderTypes) :=
  [.addWorker 10 [.inl 7, .inr (false, 5), .inr (true, 6)] 0, .addWorker 10 [] 0,
    .worker 0 (.clock 0), .worker 0 .run, .worker 0 .run, .worker 0 .run, .worker 0 .run,
    .spawn 3, .sendTo 1 9, .process, .controller, .controller, .controller, .controller,
    .controller, .controller, .popEvent, .worker 1 (.clock 0), .worker 1 .run,
    .worker 1 (.clock 0), .worker 1 .control, .worker 1 .run, .worker 1 .control]

/-- What comes of it. -/
def ordered : SystemHistory orderTypes Orders 1 × System orderTypes Orders 1 :=
  (system.exec .default ordering).get (by decide +kernel)

end SansIo
