import SansIo.Worker.Basic

/-!
# What a step of a worker does

`worker_cases` reads the branches of `Worker.step` back as a relation with one
constructor a branch; the lemmas after it say what the steps do to one part of the
worker: the calls of its inner value, its hub, and the message it is delivering.
-/

namespace SansIo

open Lib Bus Backend

variable {t : WorkerTypes} {I : Type} [WorkerInner t I] [DecidableEq t.Owner]
  [DecidableEq t.ChannelId]

/-- What a worker does under an answer: the state after it, and its acts. -/
inductive WorkerDoes (x : Worker t I) : Answer t → Worker t I → List (Act t) → Prop
  | init {now} (hp : x.popping = false) (hpc : x.pc = .start) :
      WorkerDoes x (.clock now) { x with now, pc := .idle, popping := true } []
  | cycle {now} (hp : x.popping = false) (hpc : x.pc = .idle) :
      WorkerDoes x (.clock now) { x with now, pc := .control } []
  | ext {ext} (hp : x.popping = false) (hpc : x.pc = .control) :
      WorkerDoes x (.control (some (.ext ext)))
        { x.call (.onEvent (.ext ext)) with popping := true } [.input (.onEvent (.ext ext))]
  | spawn {cfg} (hp : x.popping = false) (hpc : x.pc = .control) :
      WorkerDoes x (.control (some (.spawn cfg))) (x.call (.spawn cfg)) [.input (.spawn cfg)]
  | statsRequest (hp : x.popping = false) (hpc : x.pc = .control) :
      WorkerDoes x (.control (some .statsRequest)) { x with pc := .reply } []
  | reply (hp : x.popping = false) (hpc : x.pc = .reply) :
      WorkerDoes x .run { x with pc := .control } [.workerOut true (.stats x.stats)]
  | shutdown (hp : x.popping = false) (hpc : x.pc = .control) :
      WorkerDoes x (.control (some .shutdown)) (x.call .onShutdown) [.input .onShutdown]
  | controlled (hp : x.popping = false) (hpc : x.pc = .control) :
      WorkerDoes x (.control none) { x with pc := .tick } []
  | tick (hp : x.popping = false) (hpc : x.pc = .tick) (hdue : x.tickDue) :
      WorkerDoes x .run
        { { x with lastTick := x.now, pc := .poll }.call .onTick with popping := true }
        [.input .onTick]
  | notDue (hp : x.popping = false) (hpc : x.pc = .tick) (hdue : ¬ x.tickDue) :
      WorkerDoes x .run { x with pc := .poll } []
  | poll {d} (hp : x.popping = false) (hpc : x.pc = .poll) :
      WorkerDoes x (.elapsed d) { x with pc := .incoming } [.pollIncoming (Worker.remainTime d)]
  | woken (hp : x.popping = false) (hpc : x.pc = .incoming) :
      WorkerDoes x (.incoming (some .awake)) { x with pc := .awake } []
  | net {owner event} (hp : x.popping = false) (hpc : x.pc = .incoming) :
      WorkerDoes x (.incoming (some (.event owner event)))
        { x.call (.onEvent (.net owner event)) with popping := true }
        [.input (.onEvent (.net owner event))]
  | polled (hp : x.popping = false) (hpc : x.pc = .incoming) :
      WorkerDoes x (.incoming none) { x with pc := .idle }
        [.finishIncomingCycle, .finishOutgoingCycle]
  | receive {leg c ev subs} (hp : x.popping = false) (hpc : x.pc = .awake)
      (hc : x.busLocalHub.getSubscribers c = some subs) :
      WorkerDoes x (.bus (some (.channel leg c, ev))) { x with pc := .deliver subs c ev } []
  | ignore {leg c ev} (hp : x.popping = false) (hpc : x.pc = .awake)
      (hc : x.busLocalHub.getSubscribers c = none) :
      WorkerDoes x (.bus (some (.channel leg c, ev))) x []
  | broadcast {leg ev} (hp : x.popping = false) (hpc : x.pc = .awake) :
      WorkerDoes x (.bus (some (.broadcast leg, ev)))
        { x.call (.onEvent (.bus (.broadcast (.ofNat leg) ev))) with popping := true }
        [.input (.onEvent (.bus (.broadcast (.ofNat leg) ev)))]
  | invalid {source ev} (hp : x.popping = false) (hpc : x.pc = .awake)
      (hs : source = .external ∨ ∃ leg, source = .direct leg) :
      WorkerDoes x (.bus (some (source, ev))) { x with pc := .panicked } []
  | drained (hp : x.popping = false) (hpc : x.pc = .awake) :
      WorkerDoes x (.bus none) { x with pc := .incoming } []
  | deliver {o subs c ev} (hp : x.popping = false) (hpc : x.pc = .deliver (o :: subs) c ev) :
      WorkerDoes x .run
        { { x with pc := .deliver subs c ev }.call (.onEvent (.bus (.channel o c ev))) with
          popping := true }
        [.input (.onEvent (.bus (.channel o c ev)))]
  | delivered {c ev} (hp : x.popping = false) (hpc : x.pc = .deliver [] c ev) :
      WorkerDoes x .run { x with pc := .awake } []
  | pop {out inner} (hp : x.popping = true)
      (hout : WorkerInner.popOutput x.inner x.now = (some out, inner)) :
      WorkerDoes x .run ({ x with inner }.processInnerOutput out).1
        (.popOutput (some out) :: ({ x with inner }.processInnerOutput out).2)
  | popped {inner} (hp : x.popping = true)
      (hout : WorkerInner.popOutput x.inner x.now = (none, inner)) :
      WorkerDoes x .run { x with inner, popping := false } [.popOutput none]

/-- **Every step of a worker is one of these.** -/
theorem worker_cases {x x' : Worker t I} {a : Answer t} {acts : List (Act t)}
    (h : worker.step x a = some (x', acts)) : WorkerDoes x a x' acts := by
  simp only [worker, Worker.step] at h
  split at h
  · rename_i hp
    split at h
    · simp only [Worker.popInner] at h
      split at h
      · rename_i hout
        cases h
        exact .pop hp hout
      · rename_i hout
        cases h
        exact .popped hp hout
    · cases h
  · rename_i hp
    replace hp : x.popping = false := by simpa using hp
    split at h
    · cases h
      exact .init hp ‹_›
    · cases h
      exact .cycle hp ‹_›
    · rename_i msg hpc
      rcases msg with _ | (ext | cfg | _ | _)
      all_goals cases h
      · exact .controlled hp hpc
      · exact .ext hp hpc
      · exact .spawn hp hpc
      · exact .statsRequest hp hpc
      · exact .shutdown hp hpc
    · cases h
      exact .reply hp ‹_›
    · rename_i hpc
      simp only [Worker.onTick] at h
      split at h
      · cases h
        exact .tick hp hpc ‹_›
      · cases h
        exact .notDue hp hpc ‹_›
    · cases h
      exact .poll hp ‹_›
    · rename_i event hpc
      rcases event with _ | (⟨owner, event⟩ | _)
      all_goals cases h
      · exact .polled hp hpc
      · exact .net hp hpc
      · exact .woken hp hpc
    · rename_i msg hpc
      rcases msg with _ | ⟨⟨leg, c⟩ | leg | leg | _, ev⟩
      · cases h
        exact .drained hp hpc
      · simp only [Worker.onAwake] at h
        split at h
        · cases h
          exact .receive hp hpc ‹_›
        · cases h
          exact .ignore hp hpc ‹_›
      · cases h
        exact .broadcast hp hpc
      · cases h
        exact .invalid hp hpc (.inr ⟨leg, rfl⟩)
      · cases h
        exact .invalid hp hpc (.inl rfl)
    · rename_i subs c ev hpc
      cases subs with
      | nil =>
          cases h
          exact .delivered hp hpc
      | cons o subs =>
          cases h
          exact .deliver hp hpc
    · cases h

end SansIo
