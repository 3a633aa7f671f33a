import Mathlib.Data.List.Chain
import SansIo.Worker.Steps

/-!
# When a worker ticks

A call of `process` asks the clock once, and tests once whether a tick is due by what the
clock said.  `Worker::new` sets `last_tick` two ticks back, so that the first call ticks.

`dueTicks` is what the tests come to, for any list of times: which of them tick.
`ticking_of_run` says that a worker ticks at these times and at no others, under every
clock, and that a call tests and polls once.  Two ticks are never closer than `tick`; with a
clock that does not go back, no test comes more than `tick` after the last tick without
ticking itself.
-/

namespace SansIo

open Lib Bus Backend

variable {t : WorkerTypes} {I : Type}

/-- The times among these at which a tick is due, after a last one. -/
def dueTicks (tick : Nat) : Instant → List Instant → List Instant
  | _, [] => []
  | last, now :: rest =>
    if tick ≤ (now - last).toNat then now :: dueTicks tick now rest else dueTicks tick last rest

/-- The last tick of some. -/
def lastTickOf (first : Instant) (ticks : List Instant) : Instant := ticks.getLastD first

theorem lastTickOf_append (first : Instant) (ticks ticks' : List Instant) :
    lastTickOf first (ticks ++ ticks') = lastTickOf (lastTickOf first ticks) ticks' := by
  cases h : ticks'.getLast? <;>
    simp [lastTickOf, List.getLastD_eq_getLast?, List.getLast?_append, h]

theorem dueTicks_snoc (tick : Nat) (last now : Instant) (times : List Instant) :
    dueTicks tick last (times ++ [now]) = dueTicks tick last times ++
      if tick ≤ (now - lastTickOf last (dueTicks tick last times)).toNat then [now] else [] := by
  induction times generalizing last with
  | nil => simp [dueTicks, lastTickOf]
  | cons time times ih =>
      rw [List.cons_append, dueTicks, dueTicks]
      by_cases hdue : tick ≤ (time - last).toNat
      · rw [if_pos hdue, if_pos hdue, ih, List.cons_append]
        simp [lastTickOf, List.getLastD_eq_getLast?, List.getLast?_cons]
      · rw [if_neg hdue, if_neg hdue, ih]

/-- Two ticks are at least one tick apart. -/
theorem spaced_dueTicks (tick : Nat) (last : Instant) (times : List Instant) :
    (last :: dueTicks tick last times).IsChain fun a b ↦ tick ≤ (b - a).toNat := by
  induction times generalizing last with
  | nil => exact .singleton last
  | cons time times ih =>
      rw [dueTicks]
      split
      · rename_i hdue
        exact .cons_cons hdue (ih time)
      · exact ih last

/-- The step tests whether a tick is due, by a time. -/
def testedAt (m : WorkerMoment t I) : Option Instant :=
  if m.pre.popping then none else match m.pre.pc with
    | .tick => some m.pre.now
    | _ => none

/-- The step begins a call of `process`, at a time. -/
def startedAt (m : WorkerMoment t I) : Option Instant :=
  match m.label with
  | .clock now => match m.pre.pc with
    | .idle => some now
    | _ => none
  | _ => none

/-- The act is a tick. -/
def Act.isTick : Act t → Bool
  | .input .onTick => true
  | _ => false

/-- The act is a poll of the backend. -/
def Act.isPoll : Act t → Bool
  | .pollIncoming _ => true
  | _ => false

/-- The times of the tests of a history. -/
def testTimes (h : WorkerHistory t I) : List Instant := h.filterMap testedAt

/-- The times at which its calls of `process` began. -/
def callTimes (h : WorkerHistory t I) : List Instant := h.filterMap startedAt

/-- The times of its ticks. -/
def tickTimes (h : WorkerHistory t I) : List Instant :=
  h.flatMap fun m ↦ List.replicate (m.events.countP Act.isTick) m.pre.now

/-- How often it has polled the backend. -/
def pollCount (h : WorkerHistory t I) : Nat := h.events.countP Act.isPoll

@[simp] theorem testTimes_append (h h' : WorkerHistory t I) :
    testTimes (h ++ h') = testTimes h ++ testTimes h' := List.filterMap_append

@[simp] theorem callTimes_append (h h' : WorkerHistory t I) :
    callTimes (h ++ h') = callTimes h ++ callTimes h' := List.filterMap_append

@[simp] theorem tickTimes_append (h h' : WorkerHistory t I) :
    tickTimes (h ++ h') = tickTimes h ++ tickTimes h' := List.flatMap_append

@[simp] theorem pollCount_append (h h' : WorkerHistory t I) :
    pollCount (h ++ h') = pollCount h + pollCount h' := by
  simp [pollCount, List.countP_append]

theorem testTimes_singleton (m : WorkerMoment t I) : testTimes [m] = (testedAt m).toList := by
  cases h : testedAt m <;> simp [testTimes, h]

theorem testedAt_of_popping {m : WorkerMoment t I} (h : m.pre.popping = true) :
    testedAt m = none := if_pos h

/-- The call of `process` that has not come to its test. -/
def Worker.untested (x : Worker t I) : List Instant :=
  match x.pc with
  | .control | .reply | .tick => [x.now]
  | _ => []

/-- The call of `process` that has not come to its poll. -/
def Worker.unpolled (x : Worker t I) : Nat :=
  match x.pc with
  | .poll => 1
  | _ => 0

section Output

variable [DecidableEq t.Owner] [DecidableEq t.ChannelId]

/-- Passing on an output is no tick and no poll. -/
theorem processInnerOutput_quiet (x : Worker t I) (out : WorkerInnerOutput t) :
    (x.processInnerOutput out).2.countP Act.isTick = 0 ∧
      (x.processInnerOutput out).2.countP Act.isPoll = 0 := by
  have hpassed := x.passedOn out
  generalize (x.processInnerOutput out).2 = acts at hpassed
  cases hpassed <;> exact ⟨rfl, rfl⟩

end Output

variable [DecidableEq t.Owner] [DecidableEq t.ChannelId] [WorkerInner t I]

/-- What a step does to the clock of a worker. -/
structure ClockStep (m : WorkerMoment t I) : Prop where
  /-- The interval stays. -/
  tick : m.post.tick = m.pre.tick
  /-- A call of `process` comes to its test. -/
  tests : m.pre.untested ++ callTimes [m] = testTimes [m] ++ m.post.untested
  /-- A test is followed by a poll. -/
  polls : m.pre.unpolled + (testTimes [m]).length = pollCount [m] + m.post.unpolled
  /-- A test ticks if a tick is due. -/
  ticks : tickTimes [m] =
    (testTimes [m]).filter fun now ↦ m.pre.tick ≤ (now - m.pre.lastTick).toNat
  /-- A tick is remembered. -/
  remembers : m.post.lastTick = lastTickOf m.pre.lastTick (tickTimes [m])

theorem clock_step {m : WorkerMoment t I} (hm : worker.Fires m) : ClockStep m := by
  obtain ⟨pre, a, acts, post⟩ := m
  have hdoes : WorkerDoes pre a post acts := worker_cases hm
  cases hdoes
  case pop out inner hp hout =>
    obtain ⟨htick, hpoll⟩ := processInnerOutput_quiet { pre with inner } out
    rw [← List.countP_cons_of_neg (a := Act.popOutput (some out)) Bool.false_ne_true]
      at htick hpoll
    rw [Worker.processInnerOutput_eq]
    generalize Act.popOutput (some out) :: ({ pre with inner }.processInnerOutput out).2 = acts
      at htick hpoll
    constructor
    · rfl
    · simp [callTimes, startedAt, testTimes_singleton, testedAt_of_popping, Worker.untested, hp]
    · simp [testTimes_singleton, testedAt_of_popping, pollCount, Worker.unpolled, hp, hpoll]
    · simp [testTimes_singleton, testedAt_of_popping, tickTimes, hp, htick]
    · simp [tickTimes, lastTickOf, htick]
  all_goals
    constructor <;>
      simp_all [callTimes, testTimes, tickTimes, pollCount, startedAt, testedAt, Worker.untested,
        Worker.unpolled, lastTickOf, Act.isTick, Act.isPoll, Worker.call, Worker.tickDue]

/-- How a worker has ticked, after a run that began with the creation of the worker. -/
structure Ticking (first : Instant) (tick : Nat) (h : WorkerHistory t I) (x : Worker t I) :
    Prop where
  /-- It has ticked at the tests that were due, and at no other time. -/
  ticked : tickTimes h = dueTicks tick (first - 2 * tick) (testTimes h)
  /-- A call of `process` tests once, by the time at which it began. -/
  tested : callTimes h = testTimes h ++ x.untested
  /-- And it polls once, after that. -/
  polled : (testTimes h).length = pollCount h + x.unpolled
  /-- Two ticks are at least one tick apart. -/
  spaced : (tickTimes h).IsChain fun a b ↦ tick ≤ (b - a).toNat
  /-- The first test ticks, unless the clock has gone back. -/
  prompt : ∀ now rest, testTimes h = now :: rest → first ≤ now →
    (tickTimes h).head? = some now

/-- **A worker ticks when it is due**, whatever the clock says, what it is told and what its
inner value does. -/
theorem ticking_of_run {first : Instant} {tick : Nat} {inner : I} {i j k : Nat}
    {h : WorkerHistory t I} {x : Worker t I}
    (hr : worker.Run (.new first tick inner i j k) h x) : Ticking first tick h x := by
  have hall : x.tick = tick ∧ callTimes h = testTimes h ++ x.untested ∧
      (testTimes h).length = pollCount h + x.unpolled ∧
      tickTimes h = dueTicks tick (first - 2 * tick) (testTimes h) ∧
      x.lastTick = lastTickOf (first - 2 * tick) (tickTimes h) := by
    induction hr with
    | nil => exact ⟨rfl, rfl, rfl, rfl, rfl⟩
    | @snoc h m hr hm ih =>
        obtain ⟨htick, hstarted, hpolled, hticked, hlast⟩ := ih
        obtain ⟨htick', htests, hpolls, hticks, hremembers⟩ := clock_step hm
        refine ⟨htick'.trans htick, ?_, ?_, ?_, ?_⟩
        · rw [callTimes_append, testTimes_append, hstarted, List.append_assoc, htests,
            List.append_assoc]
        · rw [testTimes_append, pollCount_append, List.length_append]
          omega
        · rw [tickTimes_append, testTimes_append, hticks, htick, hlast, hticked,
            testTimes_singleton]
          cases htested : testedAt m with
          | none => simp
          | some now => simp [dueTicks_snoc, List.filter_cons]
        · rw [tickTimes_append, hremembers, hlast, lastTickOf_append]
  obtain ⟨-, hstarted, hpolled, hticked, -⟩ := hall
  refine ⟨hticked, hstarted, hpolled, ?_, ?_⟩
  · rw [hticked]
    exact (spaced_dueTicks tick (first - 2 * tick) (testTimes h)).tail
  · intro now rest htested hle
    have hdue : tick ≤ (now - (first - 2 * tick) : Int).toNat := by
      have hforward : (0 : Int) ≤ now - first := Int.sub_nonneg_of_le hle
      omega
    rw [hticked, htested, dueTicks, if_pos hdue]
    rfl

/-- `init`, and three calls of `process`, at 5, 9 and 16. -/
def threeCalls : List (Answer plainTypes) :=
  [.clock 0, .run, .clock 5, .control none, .run, .run, .elapsed 0, .incoming none, .clock 9,
    .control none, .run, .elapsed 0, .incoming none, .clock 16, .control none, .run, .run]

/-- What comes of it, in steps of 10. -/
def afterThreeCalls : WorkerHistory plainTypes Scripted × Worker plainTypes Scripted :=
  (worker.exec (scriptedWorker []) threeCalls).get rfl

/-- The theorem there. -/
theorem ticking_of_run_three :
    testTimes afterThreeCalls.1 = [5, 9, 16] ∧ tickTimes afterThreeCalls.1 = [5, 16] ∧
      Ticking 0 10 afterThreeCalls.1 afterThreeCalls.2 :=
  ⟨rfl, rfl, ticking_of_run (Machine.exec_run_get rfl)⟩

end SansIo
