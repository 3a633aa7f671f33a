import SansIo.Worker.Steps

/-!
# Draining a worker's inner value between inputs

"We need to pop the output before we can receive the next input" (`README.md`,
*Design*).  `DrainsBetween` says so of the acts of a run.  A worker keeps to it after
every input but two: the branches of `process` for `Spawn` and `Shutdown` do not call
`pop_inner`, as the branch for `Ext` beside them does, so that the next input, whatever
it is, meets an inner value that has not been drained
(`not_always_drained`).  `drains_iff` says that these are the only ones.
-/

namespace SansIo

open Lib Bus Backend

variable {t : WorkerTypes} {I : Type}

/-- Between two inputs there is a call of `pop_output` that returned nothing. -/
def DrainsBetween (acts : List (Act t)) : Prop :=
  ∀ before c between c' after,
    acts = before ++ .input c :: between ++ .input c' :: after → .popOutput none ∈ between

/-- The inner value has been given an input since it was last drained. -/
def Undrained (acts : List (Act t)) : Prop :=
  Since (fun a ↦ a ≠ .popOutput none) (fun a ↦ ∃ c, a = .input c) acts

/-- The acts of a step have no part in the protocol. -/
def Neutral (acts : List (Act t)) : Prop :=
  ∀ a ∈ acts, a ≠ .popOutput none ∧ ∀ c, a ≠ .input c

/-- A run that drains before each input does so up to its last act, which is no input
if the inner value is pending. -/
theorem drainsBetween_snoc {acts : List (Act t)} {a : Act t} :
    DrainsBetween (acts ++ [a]) ↔
      DrainsBetween acts ∧ ∀ c, a = .input c → ¬ Undrained acts := by
  constructor
  · intro h
    refine ⟨fun before c between c' after he ↦ ?_, ?_⟩
    · exact h before c between c' (after ++ [a]) (by simp [he])
    · rintro c' rfl ⟨before, _, between, rfl, ⟨c, rfl⟩, hnot⟩
      exact hnot _ (h before c between c' [] rfl) rfl
  · rintro ⟨h, hlast⟩ before c between c' after he
    induction after using List.reverseRecOn with
    | nil =>
        obtain ⟨hacts, ha⟩ := List.append_inj' he rfl
        obtain rfl : a = .input c' := by simpa using ha
        by_contra hnot
        exact hlast c' rfl ⟨before, _, between, hacts, ⟨c, rfl⟩, fun b hb hbn ↦ hnot (hbn ▸ hb)⟩
    | append_singleton after b _ =>
        rw [← List.cons_append, ← List.append_assoc] at he
        obtain ⟨hacts, -⟩ := List.append_inj' he rfl
        exact h before c between c' after hacts

/-- Acts that have no part in the protocol do not change where it stands. -/
theorem drains_append_neutral {acts acts' : List (Act t)} (hn : Neutral acts') :
    (DrainsBetween (acts ++ acts') ↔ DrainsBetween acts) ∧
      (Undrained (acts ++ acts') ↔ Undrained acts) := by
  induction acts' using List.reverseRecOn with
  | nil => simp
  | append_singleton acts' a ih =>
      obtain ⟨ihd, ihp⟩ := ih fun b hb ↦ hn b (by simp [hb])
      obtain ⟨hpop, hin⟩ := hn a (by simp)
      rw [← List.append_assoc]
      constructor
      · rw [drainsBetween_snoc, ihd]
        constructor
        · rintro ⟨h, -⟩
          exact h
        · intro h
          exact ⟨h, fun c hc ↦ absurd hc (hin c)⟩
      · unfold Undrained at *
        rw [since_snoc, ihp]
        exact ⟨fun h ↦ h.elim (fun ⟨c, hc⟩ ↦ absurd hc (hin c)) And.right,
          fun h ↦ .inr ⟨hpop, h⟩⟩

/-- The step acts on a `Spawn` or a `Shutdown` of the control bus. -/
def SpawnOrShutdown (m : WorkerMoment t I) : Prop :=
  (∃ cfg, m.label = .control (some (.spawn cfg))) ∨ m.label = .control (some .shutdown)

/-- The step has an input for the inner value: a message of the control bus, a tick
that is due, an event of the backend, a broadcast, or the copy of a message for a
subscriber. -/
def GivesInput (m : WorkerMoment t I) : Prop :=
  m.pre.popping = false ∧ match m.pre.pc, m.label with
    | .control, .control (some (.ext _)) => True
    | .control, .control (some (.spawn _)) => True
    | .control, .control (some .shutdown) => True
    | .tick, .run => m.pre.tickDue
    | .incoming, .incoming (some (.event _ _)) => True
    | .awake, .bus (some (.broadcast _, _)) => True
    | .deliver (_ :: _) _ _, .run => True
    | _, _ => False

/-- A worker as `Worker::new` returns it. -/
def Fresh (x : Worker t I) : Prop := x.pc = .start ∧ x.popping = false

theorem fresh_new (now : Instant) (tick : Nat) (inner : I) (i j k : Nat) :
    Fresh (.new now tick inner i j k : Worker t I) := ⟨rfl, rfl⟩

/-- A `Spawn` or a `Shutdown` was the last input. -/
def LastSpawnOrShutdown (h : WorkerHistory t I) : Prop :=
  Since (fun m ↦ ¬ GivesInput m) SpawnOrShutdown h

/-- No input follows a `Spawn` or a `Shutdown`. -/
def SpawnAndShutdownLast (h : WorkerHistory t I) : Prop :=
  ∀ h₁ m h₂, h = h₁ ++ m :: h₂ → SpawnOrShutdown m → ∀ m' ∈ h₂, ¬ GivesInput m'

theorem spawnAndShutdownLast_snoc {h : WorkerHistory t I} {m : WorkerMoment t I} :
    SpawnAndShutdownLast (h ++ [m]) ↔
      SpawnAndShutdownLast h ∧ (GivesInput m → ¬ LastSpawnOrShutdown h) := by
  constructor
  · intro hl
    refine ⟨fun h₁ k h₂ he hk m' hm' ↦ ?_, ?_⟩
    · exact hl h₁ k (h₂ ++ [m]) (by simp [he]) hk m' (by simp [hm'])
    · rintro hg ⟨h₁, k, h₂, rfl, hk, -⟩
      exact hl h₁ k (h₂ ++ [m]) (by simp) hk m (by simp) hg
  · rintro ⟨hl, hlast⟩ h₁ k h₂ he hk m' hm'
    induction h₂ using List.reverseRecOn with
    | nil => cases hm'
    | append_singleton h₂ k' _ =>
        rw [← List.cons_append, ← List.append_assoc] at he
        obtain ⟨rfl, hk'⟩ := List.append_inj' he rfl
        obtain rfl : m = k' := by simpa using hk'
        rcases List.mem_append.mp hm' with hm' | hm'
        · exact hl h₁ k h₂ rfl hk m' hm'
        · obtain rfl : m' = m := by simpa using hm'
          exact fun hg ↦ hlast hg ⟨h₁, k, h₂, rfl, hk, hl h₁ k h₂ rfl hk⟩

/-! ## What a step does to the protocol -/

variable [DecidableEq t.Owner] [DecidableEq t.ChannelId]

/-- What `process_inner_output` does has no part in the protocol. -/
theorem neutral_processInnerOutput (x : Worker t I) (out : WorkerInnerOutput t) :
    Neutral (.popOutput (some out) :: (x.processInnerOutput out).2) := by
  intro a ha
  rcases List.mem_cons.mp ha with rfl | ha
  · simp
  · obtain ⟨hin, hpop, -⟩ := x.processInnerOutput_acts out ha
    exact ⟨hpop none, hin⟩

variable [WorkerInner t I]

/-- A step pops an output; drains the inner value; gives it an input, from where it is
not popping, and pops it next unless the input was a `Spawn` or a `Shutdown`; or has no
part in the protocol. -/
theorem protocol_cases {m : WorkerMoment t I} (hm : worker.Fires m) :
    (m.pre.popping = true ∧ m.post.popping = true ∧ Neutral m.events ∧
        ¬ GivesInput m ∧ ¬ SpawnOrShutdown m) ∨
    (m.pre.popping = true ∧ m.post.popping = false ∧ m.events = [.popOutput none] ∧
      ¬ GivesInput m ∧ ¬ SpawnOrShutdown m) ∨
    (m.pre.popping = false ∧ (∃ c, m.events = [.input c]) ∧ GivesInput m ∧
      (m.post.popping = false ↔ SpawnOrShutdown m)) ∨
    (m.pre.popping = false ∧ Neutral m.events ∧ ¬ GivesInput m ∧ ¬ SpawnOrShutdown m ∧
      (m.post.popping = false ∨ m.pre.pc = .start)) := by
  obtain ⟨pre, a, acts, post⟩ := m
  have hdoes : WorkerDoes pre a post acts := worker_cases hm
  cases hdoes
  case pop out inner hp hout =>
    have hn := neutral_processInnerOutput { pre with inner } out
    exact .inl ⟨hp, by simpa using hp, hn, by simp [GivesInput, hp], by simp [SpawnOrShutdown]⟩
  case invalid source ev hp hpc hs =>
    rcases hs with rfl | ⟨leg, rfl⟩ <;> simp [Neutral, GivesInput, SpawnOrShutdown, hp, hpc]
  all_goals simp_all [Neutral, GivesInput, SpawnOrShutdown]

/-- Where a step has an input, it gives it to the inner value, and nowhere else. -/
theorem givesInput_iff {m : WorkerMoment t I} (hm : worker.Fires m) :
    GivesInput m ↔ ∃ c, .input c ∈ m.events := by
  obtain ⟨-, -, hn, hg, -⟩ | ⟨-, -, hev, hg, -⟩ | ⟨-, ⟨c, hev⟩, hg, -⟩ | ⟨-, hn, hg, -, -⟩ :=
    protocol_cases hm
  · exact iff_of_false hg fun ⟨c, hc⟩ ↦ (hn _ hc).2 c rfl
  · simp [hg, hev]
  · exact iff_of_true hg ⟨c, by simp [hev]⟩
  · exact iff_of_false hg fun ⟨c, hc⟩ ↦ (hn _ hc).2 c rfl

/-- Nothing has happened to a worker that stands before `init`. -/
theorem nil_of_start {x₀ x : Worker t I} {h : WorkerHistory t I} (hr : worker.Run x₀ h x)
    (h₀ : Fresh x₀) (hpc : x.pc = .start) : h = [] ∧ x.popping = false := by
  induction hr with
  | nil => exact ⟨rfl, h₀.2⟩
  | @snoc h m hr hm ih =>
      obtain ⟨pre, a, acts, post⟩ := m
      have hdoes : WorkerDoes pre a post acts := worker_cases hm
      cases hdoes <;> simp_all

/-- After a `Spawn` or a `Shutdown` the worker goes on without popping; and where it
does not pop, its inner value is undrained exactly if one of these was the last input. -/
theorem undrained_iff {x₀ x : Worker t I} {h : WorkerHistory t I} (hr : worker.Run x₀ h x)
    (h₀ : Fresh x₀) :
    (LastSpawnOrShutdown h → x.popping = false) ∧
      (x.popping = false → (Undrained h.events ↔ LastSpawnOrShutdown h)) := by
  induction hr with
  | nil => simp [LastSpawnOrShutdown, Undrained, h₀.2]
  | @snoc h m hr hm ih =>
      obtain ⟨ihp, ihu⟩ := ih
      unfold LastSpawnOrShutdown at *
      rw [since_snoc, History.events_append, History.events_singleton]
      obtain ⟨hpre, hpost, hn, hg, hs⟩ | ⟨hpre, hpost, hev, hg, hs⟩ |
        ⟨hpre, ⟨c, hev⟩, hg, hpost⟩ | ⟨hpre, hn, hg, hs, hpost⟩ := protocol_cases hm
      · -- an output: the worker was popping, so the last input was another one
        have hlast : ¬ LastSpawnOrShutdown h := fun hl ↦ by simp [ihp hl] at hpre
        constructor
        · intro hl
          exact absurd (hl.resolve_left hs).2 hlast
        · intro hp
          simp [hpost] at hp
      · have hlast : ¬ LastSpawnOrShutdown h := fun hl ↦ by simp [ihp hl] at hpre
        refine ⟨fun _ ↦ hpost, fun _ ↦ ?_⟩
        constructor
        · intro hu
          rw [hev] at hu
          simp [Undrained, since_snoc] at hu
        · intro hl
          exact absurd (hl.resolve_left hs).2 hlast
      · constructor
        · intro hl
          exact hpost.mpr (hl.resolve_right fun h' ↦ h'.1 hg)
        · intro hp
          have hu : Undrained (h.events ++ m.events) := by
            rw [hev]
            exact since_snoc.mpr (.inl ⟨c, rfl⟩)
          exact iff_of_true hu (.inl (hpost.mp hp))
      · rw [(drains_append_neutral hn).2]
        constructor
        · intro hl
          rcases hpost with hpost | hstart
          · exact hpost
          · obtain ⟨rfl, -⟩ := nil_of_start hr h₀ hstart
            exact absurd (hl.resolve_left hs).2 not_since_nil
        · intro
          exact (ihu hpre).trans (by simp [hs, hg])

/-- **A run of a worker drains between inputs exactly if no input follows a `Spawn` or
a `Shutdown`.** -/
theorem drains_iff {now : Instant} {tick : Nat} {inner : I} {i j k : Nat} {x : Worker t I}
    {h : WorkerHistory t I} (hr : worker.Run (.new now tick inner i j k) h x) :
    DrainsBetween h.events ↔ SpawnAndShutdownLast h := by
  induction hr with
  | nil => simp [DrainsBetween, SpawnAndShutdownLast]
  | @snoc h m hr hm ih =>
      rw [spawnAndShutdownLast_snoc, ← ih, History.events_append, History.events_singleton]
      obtain ⟨-, -, hn, hg, -⟩ | ⟨-, -, hev, hg, -⟩ | ⟨hpre, ⟨c, hev⟩, hg, -⟩ |
        ⟨-, hn, hg, -, -⟩ := protocol_cases hm
      · simp [(drains_append_neutral hn).1, hg]
      · simp [hev, drainsBetween_snoc, hg]
      · have hu := (undrained_iff hr (fresh_new ..)).2 hpre
        simp [hev, drainsBetween_snoc, hg, hu]
      · simp [(drains_append_neutral hn).1, hg]

/-- The theorem at a worker that is sent a message, drains it, and is then asked to
spawn a task. -/
theorem drains_iff_spawn_last :
    ∃ h x, worker.Run (scriptedWorker []) h x ∧
      (∃ m ∈ h, SpawnOrShutdown m) ∧
      (DrainsBetween h.events ↔ SpawnAndShutdownLast h) :=
  have hr := Machine.exec_run (M := worker (t := plainTypes)) (s := scriptedWorker [])
    (l := [.clock 0, .run, .clock 1, .control (some (.ext 7)), .run,
      .control (some (.spawn ()))]) rfl
  ⟨_, _, hr, ⟨_, .tail _ (.tail _ (.tail _ (.tail _ (.tail _ (.head _))))), .inl ⟨(), rfl⟩⟩,
    drains_iff hr⟩

/-- **The inner value is not always drained.**  A `Spawn` and an `Ext` wait in the
control leg: the inner value is given the second with the outputs of the first still in
it. -/
theorem not_always_drained :
    ¬ ∀ h x, worker.Run (scriptedWorker []) h x →
      DrainsBetween h.events := by
  intro hall
  have hr := Machine.exec_run (M := worker (t := plainTypes)) (s := scriptedWorker [])
    (l := [.clock 0, .run, .clock 1, .control (some (.spawn ())),
      .control (some (.ext 7))]) rfl
  have hmem := hall _ _ hr [.popOutput none] (.spawn ()) [] (.onEvent (.ext 7)) [] rfl
  cases hmem

end SansIo
