import SansIo.Bus.Leg
import SansIo.Lib.Machine

/-!
# Wake-ups of a bus leg

The machine `leg` lets any number of senders, the receiver and `set_awaker`
interleave on one leg, from the empty leg that `BusSystemBuilder::new_worker`
registers.  Its events are the calls of `awake()`.

An awaker is called on an edge: when a push finds the queue empty.
`awokenSinceEmpty_iff` turns "`awake()` has been called since the queue was last
empty" into a statement about that edge, namely who was installed when it
happened.  Installing an awaker is not an edge.  A receiver that installs one
while messages are waiting is therefore not woken for them, and neither is it for
later ones, since those find the queue non-empty: `not_always_awoken`.  A run
loses no wake-up exactly when it has no such installation
(`awoken_iff_timelyInstall`).
-/

namespace SansIo.Bus

open SansIo.Lib SansIo.Collections

variable {ChannelId MSG Awk : Type} {n : Nat}

/-- What can happen to a leg. -/
inductive LegOp (ChannelId MSG Awk : Type) where
  | send (source : BusEventSource ChannelId) (safe : Bool) (msg : MSG)
  | sendSafe (source : BusEventSource ChannelId) (msg : MSG)
  | recv
  | setAwaker (awaker : Awk)

/-- One leg under every interleaving of its operations.  The events are the
awakers called. -/
def leg : Machine (QueueInternal ChannelId MSG Awk n) (LegOp ChannelId MSG Awk) Awk where
  step q
    | .send source safe msg => some (q.send source safe msg).2
    | .sendSafe source msg => some (q.sendSafe source msg).2
    | .recv => some (q.recv.2, [])
    | .setAwaker awaker => some (q.setAwaker awaker, [])

/-- A history of a leg. -/
abbrev LegHistory (ChannelId MSG Awk : Type) (n : Nat) :=
  History (QueueInternal ChannelId MSG Awk n) (LegOp ChannelId MSG Awk) Awk

/-- **What a step of a leg can do**: accept a message, which calls the installed
awaker exactly where the queue was empty; refuse one; hand the oldest one over;
or install an awaker. -/
theorem leg_cases (hn : 0 < n) {m : Moment (QueueInternal ChannelId MSG Awk n) _ Awk}
    (hm : leg.Fires m) :
    (∃ x, m.post.toList = m.pre.toList ++ [x] ∧ m.post.awaker = m.pre.awaker ∧
      m.events = (if m.pre.toList = [] then m.pre.awaker.toList else []) ∧
      ∀ a, m.label ≠ .setAwaker a) ∨
    (m.post = m.pre ∧ m.events = [] ∧ ∀ a, m.label ≠ .setAwaker a) ∨
    (m.post.toList = m.pre.toList.tail ∧ m.post.awaker = m.pre.awaker ∧ m.events = [] ∧
      ∀ a, m.label ≠ .setAwaker a) ∨
    (∃ a, m.label = .setAwaker a ∧ m.post = m.pre.setAwaker a ∧ m.events = []) := by
  obtain ⟨pre, label, events, post⟩ := m
  cases label with
  | send source safe msg =>
      simp only [Machine.Fires, leg, QueueInternal.send_eq] at hm
      split at hm
      · cases hm
        exact .inl ⟨_, QueueInternal.toList_accept .., rfl, rfl, by simp⟩
      · cases hm
        exact .inr (.inl ⟨rfl, rfl, by simp⟩)
  | sendSafe source msg =>
      simp only [Machine.Fires, leg, QueueInternal.sendSafe_eq] at hm
      cases hm
      exact .inl ⟨_, QueueInternal.toList_accept .., rfl, rfl, by simp⟩
  | recv =>
      simp only [Machine.Fires, leg] at hm
      cases hm
      exact .inr (.inr (.inl ⟨QueueInternal.toList_recv hn pre, rfl, rfl, by simp⟩))
  | setAwaker a =>
      simp only [Machine.Fires, leg] at hm
      cases hm
      exact .inr (.inr (.inr ⟨a, rfl, rfl, rfl⟩))

/-! ## Being called since the queue was last empty -/

/-- `awake()` of `a` has been called at some moment since the queue was last
empty. -/
def AwokenSinceEmpty (a : Awk) (h : LegHistory ChannelId MSG Awk n) : Prop :=
  Since (fun m ↦ m.post.toList ≠ []) (fun m ↦ a ∈ m.events ∧ m.post.toList ≠ []) h

/-- The installed awaker has been called since the queue was last empty, if it is
not empty now. -/
def NoLostWakeUp (h : LegHistory ChannelId MSG Awk n)
    (q : QueueInternal ChannelId MSG Awk n) : Prop :=
  ∀ a, q.awaker = some a → q.toList ≠ [] → AwokenSinceEmpty a h

/-- `a` was the installed awaker when the queue last stopped being empty. -/
def InstalledAtEdge (a : Awk) (h : LegHistory ChannelId MSG Awk n) : Prop :=
  Since (fun m ↦ m.post.toList ≠ [])
    (fun m ↦ m.pre.toList = [] ∧ m.pre.awaker = some a ∧ m.post.toList ≠ []) h

/-- Every `set_awaker` of the history found the queue empty, or installed the
awaker that was installed when the queue last stopped being empty. -/
def TimelyInstall (h : LegHistory ChannelId MSG Awk n) : Prop :=
  ∀ h₁ m h₂, h = h₁ ++ m :: h₂ → ∀ a, m.label = .setAwaker a →
    m.pre.toList = [] ∨ InstalledAtEdge a h₁

/-- An awaker is called by a step that leaves messages exactly where that step is
the edge and the awaker is installed. -/
theorem mem_events_iff (hn : 0 < n) {m : Moment (QueueInternal ChannelId MSG Awk n) _ Awk}
    (hm : leg.Fires m) (a : Awk) :
    (a ∈ m.events ∧ m.post.toList ≠ []) ↔
      (m.pre.toList = [] ∧ m.pre.awaker = some a ∧ m.post.toList ≠ []) := by
  obtain ⟨x, hpost, -, hev, -⟩ | ⟨hpost, hev, -⟩ | ⟨hpost, -, hev, -⟩ | ⟨b, -, hpost, hev⟩ :=
    leg_cases hn hm
  · by_cases hpre : m.pre.toList = [] <;> simp [hev, hpost, hpre]
  · simp only [hev, hpost]
    simp +contextual
  · simp only [hev, hpost]
    simp +contextual
  · simp only [hev, hpost, QueueInternal.toList_setAwaker]
    simp +contextual

/-- Having been called since the queue was last empty is having been installed at
the edge. -/
theorem awokenSinceEmpty_iff (hn : 0 < n) {h : LegHistory ChannelId MSG Awk n}
    {q : QueueInternal ChannelId MSG Awk n} (hr : leg.Run .default h q) (a : Awk) :
    AwokenSinceEmpty a h ↔ InstalledAtEdge a h := by
  induction hr with
  | nil => simp [AwokenSinceEmpty, InstalledAtEdge]
  | snoc hr hm ih =>
      unfold AwokenSinceEmpty InstalledAtEdge at *
      rw [since_snoc, since_snoc, mem_events_iff hn hm a, ih]

/-! ## The runs that lose no wake-up -/

theorem TimelyInstall.of_append {h₁ h₂ : LegHistory ChannelId MSG Awk n}
    (h : TimelyInstall (h₁ ++ h₂)) : TimelyInstall h₁ :=
  fun k₁ m k₂ he ↦ h k₁ m (k₂ ++ h₂) (by simp [he])

/-- Where every installation is timely, the awaker installed now is the one that
was installed at the edge. -/
theorem installedAtEdge_of_timely (hn : 0 < n) {h : LegHistory ChannelId MSG Awk n}
    {q : QueueInternal ChannelId MSG Awk n} (hr : leg.Run .default h q) (ht : TimelyInstall h)
    {a : Awk} (ha : q.awaker = some a) (hq : q.toList ≠ []) : InstalledAtEdge a h := by
  induction hr generalizing a with
  | nil => simp at ha
  | @snoc h m hr hm ih =>
      have ih := @ih ht.of_append
      refine since_snoc.mpr ?_
      obtain ⟨x, hpost, haw, -, -⟩ | ⟨hpost, -, -⟩ | ⟨hpost, haw, -, -⟩ | ⟨b, hb, hpost, -⟩ :=
        leg_cases hn hm
      · by_cases hpre : m.pre.toList = []
        · exact .inl ⟨hpre, haw ▸ ha, hq⟩
        · exact .inr ⟨hq, ih (haw ▸ ha) hpre⟩
      · exact .inr ⟨hq, ih (hpost ▸ ha) (hpost ▸ hq)⟩
      · exact .inr ⟨hq, ih (haw ▸ ha) fun hpre ↦ hq (by simp [hpost, hpre])⟩
      · obtain rfl : b = a := by simpa [hpost] using ha
        rcases ht h m [] rfl b hb with hpre | hedge
        · exact absurd hpre (by simpa [hpost] using hq)
        · exact .inr ⟨hq, hedge⟩

/-- **A run loses no wake-up exactly when its installations are timely.** -/
theorem awoken_iff_timelyInstall (hn : 0 < n) {h : LegHistory ChannelId MSG Awk n}
    {q : QueueInternal ChannelId MSG Awk n} (hr : leg.Run .default h q) :
    (∀ h₁ h₂ q₁, h = h₁ ++ h₂ → leg.Run .default h₁ q₁ → NoLostWakeUp h₁ q₁) ↔
      TimelyInstall h := by
  constructor
  · rintro hall h₁ m h₂ rfl a ha
    obtain ⟨hr₁, hm, -⟩ := hr.split
    have hr₂ := hr₁.snoc hm
    have hlost := hall (h₁ ++ [m]) h₂ m.post (by simp) hr₂
    obtain ⟨x, -, -, -, hne⟩ | ⟨-, -, hne⟩ | ⟨-, -, -, hne⟩ | ⟨b, hb, hpost, -⟩ := leg_cases hn hm
    · exact absurd ha (hne a)
    · exact absurd ha (hne a)
    · exact absurd ha (hne a)
    · obtain rfl : b = a := by simpa [hb] using ha
      by_cases hpre : m.pre.toList = []
      · exact .inl hpre
      · have hawoken := hlost b (by simp [hpost]) (by simpa [hpost] using hpre)
        have hedge := (awokenSinceEmpty_iff hn hr₂ b).mp hawoken
        rcases since_snoc.mp hedge with hedge | ⟨-, hedge⟩
        · exact absurd hedge.1 hpre
        · exact .inr hedge
  · rintro ht h₁ h₂ q₁ rfl hr₁ a ha hq
    exact (awokenSinceEmpty_iff hn hr₁ a).mpr (installedAtEdge_of_timely hn hr₁ ht.of_append ha hq)

/-- The theorem at the run of a worker that installs its awaker first and is then
sent a message. -/
theorem awoken_iff_timelyInstall_prompt :
    ∃ h q, leg.Run (QueueInternal.default : QueueInternal Unit Unit Unit 1) h q ∧
      h.events = [()] ∧
      ((∀ h₁ h₂ q₁, h = h₁ ++ h₂ → leg.Run .default h₁ q₁ → NoLostWakeUp h₁ q₁) ↔
        TimelyInstall h) :=
  have hr := Machine.exec_run (M := leg) (s := (.default : QueueInternal Unit Unit Unit 1))
    (l := [.setAwaker (), .send (.broadcast 0) true ()]) rfl
  ⟨_, _, hr, rfl, awoken_iff_timelyInstall Nat.one_pos hr⟩

/-- **A wake-up can be lost.**  Another worker's broadcast reaches the leg before
the new worker installs its awaker: a message is waiting, the awaker is installed
and has never been called. -/
theorem not_always_awoken :
    ¬ ∀ h q, leg.Run (QueueInternal.default : QueueInternal Unit Unit Unit 1) h q →
      NoLostWakeUp h q := by
  intro hall
  have hr := Machine.exec_run (M := leg) (s := (.default : QueueInternal Unit Unit Unit 1))
    (l := [.send (.broadcast 0) true (), .setAwaker ()]) rfl
  obtain ⟨h₁, m, h₂, he, ⟨hev, -⟩, -⟩ := hall _ _ hr () rfl (by decide)
  have hmem : () ∈ History.events (h₁ ++ m :: h₂) := by
    simp [History.events, hev]
  rw [← he] at hmem
  exact absurd hmem (by decide)

end SansIo.Bus
