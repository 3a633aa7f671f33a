import Mathlib.Data.List.Range
import SansIo.Backend.Tokens
import SansIo.Lib.Machine

/-!
# Polling, and the queue of tokens

The machine `polling` is a worker's use of its `PollingBackend`: actions, calls of
the awaker from other threads, `poll_incoming` and `pop_incoming`, where every
`poll_incoming` comes after a `pop_incoming` that returned `None`.  A wait comes
with the whole content of `event_buffer` after it, whatever that is.

Between two waits the queue of tokens is empty (`tokens_eq_nil_of_drained`), so a
wait after which `event_buffer` holds `k` events pushes `k` tokens, and one more
where the awake flag is set, onto a queue with room for 512.  Nothing bounds the
number of sockets, the poller has room for 1024 events, and `event_buffer` is
never cleared.  So the worker goes through a run without a panic exactly when
every wait of it fits (`survives_iff_fits`).  With 513 sockets that are readable at
once its first wait does not, although it reports every source once
(`not_always_survives`).
-/

namespace SansIo.Backend

open Lib Collections

variable {Owner : Type} {n q : Nat}

/-- How many tokens a wait pushes after which these events are in `event_buffer`. -/
def PollingBackend.pushes (b : PollingBackend Owner n q) (events : List Token) : Nat :=
  (if b.awakeFlag then 1 else 0) + events.length

/-- A worker's backend, and whether it has been popped until `None` since the last
wait. -/
structure Cycle (Owner : Type) (n q : Nat) where
  /-- The backend. -/
  backend : PollingBackend Owner n q
  /-- A `pop_incoming` has returned `None` since the last wait, or there was none. -/
  drained : Bool

/-- What a worker, or another thread, does to a backend. -/
inductive PollOp (Owner : Type) where
  | onAction (owner : Owner) (opening : Opening) (action : BackendOutgoing)
  | awake
  | pollIncoming (wait : Except IoError (List Token))
  | popIncoming (recv : Nat → Recv)

/-- It is an action. -/
def PollOp.IsAction : PollOp Owner → Prop
  | .onAction _ _ _ => True
  | _ => False

instance (op : PollOp Owner) : Decidable op.IsAction := by
  unfold PollOp.IsAction
  split <;> infer_instance

/-- A wait needs a drained backend. -/
def PollOp.Possible (c : Cycle Owner n q) : PollOp Owner → Prop
  | .pollIncoming _ => c.drained = true
  | _ => True

instance (c : Cycle Owner n q) (op : PollOp Owner) : Decidable (op.Possible c) := by
  unfold PollOp.Possible
  split <;> infer_instance

namespace Cycle

/-- A worker before its first wait. -/
def start : Cycle Owner n q := ⟨.default, true⟩

/-- What an operation does, and what `pop_incoming` returns. -/
def run (c : Cycle Owner n q) :
    PollOp Owner → Panics (Cycle Owner n q × List (Option (BackendIncomingInternal Owner)))
  | .onAction owner opening action => do
    let (backend, _) ← c.backend.onAction owner opening action
    return ({ c with backend }, [])
  | .awake => .ok ({ c with backend := c.backend.awake }, [])
  | .pollIncoming wait => do
    let backend ← c.backend.pollIncoming wait
    return (⟨backend, false⟩, [])
  | .popIncoming recv => do
    let (out, backend) ← c.backend.popIncoming recv
    return (⟨backend, c.drained || out.isNone⟩, [out])

end Cycle

/-- A worker's use of its backend.  A panic is the end of the run.  Where an action panics,
since its buffer has a window that is none, the run is over before it. -/
def polling :
    Machine (Panics (Cycle Owner n q)) (PollOp Owner) (Option (BackendIncomingInternal Owner)) where
  step
    | .error _, _ => none
    | .ok c, op =>
      if op.Possible c then match c.run op with
        | .ok (c', outs) => some (.ok c', outs)
        | .error text => if op.IsAction then none else some (.error text, [])
      else none

/-! ## The queue of tokens -/

namespace PollingBackend

theorem pushToken_ok_iff (b : PollingBackend Owner n q) (token : Token) :
    (∃ b', b.pushToken token = .ok b') ↔ b.eventBuffer2.length < queuePktNum := by
  rcases Nat.lt_or_ge b.eventBuffer2.length queuePktNum with hlt | hge
  · simp [pushToken, Bounded.push_of_lt _ _ hlt, hlt]
  · have hfull := Nat.le_antisymm b.eventBuffer2.length_le' hge
    rw [pushToken, Bounded.push_of_full _ _ hfull]
    simp [hge, throw, throwThe, MonadExceptOf.throw]

/-- What a push of a token changes. -/
theorem pushToken_eq {b b' : PollingBackend Owner n q} {token : Token}
    (h : b.pushToken token = .ok b') :
    b'.eventBuffer2.toList = b.eventBuffer2.toList ++ [token] ∧
      b' = { b with eventBuffer2 := b'.eventBuffer2 } := by
  have hlt := (b.pushToken_ok_iff token).mp ⟨b', h⟩
  rw [pushToken, Bounded.push_of_lt _ _ hlt] at h
  cases h
  exact ⟨Bounded.toList_snoc _ _ hlt, rfl⟩

theorem length_pushToken {b b' : PollingBackend Owner n q} {token : Token}
    (h : b.pushToken token = .ok b') : b'.eventBuffer2.length = b.eventBuffer2.length + 1 := by
  have hlist := congrArg List.length (pushToken_eq h).1
  simpa only [List.length_append, List.length_singleton, Bounded.length_toList] using hlist

/-- Tokens can be pushed as long as there is room for all of them. -/
theorem foldlM_pushToken_ok_iff (b : PollingBackend Owner n q) (events : List Token) :
    (∃ b', events.foldlM pushToken b = .ok b') ↔
      b.eventBuffer2.length + events.length ≤ queuePktNum := by
  induction events generalizing b with
  | nil => exact ⟨fun _ ↦ b.eventBuffer2.length_le', fun _ ↦ ⟨b, rfl⟩⟩
  | cons token events ih =>
      rw [List.foldlM_cons, List.length_cons]
      constructor
      · rintro ⟨b', h⟩
        obtain ⟨b₁, hpush, hrest⟩ := bind_ok.mp h
        have hlen := (ih b₁).mp ⟨b', hrest⟩
        rw [length_pushToken hpush] at hlen
        omega
      · intro hlen
        obtain ⟨b₁, hpush⟩ := (b.pushToken_ok_iff token).mpr (by omega)
        obtain ⟨b', hrest⟩ := (ih b₁).mpr (by rw [length_pushToken hpush]; omega)
        exact ⟨b', bind_ok.mpr ⟨b₁, hpush, hrest⟩⟩

/-- **A wait does not panic exactly when its tokens fit.** -/
theorem pollIncoming_ok_iff (b : PollingBackend Owner n q) (events : List Token) :
    (∃ b', b.pollIncoming (.ok events) = .ok b') ↔
      b.eventBuffer2.length + b.pushes events ≤ queuePktNum := by
  unfold pollIncoming pushes
  cases hflag : b.awakeFlag with
  | false =>
      simp only [Bool.false_eq_true, if_false, Nat.zero_add]
      exact b.foldlM_pushToken_ok_iff events
  | true =>
      simp only [if_true]
      constructor
      · rintro ⟨b', h⟩
        obtain ⟨b₁, hpush, hrest⟩ := bind_ok.mp h
        have hlen := (b₁.foldlM_pushToken_ok_iff events).mp ⟨b', hrest⟩
        have hpushed := length_pushToken hpush
        dsimp only at hpushed
        omega
      · intro hlen
        obtain ⟨b₁, hpush⟩ := (pushToken_ok_iff { b with awakeFlag := false } 0).mpr (by
          dsimp only
          omega)
        have hpushed := length_pushToken hpush
        dsimp only at hpushed
        obtain ⟨b', hrest⟩ := (b₁.foldlM_pushToken_ok_iff events).mpr (by omega)
        exact ⟨b', bind_ok.mpr ⟨b₁, hpush, hrest⟩⟩

/-- The loop of `pop_cached_event` leaves the output queue alone, and says `None`
only once there are no tokens. -/
theorem tokens_eq_nil_of_popIncoming {recv : Nat → Recv} {b b' : PollingBackend Owner n q}
    {out : Option (BackendIncomingInternal Owner)} (h : b.popIncoming recv = .ok (out, b'))
    (hnil : out = none ∨ b.eventBuffer2.toList = []) : b'.eventBuffer2.toList = [] := by
  rw [popIncoming, popCachedEvent] at h
  split at h
  · cases h
    exact hnil.resolve_left (by simp)
  · rename_i output _
    have hreturns : Loop.Returns (turn recv) { b with output } (.ok (out, b')) := by
      rw [← h]
      exact Loop.returns_run _
    rcases hnil with rfl | hnil
    · obtain ⟨t, -, hleave⟩ := hreturns.exit
      cases htokens : t.eventBuffer2.toList with
      | nil =>
          simp only [turn, htokens] at hleave
          cases hleave
          exact htokens
      | cons token tokens =>
          rw [turn_eq htokens] at hleave
          split at hleave <;> cases hleave
    · have hleave : turn recv { b with output } = .inr (.ok (none, { b with output })) := by
        simp only [turn, hnil]
      cases (Loop.Returns.leave hleave).unique hreturns
      exact hnil

theorem selectSlot_frame (b : PollingBackend Owner n q) :
    b.selectSlot.2 = { b with sockets := b.selectSlot.2.sockets } := by
  unfold selectSlot
  split <;> rfl

/-- Actions touch the sockets and the output queue only. -/
theorem onAction_frame {b b' : PollingBackend Owner n q} {owner : Owner} {opening : Opening}
    {action : BackendOutgoing} {sent : List Datagram}
    (h : b.onAction owner opening action = .ok (b', sent)) :
    b'.eventBuffer2 = b.eventBuffer2 ∧ b'.awakeFlag = b.awakeFlag := by
  have hselect := b.selectSlot_frame
  cases action with
  | udpListen addr reuse =>
      cases opening with
      | refused e =>
          cases h
          exact ⟨rfl, rfl⟩
      | unregistered socket localAddr e =>
          cases h
          exact ⟨congrArg (·.eventBuffer2) hselect, congrArg (·.awakeFlag) hselect⟩
      | opened socket localAddr =>
          obtain ⟨sockets, -, h⟩ := bind_ok.mp h
          cases h
          exact ⟨congrArg (·.eventBuffer2) hselect, congrArg (·.awakeFlag) hselect⟩
  | udpUnlisten slot =>
      rw [onAction] at h
      split at h <;>
      · cases h
        exact ⟨rfl, rfl⟩
  | _ =>
      obtain ⟨sent, -, h⟩ := bind_ok.mp h
      cases h
      exact ⟨rfl, rfl⟩

/-- With no tokens and nothing in the output queue there is nothing to pop. -/
theorem popIncoming_idle (hq : 0 < q) (recv : Nat → Recv) {b : PollingBackend Owner n q}
    (hout : b.output.toList = []) (htokens : b.eventBuffer2.toList = []) :
    b.popIncoming recv = .ok (none, { b with output := b.output.popFront.2 }) := by
  have hfront := (b.output.popFront_spec hq).1
  rw [hout] at hfront
  rw [popIncoming, popCachedEvent, ← Prod.mk.eta (p := b.output.popFront), hfront]
  exact Loop.run_eq (.leave (by simp only [turn, htokens]))

theorem popIncoming_ok (hq : 0 < q) (recv : Nat → Recv) (b : PollingBackend Owner n q) :
    ∃ r, b.popIncoming recv = .ok r := by
  cases hout : b.output.toList with
  | nil =>
      obtain ⟨b', hpop, -⟩ := popIncoming_tokens hq recv hout
      exact ⟨_, hpop⟩
  | cons out outs =>
      exact ⟨_, (popIncoming_output hq recv hout).1⟩

end PollingBackend

/-! ## Runs without a panic -/

/-- The wait of a moment, if it is one that succeeds, fits into the queue. -/
def Fits (m : Moment (Panics (Cycle Owner n q)) (PollOp Owner)
    (Option (BackendIncomingInternal Owner))) : Prop :=
  ∀ c events, m.pre = .ok c → m.label = .pollIncoming (.ok events) →
    c.backend.pushes events ≤ queuePktNum

/-- What is possible in a cycle, and what it does. -/
theorem polling_cases {c : Cycle Owner n q} {op : PollOp Owner} {s : Panics (Cycle Owner n q)}
    {outs : List (Option (BackendIncomingInternal Owner))}
    (h : polling.step (.ok c) op = some (s, outs)) :
    op.Possible c ∧ ((∃ c', c.run op = .ok (c', outs) ∧ s = .ok c') ∨
      ¬ op.IsAction ∧ ∃ text, c.run op = .error text ∧ s = .error text) := by
  simp only [polling] at h
  split at h
  · rename_i hpossible
    refine ⟨hpossible, ?_⟩
    split at h
    · rename_i c' outs' hrun
      cases h
      exact .inl ⟨c', hrun, rfl⟩
    · rename_i text hrun
      split at h
      · cases h
      · rename_i haction
        cases h
        exact .inr ⟨haction, text, hrun, rfl⟩
  · cases h

/-- **Between two waits the queue of tokens is empty.** -/
theorem tokens_eq_nil_of_drained {h : History (Panics (Cycle Owner n q)) (PollOp Owner)
      (Option (BackendIncomingInternal Owner))} {s : Panics (Cycle Owner n q)}
    (hr : polling.Run (.ok .start) h s) {c : Cycle Owner n q} (hs : s = .ok c)
    (hd : c.drained = true) : c.backend.eventBuffer2.toList = [] := by
  induction hr generalizing c with
  | nil =>
      cases hs
      rfl
  | @snoc h m hr hm ih =>
      obtain ⟨pre, op, outs, post⟩ := m
      cases pre with
      | error text => cases hm
      | ok c₀ =>
          replace ih : c₀.drained = true → c₀.backend.eventBuffer2.toList = [] := fun hd ↦ ih rfl hd
          obtain ⟨-, ⟨c', hrun, hpost⟩ | ⟨-, text, -, hpost⟩⟩ := polling_cases hm
          · cases hs.symm.trans hpost
            cases op with
            | onAction owner opening action =>
                obtain ⟨⟨b, sent⟩, haction, hc⟩ := bind_ok.mp hrun
                cases hc
                rw [(PollingBackend.onAction_frame haction).1]
                exact ih hd
            | awake =>
                cases hrun
                rw [PollingBackend.awake]
                split <;> exact ih hd
            | pollIncoming wait =>
                obtain ⟨b, -, hc⟩ := bind_ok.mp hrun
                cases hc
                cases hd
            | popIncoming recv =>
                obtain ⟨⟨out, b⟩, hpop, hc⟩ := bind_ok.mp hrun
                cases hc
                refine PollingBackend.tokens_eq_nil_of_popIncoming hpop ?_
                rcases Bool.or_eq_true_iff.mp hd with hd | hnone
                · exact .inr (ih hd)
                · exact .inl (Option.isNone_iff_eq_none.mp hnone)
          · cases hs.symm.trans hpost

/-- But for actions, only a wait that succeeds can panic, and it does where its tokens do not
fit. -/
theorem run_ok_iff (hq : 0 < q) (c : Cycle Owner n q) {op : PollOp Owner} (hop : ¬ op.IsAction) :
    (∃ r, c.run op = .ok r) ↔ ∀ events, op = .pollIncoming (.ok events) →
      c.backend.eventBuffer2.length + c.backend.pushes events ≤ queuePktNum := by
  cases op with
  | onAction owner opening action => exact absurd trivial hop
  | awake => simp [Cycle.run]
  | pollIncoming wait =>
      cases wait with
      | error e => simp [Cycle.run, PollingBackend.pollIncoming]
      | ok events =>
          have hiff := c.backend.pollIncoming_ok_iff events
          simp only [PollOp.pollIncoming.injEq, Except.ok.injEq, forall_eq']
          rw [← hiff]
          constructor
          · rintro ⟨r, hr⟩
            obtain ⟨b, hb, -⟩ := bind_ok.mp hr
            exact ⟨b, hb⟩
          · rintro ⟨b, hb⟩
            exact ⟨_, bind_ok.mpr ⟨b, hb, rfl⟩⟩
  | popIncoming recv =>
      obtain ⟨r, hr⟩ := c.backend.popIncoming_ok hq recv
      simp [Cycle.run, hr]

/-- **A worker goes through a run without a panic exactly when every wait of it
fits.** -/
theorem survives_iff_fits (hq : 0 < q) {h : History (Panics (Cycle Owner n q)) (PollOp Owner)
      (Option (BackendIncomingInternal Owner))} {s : Panics (Cycle Owner n q)}
    (hr : polling.Run (.ok .start) h s) : (∃ c, s = .ok c) ↔ ∀ m ∈ h, Fits m := by
  induction hr with
  | nil => simp
  | @snoc h m hr hm ih =>
      obtain ⟨pre, op, outs, post⟩ := m
      cases pre with
      | error text => cases hm
      | ok c =>
          have hbefore : ∀ m ∈ h, Fits m := ih.mp ⟨c, rfl⟩
          have hrun : (∃ c', post = .ok c') ↔ ∀ events, op = .pollIncoming (.ok events) →
              c.backend.eventBuffer2.length + c.backend.pushes events ≤ queuePktNum := by
            obtain ⟨-, ⟨c', hrun, hpost⟩ | ⟨haction, text, hrun, hpost⟩⟩ := polling_cases hm
            · refine iff_of_true ⟨c', hpost⟩ ?_
              rintro events rfl
              exact (run_ok_iff hq c id).mp ⟨_, hrun⟩ events rfl
            · rw [← run_ok_iff hq c haction]
              constructor
              · rintro ⟨c', hc'⟩
                cases hpost.symm.trans hc'
              · rintro ⟨r, hr'⟩
                cases hrun.symm.trans hr'
          have hfits : Fits ⟨.ok c, op, outs, post⟩ ↔ ∀ events, op = .pollIncoming (.ok events) →
              c.backend.eventBuffer2.length + c.backend.pushes events ≤ queuePktNum := by
            constructor
            · rintro hfit events rfl
              have hdrained : c.drained = true := (polling_cases hm).1
              have hempty := tokens_eq_nil_of_drained hr rfl hdrained
              rw [← Bounded.length_toList, hempty, List.length_nil, Nat.zero_add]
              exact hfit c events rfl rfl
            · rintro hlen c' events hc hop
              cases hc
              exact Nat.le_trans (Nat.le_add_left ..) (hlen events hop)
          rw [hrun, ← hfits]
          constructor
          · intro hfit m hm
            rcases List.mem_append.mp hm with hm | hm
            · exact hbefore m hm
            · exact List.mem_singleton.mp hm ▸ hfit
          · exact fun hall ↦ hall _ (List.mem_append_right _ (List.mem_singleton.mpr rfl))

set_option maxRecDepth 8000 in
/-- The theorem at a worker that listens, is woken while it waits for a datagram, and
finds the event of its first wait in `event_buffer` again after the second. -/
theorem survives_iff_fits_woken :
    ∃ h c, polling.Run (.ok (.start : Cycle Unit 2 1)) h (.ok c) ∧
      h.events.map Option.isSome = [true, false, true, true, false, false] ∧ ∀ m ∈ h, Fits m :=
  have hr := Machine.exec_run (M := polling) (s := .ok (.start : Cycle Unit 2 1))
    (l := [.onAction () (.opened 7 ⟨[127, 0, 0, 1], 7⟩) (.udpListen ⟨[127, 0, 0, 1], 0⟩ false),
      .popIncoming fun _ ↦ none, .popIncoming fun _ ↦ none, .awake, .pollIncoming (.ok [1]),
      .popIncoming fun _ ↦ none, .popIncoming fun _ ↦ some (⟨[127, 0, 0, 1], 8⟩, [5]),
      .popIncoming fun _ ↦ none, .pollIncoming (.ok [1, 1]), .popIncoming fun _ ↦ none]) rfl
  ⟨_, _, hr, rfl, (survives_iff_fits Nat.one_pos hr).mp ⟨_, rfl⟩⟩

/-! ## A run with too many sockets -/

theorem polling_fires {c c' : Cycle Owner n q} {op : PollOp Owner}
    {outs : List (Option (BackendIncomingInternal Owner))} (hrun : c.run op = .ok (c', outs))
    (hop : op.Possible c) : polling.Fires ⟨.ok c, op, outs, .ok c'⟩ := by
  simp only [Machine.Fires, polling, if_pos hop, hrun]

/-- The socket opened by the `k`-th of the calls below. -/
def nthSocket (k : Nat) : Option (SocketType Unit) := some (.udp k ⟨[127, 0, 0, 1], .ofNat k⟩ ())

/-- The sockets of a backend that has listened `k` times. -/
def listening (k : Nat) : List (Option (SocketType Unit)) :=
  some .waker :: (List.range k).map nthSocket

theorem length_listening (k : Nat) : (listening k).length = k + 1 := by
  simp [listening]

theorem listening_succ (k : Nat) : listening (k + 1) = listening k ++ [nthSocket k] := by
  simp [listening, List.range_succ]

theorem selectSlot_listening {k : Nat} {b : PollingBackend Unit 2 1}
    (h : b.sockets.toList = listening k) :
    b.selectSlot = (k + 1, { b with sockets := b.sockets.push none }) := by
  have hfull : b.sockets.toList.findIdx? Option.isNone = none := by
    rw [h, List.findIdx?_eq_none_iff]
    simp [listening, nthSocket]
  rw [PollingBackend.selectSlot, hfull]
  simp [h, length_listening]

/-- One more socket is opened. -/
theorem onAction_listening {k : Nat} {b : PollingBackend Unit 2 1}
    (h : b.sockets.toList = listening k) :
    ∃ b' out, b.onAction () (.opened k ⟨[127, 0, 0, 1], .ofNat k⟩)
        (.udpListen ⟨[127, 0, 0, 1], 0⟩ false) = .ok (b', []) ∧
      b'.sockets.toList = listening (k + 1) ∧ b'.eventBuffer2 = b.eventBuffer2 ∧
      b'.output = b.output.pushBack out := by
  have hlt : k + 1 < (b.sockets.push none).toList.length := by
    simp [h, length_listening]
  simp only [PollingBackend.onAction, selectSlot_listening h,
    DynamicVec.modifyOrPanic_of_lt hlt]
  refine ⟨_, _, rfl, ?_, rfl, rfl⟩
  rw [DynamicVec.toList_modify, DynamicVec.toList_push, h, DynamicVec.modify_append,
    length_listening, if_neg (Nat.lt_irrefl _), listening_succ, Nat.sub_self]
  rfl

/-- A backend can have any number of sockets before its first wait, with nothing left
to pop. -/
theorem exists_run_listening (k : Nat) :
    ∃ h b, polling.Run (.ok (.start : Cycle Unit 2 1)) h (.ok ⟨b, true⟩) ∧
      (∀ m ∈ h, ∀ wait, m.label ≠ .pollIncoming wait) ∧ b.sockets.toList = listening k ∧
      b.eventBuffer2.toList = [] ∧ b.output.toList = [] := by
  induction k with
  | zero => exact ⟨[], .default, .nil, by simp, rfl, rfl, rfl⟩
  | succ k ih =>
      obtain ⟨h, b, hr, hwaits, hsockets, htokens, hout⟩ := ih
      obtain ⟨b', out, haction, hsockets', htokens', hout'⟩ := onAction_listening hsockets
      rw [← htokens'] at htokens
      have hlisted : b'.output.toList = [out] := by
        rw [hout', DynamicDeque.toList_pushBack, hout, List.nil_append]
      obtain ⟨hpop, hempty⟩ := PollingBackend.popIncoming_output Nat.one_pos (fun _ ↦ none) hlisted
      have hidle := PollingBackend.popIncoming_idle Nat.one_pos (fun _ ↦ none)
        (b := { b' with output := b'.output.popFront.2 }) hempty htokens
      have hrun₁ : Cycle.run ⟨b, true⟩ (.onAction () (.opened k ⟨[127, 0, 0, 1], .ofNat k⟩)
          (.udpListen ⟨[127, 0, 0, 1], 0⟩ false)) = .ok (⟨b', true⟩, []) := by
        simp only [Cycle.run, haction]
        rfl
      have hrun₂ : Cycle.run ⟨b', true⟩ (.popIncoming fun _ ↦ none) =
          .ok (⟨{ b' with output := b'.output.popFront.2 }, true⟩, [some out]) := by
        simp only [Cycle.run, hpop]
        rfl
      have hrun₃ : Cycle.run ⟨{ b' with output := b'.output.popFront.2 }, true⟩
          (.popIncoming fun _ ↦ none) =
          .ok (⟨{ b' with output := b'.output.popFront.2.popFront.2 }, true⟩, [none]) := by
        simp only [Cycle.run, hidle]
        rfl
      have hr₁ := hr.snoc (polling_fires hrun₁ trivial)
      have hr₂ := hr₁.snoc (polling_fires hrun₂ trivial)
      have hr₃ := hr₂.snoc (polling_fires hrun₃ trivial)
      refine ⟨_, _, hr₃, ?_, hsockets', htokens, ?_⟩
      · simpa [or_imp, forall_and] using hwaits
      · rw [DynamicDeque.toList_popFront Nat.one_pos, hempty, List.tail_nil]

/-- `Events::new()` has room for this many events. -/
def eventsCapacity : Nat := 1024

/-- After the wait of a moment `event_buffer` holds at most one event for each
registered source, which is a socket in a slot, and no other. -/
def OnceEach (m : Moment (Panics (Cycle Owner n q)) (PollOp Owner)
    (Option (BackendIncomingInternal Owner))) : Prop :=
  ∀ c events, m.pre = .ok c → m.label = .pollIncoming (.ok events) →
    events.Nodup ∧ events.length ≤ eventsCapacity ∧
      ∀ token ∈ events, c.backend.socketAt token ≠ none

/-- Each of the sockets opened by the calls above is registered. -/
theorem socketAt_listening {k i : Nat} {b : PollingBackend Unit 2 1}
    (h : b.sockets.toList = listening k) (hi : i < k) : b.socketAt (1 + i) = some i := by
  have hget : b.sockets.get (1 + i) = some (nthSocket i) := by
    rw [DynamicVec.get_eq, h, listening, Nat.add_comm, List.getElem?_cons_succ]
    simp [hi]
  rw [PollingBackend.socketAt, hget]
  rfl

/-- **A worker can panic.**  With 513 sockets that are all readable, the first wait
pushes more tokens than the queue has room for, although `event_buffer` holds one
event for each of them. -/
theorem not_always_survives :
    ¬ ∀ h s, polling.Run (.ok (.start : Cycle Unit 2 1)) h s → (∀ m ∈ h, OnceEach m) →
      ∃ c, s = .ok c := by
  intro hall
  obtain ⟨h, b, hr, hwaits, hsockets, htokens, -⟩ := exists_run_listening 513
  have hpanics : ¬ ∃ r, Cycle.run ⟨b, true⟩ (.pollIncoming (.ok (List.range' 1 513))) = .ok r := by
    rw [run_ok_iff Nat.one_pos _ id]
    intro hfits
    have hlen := hfits _ rfl
    have hroom : queuePktNum = 512 := rfl
    rw [PollingBackend.pushes, List.length_range'] at hlen
    omega
  cases hrun : Cycle.run ⟨b, true⟩ (.pollIncoming (.ok (List.range' 1 513))) with
  | ok r => exact hpanics ⟨r, hrun⟩
  | error text =>
      have hpossible : PollOp.Possible ⟨b, true⟩ (.pollIncoming (.ok (List.range' 1 513))) := rfl
      have hwait : ¬ (PollOp.pollIncoming (.ok (List.range' 1 513)) : PollOp Unit).IsAction := id
      have hm : polling.Fires ⟨.ok ⟨b, true⟩, .pollIncoming (.ok (List.range' 1 513)), [],
          .error text⟩ := by
        simp only [Machine.Fires, polling, if_pos hpossible, hrun, if_neg hwait]
      have honce : OnceEach (⟨.ok ⟨b, true⟩, .pollIncoming (.ok (List.range' 1 513)), [],
          .error text⟩ : Moment (Panics (Cycle Unit 2 1)) (PollOp Unit) _) := by
        intro c events hc hop
        cases hc
        cases hop
        refine ⟨List.nodup_range', by rw [List.length_range']; decide, ?_⟩
        intro token htoken
        obtain ⟨i, hi, rfl⟩ := List.mem_range'.mp htoken
        rw [Nat.one_mul, socketAt_listening hsockets hi]
        exact Option.some_ne_none i
      obtain ⟨c, hc⟩ := hall _ _ (hr.snoc hm) (by
        intro m hm
        rcases List.mem_append.mp hm with hm | hm
        · exact fun c events _ hop ↦ absurd hop (hwaits m hm (.ok events))
        · exact List.mem_singleton.mp hm ▸ honce)
      cases hc

end SansIo.Backend
