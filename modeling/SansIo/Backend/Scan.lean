import SansIo.Backend.Exclusive

/-!
# The scan of a `PollBackend`

`pop_incoming` reads the sockets one after another until it has a packet.  `attempts` are the
slots at which it calls `recv_from`, in order, and `popIncoming_cases` says what a call does.

A backend that returns `None` should have found no datagram at any socket that it had all the
time.  `attends_iff` says when it has tried: always if there is a stack part for the sockets,
and else only while there are none, since `is_empty` of the vector looks at no others.
-/

namespace SansIo.Backend

open Lib Collections

variable {Owner : Type} {n q : Nat}

namespace PollBackend

variable {recv : Nat → UdpSocket → Option (SocketAddr × List UInt8)} {b : PollBackend Owner n q}

/-! ## The slots that are read -/

theorem scan_lt (x x' : Nat × List Nat)
    (h : Loop.traced (b.turn recv) ([·]) x = .inl x') :
    b.sockets.len - x'.1 < b.sockets.len - x.1 :=
  turn_lt (Loop.traced_inl.1 h).1

/-- The loop of `pop_incoming`, with the slots that it comes to. -/
def scan (recv : Nat → UdpSocket → Option (SocketAddr × List UInt8)) (b : PollBackend Owner n q) :
    Panics (Option (BackendIncomingInternal Owner) × PollBackend Owner n q) × List Nat :=
  Loop.run (Loop.traced (b.turn recv) ([·])) (fun x ↦ b.sockets.len - x.1) scan_lt
    (b.lastPollSocket.getD 0, [])

/-- There is a socket in a slot. -/
def isLive (b : PollBackend Owner n q) (slot : Nat) : Bool := (Slots.held b.sockets slot).isSome

/-- The slots at which `pop_incoming` calls `recv_from`: those with a socket that its loop comes
to. -/
def attempts (recv : Nat → UdpSocket → Option (SocketAddr × List UInt8))
    (b : PollBackend Owner n q) : List Nat :=
  match b.output.popFront with
  | (some _, _) => []
  | (none, output) =>
    let b := { b with output }
    if b.sockets.isEmpty then []
    else (b.scan recv).2.filter b.isLive

variable (recv) in
/-- The loop goes through the slots until there is a datagram. -/
theorem scans (hlen : 0 < b.sockets.len) :
    Loop.Scans (b.turn recv)
      (fun slot ↦ (b.datagramAt recv slot).map fun d ↦ b.packet slot d.1 d.2.1 d.2.2)
      (b.sockets.len - 1) (.ok (none, { b with lastPollSocket := none })) where
  found slot r hr := by
    obtain ⟨d, hd, rfl⟩ := Option.map_eq_some_iff.1 hr
    rw [turn_eq, hd]
  next slot hlt hnone := by
    rw [turn_eq, Option.map_eq_none_iff.1 hnone]
    simp only [if_neg (Nat.ne_of_lt hlt), if_pos (show slot < b.sockets.len by omega)]
  last hnone := by
    rw [turn_eq, Option.map_eq_none_iff.1 hnone]
    exact if_pos rfl

variable (recv) in
/-- What a scan does that starts at the first slot. -/
theorem scan_cases (hlast : b.lastPollSocket = none) (hlen : 0 < b.sockets.len) :
    (∃ slot d, b.datagramAt recv slot = some d ∧ (∀ j < slot, b.datagramAt recv j = none) ∧
      b.scan recv = (b.packet slot d.1 d.2.1 d.2.2, List.range (slot + 1))) ∨
    ((∀ j, b.datagramAt recv j = none) ∧
      b.scan recv = (.ok (none, { b with lastPollSocket := none }), List.range b.sockets.len)) := by
  have hstart : b.lastPollSocket.getD 0 = 0 := by rw [hlast, Option.getD_none]
  rcases (scans recv hlen).returns (Nat.zero_le _) [] with
    ⟨slot, r, -, -, hfound, hbefore, hret⟩ | ⟨hall, hret⟩
  · obtain ⟨d, hd, rfl⟩ := Option.map_eq_some_iff.1 hfound
    refine .inl ⟨slot, d, hd, fun j hj ↦ ?_, ?_⟩
    · exact Option.map_eq_none_iff.1 (hbefore j (Nat.zero_le j) hj)
    · rw [scan, hstart, Loop.run_eq hret, List.nil_append, Nat.sub_zero, List.range_eq_range']
  · refine .inr ⟨fun j ↦ ?_, ?_⟩
    · rcases Nat.lt_or_ge j b.sockets.len with hj | hj
      · exact Option.map_eq_none_iff.1 (hall j (Nat.zero_le j) (by omega))
      · refine datagramAt_eq_none.2 fun s hs ↦ ?_
        have hlt := Slots.lt_of_held hs
        rw [← DynamicVec.len_eq] at hlt
        omega
    · rw [scan, hstart, Loop.run_eq hret, List.nil_append, Nat.sub_zero, List.range_eq_range',
        Nat.sub_add_cancel hlen]

/-! ## One call -/

/-- After `output.pop_front`. -/
def popped (b : PollBackend Owner n q) : PollBackend Owner n q :=
  { b with output := b.output.popFront.2 }

/-- What a `pop_incoming` may return and leave behind, with the slots that it reads. -/
inductive PopDoes (recv : Nat → UdpSocket → Option (SocketAddr × List UInt8))
    (b : PollBackend Owner n q) :
    Option (BackendIncomingInternal Owner) → PollBackend Owner n q → List Nat → Prop
  | /-- Something was queued. -/
    queued {out rest} (hout : b.output.toList = out :: rest) :
      PopDoes recv b (some out) b.popped []
  | /-- There are no sockets, as `is_empty` says. -/
    noSockets (hout : b.output.toList = []) (hempty : b.sockets.isEmpty = true) :
      PopDoes recv b none b.popped []
  | /-- There is a datagram, and none before it. -/
    packet {slot s sender datagram} (hout : b.output.toList = [])
      (hs : Slots.held b.sockets slot = some s)
      (hrecv : recv slot s.socket = some (sender, datagram))
      (hbefore : ∀ j < slot, b.datagramAt recv j = none) :
      PopDoes recv b (some (.event s.owner (.udpPacket slot sender (received datagram))))
        { b.popped with buf := .new 100 1500 }
        ((List.range (slot + 1)).filter b.isLive)
  | /-- There is no datagram. -/
    drained (hout : b.output.toList = []) (hall : ∀ j, b.datagramAt recv j = none) :
      PopDoes recv b none { b.popped with lastPollSocket := none }
        ((List.range b.sockets.len).filter b.isLive)

theorem scan_fst (recv : Nat → UdpSocket → Option (SocketAddr × List UInt8))
    (b : PollBackend Owner n q) :
    Loop.run (b.turn recv) (b.sockets.len - ·) (fun _ _ h ↦ turn_lt h) (b.lastPollSocket.getD 0) =
      (b.scan recv).1 := by
  have hret : Loop.Returns (Loop.traced (b.turn recv) ([·])) (b.lastPollSocket.getD 0, [])
      ((b.scan recv).1, (b.scan recv).2) := Loop.returns_run _
  exact Loop.run_eq hret.of_traced

variable (recv) in
theorem popIncoming_some {out : BackendIncomingInternal Owner}
    (hfront : b.output.popFront.1 = some out) :
    b.popIncoming recv = .ok (some out, b.popped) ∧ b.attempts recv = [] := by
  have hpop : b.output.popFront = (some out, b.output.popFront.2) := Prod.ext hfront rfl
  rw [popIncoming, attempts, hpop]
  exact ⟨rfl, rfl⟩

variable (recv) in
theorem popIncoming_none (hfront : b.output.popFront.1 = none) :
    b.popIncoming recv =
        (if b.sockets.isEmpty then .ok (none, b.popped) else (b.popped.scan recv).1) ∧
      b.attempts recv =
        if b.sockets.isEmpty then [] else (b.popped.scan recv).2.filter b.isLive := by
  have hpop : b.output.popFront = (none, b.output.popFront.2) := Prod.ext hfront rfl
  rw [popIncoming, attempts, hpop, ← scan_fst]
  exact ⟨rfl, rfl⟩

/-- **What one call does**, if the last scan went to the end. -/
theorem popIncoming_cases (hq : 0 < q) (hlast : b.lastPollSocket = none)
    (hbuf : b.buf = .new 100 1500) (recv : Nat → UdpSocket → Option (SocketAddr × List UInt8)) :
    ∃ out b', b.popIncoming recv = .ok (out, b') ∧ b.PopDoes recv out b' (b.attempts recv) := by
  have hfront := DynamicDeque.popFront_fst hq b.output
  cases hout : b.output.toList with
  | cons out rest =>
      rw [hout, List.head?_cons] at hfront
      obtain ⟨hpop, hattempts⟩ := popIncoming_some recv hfront
      rw [hattempts]
      exact ⟨_, _, hpop, .queued hout⟩
  | nil =>
      rw [hout, List.head?_nil] at hfront
      obtain ⟨hpop, hattempts⟩ := popIncoming_none recv hfront
      rw [hpop, hattempts]
      cases hempty : b.sockets.isEmpty with
      | true => exact ⟨none, b.popped, rfl, .noSockets hout hempty⟩
      | false =>
          have hlen : 0 < b.popped.sockets.len := by
            have hne : ¬ b.sockets.isEmpty = true := by simp [hempty]
            rw [DynamicVec.isEmpty_iff, not_or] at hne
            rw [DynamicVec.len_eq]
            exact List.length_pos_iff.2 hne.1
          rw [if_neg Bool.false_ne_true, if_neg Bool.false_ne_true]
          rcases scan_cases recv (b := b.popped) hlast hlen with
            ⟨slot, ⟨owner, sender, datagram⟩, hd, hbefore, hscan⟩ | ⟨hall, hscan⟩
          · obtain ⟨s, hs, hrecv, rfl⟩ := datagramAt_eq_some.1 hd
            rw [hscan, packet_eq (b := b.popped) hbuf]
            exact ⟨_, _, rfl, .packet hout hs hrecv hbefore⟩
          · rw [hscan]
            exact ⟨_, _, rfl, .drained hout hall⟩

section Does

variable {b' : PollBackend Owner n q} {slots : List Nat}

theorem mem_live {slot last : Nat} {s : PollSocket Owner}
    (hs : Slots.held b.sockets slot = some s) :
    slot ∈ (List.range last).filter b.isLive ↔ slot < last := by
  simp [isLive, hs]

/-- What was queued first comes first. -/
theorem PopDoes.oldest (hq : 0 < q) {out : Option (BackendIncomingInternal Owner)}
    (hd : b.PopDoes recv out b' slots) {x : BackendIncomingInternal Owner}
    {rest : List (BackendIncomingInternal Owner)} (hout : b.output.toList = x :: rest) :
    out = some x ∧ b'.output.toList = rest ∧ slots = [] := by
  cases hd with
  | queued hout' =>
      cases hout.symm.trans hout'
      refine ⟨rfl, ?_, rfl⟩
      rw [popped, DynamicDeque.toList_popFront hq, hout, List.tail_cons]
  | noSockets hout' => cases hout.symm.trans hout'
  | packet hout' => cases hout.symm.trans hout'
  | drained hout' => cases hout.symm.trans hout'

/-- Everything else was read from the first socket with a datagram. -/
theorem PopDoes.read {out : BackendIncomingInternal Owner} (hd : b.PopDoes recv (some out) b' slots)
    (hout : b.output.toList = []) :
    ∃ slot s sender datagram, Slots.held b.sockets slot = some s ∧
      recv slot s.socket = some (sender, datagram) ∧
      out = .event s.owner (.udpPacket slot sender (received datagram)) ∧
      (∀ j < slot, b.datagramAt recv j = none) ∧
      slots = (List.range (slot + 1)).filter b.isLive := by
  cases hd with
  | queued hout' => cases hout.symm.trans hout'
  | packet _ hs hrecv hbefore => exact ⟨_, _, _, _, hs, hrecv, rfl, hbefore, rfl⟩

/-- Without a packet, all sockets have been tried if there is a stack part for them. -/
theorem PopDoes.tried (hd : b.PopDoes recv none b' slots) (hn : 0 < n) {slot : Nat}
    {s : PollSocket Owner} (hs : Slots.held b.sockets slot = some s) :
    slot ∈ slots ∧ recv slot s.socket = none := by
  have hlt := Slots.lt_of_held hs
  cases hd with
  | noSockets _ hempty =>
      have hnil := (b.sockets.isEmpty_iff.1 hempty).resolve_right (Nat.ne_of_gt hn)
      rw [hnil] at hlt
      cases hlt
  | drained _ hall =>
      refine ⟨(mem_live hs).2 ?_, datagramAt_eq_none.1 (hall slot) s hs⟩
      rwa [DynamicVec.len_eq]

end Does

/-! ## Every run -/

/-- A moment of a `PollBackend`. -/
abbrev PollMoment (Owner : Type) (n q : Nat) :=
  Moment (PollBackend Owner n q) (PollLabel Owner) (Seen Owner)

/-- A history of a `PollBackend`. -/
abbrev PollHistory (Owner : Type) (n q : Nat) :=
  History (PollBackend Owner n q) (PollLabel Owner) (Seen Owner)

/-- Between two calls the backend has a new buffer, no packets queued, and no slot to go on
from. -/
structure Rests (b : PollBackend Owner n q) : Prop extends Clean b where
  last : b.lastPollSocket = none

theorem onAction_last {b b' : PollBackend Owner n q} {owner : Owner}
    {createUdp : Except IoError (UdpSocket × SocketAddr)} {action : BackendOutgoing}
    {sent : List Datagram}
    (h : b.onAction owner createUdp action = .ok (b', sent)) :
    b'.lastPollSocket = b.lastPollSocket := by
  cases action with
  | udpListen bind reuse =>
      cases createUdp with
      | error e =>
          cases h
          rfl
      | ok created =>
          rw [onAction_created] at h
          cases h
          rfl
  | udpUnlisten slot =>
      rw [onAction] at h
      split at h <;>
      · cases h
        rfl
  | _ =>
      obtain ⟨datagrams, -, h⟩ := bind_ok.mp h
      cases h
      rfl

/-- What a `pop_incoming` of a run does. -/
theorem popIncoming_of_fires {m : PollMoment Owner n q} (hq : 0 < q) (hrests : m.pre.Rests)
    (hm : (machine Owner n q).Fires m)
    {recv : Nat → UdpSocket → Option (SocketAddr × List UInt8)}
    (hlabel : m.label = .popIncoming recv) :
    ∃ out, m.events = [.popped out] ∧ m.pre.PopDoes recv out m.post (m.pre.attempts recv) := by
  obtain ⟨pre, label, events, post⟩ := m
  cases hlabel
  obtain ⟨out, hpop, rfl⟩ := step_popIncoming hm
  obtain ⟨out', b', hpop', hdoes⟩ := popIncoming_cases hq hrests.last hrests.buf recv
  cases hpop.symm.trans hpop'
  exact ⟨out, rfl, hdoes⟩

theorem rests_step (hq : 0 < q) (m : PollMoment Owner n q) (hm : (machine Owner n q).Fires m)
    (hrests : m.pre.Rests) : m.post.Rests where
  toClean := clean_step m hm hrests.toClean
  last := by
    obtain ⟨pre, label, events, post⟩ := m
    cases label with
    | onAction owner createUdp action =>
        have hstep : pre.step (.onAction owner createUdp action) = some (post, events) := hm
        rw [step] at hstep
        split at hstep
        · rename_i haction
          cases hstep
          exact (onAction_last haction).trans hrests.last
        · cases hstep
    | pollIncoming =>
        have hstep : pre.step .pollIncoming = some (post, events) := hm
        rw [step] at hstep
        obtain ⟨rfl, rfl⟩ := Prod.mk.inj (Option.some.inj hstep)
        rw [pollIncoming]
        split <;> exact hrests.last
    | popIncoming recv =>
        obtain ⟨out, -, hdoes⟩ := popIncoming_of_fires hq hrests hm rfl
        dsimp only at hdoes ⊢
        generalize attempts recv pre = slots at hdoes
        cases hdoes with
        | drained => rfl
        | _ => exact hrests.last

theorem rests_of_run (hq : 0 < q) {h : PollHistory Owner n q} {b : PollBackend Owner n q}
    (hr : (machine Owner n q).Run .default h b) : b.Rests :=
  hr.invariant (I := Rests) ⟨⟨nofun, rfl⟩, rfl⟩ (rests_step hq)

/-! ## What is attended to -/

/-- A `pop_incoming` returned `None` in the step. -/
def returnsNone (m : PollMoment Owner n q) : Bool :=
  m.events.any fun
    | .popped none => true
    | _ => false

/-- What was done since a `pop_incoming` last returned `None`. -/
def cycle (h : PollHistory Owner n q) : PollHistory Owner n q :=
  h.rtakeWhile fun m ↦ !returnsNone m

/-- A socket has been in a slot ever since. -/
def Stays (h : PollHistory Owner n q) (m : PollMoment Owner n q) (slot : Nat)
    (s : PollSocket Owner) : Prop :=
  ∀ k ∈ cycle h ++ [m], Slots.held k.pre.sockets slot = some s

/-- `recv_from` was called on the socket in a slot, and failed. -/
def Tries (slot : Nat) (s : PollSocket Owner) (m : PollMoment Owner n q) : Prop :=
  ∃ recv, m.label = .popIncoming recv ∧ slot ∈ m.pre.attempts recv ∧
    Slots.held m.pre.sockets slot = some s ∧ recv slot s.socket = none

/-- What a `pop_incoming` should return. -/
structure Attends (h : PollHistory Owner n q) (m : PollMoment Owner n q)
    (recv : Nat → UdpSocket → Option (SocketAddr × List UInt8)) : Prop where
  /-- What was queued first comes first. -/
  oldest : ∀ out rest, m.pre.output.toList = out :: rest →
    m.events = [.popped (some out)] ∧ m.post.output.toList = rest
  /-- Everything else was just read from a socket in its slot. -/
  read : ∀ out, m.pre.output.toList = [] → m.events = [.popped (some out)] →
    ∃ slot s sender datagram, Slots.held m.pre.sockets slot = some s ∧
      recv slot s.socket = some (sender, datagram) ∧
      out = .event s.owner (.udpPacket slot sender (received datagram))
  /-- There is nothing only if every socket has been tried that there was all the time. -/
  tried : m.events = [.popped none] →
    ∀ slot s, Stays h m slot s → ∃ k ∈ cycle h ++ [m], Tries slot s k

/-- A step that is a `pop_incoming` returns what it should. -/
def Attending (h : PollHistory Owner n q) (m : PollMoment Owner n q) : Prop :=
  ∀ recv, m.label = .popIncoming recv → Attends h m recv

/-- A step that is a `pop_incoming` with nothing queued finds no socket that there was all the
time. -/
def Deserted (h : PollHistory Owner n q) (m : PollMoment Owner n q) : Prop :=
  ∀ recv, m.label = .popIncoming recv → m.pre.output.toList = [] →
    ∀ slot s, ¬ Stays h m slot s

theorem Stays.held {h : PollHistory Owner n q} {m : PollMoment Owner n q} {slot : Nat}
    {s : PollSocket Owner} (hs : Stays h m slot s) : Slots.held m.pre.sockets slot = some s :=
  hs m (List.mem_append_right _ (List.mem_singleton_self m))

/-- With no stack part for the sockets, none is read. -/
theorem attempts_eq_nil (hn : n = 0)
    (recv : Nat → UdpSocket → Option (SocketAddr × List UInt8)) (b : PollBackend Owner n q) :
    b.attempts recv = [] := by
  rw [attempts]
  split
  · rfl
  · exact if_pos (b.sockets.isEmpty_iff.2 (.inr hn))

/-- **One step** returns what it should. -/
theorem attending_step (hq : 0 < q) {h : PollHistory Owner n q} {m : PollMoment Owner n q}
    (hrests : m.pre.Rests) (hm : (machine Owner n q).Fires m) :
    Attending h m ↔ 0 < n ∨ Deserted h m := by
  constructor
  · intro hatt
    rcases Nat.eq_zero_or_pos n with hn | hn
    · refine .inr fun recv hlabel hout slot s hstays ↦ ?_
      obtain ⟨out, hevents, hdoes⟩ := popIncoming_of_fires hq hrests hm hlabel
      cases out with
      | none =>
          obtain ⟨k, -, recv', -, hslot, -⟩ := (hatt recv hlabel).tried hevents slot s hstays
          rw [attempts_eq_nil hn] at hslot
          cases hslot
      | some out =>
          obtain ⟨slot, s, -, -, hs, -, -, -, hslots⟩ := hdoes.read hout
          have hslot := (mem_live hs).2 (Nat.lt_succ_self slot)
          rw [← hslots, attempts_eq_nil hn] at hslot
          cases hslot
    · exact .inl hn
  · intro hcond recv hlabel
    obtain ⟨out, hevents, hdoes⟩ := popIncoming_of_fires hq hrests hm hlabel
    constructor
    · intro x rest hout
      obtain ⟨rfl, hrest, -⟩ := hdoes.oldest hq hout
      exact ⟨hevents, hrest⟩
    · intro x hout hread
      obtain rfl : out = some x := by
        rw [hevents] at hread
        simpa using hread
      obtain ⟨slot, s, sender, datagram, hs, hrecv, hx, -⟩ := hdoes.read hout
      exact ⟨slot, s, sender, datagram, hs, hrecv, hx⟩
    · intro hnone slot s hstays
      obtain rfl : out = none := by
        rw [hevents] at hnone
        simpa using hnone
      have hout : m.pre.output.toList = [] := by
        cases hout : m.pre.output.toList with
        | nil => rfl
        | cons x rest => cases (hdoes.oldest hq hout).1
      rcases hcond with hn | hdeserted
      · obtain ⟨hslot, hfails⟩ := hdoes.tried hn hstays.held
        exact ⟨m, List.mem_append_right _ (List.mem_singleton_self m), recv, hlabel, hslot,
          hstays.held, hfails⟩
      · exact absurd hstays (hdeserted recv hlabel hout slot s)

/-- **A `PollBackend` does not overlook a socket** exactly if there is a stack part for its
sockets, or it is deserted whenever it has nothing else to return; and it never panics. -/
theorem attending_iff (hq : 0 < q) {h : PollHistory Owner n q} {b : PollBackend Owner n q}
    (hr : (machine Owner n q).Run .default h b) :
    (∀ recv, ∃ r, b.popIncoming recv = .ok r) ∧
      (Along Attending h ↔ 0 < n ∨ Along Deserted h) := by
  constructor
  · intro recv
    have hrests := rests_of_run hq hr
    obtain ⟨out, b', hpop, -⟩ := popIncoming_cases hq hrests.last hrests.buf recv
    exact ⟨_, hpop⟩
  · have hiff : Along Attending h ↔ Along (fun h m ↦ 0 < n ∨ Deserted h m) h :=
      hr.along_congr fun h m hr hm ↦ attending_step hq (rests_of_run hq hr) hm
    rw [hiff]
    constructor
    · intro hall
      rcases Nat.eq_zero_or_pos n with hn | hn
      · exact .inr fun h₁ m h₂ he ↦ (hall h₁ m h₂ he).resolve_left (Nat.not_lt.2 (Nat.le_of_eq hn))
      · exact .inl hn
    · rintro (hn | hall)
      · exact fun _ _ _ _ ↦ .inl hn
      · exact fun h₁ m h₂ he ↦ .inr (hall h₁ m h₂ he)

/-! ## A socket that is never read -/

/-- A socket is listened, and a datagram is there for it. -/
def overlooking : List (PollLabel Unit) :=
  [.onAction () (.ok (7, anyPort)) (.udpListen anyPort false),
    .popIncoming fun _ _ ↦ none, .popIncoming fun _ _ ↦ none,
    .popIncoming fun _ _ ↦ some (anyPort, [1, 2])]

/-- What comes of it without a stack part for the sockets. -/
def overlooked : PollHistory Unit 0 1 × PollBackend Unit 0 1 :=
  ((machine Unit 0 1).exec .default overlooking).get (by decide +kernel)

theorem attending_iff_overlooked :
    (∀ recv, ∃ r, overlooked.2.popIncoming recv = .ok r) ∧
      (Along Attending overlooked.1 ↔ 0 < 0 ∨ Along Deserted overlooked.1) :=
  attending_iff Nat.one_pos (Machine.exec_run_get _)

/-- The last of these calls. -/
def lastCall : PollMoment Unit 0 1 := overlooked.1.get ⟨3, by decide +kernel⟩

/-- **A socket may be overlooked**: nothing is popped, and it was not read. -/
theorem not_attending :
    ¬ ∀ h (b : PollBackend Unit 0 1), (machine Unit 0 1).Run .default h b → Along Attending h := by
  intro hall
  have hsplit : overlooked.1 = overlooked.1.take 3 ++ lastCall :: [] := rfl
  have hattends := hall _ _ (Machine.exec_run_get _) _ _ _ hsplit _ rfl
  have hstays : Stays (overlooked.1.take 3) lastCall 0 ⟨7, anyPort, ()⟩ := by
    intro k hk
    obtain rfl : k = lastCall := List.mem_singleton.1 hk
    rfl
  obtain ⟨k, -, recv, -, hslot, -⟩ := hattends.tried rfl 0 _ hstays
  rw [attempts_eq_nil rfl] at hslot
  cases hslot

end PollBackend

end SansIo.Backend
