import SansIo.Backend.Poll
import SansIo.Backend.PollQueue

/-!
# Answers to `UdpListen`

An owner that listens waits for a `UdpListenResult`.  `Answered` says what it may expect
of one, whatever the operating system does: exactly one result for it is queued, which
names the slot that holds the new socket, and a failure leaves nothing behind.

`PollBackend` always answers.  `PollingBackend` registers a new socket with its poller,
and where that fails it returns without an answer (`answers_iff`).
-/

namespace SansIo.Backend

open Lib Collections

variable {Owner S : Type} {n q : Nat}

/-- What an owner may expect of a `UdpListen`, from what the slots and the output queue
are `before` and `after`.  `created` is the socket that was created, and `opened` says
whether opening it went all the way. -/
structure Answered (udp : UdpSocket → SocketAddr → Owner → S) (before after : Nat → Option S)
    (queued queued' : List (BackendIncomingInternal Owner)) (owner : Owner) (bind : SocketAddr)
    (created : Option UdpSocket) (opened : Bool) : Prop where
  /-- One result is queued, and it names a slot when that holds the new socket. -/
  answer : ∃ result, queued' = queued ++ [.event owner (.udpListenResult bind result)] ∧
    ∀ slot, (∃ addr, result = .ok (addr, slot)) ↔
      ∃ socket addr, created = some socket ∧ after slot = some (udp socket addr owner)
  /-- A failure leaves the sockets as they are, -/
  kept : opened = false → ∀ i s, before i = some s → after i = some s
  /-- and the socket that could not be used in no slot. -/
  unheld : opened = false → ∀ socket, created = some socket →
    ∀ i addr owner', after i ≠ some (udp socket addr owner')

/-- The operating system does not give out a socket that is held already. -/
def Fresh (udp : UdpSocket → SocketAddr → Owner → S) (before : Nat → Option S)
    (created : Option UdpSocket) : Prop :=
  ∀ socket, created = some socket → ∀ i addr owner, before i ≠ some (udp socket addr owner)

variable {udp : UdpSocket → SocketAddr → Owner → S}
  {queued : List (BackendIncomingInternal Owner)} {owner : Owner} {bind : SocketAddr}

/-- A socket that goes into the slot selected for it is answered by the slot. -/
theorem answered_opened (v : DynamicVec (Option S) n) {socket : UdpSocket}
    (hfresh : Fresh udp (Slots.held v) (some socket))
    (addr : SocketAddr) :
    Answered udp (Slots.held v)
      (Slots.held ((Slots.select v).2.modify (Slots.select v).1 fun _ ↦
        some (udp socket addr owner)))
      queued (queued ++ [.event owner (.udpListenResult bind (.ok (addr, (Slots.select v).1)))])
      owner bind (some socket) true := by
  have hheld := Slots.held_modify (Slots.select_lt v) (some (udp socket addr owner))
  constructor
  · refine ⟨.ok (addr, (Slots.select v).1), rfl, fun slot ↦ ?_⟩
    rw [hheld]
    constructor
    · rintro ⟨addr', h⟩
      cases h
      exact ⟨socket, addr, rfl, if_pos rfl⟩
    · rintro ⟨socket', addr', hcreated, h⟩
      obtain rfl := Option.some.inj hcreated
      by_cases hslot : slot = (Slots.select v).1
      · exact ⟨addr, by rw [hslot]⟩
      · rw [if_neg hslot, Slots.held_select] at h
        exact absurd h (hfresh socket rfl slot addr' owner)
  · intro h
    cases h
  · intro h
    cases h

/-- So is a socket that cannot be created. -/
theorem answered_refused (before : Nat → Option S) (e : IoError) :
    Answered udp before before queued
      (queued ++ [.event owner (.udpListenResult bind (.error e))]) owner bind none false := by
  constructor
  · refine ⟨.error e, rfl, fun slot ↦ ?_⟩
    constructor
    · rintro ⟨addr, h⟩
      cases h
    · rintro ⟨socket, addr, h, -⟩
      cases h
  · exact fun _ _ _ h ↦ h
  · intro _ socket h
    cases h

/-- A queue that stays as it is holds no answer. -/
theorem not_answered {before after : Nat → Option S} {created : Option UdpSocket} {opened : Bool} :
    ¬ Answered udp before after queued queued owner bind created opened := by
  rintro ⟨⟨result, h, -⟩, -, -⟩
  simpa using congrArg List.length h

/-! ## `PollBackend` -/

namespace PollBackend

theorem selectSlot_eq (b : PollBackend Owner n q) :
    b.selectSlot =
      ((Slots.select b.sockets).1, { b with sockets := (Slots.select b.sockets).2 }) := by
  unfold selectSlot Slots.select
  cases b.sockets.toList.findIdx? Option.isNone <;> rfl

/-- A socket that is created is announced and kept. -/
theorem onAction_created (b : PollBackend Owner n q) (owner : Owner) (socket : UdpSocket)
    (localAddr bind : SocketAddr) (reuse : Bool) :
    b.onAction owner (.ok (socket, localAddr)) (.udpListen bind reuse) = .ok ({ b with
      sockets := (Slots.select b.sockets).2.modify (Slots.select b.sockets).1
        fun _ ↦ some ⟨socket, localAddr, owner⟩
      output := b.output.pushBack
        (.event owner (.udpListenResult bind (.ok (localAddr, (Slots.select b.sockets).1)))) },
      []) := by
  simp only [onAction, selectSlot_eq, DynamicVec.modifyOrPanic_of_lt (Slots.select_lt b.sockets),
    ok_bind]
  rfl

/-- A `UdpListen` is answered as its owner may expect. -/
def Answers (b : PollBackend Owner n q) (owner : Owner)
    (createUdp : Except IoError (UdpSocket × SocketAddr)) (bind : SocketAddr) (reuse : Bool) :
    Prop :=
  ∃ b' sent, b.onAction owner createUdp (.udpListen bind reuse) = .ok (b', sent) ∧
    Answered PollSocket.mk (Slots.held b.sockets) (Slots.held b'.sockets) b.output.toList
      b'.output.toList owner bind (createUdp.toOption.map Prod.fst) createUdp.isOk

theorem answers (b : PollBackend Owner n q) (owner : Owner)
    (createUdp : Except IoError (UdpSocket × SocketAddr)) (bind : SocketAddr) (reuse : Bool)
    (hfresh : Fresh PollSocket.mk (Slots.held b.sockets) (createUdp.toOption.map Prod.fst)) :
    b.Answers owner createUdp bind reuse := by
  cases createUdp with
  | error e =>
      refine ⟨_, _, rfl, ?_⟩
      rw [DynamicDeque.toList_pushBack]
      exact answered_refused (Slots.held b.sockets) e
  | ok created =>
      obtain ⟨socket, addr⟩ := created
      refine ⟨_, _, b.onAction_created owner socket addr bind reuse, ?_⟩
      rw [DynamicDeque.toList_pushBack]
      exact answered_opened b.sockets hfresh addr

end PollBackend

/-! ## `PollingBackend` -/

/-- The socket that was created. -/
def Opening.created : Opening → Option UdpSocket
  | .refused _ => none
  | .unregistered socket _ _ => some socket
  | .opened socket _ => some socket

/-- Whether the socket was opened. -/
def Opening.isOpened : Opening → Bool
  | .opened _ _ => true
  | _ => false

/-- The socket was bound, but the poller could not register it. -/
def Opening.Unregistered (opening : Opening) : Prop :=
  ∃ socket localAddr e, opening = .unregistered socket localAddr e

namespace PollingBackend

theorem selectSlot_eq (b : PollingBackend Owner n q) :
    b.selectSlot =
      ((Slots.select b.sockets).1, { b with sockets := (Slots.select b.sockets).2 }) := by
  unfold selectSlot Slots.select
  cases b.sockets.toList.findIdx? Option.isNone <;> rfl

/-- A socket that is opened is announced and kept. -/
theorem onAction_opened (b : PollingBackend Owner n q) (owner : Owner) (socket : UdpSocket)
    (localAddr bind : SocketAddr) (reuse : Bool) :
    b.onAction owner (.opened socket localAddr) (.udpListen bind reuse) = .ok ({ b with
      sockets := (Slots.select b.sockets).2.modify (Slots.select b.sockets).1
        fun _ ↦ some (.udp socket localAddr owner)
      output := b.output.pushBack
        (.event owner (.udpListenResult bind (.ok (localAddr, (Slots.select b.sockets).1)))) },
      []) := by
  simp only [onAction, selectSlot_eq, DynamicVec.modifyOrPanic_of_lt (Slots.select_lt b.sockets),
    ok_bind]
  rfl

/-- A `UdpListen` is answered as its owner may expect. -/
def Answers (b : PollingBackend Owner n q) (owner : Owner) (opening : Opening) (bind : SocketAddr)
    (reuse : Bool) : Prop :=
  ∃ b' sent, b.onAction owner opening (.udpListen bind reuse) = .ok (b', sent) ∧
    Answered SocketType.udp (Slots.held b.sockets) (Slots.held b'.sockets) b.output.toList
      b'.output.toList owner bind opening.created opening.isOpened

theorem answers_iff_registered (b : PollingBackend Owner n q) (owner : Owner) (opening : Opening)
    (bind : SocketAddr) (reuse : Bool)
    (hfresh : Fresh SocketType.udp (Slots.held b.sockets) opening.created) :
    b.Answers owner opening bind reuse ↔ ¬ opening.Unregistered := by
  cases opening with
  | refused e =>
      apply iff_of_true
      · refine ⟨_, _, rfl, ?_⟩
        rw [DynamicDeque.toList_pushBack]
        exact answered_refused (Slots.held b.sockets) e
      · rintro ⟨_, _, _, h⟩
        cases h
  | unregistered socket localAddr e =>
      apply iff_of_false
      · rintro ⟨b', sent, h, hanswered⟩
        cases h
        rw [selectSlot_eq] at hanswered
        exact not_answered hanswered
      · exact not_not_intro ⟨socket, localAddr, e, rfl⟩
  | opened socket localAddr =>
      apply iff_of_true
      · refine ⟨_, _, b.onAction_opened owner socket localAddr bind reuse, ?_⟩
        rw [DynamicDeque.toList_pushBack]
        exact answered_opened b.sockets hfresh localAddr
      · rintro ⟨_, _, _, h⟩
        cases h

end PollingBackend

/-! ## Both -/

/-- **Every listen is answered**, except where a `PollingBackend` cannot register the
socket with its poller. -/
theorem answers_iff :
    (∀ (b : PollBackend Owner n q) (owner : Owner)
      (createUdp : Except IoError (UdpSocket × SocketAddr)) (bind : SocketAddr) (reuse : Bool),
      Fresh PollSocket.mk (Slots.held b.sockets) (createUdp.toOption.map Prod.fst) →
        b.Answers owner createUdp bind reuse) ∧
    ∀ (b : PollingBackend Owner n q) (owner : Owner) (opening : Opening) (bind : SocketAddr)
      (reuse : Bool), Fresh SocketType.udp (Slots.held b.sockets) opening.created →
        (b.Answers owner opening bind reuse ↔ ¬ opening.Unregistered) := by
  constructor
  · exact fun b owner createUdp bind reuse ↦ b.answers owner createUdp bind reuse
  · exact fun b owner opening bind reuse ↦ b.answers_iff_registered owner opening bind reuse

/-- An address to bind to. -/
def anyPort : SocketAddr := ⟨[127, 0, 0, 1], 0⟩

/-- A backend that has the socket 3 already. -/
def PollBackend.beside : PollBackend Unit 2 2 :=
  { (.default : PollBackend Unit 2 2) with
    sockets := DynamicVec.default.push (some ⟨3, anyPort, ()⟩) }

/-- The same, with a poller. -/
def PollingBackend.beside : PollingBackend Unit 2 2 :=
  { (.default : PollingBackend Unit 2 2) with
    sockets := (DynamicVec.default.push (some .waker)).push (some (.udp 3 anyPort ())) }

theorem PollBackend.fresh_beside {socket : UdpSocket} (hne : socket ≠ 3) :
    Fresh PollSocket.mk (Slots.held beside.sockets) (some socket) := by
  rintro s ⟨⟩ i addr owner h
  rw [beside, Slots.held_push] at h
  split at h
  · cases h
    exact hne rfl
  · rw [Slots.held_default] at h
    cases h

theorem PollingBackend.fresh_beside {socket : UdpSocket} (hne : socket ≠ 3) :
    Fresh SocketType.udp (Slots.held beside.sockets) (some socket) := by
  rintro s ⟨⟩ i addr owner h
  rw [beside, Slots.held_push] at h
  split at h
  · cases h
    exact hne rfl
  · rw [Slots.held_push] at h
    split at h
    · cases h
    · rw [Slots.held_default] at h
      cases h

/-- Another socket is listened. -/
theorem answers_iff_beside :
    PollBackend.beside.Answers () (.ok (7, anyPort)) anyPort false ∧
      (PollingBackend.beside.Answers () (.opened 7 anyPort) anyPort false ↔
        ¬ (Opening.opened 7 anyPort).Unregistered) :=
  ⟨answers_iff.1 _ _ _ _ _ (PollBackend.fresh_beside (by decide)),
    answers_iff.2 _ _ _ _ _ (PollingBackend.fresh_beside (by decide))⟩

theorem PollingBackend.fresh_default (socket : UdpSocket) :
    Fresh SocketType.udp (Slots.held (.default : PollingBackend Unit 2 2).sockets)
      (some socket) := by
  rintro s - i addr owner h
  rw [default, Slots.held_push] at h
  split at h
  · cases h
  · rw [Slots.held_default] at h
    cases h

/-- A socket that is bound and cannot be registered: the owner gets no result. -/
theorem not_answers_default :
    Fresh SocketType.udp (Slots.held (PollingBackend.default : PollingBackend Unit 2 2).sockets)
        (Opening.unregistered 7 anyPort "File exists").created ∧
      ¬ (PollingBackend.default : PollingBackend Unit 2 2).Answers ()
        (.unregistered 7 anyPort "File exists") anyPort false := by
  constructor
  · exact PollingBackend.fresh_default 7
  · rintro ⟨b', sent, h, hanswered⟩
    cases h
    rw [PollingBackend.selectSlot_eq] at hanswered
    exact not_answered hanswered

end SansIo.Backend
