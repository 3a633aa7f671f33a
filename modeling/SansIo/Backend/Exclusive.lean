import SansIo.Backend.Listen
import SansIo.Lib.Registry

/-!
# Slots are exclusive

A slot that is announced to an owner is its own until it is unlistened: no other socket
is put there, the packets that come from it were read from its socket, and they go to
the owner that listened it.

Both backends are a `SlotTable`: a machine with a table of sockets, whose actions change
the table as `ActionDoes` says, and whose other steps do not.  So both are registries,
and what follows from that is proved once.  `slots_exclusive` adds what each of them does
with packets, counts and the slot of the waker.
-/

namespace SansIo.Backend

open Lib Collections

variable {Owner : Type} {n q : Nat}

/-- A socket with its address and its owner. -/
abbrev Listening (Owner : Type) := UdpSocket × SocketAddr × Owner

/-- What is seen of a backend: what goes into its output queue, and what is popped. -/
inductive Seen (Owner : Type) where
  | queued (out : BackendIncomingInternal Owner)
  | popped (out : Option (BackendIncomingInternal Owner))

section Table

variable {S : Type}

/-- What an action may do to the table of sockets, and what it queues. -/
inductive ActionDoes (udp : Listening Owner → S) (owner : Owner)
    (created : Option (UdpSocket × SocketAddr)) (before after : Nat → Option S) :
    BackendOutgoing → List (BackendIncomingInternal Owner) → Prop
  | /-- A socket is put into a vacant slot, which is announced. -/
    announces {bind reuse slot socket addr} (hcreated : created = some (socket, addr))
      (hvacant : before slot = none)
      (hafter : ∀ i, after i = if i = slot then some (udp (socket, addr, owner)) else before i) :
      ActionDoes udp owner created before after (.udpListen bind reuse)
        [.event owner (.udpListenResult bind (.ok (addr, slot)))]
  | /-- A failure is reported. -/
    refuses {bind reuse e} (hafter : ∀ i, after i = before i) :
      ActionDoes udp owner created before after (.udpListen bind reuse)
        [.event owner (.udpListenResult bind (.error e))]
  | /-- A failure is not reported. -/
    fails {bind reuse} (hafter : ∀ i, after i = before i) :
      ActionDoes udp owner created before after (.udpListen bind reuse) []
  | /-- A socket is taken out of its slot. -/
    releases {slot l} (hheld : before slot = some (udp l))
      (hafter : ∀ i, after i = if i = slot then none else before i) :
      ActionDoes udp owner created before after (.udpUnlisten slot) []
  | /-- There is no socket to take out. -/
    ignores {slot} (hnone : ∀ l, before slot ≠ some (udp l)) (hafter : ∀ i, after i = before i) :
      ActionDoes udp owner created before after (.udpUnlisten slot) []
  | /-- Packets are sent. -/
    sends {action} (hlisten : ∀ bind reuse, action ≠ .udpListen bind reuse)
      (hunlisten : ∀ slot, action ≠ .udpUnlisten slot) (hafter : ∀ i, after i = before i) :
      ActionDoes udp owner created before after action []

end Table

/-- A machine with a table of sockets. -/
structure SlotTable (σ lab Owner S : Type) where
  /-- The machine. -/
  machine : Machine σ lab (Seen Owner)
  /-- Where it starts. -/
  start : σ
  /-- The table. -/
  table : σ → Nat → Option S
  /-- Labels that are actions, with their owner and the socket that is opened. -/
  action : lab → Option (Owner × Option (UdpSocket × SocketAddr) × BackendOutgoing)
  /-- The entries that are sockets, -/
  udp : Listening Owner → S
  /-- and no others. -/
  asUdp : S → Option (Listening Owner)
  asUdp_eq : ∀ s l, asUdp s = some l ↔ s = udp l
  /-- No socket is open at first. -/
  closed : ∀ i l, table start i ≠ some (udp l)
  /-- Actions change the table, -/
  acts : ∀ m, machine.Fires m → ∀ owner created action', action m.label =
    some (owner, created, action') → ∃ out,
      ActionDoes udp owner created (table m.pre) (table m.post) action' out ∧
        m.events = out.map .queued
  /-- and other steps do not, -/
  stays : ∀ m, machine.Fires m → action m.label = none → table m.post = table m.pre
  /-- nor do they answer an owner. -/
  quiet : ∀ m, machine.Fires m → action m.label = none → ∀ owner event,
    Seen.queued (.event owner event) ∉ m.events

namespace SlotTable

variable {σ lab S : Type} (B : SlotTable σ lab Owner S)

/-- The socket in a slot. -/
def udpAt (s : σ) (i : Nat) : Option (Listening Owner) := (B.table s i).bind B.asUdp

/-- A slot is announced to an owner, in an `Ok` result, with a socket that was opened for
it. -/
def Announces (m : Moment σ lab (Seen Owner)) (i : Nat) (l : Listening Owner) : Prop :=
  ∃ bind reuse, B.action m.label = some (l.2.2, some (l.1, l.2.1), .udpListen bind reuse) ∧
    Seen.queued (.event l.2.2 (.udpListenResult bind (.ok (l.2.1, i)))) ∈ m.events

/-- A slot is unlistened, by any owner. -/
def Unlistens (m : Moment σ lab (Seen Owner)) (i : Nat) : Prop :=
  ∃ owner created, B.action m.label = some (owner, created, .udpUnlisten i)

/-- A slot has been announced and not been unlistened since. -/
def Open (h : History σ lab (Seen Owner)) (i : Nat) (l : Listening Owner) : Prop :=
  Since (fun m ↦ ¬ B.Unlistens m i) (fun m ↦ B.Announces m i l) h

theorem udpAt_eq_some {s : σ} {i : Nat} {l : Listening Owner} :
    B.udpAt s i = some l ↔ B.table s i = some (B.udp l) := by
  rw [udpAt, Option.bind_eq_some_iff]
  constructor
  · rintro ⟨x, hx, hl⟩
    rw [hx, (B.asUdp_eq x l).1 hl]
  · intro h
    exact ⟨_, h, (B.asUdp_eq _ l).2 rfl⟩

variable {B} {m : Moment σ lab (Seen Owner)}

/-- **A slot that is announced was vacant**, and holds the socket. -/
theorem Announces.table_eq (hm : B.machine.Fires m) {i : Nat} {l : Listening Owner}
    (ha : B.Announces m i l) :
    B.table m.pre i = none ∧ B.table m.post i = some (B.udp l) := by
  obtain ⟨bind, reuse, haction, hqueued⟩ := ha
  obtain ⟨out, hdoes, hevents⟩ := B.acts m hm _ _ _ haction
  rw [hevents, List.mem_map] at hqueued
  obtain ⟨x, hx, heq⟩ := hqueued
  cases heq
  cases hdoes with
  | announces hcreated hvacant hafter =>
      cases hcreated
      cases List.mem_singleton.1 hx
      exact ⟨hvacant, (hafter i).trans (if_pos rfl)⟩
  | refuses hafter => cases List.mem_singleton.1 hx
  | fails hafter => cases hx
  | sends hlisten _ _ => exact absurd rfl (hlisten bind reuse)

/-- Only an action announces a slot, to the owner that did it. -/
theorem announces_of_queued (hm : B.machine.Fires m) {owner : Owner} {bind addr : SocketAddr}
    {i : Nat} (hqueued : Seen.queued (.event owner (.udpListenResult bind (.ok (addr, i)))) ∈
      m.events) : ∃ socket, B.Announces m i (socket, addr, owner) := by
  cases haction : B.action m.label with
  | none => exact absurd hqueued (B.quiet m hm haction _ _)
  | some a =>
      obtain ⟨owner', created, action⟩ := a
      obtain ⟨out, hdoes, hevents⟩ := B.acts m hm _ _ _ haction
      have hmem := hqueued
      rw [hevents, List.mem_map] at hmem
      obtain ⟨x, hx, heq⟩ := hmem
      cases heq
      cases hdoes with
      | @announces bind' reuse slot socket addr' hcreated hvacant hafter =>
          cases List.mem_singleton.1 hx
          refine ⟨socket, bind, reuse, ?_, hqueued⟩
          rw [haction, hcreated]
      | refuses hafter => cases List.mem_singleton.1 hx
      | fails hafter => cases hx
      | releases hheld hafter => cases hx
      | ignores hnone hafter => cases hx
      | sends _ _ hafter => cases hx

/-- A slot that is unlistened holds no socket. -/
theorem Unlistens.udpAt_eq (hm : B.machine.Fires m) {i : Nat} (hu : B.Unlistens m i) :
    B.udpAt m.post i = none := by
  obtain ⟨owner, created, haction⟩ := hu
  obtain ⟨out, hdoes, -⟩ := B.acts m hm _ _ _ haction
  rw [Option.eq_none_iff_forall_ne_some]
  intro l hl
  rw [udpAt_eq_some] at hl
  cases hdoes with
  | releases hheld hafter => cases hl.symm.trans ((hafter i).trans (if_pos rfl))
  | ignores hnone hafter => exact hnone l ((hafter i).symm.trans hl)
  | sends _ hunlisten _ => exact hunlisten i rfl

/-- Nothing else happens to a slot. -/
theorem table_eq (hm : B.machine.Fires m) {i : Nat} (ha : ∀ l, ¬ B.Announces m i l)
    (hu : ¬ B.Unlistens m i) : B.table m.post i = B.table m.pre i := by
  cases haction : B.action m.label with
  | none => exact congrFun (B.stays m hm haction) i
  | some a =>
      obtain ⟨owner, created, action⟩ := a
      obtain ⟨out, hdoes, hevents⟩ := B.acts m hm _ _ _ haction
      cases hdoes with
      | @announces bind reuse slot socket addr hcreated hvacant hafter =>
          refine (hafter i).trans (if_neg ?_)
          rintro rfl
          refine ha (socket, addr, owner) ⟨bind, reuse, ?_, ?_⟩
          · rw [haction, hcreated]
          · rw [hevents]
            exact List.mem_singleton.2 rfl
      | refuses hafter => exact hafter i
      | fails hafter => exact hafter i
      | @releases slot l hheld hafter =>
          refine (hafter i).trans (if_neg ?_)
          rintro rfl
          exact hu ⟨owner, created, haction⟩
      | ignores hnone hafter => exact hafter i
      | sends _ _ hafter => exact hafter i

/-- An entry that is not a socket is left alone. -/
theorem table_eq_other (hm : B.machine.Fires m) {i : Nat} {x : S} (hx : B.asUdp x = none) :
    B.table m.post i = some x ↔ B.table m.pre i = some x := by
  have hudp : ∀ l, x ≠ B.udp l := by
    rintro l rfl
    rw [(B.asUdp_eq _ l).2 rfl] at hx
    cases hx
  cases haction : B.action m.label with
  | none => rw [B.stays m hm haction]
  | some a =>
      obtain ⟨owner, created, action⟩ := a
      obtain ⟨out, hdoes, -⟩ := B.acts m hm _ _ _ haction
      cases hdoes with
      | @announces bind reuse slot socket addr hcreated hvacant hafter =>
          rw [hafter]
          split
          · rename_i hi
            rw [hi, hvacant]
            exact iff_of_false (fun h ↦ hudp _ (Option.some.inj h).symm) nofun
          · rfl
      | refuses hafter => rw [hafter]
      | fails hafter => rw [hafter]
      | @releases slot l hheld hafter =>
          rw [hafter]
          split
          · rename_i hi
            rw [hi, hheld]
            exact iff_of_false nofun fun h ↦ hudp l (Option.some.inj h).symm
          · rfl
      | ignores hnone hafter => rw [hafter]
      | sends _ _ hafter => rw [hafter]

variable (B)

/-- **The sockets of a backend are a registry.** -/
theorem registry : Registry B.machine B.start B.udpAt B.Announces B.Unlistens where
  start i := by
    rw [Option.eq_none_iff_forall_ne_some]
    intro l hl
    exact B.closed i l (B.udpAt_eq_some.1 hl)
  announced h m _ hm i l ha := by
    obtain ⟨hpre, hpost⟩ := ha.table_eq hm
    exact ⟨by rw [udpAt, hpre]; rfl, B.udpAt_eq_some.2 hpost⟩
  released h m _ hm i hu := hu.udpAt_eq hm
  kept h m _ hm i ha hu := congrArg (Option.bind · B.asUdp) (table_eq hm ha hu)

/-- What holds of a run of either backend. -/
structure Exclusive (h : History σ lab (Seen Owner)) (s : σ) : Prop where
  /-- Every `Ok` result announces its slot to the owner that listened. -/
  announced : ∀ m ∈ h, ∀ owner bind addr i,
    Seen.queued (.event owner (.udpListenResult bind (.ok (addr, i)))) ∈ m.events →
      ∃ socket, B.Announces m i (socket, addr, owner)
  /-- A slot that is announced was vacant. -/
  vacant : ∀ m ∈ h, ∀ i l, B.Announces m i l → B.table m.pre i = none
  /-- It keeps that socket and that owner until it is unlistened, and no other slot holds
  a socket. -/
  udpAt_iff : ∀ i l, B.udpAt s i = some l ↔ B.Open h i l

theorem exclusive_of_run {h : History σ lab (Seen Owner)} {s : σ}
    (hr : B.machine.Run B.start h s) : B.Exclusive h s := by
  constructor
  · intro m hm owner bind addr i hqueued
    obtain ⟨h₁, h₂, rfl⟩ := List.append_of_mem hm
    exact announces_of_queued hr.split.2.1 hqueued
  · intro m hm i l ha
    obtain ⟨h₁, h₂, rfl⟩ := List.append_of_mem hm
    exact (ha.table_eq hr.split.2.1).1
  · exact B.registry.held_iff hr

/-- Every packet of a history was read from the socket that was announced in its slot and
had not been unlistened, and goes to the owner of that.  `reads` is what a read of a socket
gives in a step. -/
def Packets (reads : lab → Nat → UdpSocket → SocketAddr → List UInt8 → Prop)
    (h : History σ lab (Seen Owner)) : Prop :=
  ∀ h₁ m h₂, h = h₁ ++ m :: h₂ → ∀ owner slot sender data,
    Seen.popped (some (.event owner (.udpPacket slot sender data))) ∈ m.events →
      ∃ socket addr datagram, B.Open h₁ slot (socket, addr, owner) ∧
        reads m.label slot socket sender datagram ∧ data = received datagram

/-- So it is where a step reads from the sockets that the table holds. -/
theorem packets_of_run {reads : lab → Nat → UdpSocket → SocketAddr → List UInt8 → Prop}
    {I : σ → Prop} (hstart : I B.start) (hkept : ∀ m, B.machine.Fires m → I m.pre → I m.post)
    (hreads : ∀ m, B.machine.Fires m → I m.pre → ∀ owner slot sender data,
      Seen.popped (some (.event owner (.udpPacket slot sender data))) ∈ m.events →
        ∃ socket addr datagram, B.table m.pre slot = some (B.udp (socket, addr, owner)) ∧
          reads m.label slot socket sender datagram ∧ data = received datagram)
    {h : History σ lab (Seen Owner)} {s : σ} (hr : B.machine.Run B.start h s) :
    B.Packets reads h := by
  rintro h₁ m h₂ rfl owner slot sender data hmem
  obtain ⟨hr₁, hm, -⟩ := hr.split
  obtain ⟨socket, addr, datagram, htable, hread, hdata⟩ :=
    hreads m hm (hr₁.invariant hstart hkept) owner slot sender data hmem
  refine ⟨socket, addr, datagram, ?_, hread, hdata⟩
  rw [← (B.exclusive_of_run hr₁).udpAt_iff, B.udpAt_eq_some]
  exact htable

end SlotTable

/-- What has been queued between two states of an output queue. -/
def queuedBetween (before after : DynamicDeque (BackendIncomingInternal Owner) q) :
    List (Seen Owner) :=
  (after.toList.drop before.toList.length).map .queued

theorem queuedBetween_append {before after : DynamicDeque (BackendIncomingInternal Owner) q}
    {out : List (BackendIncomingInternal Owner)} (h : after.toList = before.toList ++ out) :
    queuedBetween before after = out.map .queued := by
  rw [queuedBetween, h, List.drop_left]

/-- An output queue holds no packets: they are made when they are popped. -/
def NoPackets (queue : List (BackendIncomingInternal Owner)) : Prop :=
  ∀ owner slot sender data, .event owner (.udpPacket slot sender data) ∉ queue

theorem NoPackets.append {queue out : List (BackendIncomingInternal Owner)}
    (h : NoPackets queue) (h' : NoPackets out) : NoPackets (queue ++ out) := by
  intro owner slot sender data hmem
  rcases List.mem_append.1 hmem with hmem | hmem
  · exact h _ _ _ _ hmem
  · exact h' _ _ _ _ hmem

theorem ActionDoes.noPackets {S : Type} {udp : Listening Owner → S} {owner : Owner}
    {created : Option (UdpSocket × SocketAddr)} {before after : Nat → Option S}
    {action : BackendOutgoing} {out : List (BackendIncomingInternal Owner)}
    (h : ActionDoes udp owner created before after action out) : NoPackets out := by
  intro owner' slot sender data hmem
  cases h with
  | announces => cases List.mem_singleton.1 hmem
  | refuses => cases List.mem_singleton.1 hmem
  | fails => cases hmem
  | releases => cases hmem
  | ignores => cases hmem
  | sends => cases hmem

/-! ## `PollBackend` -/

/-- What is done with a `PollBackend`. -/
inductive PollLabel (Owner : Type) where
  | onAction (owner : Owner) (createUdp : Except IoError (UdpSocket × SocketAddr))
      (action : BackendOutgoing)
  | pollIncoming
  | popIncoming (recv : Nat → UdpSocket → Option (SocketAddr × List UInt8))

namespace PollBackend

/-- The entry of a socket. -/
def udp (l : Listening Owner) : PollSocket Owner := ⟨l.1, l.2.1, l.2.2⟩

/-- An action on a `PollBackend`. -/
theorem onAction_does {b b' : PollBackend Owner n q} {owner : Owner}
    {createUdp : Except IoError (UdpSocket × SocketAddr)} {action : BackendOutgoing}
    {sent : List Datagram}
    (h : b.onAction owner createUdp action = .ok (b', sent)) :
    ∃ out, b'.output.toList = b.output.toList ++ out ∧ b'.buf = b.buf ∧
      ActionDoes udp owner createUdp.toOption (Slots.held b.sockets) (Slots.held b'.sockets) action
        out := by
  cases action with
  | udpListen bind reuse =>
      cases createUdp with
      | error e =>
          cases h
          exact ⟨_, DynamicDeque.toList_pushBack .., rfl, .refuses fun _ ↦ rfl⟩
      | ok created =>
          obtain ⟨socket, addr⟩ := created
          rw [onAction_created] at h
          cases h
          refine ⟨_, DynamicDeque.toList_pushBack .., rfl,
            .announces rfl (Slots.held_selected b.sockets) fun i ↦ ?_⟩
          rw [Slots.held_modify (Slots.select_lt b.sockets), Slots.held_select]
          rfl
  | udpUnlisten slot =>
      rw [onAction] at h
      split at h
      · rename_i s hget
        cases h
        have hheld := Slots.held_eq_some.2 hget
        exact ⟨[], (List.append_nil _).symm, rfl, .releases (l := (s.socket, s.localAddr, s.owner))
          hheld (Slots.held_modify (Slots.lt_of_held hheld) none)⟩
      · rename_i hget
        cases h
        refine ⟨[], (List.append_nil _).symm, rfl, .ignores (fun l hl ↦ ?_) fun _ ↦ rfl⟩
        exact hget _ (Slots.held_eq_some.1 hl)
  | udpPacket slot dest data =>
      obtain ⟨datagrams, -, h⟩ := bind_ok.mp h
      cases h
      exact ⟨[], (List.append_nil _).symm, rfl, .sends (by simp) (by simp) fun _ ↦ rfl⟩
  | udpPackets slot dests data =>
      obtain ⟨datagrams, -, h⟩ := bind_ok.mp h
      cases h
      exact ⟨[], (List.append_nil _).symm, rfl, .sends (by simp) (by simp) fun _ ↦ rfl⟩
  | udpPackets2 dests data =>
      obtain ⟨datagrams, -, h⟩ := bind_ok.mp h
      cases h
      exact ⟨[], (List.append_nil _).symm, rfl, .sends (by simp) (by simp) fun _ ↦ rfl⟩

theorem packet_eq {b : PollBackend Owner n q} (hbuf : b.buf = .new 100 1500) (slot : Nat)
    (owner : Owner) (sender : SocketAddr) (datagram : List UInt8) :
    b.packet slot owner sender datagram =
      .ok (some (.event owner (.udpPacket slot sender (received datagram))),
        { b with buf := .new 100 1500 }) := by
  have hlen : (datagram.take 1500).length ≤ 1500 := List.length_take_le ..
  have hfits := Buffer.moveBackRight_written hlen (show 100 + 1500 < 2 ^ 64 by decide)
  simp only [packet, hbuf, recvFrom, Buffer.remainLen_new, hfits, received]

/-- The datagram that there is at a slot, with the owner of the socket. -/
def datagramAt (recv : Nat → UdpSocket → Option (SocketAddr × List UInt8))
    (b : PollBackend Owner n q) (slot : Nat) : Option (Owner × SocketAddr × List UInt8) :=
  (Slots.held b.sockets slot).bind fun s ↦ (recv slot s.socket).map (s.owner, ·)

theorem datagramAt_eq_some {recv : Nat → UdpSocket → Option (SocketAddr × List UInt8)}
    {b : PollBackend Owner n q} {slot : Nat} {owner : Owner} {sender : SocketAddr}
    {datagram : List UInt8} :
    b.datagramAt recv slot = some (owner, sender, datagram) ↔
      ∃ s, Slots.held b.sockets slot = some s ∧ recv slot s.socket = some (sender, datagram) ∧
        s.owner = owner := by
  rw [datagramAt, Option.bind_eq_some_iff]
  simp only [Option.map_eq_some_iff, Prod.mk.injEq]
  grind

theorem datagramAt_eq_none {recv : Nat → UdpSocket → Option (SocketAddr × List UInt8)}
    {b : PollBackend Owner n q} {slot : Nat} :
    b.datagramAt recv slot = none ↔
      ∀ s, Slots.held b.sockets slot = some s → recv slot s.socket = none := by
  rw [datagramAt, Option.bind_eq_none_iff]
  simp only [Option.map_eq_none_iff]

/-- One turn of the loop. -/
theorem turn_eq (recv : Nat → UdpSocket → Option (SocketAddr × List UInt8))
    (b : PollBackend Owner n q) (slot : Nat) :
    b.turn recv slot = match b.datagramAt recv slot with
      | some (owner, sender, datagram) => .inr (b.packet slot owner sender datagram)
      | none =>
        if slot = b.sockets.len - 1 then .inr (.ok (none, { b with lastPollSocket := none }))
        else if slot < b.sockets.len then .inl (slot + 1)
        else .inr (throw "attempt to add with overflow") := by
  unfold turn datagramAt Slots.held
  generalize b.sockets.get slot = o
  rcases o with _ | _ | s
  · rfl
  · rfl
  · rfl

/-- A packet was read from the socket in its slot, for the owner of that. -/
def FromSocket (b : PollBackend Owner n q)
    (recv : Nat → UdpSocket → Option (SocketAddr × List UInt8))
    (out : Option (BackendIncomingInternal Owner)) : Prop :=
  ∀ owner slot sender data, out = some (.event owner (.udpPacket slot sender data)) →
    ∃ socket addr datagram, Slots.held b.sockets slot = some (udp (socket, addr, owner)) ∧
      recv slot socket = some (sender, datagram) ∧ data = received datagram

theorem turn_inr {recv : Nat → UdpSocket → Option (SocketAddr × List UInt8)}
    {b b' : PollBackend Owner n q} {slot : Nat} {out : Option (BackendIncomingInternal Owner)}
    (hbuf : b.buf = .new 100 1500) (h : b.turn recv slot = .inr (.ok (out, b'))) :
    b'.output = b.output ∧ b'.buf = .new 100 1500 ∧ b.FromSocket recv out := by
  rw [turn_eq] at h
  split at h
  · rename_i owner sender datagram hd
    obtain ⟨s, hs, hrecv, rfl⟩ := datagramAt_eq_some.1 hd
    rw [packet_eq hbuf] at h
    cases h
    refine ⟨rfl, rfl, ?_⟩
    rintro owner' slot' sender' data hout
    cases hout
    exact ⟨s.socket, s.localAddr, datagram, hs, hrecv, rfl⟩
  · split at h
    · cases h
      exact ⟨rfl, hbuf, nofun⟩
    · split at h
      · cases h
      · cases h

/-- A turn that leaves changes no socket. -/
theorem turn_sockets {recv : Nat → UdpSocket → Option (SocketAddr × List UInt8)}
    {b b' : PollBackend Owner n q} {slot : Nat} {out : Option (BackendIncomingInternal Owner)}
    (h : b.turn recv slot = .inr (.ok (out, b'))) : b'.sockets = b.sockets := by
  rw [turn_eq] at h
  split at h
  · rw [packet] at h
    dsimp only at h
    split at h
    · cases h
      rfl
    · cases h
  · split at h
    · cases h
      rfl
    · split at h
      · cases h
      · cases h

/-- Popping changes no socket. -/
theorem popIncoming_sockets {recv : Nat → UdpSocket → Option (SocketAddr × List UInt8)}
    {b b' : PollBackend Owner n q} {out : Option (BackendIncomingInternal Owner)}
    (h : b.popIncoming recv = .ok (out, b')) : b'.sockets = b.sockets := by
  rw [popIncoming] at h
  split at h
  · cases h
    rfl
  · dsimp only at h
    split at h
    · cases h
      rfl
    · rename_i output _ _
      have hreturns : Loop.Returns (turn recv { b with output }) (b.lastPollSocket.getD 0)
          (.ok (out, b')) := by
        rw [← h]
        exact Loop.returns_run _
      obtain ⟨slot, -, hturn⟩ := hreturns.exit
      exact turn_sockets (b := { b with output }) hturn

/-- What is popped is no packet of the output queue. -/
theorem popIncoming_does {recv : Nat → UdpSocket → Option (SocketAddr × List UInt8)}
    {b b' : PollBackend Owner n q} {out : Option (BackendIncomingInternal Owner)}
    (hbuf : b.buf = .new 100 1500) (hno : NoPackets b.output.toList)
    (h : b.popIncoming recv = .ok (out, b')) :
    NoPackets b'.output.toList ∧ b'.buf = .new 100 1500 ∧ b.FromSocket recv out := by
  rw [popIncoming] at h
  obtain ⟨x, hx, hlist⟩ | ⟨hnone, hlist⟩ := b.output.popFront_cases
  · rw [show b.output.popFront = (some x, b.output.popFront.2) from Prod.ext hx rfl] at h
    cases h
    rw [hlist] at hno
    refine ⟨fun owner slot sender data hmem ↦ ?_, hbuf, fun owner slot sender data hout ↦ ?_⟩
    · exact hno owner slot sender data (List.mem_cons_of_mem _ hmem)
    · cases hout
      exact absurd List.mem_cons_self (hno owner slot sender data)
  · rw [show b.output.popFront = (none, b.output.popFront.2) from Prod.ext hnone rfl] at h
    dsimp only at h
    rw [← hlist] at hno
    split at h
    · cases h
      exact ⟨hno, hbuf, nofun⟩
    · have hreturns : Loop.Returns (turn recv { b with output := b.output.popFront.2 })
          (b.lastPollSocket.getD 0) (.ok (out, b')) := by
        rw [← h]
        exact Loop.returns_run _
      obtain ⟨slot, -, hturn⟩ := hreturns.exit
      obtain ⟨houtput, hbuf', hfrom⟩ :=
        turn_inr (b := { b with output := b.output.popFront.2 }) hbuf hturn
      refine ⟨?_, hbuf', hfrom⟩
      rw [houtput]
      exact hno

/-- One step of a `PollBackend`.  A step that panics is not one. -/
def step (b : PollBackend Owner n q) :
    PollLabel Owner → Option (PollBackend Owner n q × List (Seen Owner))
  | .onAction owner createUdp action => match b.onAction owner createUdp action with
    | .ok (b', _) => some (b', queuedBetween b.output b'.output)
    | .error _ => none
  | .pollIncoming => some (b.pollIncoming, queuedBetween b.output b.pollIncoming.output)
  | .popIncoming recv => match b.popIncoming recv with
    | .ok (out, b') => some (b', [.popped out])
    | .error _ => none

/-- `PollBackend`, with what is done with it. -/
def machine (Owner : Type) (n q : Nat) :
    Machine (PollBackend Owner n q) (PollLabel Owner) (Seen Owner) := ⟨step⟩

/-- What every run of a `PollBackend` keeps. -/
structure Clean (b : PollBackend Owner n q) : Prop where
  /-- There are no packets in the output queue. -/
  noPackets : NoPackets b.output.toList
  /-- The buffer is a new one. -/
  buf : b.buf = .new 100 1500

/-- An action is seen as it is done. -/
theorem step_onAction {b b' : PollBackend Owner n q} {owner : Owner}
    {createUdp : Except IoError (UdpSocket × SocketAddr)} {action : BackendOutgoing}
    {events : List (Seen Owner)}
    (h : b.step (.onAction owner createUdp action) = some (b', events)) :
    ∃ out, b'.output.toList = b.output.toList ++ out ∧ b'.buf = b.buf ∧ events = out.map .queued ∧
      ActionDoes udp owner createUdp.toOption (Slots.held b.sockets) (Slots.held b'.sockets) action
        out := by
  rw [step] at h
  split at h
  · rename_i _ sent haction
    cases h
    obtain ⟨out, hout, hbuf, hdoes⟩ := onAction_does haction
    exact ⟨out, hout, hbuf, queuedBetween_append hout, hdoes⟩
  · cases h

theorem step_popIncoming {b b' : PollBackend Owner n q}
    {recv : Nat → UdpSocket → Option (SocketAddr × List UInt8)} {events : List (Seen Owner)}
    (h : b.step (.popIncoming recv) = some (b', events)) :
    ∃ out, b.popIncoming recv = .ok (out, b') ∧ events = [.popped out] := by
  rw [step] at h
  split at h
  · rename_i out _ hpop
    cases h
    exact ⟨out, hpop, rfl⟩
  · cases h

/-- The worker is woken where there is nothing else for it. -/
theorem step_pollIncoming {b b' : PollBackend Owner n q} {events : List (Seen Owner)}
    (h : b.step .pollIncoming = some (b', events)) :
    ∃ out, b'.output.toList = b.output.toList ++ out ∧ b'.buf = b.buf ∧ events = out.map .queued ∧
      b'.sockets = b.sockets ∧ ∀ x ∈ out, x = .awake := by
  rw [step] at h
  obtain ⟨rfl, rfl⟩ := Prod.mk.inj (Option.some.inj h)
  by_cases hout : b.output.isEmpty = true
  · have heq : b.pollIncoming = { b with output := b.output.pushBack .awake } := by
      simp [pollIncoming, hout]
    rw [heq]
    have hpush := b.output.toList_pushBack .awake
    exact ⟨[.awake], hpush, rfl, queuedBetween_append hpush, rfl, fun x hx ↦ by simpa using hx⟩
  · have heq : b.pollIncoming = b := by
      simp [pollIncoming, hout]
    rw [heq]
    have hnone := (List.append_nil b.output.toList).symm
    exact ⟨[], hnone, rfl, queuedBetween_append hnone, rfl, nofun⟩

/-- A `PollBackend` has a table of sockets. -/
def slotTable (Owner : Type) (n q : Nat) :
    SlotTable (PollBackend Owner n q) (PollLabel Owner) Owner (PollSocket Owner) where
  machine := machine Owner n q
  start := .default
  table b := Slots.held b.sockets
  action
    | .onAction owner createUdp action => some (owner, createUdp.toOption, action)
    | _ => none
  udp := udp
  asUdp s := some (s.socket, s.localAddr, s.owner)
  asUdp_eq := by
    rintro s ⟨socket, addr, owner⟩
    constructor
    · intro h
      cases h
      rfl
    · intro h
      cases h
      rfl
  closed := by
    intro i l h
    rw [default, Slots.held_default] at h
    cases h
  acts := by
    intro m hm owner created action' haction
    obtain ⟨pre, label, events, post⟩ := m
    cases label with
    | onAction owner' createUdp action =>
        cases haction
        obtain ⟨out, -, -, hevents, hdoes⟩ := step_onAction hm
        exact ⟨out, hdoes, hevents⟩
    | pollIncoming => cases haction
    | popIncoming recv => cases haction
  stays := by
    intro m hm haction
    obtain ⟨pre, label, events, post⟩ := m
    cases label with
    | onAction owner createUdp action => cases haction
    | pollIncoming =>
        obtain ⟨out, -, -, -, hsockets, -⟩ := step_pollIncoming hm
        exact congrArg Slots.held hsockets
    | popIncoming recv =>
        obtain ⟨out, hpop, -⟩ := step_popIncoming hm
        exact congrArg Slots.held (popIncoming_sockets hpop)
  quiet := by
    intro m hm haction owner event hqueued
    obtain ⟨pre, label, events, post⟩ := m
    cases label with
    | onAction owner' createUdp action => cases haction
    | pollIncoming =>
        obtain ⟨out, -, -, rfl, -, hawake⟩ := step_pollIncoming hm
        obtain ⟨x, hx, heq⟩ := List.mem_map.1 hqueued
        cases heq
        cases hawake _ hx
    | popIncoming recv =>
        obtain ⟨out, -, rfl⟩ := step_popIncoming hm
        cases List.mem_singleton.1 hqueued

theorem clean_step (m : Moment (PollBackend Owner n q) (PollLabel Owner) (Seen Owner))
    (hm : (machine Owner n q).Fires m) (hclean : m.pre.Clean) : m.post.Clean := by
  obtain ⟨pre, label, events, post⟩ := m
  cases label with
  | onAction owner createUdp action =>
      obtain ⟨out, hout, hbuf, -, hdoes⟩ := step_onAction hm
      exact ⟨hout ▸ hclean.noPackets.append hdoes.noPackets, hbuf.trans hclean.buf⟩
  | pollIncoming =>
      obtain ⟨out, hout, hbuf, -, -, hawake⟩ := step_pollIncoming hm
      refine ⟨hout ▸ hclean.noPackets.append fun owner slot sender data hmem ↦ ?_,
        hbuf.trans hclean.buf⟩
      cases hawake _ hmem
  | popIncoming recv =>
      obtain ⟨out, hpop, -⟩ := step_popIncoming hm
      obtain ⟨hno, hbuf, -⟩ := popIncoming_does hclean.buf hclean.noPackets hpop
      exact ⟨hno, hbuf⟩

/-- What the read of a socket gives in a step. -/
def Reads : PollLabel Owner → Nat → UdpSocket → SocketAddr → List UInt8 → Prop
  | .popIncoming recv, slot, socket, sender, datagram => recv slot socket = some (sender, datagram)
  | _, _, _, _, _ => False

/-- **The slots of a `PollBackend` are exclusive.** -/
theorem exclusive {h : History (PollBackend Owner n q) (PollLabel Owner) (Seen Owner)}
    {b : PollBackend Owner n q} (hr : (machine Owner n q).Run .default h b) :
    (slotTable Owner n q).Exclusive h b ∧ (slotTable Owner n q).Packets Reads h ∧
      b.socketCount = {i | ∃ l, (slotTable Owner n q).Open h i l}.ncard := by
  have hexclusive := (slotTable Owner n q).exclusive_of_run hr
  refine ⟨hexclusive, ?_, ?_⟩
  · refine (slotTable Owner n q).packets_of_run (I := Clean) ⟨nofun, rfl⟩ clean_step ?_ hr
    rintro ⟨pre, label, events, post⟩ hm hclean owner slot sender data hmem
    cases label with
    | onAction owner createUdp action =>
        obtain ⟨out, -, -, rfl, -⟩ := step_onAction hm
        obtain ⟨x, -, hx⟩ := List.mem_map.1 hmem
        cases hx
    | pollIncoming =>
        obtain ⟨out, -, -, rfl, -, -⟩ := step_pollIncoming hm
        obtain ⟨x, -, hx⟩ := List.mem_map.1 hmem
        cases hx
    | popIncoming recv =>
        obtain ⟨out, hpop, rfl⟩ := step_popIncoming hm
        obtain rfl := Seen.popped.inj (List.mem_singleton.1 hmem)
        exact (popIncoming_does hclean.buf hclean.noPackets hpop).2.2 _ _ _ _ rfl
  · rw [socketCount, ← Slots.ncard_held]
    congr 1
    ext i
    simp only [Set.mem_ofPred_eq, ← hexclusive.udpAt_iff, SlotTable.udpAt_eq_some]
    rw [Option.ne_none_iff_exists']
    constructor
    · rintro ⟨⟨socket, addr, owner⟩, hs⟩
      exact ⟨(socket, addr, owner), hs⟩
    · rintro ⟨l, hl⟩
      exact ⟨_, hl⟩

end PollBackend

/-! ## `PollingBackend` -/

/-- What is done with a `PollingBackend`.  `os socket k` is what a read of a socket gives
that is made for the token with `k` tokens behind it. -/
inductive PollingLabel (Owner : Type) where
  | onAction (owner : Owner) (opening : Opening) (action : BackendOutgoing)
  | awake
  | pollIncoming (wait : Except IoError (List Token))
  | popIncoming (os : UdpSocket → Nat → Recv)

/-- The socket that is opened. -/
def Opening.toOption : Opening → Option (UdpSocket × SocketAddr)
  | .opened socket localAddr => some (socket, localAddr)
  | _ => none

namespace PollingBackend

/-- The entry of a socket. -/
def udp (l : Listening Owner) : SocketType Owner := .udp l.1 l.2.1 l.2.2

/-- The socket of an entry. -/
def asUdp : SocketType Owner → Option (Listening Owner)
  | .waker => none
  | .udp socket localAddr owner => some (socket, localAddr, owner)

theorem asUdp_eq (s : SocketType Owner) (l : Listening Owner) : asUdp s = some l ↔ s = udp l := by
  obtain ⟨socket, addr, owner⟩ := l
  cases s with
  | waker => exact iff_of_false nofun nofun
  | udp socket' addr' owner' => simp [asUdp, udp]

/-- What is read for the token with `k` tokens behind it, from the socket in its slot. -/
def recvOf (os : UdpSocket → Nat → Recv) (b : PollingBackend Owner n q) (k : Nat) : Recv :=
  match b.eventBuffer2.toList.reverse[k]? with
  | some token => (b.socketAt token).bind (os · k)
  | none => none

/-- An action on a `PollingBackend`. -/
theorem onAction_does {b b' : PollingBackend Owner n q} {owner : Owner} {opening : Opening}
    {action : BackendOutgoing} {sent : List Datagram}
    (h : b.onAction owner opening action = .ok (b', sent)) :
    ∃ out, b'.output.toList = b.output.toList ++ out ∧
      ActionDoes udp owner opening.toOption (Slots.held b.sockets) (Slots.held b'.sockets) action
        out := by
  cases action with
  | udpListen bind reuse =>
      cases opening with
      | refused e =>
          cases h
          exact ⟨_, DynamicDeque.toList_pushBack .., .refuses fun _ ↦ rfl⟩
      | unregistered socket localAddr e =>
          cases h
          rw [selectSlot_eq]
          exact ⟨[], (List.append_nil _).symm, .fails (Slots.held_select b.sockets)⟩
      | opened socket localAddr =>
          rw [onAction_opened] at h
          cases h
          refine ⟨_, DynamicDeque.toList_pushBack ..,
            .announces rfl (Slots.held_selected b.sockets) fun i ↦ ?_⟩
          rw [Slots.held_modify (Slots.select_lt b.sockets), Slots.held_select]
          rfl
  | udpUnlisten slot =>
      rw [onAction] at h
      split at h
      · rename_i socket addr owner' hget
        cases h
        have hheld := Slots.held_eq_some.2 hget
        exact ⟨[], (List.append_nil _).symm, .releases (l := (socket, addr, owner'))
          hheld (Slots.held_modify (Slots.lt_of_held hheld) none)⟩
      · rename_i hget
        cases h
        refine ⟨[], (List.append_nil _).symm, .ignores (fun l hl ↦ ?_) fun _ ↦ rfl⟩
        exact hget _ _ _ (Slots.held_eq_some.1 hl)
  | udpPacket slot dest data =>
      obtain ⟨datagrams, -, h⟩ := bind_ok.mp h
      cases h
      exact ⟨[], (List.append_nil _).symm, .sends (by simp) (by simp) fun _ ↦ rfl⟩
  | udpPackets slot dests data =>
      obtain ⟨datagrams, -, h⟩ := bind_ok.mp h
      cases h
      exact ⟨[], (List.append_nil _).symm, .sends (by simp) (by simp) fun _ ↦ rfl⟩
  | udpPackets2 dests data =>
      obtain ⟨datagrams, -, h⟩ := bind_ok.mp h
      cases h
      exact ⟨[], (List.append_nil _).symm, .sends (by simp) (by simp) fun _ ↦ rfl⟩

/-! ### Popping -/

/-- What the loop of `pop_cached_event` keeps. -/
structure Popping (b t : PollingBackend Owner n q) : Prop where
  /-- The sockets, -/
  sockets : t.sockets = b.sockets
  /-- the output queue, -/
  output : t.output = b.output
  /-- and the tokens that it has not come to. -/
  tokens : t.eventBuffer2.toList <:+ b.eventBuffer2.toList

theorem Popping.turn {recv : Nat → Recv} {b t t' : PollingBackend Owner n q}
    (ht : Popping b t) (h : t.turn recv = .inl t') : Popping b t' := by
  obtain ⟨hsockets, houtput, htokens⟩ := ht
  cases hlist : t.eventBuffer2.toList with
  | nil =>
      simp only [PollingBackend.turn, hlist] at h
      cases h
  | cons token tokens =>
      rw [turn_eq hlist] at h
      split at h
      · cases h
      · cases h
        refine ⟨hsockets, houtput, ?_⟩
        simp only [Bounded.toList_popFront]
        exact ((List.tail_suffix _).trans (List.tail_suffix _)).trans htokens
      · cases h
        refine ⟨hsockets, houtput, ?_⟩
        simp only [Bounded.toList_popFront]
        exact (List.tail_suffix _).trans htokens

/-- The token with `k` tokens behind it is the same one all along. -/
theorem Popping.front {b t : PollingBackend Owner n q} (ht : Popping b t) {token : Token}
    {tokens : List Token} (h : t.eventBuffer2.toList = token :: tokens) :
    b.eventBuffer2.toList.reverse[tokens.length]? = some token := by
  obtain ⟨pre, hpre⟩ := ht.tokens
  rw [← hpre, h, List.reverse_append, List.reverse_cons, List.append_assoc,
    List.getElem?_append_right (by simp)]
  simp

/-- A packet was read from the socket in its slot, for the owner of that. -/
def FromSocket (b : PollingBackend Owner n q) (os : UdpSocket → Nat → Recv)
    (out : Option (BackendIncomingInternal Owner)) : Prop :=
  ∀ owner slot sender data, out = some (.event owner (.udpPacket slot sender data)) →
    ∃ socket addr datagram, Slots.held b.sockets slot = some (udp (socket, addr, owner)) ∧
      (∃ k, os socket k = some (sender, datagram)) ∧ data = received datagram

theorem Popping.turn_inr {os : UdpSocket → Nat → Recv} {b t b' : PollingBackend Owner n q}
    (ht : Popping b t) {out : Option (BackendIncomingInternal Owner)}
    (h : t.turn (b.recvOf os) = .inr (.ok (out, b'))) :
    b'.sockets = b.sockets ∧ b'.output = b.output ∧ b.FromSocket os out := by
  cases hlist : t.eventBuffer2.toList with
  | nil =>
      simp only [PollingBackend.turn, hlist] at h
      cases h
      exact ⟨ht.sockets, ht.output, by rintro _ _ _ _ ⟨⟩⟩
  | cons token tokens =>
      rw [turn_eq hlist] at h
      split at h
      · rename_i out' hready
        cases h
        refine ⟨ht.sockets, ht.output, ?_⟩
        rintro owner slot sender data hout
        cases hout
        rw [readiness] at hready
        split at hready
        · rename_i socket addr owner' hget
          split at hready
          · rename_i sender' datagram hrecv
            cases hready
            rw [ht.sockets] at hget
            have hsocket : b.socketAt token = some socket := by rw [socketAt, hget]
            simp only [recvOf, ht.front hlist, hsocket] at hrecv
            exact ⟨socket, addr, datagram, Slots.held_eq_some.2 hget, ⟨_, hrecv⟩, rfl⟩
          · cases hready
        · cases hready
        · cases hready
        · cases hready
      · cases h
      · cases h

theorem popIncoming_does {os : UdpSocket → Nat → Recv} {b b' : PollingBackend Owner n q}
    {out : Option (BackendIncomingInternal Owner)}
    (h : b.popIncoming (b.recvOf os) = .ok (out, b')) :
    b'.sockets = b.sockets ∧ (NoPackets b.output.toList →
      NoPackets b'.output.toList ∧ b.FromSocket os out) := by
  rw [popIncoming, popCachedEvent] at h
  obtain ⟨x, hx, hlist⟩ | ⟨hnone, hlist⟩ := b.output.popFront_cases
  · rw [show b.output.popFront = (some x, b.output.popFront.2) from Prod.ext hx rfl] at h
    cases h
    refine ⟨rfl, fun hno ↦ ?_⟩
    rw [hlist] at hno
    constructor
    · exact fun owner slot sender data hmem ↦
        hno owner slot sender data (List.mem_cons_of_mem _ hmem)
    · intro owner slot sender data hout
      cases hout
      exact absurd List.mem_cons_self (hno owner slot sender data)
  · rw [show b.output.popFront = (none, b.output.popFront.2) from Prod.ext hnone rfl] at h
    dsimp only at h
    have hreturns : Loop.Returns (turn (b.recvOf os)) { b with output := b.output.popFront.2 }
        (.ok (out, b')) := by
      rw [← h]
      exact Loop.returns_run _
    obtain ⟨t, hvisits, hturn⟩ := hreturns.exit
    have ht : Popping { b with output := b.output.popFront.2 } t :=
      hvisits.invariant (fun _ _ ht hb ↦ ht.turn hb) ⟨rfl, rfl, List.suffix_refl _⟩
    obtain ⟨hsockets, houtput, hfrom⟩ := ht.turn_inr hturn
    refine ⟨hsockets, fun hno ↦ ⟨?_, hfrom⟩⟩
    rw [houtput]
    change NoPackets b.output.popFront.2.toList
    rw [hlist]
    exact hno

/-! ### The machine -/

theorem pushToken_sockets {b b' : PollingBackend Owner n q} {token : Token}
    (h : b.pushToken token = .ok b') : b'.sockets = b.sockets ∧ b'.output = b.output := by
  obtain ⟨-, hframe⟩ := pushToken_eq h
  exact ⟨congrArg (·.sockets) hframe, congrArg (·.output) hframe⟩

theorem foldlM_pushToken_sockets {b b' : PollingBackend Owner n q} {events : List Token}
    (h : events.foldlM pushToken b = .ok b') : b'.sockets = b.sockets ∧ b'.output = b.output := by
  induction events generalizing b with
  | nil =>
      cases h
      exact ⟨rfl, rfl⟩
  | cons token events ih =>
      rw [List.foldlM_cons] at h
      obtain ⟨b₁, hpush, hrest⟩ := bind_ok.1 h
      obtain ⟨hsockets, houtput⟩ := pushToken_sockets hpush
      obtain ⟨hsockets', houtput'⟩ := ih hrest
      exact ⟨hsockets'.trans hsockets, houtput'.trans houtput⟩

/-- A wait touches neither the sockets nor the output queue. -/
theorem pollIncoming_sockets {b b' : PollingBackend Owner n q} {wait : Except IoError (List Token)}
    (h : b.pollIncoming wait = .ok b') : b'.sockets = b.sockets ∧ b'.output = b.output := by
  cases wait with
  | error e =>
      cases h
      exact ⟨rfl, rfl⟩
  | ok events =>
      unfold pollIncoming at h
      dsimp only at h
      split at h
      · obtain ⟨b₁, hpush, hrest⟩ := bind_ok.1 h
        obtain ⟨hsockets, houtput⟩ := pushToken_sockets hpush
        obtain ⟨hsockets', houtput'⟩ := foldlM_pushToken_sockets hrest
        exact ⟨hsockets'.trans hsockets, houtput'.trans houtput⟩
      · exact foldlM_pushToken_sockets h

/-- One step of a `PollingBackend`.  A step that panics is not one. -/
def step (b : PollingBackend Owner n q) :
    PollingLabel Owner → Option (PollingBackend Owner n q × List (Seen Owner))
  | .onAction owner opening action => match b.onAction owner opening action with
    | .ok (b', _) => some (b', queuedBetween b.output b'.output)
    | .error _ => none
  | .awake => some (b.awake, [])
  | .pollIncoming wait => match b.pollIncoming wait with
    | .ok b' => some (b', queuedBetween b.output b'.output)
    | .error _ => none
  | .popIncoming os => match b.popIncoming (b.recvOf os) with
    | .ok (out, b') => some (b', [.popped out])
    | .error _ => none

/-- `PollingBackend`, with what is done with it. -/
def machine (Owner : Type) (n q : Nat) :
    Machine (PollingBackend Owner n q) (PollingLabel Owner) (Seen Owner) := ⟨step⟩

/-- An action is seen as it is done. -/
theorem step_onAction {b b' : PollingBackend Owner n q} {owner : Owner} {opening : Opening}
    {action : BackendOutgoing} {events : List (Seen Owner)}
    (h : b.step (.onAction owner opening action) = some (b', events)) :
    ∃ out, b'.output.toList = b.output.toList ++ out ∧ events = out.map .queued ∧
      ActionDoes udp owner opening.toOption (Slots.held b.sockets) (Slots.held b'.sockets) action
        out := by
  rw [step] at h
  split at h
  · rename_i haction
    cases h
    obtain ⟨out, hout, hdoes⟩ := onAction_does haction
    exact ⟨out, hout, queuedBetween_append hout, hdoes⟩
  · cases h

theorem step_awake {b b' : PollingBackend Owner n q} {events : List (Seen Owner)}
    (h : b.step .awake = some (b', events)) :
    b'.sockets = b.sockets ∧ b'.output = b.output ∧ events = [] := by
  obtain ⟨rfl, rfl⟩ := Prod.mk.inj (Option.some.inj h)
  rw [awake]
  split <;> exact ⟨rfl, rfl, rfl⟩

theorem step_pollIncoming {b b' : PollingBackend Owner n q} {wait : Except IoError (List Token)}
    {events : List (Seen Owner)} (h : b.step (.pollIncoming wait) = some (b', events)) :
    b'.sockets = b.sockets ∧ b'.output = b.output ∧ events = [] := by
  rw [step] at h
  split at h
  · rename_i hpoll
    cases h
    obtain ⟨hsockets, houtput⟩ := pollIncoming_sockets hpoll
    refine ⟨hsockets, houtput, ?_⟩
    have hnone : b'.output.toList = b.output.toList ++ [] := by rw [houtput, List.append_nil]
    exact queuedBetween_append hnone
  · cases h

theorem step_popIncoming {b b' : PollingBackend Owner n q} {os : UdpSocket → Nat → Recv}
    {events : List (Seen Owner)} (h : b.step (.popIncoming os) = some (b', events)) :
    ∃ out, b.popIncoming (b.recvOf os) = .ok (out, b') ∧ events = [.popped out] := by
  rw [step] at h
  split at h
  · rename_i out _ hpop
    cases h
    exact ⟨out, hpop, rfl⟩
  · cases h

theorem held_sockets_default (i : Nat) :
    Slots.held (default : PollingBackend Owner n q).sockets i =
      if i = 0 then some .waker else none := by
  rw [default, Slots.held_push, Slots.held_default]
  rfl

/-- A `PollingBackend` has a table of sockets. -/
def slotTable (Owner : Type) (n q : Nat) :
    SlotTable (PollingBackend Owner n q) (PollingLabel Owner) Owner (SocketType Owner) where
  machine := machine Owner n q
  start := .default
  table b := Slots.held b.sockets
  action
    | .onAction owner opening action => some (owner, opening.toOption, action)
    | _ => none
  udp := udp
  asUdp := asUdp
  asUdp_eq := asUdp_eq
  closed := by
    intro i l h
    rw [held_sockets_default] at h
    split at h <;> cases h
  acts := by
    intro m hm owner created action' haction
    obtain ⟨pre, label, events, post⟩ := m
    cases label with
    | onAction owner' opening action =>
        cases haction
        obtain ⟨out, -, hevents, hdoes⟩ := step_onAction hm
        exact ⟨out, hdoes, hevents⟩
    | awake => cases haction
    | pollIncoming wait => cases haction
    | popIncoming os => cases haction
  stays := by
    intro m hm haction
    obtain ⟨pre, label, events, post⟩ := m
    cases label with
    | onAction owner opening action => cases haction
    | awake => exact congrArg Slots.held (step_awake hm).1
    | pollIncoming wait => exact congrArg Slots.held (step_pollIncoming hm).1
    | popIncoming os =>
        obtain ⟨out, hpop, -⟩ := step_popIncoming hm
        exact congrArg Slots.held (popIncoming_does hpop).1
  quiet := by
    intro m hm haction owner event hqueued
    obtain ⟨pre, label, events, post⟩ := m
    cases label with
    | onAction owner' opening action => cases haction
    | awake =>
        obtain ⟨-, -, rfl⟩ := step_awake hm
        cases hqueued
    | pollIncoming wait =>
        obtain ⟨-, -, rfl⟩ := step_pollIncoming hm
        cases hqueued
    | popIncoming os =>
        obtain ⟨out, -, rfl⟩ := step_popIncoming hm
        cases List.mem_singleton.1 hqueued

theorem noPackets_step (m : Moment (PollingBackend Owner n q) (PollingLabel Owner) (Seen Owner))
    (hm : (machine Owner n q).Fires m) (hno : NoPackets m.pre.output.toList) :
    NoPackets m.post.output.toList := by
  obtain ⟨pre, label, events, post⟩ := m
  cases label with
  | onAction owner opening action =>
      obtain ⟨out, hout, -, hdoes⟩ := step_onAction hm
      exact hout ▸ hno.append hdoes.noPackets
  | awake => exact (step_awake hm).2.1 ▸ hno
  | pollIncoming wait => exact (step_pollIncoming hm).2.1 ▸ hno
  | popIncoming os =>
      obtain ⟨out, hpop, -⟩ := step_popIncoming hm
      exact ((popIncoming_does hpop).2 hno).1

/-- The waker is in its slot, and in no other. -/
theorem table_waker {h : History (PollingBackend Owner n q) (PollingLabel Owner) (Seen Owner)}
    {b : PollingBackend Owner n q} (hr : (machine Owner n q).Run .default h b) (i : Nat) :
    Slots.held b.sockets i = some .waker ↔ i = 0 := by
  refine hr.invariant (I := fun b ↦ Slots.held b.sockets i = some .waker ↔ i = 0) ?_ ?_
  · rw [held_sockets_default]
    split <;> simp [*]
  · intro m hm hpre
    exact ((slotTable Owner n q).table_eq_other hm rfl).trans hpre

/-- What a read of a socket gives in a step. -/
def Reads : PollingLabel Owner → Nat → UdpSocket → SocketAddr → List UInt8 → Prop
  | .popIncoming os, _, socket, sender, datagram => ∃ k, os socket k = some (sender, datagram)
  | _, _, _, _, _ => False

/-- **The slots of a `PollingBackend` are exclusive**, and the waker keeps its own. -/
theorem exclusive {h : History (PollingBackend Owner n q) (PollingLabel Owner) (Seen Owner)}
    {b : PollingBackend Owner n q} (hr : (machine Owner n q).Run .default h b) :
    (slotTable Owner n q).Exclusive h b ∧ (slotTable Owner n q).Packets Reads h ∧
      b.socketCount = {i | ∃ l, (slotTable Owner n q).Open h i l}.ncard + 1 := by
  have hexclusive := (slotTable Owner n q).exclusive_of_run hr
  refine ⟨hexclusive, ?_, ?_⟩
  · refine (slotTable Owner n q).packets_of_run (I := fun b ↦ NoPackets b.output.toList) nofun
      noPackets_step ?_ hr
    rintro ⟨pre, label, events, post⟩ hm hno owner slot sender data hmem
    cases label with
    | onAction owner opening action =>
        obtain ⟨out, -, rfl, -⟩ := step_onAction hm
        obtain ⟨x, -, hx⟩ := List.mem_map.1 hmem
        cases hx
    | awake =>
        obtain ⟨-, -, rfl⟩ := step_awake hm
        cases hmem
    | pollIncoming wait =>
        obtain ⟨-, -, rfl⟩ := step_pollIncoming hm
        cases hmem
    | popIncoming os =>
        obtain ⟨out, hpop, rfl⟩ := step_popIncoming hm
        obtain rfl := Seen.popped.inj (List.mem_singleton.1 hmem)
        exact ((popIncoming_does hpop).2 hno).2 _ _ _ _ rfl
  · have hset : {i | Slots.held b.sockets i ≠ none} =
        insert 0 {i | ∃ l, (slotTable Owner n q).Open h i l} := by
      ext i
      simp only [Set.mem_insert_iff, Set.mem_ofPred_eq, ← hexclusive.udpAt_iff,
        SlotTable.udpAt_eq_some]
      rw [← table_waker hr, Option.ne_none_iff_exists']
      constructor
      · rintro ⟨_ | ⟨socket, addr, owner⟩, hs⟩
        · exact .inl hs
        · exact .inr ⟨(socket, addr, owner), hs⟩
      · rintro (hs | ⟨l, hl⟩)
        · exact ⟨_, hs⟩
        · exact ⟨_, hl⟩
    have hzero : 0 ∉ {i | ∃ l, (slotTable Owner n q).Open h i l} := by
      rintro ⟨l, hl⟩
      rw [← hexclusive.udpAt_iff, SlotTable.udpAt_eq_some] at hl
      cases hl.symm.trans ((table_waker hr 0).2 rfl)
    have hfinite : {i | ∃ l, (slotTable Owner n q).Open h i l}.Finite := by
      refine (Set.finite_lt_nat b.sockets.toList.length).subset ?_
      rintro i ⟨l, hl⟩
      rw [← hexclusive.udpAt_iff, SlotTable.udpAt_eq_some] at hl
      exact Slots.lt_of_held hl
    rw [socketCount, ← Slots.ncard_held, hset, Set.ncard_insert_of_notMem hzero hfinite]

/-- The slot of the waker is never announced. -/
theorem not_announces_waker
    {h : History (PollingBackend Owner n q) (PollingLabel Owner) (Seen Owner)}
    {b : PollingBackend Owner n q} (hr : (machine Owner n q).Run .default h b) :
    ∀ m ∈ h, ∀ l, ¬ (slotTable Owner n q).Announces m 0 l := by
  intro m hm l ha
  have hvacant := ((slotTable Owner n q).exclusive_of_run hr).vacant m hm 0 l ha
  obtain ⟨h₁, h₂, rfl⟩ := List.append_of_mem hm
  cases hvacant.symm.trans ((table_waker hr.split.1 0).2 rfl)

end PollingBackend

/-! ## Both -/

/-- **Slots are exclusive and stable** in both backends. -/
theorem slots_exclusive :
    (∀ (h : History (PollBackend Owner n q) (PollLabel Owner) (Seen Owner))
      (b : PollBackend Owner n q), (PollBackend.machine Owner n q).Run .default h b →
        (PollBackend.slotTable Owner n q).Exclusive h b ∧
          (PollBackend.slotTable Owner n q).Packets PollBackend.Reads h ∧
          b.socketCount = {i | ∃ l, (PollBackend.slotTable Owner n q).Open h i l}.ncard) ∧
    ∀ (h : History (PollingBackend Owner n q) (PollingLabel Owner) (Seen Owner))
      (b : PollingBackend Owner n q), (PollingBackend.machine Owner n q).Run .default h b →
        ((PollingBackend.slotTable Owner n q).Exclusive h b ∧
          (PollingBackend.slotTable Owner n q).Packets PollingBackend.Reads h ∧
          b.socketCount = {i | ∃ l, (PollingBackend.slotTable Owner n q).Open h i l}.ncard + 1) ∧
        b.sockets.get 0 = some (some .waker) ∧
        ∀ m ∈ h, ∀ l, ¬ (PollingBackend.slotTable Owner n q).Announces m 0 l := by
  constructor
  · exact fun h b hr ↦ PollBackend.exclusive hr
  · intro h b hr
    refine ⟨PollingBackend.exclusive hr, ?_, PollingBackend.not_announces_waker hr⟩
    exact Slots.held_eq_some.1 ((PollingBackend.table_waker hr 0).2 rfl)

/-- A socket is listened and read. -/
def pollListened :
    History (PollBackend Unit 2 2) (PollLabel Unit) (Seen Unit) × PollBackend Unit 2 2 :=
  ((PollBackend.machine Unit 2 2).exec .default
    [.onAction () (.ok (7, anyPort)) (.udpListen anyPort false), .popIncoming fun _ _ ↦ none,
      .popIncoming fun _ _ ↦ some (anyPort, [1, 2])]).get (by decide +kernel)

/-- One is listened, found ready and read. -/
def pollingListened :
    History (PollingBackend Unit 2 2) (PollingLabel Unit) (Seen Unit) × PollingBackend Unit 2 2 :=
  ((PollingBackend.machine Unit 2 2).exec .default
    [.onAction () (.opened 7 anyPort) (.udpListen anyPort false), .popIncoming fun _ _ ↦ none,
      .pollIncoming (.ok [1]), .popIncoming fun _ _ ↦ some (anyPort, [1, 2])]).get
    (by decide +kernel)

theorem pollListened_run :
    (PollBackend.machine Unit 2 2).Run .default pollListened.1 pollListened.2 :=
  Machine.exec_run_get _

theorem pollingListened_run :
    (PollingBackend.machine Unit 2 2).Run .default pollingListened.1 pollingListened.2 :=
  Machine.exec_run_get _

theorem slots_exclusive_listened :
    pollListened.2.socketCount =
        {i | ∃ l, (PollBackend.slotTable Unit 2 2).Open pollListened.1 i l}.ncard ∧
      pollingListened.2.socketCount =
        {i | ∃ l, (PollingBackend.slotTable Unit 2 2).Open pollingListened.1 i l}.ncard + 1 ∧
      pollingListened.2.sockets.get 0 = some (some .waker) :=
  have hpoll := slots_exclusive.1 _ _ pollListened_run
  have hpolling := slots_exclusive.2 _ _ pollingListened_run
  ⟨hpoll.2.2, hpolling.1.2.2, hpolling.2.1⟩

end SansIo.Backend
