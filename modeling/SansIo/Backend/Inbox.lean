import SansIo.Backend.Network
import SansIo.Backend.Scan

/-!
# What waits in the sockets

A datagram that comes to a socket waits there until it is read.  `Connected` is a backend
together with what waits in its sockets: datagrams come to open sockets at any time, and a read
takes the oldest one of its socket, or fails, whatever waits there.  A socket that is opened has a
handle that no open socket has, and is empty; one that is closed loses what waits in it.

What the owner of a port has been told since the port was opened, and what waits in its socket,
are all that has come to it, whatever the waits list (`tells_of_runs`).  A `PollBackend` has told
everything when it returns `None`, if its reads only fail where nothing waits.  A `PollingBackend`
reads the sockets that it has tokens of, and nothing of the kind is said of it.
-/

namespace SansIo.Backend

open Lib Collections Places

variable {σ lab Owner : Type} {n q : Nat}

/-! ## A backend and its sockets -/

/-- A backend with a network, and the sockets that it has in its slots. -/
structure SocketTable (σ lab Owner : Type) extends NetworkTable σ lab Owner where
  /-- The socket in a slot. -/
  socketAt : σ → Nat → Option UdpSocket
  socketAt_eq : ∀ s ports, has s ports → ∀ slot,
    socketAt s slot = (ports.portAt first slot).map Prod.fst

/-- What waits in the sockets that are open, oldest first. -/
abbrev Inboxes := UdpSocket → Option (List (SocketAddr × List UInt8))

namespace Inboxes

variable (inboxes : Inboxes)

/-- A datagram that is read has been the oldest in its socket. -/
def read : NetworkEvent Owner → Option Inboxes
  | .arrived (socket, sender, datagram) => match inboxes socket with
    | some (oldest :: rest) =>
      if oldest = (sender, datagram) then some (Function.update inboxes socket (some rest))
      else none
    | _ => none
  | _ => some inboxes

/-- A socket that is opened has a handle that no open one has.  A socket is closed when its slot
is unlistened. -/
def act (socketAt : Nat → Option UdpSocket) : Action Owner → Option Inboxes
  | (_, opening, .udpListen _ _) => match opening with
    | .opened socket _ =>
      if (inboxes socket).isNone then some (Function.update inboxes socket (some [])) else none
    | _ => some inboxes
  | (_, _, .udpUnlisten slot) => match socketAt slot with
    | some socket => some (Function.update inboxes socket none)
    | none => some inboxes
  | _ => some inboxes

end Inboxes

/-- The socket that is opened for an action. -/
def Action.opened : Action Owner → Option UdpSocket
  | (_, opening, .udpListen _ _) => opening.toOption.map Prod.fst
  | _ => none

/-- A backend, and what waits in its sockets. -/
structure Connected (σ : Type) where
  /-- The backend. -/
  backend : σ
  /-- What waits. -/
  inboxes : Inboxes

/-- What may happen to them. -/
inductive ConnectedLabel (lab : Type) where
  /-- A datagram comes to a socket. -/
  | comes (socket : UdpSocket) (sender : SocketAddr) (datagram : List UInt8)
  /-- The backend does something. -/
  | does (l : lab)

/-- One step, with what is seen of the network in it. -/
def Connected.step (B : SocketTable σ lab Owner) (s : Connected σ) :
    ConnectedLabel lab → Option (Connected σ × List (NetworkEvent Owner))
  | .comes socket sender datagram => (s.inboxes socket).map fun waiting ↦
    (⟨s.backend, Function.update s.inboxes socket (some (waiting ++ [(sender, datagram)]))⟩, [])
  | .does l => (B.machine.step s.backend l).bind fun (post, events) ↦
    let seen := B.seen ⟨s.backend, l, events, post⟩
    match B.action l with
    | some action => (s.inboxes.act (B.socketAt s.backend) action).map fun inboxes ↦
      (⟨post, inboxes⟩, seen)
    | none => (seen.foldlM Inboxes.read s.inboxes).map fun inboxes ↦ (⟨post, inboxes⟩, seen)

namespace SocketTable

variable (B : SocketTable σ lab Owner)

/-- A backend that is connected, whatever happens. -/
def connected : Machine (Connected σ) (ConnectedLabel lab) (NetworkEvent Owner) :=
  ⟨Connected.step B⟩

/-- At first no socket is open. -/
def unconnected : Connected σ := ⟨B.start, fun _ ↦ none⟩

/-- A history of both. -/
abbrev ConnectedHistory (_B : SocketTable σ lab Owner) :=
  History (Connected σ) (ConnectedLabel lab) (NetworkEvent Owner)

/-- The step opens a socket. -/
def opens (socket : UdpSocket)
    (m : Moment (Connected σ) (ConnectedLabel lab) (NetworkEvent Owner)) : Bool :=
  match m.label with
  | .comes _ _ _ => false
  | .does l => (B.action l).bind Action.opened == some socket

/-- What has happened since a socket was last opened. -/
def sinceOpened (socket : UdpSocket) (h : B.ConnectedHistory) : B.ConnectedHistory :=
  h.rtakeWhile fun m ↦ !B.opens socket m

end SocketTable

/-- What comes to a socket. -/
def comesTo (socket : UdpSocket)
    (h : History (Connected σ) (ConnectedLabel lab) (NetworkEvent Owner)) :
    List (SocketAddr × List UInt8) :=
  h.filterMap fun m ↦ match m.label with
    | .comes socket' sender datagram => if socket' = socket then some (sender, datagram) else none
    | .does _ => none

/-- What is told of the packets of a slot, and to whom. -/
def NetworkEvent.toldOf (slot : Nat) : NetworkEvent Owner →
    Option (Owner × SocketAddr × List UInt8)
  | .told owner slot' sender data => if slot' = slot then some (owner, sender, data) else none
  | _ => none

/-- What an owner is to be told of a datagram. -/
def toBeTold (owner : Owner) (d : SocketAddr × List UInt8) : Owner × SocketAddr × List UInt8 :=
  (owner, d.1, d.2.take 1500)

/-- For every port, what has come to it since it was opened has been told to its owner, or waits,
in order. -/
def SocketTable.Tells (B : SocketTable σ lab Owner) (h : B.ConnectedHistory) (s : Connected σ) :
    Prop :=
  ∃ ports, B.has s.backend ports ∧ ∀ slot socket addr owner,
    ports.portAt B.first slot = some (socket, addr, owner) → ∃ waiting,
      s.inboxes socket = some waiting ∧
      (B.sinceOpened socket h).events.filterMap (NetworkEvent.toldOf slot) ++
          waiting.map (toBeTold owner) =
        (comesTo socket (B.sinceOpened socket h)).map (toBeTold owner)

/-! ## One step -/

section Steps

variable {B : SocketTable σ lab Owner} {ports : Ports Owner}
  {m : Moment (Connected σ) (ConnectedLabel lab) (NetworkEvent Owner)}

/-- The open sockets are those of the ports, and no two ports share one. -/
structure SocketTable.Wired (B : SocketTable σ lab Owner) (s : Connected σ)
    (ports : Ports Owner) : Prop where
  keeps : B.keeps s.backend
  has : B.has s.backend ports
  /-- A socket is open where a port has it. -/
  isOpen : ∀ socket, (s.inboxes socket).isSome = true ↔
    ∃ slot addr owner, ports.portAt B.first slot = some (socket, addr, owner)
  /-- It is one port. -/
  distinct : ∀ {slot slot' socket addr addr' owner owner'},
    ports.portAt B.first slot = some (socket, addr, owner) →
    ports.portAt B.first slot' = some (socket, addr', owner') → slot = slot'

/-- What a step does at a port: it has opened it, or what comes goes to the back, and what is
told is taken from the front. -/
inductive SocketTable.AtPort (B : SocketTable σ lab Owner)
    (m : Moment (Connected σ) (ConnectedLabel lab) (NetworkEvent Owner)) (ports : Ports Owner)
    (slot : Nat) : Listening Owner → Prop
  | /-- The port is new. -/
    opens {socket addr owner} (hopens : B.opens socket m = true)
      (hpost : m.post.inboxes socket = some []) : AtPort B m ports slot (socket, addr, owner)
  | /-- It was there before. -/
    passes {socket addr owner waiting waiting'} (read : List (SocketAddr × List UInt8))
      (hopens : B.opens socket m = false)
      (hport : ports.portAt B.first slot = some (socket, addr, owner))
      (hpre : m.pre.inboxes socket = some waiting)
      (hpost : m.post.inboxes socket = some waiting')
      (htold : m.events.filterMap (NetworkEvent.toldOf slot) = read.map (toBeTold owner))
      (hwaits : read ++ waiting' = waiting ++ comesTo socket [m]) :
      AtPort B m ports slot (socket, addr, owner)

/-- What a step that is no action makes seen of the network: nothing, an answer, or a packet
that is read at a port. -/
theorem NetworkTable.seen_cases {B : NetworkTable σ lab Owner} {m : Moment σ lab (Seen Owner)}
    (hm : B.machine.Fires m) (haction : B.action m.label = none) (hkeeps : B.keeps m.pre)
    (hhas : B.has m.pre ports) :
    B.seen m = [] ∨ (∃ result, B.seen m = [.answered result]) ∨
      ∃ slot socket addr owner sender datagram,
        ports.portAt B.first slot = some (socket, addr, owner) ∧
        B.seen m = [.arrived (socket, sender, datagram),
          .told owner slot sender (datagram.take 1500)] := by
  have hseen : B.seen m = m.events.flatMap (Seen.ofNetwork (B.read m)) := by
    rw [seen, haction]
  rcases B.pops m hm haction with ⟨out, hevents⟩ | ⟨queue, hevents⟩
  · rw [hseen, hevents, List.flatMap_singleton]
    rcases out with _ | ⟨owner, ⟨bind, result⟩ | ⟨slot, sender, data⟩⟩ | _
    · exact .inl rfl
    · exact .inr (.inl ⟨_, rfl⟩)
    · obtain ⟨-, socket, addr, datagram, hport, hread, hdata⟩ :=
        B.packet m hm haction hkeeps ports hhas owner slot sender data hevents
      refine .inr (.inr ⟨slot, socket, addr, owner, sender, datagram, hport, ?_⟩)
      rw [Seen.ofNetwork, hread, hdata]
      rfl
    · exact .inl rfl
  · rw [hseen, hevents]
    exact .inl (ofNetwork_queued _ queue)

/-- The socket of a datagram that is read stays open. -/
theorem Inboxes.isSome_update {inboxes : Inboxes} {socket : UdpSocket}
    {waiting waiting' : List (SocketAddr × List UInt8)} (h : inboxes socket = some waiting)
    (socket' : UdpSocket) :
    (Function.update inboxes socket (some waiting') socket').isSome =
      (inboxes socket').isSome := by
  by_cases hsocket : socket' = socket
  · rw [hsocket, Function.update_self, h]
    rfl
  · rw [Function.update_of_ne hsocket]

theorem Inboxes.read_arrived {inboxes inboxes' : Inboxes} {socket : UdpSocket}
    {sender : SocketAddr} {datagram : List UInt8}
    (h : inboxes.read (.arrived (socket, sender, datagram) : NetworkEvent Owner) = some inboxes') :
    ∃ rest, inboxes socket = some ((sender, datagram) :: rest) ∧
      inboxes' = Function.update inboxes socket (some rest) := by
  rw [Inboxes.read] at h
  split at h
  · rename_i oldest rest hwaiting
    split at h
    · rename_i holdest
      cases h
      exact ⟨rest, by rw [hwaiting, holdest], rfl⟩
    · cases h
  · cases h

namespace SocketTable.Wired

variable {s s' : Connected σ} {ports' : Ports Owner} {slot : Nat} {socket : UdpSocket}
  {addr : SocketAddr} {owner : Owner}

theorem exists_inbox (hw : B.Wired s ports)
    (hport : ports.portAt B.first slot = some (socket, addr, owner)) :
    ∃ waiting, s.inboxes socket = some waiting :=
  Option.isSome_iff_exists.mp ((hw.isOpen socket).mpr ⟨_, _, _, hport⟩)

/-- The same ports, and the same sockets open. -/
theorem congr (hw : B.Wired s ports) (hkeeps : B.keeps s'.backend)
    (hhas : B.has s'.backend ports')
    (hports : ∀ slot, ports'.portAt B.first slot = ports.portAt B.first slot)
    (hinboxes : ∀ socket, (s'.inboxes socket).isSome = (s.inboxes socket).isSome) :
    B.Wired s' ports' where
  keeps := hkeeps
  has := hhas
  isOpen socket := by
    rw [hinboxes, hw.isOpen socket]
    simp only [hports]
  distinct h h' := hw.distinct ((hports _).symm.trans h) ((hports _).symm.trans h')

/-- A socket is opened. -/
theorem place (hw : B.Wired s ports) {post : σ} (hkeeps : B.keeps post)
    (hhas : B.has post (place ports (socket, addr, owner)))
    (hclosed : (s.inboxes socket).isNone = true) :
    B.Wired ⟨post, Function.update s.inboxes socket (some [])⟩
      (Places.place ports (socket, addr, owner)) := by
  have hnew (slot : Nat) (addr' : SocketAddr) (owner' : Owner) :
      ports.portAt B.first slot ≠ some (socket, addr', owner') := by
    intro hport
    obtain ⟨waiting, hwaiting⟩ := hw.exists_inbox hport
    rw [hwaiting] at hclosed
    cases hclosed
  constructor
  · exact hkeeps
  · exact hhas
  · intro socket'
    simp only [Ports.portAt_place]
    by_cases hsocket : socket' = socket
    · subst hsocket
      rw [Function.update_self]
      exact iff_of_true rfl ⟨_, addr, owner, if_pos rfl⟩
    · rw [Function.update_of_ne hsocket, hw.isOpen socket']
      constructor
      · rintro ⟨slot, addr', owner', hport⟩
        refine ⟨slot, addr', owner', ?_⟩
        rw [if_neg]
        · exact hport
        · rintro rfl
          cases Ports.portAt_vacant.symm.trans hport
      · rintro ⟨slot, addr', owner', hport⟩
        split at hport
        · cases hport
          exact absurd rfl hsocket
        · exact ⟨slot, addr', owner', hport⟩
  · intro slot slot' socket' addr' addr'' owner' owner'' h h'
    rw [Ports.portAt_place] at h h'
    split at h <;> split at h'
    · rename_i hslot hslot'
      exact hslot.trans hslot'.symm
    · cases h
      exact absurd h' (hnew _ _ _)
    · cases h'
      exact absurd h (hnew _ _ _)
    · exact hw.distinct h h'

/-- A socket is closed. -/
theorem vacate (hw : B.Wired s ports) {post : σ} (hkeeps : B.keeps post)
    (hport : ports.portAt B.first slot = some (socket, addr, owner))
    (hports : ∀ slot', ports'.portAt B.first slot' =
      if slot' = slot then none else ports.portAt B.first slot')
    (hhas : B.has post ports') :
    B.Wired ⟨post, Function.update s.inboxes socket none⟩ ports' := by
  constructor
  · exact hkeeps
  · exact hhas
  · intro socket'
    simp only [hports]
    by_cases hsocket : socket' = socket
    · subst hsocket
      rw [Function.update_self]
      refine iff_of_false Bool.false_ne_true ?_
      rintro ⟨slot', addr', owner', hport'⟩
      split at hport'
      · cases hport'
      · rename_i hslot
        exact hslot (hw.distinct hport' hport)
    · rw [Function.update_of_ne hsocket, hw.isOpen socket']
      constructor
      · rintro ⟨slot', addr', owner', hport'⟩
        refine ⟨slot', addr', owner', ?_⟩
        rw [if_neg]
        · exact hport'
        · rintro rfl
          cases hport.symm.trans hport'
          exact hsocket rfl
      · rintro ⟨slot', addr', owner', hport'⟩
        split at hport'
        · cases hport'
        · exact ⟨slot', addr', owner', hport'⟩
  · intro slot₁ slot₂ socket' addr' addr'' owner' owner'' h h'
    rw [hports] at h h'
    split at h
    · cases h
    · split at h'
      · cases h'
      · exact hw.distinct h h'

/-- A port that is left alone. -/
theorem untouched (hw : B.Wired m.pre ports) (hopens : B.opens socket m = false)
    (hport : ports.portAt B.first slot = some (socket, addr, owner))
    (hsame : m.post.inboxes socket = m.pre.inboxes socket)
    (htold : m.events.filterMap (NetworkEvent.toldOf slot) = [])
    (hcomes : comesTo socket [m] = []) : B.AtPort m ports slot (socket, addr, owner) := by
  obtain ⟨waiting, hwaiting⟩ := hw.exists_inbox hport
  refine .passes [] hopens hport hwaiting (hsame.trans hwaiting) htold ?_
  rw [hcomes, List.append_nil, List.nil_append]

end SocketTable.Wired

/-- What a step leaves, and what it does at each port that there is then. -/
def SocketTable.Goes (B : SocketTable σ lab Owner)
    (m : Moment (Connected σ) (ConnectedLabel lab) (NetworkEvent Owner)) (ports : Ports Owner) :
    Prop :=
  ∃ ports', B.Wired m.post ports' ∧ ∀ slot l, ports'.portAt B.first slot = some l →
    B.AtPort m ports slot l

/-- A datagram comes. -/
theorem goes_comes {s : Connected σ} (hw : B.Wired s ports) {socket : UdpSocket}
    {sender : SocketAddr} {datagram : List UInt8} {waiting : List (SocketAddr × List UInt8)}
    (hwaiting : s.inboxes socket = some waiting) :
    B.Goes ⟨s, .comes socket sender datagram, [], ⟨s.backend, Function.update s.inboxes socket
      (some (waiting ++ [(sender, datagram)]))⟩⟩ ports := by
  refine ⟨ports, hw.congr hw.keeps hw.has (fun _ ↦ rfl) (Inboxes.isSome_update hwaiting), ?_⟩
  rintro slot ⟨socket', addr, owner⟩ hport
  by_cases hsocket : socket' = socket
  · subst hsocket
    refine .passes [] rfl hport hwaiting (Function.update_self ..) rfl ?_
    simp [comesTo]
  · refine SocketTable.Wired.untouched hw rfl hport (Function.update_of_ne hsocket ..) rfl ?_
    simp [comesTo, Ne.symm hsocket]

/-- A step that opens, closes and reads nothing. -/
theorem goes_untouched {s : Connected σ} {l : lab} {post : σ} {seen : List (NetworkEvent Owner)}
    (hw : B.Wired s ports) {ports' : Ports Owner} (hkeeps : B.keeps post)
    (hhas : B.has post ports')
    (hports : ∀ slot, ports'.portAt B.first slot = ports.portAt B.first slot)
    (hopens : ∀ socket s', B.opens socket ⟨s, .does l, seen, s'⟩ = false)
    (htold : ∀ slot, seen.filterMap (NetworkEvent.toldOf slot) = []) :
    B.Goes ⟨s, .does l, seen, ⟨post, s.inboxes⟩⟩ ports := by
  refine ⟨ports', hw.congr hkeeps hhas hports fun _ ↦ rfl, ?_⟩
  rintro slot ⟨socket, addr, owner⟩ hport
  rw [hports] at hport
  exact SocketTable.Wired.untouched hw (hopens _ _) hport rfl (htold slot) rfl

/-- A step that is no action.  What it reads has waited at the front. -/
theorem goes_reads {s : Connected σ} (hw : B.Wired s ports) {l : lab} {post : σ}
    {events : List (Seen Owner)} (hm : B.machine.Fires ⟨s.backend, l, events, post⟩)
    (haction : B.action l = none) {inboxes : Inboxes}
    (hread : (B.seen ⟨s.backend, l, events, post⟩).foldlM Inboxes.read s.inboxes = some inboxes) :
    B.Goes ⟨s, .does l, B.seen ⟨s.backend, l, events, post⟩, ⟨post, inboxes⟩⟩ ports := by
  have hkeeps : B.keeps post := B.keeps_step _ hm hw.keeps
  have hhas : B.has post ports := (B.stays _ hm ports hw.has haction).1
  have hopens (socket : UdpSocket) (events' : List (NetworkEvent Owner)) (s' : Connected σ) :
      B.opens socket ⟨s, .does l, events', s'⟩ = false := by
    simp only [SocketTable.opens, haction, Option.bind_none]
    rfl
  rcases NetworkTable.seen_cases hm haction hw.keeps hw.has with hseen | ⟨result, hseen⟩ |
    ⟨slot, socket, addr, owner, sender, datagram, hport, hseen⟩
  · rw [hseen] at hread ⊢
    cases hread
    exact goes_untouched hw hkeeps hhas (fun _ ↦ rfl) (fun _ _ ↦ hopens _ _ _) fun _ ↦ rfl
  · rw [hseen] at hread ⊢
    cases hread
    exact goes_untouched hw hkeeps hhas (fun _ ↦ rfl) (fun _ _ ↦ hopens _ _ _) fun _ ↦ rfl
  · rw [hseen] at hread ⊢
    obtain ⟨inboxes', harrived, htold⟩ := Option.bind_eq_some_iff.mp hread
    cases htold
    obtain ⟨rest, hwaiting, rfl⟩ := Inboxes.read_arrived harrived
    refine ⟨ports, hw.congr hkeeps hhas (fun _ ↦ rfl) (Inboxes.isSome_update hwaiting), ?_⟩
    rintro slot' ⟨socket', addr', owner'⟩ hport'
    by_cases hslot : slot' = slot
    · subst hslot
      cases hport.symm.trans hport'
      refine .passes [(sender, datagram)] (hopens _ _ _) hport' hwaiting
        (Function.update_self ..) ?_ ?_
      · change [_].filterMap (NetworkEvent.toldOf slot') = _
        simp [NetworkEvent.toldOf, toBeTold]
      · simp [comesTo]
    · have hsocket : socket' ≠ socket := by
        rintro rfl
        exact hslot (hw.distinct hport' hport)
      refine SocketTable.Wired.untouched hw (hopens _ _ _) hport'
        (Function.update_of_ne hsocket ..) ?_ rfl
      simp [NetworkEvent.toldOf, Ne.symm hslot]

section Acts

variable {s : Connected σ} {l : lab} {post : σ} {seen : List (NetworkEvent Owner)}

/-- An action that opens a socket. -/
theorem goes_place (hw : B.Wired s ports) {socket : UdpSocket} {addr : SocketAddr} {owner : Owner}
    (hkeeps : B.keeps post) (hhas : B.has post (place ports (socket, addr, owner)))
    (hclosed : (s.inboxes socket).isNone = true)
    (hopens : ∀ socket' s', B.opens socket' ⟨s, .does l, seen, s'⟩ = (some socket == some socket'))
    (htold : ∀ slot, seen.filterMap (NetworkEvent.toldOf slot) = []) :
    B.Goes ⟨s, .does l, seen, ⟨post, Function.update s.inboxes socket (some [])⟩⟩ ports := by
  refine ⟨_, hw.place hkeeps hhas hclosed, ?_⟩
  rintro slot ⟨socket', addr', owner'⟩ hport
  rw [Ports.portAt_place] at hport
  split at hport
  · cases hport
    exact .opens ((hopens _ _).trans (beq_self_eq_true _)) (Function.update_self ..)
  · have hsocket : socket' ≠ socket := by
      rintro rfl
      obtain ⟨waiting, hwaiting⟩ := hw.exists_inbox hport
      rw [hwaiting] at hclosed
      cases hclosed
    refine SocketTable.Wired.untouched hw ((hopens _ _).trans ?_) hport
      (Function.update_of_ne hsocket ..) (htold slot) rfl
    exact beq_eq_false_iff_ne.mpr fun h ↦ hsocket (Option.some.inj h).symm

/-- One that closes a socket. -/
theorem goes_vacate (hw : B.Wired s ports) {ports' : Ports Owner} {slot : Nat}
    {socket : UdpSocket} {addr : SocketAddr} {owner : Owner} (hkeeps : B.keeps post)
    (hhas : B.has post ports') (hport : ports.portAt B.first slot = some (socket, addr, owner))
    (hports : ∀ slot', ports'.portAt B.first slot' =
      if slot' = slot then none else ports.portAt B.first slot')
    (hopens : ∀ socket s', B.opens socket ⟨s, .does l, seen, s'⟩ = false)
    (htold : ∀ slot, seen.filterMap (NetworkEvent.toldOf slot) = []) :
    B.Goes ⟨s, .does l, seen, ⟨post, Function.update s.inboxes socket none⟩⟩ ports := by
  refine ⟨_, hw.vacate hkeeps hport hports hhas, ?_⟩
  rintro slot' ⟨socket', addr', owner'⟩ hport'
  rw [hports] at hport'
  split at hport'
  · cases hport'
  · rename_i hslot
    have hsocket : socket' ≠ socket := by
      rintro rfl
      exact hslot (hw.distinct hport' hport)
    exact SocketTable.Wired.untouched hw (hopens _ _) hport' (Function.update_of_ne hsocket ..)
      (htold slot') rfl

end Acts

/-- An action. -/
theorem goes_acts {s : Connected σ} (hw : B.Wired s ports) {l : lab} {post : σ}
    {events : List (Seen Owner)} (hm : B.machine.Fires ⟨s.backend, l, events, post⟩)
    {asker : Owner} {opening : Opening} {action : BackendOutgoing}
    (haction : B.action l = some (asker, opening, action)) {inboxes : Inboxes}
    (hact : s.inboxes.act (B.socketAt s.backend) (asker, opening, action) = some inboxes) :
    B.Goes ⟨s, .does l, B.seen ⟨s.backend, l, events, post⟩, ⟨post, inboxes⟩⟩ ports := by
  have hkeeps : B.keeps post := B.keeps_step _ hm hw.keeps
  obtain ⟨hhas, -⟩ := B.acts _ hm ports hw.has asker opening action haction
  dsimp only at hhas
  have htold (slot : Nat) :
      (B.seen ⟨s.backend, l, events, post⟩).filterMap (NetworkEvent.toldOf slot) = [] := by
    rw [List.filterMap_eq_nil_iff]
    intro e he
    simp only [NetworkTable.seen, haction] at he
    rcases List.mem_cons.mp he with rfl | he
    · rfl
    · obtain ⟨d, -, rfl⟩ := List.mem_map.mp he
      rfl
  generalize B.seen ⟨s.backend, l, events, post⟩ = seen at htold
  have hopens (socket : UdpSocket) (s' : Connected σ) :
      B.opens socket ⟨s, .does l, seen, s'⟩ =
        (Action.opened (asker, opening, action) == some socket) := by
    simp only [SocketTable.opens, haction, Option.bind_some]
  cases action with
  | udpListen bind reuse =>
      cases opening with
      | refused e =>
          cases hact
          exact goes_untouched hw hkeeps hhas (fun _ ↦ rfl) hopens htold
      | unregistered socket addr e =>
          cases hact
          exact goes_untouched hw hkeeps hhas (fun _ ↦ Ports.portAt_reserve) hopens htold
      | opened socket addr =>
          rw [Inboxes.act] at hact
          split at hact
          · rename_i hclosed
            cases hact
            exact goes_place hw hkeeps hhas hclosed hopens htold
          · cases hact
  | udpUnlisten slot =>
      have hports (slot' : Nat) : Ports.portAt B.first
          (ports.onAction B.first asker opening (.udpUnlisten slot)).1 slot' =
            if slot' = slot then none else ports.portAt B.first slot' := Ports.portAt_vacate slot
      simp only [Inboxes.act, B.socketAt_eq _ ports hw.has slot] at hact
      cases hport : ports.portAt B.first slot with
      | none =>
          rw [hport] at hact
          cases hact
          refine goes_untouched hw hkeeps hhas (fun slot' ↦ ?_) hopens htold
          rw [hports]
          split
          · rename_i hslot
            rw [hslot, hport]
          · rfl
      | some l =>
          obtain ⟨socket, addr, owner⟩ := l
          rw [hport] at hact
          cases hact
          exact goes_vacate hw hkeeps hhas hport hports hopens htold
  | udpPacket slot dest data =>
      cases hact
      exact goes_untouched hw hkeeps hhas (fun _ ↦ rfl) hopens htold
  | udpPackets slot dests data =>
      cases hact
      exact goes_untouched hw hkeeps hhas (fun _ ↦ rfl) hopens htold
  | udpPackets2 dests data =>
      cases hact
      exact goes_untouched hw hkeeps hhas (fun _ ↦ rfl) hopens htold

/-- **What a step does at each port.** -/
theorem goes_of_fires (hw : B.Wired m.pre ports) (hm : B.connected.Fires m) : B.Goes m ports := by
  obtain ⟨s, label, seen, s'⟩ := m
  have hstep : Connected.step B s label = some (s', seen) := hm
  cases label with
  | comes socket sender datagram =>
      obtain ⟨waiting, hwaiting, heq⟩ := Option.map_eq_some_iff.mp hstep
      cases heq
      exact goes_comes hw hwaiting
  | does l =>
      obtain ⟨⟨post, events⟩, hfires, hrest⟩ := Option.bind_eq_some_iff.mp hstep
      dsimp only at hrest
      split at hrest
      · rename_i action haction
        obtain ⟨inboxes, hact, heq⟩ := Option.map_eq_some_iff.mp hrest
        cases heq
        exact goes_acts hw hfires haction hact
      · rename_i haction
        obtain ⟨inboxes, hread, heq⟩ := Option.map_eq_some_iff.mp hrest
        cases heq
        exact goes_reads hw hfires haction hread

end Steps

/-! ## Every run -/

section Runs

variable {B : SocketTable σ lab Owner} {h : B.ConnectedHistory} {s : Connected σ}

theorem wired_unconnected : B.Wired B.unconnected [] where
  keeps := B.keeps_start
  has := B.has_start
  isOpen socket := by
    refine iff_of_false Bool.false_ne_true ?_
    rintro ⟨slot, addr, owner, hport⟩
    cases (Ports.portAt_eq_some.mp hport).2
  distinct hport := by cases (Ports.portAt_eq_some.mp hport).2

/-- What comes is told, or waits. -/
theorem tells_of_run (hr : B.connected.Run B.unconnected h s) :
    ∃ ports, B.Wired s ports ∧ ∀ slot socket addr owner,
      ports.portAt B.first slot = some (socket, addr, owner) → ∃ waiting,
        s.inboxes socket = some waiting ∧
        (B.sinceOpened socket h).events.filterMap (NetworkEvent.toldOf slot) ++
            waiting.map (toBeTold owner) =
          (comesTo socket (B.sinceOpened socket h)).map (toBeTold owner) := by
  induction hr with
  | nil =>
      refine ⟨[], wired_unconnected, fun slot socket addr owner hport ↦ ?_⟩
      cases (Ports.portAt_eq_some.mp hport).2
  | @snoc h m hr hm ih =>
      obtain ⟨ports, hw, hall⟩ := ih
      obtain ⟨ports', hw', hat⟩ := goes_of_fires hw hm
      refine ⟨ports', hw', fun slot socket addr owner hport ↦ ?_⟩
      cases hat slot _ hport with
      | opens hopens hpost =>
          refine ⟨[], hpost, ?_⟩
          rw [SocketTable.sinceOpened, List.rtakeWhile_concat, hopens]
          rfl
      | @passes _ _ _ waiting waiting' read hopens hbefore hpre hpost htold hwaits =>
          obtain ⟨waiting₀, hwaiting₀, heq⟩ := hall slot socket addr owner hbefore
          cases hpre.symm.trans hwaiting₀
          refine ⟨waiting', hpost, ?_⟩
          have hsince : B.sinceOpened socket (h ++ [m]) = B.sinceOpened socket h ++ [m] := by
            rw [SocketTable.sinceOpened, List.rtakeWhile_concat, hopens]
            rfl
          have hcomes (g : B.ConnectedHistory) :
              comesTo socket (g ++ [m]) = comesTo socket g ++ comesTo socket [m] :=
            List.filterMap_append
          rw [hsince, History.events_append, History.events_singleton, List.filterMap_append,
            htold, List.append_assoc, ← List.map_append, hwaits, List.map_append,
            ← List.append_assoc, heq, hcomes, List.map_append]

/-- The backend by itself has made a run. -/
theorem backend_run (hr : B.connected.Run B.unconnected h s) :
    ∃ g, B.machine.Run B.start g s.backend := by
  induction hr with
  | nil => exact ⟨[], .nil⟩
  | @snoc h m hr hm ih =>
      obtain ⟨g, hrun⟩ := ih
      obtain ⟨pre, label, seen, post⟩ := m
      have hstep : Connected.step B pre label = some (post, seen) := hm
      cases label with
      | comes socket sender datagram =>
          obtain ⟨waiting, -, heq⟩ := Option.map_eq_some_iff.mp hstep
          cases heq
          exact ⟨g, hrun⟩
      | does l =>
          obtain ⟨⟨b, events⟩, hfires, hrest⟩ := Option.bind_eq_some_iff.mp hstep
          refine ⟨g ++ [⟨pre.backend, l, events, b⟩], ?_⟩
          have hpost : post.backend = b := by
            dsimp only at hrest
            split at hrest <;>
            · obtain ⟨inboxes, -, heq⟩ := Option.map_eq_some_iff.mp hrest
              cases heq
              rfl
          rw [hpost]
          exact Machine.Run.snoc (m := ⟨pre.backend, l, events, b⟩) hrun hfires

end Runs

/-! ## Both backends -/

/-- `PollBackend` has sockets in its slots. -/
def PollBackend.socketTable (Owner : Type) (n : Nat) {q : Nat} (hq : 0 < q) :
    SocketTable (PollBackend Owner n q) (PollLabel Owner) Owner where
  toNetworkTable := networkTable Owner n hq
  socketAt := socketAt
  socketAt_eq _ _ := socketAt_eq

/-- `PollingBackend` has. -/
def PollingBackend.socketTable (Owner : Type) (n : Nat) {q : Nat} (hq : 0 < q) :
    SocketTable (PollingBackend Owner n q) (PollingLabel Owner) Owner where
  toNetworkTable := networkTable Owner n hq
  socketAt := socketAt
  socketAt_eq _ _ := socketAt_eq

/-- Nothing waits. -/
def Connected.Drained (s : Connected σ) : Prop :=
  ∀ socket waiting, s.inboxes socket = some waiting → waiting = []

/-- A `PollBackend` that returns `None` has found nothing. -/
theorem PollBackend.drained (hq : 0 < q) (hn : 0 < n) {s : Connected (PollBackend Owner n q)}
    {ports : Ports Owner} (hw : (socketTable Owner n hq).Wired s ports) (hrests : s.backend.Rests)
    {recv : Nat → UdpSocket → Option (SocketAddr × List UInt8)} {b : PollBackend Owner n q}
    (hpop : s.backend.popIncoming recv = .ok (none, b))
    (hrecv : ∀ slot socket, s.backend.socketAt slot = some socket → recv slot socket = none →
      s.inboxes socket = some []) : s.Drained := by
  intro socket waiting hwaiting
  obtain ⟨slot, addr, owner, hport⟩ := (hw.isOpen socket).mp (by rw [hwaiting]; rfl)
  have hports : s.backend.HasPorts ports := hw.has
  have hheld : Slots.held s.backend.sockets slot = some (udp (socket, addr, owner)) := by
    rw [hports.held (Nat.zero_le slot)]
    exact congrArg (Option.map udp) hport
  obtain ⟨out, b', hpop', hdoes⟩ := popIncoming_cases hq hrests.last hrests.buf recv
  cases hpop.symm.trans hpop'
  obtain ⟨-, hnone⟩ := hdoes.tried hn hheld
  have hat : s.backend.socketAt slot = some socket := by
    rw [socketAt_eq hports, show ports.portAt 0 slot = _ from hport]
    rfl
  cases hwaiting.symm.trans (hrecv slot socket hat hnone)
  rfl

/-- A socket is listened.  Two datagrams come to it, and both are read. -/
def pollCame : (PollBackend.socketTable Unit 1 Nat.zero_lt_one).ConnectedHistory ×
    Connected (PollBackend Unit 1 1) :=
  ((PollBackend.socketTable Unit 1 Nat.zero_lt_one).connected.exec
    (PollBackend.socketTable Unit 1 Nat.zero_lt_one).unconnected
    [.does (.onAction () (.ok (7, anyPort)) (.udpListen anyPort false)),
      .does (.popIncoming fun _ _ ↦ none), .comes 7 anyPort [1], .comes 7 anyPort [2],
      .does (.popIncoming fun _ _ ↦ some (anyPort, [1])),
      .does (.popIncoming fun _ _ ↦ some (anyPort, [2]))]).get (by decide +kernel)

/-- The same with the other backend.  A read fails, and then the first one is read. -/
def pollingCame : (PollingBackend.socketTable Unit 1 Nat.zero_lt_one).ConnectedHistory ×
    Connected (PollingBackend Unit 1 1) :=
  ((PollingBackend.socketTable Unit 1 Nat.zero_lt_one).connected.exec
    (PollingBackend.socketTable Unit 1 Nat.zero_lt_one).unconnected
    [.does (.onAction () (.opened 7 anyPort) (.udpListen anyPort false)),
      .does (.popIncoming fun _ _ ↦ none), .comes 7 anyPort [1], .comes 7 anyPort [2],
      .does (.pollIncoming (.ok [1])), .does (.popIncoming fun _ _ ↦ none),
      .does (.pollIncoming (.ok [1])),
      .does (.popIncoming fun _ _ ↦ some (anyPort, [1]))]).get (by decide +kernel)

theorem pollCame_run : (PollBackend.socketTable Unit 1 Nat.zero_lt_one).connected.Run
    (PollBackend.socketTable Unit 1 Nat.zero_lt_one).unconnected pollCame.1 pollCame.2 :=
  Machine.exec_run_get _

theorem pollingCame_run : (PollingBackend.socketTable Unit 1 Nat.zero_lt_one).connected.Run
    (PollingBackend.socketTable Unit 1 Nat.zero_lt_one).unconnected pollingCame.1 pollingCame.2 :=
  Machine.exec_run_get _

set_option maxRecDepth 8000 in
/-- It has one socket, which is empty then. -/
theorem pollCame_empty (slot : Nat) (socket : UdpSocket)
    (h : pollCame.2.backend.socketAt slot = some socket) :
    pollCame.2.inboxes socket = some [] := by
  cases slot with
  | zero =>
      cases h
      rfl
  | succ slot => cases h

end SansIo.Backend
