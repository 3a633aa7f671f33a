import SansIo.Backend.Interchange
import SansIo.Worker.Node

/-!
# The echo server

`examples/udp_echo_server.rs`: an inner value that listens on one address and sends every
packet back to where it came from.  `main` runs it in a worker with a `PollBackend`, which is
a `Node`.

`echoes_of_run` says what comes of that at the sockets: the datagrams that are sent are those
that were read, each through the socket it was read from, in that order and cut at 1500
bytes.  None is missing while the server has not been shut down.  After that one may be: the
branch of `process` for `Shutdown` does not pop the inner value, so that a packet may be read
while the `UdpUnlisten` still waits, and its answer comes out behind it.

A method that may panic returns `Panics`; once it has, nothing more comes out.
-/

namespace SansIo.EchoServer

open Lib Collections Bus Backend

/-- `EchoWorkerCfg`. -/
structure EchoWorkerCfg where
  /-- The address to listen on. -/
  bind : SocketAddr

/-- The type parameters of the example. -/
abbrev echoTypes : WorkerTypes := ⟨Unit, Unit, Unit, Unit, Unit, EchoWorkerCfg, Unit⟩

/-- `EchoWorker`. -/
structure EchoWorker where
  /-- `worker`. -/
  worker : UInt16
  /-- The slot of its socket, once it is known. -/
  backendSlot : Nat
  /-- What is to be popped. -/
  output : DynamicDeque (WorkerInnerOutput echoTypes) 16
  /-- Whether it has been shut down. -/
  shutdown : Bool

namespace EchoWorker

/-- `build`. -/
def build (worker : UInt16) (cfg : EchoWorkerCfg) : EchoWorker where
  worker := worker
  backendSlot := 0
  output := DynamicDeque.default.pushBack (.net () (.udpListen cfg.bind true))
  shutdown := false

/-- `tasks`. -/
def tasks (e : EchoWorker) : Nat := if e.shutdown then 0 else 1

/-- `is_empty`. -/
def isEmpty (e : EchoWorker) : Bool := e.shutdown && e.output.isEmpty

/-- `on_event`. -/
def onEvent (e : EchoWorker) : WorkerInnerInput echoTypes → Panics EchoWorker
  | .net _ (.udpListenResult _bind result) => match result with
    | .ok (_, slot) => .ok { e with backendSlot := slot }
    | .error _ => throw "Should bind success"
  | .net _ (.udpPacket slot sender data) => do
    let bytes ← data.visible
    if bytes.length ≤ 1500 then
      .ok { e with output := e.output.pushBack (.net () (.udpPacket slot sender data)) }
    else throw "data too large"
  | _ => .ok e

/-- `pop_output`. -/
def popOutput (e : EchoWorker) : Option (WorkerInnerOutput echoTypes) × EchoWorker :=
  let (out, output) := e.output.popFront
  (out, { e with output })

/-- `on_shutdown`. -/
def onShutdown (e : EchoWorker) : EchoWorker :=
  if e.shutdown then e
  else { e with
    shutdown := true
    output := e.output.pushBack (.net () (.udpUnlisten e.backendSlot)) }

end EchoWorker

instance : WorkerInner echoTypes (Panics EchoWorker) where
  build worker cfg := .ok (.build worker cfg)
  tasks
    | .ok e => e.tasks
    | .error _ => 0
  isEmpty
    | .ok e => e.isEmpty
    | .error _ => false
  spawn e _ _ := e
  onTick e _ := e
  onEvent e _ event := e >>= (·.onEvent event)
  onShutdown e _ := e.map EchoWorker.onShutdown
  popOutput e _ := match e with
    | .ok e => (e.popOutput.1, .ok e.popOutput.2)
    | .error message => (none, .error message)

variable {n q : Nat}

/-- The server in a worker, with its backend. -/
abbrev Server (n q : Nat) := Node echoTypes (Panics EchoWorker) n q

/-- A history of the server. -/
abbrev ServerHistory (n q : Nat) := NodeHistory echoTypes (Panics EchoWorker) n q

/-- A moment of the server. -/
abbrev ServerMoment (n q : Nat) := NodeMoment echoTypes (Panics EchoWorker) n q

/-- The server as `add_worker` starts it. -/
def Server.new (now : Instant) (tick : Nat) (worker : UInt16) (cfg : EchoWorkerCfg) (i j k : Nat) :
    Server n q where
  worker := .new now tick (WorkerInner.build worker cfg) i j k
  backend := .default

/-- A datagram as it fits into a buffer. -/
def cut (d : Datagram) : Datagram := (d.1, d.2.1, d.2.2.take 1500)

/-- The inner value is told that its socket could not be opened. -/
def BindFailed (m : ServerMoment n q) : Prop :=
  ∃ k, .worker k ∈ m.events ∧ ∃ bind e,
    .input (.onEvent (.net () (.udpListenResult bind (.error e)))) ∈ k.events

/-! ## What a step does -/

/-- What a step of the server does to its inner value and its sockets, where the inner value
has not panicked.  The datagrams are those that are read, and those that are sent. -/
inductive EchoDoes (x : Server n q) (e : EchoWorker) :
    Server n q → List Datagram → List Datagram → Prop
  | /-- `init` goes to `pop_inner`. -/
    init {x'} (hpop : x'.worker.popping = true) (hinner : x'.worker.inner = .ok e)
      (hsockets : x'.backend.sockets = x.backend.sockets)
      (hqueue : listenResults x'.backend.output.toList = listenResults x.backend.output.toList) :
      EchoDoes x e x' [] []
  | /-- Nothing that matters to the inner value. -/
    idle {x'} (hp : x.worker.popping = false) (hpc : x.worker.pc ≠ .start)
      (hinner : x'.worker.inner = .ok e) (hsockets : x'.backend.sockets = x.backend.sockets)
      (hqueue : listenResults x'.backend.output.toList = listenResults x.backend.output.toList) :
      EchoDoes x e x' [] []
  | /-- It is shut down, and not popped. -/
    shutdown {x'} (hp : x.worker.popping = false) (hpc : x.worker.pc ≠ .start)
      (hinner : x'.worker.inner = .ok e.onShutdown)
      (hsockets : x'.backend.sockets = x.backend.sockets)
      (hqueue : listenResults x'.backend.output.toList = listenResults x.backend.output.toList) :
      EchoDoes x e x' [] []
  | /-- It learns its slot. -/
    listens {x' owner bind addr slot} (hp : x.worker.popping = false) (hpc : x.worker.pc ≠ .start)
      (hinner : x'.worker.inner = .ok { e with backendSlot := slot })
      (hsockets : x'.backend.sockets = x.backend.sockets)
      (hqueue : listenResults x.backend.output.toList =
        (owner, bind, .ok (addr, slot)) :: listenResults x'.backend.output.toList) :
      EchoDoes x e x' [] []
  | /-- It is given a packet. -/
    packet {x' socket addr slot sender datagram} (hp : x.worker.popping = false)
      (hpc : x.worker.pc ≠ .start) (hpop : x'.worker.popping = true)
      (hinner : x'.worker.inner = .ok { e with
        output := e.output.pushBack (.net () (.udpPacket slot sender (received datagram))) })
      (hsockets : x'.backend.sockets = x.backend.sockets)
      (hqueue : listenResults x'.backend.output.toList = listenResults x.backend.output.toList)
      (hheld : Slots.held x.backend.sockets slot = some (PollBackend.udp (socket, addr, ()))) :
      EchoDoes x e x' [(socket, sender, datagram)] []
  | /-- An action is popped and done. -/
    pops {x' e' action createUdp sent} (hp : x.worker.popping = true)
      (hpop : x'.worker.popping = true) (hinner : x'.worker.inner = .ok { e with output := e' })
      (hout : e.output.toList = .net () action :: e'.toList)
      (hact : x.backend.onAction () createUdp action = .ok (x'.backend, sent)) :
      EchoDoes x e x' [] sent
  | /-- Another output is popped. -/
    other {x' out e' received sent} (hout : e.output.toList = out :: e')
      (hother : ∀ action, out ≠ .net () action) : EchoDoes x e x' received sent
  | /-- There is nothing more to pop. -/
    drained {x' e'} (hp : x.worker.popping = true) (hpop : x'.worker.popping = false)
      (hinner : x'.worker.inner = .ok { e with output := e' }) (hout : e.output.toList = [])
      (hout' : e'.toList = []) (hsockets : x'.backend.sockets = x.backend.sockets)
      (hqueue : listenResults x'.backend.output.toList = listenResults x.backend.output.toList) :
      EchoDoes x e x' [] []

/-- An input of the inner value. -/
theorem inner_call {x : Worker echoTypes (Panics EchoWorker)} {e : EchoWorker}
    (he : x.inner = .ok e) (c : InnerCall echoTypes) :
    (x.call c).inner = match c with
      | .onEvent event => e.onEvent event
      | .onShutdown => .ok e.onShutdown
      | .spawn _ | .onTick => .ok e := by
  cases c with
  | onEvent event =>
      change (x.inner >>= _) = _
      rw [he]
      rfl
  | onShutdown =>
      change x.inner.map _ = _
      rw [he]
      rfl
  | spawn cfg => exact he
  | onTick => exact he

/-- What is read in a step is read for its answer, and what is sent is sent for its acts. -/
theorem datagrams_of_steps {m : ServerMoment n q} {a : Answer echoTypes}
    {backend : PollBackend Unit n q} {asked performed : List (NodeEvent echoTypes _ n q)}
    {acts : List (Act echoTypes)} (h : Node.Steps m a backend asked acts performed) :
    Node.received [m] = asked.filterMap NodeEvent.receivedDatagram ∧
      Node.sent [m] = performed.filterMap NodeEvent.sentDatagram := by
  obtain ⟨-, -, hreceived⟩ := Node.performAll_run h.performs
  obtain ⟨-, -, hsent⟩ := h.asks.run
  rw [Node.received, Node.sent, History.events_singleton, h.events_eq, List.filterMap_append,
    List.filterMap_append, hsent, List.nil_append]
  refine ⟨?_, rfl⟩
  change _ ++ performed.filterMap NodeEvent.receivedDatagram = _
  rw [hreceived, List.append_nil]

/-- **Every step is one of these**, unless the inner value is told that its socket could not be
opened. -/
theorem echo_cases {m : ServerMoment n q} (hm : (node echoTypes (Panics EchoWorker) n q).Fires m)
    (hclean : m.pre.backend.Clean) {e : EchoWorker} (he : m.pre.worker.inner = .ok e) :
    BindFailed m ∨ EchoDoes m.pre e m.post (Node.received [m]) (Node.sent [m]) := by
  obtain ⟨a, backend, asked, acts, performed, hsteps⟩ := Node.steps_of_fires hm
  obtain ⟨hreceived, hsent⟩ := datagrams_of_steps hsteps
  rw [hreceived, hsent]
  obtain ⟨hasks, hdoes, hperforms, hevents⟩ := hsteps
  obtain ⟨⟨x, b⟩, w, events, ⟨x', b'⟩⟩ := m
  dsimp only at hasks hdoes hperforms hevents he hclean
  have hworker : WorkerDoes x a x' acts := worker_cases hdoes
  have hmem : NodeEvent.worker ⟨x, a, acts, x'⟩ ∈ events := by
    rw [hevents]
    exact List.mem_append_right _ List.mem_cons_self
  cases hasks with
  | world ha =>
      cases hworker with
      | init hp hpc =>
          cases hperforms
          exact .inr (.init rfl he rfl rfl)
      | cycle hp hpc | statsRequest hp hpc | reply hp hpc | controlled hp hpc | tick hp hpc
      | notDue hp hpc | receive hp hpc | ignore hp hpc | invalid hp hpc | drained hp hpc
      | delivered hp hpc =>
          cases hperforms
          exact .inr (.idle hp (by simp [hpc]) he rfl rfl)
      | spawn hp hpc =>
          cases hperforms
          exact .inr (.idle hp (by simp [hpc]) (inner_call he (.spawn _)) rfl rfl)
      | ext hp hpc | broadcast hp hpc | deliver hp hpc =>
          cases hperforms
          exact .inr (.idle hp (by simp [hpc]) (inner_call he (.onEvent _)) rfl rfl)
      | shutdown hp hpc =>
          cases hperforms
          exact .inr (.shutdown hp (by simp [hpc]) (inner_call he .onShutdown) rfl rfl)
      | poll hp hpc =>
          cases hperforms
          obtain ⟨hsockets, hqueue⟩ := b.pollIncoming_answer
          exact .inr (.idle hp (by simp [hpc]) he hsockets hqueue)
      | woken => exact absurd rfl (ha _)
      | net => exact absurd rfl (ha _)
      | polled => exact absurd rfl (ha _)
      | @pop out inner hp hout =>
          have hpopped : (e.popOutput.1, Except.ok e.popOutput.2) = (some out, inner) := by
            rw [← hout, he]
            rfl
          obtain ⟨hfront, rfl⟩ := Prod.mk.inj hpopped
          have hfront : e.output.popFront.1 = some out := hfront
          have hlist : e.output.toList = out :: e.output.popFront.2.toList := by
            obtain ⟨y, hy, hlist⟩ | ⟨hnone, -⟩ := e.output.popFront_cases
            · cases hfront.symm.trans hy
              exact hlist
            · cases hfront.symm.trans hnone
          right
          cases out with
          | net owner action =>
              exact .pops hp hp rfl hlist (Node.performAll_popped hperforms)
          | bus event => exact .other hlist nofun
          | ext safe ext => exact .other hlist nofun
          | spawn cfg => exact .other hlist nofun
          | «continue» => exact .other hlist nofun
      | @popped inner hp hout =>
          cases hperforms
          have hpopped : (e.popOutput.1, Except.ok e.popOutput.2) = (none, inner) := by
            rw [← hout, he]
            rfl
          obtain ⟨hfront, rfl⟩ := Prod.mk.inj hpopped
          have hspec := DynamicDeque.popFront_spec (show 0 < 16 by decide) e.output
          have hlist : e.output.toList = [] := by
            rw [← List.head?_eq_none_iff, ← hspec.1]
            exact hfront
          have hrest : e.output.popFront.2.toList = [] := by
            rw [hspec.2, hlist]
            rfl
          exact .inr (.drained hp rfl rfl hlist hrest rfl rfl)
  | @backend event _ hpop =>
      have hsockets := PollBackend.popIncoming_sockets hpop
      have hanswer := PollBackend.popIncoming_answer hpop
      obtain ⟨-, -, hfrom⟩ := PollBackend.popIncoming_does hclean.buf hclean.noPackets hpop
      cases hworker with
      | woken hp hpc =>
          cases hperforms
          exact .inr (.idle hp (by simp [hpc]) he hsockets hanswer.symm)
      | polled hp hpc =>
          cases hperforms
          exact .inr (.idle hp (by simp [hpc]) he hsockets hanswer.symm)
      | @net owner event hp hpc =>
          cases hperforms
          have hinner := inner_call he (.onEvent (.net owner event))
          cases event with
          | udpListenResult bind result =>
              cases result with
              | error err =>
                  exact .inl ⟨_, hmem, bind, err, List.mem_singleton.mpr rfl⟩
              | ok r =>
                  obtain ⟨addr, slot⟩ := r
                  exact .inr (.listens hp (by simp [hpc]) hinner hsockets hanswer)
          | udpPacket slot sender data =>
              obtain ⟨socket, addr, datagram, hheld, hrecv, rfl⟩ := hfrom _ _ _ _ rfl
              have hfits : (datagram.take 1500).length ≤ 1500 := List.length_take_le _ _
              have hsocket : b.socketAt slot = some socket := by
                rw [PollBackend.socketAt, Slots.held_eq_some.1 hheld]
                rfl
              have hread : Node.readFor b w.recv
                  (some (.event owner (.udpPacket slot sender (received datagram)))) =
                    some (socket, sender, datagram) := by
                rw [Node.readFor, PollBackend.givesAt, hsocket, Option.bind_some, hrecv]
                rfl
              rw [hread]
              refine .inr (.packet hp (by simp [hpc]) rfl (hinner.trans ?_) hsockets hanswer.symm
                hheld)
              change (received datagram).visible >>= _ = _
              rw [visible_received]
              exact if_pos hfits

/-! ## What a run does -/

/-- The answer to a packet, where one has not been popped. -/
def answers (reply : Option (SocketAddr × Buffer)) : List (WorkerInnerOutput echoTypes) :=
  reply.toList.map fun r ↦ .net () (.udpPacket 0 r.1 r.2)

/-- What will be sent for it. -/
def unsent (ports : Ports Unit) (reply : Option (SocketAddr × Buffer)) : List Datagram :=
  reply.toList.flatMap fun r ↦ ports.send 0 0 r.1 r.2

/-- Where the server stands, with what has been read and what has been sent. -/
inductive Phase (bind : SocketAddr) (x : Worker echoTypes (Panics EchoWorker)) (e : EchoWorker)
    (ports : Ports Unit) : List Datagram → List Datagram → Prop
  | /-- It has not asked for its socket. -/
    opening (hoff : e.shutdown = false)
      (hout : e.output.toList = [.net () (.udpListen bind true)]) (hports : ports = [])
      (hstart : x.popping = false → x.pc = .start) : Phase bind x e ports [] []
  | /-- It answers every packet. -/
    serving {reply sent} (hoff : e.shutdown = false) (hout : e.output.toList = answers reply)
      (hreply : x.popping = false → reply = none) :
      Phase bind x e ports (sent ++ unsent ports reply) sent
  | /-- It is to give its socket back, before it answers anything more. -/
    closing {reply sent} (hon : e.shutdown = true)
      (hout : e.output.toList = .net () (.udpUnlisten 0) :: answers reply)
      (hreply : x.popping = false → reply = none) :
      Phase bind x e ports (sent ++ unsent ports reply) sent
  | /-- It has given it back, and cannot answer. -/
    closed {reply sent lost} (hon : e.shutdown = true) (hout : e.output.toList = answers reply)
      (hreply : x.popping = false → reply = none) (hport : ports.portAt 0 0 = none)
      (hlost : lost.length ≤ 1) : Phase bind x e ports (sent ++ lost) sent

section Phases

variable {bind : SocketAddr} {x : Worker echoTypes (Panics EchoWorker)} {e : EchoWorker}
  {ports : Ports Unit} {received sent : List Datagram}

/-- There is room for one answer. -/
theorem length_unsent_le (reply : Option (SocketAddr × Buffer)) :
    (unsent ports reply).length ≤ 1 := by
  cases reply with
  | none => exact Nat.zero_le 1
  | some r =>
      rw [unsent, Option.toList_some, List.flatMap_singleton, Ports.send, List.length_map]
      cases ports.portAt 0 0 with
      | none => exact Nat.zero_le 1
      | some l => exact Nat.le_refl 1

/-- Going to `pop_inner` changes nothing. -/
theorem Phase.popping (h : Phase bind x e ports received sent)
    {x' : Worker echoTypes (Panics EchoWorker)} (hpop : x'.popping = true) :
    Phase bind x' e ports received sent := by
  have hnot {p : Prop} : x'.popping = false → p := by
    intro hpop'
    cases hpop.symm.trans hpop'
  cases h with
  | opening hoff hout hports hstart => exact .opening hoff hout hports hnot
  | serving hoff hout hreply => exact .serving hoff hout hnot
  | closing hon hout hreply => exact .closing hon hout hnot
  | closed hon hout hreply hport hlost => exact .closed hon hout hnot hport hlost

/-- Where the inner value is not being popped, no answer waits. -/
theorem Phase.settled (h : Phase bind x e ports received sent) (hp : x.popping = false)
    (hpc : x.pc ≠ .start) :
    (e.shutdown = false ∧ e.output.toList = [] ∧ received = sent) ∨
      (e.shutdown = true ∧ e.output.toList = [.net () (.udpUnlisten 0)] ∧ received = sent) ∨
      (e.shutdown = true ∧ e.output.toList = [] ∧ ports.portAt 0 0 = none ∧
        ∃ lost, lost.length ≤ 1 ∧ received = sent ++ lost) := by
  cases h with
  | opening hoff hout hports hstart => exact absurd (hstart hp) hpc
  | serving hoff hout hreply =>
      obtain rfl := hreply hp
      exact .inl ⟨hoff, hout, List.append_nil _⟩
  | closing hon hout hreply =>
      obtain rfl := hreply hp
      exact .inr (.inl ⟨hon, hout, List.append_nil _⟩)
  | @closed reply sent lost hon hout hreply hport hlost =>
      obtain rfl := hreply hp
      exact .inr (.inr ⟨hon, hout, hport, lost, hlost, rfl⟩)

/-- So it does not matter then what the worker does. -/
theorem Phase.idle (h : Phase bind x e ports received sent) (hp : x.popping = false)
    (hpc : x.pc ≠ .start) (x' : Worker echoTypes (Panics EchoWorker)) {e' : EchoWorker}
    (hshutdown : e'.shutdown = e.shutdown) (hout : e'.output = e.output) :
    Phase bind x' e' ports received sent := by
  obtain ⟨hoff, hnil, rfl⟩ | ⟨hon, hlist, rfl⟩ | ⟨hon, hnil, hport, lost, hlost, rfl⟩ :=
    h.settled hp hpc
  · have hphase : Phase bind x' e' ports (received ++ unsent ports none) received :=
      .serving (hshutdown.trans hoff) (by rw [hout, hnil]; rfl) fun _ ↦ rfl
    rwa [unsent, Option.toList_none, List.flatMap_nil, List.append_nil] at hphase
  · have hphase : Phase bind x' e' ports (received ++ unsent ports none) received :=
      .closing (hshutdown.trans hon) (by rw [hout, hlist]; rfl) fun _ ↦ rfl
    rwa [unsent, Option.toList_none, List.flatMap_nil, List.append_nil] at hphase
  · have hnone : e'.output.toList = answers none := by
      rw [hout, hnil]
      rfl
    exact .closed (hshutdown.trans hon) hnone (fun _ ↦ rfl) hport hlost

/-- A server that is shut down is to give its socket back, once. -/
theorem Phase.shutdown (h : Phase bind x e ports received sent) (hp : x.popping = false)
    (hpc : x.pc ≠ .start) (hslot : e.backendSlot = 0)
    (x' : Worker echoTypes (Panics EchoWorker)) :
    Phase bind x' e.onShutdown ports received sent := by
  have hagain (hon : e.shutdown = true) : e.onShutdown = e := if_pos hon
  obtain ⟨hoff, hnil, rfl⟩ | ⟨hon, -, -⟩ | ⟨hon, -, -, -⟩ := h.settled hp hpc
  · have honShutdown : e.onShutdown = { e with
        shutdown := true, output := e.output.pushBack (.net () (.udpUnlisten 0)) } := by
      rw [EchoWorker.onShutdown, hoff, hslot]
      rfl
    have hphase : Phase bind x' e.onShutdown ports (received ++ unsent ports none) received := by
      rw [honShutdown]
      refine .closing rfl ?_ fun _ ↦ rfl
      rw [DynamicDeque.toList_pushBack, hnil]
      rfl
    rwa [unsent, Option.toList_none, List.flatMap_nil, List.append_nil] at hphase
  · rw [hagain hon]
    exact h.idle hp hpc x' rfl rfl
  · rw [hagain hon]
    exact h.idle hp hpc x' rfl rfl

/-- A packet waits for its answer. -/
theorem Phase.packet (h : Phase bind x e ports received sent) (hp : x.popping = false)
    (hpc : x.pc ≠ .start) {x' : Worker echoTypes (Panics EchoWorker)} (hpop : x'.popping = true)
    {l : Listening Unit} (hport : ports.portAt 0 0 = some l) (sender : SocketAddr)
    (data : Buffer) :
    Phase bind x' { e with output := e.output.pushBack (.net () (.udpPacket 0 sender data)) } ports
      (received ++ [(l.1, sender, data.deref)]) sent := by
  have hunsent : unsent ports (some (sender, data)) = [(l.1, sender, data.deref)] := by
    simp [unsent, Ports.send, hport]
  have hnot {p : Prop} : x'.popping = false → p := by
    intro hpop'
    cases hpop.symm.trans hpop'
  rw [← hunsent]
  obtain ⟨hoff, hnil, rfl⟩ | ⟨hon, hlist, rfl⟩ | ⟨-, -, hnone, -⟩ := h.settled hp hpc
  · refine .serving hoff ?_ hnot
    rw [DynamicDeque.toList_pushBack, hnil]
    rfl
  · refine .closing hon ?_ hnot
    rw [DynamicDeque.toList_pushBack, hlist]
    rfl
  · cases hnone.symm.trans hport

/-- Where no answer comes, none is about another slot. -/
theorem told_nil : ∀ r ∈ ([] : List (ListenResult Unit)), ∀ addr slot,
    r.2.2 = .ok (addr, slot) → slot = 0 :=
  fun _ hr ↦ absurd hr List.not_mem_nil

/-- The action that is popped is done. -/
theorem Phase.pops (h : Phase bind x e ports received sent)
    {x' : Worker echoTypes (Panics EchoWorker)} (hpop : x'.popping = true)
    {output : DynamicDeque (WorkerInnerOutput echoTypes) 16} {action : BackendOutgoing}
    (hout : e.output.toList = .net () action :: output.toList) (hsingle : ports.length ≤ 1)
    (opening : Opening) (hregistered : ¬ opening.Unregistered) :
    Phase bind x' { e with output } (ports.onAction 0 () opening action).1 received
        (sent ++ (ports.onAction 0 () opening action).2.2) ∧
      (ports.onAction 0 () opening action).1.length ≤ 1 ∧
      ∀ r ∈ (ports.onAction 0 () opening action).2.1, ∀ addr slot, r.2.2 = .ok (addr, slot) →
        slot = 0 := by
  have hnot {p : Prop} : x'.popping = false → p := by
    intro hpop'
    cases hpop.symm.trans hpop'
  have hnil (sent : List Datagram) : sent ++ unsent ports none = sent := List.append_nil sent
  cases h with
  | opening hoff hlist hports hstart =>
      obtain ⟨haction, hrest⟩ := List.cons.inj (hlist.symm.trans hout)
      cases haction
      subst hports
      have hnone : output.toList = answers none := hrest.symm
      have hserving (ports : Ports Unit) :
          Phase bind x' { e with output } ports ([] ++ unsent ports none) [] :=
        .serving hoff hnone hnot
      cases opening with
      | refused err =>
          refine ⟨hserving _, Nat.zero_le 1, fun r hr addr slot hok ↦ ?_⟩
          obtain rfl := List.mem_singleton.mp hr
          cases hok
      | unregistered socket addr err => exact absurd ⟨socket, addr, err, rfl⟩ hregistered
      | opened socket addr =>
          refine ⟨hserving _, Nat.le_refl 1, fun r hr addr slot hok ↦ ?_⟩
          obtain rfl := List.mem_singleton.mp hr
          cases hok
          rfl
  | @serving reply sent hoff hlist hreply =>
      cases reply with
      | none => cases hlist.symm.trans hout
      | some r =>
          obtain ⟨haction, hrest⟩ := List.cons.inj (hlist.symm.trans hout)
          cases haction
          have hnone : output.toList = answers none := hrest.symm
          have hunsent : unsent ports (some r) = ports.send 0 0 r.1 r.2 := List.append_nil _
          have hphase : Phase bind x' { e with output } ports
              (sent ++ ports.send 0 0 r.1 r.2 ++ unsent ports none)
              (sent ++ ports.send 0 0 r.1 r.2) := .serving hoff hnone hnot
          rw [hnil] at hphase
          rw [hunsent]
          exact ⟨hphase, hsingle, told_nil⟩
  | @closing reply sent hon hlist hreply =>
      obtain ⟨haction, hrest⟩ := List.cons.inj (hlist.symm.trans hout)
      cases haction
      have hact : ports.onAction 0 () opening (.udpUnlisten 0) = (ports.set 0 none, [], []) := by
        rw [Ports.onAction, if_pos (Nat.zero_le 0)]
      have hport : Ports.portAt 0 (ports.set 0 none) 0 = none := by
        cases ports with
        | nil => rfl
        | cons o ports => rfl
      rw [hact, List.append_nil]
      refine ⟨.closed hon hrest.symm hnot hport (length_unsent_le reply), ?_, told_nil⟩
      rw [List.length_set]
      exact hsingle
  | @closed reply sent lost hon hlist hreply hport hlost =>
      cases reply with
      | none => cases hlist.symm.trans hout
      | some r =>
          obtain ⟨haction, hrest⟩ := List.cons.inj (hlist.symm.trans hout)
          cases haction
          have hnone : output.toList = answers none := hrest.symm
          have hsend : ports.send 0 0 r.1 r.2 = [] := by
            rw [Ports.send, hport]
            rfl
          refine ⟨?_, hsingle, told_nil⟩
          change Phase bind x' { e with output } ports (sent ++ lost)
            (sent ++ ports.send 0 0 r.1 r.2)
          rw [hsend, List.append_nil]
          exact .closed hon hnone hnot hport hlost

/-- Where there is nothing to pop, no answer waits. -/
theorem Phase.drained (h : Phase bind x e ports received sent) (hnil : e.output.toList = [])
    (x' : Worker echoTypes (Panics EchoWorker))
    {output : DynamicDeque (WorkerInnerOutput echoTypes) 16} (hnil' : output.toList = []) :
    Phase bind x' { e with output } ports received sent := by
  have hnone : output.toList = answers none := hnil'
  cases h with
  | opening hoff hlist => cases hnil.symm.trans hlist
  | @serving reply sent hoff hlist hreply =>
      cases reply with
      | none => exact .serving hoff hnone fun _ ↦ rfl
      | some r => cases hnil.symm.trans hlist
  | closing hon hlist => cases hnil.symm.trans hlist
  | @closed reply sent lost hon hlist hreply hport hlost =>
      exact .closed hon hnone (fun _ ↦ rfl) hport hlost

/-- Every output is an action. -/
theorem Phase.net (h : Phase bind x e ports received sent) {out : WorkerInnerOutput echoTypes}
    (hout : out ∈ e.output.toList) : ∃ action, out = .net () action := by
  have hanswer {reply : Option (SocketAddr × Buffer)} (hmem : out ∈ answers reply) :
      ∃ action, out = .net () action := by
    obtain ⟨r, -, rfl⟩ := List.mem_map.mp hmem
    exact ⟨_, rfl⟩
  cases h with
  | opening hoff hlist =>
      rw [hlist] at hout
      exact ⟨_, List.mem_singleton.mp hout⟩
  | serving hoff hlist => exact hanswer (hlist ▸ hout)
  | closing hon hlist =>
      rw [hlist] at hout
      rcases List.mem_cons.mp hout with rfl | hout
      · exact ⟨_, rfl⟩
      · exact hanswer hout
  | closed hon hlist => exact hanswer (hlist ▸ hout)

end Phases

/-- What holds of a server after a history, where its inner value has not panicked. -/
structure Serves (bind : SocketAddr) (h : ServerHistory n q) (x : Server n q) (e : EchoWorker)
    (ports : Ports Unit) : Prop where
  /-- The inner value is this. -/
  inner : x.worker.inner = .ok e
  /-- The backend has these ports, -/
  hasPorts : x.backend.HasPorts ports
  /-- of which there is one at most. -/
  single : ports.length ≤ 1
  /-- So its slot is the first, -/
  slot : e.backendSlot = 0
  /-- and so it will be told. -/
  told : ∀ r ∈ listenResults x.backend.output.toList, ∀ addr slot,
    r.2.2 = .ok (addr, slot) → slot = 0
  /-- It has sent what it has read, up to where it stands. -/
  phase : Phase bind x.worker e ports ((Node.received h).map cut) (Node.sent h)

/-- Where there is one port at most, it is the first. -/
theorem slot_eq_zero {ports : Ports Unit} (hsingle : ports.length ≤ 1) {slot : Nat}
    {l : Listening Unit} (hport : ports.portAt 0 slot = some l) : slot = 0 := by
  obtain ⟨o, ho, -⟩ := Option.bind_eq_some_iff.mp hport
  have hslot : slot < ports.length := (List.getElem?_eq_some_iff.mp ho).1
  exact Nat.lt_one_iff.mp (Nat.lt_of_lt_of_le hslot hsingle)

/-- A step keeps it. -/
theorem Serves.step {bind : SocketAddr} {h : ServerHistory n q} {m : ServerMoment n q}
    {e : EchoWorker} {ports : Ports Unit} (hs : Serves bind h m.pre e ports)
    (hdoes : EchoDoes m.pre e m.post (Node.received [m]) (Node.sent [m])) :
    ∃ e' ports', Serves bind (h ++ [m]) m.post e' ports' := by
  obtain ⟨hinner, hports, hsingle, hslot, htold, hphase⟩ := hs
  have hreceived : (Node.received (h ++ [m])).map cut =
      (Node.received h).map cut ++ (Node.received [m]).map cut := by
    simp [Node.received]
  have hsent : Node.sent (h ++ [m]) = Node.sent h ++ Node.sent [m] := by
    simp [Node.sent]
  have hkept (hsockets : m.post.backend.sockets = m.pre.backend.sockets) :
      m.post.backend.HasPorts ports := by
    rw [PollBackend.HasPorts, hsockets]
    exact hports
  generalize Node.received [m] = received at hdoes hreceived
  generalize Node.sent [m] = sent at hdoes hsent
  cases hdoes with
  | init hpop hinner' hsockets hqueue =>
      rw [List.map_nil, List.append_nil] at hreceived
      rw [List.append_nil] at hsent
      refine ⟨e, ports, hinner', hkept hsockets, hsingle, hslot, hqueue ▸ htold, ?_⟩
      rw [hreceived, hsent]
      exact hphase.popping hpop
  | idle hp hpc hinner' hsockets hqueue =>
      rw [List.map_nil, List.append_nil] at hreceived
      rw [List.append_nil] at hsent
      refine ⟨e, ports, hinner', hkept hsockets, hsingle, hslot, hqueue ▸ htold, ?_⟩
      rw [hreceived, hsent]
      exact hphase.idle hp hpc _ rfl rfl
  | shutdown hp hpc hinner' hsockets hqueue =>
      rw [List.map_nil, List.append_nil] at hreceived
      rw [List.append_nil] at hsent
      have hslot' : e.onShutdown.backendSlot = 0 := by
        rw [EchoWorker.onShutdown]
        split <;> exact hslot
      refine ⟨e.onShutdown, ports, hinner', hkept hsockets, hsingle, hslot', hqueue ▸ htold, ?_⟩
      rw [hreceived, hsent]
      exact hphase.shutdown hp hpc hslot _
  | @listens owner addr₀ addr slot hp hpc hinner' hsockets hqueue =>
      rw [List.map_nil, List.append_nil] at hreceived
      rw [List.append_nil] at hsent
      rw [hqueue] at htold
      have hzero : slot = 0 := htold _ List.mem_cons_self addr slot rfl
      refine ⟨_, ports, hinner', hkept hsockets, hsingle, hzero,
        fun r hr ↦ htold r (List.mem_cons_of_mem _ hr), ?_⟩
      rw [hreceived, hsent]
      exact hphase.idle hp hpc _ rfl rfl
  | @packet socket addr slot sender datagram hp hpc hpop hinner' hsockets hqueue hheld =>
      rw [List.append_nil] at hsent
      have hport : ports.portAt 0 slot = some (socket, addr, ()) := by
        have hudp := (Holds.held hports (Nat.zero_le slot)).symm.trans hheld
        obtain ⟨l, hl, hsame⟩ := Option.map_eq_some_iff.mp hudp
        cases hsame
        exact hl
      obtain rfl : slot = 0 := slot_eq_zero hsingle hport
      have hcut : cut (socket, sender, datagram) = (socket, sender, (received datagram).deref) := by
        rw [deref_received]
        rfl
      rw [List.map_singleton, hcut] at hreceived
      refine ⟨_, ports, hinner', hkept hsockets, hsingle, hslot, hqueue ▸ htold, ?_⟩
      rw [hreceived, hsent]
      exact hphase.packet hp hpc hpop hport sender (received datagram)
  | @pops output action createUdp sent hp hpop hinner' hout hact =>
      rw [List.map_nil, List.append_nil] at hreceived
      obtain ⟨hports', hqueue, hthrough⟩ := PollBackend.onAction_ports hports hact
      have hregistered : ¬ (Opening.ofResult createUdp).Unregistered := by
        rintro ⟨socket, addr, err, h⟩
        cases createUdp <;> cases h
      obtain ⟨hphase', hsingle', htold'⟩ :=
        hphase.pops hpop hout hsingle (.ofResult createUdp) hregistered
      refine ⟨_, _, hinner', hports', hsingle', hslot, fun r hr ↦ ?_, ?_⟩
      · rw [hqueue] at hr
        rcases List.mem_append.mp hr with hr | hr
        · exact htold r hr
        · exact htold' r hr
      · rw [hreceived, hsent, hthrough]
        exact hphase'
  | other hout hother =>
      obtain ⟨action, rfl⟩ := hphase.net (hout ▸ List.mem_cons_self)
      exact absurd rfl (hother action)
  | drained hp hpop hinner' hout hout' hsockets hqueue =>
      rw [List.map_nil, List.append_nil] at hreceived
      rw [List.append_nil] at hsent
      refine ⟨_, ports, hinner', hkept hsockets, hsingle, hslot, hqueue ▸ htold, ?_⟩
      rw [hreceived, hsent]
      exact hphase.drained hout _ hout'

/-- So a run does, unless the inner value is told that its socket could not be opened. -/
theorem serves_of_run {now : Instant} {tick : Nat} {worker : UInt16} {cfg : EchoWorkerCfg}
    {i j k : Nat} {h : ServerHistory n q} {x : Server n q}
    (hr : (node echoTypes (Panics EchoWorker) n q).Run (Server.new now tick worker cfg i j k) h x) :
    (∃ m ∈ h, BindFailed m) ∨ ∃ e ports, Serves cfg.bind h x e ports := by
  induction hr with
  | nil =>
      refine .inr ⟨.build worker cfg, [], rfl, rfl, Nat.zero_le 1, rfl, told_nil, ?_⟩
      exact .opening rfl rfl rfl fun _ ↦ rfl
  | @snoc h m hr hm ih =>
      obtain ⟨m', hm', hfailed⟩ | ⟨e, ports, hserves⟩ := ih
      · exact .inl ⟨m', List.mem_append_left [m] hm', hfailed⟩
      · have hclean : m.pre.backend.Clean :=
          (Node.components_of_run hr).2.invariant ⟨nofun, rfl⟩ PollBackend.clean_step
        obtain hfailed | hdoes := echo_cases hm hclean hserves.inner
        · exact .inl ⟨m, List.mem_append_right h (List.mem_singleton.mpr rfl), hfailed⟩
        · exact .inr (hserves.step hdoes)

/-- A server that has shut down and has nothing to pop has given its socket back. -/
theorem Phase.closed_of_nil {bind : SocketAddr} {x : Worker echoTypes (Panics EchoWorker)}
    {e : EchoWorker} {ports : Ports Unit} {received sent : List Datagram}
    (h : Phase bind x e ports received sent) (hon : e.shutdown = true)
    (hnil : e.output.toList = []) : ports.portAt 0 0 = none := by
  cases h with
  | opening hoff => cases hoff.symm.trans hon
  | serving hoff => cases hoff.symm.trans hon
  | closing _ hlist => cases hnil.symm.trans hlist
  | closed _ _ _ hport => exact hport

/-- What is sent is what is read, but for the answers that wait or are lost. -/
theorem Phase.sent_prefix {bind : SocketAddr} {x : Worker echoTypes (Panics EchoWorker)}
    {e : EchoWorker} {ports : Ports Unit} {received sent : List Datagram}
    (h : Phase bind x e ports received sent) :
    sent <+: received ∧ received.length ≤ sent.length + 1 ∧
      (x.popping = false → e.shutdown = false → received = sent) := by
  have hlength {rest : List Datagram} (hrest : rest.length ≤ 1) :
      (sent ++ rest).length ≤ sent.length + 1 := by
    rw [List.length_append]
    exact Nat.add_le_add_left hrest _
  cases h with
  | opening => exact ⟨List.prefix_rfl, Nat.zero_le 1, fun _ _ ↦ rfl⟩
  | @serving reply _ hoff hout hreply =>
      refine ⟨List.prefix_append _ _, hlength (length_unsent_le reply), fun hp _ ↦ ?_⟩
      obtain rfl := hreply hp
      exact List.append_nil _
  | @closing reply _ hon hout hreply =>
      refine ⟨List.prefix_append _ _, hlength (length_unsent_le reply), fun _ hoff ↦ ?_⟩
      cases hon.symm.trans hoff
  | closed hon hout hreply hport hlost =>
      refine ⟨List.prefix_append _ _, hlength hlost, fun _ hoff ↦ ?_⟩
      cases hon.symm.trans hoff

/-- A server has sent what it has read, each datagram through its socket, back to where it
came from. -/
structure Echoes (h : ServerHistory n q) (x : Server n q) (e : EchoWorker) : Prop where
  /-- The inner value has not panicked. -/
  inner : x.worker.inner = .ok e
  /-- It has answered in the order of the reads, -/
  inOrder : Node.sent h <+: (Node.received h).map cut
  /-- of which one at most has no answer, -/
  atMostOne : (Node.received h).length ≤ (Node.sent h).length + 1
  /-- and none where it is not shut down and not being popped. -/
  all : x.worker.popping = false → e.shutdown = false →
    (Node.received h).map cut = Node.sent h
  /-- Once it is empty, its backend can be dropped. -/
  dropped : e.isEmpty = true → x.backend.drop = .ok ()

/-- The worker is answered, and no socket has a datagram. -/
def quiet (a : Answer echoTypes) : NodeAnswer echoTypes :=
  ⟨some a, fun _ _ ↦ none, .ok (7, anyPort)⟩

/-- The worker asks its backend, where every socket has this datagram. -/
def arrives (data : List UInt8) : NodeAnswer echoTypes :=
  ⟨none, fun _ _ ↦ some (anyPort, data), .ok (7, anyPort)⟩

/-- A packet is read and answered; the server is shut down, and another one is read. -/
def twoPackets : List (NodeAnswer echoTypes) :=
  [quiet (.clock 0), quiet .run, quiet .run,
    quiet (.clock 1), quiet (.control none), quiet .run, quiet .run, quiet (.elapsed 0),
    arrives [], quiet .run, arrives [1, 2], quiet .run, quiet .run,
    ⟨none, fun _ _ ↦ none, .error ""⟩,
    quiet (.clock 2), quiet (.control (some .shutdown)), quiet (.control none), quiet .run,
    quiet (.elapsed 0), arrives [], quiet (.bus none), arrives [3], quiet .run, quiet .run,
    quiet .run]

/-- What comes of it. -/
def afterTwoPackets : ServerHistory 1 1 × Server 1 1 :=
  ((node echoTypes (Panics EchoWorker) 1 1).exec (Server.new 0 10 0 ⟨anyPort⟩ 0 1 0)
    twoPackets).get (by decide +kernel)

end SansIo.EchoServer
