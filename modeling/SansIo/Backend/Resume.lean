import SansIo.Backend.Scan

/-!
# Where a scan goes on

`last_poll_socket` is where the next `pop_incoming` should go on, after the packet that was
read last, so that sockets that were found drained are not read again before the others have
been.  But nothing ever sets it, and every call starts at the first slot.

`resuming_iff` says that this is the same exactly if the calls find a datagram at the first
socket that there is, all but the last before a `None`.
-/

namespace SansIo.Backend.PollBackend

open Lib Collections

variable {Owner : Type} {n q : Nat}
  {recv : Nat → UdpSocket → Option (SocketAddr × List UInt8)} {b : PollBackend Owner n q}

/-! ## Calls without a `None` between them -/

/-- The step is a `pop_incoming`. -/
def isPop (m : PollMoment Owner n q) : Bool :=
  match m.label with
  | .popIncoming _ => true
  | _ => false

/-- The calls of `pop_incoming` just before, without a `None`. -/
def pops (h : PollHistory Owner n q) : PollHistory Owner n q :=
  h.rtakeWhile fun m ↦ isPop m && !returnsNone m

/-- The slot that a packet was read from. -/
def readAt (m : PollMoment Owner n q) : Option Nat :=
  match m.events with
  | [.popped (some (.event _ (.udpPacket slot _ _)))] => some slot
  | _ => none

/-- A call goes on where the last one was. -/
structure Resumes (h : PollHistory Owner n q) (m : PollMoment Owner n q)
    (recv : Nat → UdpSocket → Option (SocketAddr × List UInt8)) : Prop where
  /-- The packets come in the order of their slots. -/
  ordered : ∀ k ∈ pops h, ∀ i j, readAt k = some i → readAt m = some j → i ≤ j
  /-- The first socket read is the one that the last packet came from. -/
  goesOn : ∀ i, ((pops h).filterMap readAt).getLast? = some i →
    (m.pre.attempts recv).head? = some i
  /-- Those that are drained are not read again. -/
  fresh : ∀ k ∈ pops h, ∀ slot s, Tries slot s k → slot ∉ m.pre.attempts recv

/-- A step that is a `pop_incoming` goes on where the last one was. -/
def Resuming (h : PollHistory Owner n q) (m : PollMoment Owner n q) : Prop :=
  ∀ recv, m.label = .popIncoming recv → Resumes h m recv

/-- The first slot with a socket. -/
def FirstLive (b : PollBackend Owner n q) (slot : Nat) : Prop :=
  b.isLive slot = true ∧ ∀ j < slot, b.isLive j = false

/-- A call with nothing queued finds a datagram at the first socket that there is. -/
def FindsFirst (m : PollMoment Owner n q) : Prop :=
  ∀ recv, m.label = .popIncoming recv → m.pre.output.toList = [] →
    ∀ slot, m.pre.FirstLive slot → m.pre.datagramAt recv slot ≠ none

/-- The calls just before another one find a datagram at the first socket. -/
def FoundFirst (h : PollHistory Owner n q) (m : PollMoment Owner n q) : Prop :=
  isPop m = true → ∀ k ∈ pops h, FindsFirst k

/-! ## What is kept between them -/

/-- A call that returned something, and a state after it that only other calls lead to. -/
structure Before (k : PollMoment Owner n q) (b : PollBackend Owner n q) : Prop where
  rests : k.pre.Rests
  fires : (machine Owner n q).Fires k
  some : ∃ recv out, k.label = .popIncoming recv ∧ k.events = [.popped (some out)]
  sockets : b.sockets = k.pre.sockets
  output : k.pre.output.toList = [] → b.output.toList = []

theorem PopDoes.frame (hq : 0 < q) {out : Option (BackendIncomingInternal Owner)}
    {b' : PollBackend Owner n q} {slots : List Nat} (hd : b.PopDoes recv out b' slots) :
    b'.sockets = b.sockets ∧ (b.output.toList = [] → b'.output.toList = []) := by
  have hpopped : b.output.toList = [] → b.popped.output.toList = [] := by
    intro hout
    rw [popped, DynamicDeque.toList_popFront hq, hout, List.tail_nil]
  cases hd <;> exact ⟨rfl, hpopped⟩

theorem isPop_iff {m : PollMoment Owner n q} :
    isPop m = true ↔ ∃ recv, m.label = .popIncoming recv := by
  rw [isPop]
  cases m.label <;> simp

theorem before_of_run (hq : 0 < q) {h : PollHistory Owner n q}
    (hr : (machine Owner n q).Run .default h b) : ∀ k ∈ pops h, Before k b := by
  induction hr with
  | nil => simp [pops]
  | @snoc h m hr hm ih =>
      intro k hk
      rw [pops, List.rtakeWhile_concat] at hk
      split at hk
      · rename_i hpop
        rw [Bool.and_eq_true, isPop_iff] at hpop
        obtain ⟨⟨recv, hlabel⟩, hsome⟩ := hpop
        have hrests := rests_of_run hq hr
        obtain ⟨out, hevents, hdoes⟩ := popIncoming_of_fires hq hrests hm hlabel
        obtain ⟨hsockets, hout⟩ := hdoes.frame hq
        rcases List.mem_append.1 hk with hk | hk
        · have hbefore := ih k hk
          exact { hbefore with
            sockets := hsockets.trans hbefore.sockets
            output := fun h ↦ hout (hbefore.output h) }
        · obtain rfl := List.mem_singleton.1 hk
          refine ⟨hrests, hm, ?_, hsockets, hout⟩
          cases out with
          | none => simp [returnsNone, hevents] at hsome
          | some out => exact ⟨recv, out, hlabel, hevents⟩
      · cases hk

/-! ## The first socket -/

theorem exists_firstLive {slot : Nat} (hs : b.isLive slot = true) :
    ∃ first ≤ slot, b.FirstLive first := by
  have hex : ∃ i, b.isLive i = true := ⟨slot, hs⟩
  refine ⟨Nat.find hex, Nat.find_min' hex hs, Nat.find_spec hex, fun j hj ↦ ?_⟩
  exact Bool.eq_false_iff.2 (Nat.find_min hex hj)

/-- A call that reads sockets starts with the first. -/
theorem PopDoes.head {out : Option (BackendIncomingInternal Owner)} {b' : PollBackend Owner n q}
    {slots : List Nat} (hd : b.PopDoes recv out b' slots) (hn : 0 < n)
    (hout : b.output.toList = []) {first : Nat} (hfirst : b.FirstLive first) :
    slots.head? = some first := by
  obtain ⟨hlive, hbefore⟩ := hfirst
  have hheld : (Slots.held b.sockets first).isSome = true := hlive
  obtain ⟨s, hs⟩ := Option.isSome_iff_exists.1 hheld
  have hlen := Slots.lt_of_held hs
  have hhead : ∀ last, first < last → ((List.range last).filter b.isLive).head? = some first := by
    intro last hlt
    rw [List.head?_filter, List.find?_range_eq_some]
    exact ⟨hlive, List.mem_range.2 hlt, fun j hj ↦ by rw [hbefore j hj]; rfl⟩
  cases hd with
  | queued hout' => cases hout.symm.trans hout'
  | noSockets _ hempty =>
      rw [(b.sockets.isEmpty_iff.1 hempty).resolve_right (Nat.ne_of_gt hn)] at hlen
      cases hlen
  | @packet slot s' _ _ _ hs' =>
      refine hhead (slot + 1) (Nat.lt_succ_of_le (Nat.le_of_not_lt fun hlt ↦ ?_))
      have hnone := hbefore slot hlt
      simp [isLive, hs'] at hnone
  | drained =>
      apply hhead
      rwa [DynamicVec.len_eq]

theorem isLive_of_datagramAt {slot : Nat} (h : b.datagramAt recv slot ≠ none) :
    b.isLive slot = true := by
  rw [isLive, Option.isSome_iff_ne_none]
  intro hnone
  exact h (datagramAt_eq_none.2 fun s hs ↦ by cases hnone.symm.trans hs)

/-! ## One step -/

section Steps

variable {h : PollHistory Owner n q} {k m : PollMoment Owner n q}

/-- What a call read that found nothing queued and did not return `None`. -/
structure Read (k : PollMoment Owner n q)
    (recv : Nat → UdpSocket → Option (SocketAddr × List UInt8)) (slot : Nat) : Prop where
  label : k.label = .popIncoming recv
  stack : 0 < n
  read : readAt k = some slot
  found : k.pre.datagramAt recv slot ≠ none
  before : ∀ j < slot, k.pre.datagramAt recv j = none
  attempts : k.pre.attempts recv = (List.range (slot + 1)).filter k.pre.isLive

theorem read_of_fires (hq : 0 < q) (hrests : k.pre.Rests) (hk : (machine Owner n q).Fires k)
    {out : BackendIncomingInternal Owner} (hlabel : k.label = .popIncoming recv)
    (hevents : k.events = [.popped (some out)]) (hout : k.pre.output.toList = []) :
    ∃ slot, Read k recv slot := by
  obtain ⟨out', hevents', hdoes⟩ := popIncoming_of_fires hq hrests hk hlabel
  cases hevents.symm.trans hevents'
  obtain ⟨slot, s, sender, datagram, hs, hrecv, rfl, hbefore, hslots⟩ := hdoes.read hout
  have hfound := datagramAt_eq_some.2 ⟨s, hs, hrecv, rfl⟩
  refine ⟨slot, hlabel, ?_, ?_, ?_, hbefore, hslots⟩
  · by_contra hn
    have hslot := (mem_live hs).2 (Nat.lt_succ_self slot)
    rw [← hslots, attempts_eq_nil (Nat.eq_zero_of_not_pos hn)] at hslot
    cases hslot
  · simp only [readAt, hevents]
  · rw [hfound]
    exact Option.some_ne_none _

/-- A packet is never queued. -/
theorem output_of_readAt (hq : 0 < q) (hrests : k.pre.Rests) (hk : (machine Owner n q).Fires k)
    (hlabel : k.label = .popIncoming recv) {slot : Nat} (hread : readAt k = some slot) :
    k.pre.output.toList = [] := by
  obtain ⟨out, hevents, hdoes⟩ := popIncoming_of_fires hq hrests hk hlabel
  cases hout : k.pre.output.toList with
  | nil => rfl
  | cons x rest =>
      obtain ⟨rfl, -⟩ := hdoes.oldest hq hout
      rw [readAt, hevents] at hread
      split at hread
      · rename_i owner slot sender data hx
        cases hx
        refine absurd ?_ (hrests.noPackets owner slot sender data)
        rw [hout]
        exact List.mem_cons_self
      · cases hread

theorem Before.firstLive (hk : Before k b) {slot : Nat} :
    b.FirstLive slot ↔ k.pre.FirstLive slot := by
  have hlive : ∀ j, b.isLive j = k.pre.isLive j := by
    intro j
    rw [isLive, isLive, hk.sockets]
  simp only [FirstLive, hlive]

theorem Before.reads (hq : 0 < q) (hk : Before k b) (hout : k.pre.output.toList = []) :
    ∃ recv slot, Read k recv slot := by
  obtain ⟨recv, out, hlabel, hevents⟩ := hk.some
  obtain ⟨slot, hread⟩ := read_of_fires hq hk.rests hk.fires hlabel hevents hout
  exact ⟨recv, slot, hread⟩

theorem Before.output_of_tries (hq : 0 < q) (hk : Before k b) {slot : Nat} {s : PollSocket Owner}
    (ht : Tries slot s k) : k.pre.output.toList = [] := by
  obtain ⟨recv, hlabel, hslot, -⟩ := ht
  obtain ⟨out, -, hdoes⟩ := popIncoming_of_fires hq hk.rests hk.fires hlabel
  cases hout : k.pre.output.toList with
  | nil => rfl
  | cons x rest =>
      rw [(hdoes.oldest hq hout).2.2] at hslot
      cases hslot

/-- A call that finds a datagram at the first socket has its packet from there, -/
theorem Read.firstLive {slot : Nat} (hread : Read k recv slot)
    (hout : k.pre.output.toList = []) (hfinds : FindsFirst k) : k.pre.FirstLive slot := by
  refine ⟨isLive_of_datagramAt hread.found, fun j hj ↦ Bool.eq_false_iff.2 fun hlive ↦ ?_⟩
  obtain ⟨first, hle, hfirst⟩ := exists_firstLive hlive
  exact hfinds recv hread.label hout first hfirst
    (hread.before first (Nat.lt_of_le_of_lt hle hj))

/-- and tries no other. -/
theorem Read.not_tries {first slot : Nat} {s : PollSocket Owner} (hread : Read k recv first)
    (hfirst : k.pre.FirstLive first) : ¬ Tries slot s k := by
  rintro ⟨recv', hlabel, hslot, hs, hfails⟩
  cases hlabel.symm.trans hread.label
  rw [hread.attempts, mem_live hs] at hslot
  rcases Nat.lt_or_eq_of_le (Nat.le_of_lt_succ hslot) with hlt | rfl
  · have hvacant := hfirst.2 slot hlt
    simp [isLive, hs] at hvacant
  · refine hread.found (datagramAt_eq_none.2 fun s' hs' ↦ ?_)
    cases hs.symm.trans hs'
    exact hfails

/-- Any other call has tried the first socket. -/
theorem Read.tries {first slot : Nat} (hread : Read k recv slot) (hfirst : k.pre.FirstLive first)
    (hnone : k.pre.datagramAt recv first = none) : ∃ s, Tries first s k := by
  have hlive := isLive_of_datagramAt hread.found
  have hlt : first < slot := by
    rcases Nat.lt_trichotomy first slot with hlt | rfl | hlt
    · exact hlt
    · exact absurd hnone hread.found
    · rw [hfirst.2 slot hlt] at hlive
      cases hlive
  obtain ⟨s, hs⟩ := Option.isSome_iff_exists.1 hfirst.1
  refine ⟨s, recv, hread.label, ?_, hs, datagramAt_eq_none.1 hnone s hs⟩
  rw [hread.attempts, mem_live hs]
  exact Nat.lt_succ_of_lt hlt

/-- After calls that all had their packets from the first socket, another one starts there. -/
theorem resumes_of_findsFirst (hq : 0 < q) (hr : (machine Owner n q).Run .default h m.pre)
    (hm : (machine Owner n q).Fires m) (hlabel : m.label = .popIncoming recv)
    (hfinds : ∀ k ∈ pops h, FindsFirst k) : Resumes h m recv := by
  have hbefore := before_of_run hq hr
  have hrests := rests_of_run hq hr
  obtain ⟨out, hevents, hdoes⟩ := popIncoming_of_fires hq hrests hm hlabel
  have hreadAt : ∀ k ∈ pops h, ∀ i, readAt k = some i →
      m.pre.output.toList = [] ∧ m.pre.FirstLive i ∧ (m.pre.attempts recv).head? = some i := by
    intro k hk i hi
    have hb := hbefore k hk
    obtain ⟨_, -, hlabel', -⟩ := hb.some
    have hout := output_of_readAt hq hb.rests hb.fires hlabel' hi
    obtain ⟨_, slot, hread⟩ := hb.reads hq hout
    cases hi.symm.trans hread.read
    have hfirst := hb.firstLive.2 (hread.firstLive hout (hfinds k hk))
    exact ⟨hb.output hout, hfirst, hdoes.head hread.stack (hb.output hout) hfirst⟩
  constructor
  · intro k hk i j hi hj
    obtain ⟨hout, hfirst, -⟩ := hreadAt k hk i hi
    cases out with
    | none =>
        simp only [readAt, hevents] at hj
        cases hj
    | some x =>
        obtain ⟨slot, hread⟩ := read_of_fires hq hrests hm hlabel hevents hout
        cases hj.symm.trans hread.read
        have hlive := isLive_of_datagramAt hread.found
        refine Nat.le_of_not_lt fun hlt ↦ ?_
        rw [hfirst.2 j hlt] at hlive
        cases hlive
  · intro i hlast
    obtain ⟨k, hk, hi⟩ := List.mem_filterMap.1 (List.mem_of_getLast? hlast)
    exact (hreadAt k hk i hi).2.2
  · intro k hk slot s htries
    have hb := hbefore k hk
    have hout := hb.output_of_tries hq htries
    obtain ⟨_, first, hread⟩ := hb.reads hq hout
    exact absurd htries (hread.not_tries (hread.firstLive hout (hfinds k hk)))

/-- **One step** goes on where the last one was. -/
theorem resuming_step (hq : 0 < q) (hr : (machine Owner n q).Run .default h m.pre)
    (hm : (machine Owner n q).Fires m) : Resuming h m ↔ FoundFirst h m := by
  constructor
  · intro hres hpop k hk recv' hlabel' hout first hfirst hnone
    obtain ⟨recv, hlabel⟩ := isPop_iff.1 hpop
    obtain ⟨out, -, hdoes⟩ := popIncoming_of_fires hq (rests_of_run hq hr) hm hlabel
    have hb := before_of_run hq hr k hk
    obtain ⟨_, slot, hread⟩ := hb.reads hq hout
    cases hlabel'.symm.trans hread.label
    -- the first socket was found drained, and is read again
    obtain ⟨s, htries⟩ := hread.tries hfirst hnone
    have hhead := hdoes.head hread.stack (hb.output hout) (hb.firstLive.2 hfirst)
    exact (hres recv hlabel).fresh k hk first s htries (List.mem_of_head? hhead)
  · exact fun hfound recv hlabel ↦
      resumes_of_findsFirst hq hr hm hlabel (hfound (isPop_iff.2 ⟨recv, hlabel⟩))

/-- **Calls go on where the last one was** exactly if those before found a datagram at the
first socket. -/
theorem resuming_iff (hq : 0 < q) (hr : (machine Owner n q).Run .default h b) :
    Along Resuming h ↔ Along FoundFirst h :=
  hr.along_congr fun _ _ hr hm ↦ resuming_step hq hr hm

end Steps

/-! ## A scan that starts again -/

/-- Two sockets are listened, and a datagram has come to the second. -/
def readSecond : PollHistory Unit 2 2 × PollBackend Unit 2 2 :=
  ((machine Unit 2 2).exec .default
    [.onAction () (.ok (7, anyPort)) (.udpListen anyPort false),
      .onAction () (.ok (8, anyPort)) (.udpListen anyPort false),
      .popIncoming fun _ _ ↦ none, .popIncoming fun _ _ ↦ none,
      .popIncoming fun slot _ ↦ if slot = 1 then some (anyPort, [1]) else none]).get
    (by decide +kernel)

/-- Then one comes to the first. -/
def readFirst : PollMoment Unit 2 2 :=
  (machine Unit 2 2).moment readSecond.2
    (.popIncoming fun slot _ ↦ if slot = 0 then some (anyPort, [2]) else none) (by decide +kernel)

theorem run_readFirst :
    (machine Unit 2 2).Run .default (readSecond.1 ++ [readFirst]) readFirst.post := by
  have hr : (machine Unit 2 2).Run .default readSecond.1 readSecond.2 := Machine.exec_run_get _
  exact hr.moment _

theorem resuming_iff_readFirst :
    Along Resuming (readSecond.1 ++ [readFirst]) ↔
      Along FoundFirst (readSecond.1 ++ [readFirst]) :=
  resuming_iff Nat.two_pos run_readFirst

/-- **A scan may start again**, at a socket that was found drained. -/
theorem not_resuming :
    ¬ ∀ h (b : PollBackend Unit 2 2), (machine Unit 2 2).Run .default h b → Along Resuming h := by
  intro hall
  have hresumes := hall _ _ run_readFirst _ readFirst [] rfl _ rfl
  have hsecond : ∃ k ∈ pops readSecond.1, readAt k = some 1 := by
    have hany : (pops readSecond.1).any (readAt · == some 1) = true := by decide +kernel
    simpa using hany
  obtain ⟨k, hk, hk₁⟩ := hsecond
  have hfirst : readAt readFirst = some 0 := by decide +kernel
  exact absurd (hresumes.ordered k hk 1 0 hk₁ hfirst) (by decide)

end SansIo.Backend.PollBackend
