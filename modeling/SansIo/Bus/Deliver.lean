import SansIo.Bus.Traffic

/-!
# What a bus delivers

The runs of `Traffic.machine`, under every interleaving.  What a leg has handed over and
what waits in it are what it has accepted (`fifo_of_run`); this needs one lemma about one
step, and so does what happens to a call (`Sending.step`), which goes through its legs
one by one and cannot lose one.
-/

namespace SansIo.Bus

open Lib

variable {ChannelId MSG Awk : Type} {n : Nat}

/-! ## What is seen of a run -/

namespace TrafficEvent

/-- A message received from a leg. -/
def receivedFrom (leg : Nat) :
    TrafficEvent ChannelId MSG Awk → Option (BusEventSource ChannelId × MSG)
  | .received l out => if l = leg then out else none
  | _ => none

/-- A message accepted by a leg. -/
def acceptedBy (leg : Nat) :
    TrafficEvent ChannelId MSG Awk → Option (BusEventSource ChannelId × MSG)
  | .offered _ _ o => if o.leg = leg ∧ o.result.isOk = true then some (o.source, o.msg) else none
  | _ => none

/-- An offer made by a call. -/
def offerOf (call : Nat) : TrafficEvent ChannelId MSG Awk → Option (Offer ChannelId MSG Awk)
  | .offered k _ o => if k = call then some o else none
  | _ => none

end TrafficEvent

open TrafficEvent

/-- The messages received from a leg, in order. -/
def received (leg : Nat) (h : TrafficHistory ChannelId MSG Awk n) :
    List (BusEventSource ChannelId × MSG) := h.events.filterMap (receivedFrom leg)

/-- The messages accepted by a leg, in order. -/
def accepted (leg : Nat) (h : TrafficHistory ChannelId MSG Awk n) :
    List (BusEventSource ChannelId × MSG) := h.events.filterMap (acceptedBy leg)

/-- The offers made by a call, in order. -/
def offers (call : Nat) (events : List (TrafficEvent ChannelId MSG Awk)) :
    List (Offer ChannelId MSG Awk) := events.filterMap (offerOf call)

/-- The shape of a push that does not panic. -/
theorem push_cases {b b' : BusSystem ChannelId MSG Awk n} {how : Push}
    {source : BusEventSource ChannelId} {msg : MSG} {dest : Nat} {o : Offer ChannelId MSG Awk}
    (h : b.push how source msg dest = .ok (o, b')) :
    o.leg = dest ∧ o.source = source ∧ o.msg = msg ∧ b'.channels = b.channels ∧
      b'.legs.length = b.legs.length ∧ ∀ leg, leg ≠ dest → b'.waiting leg = b.waiting leg := by
  rw [BusSystem.push_eq] at h
  obtain ⟨hleg, hsource, hmsg, hchannels, hlen, -, hother, -⟩ := BusSystem.offer_cases h
  exact ⟨hleg, hsource, hmsg, hchannels, hlen, hother⟩

variable {t t' : Traffic ChannelId MSG Awk n} {op : TrafficOp ChannelId MSG Awk}
  {events : List (TrafficEvent ChannelId MSG Awk)}

/-! ## First in, first out -/

/-- A step takes messages from the front of a leg, and puts those it accepts at the end. -/
theorem TrafficDoes.fifo (hd : TrafficDoes t op t' events) (leg : Nat) :
    events.filterMap (receivedFrom leg) ++ t'.bus.waiting leg =
      t.bus.waiting leg ++ events.filterMap (acceptedBy leg) := by
  cases hd with
  | changes hwait => simp [hwait]
  | @receives i =>
      obtain ⟨-, -, hother, hrecv⟩ := t.bus.recv_cases i
      by_cases hi : i = leg
      · subst hi
        obtain ⟨x, hx, hwait⟩ | ⟨hx, hwait⟩ := hrecv
        · simp [receivedFrom, acceptedBy, hx, hwait]
        · simp [receivedFrom, acceptedBy, hx, hwait]
      · simp [receivedFrom, acceptedBy, hi, hother leg (Ne.symm hi)]
  | begins => simp
  | @pushes k call dest rest o bus hcall hrunning hrest hpush =>
      obtain ⟨rfl, hsource, hmsg, -, -, hother⟩ := push_cases hpush
      rw [BusSystem.push_eq] at hpush
      by_cases hleg : o.leg = leg
      · subst hleg
        obtain ⟨-, -, hresult, -, hbus⟩ | ⟨-, ⟨len, hresult⟩, hwait⟩ :=
          BusSystem.offer_result hpush
        · simp [receivedFrom, acceptedBy, hresult, hbus, Except.isOk, Except.toBool]
        · simp [receivedFrom, acceptedBy, hresult, hwait, hsource, hmsg, Except.isOk,
            Except.toBool]
      · simp [receivedFrom, acceptedBy, hleg, hother leg (Ne.symm hleg)]
  | panics => exact (List.append_nil _).symm
  | returns => exact (List.append_nil _).symm

/-! ## Registered legs exist -/

/-- The legs registered for channels exist. -/
def InRange (b : BusSystem ChannelId MSG Awk n) : Prop :=
  ∀ c, ∀ leg ∈ b.registered c, leg < b.legs.length

theorem TrafficDoes.legs_le (hd : TrafficDoes t op t' events) :
    t.bus.legs.length ≤ t'.bus.legs.length := by
  cases hd with
  | changes _ hlen => exact hlen
  | @receives i => exact Nat.le_of_eq (t.bus.recv_cases i).2.1.symm
  | begins => exact Nat.le_refl _
  | pushes _ _ _ hpush => exact Nat.le_of_eq (push_cases hpush).2.2.2.2.1.symm
  | panics => exact Nat.le_refl _
  | returns => exact Nat.le_refl _

/-- Only `subscribe` and `unsubscribe` change what is registered. -/
theorem TrafficDoes.mem_registered (hd : TrafficDoes t op t' events) (c : ChannelId) (leg : Nat) :
    leg ∈ t'.bus.registered c ↔
      op = .subscribe leg c ∨ (op ≠ .unsubscribe leg c ∧ leg ∈ t.bus.registered c) := by
  cases hd with
  | changes _ _ _ _ hregistered => exact hregistered c leg
  | @receives i =>
      rw [BusSystem.registered, (t.bus.recv_cases i).1]
      simp [BusSystem.registered]
  | begins => simp
  | pushes _ _ _ hpush =>
      rw [BusSystem.registered, (push_cases hpush).2.2.2.1]
      simp [BusSystem.registered]
  | panics => simp
  | returns => simp

theorem TrafficDoes.inRange (hd : TrafficDoes t op t' events) (h : InRange t.bus) :
    InRange t'.bus := by
  intro c leg hleg
  refine Nat.lt_of_lt_of_le ?_ hd.legs_le
  rcases (hd.mem_registered c leg).1 hleg with rfl | ⟨-, hold⟩
  · cases hd with
    | changes _ _ _ _ _ hrange => exact hrange c leg rfl
  · exact h c leg hold

/-! ## Calls -/

/-- A call that was `call₀` when it began on the bus `b`, after some events. -/
structure Sending (k : Nat) (call₀ : Call ChannelId MSG) (b : BusSystem ChannelId MSG Awk n)
    (rest : List Nat) (running : Bool) (es : List (TrafficEvent ChannelId MSG Awk))
    (t : Traffic ChannelId MSG Awk n) : Prop where
  /-- Where it is. -/
  call : t.calls[k]? = some { call₀ with rest, running }
  /-- It has been to the other legs. -/
  legs : (offers k es).map Offer.leg ++ rest = call₀.rest
  /-- It offers its message. -/
  msg : ∀ o ∈ offers k es, o.source = call₀.source ∧ o.msg = call₀.msg
  /-- Its legs exist, -/
  inRange : ∀ d ∈ rest, d < t.bus.legs.length
  /-- so it does not panic. -/
  noPanic : .panicked k ∉ es
  /-- It goes on until it returns. -/
  running_iff : running = true ↔ .returned k ∉ es
  /-- It returns at the end. -/
  done : running = false → rest = []
  /-- There are no new legs before that, -/
  noLegs : running = true → t.bus.legs.length = b.legs.length
  /-- and what a `publish` goes through stays registered. -/
  noChannels : running = true → call₀.channels = true →
    ∀ c, t.bus.registered c = b.registered c

theorem Sending.begins (t : Traffic ChannelId MSG Awk n) (call : Call ChannelId MSG)
    (hrunning : call.running = true) (hrange : ∀ d ∈ call.rest, d < t.bus.legs.length) :
    Sending t.calls.length call t.bus call.rest true []
      { t with calls := t.calls ++ [call] } where
  call := by
    obtain ⟨source, msg, how, rest, channels, running⟩ := call
    cases hrunning
    simp
  legs := rfl
  msg := nofun
  inRange := hrange
  noPanic := nofun
  running_iff := iff_of_true rfl nofun
  done := nofun
  noLegs _ := rfl
  noChannels _ _ _ := rfl

/-- A call that a step has nothing to do with. -/
theorem Sending.frame {k : Nat} {call₀ : Call ChannelId MSG} {b : BusSystem ChannelId MSG Awk n}
    {rest : List Nat} {running : Bool} {es : List (TrafficEvent ChannelId MSG Awk)}
    (hs : Sending k call₀ b rest running es t) (hcall : t'.calls[k]? = t.calls[k]?)
    (hlen : t.bus.legs.length ≤ t'.bus.legs.length)
    (hlegs : t.legsRead = true → t'.bus.legs.length = t.bus.legs.length)
    (hchannels : t.channelsRead = true → ∀ c, t'.bus.registered c = t.bus.registered c)
    (hoffers : offers k events = []) (hpanicked : .panicked k ∉ events)
    (hreturned : .returned k ∉ events) : Sending k call₀ b rest running (es ++ events) t' := by
  have heq : offers k (es ++ events) = offers k es := by
    rw [offers, List.filterMap_append, ← offers, ← offers, hoffers, List.append_nil]
  have hmem := List.mem_of_getElem? hs.call
  constructor
  · exact hcall.trans hs.call
  · exact heq ▸ hs.legs
  · exact heq ▸ hs.msg
  · exact fun d hd ↦ Nat.lt_of_lt_of_le (hs.inRange d hd) hlen
  · exact fun h ↦ (List.mem_append.1 h).elim hs.noPanic hpanicked
  · rw [hs.running_iff, List.mem_append, or_iff_left hreturned]
  · exact hs.done
  · intro hrunning
    rw [hlegs (List.any_eq_true.2 ⟨_, hmem, hrunning⟩)]
    exact hs.noLegs hrunning
  · intro hrunning hch c
    rw [hchannels (List.any_eq_true.2 ⟨_, hmem, by simp [hrunning, hch]⟩)]
    exact hs.noChannels hrunning hch c

section Own

variable {k dest : Nat} {call₀ : Call ChannelId MSG} {b bus : BusSystem ChannelId MSG Awk n}
  {rest : List Nat} {es : List (TrafficEvent ChannelId MSG Awk)} {o : Offer ChannelId MSG Awk}

/-- A call that pushes has one leg less to go to. -/
theorem Sending.pushes (hs : Sending k call₀ b (dest :: rest) true es t)
    (hpush : t.bus.push call₀.how call₀.source call₀.msg dest = .ok (o, bus)) :
    Sending k call₀ b rest true (es ++ [.offered k call₀.how o])
      { bus, calls := t.calls.set k { call₀ with rest, running := true } } := by
  obtain ⟨hleg, hsource, hmsg, hchannels, hlen, -⟩ := push_cases hpush
  have hlt : k < t.calls.length := (List.getElem?_eq_some_iff.1 hs.call).1
  have hoffers : offers k (es ++ [.offered k call₀.how o]) = offers k es ++ [o] := by
    simp [offers, offerOf]
  constructor
  · simp [hlt]
  · rw [hoffers, List.map_append, List.append_assoc]
    simpa [hleg] using hs.legs
  · rw [hoffers]
    intro o' ho'
    rcases List.mem_append.1 ho' with ho' | ho'
    · exact hs.msg o' ho'
    · rw [List.mem_singleton.1 ho']
      exact ⟨hsource, hmsg⟩
  · exact fun d hd ↦ hlen ▸ hs.inRange d (List.mem_cons_of_mem dest hd)
  · simpa using hs.noPanic
  · simpa using hs.running_iff
  · simp
  · exact fun h ↦ hlen.trans (hs.noLegs h)
  · intro h hch c
    rw [← hs.noChannels h hch c]
    simp only [BusSystem.registered, hchannels]

/-- Behind the last leg it returns. -/
theorem Sending.returns (hs : Sending k call₀ b [] true es t) :
    Sending k call₀ b [] false (es ++ [.returned k])
      { t with calls := t.calls.set k { call₀ with rest := [], running := false } } := by
  have hlt : k < t.calls.length := (List.getElem?_eq_some_iff.1 hs.call).1
  have hoffers : offers k (es ++ [.returned k]) = offers k es := by
    simp [offers, offerOf]
  constructor
  · simp [hlt]
  · exact hoffers ▸ hs.legs
  · exact hoffers ▸ hs.msg
  · simp
  · simpa using hs.noPanic
  · simp
  · exact fun _ ↦ rfl
  · simp
  · simp

end Own

/-- **What a step does to a call**: it pushes to the next leg, returns behind the last
one, or is left alone. -/
theorem Sending.step {k : Nat} {call₀ : Call ChannelId MSG} {b : BusSystem ChannelId MSG Awk n}
    {rest : List Nat} {running : Bool} {es : List (TrafficEvent ChannelId MSG Awk)}
    (hs : Sending k call₀ b rest running es t) (hd : TrafficDoes t op t' events) :
    ∃ rest' running', Sending k call₀ b rest' running' (es ++ events) t' := by
  have hlt : k < t.calls.length := (List.getElem?_eq_some_iff.1 hs.call).1
  cases hd with
  | changes hwait hlen hlegs hchannels hregistered hrange =>
      exact ⟨rest, running, hs.frame rfl hlen hlegs hchannels rfl (by simp) (by simp)⟩
  | @receives i =>
      obtain ⟨hchannels, hlen, -⟩ := t.bus.recv_cases i
      refine ⟨rest, running, hs.frame rfl (Nat.le_of_eq hlen.symm) (fun _ ↦ hlen) ?_ rfl ?_ ?_⟩
      · intro _ c
        simp only [BusSystem.registered, hchannels]
      · simp
      · simp
  | begins =>
      exact ⟨rest, running, hs.frame (List.getElem?_append_left hlt) (Nat.le_refl _)
        (fun _ ↦ rfl) (fun _ _ ↦ rfl) rfl (by simp) (by simp)⟩
  | @pushes k' call dest rest' o bus hcall hrunning hrest hpush =>
      obtain ⟨-, -, -, hchannels, hlen, -⟩ := push_cases hpush
      by_cases hk : k' = k
      · subst hk
        cases hs.call.symm.trans hcall
        dsimp only at hrunning hrest
        subst hrunning hrest
        exact ⟨rest', true, hs.pushes hpush⟩
      · refine ⟨rest, running, hs.frame (List.getElem?_set_ne hk) (Nat.le_of_eq hlen.symm)
          (fun _ ↦ hlen) ?_ ?_ ?_ ?_⟩
        · intro _ c
          simp only [BusSystem.registered, hchannels]
        · simp [offers, offerOf, hk]
        · simp
        · simp
  | @panics k' call dest rest' hcall hrunning hrest hpush =>
      by_cases hk : k' = k
      · subst hk
        cases hs.call.symm.trans hcall
        dsimp only at hrest
        subst hrest
        have hdest := hs.inRange dest List.mem_cons_self
        rw [BusSystem.push_eq] at hpush
        exact absurd (t.bus.offer_ok _ _ _ hdest) hpush
      · refine ⟨rest, running, hs.frame (List.getElem?_set_ne hk) (Nat.le_refl _) (fun _ ↦ rfl)
          (fun _ _ ↦ rfl) rfl ?_ ?_⟩
        · intro h
          cases List.mem_singleton.1 h
          exact hk rfl
        · simp
  | @returns k' call hcall hrunning hrest =>
      by_cases hk : k' = k
      · subst hk
        cases hs.call.symm.trans hcall
        dsimp only at hrunning hrest
        subst hrunning hrest
        exact ⟨[], false, hs.returns⟩
      · refine ⟨rest, running, hs.frame (List.getElem?_set_ne hk) (Nat.le_refl _) (fun _ ↦ rfl)
          (fun _ _ ↦ rfl) rfl ?_ ?_⟩
        · simp
        · intro h
          cases List.mem_singleton.1 h
          exact hk rfl

/-- Every push of a step is refused exactly where it has to be. -/
theorem TrafficDoes.refuses (hd : TrafficDoes t op t' events) {k : Nat} {how : Push}
    {o : Offer ChannelId MSG Awk} (ho : .offered k how o ∈ events) :
    ((∃ e, o.result = .error e) ↔ how.safe = false ∧ n ≤ (t.bus.waiting o.leg).length) ∧
      ((∃ e, o.result = .error e) → t'.bus = t.bus ∧ o.awoken = []) := by
  cases hd with
  | changes => cases ho
  | receives => cases List.mem_singleton.1 ho
  | begins => cases ho
  | pushes hcall hrunning hrest hpush =>
      cases List.mem_singleton.1 ho
      obtain ⟨rfl, -⟩ := push_cases hpush
      rw [BusSystem.push_eq] at hpush
      obtain ⟨hsafe, hfull, hresult, hawoken, hbus⟩ | ⟨hroom, ⟨len, hresult⟩, -⟩ :=
        BusSystem.offer_result hpush
      · exact ⟨iff_of_true ⟨_, hresult⟩ ⟨hsafe, hfull⟩, fun _ ↦ ⟨hbus, hawoken⟩⟩
      · have hok : ¬ ∃ e, o.result = .error e := by
          rintro ⟨e, he⟩
          cases hresult.symm.trans he
        refine ⟨iff_of_false hok ?_, fun h ↦ absurd h hok⟩
        rintro ⟨hsafe, hfull⟩
        rcases hroom with hroom | hroom
        · cases hsafe.symm.trans hroom
        · exact absurd hfull (Nat.not_le.2 hroom)
  | panics => cases List.mem_singleton.1 ho
  | returns => cases List.mem_singleton.1 ho

/-- A call offers one copy of its message to each of some legs, in order: to all of them
where it has returned, and to as many as it has come to where it has not. -/
structure Copies (k : Nat) (source : BusEventSource ChannelId) (msg : MSG) (dests : List Nat)
    (h : TrafficHistory ChannelId MSG Awk n) : Prop where
  /-- It offers its message. -/
  msg : ∀ o ∈ offers k h.events, o.source = source ∧ o.msg = msg
  /-- It offers it to the legs in order, -/
  legs : (offers k h.events).map Offer.leg <+: dests
  /-- and to all of them by the time it returns. -/
  all : .returned k ∈ h.events → (offers k h.events).map Offer.leg = dests
  /-- It does not panic. -/
  noPanic : .panicked k ∉ h.events

theorem Sending.copies {h : TrafficHistory ChannelId MSG Awk n} {k : Nat}
    {call₀ : Call ChannelId MSG} {b : BusSystem ChannelId MSG Awk n}
    {rest : List Nat} {running : Bool} (hs : Sending k call₀ b rest running h.events t) :
    Copies k call₀.source call₀.msg call₀.rest h where
  msg := hs.msg
  legs := ⟨rest, hs.legs⟩
  all hreturned := by
    have hdone : running = false := by
      rw [Bool.eq_false_iff, Ne, hs.running_iff, not_not]
      exact hreturned
    rw [← hs.legs, hs.done hdone, List.append_nil]
  noPanic := hs.noPanic

/-! ## Runs -/

section Runs

variable [DecidableEq ChannelId] {h : TrafficHistory ChannelId MSG Awk n}

theorem does_of_fires {m : Moment (Traffic ChannelId MSG Awk n) (TrafficOp ChannelId MSG Awk)
    (TrafficEvent ChannelId MSG Awk)} (hm : (Traffic.machine ChannelId MSG Awk n).Fires m) :
    TrafficDoes m.pre m.label m.post m.events := Traffic.step_cases hm

/-- **What has been received from a leg and what waits in it are what it has accepted.** -/
theorem fifo_of_run (hr : (Traffic.machine ChannelId MSG Awk n).Run .empty h t) (leg : Nat) :
    received leg h ++ t.bus.waiting leg = accepted leg h := by
  induction hr with
  | nil => rfl
  | @snoc h m hr hm ih =>
      have hstep := (does_of_fires hm).fifo leg
      simp only [received, accepted, History.events_append, History.events_singleton,
        List.filterMap_append] at ih ⊢
      rw [List.append_assoc, hstep, ← List.append_assoc, ih]

theorem inRange_of_run (hr : (Traffic.machine ChannelId MSG Awk n).Run .empty h t) :
    InRange t.bus :=
  hr.invariant (I := fun t ↦ InRange t.bus) nofun fun _ hm hI ↦ (does_of_fires hm).inRange hI

/-- A leg has subscribed to a channel, and has not unsubscribed since. -/
def SubscribedTo (leg : Nat) (c : ChannelId) (h : TrafficHistory ChannelId MSG Awk n) : Prop :=
  Since (fun m ↦ m.label ≠ .unsubscribe leg c) (fun m ↦ m.label = .subscribe leg c) h

theorem mem_registered_iff (hr : (Traffic.machine ChannelId MSG Awk n).Run .empty h t)
    (leg : Nat) (c : ChannelId) : leg ∈ t.bus.registered c ↔ SubscribedTo leg c h := by
  induction hr with
  | nil => simp [Traffic.empty, BusSystem.registered, BusSystem.default, SubscribedTo]
  | @snoc h m hr hm ih =>
      rw [(does_of_fires hm).mem_registered, ih, SubscribedTo, SubscribedTo, since_snoc]

/-- A call that has begun is followed through the rest of a run. -/
theorem sending_of_run {k : Nat} {call₀ : Call ChannelId MSG} {b : BusSystem ChannelId MSG Awk n}
    {t₀ : Traffic ChannelId MSG Awk n} {rest : List Nat} {running : Bool}
    (hs : Sending k call₀ b rest running [] t₀)
    (hr : (Traffic.machine ChannelId MSG Awk n).Run t₀ h t) :
    ∃ rest' running', Sending k call₀ b rest' running' h.events t := by
  induction hr with
  | nil => exact ⟨rest, running, hs⟩
  | @snoc h m hr hm ih =>
      obtain ⟨rest', running', hs'⟩ := ih
      rw [History.events_append, History.events_singleton]
      exact hs'.step (does_of_fires hm)

/-- What a bus promises of a run. -/
structure Delivers (h : TrafficHistory ChannelId MSG Awk n) (t : Traffic ChannelId MSG Awk n) :
    Prop where
  /-- What a leg has handed over and what waits in it are what it has accepted, in the
  order of acceptance. -/
  fifo : ∀ leg, received leg h ++ t.bus.waiting leg = accepted leg h
  /-- So no two messages of a sender, or of any others, overtake each other. -/
  inOrder : ∀ leg (p : BusEventSource ChannelId × MSG → Bool),
    (received leg h).filter p <+: (accepted leg h).filter p
  /-- A push is refused exactly where it is not safe and the leg holds `STACK_SIZE`
  messages; then nothing changes and nobody is called. -/
  refused : ∀ m ∈ h, ∀ k how o, .offered k how o ∈ m.events →
    ((∃ e, o.result = .error e) ↔ how.safe = false ∧ n ≤ (m.pre.bus.waiting o.leg).length) ∧
      ((∃ e, o.result = .error e) → m.post.bus = m.pre.bus ∧ o.awoken = [])
  /-- A `broadcast` offers one copy to every leg. -/
  broadcasts : ∀ h₁ m h₂, h = h₁ ++ m :: h₂ → ∀ sender safe msg,
    m.label = .request (.broadcast sender safe msg) →
      Copies m.pre.calls.length sender.broadcast msg (List.range m.pre.bus.legs.length) h₂ ∧
        (.returned m.pre.calls.length ∉ History.events h₂ →
          t.bus.legs.length = m.pre.bus.legs.length)
  /-- A `publish` offers one copy to every leg that is subscribed. -/
  publishes : ∀ h₁ m h₂, h = h₁ ++ m :: h₂ → ∀ leg c safe msg,
    m.label = .request (.publish leg c safe msg) →
      ∃ dests : List Nat, dests.Nodup ∧ (∀ d, d ∈ dests ↔ SubscribedTo d c h₁) ∧
        Copies m.pre.calls.length (.channel leg c) msg dests h₂ ∧
        (.returned m.pre.calls.length ∉ History.events h₂ →
          ∀ d, d ∈ dests ↔ SubscribedTo d c h)
  /-- The legs registered for channels exist. -/
  registered : ∀ c, ∀ leg ∈ t.bus.registered c, leg < t.bus.legs.length

/-- What a request begins. -/
theorem post_request {m : Moment (Traffic ChannelId MSG Awk n) (TrafficOp ChannelId MSG Awk)
    (TrafficEvent ChannelId MSG Awk)} (hm : (Traffic.machine ChannelId MSG Awk n).Fires m)
    {r : Request ChannelId MSG} (hlabel : m.label = .request r) :
    m.post = { m.pre with calls := m.pre.calls ++ [r.call m.pre.bus] } := by
  have hstep : m.pre.step m.label = some (m.post, m.events) := hm
  rw [hlabel] at hstep
  simp only [Traffic.step] at hstep
  split at hstep
  · exact (Prod.mk.inj (Option.some.inj hstep)).1.symm
  · cases hstep

/-- **A bus delivers**, under every interleaving of its pushes and pops. -/
theorem delivers_of_run (hr : (Traffic.machine ChannelId MSG Awk n).Run .empty h t) :
    Delivers h t where
  fifo := fifo_of_run hr
  inOrder leg p := by
    rw [← fifo_of_run hr leg, List.filter_append]
    exact List.prefix_append _ _
  refused := by
    intro m hm k how o ho
    obtain ⟨h₁, h₂, rfl⟩ := List.append_of_mem hm
    exact (does_of_fires hr.split.2.1).refuses ho
  broadcasts := by
    rintro h₁ m h₂ rfl sender safe msg hlabel
    obtain ⟨hr₁, hm, hr₂⟩ := hr.split
    rw [post_request hm hlabel] at hr₂
    have hdests := m.pre.bus.broadcastDests_eq
    have hbegin := Sending.begins m.pre ((Request.broadcast sender safe msg).call m.pre.bus) rfl
      fun d hd ↦ List.mem_range.1 (hdests ▸ hd)
    obtain ⟨rest, running, hs⟩ := sending_of_run hbegin hr₂
    refine ⟨hdests ▸ hs.copies, fun hreturned ↦ ?_⟩
    exact hs.noLegs (hs.running_iff.2 hreturned)
  publishes := by
    rintro h₁ m h₂ rfl leg c safe msg hlabel
    obtain ⟨hr₁, hm, hr₂⟩ := hr.split
    rw [post_request hm hlabel] at hr₂
    have hdests := m.pre.bus.publishDests_eq c
    have hbegin := Sending.begins m.pre ((Request.publish leg c safe msg).call m.pre.bus) rfl
      fun d hd ↦ inRange_of_run hr₁ c d (hdests ▸ hd)
    obtain ⟨rest, running, hs⟩ := sending_of_run hbegin hr₂
    refine ⟨m.pre.bus.registered c, m.pre.bus.nodup_registered c,
      fun d ↦ mem_registered_iff hr₁ d c, hdests ▸ hs.copies, fun hreturned d ↦ ?_⟩
    rw [← mem_registered_iff hr, hs.noChannels (hs.running_iff.2 hreturned) rfl]
  registered := inRange_of_run hr

end Runs

/-- Of two workers, one subscribes, and the other publishes to it and broadcasts; a send
that is not safe is refused in between. -/
def interleaving : List (TrafficOp Nat Nat Nat) :=
  [.newWorker, .newWorker, .subscribe 1 5, .request (.publish 0 5 false 40),
    .request (.broadcast (.worker 0) true 41), .push 0, .push 1,
    .request (.send .builder 1 false 42),
    .push 2, .finish 0, .push 1, .recv 1, .recv 1]

/-- The run of that. -/
def interleaved : TrafficHistory Nat Nat Nat 1 × Traffic Nat Nat Nat 1 :=
  ((Traffic.machine Nat Nat Nat 1).exec .empty interleaving).get (by decide +kernel)

theorem interleaved_run : (Traffic.machine Nat Nat Nat 1).Run .empty interleaved.1 interleaved.2 :=
  Machine.exec_run_get _

theorem delivers_of_run_interleaved :
    Delivers interleaved.1 interleaved.2 ∧
      received 1 interleaved.1 = [(.channel 0 5, 40), (.broadcast 0, 41)] :=
  ⟨delivers_of_run interleaved_run, by decide +kernel⟩

end SansIo.Bus
