import Mathlib.Algebra.Ring.Parity
import Mathlib.Data.List.DropRight
import SansIo.Backend.Polling

/-!
# What `PollingBackend` does with its tokens

Each token of the queue is ready for something: it yields an event, where its slot
is the waker's or a socket whose read succeeds; its read fails; or its slot is
vacant.  `expected` is what a worker should get from `pop_incoming` until that
returns `None`: the output queue, then an event for each token that yields one.

What it gets is something else (`pops_handled`).  After a failed read the loop
removes a second token from the queue without looking at it.  Whether the token
behind some failed reads is lost depends on whether their number is odd, since the
tokens that are removed unseen are removed from the failed reads as well; so the
worker gets what it should exactly when every token that yields an event stands
behind an even number of consecutive failed reads (`pops_expected_iff`).
-/

namespace SansIo.Backend

open Lib Collections

variable {Owner : Type} {n q : Nat}

/-! ## Readiness -/

/-- What a token is ready for. -/
inductive Readiness (Owner : Type) where
  | /-- It yields an event. -/
    yields (out : BackendIncomingInternal Owner)
  | /-- It is a socket's, and the read fails. -/
    failed
  | /-- Its slot is vacant. -/
    vacant

namespace Readiness

/-- The event that a token yields. -/
def out : Readiness Owner → Option (BackendIncomingInternal Owner)
  | .yields out => some out
  | _ => none

/-- Whether the read for a token fails. -/
def isFailed : Readiness Owner → Bool
  | .failed => true
  | _ => false

end Readiness

/-- The events that the loop yields for tokens of some readiness.  With `skip` the
first token is removed without being looked at. -/
def handled : Bool → List (Readiness Owner) → List (BackendIncomingInternal Owner)
  | _, [] => []
  | true, _ :: rest => handled false rest
  | false, .yields out :: rest => out :: handled false rest
  | false, .failed :: rest => handled true rest
  | false, .vacant :: rest => handled false rest

/-- Whether the token behind some others is removed without being looked at. -/
def skipAfter : Bool → List (Readiness Owner) → Bool
  | skip, [] => skip
  | true, _ :: rest => skipAfter false rest
  | false, r :: rest => skipAfter r.isFailed rest

@[simp] theorem handled_nil (skip : Bool) :
    handled skip ([] : List (Readiness Owner)) = [] := by
  cases skip <;> rfl

/-- Skipping a token is handling the others. -/
theorem handled_true (rest : List (Readiness Owner)) :
    handled true rest = handled false rest.tail := by
  cases rest with
  | nil => rfl
  | cons r rest => rfl

theorem handled_append (skip : Bool) (rs : List (Readiness Owner)) (r : Readiness Owner) :
    handled skip (rs ++ [r]) =
      handled skip rs ++ (if skipAfter skip rs then [] else r.out.toList) := by
  induction rs generalizing skip with
  | nil => cases skip <;> cases r <;> rfl
  | cons r' rs ih =>
      cases skip with
      | true => exact ih false
      | false =>
          cases r' with
          | yields out => exact congrArg (out :: ·) (ih false)
          | failed => exact ih true
          | vacant => exact ih false

theorem skipAfter_append (skip : Bool) (rs : List (Readiness Owner)) (r : Readiness Owner) :
    skipAfter skip (rs ++ [r]) = (!skipAfter skip rs && r.isFailed) := by
  induction rs generalizing skip with
  | nil => cases skip <;> rfl
  | cons r' rs ih => cases skip <;> exact ih _

/-- **A token is skipped behind an odd number of consecutive failed reads.** -/
theorem skipAfter_iff (rs : List (Readiness Owner)) :
    skipAfter false rs = true ↔ Odd (rs.rtakeWhile Readiness.isFailed).length := by
  induction rs using List.reverseRecOn with
  | nil => simp [skipAfter]
  | append_singleton rs r ih =>
      rw [skipAfter_append]
      by_cases hr : r.isFailed = true
      · rw [List.rtakeWhile_concat_pos _ _ _ hr, List.length_append, List.length_singleton,
          Nat.odd_add_one, ← ih]
        simp [hr]
      · rw [List.rtakeWhile_concat_neg _ _ _ hr]
        simp [hr]

/-- No more is yielded than should be. -/
theorem length_handled_le (rs : List (Readiness Owner)) :
    (handled false rs).length ≤ (rs.filterMap Readiness.out).length := by
  induction rs using List.reverseRecOn with
  | nil => simp
  | append_singleton rs r ih =>
      rw [handled_append, List.filterMap_append, List.length_append, List.length_append]
      refine Nat.add_le_add ih ?_
      split
      · exact Nat.zero_le _
      · cases r <;> simp [Readiness.out]

/-- All that should be yielded is yielded, if no token that yields something is
skipped. -/
theorem handled_eq_iff (rs : List (Readiness Owner)) :
    handled false rs = rs.filterMap Readiness.out ↔
      ∀ pre r post, rs = pre ++ r :: post → r.out ≠ none →
        Even (pre.rtakeWhile Readiness.isFailed).length := by
  induction rs using List.reverseRecOn with
  | nil => simp
  | append_singleton rs r ih =>
      have hlast : (r.out ≠ none → skipAfter false rs = false) ↔
          (r.out ≠ none → Even (rs.rtakeWhile Readiness.isFailed).length) := by
        rw [← Nat.not_odd_iff_even, ← skipAfter_iff, Bool.not_eq_true]
      have hsplit : (∀ pre r' post, rs ++ [r] = pre ++ r' :: post → r'.out ≠ none →
          Even (pre.rtakeWhile Readiness.isFailed).length) ↔
          (handled false rs = rs.filterMap Readiness.out ∧
            (r.out ≠ none → skipAfter false rs = false)) := by
        rw [ih, hlast]
        constructor
        · exact fun h ↦ ⟨fun pre r' post hrs ↦ h pre r' (post ++ [r]) (by simp [hrs]),
            h rs r [] rfl⟩
        · rintro ⟨hrs, hr⟩ pre r' post heq
          rcases List.eq_nil_or_concat' post with rfl | ⟨post, r'', rfl⟩
          · obtain ⟨rfl, hr'⟩ := List.append_inj' heq rfl
            obtain rfl : r = r' := by simpa using hr'
            exact hr
          · rw [← List.cons_append, ← List.append_assoc] at heq
            obtain ⟨rfl, -⟩ := List.append_inj' heq rfl
            exact hrs pre r' post rfl
      rw [hsplit, handled_append, List.filterMap_append]
      have hone : List.filterMap Readiness.out [r] = r.out.toList := by cases r <;> rfl
      rw [hone]
      constructor
      · intro heq
        cases hout : r.out with
        | none => simpa [hout] using heq
        | some o =>
            by_cases hskip : skipAfter false rs = true
            · rw [if_pos hskip, List.append_nil, hout] at heq
              have hlen := congrArg List.length heq
              have hle := length_handled_le rs
              simp only [List.length_append, Option.toList_some, List.length_singleton] at hlen
              omega
            · rw [if_neg hskip] at heq
              exact ⟨List.append_cancel_right heq, fun _ ↦ Bool.eq_false_iff.mpr hskip⟩
      · rintro ⟨heq, hskip⟩
        rw [heq]
        cases hout : r.out with
        | none => simp
        | some o => rw [hskip (by simp [hout]), if_neg (by decide)]

namespace PollingBackend

/-- What a token is ready for, with `behind` tokens behind it. -/
def readiness (recv : Nat → Recv) (b : PollingBackend Owner n q) (token : Token) (behind : Nat) :
    Readiness Owner :=
  match b.sockets.get token with
  | some (some (.udp _ _ owner)) => match recv behind with
    | some (sender, datagram) =>
      .yields (.event owner (.udpPacket token sender (received datagram)))
    | none => .failed
  | some (some .waker) => .yields .awake
  | some none | none => .vacant

/-- What some tokens are ready for. -/
def readinesses (recv : Nat → Recv) (b : PollingBackend Owner n q) :
    List Token → List (Readiness Owner)
  | [] => []
  | token :: tokens => b.readiness recv token tokens.length :: b.readinesses recv tokens

/-- What a worker should get: the output queue, then an event for each token that
yields one. -/
def expected (recv : Nat → Recv) (b : PollingBackend Owner n q) :
    List (BackendIncomingInternal Owner) :=
  b.output.toList ++ (b.readinesses recv b.eventBuffer2.toList).filterMap Readiness.out

/-- What the tokens of the queue yield. -/
def yielded (recv : Nat → Recv) (b : PollingBackend Owner n q) :
    List (BackendIncomingInternal Owner) :=
  handled false (b.readinesses recv b.eventBuffer2.toList)

/-! ## Popping until `None` -/

/-- `b.Pops recv outs b'`: calling `pop_incoming` until it returns `None` gives
`outs`. -/
inductive Pops (recv : Nat → Recv) : PollingBackend Owner n q →
    List (BackendIncomingInternal Owner) → PollingBackend Owner n q → Prop
  | /-- The last call. -/
    done {b b'} : b.popIncoming recv = .ok (none, b') → Pops recv b [] b'
  | /-- One more call. -/
    more {b b' b'' out outs} : b.popIncoming recv = .ok (some out, b') →
      Pops recv b' outs b'' → Pops recv b (out :: outs) b''

theorem Pops.unique {recv : Nat → Recv} {b b₁ b₂ : PollingBackend Owner n q}
    {outs₁ outs₂ : List (BackendIncomingInternal Owner)} (h₁ : b.Pops recv outs₁ b₁)
    (h₂ : b.Pops recv outs₂ b₂) : outs₁ = outs₂ := by
  induction h₁ generalizing outs₂ with
  | done hpop =>
      cases h₂ with
      | done _ => rfl
      | more hpop' _ => cases hpop.symm.trans hpop'
  | more hpop _ ih =>
      cases h₂ with
      | done hpop' => cases hpop.symm.trans hpop'
      | more hpop' hrest =>
          cases hpop.symm.trans hpop'
          exact congrArg _ (ih hrest)

/-- The tokens behind the front one are ready for the same without it. -/
theorem readinesses_tail (recv : Nat → Recv) (b : PollingBackend Owner n q) (tokens : List Token) :
    (b.readinesses recv tokens).tail = b.readinesses recv tokens.tail := by
  cases tokens <;> rfl

/-- What a token is ready for depends on the sockets. -/
theorem readinesses_congr {recv : Nat → Recv} {b b' : PollingBackend Owner n q}
    (h : b'.sockets = b.sockets) (tokens : List Token) :
    b'.readinesses recv tokens = b.readinesses recv tokens := by
  induction tokens with
  | nil => rfl
  | cons token tokens ih => rw [readinesses, readinesses, ih, readiness, readiness, h]

/-- What is left to yield with another queue of tokens. -/
theorem yielded_eq {recv : Nat → Recv} {b b' : PollingBackend Owner n q} {tokens : List Token}
    (hsockets : b'.sockets = b.sockets) (h : b'.eventBuffer2.toList = tokens) :
    b'.yielded recv = handled false (b.readinesses recv tokens) := by
  rw [yielded, h, readinesses_congr hsockets]

/-- A turn of the loop does what the front token is ready for; after a failed read
the token behind it goes as well. -/
theorem turn_eq {recv : Nat → Recv} {b : PollingBackend Owner n q} {token : Token}
    {tokens : List Token} (h : b.eventBuffer2.toList = token :: tokens) :
    b.turn recv = match b.readiness recv token tokens.length with
      | .yields out => .inr (.ok (some out, { b with eventBuffer2 := b.eventBuffer2.popFront.2 }))
      | .failed => .inl { b with eventBuffer2 := b.eventBuffer2.popFront.2.popFront.2 }
      | .vacant => .inl { b with eventBuffer2 := b.eventBuffer2.popFront.2 } := by
  have hbehind : b.eventBuffer2.popFront.2.length = tokens.length := by
    rw [← Bounded.length_toList, Bounded.toList_popFront, h, List.tail_cons]
  simp only [turn, h, readiness, hbehind]
  rcases b.sockets.get token with _ | _ | _ | ⟨socket, addr, owner⟩
  · rfl
  · rfl
  · rfl
  · cases recv tokens.length with
    | none => rfl
    | some datagram =>
        simp only [receive_eq]
        rfl

/-- The loop of `pop_cached_event` leaves with the first event that the tokens
yield, and the others are left. -/
theorem returns_turn (recv : Nat → Recv) (b : PollingBackend Owner n q) :
    ∃ b', Loop.Returns (turn recv) b (.ok ((b.yielded recv).head?, b')) ∧
      b'.output = b.output ∧ b'.yielded recv = (b.yielded recv).tail := by
  generalize hlen : b.eventBuffer2.length = len
  induction len using Nat.strongRecOn generalizing b with
  | ind len ih =>
      -- a turn that goes round again leaves the same events to yield
      have hagain : ∀ b' : PollingBackend Owner n q, b.turn recv = .inl b' →
          b'.output = b.output → b'.yielded recv = b.yielded recv →
          ∃ b'', Loop.Returns (turn recv) b (.ok ((b.yielded recv).head?, b'')) ∧
            b''.output = b.output ∧ b''.yielded recv = (b.yielded recv).tail := by
        intro b' hturn hout hyield
        obtain ⟨b'', hreturns, hout', hyield'⟩ := ih _ (hlen ▸ turn_lt hturn) b' rfl
        exact ⟨b'', .again hturn (hyield ▸ hreturns), hout'.trans hout, hyield ▸ hyield'⟩
      cases htokens : b.eventBuffer2.toList with
      | nil =>
          have hnil : b.yielded recv = [] := by rw [yielded, htokens, readinesses, handled_nil]
          refine ⟨b, .leave ?_, rfl, ?_⟩
          · simp only [turn, htokens, hnil, List.head?_nil]
          · rw [hnil, List.tail_nil]
      | cons token tokens =>
          have hturn := @turn_eq _ _ _ recv b _ _ htokens
          have hyield : b.yielded recv = handled false
              (b.readiness recv token tokens.length :: b.readinesses recv tokens) := by
            rw [yielded, htokens, readinesses]
          have hrest : b.eventBuffer2.popFront.2.toList = tokens := by
            rw [Bounded.toList_popFront, htokens, List.tail_cons]
          cases hr : b.readiness recv token tokens.length with
          | yields out =>
              rw [hr] at hturn hyield
              rw [hyield]
              exact ⟨_, .leave hturn, rfl, yielded_eq (b := b) rfl hrest⟩
          | failed =>
              rw [hr] at hturn hyield
              refine hagain _ hturn rfl ?_
              have hskipped : b.eventBuffer2.popFront.2.popFront.2.toList = tokens.tail := by
                rw [Bounded.toList_popFront, hrest]
              have hleft :
                  { b with eventBuffer2 := b.eventBuffer2.popFront.2.popFront.2 }.yielded recv =
                    handled false (b.readinesses recv tokens.tail) := yielded_eq rfl hskipped
              rw [hleft, hyield, ← readinesses_tail]
              exact (handled_true _).symm
          | vacant =>
              rw [hr] at hturn hyield
              refine hagain _ hturn rfl ?_
              rw [hyield]
              exact yielded_eq (b := b) rfl hrest

/-- The output queue is given out first. -/
theorem popIncoming_output (hq : 0 < q) (recv : Nat → Recv) {b : PollingBackend Owner n q}
    {out : BackendIncomingInternal Owner} {outs : List (BackendIncomingInternal Owner)}
    (h : b.output.toList = out :: outs) :
    b.popIncoming recv = .ok (some out, { b with output := b.output.popFront.2 }) ∧
      b.output.popFront.2.toList = outs := by
  obtain ⟨hfront, hrest⟩ := b.output.popFront_spec hq
  rw [h] at hfront hrest
  refine ⟨?_, hrest⟩
  rw [popIncoming, popCachedEvent, ← Prod.mk.eta (p := b.output.popFront), hfront]
  rfl

/-- With an empty output queue, the tokens are handled. -/
theorem popIncoming_tokens (hq : 0 < q) (recv : Nat → Recv) {b : PollingBackend Owner n q}
    (h : b.output.toList = []) :
    ∃ b', b.popIncoming recv = .ok ((b.yielded recv).head?, b') ∧ b'.output.toList = [] ∧
      b'.yielded recv = (b.yielded recv).tail := by
  obtain ⟨hfront, hrest⟩ := b.output.popFront_spec hq
  rw [h] at hfront hrest
  obtain ⟨b', hreturns, hout, hyield⟩ := returns_turn recv { b with output := b.output.popFront.2 }
  have hsame : { b with output := b.output.popFront.2 }.yielded recv = b.yielded recv :=
    yielded_eq (b := b) rfl rfl
  rw [hsame] at hreturns hyield
  refine ⟨b', ?_, hout ▸ hrest, hyield⟩
  rw [popIncoming, popCachedEvent, ← Prod.mk.eta (p := b.output.popFront), hfront]
  exact Loop.run_eq hreturns

/-- **What a worker gets**: the output queue, then what the tokens yield. -/
theorem pops_handled (hq : 0 < q) (recv : Nat → Recv) (b : PollingBackend Owner n q) :
    ∃ b', b.Pops recv (b.output.toList ++ b.yielded recv) b' := by
  have htokens : ∀ (outs : List (BackendIncomingInternal Owner)) (b : PollingBackend Owner n q),
      b.output.toList = [] → b.yielded recv = outs → ∃ b', b.Pops recv outs b' := by
    intro outs
    induction outs with
    | nil =>
        intro b hout hyield
        obtain ⟨b', hpop, -, -⟩ := popIncoming_tokens hq recv hout
        rw [hyield] at hpop
        exact ⟨b', .done hpop⟩
    | cons out outs ih =>
        intro b hout hyield
        obtain ⟨b', hpop, hout', hyield'⟩ := popIncoming_tokens hq recv hout
        rw [hyield] at hpop hyield'
        obtain ⟨b'', hpops⟩ := ih b' hout' hyield'
        exact ⟨b'', .more hpop hpops⟩
  generalize hout : b.output.toList = outs
  induction outs generalizing b with
  | nil => exact htokens _ b hout rfl
  | cons out outs ih =>
      obtain ⟨hpop, hout'⟩ := popIncoming_output hq recv hout
      obtain ⟨b', hpops⟩ := ih { b with output := b.output.popFront.2 } hout'
      have hsame : { b with output := b.output.popFront.2 }.yielded recv = b.yielded recv :=
        yielded_eq (b := b) rfl rfl
      rw [hsame] at hpops
      exact ⟨b', .more hpop hpops⟩

/-- **A worker gets what it should exactly when every token that yields an event
stands behind an even number of consecutive failed reads.** -/
theorem pops_expected_iff (hq : 0 < q) (recv : Nat → Recv) (b : PollingBackend Owner n q) :
    (∃ b', b.Pops recv (b.expected recv) b') ↔
      ∀ pre r post, b.readinesses recv b.eventBuffer2.toList = pre ++ r :: post → r.out ≠ none →
        Even (pre.rtakeWhile Readiness.isFailed).length := by
  rw [← handled_eq_iff]
  obtain ⟨b', hpops⟩ := pops_handled hq recv b
  constructor
  · rintro ⟨b'', hpops'⟩
    exact List.append_cancel_left (hpops.unique hpops')
  · intro heq
    exact ⟨b', by rw [expected, ← heq]; exact hpops⟩

/-- A backend with a socket in slot 1 and some tokens. -/
def withSocket (tokens : List Token) (h : tokens.length ≤ queuePktNum) :
    PollingBackend Unit 2 1 where
  eventBuffer2 := ⟨tokens, h⟩
  sockets := (DynamicVec.default.push (some .waker)).push (some (.udp 3 ⟨[127, 0, 0, 1], 80⟩ ()))
  output := .default
  awakeFlag := false

/-- The theorem at two failed reads before the waker's token: the worker is woken. -/
theorem pops_expected_iff_two_failed :
    ∃ b', (withSocket [1, 1, 0] (by decide)).Pops (fun _ ↦ none) [.awake] b' := by
  refine (pops_expected_iff Nat.one_pos (fun _ ↦ none) (withSocket [1, 1, 0] (by decide))).mpr ?_
  intro pre r post hsplit hout
  replace hsplit : [.failed, .failed, .yields .awake] = pre ++ r :: post := hsplit
  rcases pre with _ | ⟨r₁, _ | ⟨r₂, _ | ⟨r₃, pre⟩⟩⟩
  · cases hsplit
    exact absurd rfl hout
  · cases hsplit
    exact absurd rfl hout
  · cases hsplit
    decide
  · simp at hsplit

/-- **A wake-up can be lost.**  The read for the socket fails, and the waker's token
goes with it. -/
theorem not_every_token_handled :
    ¬ ∀ (recv : Nat → Recv) (b : PollingBackend Unit 2 1),
      ∃ b', b.Pops recv (b.expected recv) b' := by
  intro hall
  obtain ⟨b', hpops⟩ := hall (fun _ ↦ none) (withSocket [1, 0] (by decide))
  replace hpops : (withSocket [1, 0] (by decide)).Pops (fun _ ↦ none) [.awake] b' := hpops
  cases hpops with
  | more hpop _ => cases hpop

end PollingBackend

end SansIo.Backend
