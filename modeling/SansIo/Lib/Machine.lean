import Mathlib.Data.List.Induction
import SansIo.Lib.Panics

/-!
# Labelled machines, their runs and their histories

A `Machine` is a deterministic step function on states and labels: everything
that is not determined by the state (which party moves, what the environment
answers) is in the label, so that *every interleaving* is *every list of
labels*.  A step also reports the events that an observer sees.

`Machine.Run M s₀ h s` says that `M` goes from `s₀` to `s` with history `h`.  A
history is the list of the `Moment`s of the run, oldest first, each with the
state before it, its label, its events and the state after it.  Runs grow at the
end, which is where an invariant that mentions the past has to look.

* `Run.induct` is the induction rule for a property of the history and the state;
* `Run.invariant` is the special case of a property of the state;
* `Run.split` and `Run.append` cut and compose runs;
* `Since p q h` is the past-time operator "`p` has held since a moment of `q`", and
  `Run.since_iff` says when a property of the state remembers just that;
* `Along P h` says something of every step, with what was before it, and `Run.along_iff`
  when all steps of a run have a property;
* `exec` computes a run from its labels, and `exec_run` says so;
* `ofPanics` is the machine of operations that may panic;
* `Run.map` and `Run.simulate` take the runs of a machine to another one.
-/

universe u v w

namespace SansIo.Lib

/-- A labelled machine.  `step s l` is the state after `l` and the events of the
step, and `none` where `l` is not possible in `s`. -/
structure Machine (σ : Type u) (lab : Type v) (ε : Type w) where
  /-- One step under a label. -/
  step : σ → lab → Option (σ × List ε)

/-- One step of a run, with the states at both ends. -/
structure Moment (σ : Type u) (lab : Type v) (ε : Type w) where
  /-- The state before the step. -/
  pre : σ
  /-- What the step was. -/
  label : lab
  /-- What an observer saw of it. -/
  events : List ε
  /-- The state after the step. -/
  post : σ

/-- A history: the moments of a run, oldest first. -/
abbrev History (σ : Type u) (lab : Type v) (ε : Type w) := List (Moment σ lab ε)

variable {σ : Type u} {lab : Type v} {ε : Type w}

/-- The events of a history, in order. -/
def History.events (h : History σ lab ε) : List ε := h.flatMap Moment.events

@[simp] theorem History.events_nil : History.events ([] : History σ lab ε) = [] := rfl

@[simp] theorem History.events_append (h₁ h₂ : History σ lab ε) :
    History.events (h₁ ++ h₂) = History.events h₁ ++ History.events h₂ := by
  simp [History.events]

@[simp] theorem History.events_singleton (m : Moment σ lab ε) :
    History.events [m] = m.events := by
  simp [History.events]

namespace Machine

variable {M : Machine σ lab ε}

/-- `M.Fires m`: the moment `m` is a step of the machine `M`. -/
def Fires (M : Machine σ lab ε) (m : Moment σ lab ε) : Prop :=
  M.step m.pre m.label = some (m.post, m.events)

/-- `M.Run s₀ h s`: the machine goes from `s₀` to `s` with history `h`. -/
inductive Run (M : Machine σ lab ε) (s₀ : σ) : History σ lab ε → σ → Prop
  | /-- Nothing has happened yet. -/ nil : Run M s₀ [] s₀
  | /-- One more step, at the end. -/
    snoc {h : History σ lab ε} {m : Moment σ lab ε} :
      Run M s₀ h m.pre → M.Fires m → Run M s₀ (h ++ [m]) m.post

/-- **Induction over a run**, for a property of the history and the state
reached. -/
theorem Run.induct {s₀ : σ} {P : History σ lab ε → σ → Prop} (hnil : P [] s₀)
    (hsnoc : ∀ h m, M.Run s₀ h m.pre → M.Fires m → P h m.pre → P (h ++ [m]) m.post)
    {h : History σ lab ε} {s : σ} (hr : M.Run s₀ h s) : P h s := by
  induction hr with
  | nil => exact hnil
  | snoc hr hm ih => exact hsnoc _ _ hr hm ih

/-- **The invariant rule.**  What holds at first and is kept by every step holds
in every state that a run reaches. -/
theorem Run.invariant {s₀ : σ} {I : σ → Prop} (hinit : I s₀)
    (hstep : ∀ m : Moment σ lab ε, M.Fires m → I m.pre → I m.post)
    {h : History σ lab ε} {s : σ} (hr : M.Run s₀ h s) : I s :=
  Run.induct (P := fun _ s ↦ I s) hinit (fun _ m _ hm ih ↦ hstep m hm ih) hr

/-- Runs compose. -/
theorem Run.append {s₀ s₁ s₂ : σ} {h₁ h₂ : History σ lab ε} (hr₁ : M.Run s₀ h₁ s₁)
    (hr₂ : M.Run s₁ h₂ s₂) : M.Run s₀ (h₁ ++ h₂) s₂ := by
  induction hr₂ with
  | nil => simpa using hr₁
  | snoc _ hm ih => rw [← List.append_assoc]; exact ih.snoc hm

/-- One more step in front of a run. -/
theorem Run.cons {m : Moment σ lab ε} {h : History σ lab ε} {s : σ} (hm : M.Fires m)
    (hr : M.Run m.post h s) : M.Run m.pre (m :: h) s :=
  (Run.nil.snoc hm).append hr

/-- A run that ends in a given moment took it from where the rest of the run led. -/
theorem Run.of_snoc {s₀ s : σ} {h : History σ lab ε} {m : Moment σ lab ε}
    (hr : M.Run s₀ (h ++ [m]) s) : M.Run s₀ h m.pre ∧ M.Fires m ∧ s = m.post := by
  generalize hh : h ++ [m] = h' at hr
  cases hr with
  | nil => simp at hh
  | snoc hr hm =>
      obtain ⟨rfl, hmm⟩ := List.append_inj' hh rfl
      obtain rfl : m = _ := by simpa using hmm
      exact ⟨hr, hm, rfl⟩

/-- A run cut in two at any point of its history. -/
theorem Run.of_append {s₀ s : σ} {h₁ h₂ : History σ lab ε} (hr : M.Run s₀ (h₁ ++ h₂) s) :
    ∃ s₁, M.Run s₀ h₁ s₁ ∧ M.Run s₁ h₂ s := by
  induction h₂ using List.reverseRecOn generalizing s with
  | nil => exact ⟨s, by simpa using hr, .nil⟩
  | append_singleton h₂ m ih =>
      rw [← List.append_assoc] at hr
      obtain ⟨hpre, hm, rfl⟩ := hr.of_snoc
      obtain ⟨s₁, hr₁, hr₂⟩ := ih hpre
      exact ⟨s₁, hr₁, hr₂.snoc hm⟩

/-- **Every moment of a run is a step** from the state that the moments before it
reach, and the rest of the run starts where it ends. -/
theorem Run.split {s₀ s : σ} {h₁ h₂ : History σ lab ε} {m : Moment σ lab ε}
    (hr : M.Run s₀ (h₁ ++ m :: h₂) s) :
    M.Run s₀ h₁ m.pre ∧ M.Fires m ∧ M.Run m.post h₂ s := by
  rw [List.append_cons] at hr
  obtain ⟨s₁, hr₁, hr₂⟩ := hr.of_append
  obtain ⟨hpre, hm, rfl⟩ := hr₁.of_snoc
  exact ⟨hpre, hm, hr₂⟩

/-- A machine is deterministic: a history determines the state it reaches. -/
theorem Run.unique {s₀ s s' : σ} {h : History σ lab ε} (hr : M.Run s₀ h s)
    (hr' : M.Run s₀ h s') : s = s' := by
  cases hr with
  | nil =>
      generalize hh : ([] : History σ lab ε) = h at hr'
      cases hr' with
      | nil => rfl
      | snoc => simp at hh
  | snoc hr hm => exact hr'.of_snoc.2.2.symm

/-! ## Computing a run -/

/-- The run of a list of labels, where every one of them is possible. -/
def exec (M : Machine σ lab ε) : σ → List lab → Option (History σ lab ε × σ)
  | s, [] => some ([], s)
  | s, l :: ls => match M.step s l with
    | none => none
    | some (s', e) => match exec M s' ls with
      | none => none
      | some (h, t) => some (⟨s, l, e, s'⟩ :: h, t)

/-- What `exec` computes is a run. -/
theorem exec_run {s t : σ} {l : List lab} {h : History σ lab ε}
    (he : M.exec s l = some (h, t)) : M.Run s h t := by
  induction l generalizing s h with
  | nil =>
      obtain ⟨rfl, rfl⟩ : [] = h ∧ s = t := by simpa [exec] using he
      exact .nil
  | cons _ _ ih =>
      simp only [exec] at he
      split at he
      · cases he
      · rename_i s' e hs
        split at he
        · cases he
        · rename_i h' t' hx
          obtain ⟨rfl, rfl⟩ : ⟨s, _, e, s'⟩ :: h' = h ∧ t' = t := by simpa using he
          exact Run.cons (m := ⟨s, _, e, s'⟩) hs (ih hx)

/-- The run of a list of labels that are all possible. -/
theorem exec_run_get {s : σ} {l : List lab} (h : (M.exec s l).isSome = true) :
    M.Run s ((M.exec s l).get h).1 ((M.exec s l).get h).2 :=
  exec_run (Option.some_get h).symm

/-- The moment of a label that is possible. -/
def moment (M : Machine σ lab ε) (s : σ) (l : lab) (h : (M.step s l).isSome = true) :
    Moment σ lab ε :=
  ⟨s, l, ((M.step s l).get h).2, ((M.step s l).get h).1⟩

theorem fires_moment {s : σ} {l : lab} (h : (M.step s l).isSome = true) :
    M.Fires (M.moment s l h) :=
  (Option.some_get h).symm

/-- A run goes on with it. -/
theorem Run.moment {s₀ s : σ} {h : History σ lab ε} (hr : M.Run s₀ h s) {l : lab}
    (hl : (M.step s l).isSome = true) :
    M.Run s₀ (h ++ [M.moment s l hl]) (M.moment s l hl).post :=
  .snoc hr (fires_moment hl)

end Machine

/-! ## Operations that may panic -/

namespace Machine

/-- The machine of a function on states that returns an answer or panics.  An operation that
panics is not possible. -/
def ofPanics (perform : σ → lab → Panics (ε × σ)) : Machine σ lab ε where
  step s l := match perform s l with
    | .ok (answer, t) => some (t, [answer])
    | .error _ => none

/-- It moves as the function returns. -/
theorem fires_ofPanics {perform : σ → lab → Panics (ε × σ)} {m : Moment σ lab ε} :
    (ofPanics perform).Fires m ↔
      ∃ answer, perform m.pre m.label = .ok (answer, m.post) ∧ m.events = [answer] := by
  unfold Fires ofPanics
  cases h : perform m.pre m.label with
  | error e => simp [h]
  | ok r =>
      simp only [h, Option.some.injEq, Prod.mk.injEq, Except.ok.injEq]
      constructor
      · rintro ⟨hpost, hevents⟩
        exact ⟨r.1, Prod.ext rfl hpost, hevents.symm⟩
      · rintro ⟨answer, rfl, hevents⟩
        exact ⟨rfl, hevents.symm⟩

end Machine

/-! ## Machines whose steps agree -/

section Map

variable {σ' : Type u}

/-- The same step, of a machine with other states. -/
def Moment.map (f : σ → σ') (m : Moment σ lab ε) : Moment σ' lab ε :=
  ⟨f m.pre, m.label, m.events, f m.post⟩

namespace Machine

variable {M : Machine σ lab ε} {M' : Machine σ' lab ε} {f : σ → σ'}

/-- A run of a machine is one of any other whose steps follow its steps. -/
theorem Run.map (hf : ∀ s l, M'.step (f s) l = (M.step s l).map (Prod.map f id)) {s₀ s : σ}
    {h : History σ lab ε} (hr : M.Run s₀ h s) : M'.Run (f s₀) (h.map (Moment.map f)) (f s) := by
  induction hr with
  | nil => exact .nil
  | @snoc h m hr hm ih =>
      rw [List.map_append]
      refine Run.snoc (m := m.map f) ih ?_
      change M'.step (f m.pre) m.label = some (f m.post, m.events)
      rw [hf, show M.step m.pre m.label = some (m.post, m.events) from hm]
      rfl

/-- Conversely, it follows every run of the other. -/
theorem Run.of_map (hf : ∀ s l, M'.step (f s) l = (M.step s l).map (Prod.map f id)) {s₀ : σ}
    {s' : σ'} {h' : History σ' lab ε} (hr : M'.Run (f s₀) h' s') :
    ∃ h s, M.Run s₀ h s ∧ h.map (Moment.map f) = h' ∧ f s = s' := by
  induction hr with
  | nil => exact ⟨[], s₀, .nil, rfl, rfl⟩
  | @snoc h' m hr hm ih =>
      obtain ⟨pre, l, events, post⟩ := m
      obtain ⟨h, s, hrun, rfl, rfl⟩ := ih
      have hstep : (M.step s l).map (Prod.map f id) = some (post, events) := (hf s l).symm.trans hm
      obtain ⟨⟨t, events'⟩, hfires, ht⟩ := Option.map_eq_some_iff.mp hstep
      obtain ⟨rfl, rfl⟩ := Prod.mk.inj ht
      exact ⟨_, t, Run.snoc (m := ⟨s, l, events', t⟩) hrun hfires, List.map_append, rfl⟩

/-- A run of a machine that keeps an invariant is one of any other machine that, where the
invariant holds, can follow its steps. -/
theorem Run.simulate {I : σ → Prop}
    (hf : ∀ m : Moment σ lab ε, M.Fires m → I m.pre → I m.post ∧ M'.Fires (m.map f)) {s₀ s : σ}
    {h : History σ lab ε} (hr : M.Run s₀ h s) (hinit : I s₀) :
    I s ∧ M'.Run (f s₀) (h.map (Moment.map f)) (f s) := by
  induction hr with
  | nil => exact ⟨hinit, .nil⟩
  | @snoc h m hr hm ih =>
      obtain ⟨hpre, hrun⟩ := ih
      obtain ⟨hpost, hfires⟩ := hf m hm hpre
      rw [List.map_append]
      exact ⟨hpost, Run.snoc (m := m.map f) hrun hfires⟩

/-- A machine that does as another one in the states that satisfy an invariant of that
one computes the same, where its events are translated to those of that one. -/
theorem exec_map {ε' : Type w} {M' : Machine σ' lab ε'} {e : ε' → ε} {I : σ → Prop}
    (hI : ∀ m : Moment σ lab ε, M.Fires m → I m.pre → I m.post)
    (hf : ∀ s l, I s →
      (M'.step (f s) l).map (Prod.map id (List.map e)) = (M.step s l).map (Prod.map f id))
    {s : σ} (hs : I s) (ls : List lab) :
    (M'.exec (f s) ls).map
        (Prod.map (List.map fun m ↦ ⟨m.pre, m.label, m.events.map e, m.post⟩) id) =
      (M.exec s ls).map (Prod.map (List.map (Moment.map f)) f) := by
  induction ls generalizing s with
  | nil => rfl
  | cons l ls ih =>
      have hstep := hf s l hs
      simp only [exec]
      cases hM : M.step s l with
      | none =>
          rw [hM] at hstep
          rw [Option.map_eq_none_iff.1 hstep]
          rfl
      | some r =>
          rw [hM] at hstep
          obtain ⟨⟨t, events⟩, hM', ht⟩ := Option.map_eq_some_iff.1 hstep
          obtain ⟨rfl, hevents⟩ := Prod.mk.inj ht
          have hrest := ih (hI ⟨s, l, r.2, r.1⟩ hM hs)
          simp only [hM']
          cases hx : M'.exec (f r.1) ls with
          | none =>
              rw [hx] at hrest
              rw [Option.map_eq_none_iff.1 hrest.symm]
              rfl
          | some x =>
              rw [hx] at hrest
              obtain ⟨y, hy, hxy⟩ := Option.map_eq_some_iff.1 hrest.symm
              obtain ⟨hh, hs'⟩ := Prod.mk.inj hxy
              simp only [hy, Option.map_some, Prod.map, List.map_cons, id, hh, hs']
              rw [show events.map e = r.2 from hevents]
              rfl

end Machine

end Map

/-! ## Looking back -/

/-- `Since p q h`: some entry of `h` satisfies `q`, and every later one
satisfies `p`. -/
def Since {α : Type u} (p q : α → Prop) (h : List α) : Prop :=
  ∃ h₁ m h₂, h = h₁ ++ m :: h₂ ∧ q m ∧ ∀ x ∈ h₂, p x

variable {α : Type u} {p q : α → Prop}

/-- A list in which `q` holds at the last entry only is cut there. -/
theorem eq_of_append_singleton {h h₁ h₂ : List α} {x m : α}
    (hnone : ∀ y ∈ h, ¬ q y) (he : h ++ [x] = h₁ ++ m :: h₂) (hm : q m) : h₁ = h ∧ m = x := by
  induction h₂ using List.reverseRecOn with
  | nil =>
      obtain ⟨rfl, hmx⟩ := List.append_inj' he rfl
      exact ⟨rfl, by simpa using hmx.symm⟩
  | append_singleton h₂ y _ =>
      rw [← List.cons_append, ← List.append_assoc] at he
      obtain ⟨rfl, -⟩ := List.append_inj' he rfl
      exact absurd hm (hnone m (by simp))

@[simp] theorem not_since_nil : ¬ Since p q [] := by
  rintro ⟨h₁, m, h₂, h, -⟩
  simp at h

/-- `Since` at the last moment: either `q` holds there, or `p` does and the
rest of the history satisfies `Since`. -/
theorem since_snoc {h : List α} {m : α} :
    Since p q (h ++ [m]) ↔ q m ∨ (p m ∧ Since p q h) := by
  constructor
  · rintro ⟨h₁, k, h₂, he, hq, hp⟩
    induction h₂ using List.reverseRecOn with
    | nil =>
        obtain ⟨-, hk⟩ := List.append_inj' he rfl
        obtain rfl : m = k := by simpa using hk
        exact .inl hq
    | append_singleton h₂ l _ =>
        rw [← List.cons_append, ← List.append_assoc] at he
        obtain ⟨rfl, hl⟩ := List.append_inj' he rfl
        obtain rfl : m = l := by simpa using hl
        exact .inr ⟨hp m (by simp), h₁, k, h₂, rfl, hq, fun x hx ↦ hp x (by simp [hx])⟩
  · rintro (hq | ⟨hp, h₁, k, h₂, rfl, hq, hp'⟩)
    · exact ⟨h, m, [], rfl, hq, by simp⟩
    · refine ⟨h₁, k, h₂ ++ [m], by simp, hq, fun x hx ↦ ?_⟩
      rcases List.mem_append.mp hx with hx | hx
      · exact hp' x hx
      · rw [List.mem_singleton.mp hx]; exact hp

/-- `Since` goes on while `p` holds. -/
theorem Since.append {h l : List α} (hs : Since p q h) (hl : ∀ x ∈ l, p x) :
    Since p q (h ++ l) := by
  induction l using List.reverseRecOn with
  | nil => rwa [List.append_nil]
  | append_singleton l x ih =>
      rw [← List.append_assoc, since_snoc]
      exact .inr ⟨hl x (by simp), ih fun y hy ↦ hl y (by simp [hy])⟩

/-- **What a run remembers.**  A property that a step either brings about or only keeps
holds of the state reached when it has been kept since a step that brought it about. -/
theorem Machine.Run.since_iff {M : Machine σ lab ε} {P : σ → Prop}
    {p q : Moment σ lab ε → Prop} {s₀ s : σ} {h : History σ lab ε} (hr : M.Run s₀ h s)
    (hinit : ¬ P s₀) (hstep : ∀ m, M.Fires m → (P m.post ↔ q m ∨ (p m ∧ P m.pre))) :
    P s ↔ Since p q h := by
  induction hr with
  | nil => exact iff_of_false hinit not_since_nil
  | @snoc h m _ hm ih => rw [since_snoc, hstep m hm, ih]

/-! ## Every step of a history -/

/-- `Along P h`: `P` holds of every entry of `h` and of those before it. -/
def Along {α : Type u} (P : List α → α → Prop) (h : List α) : Prop :=
  ∀ h₁ m h₂, h = h₁ ++ m :: h₂ → P h₁ m

@[simp] theorem along_nil {P : List α → α → Prop} : Along P [] := by
  intro h₁ m h₂ he
  simp at he

theorem along_snoc {P : List α → α → Prop} {h : List α} {m : α} :
    Along P (h ++ [m]) ↔ Along P h ∧ P h m := by
  constructor
  · intro hall
    constructor
    · rintro h₁ k h₂ rfl
      exact hall h₁ k (h₂ ++ [m]) (by simp)
    · exact hall h m [] rfl
  · rintro ⟨hbefore, hnow⟩ h₁ k h₂ he
    induction h₂ using List.reverseRecOn with
    | nil =>
        obtain ⟨rfl, hk⟩ := List.append_inj' he rfl
        obtain rfl : m = k := by simpa using hk
        exact hnow
    | append_singleton h₂ l _ =>
        rw [← List.cons_append, ← List.append_assoc] at he
        obtain ⟨rfl, -⟩ := List.append_inj' he rfl
        exact hbefore h₁ k h₂ rfl

/-- Entries of which it is true whatever was before them. -/
theorem Along.append {P : List α → α → Prop} {h l : List α} (hh : Along P h)
    (hl : ∀ x ∈ l, ∀ before, P before x) : Along P (h ++ l) := by
  induction l using List.reverseRecOn with
  | nil => rwa [List.append_nil]
  | append_singleton l x ih =>
      rw [← List.append_assoc, along_snoc]
      exact ⟨ih fun y hy ↦ hl y (by simp [hy]), hl x (by simp) _⟩

/-- What is said of every entry alone. -/
theorem along_forall {α : Type u} {P : α → Prop} {h : List α} :
    Along (fun _ m ↦ P m) h ↔ ∀ m ∈ h, P m := by
  constructor
  · intro hall m hm
    obtain ⟨h₁, h₂, rfl⟩ := List.append_of_mem hm
    exact hall h₁ m h₂ rfl
  · rintro hall h₁ m h₂ rfl
    exact hall m (List.mem_append_right _ List.mem_cons_self)

/-- **When all steps of a run have a property.**  If just some condition makes a step from a
good state have it, and leads to a good state again, then all steps have the property when
all meet the condition. -/
theorem Machine.Run.along_iff {M : Machine σ lab ε} {I : History σ lab ε → σ → Prop}
    {P Q : History σ lab ε → Moment σ lab ε → Prop} {s₀ s : σ} {h : History σ lab ε}
    (hr : M.Run s₀ h s) (hinit : I [] s₀)
    (hstep : Along (fun h m ↦ M.Run s₀ h m.pre → M.Fires m → I h m.pre →
      (P h m ↔ Q h m) ∧ (Q h m → I (h ++ [m]) m.post)) h) :
    Along P h ↔ Along Q h := by
  suffices hall : (Along Q h → I h s) ∧ (Along P h ↔ Along Q h) from hall.2
  induction hr with
  | nil => exact ⟨fun _ ↦ hinit, iff_of_true along_nil along_nil⟩
  | @snoc h m hr hm ih =>
      rw [along_snoc] at hstep
      obtain ⟨hbefore, hnow⟩ := hstep
      obtain ⟨hgood, hiff⟩ := ih hbefore
      rw [along_snoc, along_snoc, hiff]
      constructor
      · exact fun ⟨hcond, hlast⟩ ↦ (hnow hr hm (hgood hcond)).2 hlast
      · exact and_congr_right fun hcond ↦ (hnow hr hm (hgood hcond)).1

/-- Where the state does not matter. -/
theorem Machine.Run.along_congr {M : Machine σ lab ε}
    {P Q : History σ lab ε → Moment σ lab ε → Prop} {s₀ s : σ} {h : History σ lab ε}
    (hr : M.Run s₀ h s)
    (hstep : ∀ h m, M.Run s₀ h m.pre → M.Fires m → (P h m ↔ Q h m)) :
    Along P h ↔ Along Q h := by
  refine hr.along_iff (I := fun _ _ ↦ True) trivial ?_
  exact fun h m _ _ hr hm _ ↦ ⟨hstep h m hr hm, fun _ ↦ trivial⟩

end SansIo.Lib
