import SansIo.Lib.Machine

/-!
# Refinement

A machine refines another one, along a relation of their states, where every step of the
first can be followed by a run of the second of which just the same is seen.  The run may be
empty, so that a step may be one that nobody sees, and it may be long.

What is seen of a run of the first is then seen of some run of the second (`Refines.run`), and
so what never happens in the second never happens in the first (`Refines.safe`).
-/

universe u v w u' v' w'

namespace SansIo.Lib.Machine

variable {σ : Type u} {lab : Type v} {ε : Type w} {τ : Type u'} {lab' : Type v'} {ε' : Type w'}

/-- `M` refines `N` along `R`, where a step of `M` is seen as some events of `N`. -/
def Refines (M : Machine σ lab ε) (N : Machine τ lab' ε') (R : σ → τ → Prop)
    (seen : Moment σ lab ε → List ε') : Prop :=
  ∀ m, M.Fires m → ∀ t, R m.pre t → ∃ g t', N.Run t g t' ∧ R m.post t' ∧ g.events = seen m

variable {M : Machine σ lab ε} {N : Machine τ lab' ε'} {R : σ → τ → Prop}
  {seen : Moment σ lab ε → List ε'}

/-- **What is seen of a run is seen of a run of the other machine.** -/
theorem Refines.run (hM : M.Refines N R seen) {s₀ s : σ} {t₀ : τ} (h₀ : R s₀ t₀)
    {h : History σ lab ε} (hr : M.Run s₀ h s) :
    ∃ g t, N.Run t₀ g t ∧ R s t ∧ g.events = h.flatMap seen := by
  induction hr with
  | nil => exact ⟨[], t₀, .nil, h₀, rfl⟩
  | @snoc h m hr hm ih =>
      obtain ⟨g, t, hrun, hpre, hevents⟩ := ih
      obtain ⟨g', t', hrun', hpost, hevents'⟩ := hM m hm t hpre
      refine ⟨g ++ g', t', hrun.append hrun', hpost, ?_⟩
      rw [History.events_append, List.flatMap_append, List.flatMap_singleton, hevents, hevents']

/-- **What always holds of what is seen of the other machine** holds of what is seen of
this one. -/
theorem Refines.safe (hM : M.Refines N R seen) {s₀ s : σ} {t₀ : τ} (h₀ : R s₀ t₀)
    {P : List ε' → Prop} (hsafe : ∀ g t, N.Run t₀ g t → P g.events)
    {h : History σ lab ε} (hr : M.Run s₀ h s) : P (h.flatMap seen) := by
  obtain ⟨g, t, hrun, -, hevents⟩ := hM.run h₀ hr
  exact hevents ▸ hsafe g t hrun

/-- A step that nobody sees. -/
theorem stays {m : Moment σ lab ε} {t : τ} (hpost : R m.post t)
    (hevents : seen m = []) :
    ∃ g t', N.Run t g t' ∧ R m.post t' ∧ g.events = seen m :=
  ⟨[], t, .nil, hpost, hevents.symm⟩

/-- A step that is one of the other machine. -/
theorem moves {m : Moment σ lab ε} {t t' : τ} {l : lab'}
    (hstep : N.step t l = some (t', seen m)) (hpost : R m.post t') :
    ∃ g t', N.Run t g t' ∧ R m.post t' ∧ g.events = seen m := by
  have hfires : N.Fires ⟨t, l, seen m, t'⟩ := hstep
  exact ⟨_, t', Run.nil.snoc hfires, hpost, History.events_singleton _⟩

end SansIo.Lib.Machine
