import SansIo.Lib.Machine

/-!
# The components of a machine

A machine may be made of components, each with a machine of its own, that come into
being while it runs.  A step of the whole then leaves a component alone, brings it
into being, or is a step of it, which the whole reports as one of its events.

`Run.component` projects the runs of the whole: what it has reported of a component is
a run of the component.  So every theorem about the runs of a component alone holds of
it wherever the whole is.
-/

universe u v w u' v' w'

namespace SansIo.Lib

variable {σ : Type u} {lab : Type v} {ε : Type w} {τ : Type u'} {lab' : Type v'} {ε' : Type w'}

/-- How a step of the whole may change a component, with what it reports of it. -/
inductive Follows (N : Machine τ lab' ε') (Init : τ → Prop) :
    Option τ → Option τ → History τ lab' ε' → Prop
  | /-- The component is not there yet. -/ absent : Follows N Init none none []
  | /-- It comes into being. -/
    start {x : τ} : Init x → Follows N Init none (some x) []
  | /-- It is left alone. -/ idle {x : τ} : Follows N Init (some x) (some x) []
  | /-- It makes a step. -/
    move {m : Moment τ lab' ε'} : N.Fires m → Follows N Init (some m.pre) (some m.post) [m]

variable {M : Machine σ lab ε} {N : Machine τ lab' ε'} {Init : τ → Prop}
  {p : σ → Option τ} {report : ε → Option (Moment τ lab' ε')}

/-- A run of the component, and one more step of the whole. -/
theorem Follows.append {x₀ x : τ} {g l : History τ lab' ε'} {v : Option τ}
    (hf : Follows N Init (some x) v l) (hr : N.Run x₀ g x) :
    ∃ y, v = some y ∧ N.Run x₀ (g ++ l) y := by
  generalize hu : some x = u at hf
  cases hf with
  | absent => cases hu
  | start => cases hu
  | idle =>
      cases hu
      exact ⟨x, rfl, by simpa using hr⟩
  | move hm =>
      cases hu
      exact ⟨_, rfl, hr.snoc hm⟩

/-- What a run of the whole reports of a component that is there is a run of the
component. -/
theorem Machine.Run.component_from {s₀ s : σ} {h : History σ lab ε} (hr : M.Run s₀ h s)
    {x₀ : τ} (h₀ : p s₀ = some x₀)
    (hstep : ∀ h m, M.Run s₀ h m.pre → M.Fires m →
      Follows N Init (p m.pre) (p m.post) (m.events.filterMap report)) :
    ∃ x, p s = some x ∧ N.Run x₀ (h.events.filterMap report) x := by
  induction hr with
  | nil => exact ⟨x₀, h₀, .nil⟩
  | @snoc h m hr hm ih =>
      obtain ⟨x, hx, hrun⟩ := ih
      rw [History.events_append, History.events_singleton, List.filterMap_append]
      exact (hx ▸ hstep h m hr hm).append hrun

/-- **What a run of the whole reports of a component is a run of the component**, from
where it came into being. -/
theorem Machine.Run.component {s₀ s : σ} {h : History σ lab ε} (hr : M.Run s₀ h s)
    (h₀ : p s₀ = none)
    (hstep : ∀ h m, M.Run s₀ h m.pre → M.Fires m →
      Follows N Init (p m.pre) (p m.post) (m.events.filterMap report))
    {x : τ} (hx : p s = some x) :
    ∃ x₀, Init x₀ ∧ N.Run x₀ (h.events.filterMap report) x := by
  suffices (p s = none ∧ h.events.filterMap report = []) ∨
      ∃ x₀ y, Init x₀ ∧ p s = some y ∧ N.Run x₀ (h.events.filterMap report) y by
    rcases this with ⟨hnone, -⟩ | ⟨x₀, y, hx₀, hy, hrun⟩
    · cases hnone.symm.trans hx
    · cases hy.symm.trans hx
      exact ⟨x₀, hx₀, hrun⟩
  clear hx
  induction hr with
  | nil => exact .inl ⟨h₀, rfl⟩
  | @snoc h m hr hm ih =>
      have hf := hstep h m hr hm
      rw [History.events_append, History.events_singleton, List.filterMap_append]
      rcases ih with ⟨hnone, hrep⟩ | ⟨x₀, y, hx₀, hy, hrun⟩
      · rw [hnone] at hf
        rw [hrep]
        generalize p m.post = v at hf
        generalize m.events.filterMap report = l at hf
        cases hf with
        | absent => exact .inl ⟨rfl, rfl⟩
        | start hx => exact .inr ⟨_, _, hx, rfl, .nil⟩
      · obtain ⟨z, hz, hrun'⟩ := (hy ▸ hf).append hrun
        exact .inr ⟨x₀, z, hx₀, hz, hrun'⟩

/-! ## Components in a list -/

section List

variable {α : Type u} {l : List α} {i j : Nat} {x y : α}

/-- What is in a list after an entry has joined it. -/
theorem getElem?_concat : (l ++ [x])[i]? = if i = l.length then some x else l[i]? := by
  split
  · rename_i hi
    rw [hi, List.getElem?_concat_length]
  · rename_i hi
    rcases Nat.lt_or_gt_of_ne hi with hlt | hgt
    · rw [List.getElem?_append_left hlt]
    · rw [List.getElem?_eq_none (Nat.le_of_lt hgt),
        List.getElem?_eq_none (by simpa using Nat.succ_le_of_lt hgt)]

theorem getElem?_concat_cases (h : (l ++ [x])[i]? = some y) :
    l[i]? = some y ∨ i = l.length ∧ y = x := by
  rw [getElem?_concat] at h
  split at h
  · rename_i hi
    exact .inr ⟨hi, (Option.some.inj h).symm⟩
  · exact .inl h

/-- What is in it after one of its entries was replaced. -/
theorem getElem?_set_cases (h : (l.set i x)[j]? = some y) :
    i = j ∧ y = x ∨ i ≠ j ∧ l[j]? = some y := by
  by_cases hij : i = j
  · subst hij
    have hlt : i < l.length := by
      simpa using (List.getElem?_eq_some_iff.mp h).1
    rw [List.getElem?_set_self hlt] at h
    exact .inl ⟨rfl, (Option.some.inj h).symm⟩
  · rw [List.getElem?_set_ne hij] at h
    exact .inr ⟨hij, h⟩

end List

end SansIo.Lib
