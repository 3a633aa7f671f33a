import SansIo.Lib.Machine

/-!
# Registries

A registry holds values under keys.  A step of its machine may announce a value under
a key that was vacant, and may release a key; nothing else changes what is held.  So a
value is held exactly since it was announced, as long as its key is not released
(`held_iff`), and no value that is held is ever replaced.
-/

universe u v w

namespace SansIo.Lib

variable {σ : Type u} {lab : Type v} {ε : Type w} {ι α : Type}

/-- What the steps of a registry do to what it holds, in the runs from `s₀`. -/
structure Registry (M : Machine σ lab ε) (s₀ : σ) (held : σ → ι → Option α)
    (announces : Moment σ lab ε → ι → α → Prop) (releases : Moment σ lab ε → ι → Prop) :
    Prop where
  /-- Nothing is held at first. -/
  start : ∀ i, held s₀ i = none
  /-- A value is announced where none was held, and is held from then. -/
  announced : ∀ h m, M.Run s₀ h m.pre → M.Fires m → ∀ i v, announces m i v →
    held m.pre i = none ∧ held m.post i = some v
  /-- A key that is released holds nothing. -/
  released : ∀ h m, M.Run s₀ h m.pre → M.Fires m → ∀ i, releases m i → held m.post i = none
  /-- Nothing else happens to a key. -/
  kept : ∀ h m, M.Run s₀ h m.pre → M.Fires m → ∀ i, (∀ v, ¬ announces m i v) → ¬ releases m i →
    held m.post i = held m.pre i

namespace Registry

variable {M : Machine σ lab ε} {s₀ : σ} {held : σ → ι → Option α}
  {announces : Moment σ lab ε → ι → α → Prop} {releases : Moment σ lab ε → ι → Prop}

/-- A key holds what was announced under it and has not been released since. -/
theorem held_iff (hR : Registry M s₀ held announces releases) {h : History σ lab ε} {s : σ}
    (hr : M.Run s₀ h s) (i : ι) (v : α) :
    held s i = some v ↔ Since (fun m ↦ ¬ releases m i) (fun m ↦ announces m i v) h := by
  induction hr with
  | nil => simp [hR.start]
  | @snoc h m hr hm ih =>
      rw [since_snoc, ← ih]
      by_cases hann : ∃ v', announces m i v'
      · obtain ⟨v', hv'⟩ := hann
        obtain ⟨hpre, hpost⟩ := hR.announced h m hr hm i v' hv'
        constructor
        · intro hv
          cases hpost.symm.trans hv
          exact .inl hv'
        · rintro (hv | ⟨-, hv⟩)
          · exact (hR.announced h m hr hm i v hv).2
          · cases hpre.symm.trans hv
      · have hnone : ∀ v', ¬ announces m i v' := fun v' hv' ↦ hann ⟨v', hv'⟩
        rw [or_iff_right (hnone v)]
        by_cases hrel : releases m i
        · rw [hR.released h m hr hm i hrel]
          simp [hrel]
        · rw [hR.kept h m hr hm i hnone hrel, and_iff_right hrel]

end Registry

end SansIo.Lib
