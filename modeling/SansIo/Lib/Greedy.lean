import Mathlib.Algebra.Order.BigOperators.Group.Multiset
import Mathlib.Algebra.Order.Ring.Nat

/-!
# Greedy allocation

Loads are a multiset of numbers, and a `Greedy` step puts one more on a least load.

* Loads that are not far apart stay so (`Greedy.spread`), since a least load is only put
  above the others by one.
* As long as some load is below the greatest one there was at first, the steps fill up
  what is missing below it.  So after as many steps as that the loads are level, up to
  one, and stay so (`Greedy.filling`, `Filling.level`).
-/

namespace SansIo.Lib

variable {m m' : Multiset ℕ} {d top total k : ℕ}

/-- No load is more than `d` above another. -/
def Spread (d : ℕ) (m : Multiset ℕ) : Prop := ∀ a ∈ m, ∀ b ∈ m, a ≤ b + d

/-- How much is missing until all loads are at the top. -/
def deficit (top : ℕ) (m : Multiset ℕ) : ℕ := (m.map (top - ·)).sum

/-- One more on a least load. -/
inductive Greedy (m : Multiset ℕ) : Multiset ℕ → Prop
  | step {a : ℕ} {rest : Multiset ℕ} (hm : m = a ::ₘ rest) (hleast : ∀ b ∈ rest, a ≤ b) :
      Greedy m ((a + 1) ::ₘ rest)

/-- **A greedy step keeps the loads together.** -/
theorem Greedy.spread (h : Greedy m m') (hd : 1 ≤ d) (hs : Spread d m) : Spread d m' := by
  cases h with
  | @step a rest hm hleast =>
      subst hm
      intro x hx y hy
      rcases Multiset.mem_cons.1 hx with rfl | hx <;> rcases Multiset.mem_cons.1 hy with rfl | hy
      · exact Nat.le_add_right ..
      · exact Nat.add_le_add (hleast y hy) hd
      · have hxa := hs x (Multiset.mem_cons_of_mem hx) a (Multiset.mem_cons_self a rest)
        exact hxa.trans (Nat.add_le_add_right (Nat.le_succ a) d)
      · exact hs x (Multiset.mem_cons_of_mem hx) y (Multiset.mem_cons_of_mem hy)

/-- After `k` steps: the loads are below the top, and have been filled up by `k`; or they
are level, up to one. -/
def Filling (top total k : ℕ) (m : Multiset ℕ) : Prop :=
  ((∀ a ∈ m, a ≤ top) ∧ deficit top m + k = total) ∨ Spread 1 m

theorem filling_zero (h : ∀ a ∈ m, a ≤ top) : Filling top (deficit top m) 0 m :=
  .inl ⟨h, Nat.add_zero _⟩

/-- **A greedy step fills the loads up.** -/
theorem Greedy.filling (h : Greedy m m') (hf : Filling top total k m) :
    Filling top total (k + 1) m' := by
  rcases hf with ⟨htop, hsum⟩ | hlevel
  · cases h with
    | @step a rest hm hleast =>
        subst hm
        have hrest : ∀ b ∈ rest, b ≤ top := fun b hb ↦ htop b (Multiset.mem_cons_of_mem hb)
        rcases (htop a (Multiset.mem_cons_self a rest)).lt_or_eq with hlt | rfl
        · refine .inl ⟨?_, ?_⟩
          · intro b hb
            rcases Multiset.mem_cons.1 hb with rfl | hb
            · exact hlt
            · exact hrest b hb
          · simp only [deficit, Multiset.map_cons, Multiset.sum_cons] at hsum ⊢
            omega
        · -- all loads are at the top
          have hall : ∀ b ∈ rest, b = a := fun b hb ↦ Nat.le_antisymm (hrest b hb) (hleast b hb)
          right
          intro x hx y hy
          rcases Multiset.mem_cons.1 hx with rfl | hx <;>
            rcases Multiset.mem_cons.1 hy with rfl | hy
          · exact Nat.le_add_right ..
          · rw [hall y hy]
          · rw [hall x hx]
            omega
          · rw [hall x hx, hall y hy]
            exact Nat.le_add_right ..
  · exact .inr (h.spread (Nat.le_refl 1) hlevel)

/-- When enough has been filled up, the loads are level. -/
theorem Filling.level (h : Filling top total k m) (hk : total ≤ k) : Spread 1 m := by
  rcases h with ⟨htop, hsum⟩ | hlevel
  · have hzero : deficit top m = 0 := by omega
    have hfull : ∀ a ∈ m, top ≤ a := by
      intro a ha
      have hmem : top - a ∈ m.map (top - ·) := Multiset.mem_map_of_mem _ ha
      have hle : top - a ≤ deficit top m := Multiset.le_sum_of_mem hmem
      rw [hzero] at hle
      exact Nat.le_of_sub_eq_zero (Nat.eq_zero_of_le_zero hle)
    intro a ha b hb
    exact (htop a ha).trans ((hfull b hb).trans (Nat.le_add_right b 1))
  · exact hlevel

end SansIo.Lib
