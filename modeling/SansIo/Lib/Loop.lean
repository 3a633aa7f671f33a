import Mathlib.Data.List.Basic

/-!
# Loops

A loop is its body, a function `σ → σ ⊕ ρ`: one turn either goes round again in a
new state or leaves with a result.  `Returns body s r` says that the loop entered
in `s` leaves with `r` after finitely many turns, and `Visits body s t` that it
comes through `t` on the way.

* `Returns.exit` and `Visits.invariant` are the invariant rule;
* `returns_of_rank` is the variant rule: a loop whose turns lower a rank leaves.
  The rank is a relation between a number and a state, so it may speak of data
  that the state does not hold;
* `run` is the result of a loop that some measure shows to leave, which makes a
  loop of a program a total function;
* `traced` is the body of a loop that also collects what its turns show;
* a loop that `Scans` goes through indices until it finds something.
-/

universe u v w

namespace SansIo.Lib.Loop

variable {σ : Type u} {ρ : Type v}

/-- The loop entered in a state leaves with a result. -/
inductive Returns (body : σ → σ ⊕ ρ) : σ → ρ → Prop
  | /-- This turn leaves. -/ leave {s r} : body s = .inr r → Returns body s r
  | /-- This turn goes round again. -/
    again {s s' r} : body s = .inl s' → Returns body s' r → Returns body s r

/-- The loop entered in a state comes through another one. -/
inductive Visits (body : σ → σ ⊕ ρ) (s : σ) : σ → Prop
  | /-- It starts where it is entered. -/ start : Visits body s s
  | /-- It goes round once more. -/
    turn {t t'} : Visits body s t → body t = .inl t' → Visits body s t'

variable {body : σ → σ ⊕ ρ}

/-- A loop leaves with one result. -/
theorem Returns.unique {s : σ} {r r' : ρ} (h : Returns body s r) (h' : Returns body s r') :
    r = r' := by
  induction h with
  | leave hb =>
      cases h' with
      | leave hb' => exact Sum.inr.inj (hb.symm.trans hb')
      | again hb' _ => cases hb.symm.trans hb'
  | again hb _ ih =>
      cases h' with
      | leave hb' => cases hb.symm.trans hb'
      | again hb' hr =>
          cases hb.symm.trans hb'
          exact ih hr

/-- What holds on entry and is kept by every turn holds wherever the loop comes
through. -/
theorem Visits.invariant {I : σ → Prop} (hturn : ∀ s s', I s → body s = .inl s' → I s')
    {s t : σ} (h : Visits body s t) (hs : I s) : I t := by
  induction h with
  | start => exact hs
  | turn _ hb ih => exact hturn _ _ ih hb

/-- The result of a loop comes from a turn that leaves, in a state that the loop
visits. -/
theorem Returns.exit {s : σ} {r : ρ} (h : Returns body s r) :
    ∃ t, Visits body s t ∧ body t = .inr r := by
  suffices ∀ s₀, Visits body s₀ s → ∃ t, Visits body s₀ t ∧ body t = .inr r from
    this s .start
  induction h with
  | leave hb => exact fun s₀ hv ↦ ⟨_, hv, hb⟩
  | again hb _ ih => exact fun s₀ hv ↦ ih s₀ (hv.turn hb)

/-- A loop whose turns follow those of another leaves where that one does. -/
theorem Returns.map {σ' : Type u} {ρ' : Type v} {body' : σ' → σ' ⊕ ρ'} {f : σ → σ'} {g : ρ → ρ'}
    (hbody : ∀ s, body' (f s) = (body s).map f g) {s : σ} {r : ρ} (h : Returns body s r) :
    Returns body' (f s) (g r) := by
  induction h with
  | leave hb => exact .leave (by rw [hbody, hb, Sum.map_inr])
  | again hb _ ih => exact .again (by rw [hbody, hb, Sum.map_inl]) ih

/-- **The variant rule.**  If every state of some rank either leaves or goes round
to a state of a lower rank, then the loop leaves from any state that has one. -/
theorem returns_of_rank {R : Nat → σ → Prop}
    (h : ∀ N s, R N s → (∃ r, body s = .inr r) ∨
      ∃ s' N', body s = .inl s' ∧ N' < N ∧ R N' s')
    {N : Nat} {s : σ} (hs : R N s) : ∃ r, Returns body s r := by
  induction N using Nat.strongRecOn generalizing s with
  | ind N ih =>
      obtain ⟨r, hb⟩ | ⟨s', N', hb, hlt, hs'⟩ := h N s hs
      · exact ⟨r, .leave hb⟩
      · obtain ⟨r, hr⟩ := ih N' hlt hs'
        exact ⟨r, .again hb hr⟩

/-- The result of a loop whose measure is below a bound on the turns left. -/
def runWithin (body : σ → σ ⊕ ρ) (μ : σ → Nat) (hμ : ∀ s s', body s = .inl s' → μ s' < μ s) :
    (k : Nat) → (s : σ) → μ s < k → ρ
  | 0, _, h => absurd h (Nat.not_lt_zero _)
  | k + 1, s, h => match hb : body s with
    | .inr r => r
    | .inl s' => runWithin body μ hμ k s' (Nat.lt_of_lt_of_le (hμ s s' hb) (Nat.le_of_lt_succ h))

/-- The result of a loop whose turns lower a measure. -/
def run (body : σ → σ ⊕ ρ) (μ : σ → Nat) (hμ : ∀ s s', body s = .inl s' → μ s' < μ s)
    (s : σ) : ρ :=
  runWithin body μ hμ (μ s + 1) s (Nat.lt_succ_self _)

variable {μ : σ → Nat} {hμ : ∀ s s', body s = .inl s' → μ s' < μ s}

theorem returns_runWithin (k : Nat) (s : σ) (h : μ s < k) :
    Returns body s (runWithin body μ hμ k s h) := by
  induction k generalizing s with
  | zero => exact absurd h (Nat.not_lt_zero _)
  | succ k ih =>
      rw [runWithin]
      split
      · rename_i r hb
        exact .leave hb
      · rename_i s' hb
        exact .again hb (ih s' _)

/-- The loop does leave with it. -/
theorem returns_run (s : σ) : Returns body s (run body μ hμ s) := returns_runWithin ..

/-- To know the result it is enough to follow the loop to where it leaves. -/
theorem run_eq {s : σ} {r : ρ} (h : Returns body s r) : run body μ hμ s = r :=
  (returns_run s).unique h

/-! ## What the turns show -/

section Traced

variable {ε : Type w}

/-- The body of a loop that also collects what its turns show, in order. -/
def traced (body : σ → σ ⊕ ρ) (shows : σ → List ε) :
    σ × List ε → (σ × List ε) ⊕ (ρ × List ε)
  | (s, l) => (body s).map (·, l ++ shows s) (·, l ++ shows s)

variable {shows : σ → List ε}

theorem traced_inl {s s' : σ} {l l' : List ε} :
    traced body shows (s, l) = .inl (s', l') ↔ body s = .inl s' ∧ l ++ shows s = l' := by
  rw [traced]
  cases body s with
  | inl t => simp
  | inr r => simp

theorem traced_inr {s : σ} {r : ρ} {l l' : List ε} :
    traced body shows (s, l) = .inr (r, l') ↔ body s = .inr r ∧ l ++ shows s = l' := by
  rw [traced]
  cases body s with
  | inl t => simp
  | inr r => simp

/-- The result of a loop does not depend on what its turns show. -/
theorem Returns.of_traced {s : σ} {r : ρ} {l l' : List ε}
    (h : Returns (traced body shows) (s, l) (r, l')) : Returns body s r := by
  generalize hs : (s, l) = x at h
  generalize hr : (r, l') = y at h
  induction h generalizing s l with
  | leave hb =>
      cases hs
      cases hr
      exact .leave (traced_inr.1 hb).1
  | @again _ t _ hb _ ih =>
      cases hs
      exact .again (traced_inl.1 hb).1 (ih rfl hr)

/-- A loop whose turns follow those of another, and show the same, shows the same. -/
theorem traced_map {σ' : Type u} {ρ' : Type v} {body' : σ' → σ' ⊕ ρ'} {shows' : σ' → List ε}
    {f : σ → σ'} {g : ρ → ρ'} (hbody : ∀ s, body' (f s) = (body s).map f g)
    (hshows : ∀ s, shows' (f s) = shows s) (x : σ × List ε) :
    traced body' shows' (x.map f id) =
      (traced body shows x).map (Prod.map f id) (Prod.map g id) := by
  obtain ⟨s, l⟩ := x
  simp only [traced, Prod.map, id, hbody, hshows]
  cases body s <;> rfl

end Traced

/-! ## Going through indices -/

/-- The loop goes through the indices up to a last one, until there is something at one. -/
structure Scans (body : Nat → Nat ⊕ ρ) (at? : Nat → Option ρ) (last : Nat) (done : ρ) : Prop where
  found : ∀ i r, at? i = some r → body i = .inr r
  next : ∀ i < last, at? i = none → body i = .inl (i + 1)
  last : at? last = none → body last = .inr done

/-- **Such a loop finds what comes first**, and shows the indices up to there. -/
theorem Scans.returns {body : Nat → Nat ⊕ ρ} {at? : Nat → Option ρ} {last : Nat} {done : ρ}
    (h : Scans body at? last done) {k : Nat} (hk : k ≤ last) (l : List Nat) :
    (∃ i r, k ≤ i ∧ i ≤ last ∧ at? i = some r ∧ (∀ j, k ≤ j → j < i → at? j = none) ∧
      Returns (traced body ([·])) (k, l) (r, l ++ List.range' k (i + 1 - k))) ∨
    ((∀ j, k ≤ j → j ≤ last → at? j = none) ∧
      Returns (traced body ([·])) (k, l) (done, l ++ List.range' k (last + 1 - k))) := by
  have hone : k + 1 - k = 1 := Nat.add_sub_cancel_left k 1
  induction hd : last - k using Nat.strongRecOn generalizing k l with
  | ind d ih =>
      cases hf : at? k with
      | some r =>
          refine .inl ⟨k, r, Nat.le_refl k, hk, hf, fun j hj hlt ↦ absurd hlt (Nat.not_lt.2 hj), ?_⟩
          rw [hone]
          exact .leave (traced_inr.2 ⟨h.found k r hf, rfl⟩)
      | none =>
          rcases Nat.eq_or_lt_of_le hk with rfl | hlt
          · refine .inr ⟨fun j hj hle ↦ Nat.le_antisymm hle hj ▸ hf, ?_⟩
            rw [hone]
            exact .leave (traced_inr.2 ⟨h.last hf, rfl⟩)
          · have hturn : traced body ([·]) (k, l) = .inl (k + 1, l ++ [k]) :=
              traced_inl.2 ⟨h.next k hlt hf, rfl⟩
            have hnone : ∀ j, k ≤ j → (k + 1 ≤ j → at? j = none) → at? j = none := by
              intro j hj hrest
              rcases Nat.eq_or_lt_of_le hj with rfl | hj
              · exact hf
              · exact hrest hj
            have hrange : ∀ i, k + 1 ≤ i →
                l ++ [k] ++ List.range' (k + 1) (i + 1 - (k + 1)) =
                  l ++ List.range' k (i + 1 - k) := by
              intro i hi
              rw [show i + 1 - k = i + 1 - (k + 1) + 1 by omega, List.range'_succ,
                List.append_assoc, List.singleton_append]
            rcases ih (last - (k + 1)) (by omega) hlt (l ++ [k]) (Nat.add_sub_cancel_left ..) rfl
              with ⟨i, r, hi, hile, hfound, hbefore, hret⟩ | ⟨hall, hret⟩
            · refine .inl ⟨i, r, Nat.le_of_succ_le hi, hile, hfound, fun j hj hji ↦ ?_, ?_⟩
              · exact hnone j hj fun hkj ↦ hbefore j hkj hji
              · rw [← hrange i hi]
                exact .again hturn hret
            · refine .inr ⟨fun j hj hjle ↦ hnone j hj fun hkj ↦ hall j hkj hjle, ?_⟩
              rw [← hrange last hlt]
              exact .again hturn hret

end SansIo.Lib.Loop
