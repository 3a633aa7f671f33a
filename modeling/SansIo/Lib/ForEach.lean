import Mathlib.Data.List.Nodup
import Mathlib.Logic.Function.Basic
import SansIo.Lib.Loop

/-!
# Loops that are led by flags

A state has parts, one for each index, and a flag for each part.  A loop takes the first
part, in some order, that is flagged, has it make a turn, and keeps or clears its flag as
the turn says; it ends when no part is flagged.  The turn of a part changes that part
alone, and may put something out.

Such a loop is a plain one: `for k in order, if k is flagged, let part k make turns until
one clears its flag`.  `Led.runs_iff` says that the two put out the same, in the same
order, and leave the same parts behind.  So what is known of one part by itself is known of
it in the loop.
-/

universe u v w

namespace SansIo.Lib

variable {σ : Type u} {κ : Type v} {L : κ → Type w} {α : Type u}

/-- A loop goes on as long as there is a next state, and collects what is put out. -/
inductive Runs (next : σ → Option (List α × σ)) : σ → List α → σ → Prop
  | /-- There is none. -/ done {s} (h : next s = none) : Runs next s [] s
  | /-- It goes on from there. -/
    step {s out s' rest s''} (h : next s = some (out, s')) (hrest : Runs next s' rest s'') :
      Runs next s (out ++ rest) s''

section Turns

variable {ρ : Type v} {body : σ → σ ⊕ ρ} {shows : σ → List α}

/-- A turn of a loop, with what it shows, unless the loop is left. -/
def Loop.next (body : σ → σ ⊕ ρ) (shows : σ → List α) (s : σ) : Option (List α × σ) :=
  match body s with
  | .inl s' => some (shows s, s')
  | .inr _ => none

/-- What a loop shows is what its turns put out, and what it shows where it is left. -/
theorem Loop.returns_traced_iff {s : σ} {before after : List α} {r : ρ} :
    Loop.Returns (Loop.traced body shows) (s, before) (r, after) ↔
      ∃ out s', Runs (Loop.next body shows) s out s' ∧ body s' = .inr r ∧
        after = before ++ out ++ shows s' := by
  constructor
  · intro h
    generalize hx : (s, before) = x at h
    generalize hy : (r, after) = y at h
    induction h generalizing s before with
    | leave hleave =>
        subst hx hy
        obtain ⟨hbody, rfl⟩ := Loop.traced_inr.mp hleave
        exact ⟨[], s, .done (by simp only [Loop.next, hbody]), hbody, by simp⟩
    | @again x y _ hagain _ ih =>
        subst hx
        obtain ⟨hbody, hshows⟩ := Loop.traced_inl.mp hagain
        obtain ⟨out, s', hr, hleave, rfl⟩ := ih rfl hy
        refine ⟨shows s ++ out, s', .step ?_ hr, hleave, ?_⟩
        · simp only [Loop.next, hbody]
        · rw [← hshows, List.append_assoc before]
  · rintro ⟨out, s', hr, hleave, rfl⟩
    induction hr generalizing before with
    | done => exact .leave (Loop.traced_inr.mpr ⟨hleave, by simp⟩)
    | @step s out s₁ rest s' hnext _ ih =>
        unfold Loop.next at hnext
        split at hnext
        · rename_i hbody
          cases hnext
          rw [← List.append_assoc before]
          exact .again (Loop.traced_inl.mpr ⟨hbody, rfl⟩) (ih hleave)
        · cases hnext

end Turns

/-- A part by itself makes turns until one clears its flag. -/
inductive Drains {P : Type w} (turn : P → List α × Bool × P) : P → List α → P → Prop
  | /-- This turn clears it. -/
    last {x out y} (h : turn x = (out, false, y)) : Drains turn x out y
  | /-- This turn keeps it. -/
    more {x out y rest z} (h : turn x = (out, true, y)) (hrest : Drains turn y rest z) :
      Drains turn x (out ++ rest) z

/-- The plain loop: every part that is flagged is drained, one after the other, and puts
out what `f` says. -/
structure ForEach (turn : ∀ k, L k → List α × Bool × L k) (order : List κ) (flag : κ → Bool)
    (x : ∀ k, L k) (f : κ → List α) (z : ∀ k, L k) : Prop where
  /-- A part that is flagged is drained. -/
  drains : ∀ k ∈ order, flag k = true → Drains (turn k) (x k) (f k) (z k)
  /-- Any other part stays as it is. -/
  stays : ∀ k, k ∉ order ∨ flag k = false → z k = x k

/-- What the plain loop puts out. -/
def inOrder (order : List κ) (flag : κ → Bool) (f : κ → List α) : List α :=
  (order.filter flag).flatMap f

variable [DecidableEq κ]

/-- A loop is led by flags, in states that satisfy an invariant. -/
structure Led (turn : ∀ k, L k → List α × Bool × L k) (order : List κ)
    (loc : σ → ∀ k, L k) (flag : σ → κ → Bool) (inv : σ → Prop)
    (next : σ → Option (List α × σ)) : Prop where
  /-- No part is taken twice. -/
  nodup : order.Nodup
  /-- It ends where no part is flagged. -/
  done : ∀ s, inv s → order.find? (flag s) = none → next s = none
  /-- Otherwise the first part that is flagged makes a turn. -/
  step : ∀ s k, inv s → order.find? (flag s) = some k →
    ∃ s', next s = some ((turn k (loc s k)).1, s') ∧
      loc s' = Function.update (loc s) k (turn k (loc s k)).2.2 ∧
      flag s' = Function.update (flag s) k (turn k (loc s k)).2.1 ∧ inv s'

namespace Led

variable {turn : ∀ k, L k → List α × Bool × L k} {order : List κ} {loc : σ → ∀ k, L k}
  {flag : σ → κ → Bool} {inv : σ → Prop} {next : σ → Option (List α × σ)}

/-- What a list of flagged indices is, where the first of them is known. -/
theorem filter_eq_cons {p : κ → Bool} {k : κ} (hnodup : order.Nodup)
    (hk : order.find? p = some k) :
    order.filter p = k :: order.filter (Function.update p k false) := by
  obtain ⟨hpk, before, after, rfl, hbefore⟩ := List.find?_eq_some_iff_append.mp hk
  have hnone : before.filter p = [] := by
    rw [List.filter_eq_nil_iff]
    intro j hj
    simpa using hbefore j hj
  have hk' : k ∉ before ∧ k ∉ after := by
    have hcons := List.nodup_append.mp hnodup
    exact ⟨fun hmem ↦ hcons.2.2 k hmem k List.mem_cons_self rfl,
      (List.nodup_cons.mp hcons.2.1).1⟩
  have hsame : ∀ l : List κ, k ∉ l → l.filter (Function.update p k false) = l.filter p := by
    intro l hl
    refine List.filter_congr fun j hj ↦ ?_
    rw [Function.update_of_ne]
    rintro rfl
    exact hl hj
  rw [List.filter_append, List.filter_append, List.filter_cons_of_pos hpk,
    List.filter_cons_of_neg (by simp), hsame before hk'.1, hsame after hk'.2, hnone,
    List.nil_append, List.nil_append]

/-- What a part puts out does not matter where it is not in the list. -/
theorem flatMap_update {l : List κ} {k : κ} (hk : k ∉ l) (f : κ → List α) (out : List α) :
    l.flatMap (Function.update f k out) = l.flatMap f := by
  refine List.flatMap_congr fun j hj ↦ ?_
  rw [Function.update_of_ne]
  rintro rfl
  exact hk hj

/-- What the plain loop puts out, the first part first. -/
theorem inOrder_eq {p : κ → Bool} {k : κ} (hnodup : order.Nodup)
    (hk : order.find? p = some k) (f : κ → List α) (out : List α) :
    inOrder order p (Function.update f k out) =
      out ++ inOrder order (Function.update p k false) f := by
  rw [inOrder, filter_eq_cons hnodup hk, List.flatMap_cons, Function.update_self,
    flatMap_update (by simp), inOrder]

/-- What the loop puts out is what the plain loop puts out, and it leaves the same parts
behind, none of them flagged. -/
theorem forEach_of_runs (h : Led turn order loc flag inv next) {s s' : σ} {es : List α}
    (hr : Runs next s es s') (hs : inv s) :
    inv s' ∧ (∀ k ∈ order, flag s' k = false) ∧
      ∃ f, ForEach turn order (flag s) (loc s) f (loc s') ∧ es = inOrder order (flag s) f := by
  induction hr with
  | @done s hnext =>
      have hnone : order.find? (flag s) = none := by
        cases hk : order.find? (flag s) with
        | none => rfl
        | some k =>
            obtain ⟨s', hstep, -⟩ := h.step s k hs hk
            cases hnext.symm.trans hstep
      have hclear : ∀ k ∈ order, flag s k = false := by
        simpa using List.find?_eq_none.mp hnone
      refine ⟨hs, hclear, fun _ ↦ [], ⟨fun k hk hflag ↦ ?_, fun _ _ ↦ rfl⟩, ?_⟩
      · cases (hclear k hk).symm.trans hflag
      · simp [inOrder]
  | @step s out s₁ rest s' hnext _ ih =>
      cases hk : order.find? (flag s) with
      | none => cases hnext.symm.trans (h.done s hs hk)
      | some k =>
          obtain ⟨s₁', hstep, hloc, hflag, hinv⟩ := h.step s k hs hk
          cases hnext.symm.trans hstep
          obtain ⟨hinv', hclear, f, hf, rfl⟩ := ih hinv
          refine ⟨hinv', hclear, ?_⟩
          have hflagged : flag s k = true := List.find?_some hk
          have hmem : k ∈ order := List.mem_of_find?_eq_some hk
          have hstays : ∀ j, j ∉ order ∨ flag s j = false → loc s' j = loc s j := by
            intro j hj
            have hne : j ≠ k := by
              rintro rfl
              rcases hj with hj | hj
              · exact hj hmem
              · cases hj.symm.trans hflagged
            rw [hf.stays j (by rw [hflag, Function.update_of_ne hne]; exact hj), hloc,
              Function.update_of_ne hne]
          have hothers : ∀ j ∈ order, flag s j = true → j ≠ k →
              Drains (turn j) (loc s j) (f j) (loc s' j) := by
            intro j hj hjflag hne
            have hdrains := hf.drains j hj (by rw [hflag, Function.update_of_ne hne]; exact hjflag)
            rwa [hloc, Function.update_of_ne hne] at hdrains
          rcases hturn : turn k (loc s k) with ⟨out, again, y⟩
          rw [hturn] at hloc hflag
          cases again with
          | true =>
              have hsame : flag s₁ = flag s := by
                rw [hflag, ← hflagged, Function.update_eq_self]
              refine ⟨Function.update f k (out ++ f k), ⟨fun j hj hjflag ↦ ?_, hstays⟩, ?_⟩
              · rcases eq_or_ne j k with rfl | hne
                · have hdrains := hf.drains j hj (hsame ▸ hjflag)
                  rw [hloc, Function.update_self] at hdrains
                  rw [Function.update_self]
                  exact .more hturn hdrains
                · rw [Function.update_of_ne hne]
                  exact hothers j hj hjflag hne
              · have hf' : Function.update f k (f k) = f := Function.update_eq_self k f
                rw [hsame, inOrder_eq h.nodup hk, List.append_assoc, ← inOrder_eq h.nodup hk, hf']
          | false =>
              refine ⟨Function.update f k out, ⟨fun j hj hjflag ↦ ?_, hstays⟩, ?_⟩
              · rcases eq_or_ne j k with rfl | hne
                · rw [Function.update_self, hf.stays j (by simp [hflag]), hloc,
                    Function.update_self]
                  exact .last hturn
                · rw [Function.update_of_ne hne]
                  exact hothers j hj hjflag hne
              · rw [hflag, inOrder_eq h.nodup hk]

/-- The first part is drained before any other makes a turn. -/
theorem drain_first (h : Led turn order loc flag inv next) {k : κ} {x z : L k} {out : List α}
    (hd : Drains (turn k) x out z) {s : σ} (hs : inv s) (hk : order.find? (flag s) = some k)
    (hx : loc s k = x) :
    ∃ s', inv s' ∧ loc s' = Function.update (loc s) k z ∧
      flag s' = Function.update (flag s) k false ∧
      ∀ es t, Runs next s' es t → Runs next s (out ++ es) t := by
  induction hd generalizing s with
  | @last x out y hturn =>
      subst hx
      obtain ⟨s', hstep, hloc, hflag, hinv⟩ := h.step s k hs hk
      rw [hturn] at hstep hloc hflag
      exact ⟨s', hinv, hloc, hflag, fun es t hr ↦ .step hstep hr⟩
  | @more x out y rest z hturn _ ih =>
      subst hx
      obtain ⟨s₁, hstep, hloc, hflag, hinv⟩ := h.step s k hs hk
      rw [hturn] at hstep hloc hflag
      have hsame : flag s₁ = flag s := by
        rw [hflag, ← List.find?_some hk, Function.update_eq_self]
      obtain ⟨s', hinv', hloc', hflag', hruns⟩ :=
        ih hinv (hsame ▸ hk) (by rw [hloc, Function.update_self])
      refine ⟨s', hinv', ?_, by rw [hflag', hsame], fun es t hr ↦ ?_⟩
      · rw [hloc', hloc, Function.update_idem]
      · rw [List.append_assoc]
        exact .step hstep (hruns es t hr)

/-- Conversely, where the plain loop ends, so does the loop. -/
theorem runs_of_forEach (h : Led turn order loc flag inv next) {s : σ} {z : ∀ k, L k}
    {f : κ → List α} (hs : inv s) (hf : ForEach turn order (flag s) (loc s) f z) :
    ∃ s', Runs next s (inOrder order (flag s) f) s' ∧ loc s' = z := by
  generalize hl : order.filter (flag s) = l
  induction l generalizing s with
  | nil =>
      have hclear : ∀ k ∈ order, ¬ flag s k = true := List.filter_eq_nil_iff.mp hl
      have hnone : order.find? (flag s) = none := List.find?_eq_none.mpr hclear
      refine ⟨s, ?_, funext fun k ↦ (hf.stays k ?_).symm⟩
      · rw [inOrder, hl]
        exact .done (h.done s hs hnone)
      · by_cases hk : k ∈ order
        · exact .inr (by simpa using hclear k hk)
        · exact .inl hk
  | cons k l ih =>
      have hk : order.find? (flag s) = some k := by
        rw [← List.head?_filter, hl]
        rfl
      have hmem := List.mem_of_find?_eq_some hk
      obtain ⟨s₁, hinv, hloc, hflag, hruns⟩ :=
        h.drain_first (hf.drains k hmem (List.find?_some hk)) hs hk rfl
      have hl' : order.filter (flag s₁) = l := by
        rw [hflag]
        exact (List.cons.inj ((filter_eq_cons h.nodup hk).symm.trans hl)).2
      have hrest : ForEach turn order (flag s₁) (loc s₁) f z := by
        constructor
        · intro j hj hjflag
          rcases eq_or_ne j k with rfl | hne
          · rw [hflag, Function.update_self] at hjflag
            cases hjflag
          · rw [hflag, Function.update_of_ne hne] at hjflag
            rw [hloc, Function.update_of_ne hne]
            exact hf.drains j hj hjflag
        · intro j hj
          rcases eq_or_ne j k with rfl | hne
          · rw [hloc, Function.update_self]
          · rw [hflag, Function.update_of_ne hne] at hj
            rw [hloc, Function.update_of_ne hne]
            exact hf.stays j hj
      obtain ⟨s', hr, hz⟩ := ih hinv hrest hl'
      refine ⟨s', ?_, hz⟩
      have hf' : Function.update f k (f k) = f := Function.update_eq_self k f
      rw [← hf', inOrder_eq h.nodup hk, ← hflag]
      exact hruns _ _ hr

/-- **A loop that is led by flags is a plain loop.** -/
theorem runs_iff (h : Led turn order loc flag inv next) {s : σ} (hs : inv s) (es : List α)
    (z : ∀ k, L k) :
    (∃ s', Runs next s es s' ∧ loc s' = z) ↔
      ∃ f, ForEach turn order (flag s) (loc s) f z ∧ es = inOrder order (flag s) f := by
  constructor
  · rintro ⟨s', hr, rfl⟩
    exact (h.forEach_of_runs hr hs).2.2
  · rintro ⟨f, hf, rfl⟩
    exact h.runs_of_forEach hs hf

end Led

end SansIo.Lib
