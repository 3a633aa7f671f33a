import Mathlib.Logic.Function.Basic
import SansIo.Lib.SwapRemove

/-!
# The subscriptions of one worker

`src/bus/local_hub.rs`.  A `BusLocalHub` lists, for each channel, the owners of one
worker that have subscribed to it.  A channel has an entry while it has
subscribers, and no owner is listed twice; both are fields of the structure.

`subscribe` and `unsubscribe` also say whether the worker as a whole has just
started or just stopped to have subscribers, which is when it registers at the bus
that it shares with the other workers.
-/

namespace SansIo.Bus

open SansIo.Lib

variable {Owner ChannelId : Type}

/-- `BusLocalHub`. -/
structure BusLocalHub (Owner ChannelId : Type) where
  /-- The owners of each channel that has an entry. -/
  channels : ChannelId → Option (List Owner)
  /-- No owner is listed twice. -/
  nodup : ∀ {c l}, channels c = some l → l.Nodup
  /-- No entry is empty. -/
  ne_nil : ∀ {c l}, channels c = some l → l ≠ []

namespace BusLocalHub

/-- `Default::default`. -/
def default : BusLocalHub Owner ChannelId :=
  ⟨fun _ ↦ none, fun h ↦ (by cases h), fun h ↦ (by cases h)⟩

/-- `get_subscribers`: a copy of the list of a channel. -/
def getSubscribers (h : BusLocalHub Owner ChannelId) (channel : ChannelId) :
    Option (List Owner) :=
  h.channels channel

/-- The owners subscribed to a channel. -/
def subscribers (h : BusLocalHub Owner ChannelId) (channel : ChannelId) : List Owner :=
  (h.channels channel).getD []

@[simp] theorem subscribers_default (c : ChannelId) :
    (default : BusLocalHub Owner ChannelId).subscribers c = [] := rfl

theorem nodup_subscribers (h : BusLocalHub Owner ChannelId) (c : ChannelId) :
    (h.subscribers c).Nodup := by
  unfold subscribers
  cases hc : h.channels c with
  | none => exact List.nodup_nil
  | some l => exact h.nodup hc

/-- A channel without an entry has no subscribers. -/
theorem getSubscribers_none {h : BusLocalHub Owner ChannelId} {c : ChannelId}
    (hc : h.getSubscribers c = none) : h.subscribers c = [] := by
  rw [getSubscribers] at hc
  simp [subscribers, hc]

theorem getSubscribers_some {h : BusLocalHub Owner ChannelId} {c : ChannelId} {l : List Owner}
    (hc : h.getSubscribers c = some l) : h.subscribers c = l := by
  rw [getSubscribers] at hc
  simp [subscribers, hc]

variable [DecidableEq ChannelId]

/-- A hub with another list for one channel. -/
def put (h : BusLocalHub Owner ChannelId) (channel : ChannelId) (l : List Owner)
    (hl : l.Nodup) (hne : l ≠ []) : BusLocalHub Owner ChannelId where
  channels := Function.update h.channels channel (some l)
  nodup {c l'} hc := by
    rcases eq_or_ne c channel with rfl | hne'
    · rw [Function.update_self] at hc
      cases hc
      exact hl
    · exact h.nodup (by rwa [Function.update_of_ne hne'] at hc)
  ne_nil {c l'} hc := by
    rcases eq_or_ne c channel with rfl | hne'
    · rw [Function.update_self] at hc
      cases hc
      exact hne
    · exact h.ne_nil (by rwa [Function.update_of_ne hne'] at hc)

/-- A hub without an entry for one channel. -/
def remove (h : BusLocalHub Owner ChannelId) (channel : ChannelId) :
    BusLocalHub Owner ChannelId where
  channels := Function.update h.channels channel none
  nodup {c l'} hc := by
    rcases eq_or_ne c channel with rfl | hne
    · rw [Function.update_self] at hc
      cases hc
    · exact h.nodup (by rwa [Function.update_of_ne hne] at hc)
  ne_nil {c l'} hc := by
    rcases eq_or_ne c channel with rfl | hne
    · rw [Function.update_self] at hc
      cases hc
    · exact h.ne_nil (by rwa [Function.update_of_ne hne] at hc)

@[simp] theorem subscribers_put (h : BusLocalHub Owner ChannelId) (channel : ChannelId)
    (l : List Owner) (hl : l.Nodup) (hne : l ≠ []) (c : ChannelId) :
    (h.put channel l hl hne).subscribers c = if c = channel then l else h.subscribers c := by
  by_cases hc : c = channel <;> simp [put, subscribers, hc]

@[simp] theorem subscribers_remove (h : BusLocalHub Owner ChannelId) (channel c : ChannelId) :
    (h.remove channel).subscribers c = if c = channel then [] else h.subscribers c := by
  by_cases hc : c = channel <;> simp [remove, subscribers, hc]

variable [DecidableEq Owner]

/-- `subscribe`.  Where the owner is listed already, `entry(..).or_default()` finds
the entry and adds none. -/
def subscribe (h : BusLocalHub Owner ChannelId) (owner : Owner) (channel : ChannelId) :
    Bool × BusLocalHub Owner ChannelId :=
  let entry := h.subscribers channel
  if hmem : owner ∈ entry then (false, h)
  else
    ((entry ++ [owner]).length == 1, h.put channel (entry ++ [owner])
      (List.nodup_append.mpr ⟨h.nodup_subscribers channel, List.nodup_singleton owner,
        fun a ha b hb he ↦ hmem (List.mem_singleton.mp hb ▸ he ▸ ha)⟩)
      (by simp))

/-- `unsubscribe`. -/
def unsubscribe (h : BusLocalHub Owner ChannelId) (owner : Owner) (channel : ChannelId) :
    Bool × BusLocalHub Owner ChannelId :=
  match hc : h.channels channel with
  | none => (false, h)
  | some entry =>
    if owner ∈ entry then
      if hne : discard entry owner = [] then (true, h.remove channel)
      else (false, h.put channel (discard entry owner) (nodup_discard (h.nodup hc) owner) hne)
    else (false, h)

/-! ## What the operations do to the lists -/

theorem subscribers_subscribe (h : BusLocalHub Owner ChannelId) (o : Owner) (c c' : ChannelId) :
    (h.subscribe o c).2.subscribers c' =
      if c' = c ∧ o ∉ h.subscribers c then h.subscribers c ++ [o] else h.subscribers c' := by
  unfold subscribe
  by_cases hmem : o ∈ h.subscribers c
  · simp [hmem]
  · by_cases hc : c' = c <;> simp [hmem, hc]

/-- `subscribe` returns `true` on the first subscriber of a channel. -/
theorem subscribe_fst (h : BusLocalHub Owner ChannelId) (o : Owner) (c : ChannelId) :
    (h.subscribe o c).1 = true ↔ h.subscribers c = [] := by
  unfold subscribe
  by_cases hmem : o ∈ h.subscribers c
  · simp [hmem, List.ne_nil_of_mem hmem]
  · simp [hmem]

theorem mem_subscribe (h : BusLocalHub Owner ChannelId) (o o' : Owner) (c c' : ChannelId) :
    o' ∈ (h.subscribe o c).2.subscribers c' ↔ (o' = o ∧ c' = c) ∨ o' ∈ h.subscribers c' := by
  rw [subscribers_subscribe]
  by_cases hc : c' = c
  · subst hc
    by_cases hmem : o ∈ h.subscribers c'
    · simp only [hmem, not_true_eq_false, and_false, if_false, and_true]
      exact ⟨.inr, fun ho ↦ ho.elim (fun he ↦ he ▸ hmem) id⟩
    · simp [hmem, or_comm]
  · simp [hc]

theorem subscribers_unsubscribe (h : BusLocalHub Owner ChannelId) (o : Owner)
    (c c' : ChannelId) :
    (h.unsubscribe o c).2.subscribers c' =
      if c' = c ∧ o ∈ h.subscribers c then discard (h.subscribers c) o
      else h.subscribers c' := by
  unfold unsubscribe
  split
  · rename_i hc
    have hnil : h.subscribers c = [] := getSubscribers_none hc
    simp [hnil]
  · rename_i entry hc
    have hentry : h.subscribers c = entry := getSubscribers_some hc
    rw [hentry]
    by_cases hmem : o ∈ entry
    · by_cases hne : discard entry o = []
      · by_cases hcc : c' = c <;> simp [hmem, hne, hcc]
      · by_cases hcc : c' = c <;> simp [hmem, hne, hcc]
    · simp [hmem]

theorem mem_unsubscribe (h : BusLocalHub Owner ChannelId) (o o' : Owner) (c c' : ChannelId) :
    o' ∈ (h.unsubscribe o c).2.subscribers c' ↔ ¬(o' = o ∧ c' = c) ∧ o' ∈ h.subscribers c' := by
  rw [subscribers_unsubscribe]
  by_cases hc : c' = c
  · subst hc
    by_cases hmem : o ∈ h.subscribers c'
    · simp [hmem, mem_discard (h.nodup_subscribers c')]
    · simp only [hmem, and_false, if_false, and_true, iff_and_self]
      rintro ho' rfl
      exact hmem ho'
  · simp [hc]

/-- `unsubscribe` returns `true` when the last subscriber of a channel has left. -/
theorem unsubscribe_fst (h : BusLocalHub Owner ChannelId) (o : Owner) (c : ChannelId) :
    (h.unsubscribe o c).1 = true ↔
      h.subscribers c ≠ [] ∧ (h.unsubscribe o c).2.subscribers c = [] := by
  rw [subscribers_unsubscribe]
  unfold unsubscribe
  split
  · rename_i hc
    have hnil : h.subscribers c = [] := getSubscribers_none hc
    simp [hnil]
  · rename_i entry hc
    have hentry : h.subscribers c = entry := getSubscribers_some hc
    rw [hentry]
    by_cases hmem : o ∈ entry
    · by_cases hne : discard entry o = []
      · simp [hmem, hne, List.ne_nil_of_mem hmem]
      · simp [hmem, hne]
    · simp only [hmem, if_false, and_false]
      simp +contextual

/-- Which channels have subscribers after a `subscribe`. -/
theorem subscribe_ne_nil (h : BusLocalHub Owner ChannelId) (o : Owner) (c c' : ChannelId) :
    (h.subscribe o c).2.subscribers c' ≠ [] ↔ c' = c ∨ h.subscribers c' ≠ [] := by
  rw [subscribers_subscribe]
  by_cases hc : c' = c
  · subst hc
    by_cases hmem : o ∈ h.subscribers c'
    · simp [hmem, List.ne_nil_of_mem hmem]
    · simp [hmem]
  · simp [hc]

/-- Which channels have subscribers after an `unsubscribe`: those that had, but for
the one that it says has lost its last. -/
theorem unsubscribe_ne_nil (h : BusLocalHub Owner ChannelId) (o : Owner) (c c' : ChannelId) :
    (h.unsubscribe o c).2.subscribers c' ≠ [] ↔
      ¬((h.unsubscribe o c).1 = true ∧ c' = c) ∧ h.subscribers c' ≠ [] := by
  rw [unsubscribe_fst]
  by_cases hc : c' = c
  · subst hc
    have hsub : (h.unsubscribe o c').2.subscribers c' ≠ [] → h.subscribers c' ≠ [] := by
      intro hne
      obtain ⟨x, hx⟩ := List.exists_mem_of_ne_nil _ hne
      exact List.ne_nil_of_mem ((mem_unsubscribe h o x c' c').mp hx).2
    tauto
  · rw [subscribers_unsubscribe]
    simp [hc]

end BusLocalHub

end SansIo.Bus
