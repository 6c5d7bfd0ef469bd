import Mathlib

/-!
# Queues under keys

A map from keys to queues, as a program keeps it that has one queue for each key and no entry for a key
whose queue is empty.

* `Queues.total` — the length of all queues together, with what one insertion or deletion does to it.
* `Queues.flatMap_filter` — what is done to all queues, one after another, restricted to one key.
-/

namespace Queues

open List

variable {κ α : Type*} {cmp : κ → κ → Ordering} [Std.TransCmp cmp]

/-- The queue of a key. -/
def queue (m : Std.ExtTreeMap κ (List α) cmp) (k : κ) : List α := (m[k]?).getD []

/-- The length of all queues together. -/
def total (m : Std.ExtTreeMap κ (List α) cmp) : ℕ := (m.toList.map fun entry => entry.2.length).sum

@[simp] lemma queue_empty (k : κ) : queue (∅ : Std.ExtTreeMap κ (List α) cmp) k = [] := by
  simp [queue]

@[simp] lemma total_empty : total (∅ : Std.ExtTreeMap κ (List α) cmp) = 0 := by
  have hnil : (∅ : Std.ExtTreeMap κ (List α) cmp).toList = [] := by
    rfl
  rfl

variable [Std.LawfulEqCmp cmp]

section Lookup

variable [DecidableEq κ] (m : Std.ExtTreeMap κ (List α) cmp) (k k' : κ) (q : List α)

lemma queue_insert : queue (m.insert k q) k' = if k = k' then q else queue m k' := by
  unfold queue
  rw [Std.ExtTreeMap.getElem?_insert]
  by_cases h : k = k'
  · simp [h]
  · simp [h]

lemma queue_erase : queue (m.erase k) k' = if k = k' then [] else queue m k' := by
  unfold queue
  rw [Std.ExtTreeMap.getElem?_erase]
  by_cases h : k = k'
  · simp [h]
  · simp [h]

end Lookup

lemma mem_keys_of_mem_queue {m : Std.ExtTreeMap κ (List α) cmp} {k : κ} {x : α}
    (h : x ∈ queue m k) : k ∈ m.keys := by
  rw [Std.ExtTreeMap.mem_keys, Std.ExtTreeMap.mem_iff_isSome_getElem?]
  unfold queue at h
  cases hk : m[k]? with
  | none => simp [hk] at h
  | some q => rfl

/-- The total, over any set of keys that covers the map. -/
lemma total_eq_sum [DecidableEq κ] (m : Std.ExtTreeMap κ (List α) cmp) {keys : Finset κ}
    (hcover : ∀ k ∈ m.keys, k ∈ keys) : total m = ∑ k ∈ keys, (queue m k).length := by
  have hlist : total m = (m.keys.map fun k => (queue m k).length).sum := by
    rw [total, ← Std.ExtTreeMap.map_fst_toList_eq_keys, map_map]
    refine congrArg List.sum (map_congr_left ?_)
    rintro ⟨k, q⟩ hmem
    have hk := Std.ExtTreeMap.mem_toList_iff_getElem?_eq_some.mp hmem
    simp [queue, hk]
  rw [hlist, ← sum_toFinset _ Std.ExtTreeMap.nodup_keys]
  refine Finset.sum_subset (fun k hk => hcover k (mem_toFinset.mp hk)) ?_
  intro k _ hk
  rw [mem_toFinset] at hk
  cases hq : queue m k with
  | nil => rfl
  | cons x q => exact absurd (mem_keys_of_mem_queue (x := x) (by simp [hq])) hk

/-- A map that differs from another one in one queue. -/
lemma total_update [DecidableEq κ] {m n : Std.ExtTreeMap κ (List α) cmp} {k : κ}
    (h : ∀ k', k' ≠ k → queue n k' = queue m k') :
    total n + (queue m k).length = total m + (queue n k).length := by
  have hk : k ∈ insert k (m.keys ++ n.keys).toFinset := Finset.mem_insert_self _ _
  have hm : ∀ a ∈ m.keys, a ∈ insert k (m.keys ++ n.keys).toFinset := fun a ha =>
    Finset.mem_insert_of_mem (by simp [mem_toFinset, ha])
  have hn : ∀ a ∈ n.keys, a ∈ insert k (m.keys ++ n.keys).toFinset := fun a ha =>
    Finset.mem_insert_of_mem (by simp [mem_toFinset, ha])
  rw [total_eq_sum m hm, total_eq_sum n hn, ← Finset.add_sum_erase _ (fun a => (queue m a).length) hk,
    ← Finset.add_sum_erase _ (fun a => (queue n a).length) hk]
  have hrest : ∑ a ∈ (insert k (m.keys ++ n.keys).toFinset).erase k, (queue n a).length =
      ∑ a ∈ (insert k (m.keys ++ n.keys).toFinset).erase k, (queue m a).length :=
    Finset.sum_congr rfl fun a ha => by rw [h a (Finset.ne_of_mem_erase ha)]
  omega

/-- When all queues together are empty, each of them is. -/
lemma queue_eq_nil_of_total {m : Std.ExtTreeMap κ (List α) cmp} (h : total m = 0) (k : κ) :
    queue m k = [] := by
  unfold queue
  cases hk : m[k]? with
  | none => rfl
  | some q =>
    have hmem : q.length ∈ m.toList.map fun entry => entry.2.length :=
      mem_map.mpr ⟨(k, q), Std.ExtTreeMap.mem_toList_iff_getElem?_eq_some.mpr hk, rfl⟩
    have hzero := sum_eq_zero_iff.mp h _ hmem
    simpa using hzero

/-- What is done to all queues, one after another, restricted to one key. -/
lemma flatMap_filter {β : Type*} (m : Std.ExtTreeMap κ (List α) cmp) (f : κ → α → β) (k : κ)
    (p : β → Bool) (hself : ∀ x, p (f k x) = true) (hoth : ∀ k' x, k' ≠ k → p (f k' x) = false) :
    (m.toList.flatMap fun entry => entry.2.map (f entry.1)).filter p = (queue m k).map (f k) := by
  have hskip : ∀ entries : List (κ × List α), (∀ entry ∈ entries, entry.1 ≠ k) →
      (entries.flatMap fun entry => entry.2.map (f entry.1)).filter p = [] := by
    intro entries hne
    rw [filter_eq_nil_iff]
    intro b hb
    obtain ⟨entry, hentry, hb⟩ := mem_flatMap.mp hb
    obtain ⟨x, -, rfl⟩ := mem_map.mp hb
    simp [hoth entry.1 x (hne entry hentry)]
  have hkeys : m.toList.Pairwise fun a b => a.1 ≠ b.1 := by
    have hnodup : m.keys.Nodup := Std.ExtTreeMap.nodup_keys
    rw [← Std.ExtTreeMap.map_fst_toList_eq_keys] at hnodup
    exact pairwise_map.mp hnodup
  cases hk : m[k]? with
  | none =>
    rw [hskip, queue, hk]
    · rfl
    · rintro ⟨k', q⟩ hentry rfl
      have hsome := Std.ExtTreeMap.mem_toList_iff_getElem?_eq_some.mp hentry
      rw [hk] at hsome
      cases hsome
  | some q =>
    -- the one entry of the key, with the others before and behind it
    obtain ⟨front, back, hsplit⟩ :=
      append_of_mem (Std.ExtTreeMap.mem_toList_iff_getElem?_eq_some.mpr hk)
    rw [hsplit] at hkeys
    obtain ⟨-, hback, hfront⟩ := pairwise_append.mp hkeys
    rw [hsplit, flatMap_append, filter_append, flatMap_cons, filter_append,
      hskip front fun entry h => hfront entry h (k, q) (by simp),
      hskip back fun entry h => Ne.symm ((pairwise_cons.mp hback).1 entry h), queue, hk]
    simp [hself]

end Queues
