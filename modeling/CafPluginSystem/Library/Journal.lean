import Mathlib

/-!
# Journals of a server

What a server has done, in the order in which it did it: it has taken in requests, answered them, and
acknowledged to somebody that it has nothing left to do.

* `Outstanding` — the requests of a kind that are taken in are those answered and those still waiting.
* `Fifo` — moreover they are answered in the order in which they were taken in.
* `Once` — each request is answered at most once, and those that wait are the ones that are not.
* `AckSafe` — whenever something was acknowledged, every request taken in before was answered before.

Each comes with one lemma for every entry that a journal can grow by, and with what it means for single
requests (`Outstanding.count_le_one`, `Outstanding.answered_iff`).
-/

namespace Journal

open List

/-- An entry about requests `ρ`, results `ω` and those that get acknowledgements, `γ`. -/
inductive Entry (ρ ω γ : Type*) where
  | opened (request : ρ)
  | answered (request : ρ) (result : ω)
  | acknowledged (waiter : γ)
  deriving DecidableEq, Repr

variable {ρ ω γ : Type*}

/-- The requests that were taken in. -/
def opened (log : List (Entry ρ ω γ)) : List ρ :=
  log.filterMap fun
    | .opened r => some r
    | _ => none

/-- The requests that were answered, one for every answer. -/
def answered (log : List (Entry ρ ω γ)) : List ρ :=
  log.filterMap fun
    | .answered r _ => some r
    | _ => none

section Entries

variable (log : List (Entry ρ ω γ)) (r : ρ) (result : ω)

@[simp] lemma opened_append (log' : List (Entry ρ ω γ)) :
    opened (log ++ log') = opened log ++ opened log' :=
  filterMap_append

@[simp] lemma answered_append (log' : List (Entry ρ ω γ)) :
    answered (log ++ log') = answered log ++ answered log' :=
  filterMap_append

@[simp] lemma opened_nil : opened ([] : List (Entry ρ ω γ)) = [] := rfl

@[simp] lemma answered_nil : answered ([] : List (Entry ρ ω γ)) = [] := rfl

@[simp] lemma opened_opened : opened (.opened r :: log) = r :: opened log := rfl

@[simp] lemma answered_opened : answered (.opened r :: log) = answered log := rfl

@[simp] lemma opened_answered : opened (.answered r result :: log) = opened log := rfl

@[simp] lemma answered_answered : answered (.answered r result :: log) = r :: answered log := rfl

@[simp] lemma opened_acknowledged (waiter : γ) : opened (.acknowledged waiter :: log) = opened log := rfl

@[simp] lemma answered_acknowledged (waiter : γ) : answered (.acknowledged waiter :: log) = answered log := rfl

@[simp] lemma opened_map_acknowledged (waiters : List γ) :
    opened (waiters.map (Entry.acknowledged : γ → Entry ρ ω γ)) = [] := by
  induction waiters with
  | nil => rfl
  | cons waiter waiters ih => exact ih

@[simp] lemma answered_map_acknowledged (waiters : List γ) :
    answered (waiters.map (Entry.acknowledged : γ → Entry ρ ω γ)) = [] := by
  induction waiters with
  | nil => rfl
  | cons waiter waiters ih => exact ih

lemma mem_opened_opened {r' : ρ} : r' ∈ opened (log ++ [.opened r]) ↔ r' ∈ opened log ∨ r' = r := by
  simp

lemma nodup_opened_opened (h : (opened log).Nodup) (hr : r ∉ opened log) :
    (opened (log ++ [.opened r])).Nodup := by
  rw [opened_append, opened_opened, opened_nil, ← concat_eq_append]
  exact h.concat hr

end Entries

/-! ## Tables of what waits -/

/-- An entry of a table after one entry was written. -/
lemma update_eq_some {κ α : Type*} [DecidableEq κ] {table : κ → Option α} {k k' : κ} {a b : α} :
    Function.update table k (some a) k' = some b ↔ k' = k ∧ a = b ∨ k' ≠ k ∧ table k' = some b := by
  by_cases h : k' = k
  · subst h
    simp
  · simp [h]

/-! ## Requests that wait -/

/-- Of the requests of a kind that were taken in, `waiting` are not answered. -/
def Outstanding (p : ρ → Bool) (log : List (Entry ρ ω γ)) (waiting : List ρ) : Prop :=
  ((answered log).filter p ++ waiting).Perm ((opened log).filter p)

/-- The requests of a kind are answered in the order in which they were taken in, and `waiting` are the
ones that are left. -/
def Fifo (p : ρ → Bool) (log : List (Entry ρ ω γ)) (waiting : List ρ) : Prop :=
  (answered log).filter p ++ waiting = (opened log).filter p

variable {p : ρ → Bool} {log : List (Entry ρ ω γ)} {waiting : List ρ} {r : ρ} {result : ω}

lemma Fifo.outstanding (h : Fifo p log waiting) : Outstanding p log waiting :=
  List.Perm.of_eq h

lemma Outstanding.kind (h : Outstanding p log waiting) (hr : r ∈ waiting) : p r = true :=
  (mem_filter.mp (h.subset (mem_append_right _ hr))).2

variable {entries : List (Entry ρ ω γ)}

/-- Nothing of the kind happens. -/
lemma Fifo.append_other (h : Fifo p log waiting)
    (hopen : (opened entries).filter p = []) (hanswered : (answered entries).filter p = []) :
    Fifo p (log ++ entries) waiting := by
  simpa [Fifo, filter_append, hopen, hanswered] using h

lemma Outstanding.append_other (h : Outstanding p log waiting)
    (hopen : (opened entries).filter p = []) (hanswered : (answered entries).filter p = []) :
    Outstanding p (log ++ entries) waiting := by
  simpa [Outstanding, filter_append, hopen, hanswered] using h

/-- A request is taken in. -/
lemma Fifo.opened (h : Fifo p log waiting) (hp : p r = true) :
    Fifo p (log ++ [.opened r]) (waiting ++ [r]) := by
  have hwas : (Journal.answered log).filter p ++ waiting = (Journal.opened log).filter p := h
  simp [Fifo, filter_append, hp, ← hwas]

lemma Outstanding.opened (h : Outstanding p log waiting) (hp : p r = true) :
    Outstanding p (log ++ [.opened r]) (waiting ++ [r]) := by
  have hgrown := h.append_right [r]
  simpa [Outstanding, filter_append, hp] using hgrown

/-- The first request is answered. -/
lemma Fifo.answered (h : Fifo p log (r :: waiting)) :
    Fifo p (log ++ [.answered r result]) waiting := by
  have hp : p r = true := h.outstanding.kind mem_cons_self
  have hwas : (Journal.answered log).filter p ++ r :: waiting = (Journal.opened log).filter p := h
  simp [Fifo, filter_append, hp, ← hwas]

/-- Some request is answered. -/
lemma Outstanding.answered [DecidableEq ρ] (h : Outstanding p log waiting) (hr : r ∈ waiting) :
    Outstanding p (log ++ [.answered r result]) (waiting.erase r) := by
  have hp := h.kind hr
  have hperm : ((Journal.answered log).filter p ++ r :: waiting.erase r).Perm
      ((Journal.opened log).filter p) :=
    ((perm_cons_erase hr).symm.append_left _).trans h
  simpa [Outstanding, filter_append, hp] using hperm

/-- All the requests that are left are answered, in their order. -/
lemma Fifo.answered_all (h : Fifo p log waiting) (hopen : (Journal.opened entries).filter p = [])
    (hanswered : (Journal.answered entries).filter p = waiting) : Fifo p (log ++ entries) [] := by
  have hwas : (Journal.answered log).filter p ++ waiting = (Journal.opened log).filter p := h
  simp [Fifo, filter_append, hopen, hanswered, hwas]

lemma Outstanding.answered_all (h : Outstanding p log waiting) (hopen : (Journal.opened entries).filter p = [])
    (hanswered : (Journal.answered entries).filter p = waiting) :
    Outstanding p (log ++ entries) [] := by
  simpa [Outstanding, filter_append, hopen, hanswered] using h

/-- **At most one answer.** -/
lemma Outstanding.count_le_one [DecidableEq ρ] (h : Outstanding p log waiting)
    (hnodup : (Journal.opened log).Nodup) (hp : p r = true) : (Journal.answered log).count r ≤ 1 := by
  have hfilt : ((Journal.answered log).filter p ++ waiting).Nodup :=
    h.nodup_iff.mpr (hnodup.filter p)
  have hle := nodup_iff_count_le_one.mp (nodup_append.mp hfilt).1 r
  rwa [count_filter hp] at hle

/-- **A request is answered exactly when it does not wait any more.** -/
lemma Outstanding.answered_iff (h : Outstanding p log waiting) (hnodup : (Journal.opened log).Nodup)
    (hopen : r ∈ Journal.opened log) (hp : p r = true) :
    r ∈ Journal.answered log ↔ r ∉ waiting := by
  have hmem : r ∈ (Journal.answered log).filter p ++ waiting :=
    h.symm.subset (mem_filter.mpr ⟨hopen, hp⟩)
  have hdisj := (nodup_append.mp (h.nodup_iff.mpr (hnodup.filter p))).2.2
  constructor
  · intro hanswered hwait
    exact hdisj r (mem_filter.mpr ⟨hanswered, hp⟩) r hwait rfl
  · intro hwait
    rcases mem_append.mp hmem with h | h
    · exact (mem_filter.mp h).1
    · exact absurd h hwait

/-! ## One answer for each request -/

/-- Each request is taken in once and answered at most once, and `waits` are those that are taken in and not
answered. -/
structure Once (waits : ρ → Prop) (log : List (Entry ρ ω γ)) : Prop where
  opened_nodup : (opened log).Nodup
  answered_nodup : (answered log).Nodup
  waits_opened : ∀ r, waits r → r ∈ opened log
  answered_iff : ∀ r, r ∈ answered log ↔ r ∈ opened log ∧ ¬waits r

namespace Once

variable {waits waits' : ρ → Prop}

lemma congr (h : Once waits log) (hwaits : ∀ r, waits' r ↔ waits r) : Once waits' log := by
  obtain rfl : waits' = waits := funext fun r => propext (hwaits r)
  exact h

/-- Nothing is taken in or answered. -/
lemma append_other (h : Once waits log) (hopen : Journal.opened entries = [])
    (hanswered : Journal.answered entries = []) : Once waits (log ++ entries) := by
  refine ⟨?_, ?_, ?_, ?_⟩ <;> simp only [opened_append, answered_append, hopen, hanswered, append_nil]
  · exact h.opened_nodup
  · exact h.answered_nodup
  · exact h.waits_opened
  · exact h.answered_iff

/-- A request is taken in, and waits. -/
lemma opened (h : Once waits log) (hr : r ∉ Journal.opened log)
    (hwaits : ∀ r', waits' r' ↔ waits r' ∨ r' = r) : Once waits' (log ++ [.opened r]) := by
  refine ⟨nodup_opened_opened log r h.opened_nodup hr, by simpa using h.answered_nodup, ?_, ?_⟩
  · intro r' hr'
    rcases (hwaits r').mp hr' with hold | rfl
    · simp [h.waits_opened r' hold]
    · simp
  · intro r'
    have hiff := h.answered_iff r'
    by_cases heq : r' = r
    · subst heq
      simp [hiff, hr, hwaits]
    · simp [hiff, hwaits, heq]

/-- A request that waits is answered. -/
lemma answered (h : Once waits log) (hr : waits r) (hwaits : ∀ r', waits' r' ↔ waits r' ∧ r' ≠ r) :
    Once waits' (log ++ [.answered r result]) := by
  have hunanswered : r ∉ Journal.answered log := fun hmem => ((h.answered_iff r).mp hmem).2 hr
  refine ⟨by simpa using h.opened_nodup, ?_, ?_, ?_⟩
  · have hnodup := nodup_append.mpr ⟨h.answered_nodup, nodup_singleton r, fun a ha b hb => by
      rintro rfl
      exact hunanswered (mem_singleton.mp hb ▸ ha)⟩
    simpa using hnodup
  · intro r' hr'
    simpa using h.waits_opened r' ((hwaits r').mp hr').1
  · intro r'
    have hiff := h.answered_iff r'
    by_cases heq : r' = r
    · subst heq
      simp [h.waits_opened r' hr, hwaits]
    · simp [hiff, hwaits, heq]

end Once

/-! ## Members of a kind -/

/-- Counting, after the predicate has changed at one member. -/
lemma countP_update {α : Type} [DecidableEq α] {l : List α} {p q : α → Bool} {x : α} (hnodup : l.Nodup)
    (hx : x ∈ l) (h : ∀ y, y ≠ x → q y = p y) :
    l.countP q + (p x).toNat = l.countP p + (q x).toNat := by
  have hrest : (l.erase x).countP q = (l.erase x).countP p := by
    refine countP_congr fun y hy => ?_
    have hne : y ≠ x := by
      rintro rfl
      exact hnodup.not_mem_erase hy
    rw [h y hne]
  have hcount : ∀ q : α → Bool, l.countP q = (l.erase x).countP q + (q x).toNat := by
    intro q
    rw [(perm_cons_erase hx).countP_eq, countP_cons]
    cases q x <;> rfl
  rw [hcount p, hcount q, hrest]
  omega

/-- A sublist that has all the members of a kind has them in the same order. -/
lemma filter_eq_of_sublist {α : Type} {p : α → Bool} {l l' : List α} (h : l.Sublist l') (hnodup : l'.Nodup)
    (hall : ∀ x ∈ l', p x = true → x ∈ l) : l.filter p = l'.filter p := by
  induction h with
  | slnil => rfl
  | @cons l l' x h ih =>
    obtain ⟨hx, hnodup⟩ := nodup_cons.mp hnodup
    have hfalse : ¬p x = true := fun hp => hx (h.subset (hall x (by simp) hp))
    rw [filter_cons_of_neg hfalse]
    exact ih hnodup fun y hy hp => hall y (by simp [hy]) hp
  | @cons_cons l l' x h ih =>
    obtain ⟨hx, hnodup⟩ := nodup_cons.mp hnodup
    have htail := ih hnodup fun y hy hp => by
      rcases mem_cons.mp (hall y (by simp [hy]) hp) with rfl | hmem
      · exact absurd hy hx
      · exact hmem
    rw [filter_cons, filter_cons, htail]

/-! ## Acknowledgements -/

/-- Every request that was taken in is answered. -/
def Quiet (log : List (Entry ρ ω γ)) : Prop := ∀ r ∈ opened log, r ∈ answered log

/-- **Whenever something was acknowledged, every request taken in before was answered before.** -/
def AckSafe (log : List (Entry ρ ω γ)) : Prop :=
  ∀ front waiter back, log = front ++ .acknowledged waiter :: back → Quiet front

lemma AckSafe.nil : AckSafe ([] : List (Entry ρ ω γ)) := by
  intro front waiter back h
  simp at h

/-- A step of the journal that acknowledges nothing. -/
lemma AckSafe.append (h : AckSafe log)
    (hents : ∀ waiter, .acknowledged waiter ∉ entries) : AckSafe (log ++ entries) := by
  intro front waiter back hsplit
  rcases append_eq_append_iff.mp hsplit with ⟨mid, rfl, hrest⟩ | ⟨mid, rfl, hrest⟩
  · exact absurd (by rw [hrest]; simp) (hents waiter)
  · cases mid with
    | nil => exact absurd (by rw [← nil_append entries, ← hrest]; simp) (hents waiter)
    | cons e mid =>
      obtain ⟨rfl, -⟩ := List.cons.inj hrest
      exact h front waiter mid rfl

/-- Acknowledgements while nothing is open. -/
lemma AckSafe.acknowledged (h : AckSafe log) (hquiet : Quiet log) (waiters : List γ) :
    AckSafe (log ++ waiters.map .acknowledged) := by
  intro front t back hsplit
  rcases append_eq_append_iff.mp hsplit with ⟨mid, rfl, hrest⟩ | ⟨mid, rfl, hrest⟩
  · have hmid : ∀ e ∈ mid, ∃ t, e = .acknowledged t := by
      intro e he
      have hmem : e ∈ waiters.map Entry.acknowledged := by rw [hrest]; simp [he]
      obtain ⟨t, -, rfl⟩ := mem_map.mp hmem
      exact ⟨t, rfl⟩
    have hopen : opened mid = [] := by
      refine filterMap_eq_nil_iff.mpr fun e he => ?_
      obtain ⟨t, rfl⟩ := hmid e he
      rfl
    intro r hr
    rw [opened_append, hopen, append_nil] at hr
    rw [answered_append]
    exact mem_append_left _ (hquiet r hr)
  · cases mid with
    | nil => simpa using hquiet
    | cons e mid =>
      obtain ⟨rfl, -⟩ := List.cons.inj hrest
      exact h front t mid rfl

end Journal
