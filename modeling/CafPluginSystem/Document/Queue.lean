import CafPluginSystem.Document.Actor

/-!
# The queues of the document entity store

The invariant of the actor, kept by every event: the books are right (`Books`), and of every queue the
head, and only the head, is with the backend (`Heads`).  While `pump` runs, this fails for its own queue,
in which nothing has been sent (`HeadsBut`).

* `step_invariant` — every event keeps it.
* `document_queues` — what it says about every run.
-/

namespace Caf.EntityStore.Document

open Function (update_of_ne update_self)
open Journal List Std.ExtTreeMap Option Queues

def Request.isLoad : Request → Bool
  | .load _ => true
  | .save _ _ => false

def Request.inPartition (key : QueueKey) : Request → Bool
  | .load _ => false
  | .save key' _ => key' == key

namespace Actor

variable {except : QueueKey → Prop} {current : Save} {key' : QueueKey}

/-- The save was sent to the backend. -/
def Sent (s : Actor) (i : ℕ) : Prop := ∃ save, s.saveTable i = some save ∧ save.sent = true

/-- **The books.** -/
structure Books (s : Actor) : Prop where
  distinct : (opened s.journal).Nodup
  openedLoad : ∀ id, .load id ∈ opened s.journal → id ≤ s.sequence
  openedSave : ∀ key i, .save key i ∈ opened s.journal → i < s.nextSave
  loads : Outstanding Request.isLoad s.journal (s.loads.map .load)
  saves : ∀ key, Fifo (Request.inPartition key) s.journal ((s.queue key).map (.save key))
  pending : s.pending = s.loads.length + Queues.total s.saves
  bound : s.pending ≤ s.settings.maxPendingRequests
  acknowledged : AckSafe s.journal
  present : ∀ key : QueueKey, s.saves[key]? ≠ some []
  load : ∀ id ∈ s.loads, ∃ load, s.loadTable id = some load ∧ load.completed = false ∧
    load.awaited = true
  awaitedLoad : ∀ id load, s.loadTable id = some load → load.awaited = true → id ∈ s.loads
  save : ∀ key, ∀ i ∈ s.queue key, ∃ save, s.saveTable i = some save ∧ save.key = key ∧
    save.completed = false ∧ save.awaited = save.sent
  awaitedSave : ∀ i save, s.saveTable i = some save → save.awaited = true → i ∈ s.queue save.key

/-- Of every queue but those of `except`, the head was sent and nothing else; of those of `except`,
nothing was. -/
structure HeadsBut (s : Actor) (except : QueueKey → Prop) : Prop where
  head : ∀ key, ¬except key → ∀ i rest, s.queue key = i :: rest → s.Sent i ∧ ∀ j ∈ rest, ¬s.Sent j
  unsent : ∀ key, except key → ∀ i ∈ s.queue key, ¬s.Sent i

abbrev Heads (s : Actor) : Prop := s.HeadsBut fun _ => False

variable {s s' : Actor}

lemma initial_books (settings : ServiceConfig) : (initial settings).Books := by
  have hq : ∀ key, (initial settings).queue key = [] := fun key => queue_empty key
  constructor
  · exact nodup_nil
  · intro id h
    cases h
  · intro key i h
    cases h
  · exact List.Perm.nil
  · intro key
    rfl
  · show 0 = 0 + Queues.total (∅ : Std.ExtTreeMap QueueKey (List ℕ))
    rw [total_empty]
  · exact Nat.zero_le _
  · exact .nil
  · intro key h
    have hnone : (∅ : Std.ExtTreeMap QueueKey (List ℕ))[key]? = none :=
      getElem?_empty
    cases hnone.symm.trans h
  · intro id h
    cases h
  · intro id load h
    cases h
  · intro key i h
    cases h
  · intro i save h
    cases h

/-- Nothing is pending when everything is answered. -/
lemma Books.quiet (h : s.Books) (hzero : s.pending = 0) : Quiet s.journal := by
  have hpend := h.pending
  have hloads : s.loads = [] := eq_nil_of_length_eq_zero (by omega)
  have htotal : Queues.total s.saves = 0 := by omega
  intro r hr
  cases r with
  | load id =>
    refine (h.loads.answered_iff h.distinct hr rfl).mpr ?_
    simp [hloads]
  | save key i =>
    have hq : s.queue key = [] := queue_eq_nil_of_total htotal key
    refine ((h.saves key).outstanding.answered_iff h.distinct hr (by simp [Request.inPartition])).mpr ?_
    simp [hq]

/-! ## Acknowledgements -/

@[simp] lemma notifyDrained_queue (key : QueueKey) : s.notifyDrained.queue key = s.queue key := by
  unfold notifyDrained
  split <;> rfl

@[simp] lemma notifyDrained_saveTable : s.notifyDrained.saveTable = s.saveTable := by
  unfold notifyDrained
  split <;> rfl

lemma Books.notifyDrained (h : s.Books) : s.notifyDrained.Books := by
  unfold Actor.notifyDrained
  split
  · exact h
  · next hready =>
    have hzero : s.pending = 0 := by
      by_contra hne
      exact hready (.inr hne)
    have hopen : opened (s.journal ++ s.drainWaiters.map .acknowledged) = opened s.journal := by
      simp
    exact { h with
      distinct := hopen ▸ h.distinct
      openedLoad := hopen ▸ h.openedLoad
      openedSave := hopen ▸ h.openedSave
      loads := h.loads.append_other (by simp) (by simp)
      saves := fun key => (h.saves key).append_other (by simp) (by simp)
      acknowledged := h.acknowledged.acknowledged (h.quiet hzero) _ }

/-- The parts of the state that heads of queues depend on. -/
lemma HeadsBut.congr (h : s.HeadsBut except)
    (hq : ∀ key, s'.queue key = s.queue key) (htab : s'.saveTable = s.saveTable) :
    s'.HeadsBut except := by
  constructor
  · intro key hkey i rest hi
    rw [hq] at hi
    unfold Sent
    rw [htab]
    exact h.head key hkey i rest hi
  · intro key hkey i hi
    rw [hq] at hi
    unfold Sent
    rw [htab]
    exact h.unsent key hkey i hi

lemma HeadsBut.notifyDrained (h : s.HeadsBut except) :
    s.notifyDrained.HeadsBut except :=
  h.congr notifyDrained_queue notifyDrained_saveTable

/-! ## The head of a queue -/

lemma Books.queue_nodup (h : s.Books) (key : QueueKey) : (s.queue key).Nodup := by
  have hperm := (h.saves key).outstanding
  have hnodup := hperm.nodup_iff.mpr (h.distinct.filter _)
  exact List.Nodup.of_map _ (nodup_append.mp hnodup).2.1

/-- What is known of a save in a queue. -/
lemma Books.queued (h : s.Books) (key : QueueKey) {i save} (hsave : s.saveTable i = some save) (hi : i ∈ s.queue key) :
    save.key = key ∧ save.completed = false ∧ save.awaited = save.sent := by
  obtain ⟨save', hsave', hknown⟩ := h.save key i hi
  obtain rfl : save = save' := some.inj (hsave.symm.trans hsave')
  exact hknown

/-- A save is in one queue. -/
lemma Books.queue_key (h : s.Books) {key i} (hi : i ∈ s.queue key) (hi' : i ∈ s.queue key') : key = key' := by
  obtain ⟨save, hsave, hkey, -⟩ := h.save key i hi
  exact hkey.symm.trans (h.queued key' hsave hi').1

lemma popFront_queue (saves : Std.ExtTreeMap QueueKey (List ℕ)) (key key' : QueueKey) :
    Queues.queue (popFront saves key) key' =
      if key = key' then (Queues.queue saves key).tail else Queues.queue saves key' := by
  unfold popFront
  cases hq : saves[key]? with
  | none =>
    by_cases heq : key = key'
    · subst heq
      simp [Queues.queue, hq]
    · simp [heq]
  | some queue =>
    have hself : Queues.queue saves key = queue := by simp [Queues.queue, hq]
    dsimp only
    split
    · next htail => rw [queue_erase, hself, htail]
    · rw [queue_insert, hself]

lemma popFront_present {saves} (h : ∀ key : QueueKey, saves[key]? ≠ some []) (key key' : QueueKey) :
    (popFront saves key)[key']? ≠ some [] := by
  unfold popFront
  cases hq : saves[key]? with
  | none => exact h key'
  | some queue =>
    dsimp only
    split
    · rw [Std.ExtTreeMap.getElem?_erase]
      split
      · simp
      · exact h key'
    · next htail =>
      rw [Std.ExtTreeMap.getElem?_insert]
      split
      · simpa using htail
      · exact h key'

/-- The state after the head of a queue was answered and removed. -/
def removeHead (s : Actor) (key : QueueKey) (i : ℕ) (save : Save) (result : SaveResult) : Actor :=
  { (s.setSave i save).note [.answered (.save key i) (.save result)] with
    saves := popFront s.saves key
    pending := s.pending - 1 }

lemma finishSave_eq {key i result} (hi : s.saveTable i = some current) (hcomp : current.completed = false) :
    s.finishSave key i result =
      (s.removeHead key i { current with completed := true } result).notifyDrained := by
  simp [finishSave, hi, hcomp, removeHead, setSave, note]

section RemoveHead

variable {key : QueueKey} {i : ℕ} {rest : List ℕ} {save : Save} {result : SaveResult}

lemma removeHead_queue (hq : s.queue key = i :: rest) (key' : QueueKey) :
    (s.removeHead key i save result).queue key' = if key = key' then rest else s.queue key' := by
  show Queues.queue (popFront s.saves key) key' = _
  rw [popFront_queue]
  have hself : Queues.queue s.saves key = i :: rest := hq
  rw [hself]
  rfl

lemma removeHead_saveTable {j} (hne : j ≠ i) :
    (s.removeHead key i save result).saveTable j = s.saveTable j :=
  update_of_ne hne _ _

/-- What is in a queue after that is another save, and was there before. -/
lemma Books.mem_removeHead (h : s.Books) (hq : s.queue key = i :: rest) {j}
    (hj : j ∈ (s.removeHead key i save result).queue key') : j ≠ i ∧ j ∈ s.queue key' := by
  rw [removeHead_queue hq] at hj
  have hnodup := h.queue_nodup key
  rw [hq] at hnodup
  split at hj
  · next heq =>
    subst heq
    refine ⟨?_, by simp [hq, hj]⟩
    rintro rfl
    exact (nodup_cons.mp hnodup).1 hj
  · next hne =>
    refine ⟨?_, hj⟩
    rintro rfl
    exact hne (h.queue_key (by simp [hq]) hj)

lemma Books.removeHead (h : s.Books) (hq : s.queue key = i :: rest)
    (hawait : save.awaited = false) : (s.removeHead key i save result).Books := by
  have hopen : opened (s.removeHead key i save result).journal = opened s.journal := by
    simp [Actor.removeHead, note, setSave]
  have htotal : Queues.total (popFront s.saves key) + (i :: rest).length =
      Queues.total s.saves + rest.length := by
    have hself : Queues.queue s.saves key = i :: rest := hq
    have hupd : Queues.total (popFront s.saves key) + (Queues.queue s.saves key).length =
        Queues.total s.saves + (Queues.queue (popFront s.saves key) key).length :=
      total_update fun key' hne => by rw [popFront_queue, if_neg (Ne.symm hne)]
    rwa [popFront_queue, if_pos rfl, hself] at hupd
  rw [length_cons] at htotal
  have hpend := h.pending
  have hbound := h.bound
  refine { h with
    distinct := hopen ▸ h.distinct
    openedLoad := hopen ▸ h.openedLoad
    openedSave := hopen ▸ h.openedSave
    loads := h.loads.append_other rfl rfl
    saves := ?_, pending := ?_, bound := ?_
    acknowledged := h.acknowledged.append (by simp)
    present := popFront_present h.present key
    save := ?_, awaitedSave := ?_ }
  · intro key'
    rw [removeHead_queue hq]
    have hwas := h.saves key'
    split
    · next heq =>
      subst heq
      rw [hq] at hwas
      exact hwas.answered
    · next hne =>
      exact hwas.append_other rfl (by simp [Request.inPartition, hne])
  · show s.pending - 1 = s.loads.length + Queues.total (popFront s.saves key)
    omega
  · show s.pending - 1 ≤ s.settings.maxPendingRequests
    omega
  · intro key' j hj
    obtain ⟨hne, hj⟩ := h.mem_removeHead hq hj
    rw [removeHead_saveTable hne]
    exact h.save key' j hj
  · intro j save' hsave' hawait'
    rcases update_eq_some.mp hsave' with ⟨rfl, rfl⟩ | ⟨hne, hsave'⟩
    · cases hawait.symm.trans hawait'
    · have hj := h.awaitedSave j save' hsave' hawait'
      rw [removeHead_queue hq]
      split
      · next hkey =>
        rw [← hkey, hq] at hj
        exact (mem_cons.mp hj).resolve_left hne
      · exact hj

lemma HeadsBut.removeHead (hbooks : s.Books) (h : s.HeadsBut except)
    (hexcept : ∀ key', except key' → key' = key) (hq : s.queue key = i :: rest) :
    (s.removeHead key i save result).HeadsBut fun key' => key' = key := by
  have hsent : ∀ key' j, j ∈ (s.removeHead key i save result).queue key' →
      ((s.removeHead key i save result).Sent j ↔ s.Sent j) := by
    intro key' j hj
    unfold Sent
    rw [removeHead_saveTable (hbooks.mem_removeHead hq hj).1]
  constructor
  · intro key' hne j rest' hq'
    have hall : ∀ j' ∈ j :: rest', ((s.removeHead key i save result).Sent j' ↔ s.Sent j') :=
      fun j' hj' => hsent key' j' (hq' ▸ hj')
    rw [removeHead_queue hq, if_neg (Ne.symm hne)] at hq'
    obtain ⟨hhead, hrest⟩ := h.head key' (fun hin => hne (hexcept key' hin)) j rest' hq'
    refine ⟨(hall j (by simp)).mpr hhead, fun j' hj' hs => ?_⟩
    exact hrest j' hj' ((hall j' (by simp [hj'])).mp hs)
  · rintro key' rfl j hj hs
    have hold := (hsent key' j hj).mp hs
    rw [removeHead_queue hq, if_pos rfl] at hj
    by_cases hin : except key'
    · exact h.unsent key' hin j (by simp [hq, hj]) hold
    · exact (h.head key' hin i rest hq).2 j hj hold

end RemoveHead

/-! ## The loop -/

lemma Books.setSent (h : s.Books) {key i rest} (hq : s.queue key = i :: rest) (hi : s.saveTable i = some current) :
    (s.setSave i { current with sent := true, awaited := true }).Books := by
  obtain ⟨hkey, hcomp, -⟩ := h.queued key hi (by simp [hq])
  refine { h with save := ?_, awaitedSave := ?_ }
  · intro key' j hj
    by_cases heq : j = i
    · subst heq
      refine ⟨_, update_self j _ s.saveTable, ?_, hcomp, rfl⟩
      exact hkey.trans (h.queue_key (by simp [hq]) hj)
    · obtain ⟨save, hsave, hrest⟩ := h.save key' j hj
      exact ⟨save, (update_of_ne heq _ _).trans hsave, hrest⟩
  · intro j save hsave hawait
    rcases update_eq_some.mp hsave with ⟨rfl, rfl⟩ | ⟨-, hsave⟩
    · show j ∈ s.queue current.key
      rw [hkey, hq]
      simp
    · exact h.awaitedSave j save hsave hawait

/-- **The loop of `pump`** leaves the queue with its head sent. -/
lemma pump_invariant (views : ℕ → View) (key : QueueKey) (queue : List ℕ) (hbooks : s.Books)
    (hheads : s.HeadsBut fun key' => key' = key) (hq : s.queue key = queue) :
    (pump views key queue s).Books ∧ (pump views key queue s).Heads := by
  induction queue generalizing s with
  | nil =>
    refine ⟨hbooks, fun key' _ i rest hi => ?_, fun key' h => h.elim⟩
    by_cases heq : key' = key
    · subst heq
      cases hq.symm.trans hi
    · exact hheads.head key' heq i rest hi
  | cons i rest ih =>
    obtain ⟨current, hi, hkey, hcomp, hawait⟩ := hbooks.save key i (by simp [hq])
    have hunsent : current.sent = false := by
      by_contra hsent
      exact hheads.unsent key rfl i (by simp [hq]) ⟨current, hi, by simpa using hsent⟩
    simp only [pump, hi]
    cases hrejection : s.rejection (views i) current.input with
    | some result =>
      dsimp only
      rw [finishSave_eq hi hcomp]
      have hquiet : ({ current with completed := true } : Save).awaited = false :=
        hawait.trans hunsent
      refine ih (hbooks.removeHead hq hquiet).notifyDrained
        (HeadsBut.removeHead hbooks hheads (fun _ h => h) hq).notifyDrained ?_
      rw [notifyDrained_queue, removeHead_queue hq, if_pos rfl]
    | none =>
      refine ⟨hbooks.setSent hq hi, fun key' _ j rest' hj => ?_, fun key' h => h.elim⟩
      have hoth : ∀ j', j' ≠ i →
          ((s.setSave i { current with sent := true, awaited := true }).Sent j' ↔ s.Sent j') := by
        intro j' hne
        simp only [Sent, setSave, update_of_ne hne]
      by_cases heq : key' = key
      · subst heq
        have hsame : j :: rest' = i :: rest := hj.symm.trans hq
        obtain ⟨rfl, rfl⟩ := List.cons.inj hsame
        refine ⟨⟨_, update_self j _ s.saveTable, rfl⟩, fun j' hj' hs => ?_⟩
        have hne : j' ≠ j := by
          rintro rfl
          have hnodup := hbooks.queue_nodup key'
          rw [hq] at hnodup
          exact (nodup_cons.mp hnodup).1 hj'
        exact hheads.unsent key' rfl j' (by simp [hq, hj']) ((hoth j' hne).mp hs)
      · have hne : ∀ j' ∈ j :: rest', j' ≠ i := by
          rintro j' hj' rfl
          refine heq (hbooks.queue_key (i := j') ?_ ?_)
          · rw [show s.queue key' = j :: rest' from hj]
            exact hj'
          · simp [hq]
        obtain ⟨hhead, hrest⟩ := hheads.head key' heq j rest' hj
        exact ⟨(hoth j (hne j (by simp))).mpr hhead, fun j' hj' hs =>
          hrest j' hj' ((hoth j' (hne j' (by simp [hj']))).mp hs)⟩

/-! ## Requests -/

lemma admissionError_none (h : s.admissionError = none) :
    s.draining = false ∧ s.pending < s.settings.maxPendingRequests := by
  unfold admissionError at h
  split at h
  · cases h
  · next hdraining =>
    split at h
    · cases h
    · next hpend => exact ⟨by simpa using hdraining, by omega⟩

lemma checkLoad_ok {input backend} (h : s.checkLoad input backend = .ok ()) :
    s.admissionError = none := by
  simp only [checkLoad, Fallible.error_bind, Fallible.guard_eq_ok] at h
  obtain ⟨-, h⟩ := h
  split at h
  · cases h
  · simp only [Fallible.ok_bind, Fallible.guard_eq_ok] at h
    obtain ⟨-, h⟩ := h
    split at h
    · cases h
    · next hnone => exact hnone

lemma checkSave_ok {input} (h : s.checkSave input = .ok ()) :
    s.admissionError = none := by
  simp only [checkSave, Fallible.error_bind, Fallible.guard_eq_ok] at h
  obtain ⟨-, h⟩ := h
  split at h
  · cases h
  · simp only [Fallible.ok_bind, Fallible.guard_eq_ok] at h
    obtain ⟨-, -, h⟩ := h
    split at h
    · cases h
    · next hnone => exact hnone

lemma Books.refuse (h : s.Books) (answer : Answer) : (s.refuse answer).Books := { h with }

/-- **The invariant.** -/
structure Invariant (s : Actor) : Prop where
  books : s.Books
  heads : s.Heads

lemma Invariant.load (h : s.Invariant) (input : LoadRequest) (backend : Bool) :
    (s.load input backend).Invariant := by
  unfold Actor.load
  split
  · exact ⟨h.books.refuse _, h.heads.congr (fun _ => rfl) rfl⟩
  · next hok =>
    obtain ⟨-, hroom⟩ := admissionError_none (checkLoad_ok hok)
    refine ⟨?_, h.heads.congr (fun _ => rfl) rfl⟩
    have hfresh : .load (s.sequence + 1) ∉ opened s.journal := by
      intro hin
      have hle := h.books.openedLoad _ hin
      omega
    have hnew : s.sequence + 1 ∉ s.loads := by
      intro hin
      refine hfresh (mem_of_mem_filter (h.books.loads.subset (mem_append_right _ ?_)))
      exact mem_map_of_mem hin
    have hpend := h.books.pending
    refine { h.books with
      distinct := nodup_opened_opened _ _ h.books.distinct hfresh
      openedLoad := ?_, openedSave := ?_, loads := ?_
      saves := fun key => (h.books.saves key).append_other rfl rfl
      pending := ?_
      bound := hroom
      acknowledged := h.books.acknowledged.append (by simp)
      load := ?_, awaitedLoad := ?_ }
    · intro id hid
      rcases (mem_opened_opened _ _).mp hid with hid | hid
      · exact Nat.le_succ_of_le (h.books.openedLoad id hid)
      · cases hid
        exact le_refl _
    · intro key i hi
      exact h.books.openedSave key i (((mem_opened_opened _ _).mp hi).resolve_right (by simp))
    · rw [map_append]
      exact h.books.loads.opened rfl
    · show s.pending + 1 = (s.loads ++ [s.sequence + 1]).length + Queues.total s.saves
      rw [length_append, length_singleton]
      omega
    · intro id hid
      rcases mem_append.mp hid with hid | hid
      · obtain ⟨load, hload, hrest⟩ := h.books.load id hid
        have hne : id ≠ s.sequence + 1 := fun heq => hnew (heq ▸ hid)
        exact ⟨load, (update_of_ne hne _ _).trans hload, hrest⟩
      · obtain rfl := mem_singleton.mp hid
        exact ⟨_, update_self _ _ s.loadTable, rfl, rfl⟩
    · intro id load hload hawait
      rcases update_eq_some.mp hload with ⟨rfl, -⟩ | ⟨-, hload⟩
      · exact mem_append_right _ (mem_singleton_self _)
      · exact mem_append_left _ (h.books.awaitedLoad id load hload hawait)

lemma takeIn_queue (input : SaveRequest) (key : QueueKey) : (s.takeIn input).queue key =
    if keyOf input = key then s.queue (keyOf input) ++ [s.nextSave] else s.queue key :=
  queue_insert _ _ _ _

lemma Books.fresh (h : s.Books) (key : QueueKey) : .save key s.nextSave ∉ opened s.journal :=
  fun hin => Nat.lt_irrefl _ (h.openedSave key _ hin)

lemma Books.lt_nextSave (h : s.Books) {key i} (hi : i ∈ s.queue key) :
    i < s.nextSave := by
  refine h.openedSave key i (mem_of_mem_filter
    ((h.saves key).outstanding.subset (mem_append_right _ ?_)))
  exact mem_map_of_mem hi

lemma Books.takeIn (h : s.Books) (hroom : s.pending < s.settings.maxPendingRequests)
    (input : SaveRequest) : (s.takeIn input).Books := by
  have hpend := h.pending
  have htotal : Queues.total (s.takeIn input).saves = Queues.total s.saves + 1 := by
    have hupd : Queues.total (s.takeIn input).saves + (Queues.queue s.saves (keyOf input)).length =
        Queues.total s.saves + (Queues.queue (s.takeIn input).saves (keyOf input)).length :=
      total_update fun key hne => by
        have hoth := takeIn_queue (s := s) input key
        rw [if_neg (Ne.symm hne)] at hoth
        exact hoth
    have hself : Queues.queue (s.takeIn input).saves (keyOf input) = s.queue (keyOf input) ++ [s.nextSave] := by
      have hq := takeIn_queue (s := s) input (keyOf input)
      rwa [if_pos rfl] at hq
    rw [hself, length_append, length_singleton] at hupd
    have hlen : (s.queue (keyOf input)).length = (Queues.queue s.saves (keyOf input)).length := rfl
    omega
  -- a save that was in a queue is not the new one
  have hold : ∀ key, ∀ i ∈ s.queue key, (s.takeIn input).saveTable i = s.saveTable i := by
    intro key i hi
    exact update_of_ne (h.lt_nextSave hi).ne _ _
  refine { h with
    distinct := nodup_opened_opened _ _ h.distinct (h.fresh _)
    openedLoad := ?_, openedSave := ?_
    loads := h.loads.append_other rfl rfl
    saves := ?_, pending := ?_
    bound := hroom
    acknowledged := h.acknowledged.append (by simp)
    present := ?_, save := ?_, awaitedSave := ?_ }
  · intro id hid
    exact h.openedLoad id (((mem_opened_opened _ _).mp hid).resolve_right (by simp))
  · intro key i hi
    rcases (mem_opened_opened _ _).mp hi with hi | hi
    · exact Nat.lt_succ_of_lt (h.openedSave key i hi)
    · cases hi
      exact Nat.lt_succ_self _
  · intro key
    rw [takeIn_queue]
    have hwas := h.saves key
    split
    · next heq =>
      subst heq
      rw [map_append]
      exact hwas.opened (by simp [Request.inPartition])
    · next hne => exact hwas.append_other (by simp [Request.inPartition, hne]) rfl
  · show s.pending + 1 = s.loads.length + Queues.total (s.takeIn input).saves
    omega
  · intro key
    show (s.saves.insert (keyOf input) (s.queue (keyOf input) ++ [s.nextSave]))[key]? ≠ some []
    rw [Std.ExtTreeMap.getElem?_insert]
    split
    · simp
    · exact h.present key
  · intro key i hi
    rw [takeIn_queue] at hi
    split at hi
    · next heq =>
      subst heq
      rcases mem_append.mp hi with hi | hi
      · rw [hold _ i hi]
        exact h.save _ i hi
      · obtain rfl := mem_singleton.mp hi
        exact ⟨_, update_self _ _ s.saveTable, rfl, rfl, rfl⟩
    · rw [hold key i hi]
      exact h.save key i hi
  · intro i save hsave hawait
    rcases update_eq_some.mp hsave with ⟨rfl, rfl⟩ | ⟨-, hsave⟩
    · cases hawait
    · have hin := h.awaitedSave i save hsave hawait
      rw [takeIn_queue]
      split
      · next hkey =>
        rw [hkey]
        exact mem_append_left _ hin
      · exact hin

lemma Invariant.save (h : s.Invariant) (views : ℕ → View) (input : SaveRequest) :
    (s.save views input).Invariant := by
  unfold Actor.save
  split
  · exact ⟨h.books.refuse _, h.heads.congr (fun _ => rfl) rfl⟩
  · next hok =>
    obtain ⟨-, hroom⟩ := admissionError_none (checkSave_ok hok)
    have hbooks := h.books.takeIn hroom input
    -- the new save is not sent, and the others are as they were
    have hsent : ∀ i, (s.takeIn input).Sent i → s.Sent i := by
      rintro i ⟨save, hsave, hyes⟩
      rcases update_eq_some.mp hsave with ⟨rfl, rfl⟩ | ⟨-, hsave⟩
      · cases hyes
      · exact ⟨save, hsave, hyes⟩
    have hsent' : ∀ key, ∀ i ∈ s.queue key, s.Sent i → (s.takeIn input).Sent i := by
      rintro key i hi ⟨save, hsave, hyes⟩
      exact ⟨save, (update_of_ne (h.books.lt_nextSave hi).ne _ _).trans hsave, hyes⟩
    have hoth : ∀ key, key ≠ keyOf input → ∀ i rest, (s.takeIn input).queue key = i :: rest →
        (s.takeIn input).Sent i ∧ ∀ j ∈ rest, ¬(s.takeIn input).Sent j := by
      intro key hne i rest hq
      rw [takeIn_queue, if_neg (Ne.symm hne)] at hq
      obtain ⟨hhead, hrest⟩ := h.heads.head key id i rest hq
      exact ⟨hsent' key i (by simp [hq]) hhead, fun j hj hs => hrest j hj (hsent j hs)⟩
    have hself := takeIn_queue (s := s) input (keyOf input)
    rw [if_pos rfl] at hself
    have hnew : ¬(s.takeIn input).Sent s.nextSave := by
      rintro ⟨save, hsave, hyes⟩
      obtain rfl := some.inj ((update_self _ _ s.saveTable).symm.trans hsave)
      cases hyes
    dsimp only
    split
    · next hone =>
      -- the queue was empty, and the loop starts it
      rw [hself, length_append, length_singleton] at hone
      have hempty : s.queue (keyOf input) = [] := eq_nil_of_length_eq_zero (by omega)
      have hheads : (s.takeIn input).HeadsBut fun key => key = keyOf input := by
        refine ⟨fun key hne => hoth key hne, ?_⟩
        rintro key rfl i hi
        rw [hself, hempty] at hi
        obtain rfl := mem_singleton.mp hi
        exact hnew
      obtain ⟨hbooks, hheads⟩ := pump_invariant views (keyOf input) _ hbooks hheads rfl
      exact ⟨hbooks, hheads⟩
    · next hmore =>
      refine ⟨hbooks, fun key _ i rest hq => ?_, fun key hkey => hkey.elim⟩
      by_cases heq : key = keyOf input
      · subst heq
        rw [hself] at hq hmore
        cases hwas : s.queue (keyOf input) with
        | nil => simp [hwas] at hmore
        | cons j queue =>
          obtain ⟨hhead, hrest⟩ := h.heads.head _ id j queue hwas
          rw [hwas] at hq
          obtain ⟨rfl, rfl⟩ := List.cons.inj hq
          refine ⟨hsent' (keyOf input) j (by simp [hwas]) hhead, fun j' hj' hs => ?_⟩
          rcases mem_append.mp hj' with hj' | hj'
          · exact hrest j' hj' (hsent j' hs)
          · obtain rfl := mem_singleton.mp hj'
            exact hnew hs
      · exact hoth key heq i rest hq

/-! ## Replies, drains and the exit -/

lemma Invariant.loadReply (h : s.Invariant) {id current result}
    (hload : s.loadTable id = some current) (hawait : current.awaited = true) :
    ((s.setLoad id { current with awaited := false }).finishLoad id result).Invariant := by
  have hin := h.books.awaitedLoad id current hload hawait
  obtain ⟨current', hload', hcomp, -⟩ := h.books.load id hin
  obtain rfl : current = current' := some.inj (hload.symm.trans hload')
  have hnodup : s.loads.Nodup := by
    have hperm := h.books.loads.nodup_iff.mpr (h.books.distinct.filter _)
    exact List.Nodup.of_map _ (nodup_append.mp hperm).2.1
  have hpend := h.books.pending
  have hbound := h.books.bound
  have hlen := length_erase_of_mem hin
  have hpos : 0 < s.loads.length := length_pos_of_mem hin
  simp only [finishLoad, setLoad, update_self, hcomp, Function.update_idem]
  refine ⟨Books.notifyDrained ?_, HeadsBut.notifyDrained (h.heads.congr (fun _ => rfl) rfl)⟩
  refine { h.books with
    distinct := by simpa [note] using h.books.distinct
    openedLoad := by simpa [note] using h.books.openedLoad
    openedSave := by simpa [note] using h.books.openedSave
    loads := ?_
    saves := fun key => (h.books.saves key).append_other rfl rfl
    pending := ?_, bound := ?_
    acknowledged := h.books.acknowledged.append (by simp)
    load := ?_, awaitedLoad := ?_ }
  · show Outstanding _ (s.journal ++ [.answered (.load id) (.load result)])
      ((s.loads.erase id).map Request.load)
    have hinj : Function.Injective Request.load := fun a b hab => Request.load.inj hab
    rw [map_erase hinj]
    exact h.books.loads.answered (mem_map_of_mem hin)
  · show s.pending - 1 = (s.loads.erase id).length + Queues.total s.saves
    omega
  · show s.pending - 1 ≤ s.settings.maxPendingRequests
    omega
  · intro id' hid'
    obtain ⟨hne, hid'⟩ := hnodup.mem_erase_iff.mp hid'
    obtain ⟨load, hload, hrest⟩ := h.books.load id' hid'
    exact ⟨load, (update_of_ne hne _ _).trans hload, hrest⟩
  · intro id' load hload hawait'
    rcases update_eq_some.mp hload with ⟨rfl, rfl⟩ | ⟨hne, hload⟩
    · cases hawait'
    · exact hnodup.mem_erase_iff.mpr ⟨hne, h.books.awaitedLoad id' load hload hawait'⟩

/-- What is awaited is the head of its queue. -/
lemma Invariant.awaited_head (h : s.Invariant) {i}
    (hsave : s.saveTable i = some current) (hawait : current.awaited = true) :
    ∃ rest, s.queue current.key = i :: rest := by
  have hin := h.books.awaitedSave i current hsave hawait
  obtain ⟨-, -, hsent⟩ := h.books.queued _ hsave hin
  cases hq : s.queue current.key with
  | nil => simp [hq] at hin
  | cons j rest =>
    rw [hq] at hin
    rcases mem_cons.mp hin with rfl | hin
    · exact ⟨rest, rfl⟩
    · exact absurd ⟨current, hsave, hsent ▸ hawait⟩ ((h.heads.head _ id j rest hq).2 i hin)

lemma Invariant.saveReply (h : s.Invariant) {i result}
    (hsave : s.saveTable i = some current) (hawait : current.awaited = true) (views : ℕ → View) :
    (pump views current.key
      (((s.setSave i { current with awaited := false }).finishSave current.key i result).queue
        current.key)
      ((s.setSave i { current with awaited := false }).finishSave current.key i result)).Invariant := by
  obtain ⟨rest, hq⟩ := h.awaited_head hsave hawait
  obtain ⟨-, hcomp, -⟩ := h.books.queued current.key hsave (by rw [hq]; simp)
  have hst : (s.setSave i { current with awaited := false }).finishSave current.key i result =
      (s.removeHead current.key i { current with awaited := false, completed := true }
        result).notifyDrained := by
    have htab : (s.setSave i { current with awaited := false }).saveTable i =
        some { current with awaited := false } := update_self i _ s.saveTable
    have hopen : ({ current with awaited := false } : Save).completed = false := hcomp
    rw [finishSave_eq htab hopen]
    simp [Actor.removeHead, setSave, note, Function.update_idem]
  have hquiet : ({ current with awaited := false, completed := true } : Save).awaited = false := rfl
  rw [hst]
  obtain ⟨hbooks, hheads⟩ := pump_invariant views current.key _
    (h.books.removeHead hq hquiet).notifyDrained
    (HeadsBut.removeHead h.books h.heads (fun _ hfalse => hfalse.elim) hq).notifyDrained rfl
  exact ⟨hbooks, hheads⟩

lemma Invariant.drain (h : s.Invariant) (coordinator : ℕ) :
    (notifyDrained { s with
      draining := true, drainWaiters := s.drainWaiters ++ [coordinator] }).Invariant := by
  refine ⟨Books.notifyDrained ?_, HeadsBut.notifyDrained (h.heads.congr (fun _ => rfl) rfl)⟩
  exact { h.books with }

/-- What `on_exit` adds to the journal. -/
lemma onExit_journal : ∃ entries, s.onExit.journal = s.journal ++ entries ∧ opened entries = [] ∧
    answered entries = s.loads.map .load ++
      s.saves.toList.flatMap fun entry => entry.2.map (Request.save entry.1) := by
  have hmap : ∀ (ids : List ℕ) (f : ℕ → Entry) (g : ℕ → Request)
      (_ : ∀ i, ∃ answer, f i = .answered (g i) answer),
      opened (ids.map f) = [] ∧ answered (ids.map f) = ids.map g := by
    intro ids f g hf
    induction ids with
    | nil => exact ⟨rfl, rfl⟩
    | cons i ids ih =>
      obtain ⟨answer, hans⟩ := hf i
      simp [hans, ih]
  have hflat : ∀ queues : List (QueueKey × List ℕ),
      opened (queues.flatMap fun entry => entry.2.map (s.exitSave entry.1)) = [] ∧
      answered (queues.flatMap fun entry => entry.2.map (s.exitSave entry.1)) =
        queues.flatMap fun entry => entry.2.map (Request.save entry.1) := by
    intro queues
    induction queues with
    | nil => exact ⟨rfl, rfl⟩
    | cons entry queues ih =>
      have hone := hmap entry.2 (s.exitSave entry.1) (Request.save entry.1) fun i => ⟨_, rfl⟩
      simp [hone, ih]
  have hloads := hmap s.loads s.exitLoad Request.load fun id => ⟨_, rfl⟩
  refine ⟨_, rfl, ?_, ?_⟩
  · simp [hloads, hflat]
  · simp [hloads, hflat]

lemma Invariant.exit (h : s.Invariant) : s.onExit.Invariant := by
  obtain ⟨entries, hjournal, hopen, hanswered⟩ := s.onExit_journal
  have hq : ∀ key, s.onExit.queue key = [] := fun key => queue_empty key
  have hnow : opened s.onExit.journal = opened s.journal := by
    rw [hjournal, opened_append, hopen, append_nil]
  have hqueued : ∀ key, ∀ i ∈ s.queue key, i ∈ s.saves.toList.flatMap fun entry => entry.2 := by
    intro key i hi
    unfold queue Queues.queue at hi
    cases hkey : s.saves[key]? with
    | none => simp [hkey] at hi
    | some queue =>
      rw [hkey] at hi
      exact mem_flatMap.mpr
        ⟨(key, queue), mem_toList_iff_getElem?_eq_some.mpr hkey, hi⟩
  refine ⟨?_, fun key _ i rest hi => ?_, fun key hkey => hkey.elim⟩
  · constructor
    · rw [hnow]
      exact h.books.distinct
    · rw [hnow]
      exact h.books.openedLoad
    · rw [hnow]
      exact h.books.openedSave
    · rw [hjournal]
      refine h.books.loads.answered_all (by simp [hopen]) ?_
      rw [hanswered, filter_append, filter_eq_self.mpr, filter_eq_nil_iff.mpr,
        append_nil]
      · intro r hr
        obtain ⟨entry, -, hr⟩ := mem_flatMap.mp hr
        obtain ⟨i, -, rfl⟩ := mem_map.mp hr
        simp [Request.isLoad]
      · intro r hr
        obtain ⟨id, -, rfl⟩ := mem_map.mp hr
        rfl
    · intro key
      rw [hjournal, hq]
      refine (h.books.saves key).answered_all (by simp [hopen]) ?_
      rw [hanswered, filter_append, filter_eq_nil_iff.mpr, nil_append]
      · refine flatMap_filter s.saves Request.save key _ ?_ ?_
        · simp [Request.inPartition]
        · intro key' i hne
          simpa [Request.inPartition] using hne
      · intro r hr
        obtain ⟨id, -, rfl⟩ := mem_map.mp hr
        simp [Request.inPartition]
    · show 0 = 0 + Queues.total (∅ : Std.ExtTreeMap QueueKey (List ℕ))
      rw [total_empty]
    · exact Nat.zero_le _
    · rw [hjournal]
      refine h.books.acknowledged.append fun waiter hin => ?_
      have hents : entries = s.loads.map s.exitLoad ++
          s.saves.toList.flatMap fun entry => entry.2.map (s.exitSave entry.1) :=
        append_cancel_left hjournal.symm
      rw [hents] at hin
      rcases mem_append.mp hin with hin | hin
      · obtain ⟨id, -, hid⟩ := mem_map.mp hin
        cases hid
      · obtain ⟨entry, -, hin⟩ := mem_flatMap.mp hin
        obtain ⟨i, -, hi⟩ := mem_map.mp hin
        cases hi
    · intro key hkey
      have hnone : (∅ : Std.ExtTreeMap QueueKey (List ℕ))[key]? = none :=
        getElem?_empty
      cases hnone.symm.trans hkey
    · intro id hid
      cases hid
    · intro id load hload hawait
      obtain ⟨load₀, hload₀, rfl⟩ := map_eq_some_iff.mp hload
      split at hawait
      · cases hawait
      · next hnot => exact absurd (h.books.awaitedLoad id load₀ hload₀ hawait) hnot
    · intro key i hi
      cases hi
    · intro i save hsave hawait
      obtain ⟨save₀, hsave₀, rfl⟩ := map_eq_some_iff.mp hsave
      split at hawait
      · cases hawait
      · next hnot => exact absurd (hqueued _ i (h.books.awaitedSave i save₀ hsave₀ hawait)) hnot
  · cases hi

/-- **Every event keeps the invariant.** -/
theorem step_invariant {event} (h : s.Invariant) (hstep : s.step event = some s') :
    s'.Invariant := by
  unfold step at hstep
  split at hstep
  · cases hstep
  · cases event with
    | load input backend =>
      cases hstep
      exact h.load input backend
    | save input views =>
      cases hstep
      exact h.save views input
    | loadReply id reply =>
      dsimp only at hstep
      split at hstep
      · cases hstep
      · next current hload =>
        split at hstep
        · cases hstep
        · next hawait =>
          cases hstep
          exact h.loadReply hload (by simpa using hawait)
    | saveReply i reply views =>
      dsimp only at hstep
      split at hstep
      · cases hstep
      · next current hsave =>
        split at hstep
        · cases hstep
        · next hawait =>
          cases hstep
          exact h.saveReply hsave (by simpa using hawait) views
    | drain coordinator =>
      cases hstep
      exact h.drain coordinator
    | exit =>
      cases hstep
      exact h.exit

/-! ## Runs -/

@[simp] lemma notifyDrained_settings : s.notifyDrained.settings = s.settings := by
  unfold notifyDrained
  split <;> rfl

@[simp] lemma finishSave_settings (key : QueueKey) (i : ℕ) (result : SaveResult) :
    (s.finishSave key i result).settings = s.settings := by
  unfold finishSave
  split
  · rfl
  · split
    · rfl
    · rw [notifyDrained_settings]
      rfl

lemma pump_settings (views : ℕ → View) (key : QueueKey) (queue : List ℕ) (s : Actor) :
    (pump views key queue s).settings = s.settings := by
  induction queue generalizing s with
  | nil => rfl
  | cons i rest ih =>
    rw [pump]
    split
    · rfl
    · split
      · rw [ih, finishSave_settings]
      · rfl

lemma step_settings {event} (hstep : s.step event = some s') : s'.settings = s.settings := by
  unfold step at hstep
  split at hstep
  · cases hstep
  · cases event with
    | load input backend =>
      cases hstep
      unfold load
      split <;> rfl
    | save input views =>
      cases hstep
      unfold save
      split
      · rfl
      · dsimp only
        split
        · rw [pump_settings]
          rfl
        · rfl
    | loadReply id reply =>
      dsimp only at hstep
      split at hstep
      · cases hstep
      · split at hstep
        · cases hstep
        · cases hstep
          unfold finishLoad
          split
          · rfl
          · split
            · rfl
            · rw [notifyDrained_settings]
              rfl
    | saveReply i reply views =>
      dsimp only at hstep
      split at hstep
      · cases hstep
      · split at hstep
        · cases hstep
        · cases hstep
          rw [pump_settings, finishSave_settings]
          rfl
    | drain coordinator =>
      cases hstep
      rw [notifyDrained_settings]
    | exit =>
      cases hstep
      rfl

/-- The backend still has to reply to something. -/
def Awaiting (s : Actor) : Prop :=
  (∃ id load, s.loadTable id = some load ∧ load.awaited = true) ∨
    ∃ i save, s.saveTable i = some save ∧ save.awaited = true

/-- What is not answered waits for the backend. -/
lemma Invariant.answered_or_awaiting (h : s.Invariant) {r} (hr : r ∈ opened s.journal)
    (hidle : ¬s.Awaiting) : r ∈ answered s.journal := by
  cases r with
  | load id =>
    refine (h.books.loads.answered_iff h.books.distinct hr rfl).mpr fun hin => hidle (.inl ?_)
    obtain ⟨id', hid', heq⟩ := mem_map.mp hin
    cases heq
    obtain ⟨load, hload, -, hawait⟩ := h.books.load id hid'
    exact ⟨id, load, hload, hawait⟩
  | save key i =>
    refine ((h.books.saves key).outstanding.answered_iff h.books.distinct hr
      (by simp [Request.inPartition])).mpr fun hin => hidle (.inr ?_)
    obtain ⟨i', hi', -⟩ := mem_map.mp hin
    cases hq : s.queue key with
    | nil => simp [hq] at hi'
    | cons j rest =>
      -- the head of the queue of the save is with the backend
      obtain ⟨⟨save, hsave, hsent⟩, -⟩ := h.heads.head key id j rest hq
      obtain ⟨-, -, hawait⟩ := h.books.queued key hsave (by simp [hq])
      exact ⟨j, save, hsave, hawait.trans hsent⟩

lemma Invariant.count_le_one (h : s.Invariant) (r : Request) : (answered s.journal).count r ≤ 1 := by
  cases r with
  | load id => exact h.books.loads.count_le_one h.books.distinct rfl
  | save key i =>
    exact (h.books.saves key).outstanding.count_le_one h.books.distinct (by simp [Request.inPartition])

theorem run_invariant {settings events} (hrun : Machine.run step (initial settings) events = some s) :
    s.Invariant ∧ s.settings = settings := by
  refine Machine.run_invariant (I := fun s => s.Invariant ∧ s.settings = settings) ?_ ?_ hrun
  · rintro s event s' ⟨hinv, hsettings⟩ hstep
    exact ⟨step_invariant hinv hstep, (step_settings hstep).trans hsettings⟩
  · refine ⟨⟨initial_books settings, fun key _ i rest hi => ?_, fun key hkey => hkey.elim⟩, rfl⟩
    have hnil : (initial settings).queue key = [] := queue_empty key
    cases hnil.symm.trans hi

end Actor

/-- **The queues of the document entity store**, in every state that events lead to, whatever the requests,
the replies, the errors and the clock readings are:

* `pending_` counts the loads and the saves in the queues, and stays within the limit;
* the head of every queue was sent, and nothing behind it;
* the saves of a store and partition are answered in the order in which they were taken in, and those
  that are left are in its queue;
* nothing is answered twice, and whenever the backend has nothing left to reply to, everything that was
  taken in is answered;
* what was taken in before a drain was acknowledged was answered before that;
* when the actor exits, everything is answered, a queued save with commit-unknown if it was sent and
  with unavailable otherwise. -/
theorem document_queues (settings : ServiceConfig) {events : List Event} {s : Actor}
    (hrun : Machine.run Actor.step (.initial settings) events = some s) :
    (s.pending = s.loads.length + Queues.total s.saves ∧
      s.pending ≤ settings.maxPendingRequests) ∧
    (∀ key i rest, s.queue key = i :: rest → s.Sent i ∧ ∀ j ∈ rest, ¬s.Sent j) ∧
    (∀ key, (answered s.journal).filter (Request.inPartition key) ++ (s.queue key).map (.save key) =
      (opened s.journal).filter (Request.inPartition key)) ∧
    (∀ r ∈ opened s.journal, (answered s.journal).count r ≤ 1 ∧
      (¬s.Awaiting → (answered s.journal).count r = 1)) ∧
    (∀ front coordinator back, s.journal = front ++ .acknowledged coordinator :: back →
      ∀ r ∈ opened front, r ∈ answered front) ∧
    ∀ s', s.step .exit = some s' →
      (∀ r ∈ opened s'.journal, (answered s'.journal).count r = 1) ∧
      ∀ key, ∀ i ∈ s.queue key, ∃ save, s.saveTable i = some save ∧
        .answered (.save key i) (.save (failSave save.input
          (if save.sent then .commitUnknown else .unavailable)
          (str "entity store exited; retry with the same request_id and payload"))) ∈ s'.journal := by
  obtain ⟨hinv, hsettings⟩ := Actor.run_invariant hrun
  have hbooks := hinv.books
  have honce : ∀ {s : Actor}, s.Invariant → ∀ r ∈ opened s.journal, ¬s.Awaiting →
      (answered s.journal).count r = 1 := by
    intro s hinv r hr hidle
    have hpos := count_pos_iff.mpr (hinv.answered_or_awaiting hr hidle)
    have hle := hinv.count_le_one r
    omega
  refine ⟨⟨hbooks.pending, hsettings ▸ hbooks.bound⟩, fun key => hinv.heads.head key id, hbooks.saves,
    fun r hr => ⟨hinv.count_le_one r, honce hinv r hr⟩, hbooks.acknowledged, fun s' hexit => ?_⟩
  have hinv' := Actor.step_invariant hinv hexit
  simp only [Actor.step] at hexit
  split at hexit
  · cases hexit
  · cases hexit
    refine ⟨fun r hr => honce hinv' r hr ?_, fun key i hi => ?_⟩
    · -- nothing is awaited after the exit, since everything awaited was in a container
      rintro (⟨id, load, hload, hawait⟩ | ⟨i, save, hsave, hawait⟩)
      · cases hinv'.books.awaitedLoad id load hload hawait
      · have hin := hinv'.books.awaitedSave i save hsave hawait
        have hnil : s.onExit.queue save.key = [] := queue_empty save.key
        cases hin
    · obtain ⟨save, hsave, -⟩ := hbooks.save key i hi
      refine ⟨save, hsave, mem_append_right _ (mem_append_right _ ?_)⟩
      unfold Actor.queue Queues.queue at hi
      cases hkey : s.saves[key]? with
      | none => simp [hkey] at hi
      | some queue =>
        rw [hkey] at hi
        refine mem_flatMap.mpr
          ⟨(key, queue), mem_toList_iff_getElem?_eq_some.mpr hkey, ?_⟩
        refine mem_map.mpr ⟨i, hi, ?_⟩
        simp [Actor.exitSave, hsave]

namespace Sample

/-- Players with an id and a score. -/
def settings : ServiceConfig where
  catalog := .single true {
    name := str "default"
    readService := str "redis"
    writeService := str "redis"
    entities := (∅ : StringMap EntitySchema).insert (str "player") {
      name := str "player"
      table := str "players"
      keys := [{ name := str "id", column := str "id", kind := .unsignedInteger }]
      fields := [{ name := str "score", column := str "score", kind := .signedInteger }] } }
    (by decide +kernel)
  maxPendingRequests := 2

def target : EntityRef := { entity := str "player", key := [⟨str "id", .unsignedInteger 7⟩] }

def save (requestId : Bytes) : Event :=
  .save {
    requestId
    changes := [{
      target
      fields := [{ name := str "score", data := .signedInteger 1 }]
      operation := .insert }] } fun _ => {}

/-- Two saves of one partition, a third one that is too many, and a drain. -/
def events : List Event :=
  [save (str "a"), save (str "b"), save (str "c"), .drain 9, .saveReply 0 (.ok {}) fun _ => {},
    .saveReply 1 (.error (str "timeout")) fun _ => {}]

end Sample

open Sample in
/-- The drain is acknowledged after the second reply. -/
theorem document_queues_drained : ∃ s, Machine.run Actor.step (.initial settings) events = some s ∧
    s.journal.getLast? = some (.acknowledged 9) ∧ s.pending = 0 ∧ s.refusals.length = 1 ∧
    ∀ r ∈ opened s.journal, (answered s.journal).count r ≤ 1 := by
  have heval : (Machine.run Actor.step (.initial settings) events).map (fun s =>
      (s.journal.getLast?.map fun e => match e with | .acknowledged c => some c | _ => none, s.pending,
        s.refusals.length)) = some (some (some 9), 0, 1) := by
    decide +kernel
  obtain ⟨s, hrun, hfacts⟩ := map_eq_some_iff.mp heval
  simp only [Prod.mk.injEq] at hfacts
  obtain ⟨hlast, hpend, hrefusals⟩ := hfacts
  obtain ⟨entry, hentry, hack⟩ := map_eq_some_iff.mp hlast
  have hacknowledged : entry = .acknowledged 9 := by
    cases entry with
    | opened r => cases hack
    | answered r result => cases hack
    | acknowledged c =>
      cases hack
      rfl
  obtain ⟨-, -, -, honce, -, -⟩ := document_queues settings hrun
  exact ⟨s, hrun, hacknowledged ▸ hentry, hpend, hrefusals, fun r hr => (honce r hr).1⟩

end Caf.EntityStore.Document
