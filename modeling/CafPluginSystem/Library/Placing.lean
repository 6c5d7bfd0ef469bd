import CafPluginSystem.Library.History

/-!
# Placing the nodes of a graph

Kahn's algorithm places the nodes of a finite graph one after another, each when the count of its open
dependencies has gone down to zero.  The count of a node starts at the length of its dependency list and goes
down by one for each placed node that occurs in the list, however often it occurs.

* `openCount_eq_zero_iff` — the count is zero when all dependencies are placed and none occurs twice.
* `Placing.step` — one round keeps the books: what is placed or ready are the nodes with count zero.
* `Placing.complete_iff` — all nodes get placed exactly when the graph has no cycle and no dependency list has a
  repetition.
-/

namespace Placing

open History List

variable {V : Type*} [BEq V] [LawfulBEq V] {deps : V → List V} {nodes placed ready : List V} {u v w : V}

/-- The dependencies of `v` that are still open when `placed` has been placed, as the algorithm counts them. -/
def openCount (deps : V → List V) (placed : List V) (v : V) : ℤ :=
  (deps v).length - (placed.filter (· ∈ deps v)).length

@[simp] lemma openCount_nil : openCount deps [] v = (deps v).length := by
  simp [openCount]

/-- Placing `u` closes one dependency of the nodes that depend on it. -/
lemma openCount_snoc :
    openCount deps (placed ++ [u]) v = openCount deps placed v - if u ∈ deps v then 1 else 0 := by
  by_cases h : u ∈ deps v
  · simp only [openCount, filter_append, length_append, h, if_true]
    simp [h]
    omega
  · simp [openCount, h]

lemma placed_subperm (hp : placed.Nodup) : (placed.filter (· ∈ deps v)).Subperm (deps v) :=
  (hp.filter _).subperm fun x hx => by simpa using (mem_filter.mp hx).2

/-- **No open dependency.**  The count is zero when every dependency is placed and none is listed twice. -/
lemma openCount_eq_zero_iff (hp : placed.Nodup) :
    openCount deps placed v = 0 ↔ (deps v).Nodup ∧ ∀ d ∈ deps v, d ∈ placed := by
  constructor
  · intro h
    have hlen : (deps v).length ≤ (placed.filter (· ∈ deps v)).length := by
      unfold openCount at h
      omega
    have hperm := (placed_subperm hp).perm_of_length_le hlen
    refine ⟨hperm.nodup_iff.mp (hp.filter _), fun d hd => ?_⟩
    exact (mem_filter.mp (hperm.mem_iff.mpr hd)).1
  · rintro ⟨hd, hsub⟩
    have hperm : (placed.filter (· ∈ deps v)).Perm (deps v) := by
      refine (perm_ext_iff_of_nodup (hp.filter _) hd).mpr fun x => ?_
      constructor
      · intro hx
        simpa using (mem_filter.mp hx).2
      · intro hx
        exact mem_filter.mpr ⟨hsub x hx, by simpa using hx⟩
    have := hperm.length_eq
    unfold openCount
    omega

/-- The books of the algorithm: what is placed and what waits in the queue are, once each, the nodes without an
open dependency. -/
structure Books (deps : V → List V) (nodes placed ready : List V) : Prop where
  nodup : (placed ++ ready).Nodup
  mem_iff : ∀ v, v ∈ placed ++ ready ↔ v ∈ nodes ∧ openCount deps placed v = 0

lemma Books.placed_nodup (h : Books deps nodes placed ready) : placed.Nodup :=
  (nodup_append.mp h.nodup).1

lemma Books.start (hr : ready.Nodup)
    (hmem : ∀ v, v ∈ ready ↔ v ∈ nodes ∧ (deps v).length = 0) : Books deps nodes [] ready := by
  refine ⟨by simpa using hr, fun v => ?_⟩
  simpa using hmem v

/-- A node of the queue is not a dependency of a node that is placed or in the queue. -/
lemma Books.not_dep (h : Books deps nodes placed ready) (hu : u ∈ ready) (hv : v ∈ placed ++ ready) :
    u ∉ deps v := by
  intro hd
  have hclosed := ((openCount_eq_zero_iff h.placed_nodup).mp ((h.mem_iff v).mp hv).2).2 u hd
  exact (nodup_append.mp h.nodup).2.2 u hclosed u hu rfl

/-- **One round.**  `u` leaves the queue and is placed; the nodes for which it was the last open dependency enter
the queue. -/
lemma Books.step (h : Books deps nodes placed ready) (hu : u ∈ ready) {fresh : List V} (hf : fresh.Nodup)
    (hfresh : ∀ v, v ∈ fresh ↔ v ∈ nodes ∧ u ∈ deps v ∧ openCount deps placed v = 1) :
    Books deps nodes (placed ++ [u]) (ready.erase u ++ fresh) := by
  have hready : ready.Nodup := (nodup_append.mp h.nodup).2.1
  have hperm : (placed ++ [u] ++ (ready.erase u ++ fresh)).Perm (placed ++ ready ++ fresh) := by
    have : (u :: ready.erase u).Perm ready := (perm_cons_erase hu).symm
    simpa using (List.Perm.append_left placed (this.append_right fresh))
  have hmem : ∀ v, v ∈ placed ++ [u] ++ (ready.erase u ++ fresh) ↔ v ∈ placed ++ ready ∨ v ∈ fresh :=
    fun v => hperm.mem_iff.trans mem_append
  constructor
  · refine hperm.nodup_iff.mpr (nodup_append.mpr ⟨h.nodup, hf, ?_⟩)
    rintro a ha b hb rfl
    exact h.not_dep hu ha ((hfresh a).mp hb).2.1
  · intro v
    rw [hmem, openCount_snoc, hfresh, h.mem_iff]
    by_cases hd : u ∈ deps v
    · have hne : openCount deps placed v ≠ 0 := by
        intro h0
        by_cases hv : v ∈ nodes
        · exact h.not_dep hu ((h.mem_iff v).mpr ⟨hv, h0⟩) hd
        · have hclosed := ((openCount_eq_zero_iff h.placed_nodup).mp h0).2 u hd
          exact (nodup_append.mp h.nodup).2.2 u hclosed u hu rfl
      simp only [hd, hne, if_true, and_false, true_and, false_or]
      constructor
      · rintro ⟨hv, h1⟩
        exact ⟨hv, by omega⟩
      · rintro ⟨hv, h1⟩
        exact ⟨hv, by omega⟩
    · simp [hd]

/-! ## The finished order -/

/-- The graph has a cycle. -/
def Cyclic (deps : V → List V) : Prop := ∃ v, Relation.TransGen (fun a b => b ∈ deps a) v v

/-- An order that has every dependency of a node before the node excludes a cycle among its nodes. -/
lemma not_cyclic_of_ordered (hclosed : ∀ v, deps v ≠ [] → v ∈ placed)
    (hord : Guarded (fun v front => ∀ d ∈ deps v, d ∈ front) placed) (hp : placed.Nodup) :
    ¬ Cyclic deps := by
  have hlt : ∀ a b, Relation.TransGen (fun a b => b ∈ deps a) a b →
      placed.idxOf b < placed.idxOf a := by
    intro a b hab
    induction hab using Relation.TransGen.head_induction_on with
    | @single a h =>
      obtain ⟨front, back, rfl⟩ := append_of_mem (hclosed a (ne_nil_of_mem h))
      have hb : b ∈ front := hord front a back rfl b h
      have ha : a ∉ front := fun ha =>
        (nodup_append.mp hp).2.2 a ha a mem_cons_self rfl
      rw [idxOf_append_of_mem hb, idxOf_append_of_notMem ha]
      have := idxOf_lt_length_of_mem hb
      omega
    | @head a c h _ ih =>
      obtain ⟨front, back, rfl⟩ := append_of_mem (hclosed a (ne_nil_of_mem h))
      have hc : c ∈ front := hord front a back rfl c h
      have ha : a ∉ front := fun ha =>
        (nodup_append.mp hp).2.2 a ha a mem_cons_self rfl
      rw [idxOf_append_of_notMem ha]
      rw [idxOf_append_of_mem hc] at ih
      have := idxOf_lt_length_of_mem hc
      omega
  rintro ⟨v, hv⟩
  exact lt_irrefl _ (hlt v v hv)

/-- Without a cycle and without repetitions no node is left over. -/
lemma Books.all_placed (h : Books deps nodes placed []) (hacyc : ¬ Cyclic deps)
    (hnodup : ∀ v ∈ nodes, (deps v).Nodup) (hclosed : ∀ v ∈ nodes, ∀ d ∈ deps v, d ∈ nodes) :
    ∀ v ∈ nodes, v ∈ placed := by
  -- the relation "is a transitive dependency of" on the nodes, which is finite and irreflexive
  let below : {v // v ∈ nodes} → {v // v ∈ nodes} → Prop :=
    fun a b => Relation.TransGen (fun x y => y ∈ deps x) b.1 a.1
  have : Finite {v // v ∈ nodes} := finite_toSet nodes
  have : IsTrans _ below := ⟨fun _ _ _ hab hbc => hbc.trans hab⟩
  have : Std.Irrefl below := ⟨fun a ha => hacyc ⟨a.1, ha⟩⟩
  have hwf : WellFounded below := Finite.wellFounded_of_trans_of_irrefl below
  have hall : ∀ a : {v // v ∈ nodes}, a.1 ∈ placed := by
    intro a
    induction a using hwf.induction with
    | _ a ih =>
      have hdeps : ∀ d ∈ deps a.1, d ∈ placed := fun d hd =>
        ih ⟨d, hclosed a.1 a.2 d hd⟩ (Relation.TransGen.single hd)
      have h0 := (openCount_eq_zero_iff h.placed_nodup).mpr ⟨hnodup a.1 a.2, hdeps⟩
      simpa using (h.mem_iff a.1).mpr ⟨a.2, h0⟩
  exact fun v hv => hall ⟨v, hv⟩

/-- **When everything is placed.**  The algorithm ends with all nodes placed exactly when there is no cycle and no
dependency list has a repetition. -/
theorem Books.complete_iff (h : Books deps nodes placed [])
    (hord : Guarded (fun v front => openCount deps front v = 0) placed) (hn : nodes.Nodup)
    (hkeys : ∀ v, deps v ≠ [] → v ∈ nodes) (hclosed : ∀ v ∈ nodes, ∀ d ∈ deps v, d ∈ nodes) :
    placed.length = nodes.length ↔ ¬ Cyclic deps ∧ ∀ v ∈ nodes, (deps v).Nodup := by
  have hsub : placed ⊆ nodes := fun v hv => ((h.mem_iff v).mp (by simpa using hv)).1
  have hp := h.placed_nodup
  have hfront : ∀ front v back, placed = front ++ v :: back → front.Nodup := by
    rintro front v back rfl
    exact (nodup_append.mp hp).1
  constructor
  · intro hlen
    have hperm : placed.Perm nodes := (hp.subperm hsub).perm_of_length_le hlen.ge
    constructor
    · refine not_cyclic_of_ordered (fun v hv => hperm.mem_iff.mpr (hkeys v hv)) ?_ hp
      intro front v back hsplit
      exact ((openCount_eq_zero_iff (hfront front v back hsplit)).mp (hord front v back hsplit)).2
    · intro v hv
      obtain ⟨front, back, hsplit⟩ := append_of_mem (hperm.mem_iff.mpr hv)
      exact ((openCount_eq_zero_iff (hfront front v back hsplit)).mp (hord front v back hsplit)).1
  · rintro ⟨hacyc, hnodup⟩
    have hall := h.all_placed hacyc hnodup hclosed
    exact ((perm_ext_iff_of_nodup hp hn).mpr fun v => ⟨fun hv => hsub hv, hall v⟩).length_eq

end Placing
