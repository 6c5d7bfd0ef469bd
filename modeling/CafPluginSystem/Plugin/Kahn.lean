import CafPluginSystem.Library.GraphSearch
import CafPluginSystem.Library.Placing
import CafPluginSystem.Plugin.LoadOrder

/-!
# Kahn's algorithm in the dependency graph

`DependencyGraph::topological_order`, with its map of in-degrees and its priority queue, keeps the books of
`Placing`: the in-degree of a node is the number of its open dependencies as the algorithm counts them.

* `kahn_books` — the loop ends with an empty queue and with books that are right.
* `topologicalOrder_spec` — what `topological_order` returns for any graph.
* `cycleDetection_exact` — **the depth-first search** ends and finds a cycle exactly where one can be reached.
-/

namespace Caf.Plugin

open EntityStore GraphSearch History Placing List Std.ExtTreeMap StringMap

namespace DependencyGraph

variable {g : DependencyGraph} {u v w : Bytes}
variable {q placed ds : List Bytes} {degrees : StringMap ℤ} {a b : Bytes}

/-- The edges of a node; a provider that was not added has none. -/
def deps (g : DependencyGraph) (v : Bytes) : List Bytes := g.graph.getD v []

lemma deps_eq_of_mem (h : (v, ds) ∈ g.graph.toList) : g.deps v = ds := by
  rw [deps, getD_eq_getD_getElem?,
    mem_toList_iff_getElem?_eq_some.mp h]
  rfl

lemma entry_or_no_deps (g : DependencyGraph) (v : Bytes) :
    (v, g.deps v) ∈ g.graph.toList ∨ (g.deps v = [] ∧ ∀ e ∈ g.graph.toList, e.1 ≠ v) := by
  obtain h | ⟨ds, h⟩ := Option.eq_none_or_eq_some g.graph[v]?
  · refine .inr ⟨by rw [deps, getD_eq_getD_getElem?, h]; rfl, ?_⟩
    rintro ⟨k, ds⟩ he rfl
    rw [mem_toList_iff_getElem?_eq_some.mp he] at h
    exact absurd h (by simp)
  · have hm := mem_toList_iff_getElem?_eq_some.mpr h
    exact .inl (by rw [deps_eq_of_mem hm]; exact hm)

lemma entry_of_dep (h : u ∈ g.deps v) : (v, g.deps v) ∈ g.graph.toList :=
  (g.entry_or_no_deps v).resolve_right fun hn => by simp [hn.1] at h

/-! ## The in-degrees -/

/-- The nodes of the graph, those that are only depended on included. -/
def nodes (g : DependencyGraph) : List Bytes := g.inDegree.keys

lemma getD_insert (m : StringMap ℤ) (k a : Bytes) (x : ℤ) :
    (m.insert k x).getD a 0 = if k = a then x else m.getD a 0 := by
  simp only [Std.ExtTreeMap.getD_insert, Std.LawfulEqOrd.compare_eq_iff_eq]

/-- Naming a dependency in the map of degrees changes no degree. -/
lemma getD_named (ds : List Bytes) (m : StringMap ℤ) (a : Bytes) :
    (ds.foldl (fun degrees dep => degrees.insertIfNew dep 0) m).getD a 0 = m.getD a 0 := by
  induction ds generalizing m with
  | nil => rfl
  | cons d ds ih =>
    rw [foldl_cons, ih, getD_insertIfNew]
    split
    · rename_i h
      obtain ⟨hd, hm⟩ := h
      rw [Std.LawfulEqOrd.compare_eq_iff_eq] at hd
      rw [← hd, getD_eq_fallback hm]
    · rfl

lemma mem_named (ds : List Bytes) (m : StringMap ℤ) (a : Bytes) :
    a ∈ ds.foldl (fun degrees dep => degrees.insertIfNew dep 0) m ↔ a ∈ m ∨ a ∈ ds := by
  induction ds generalizing m with
  | nil => simp
  | cons d ds ih =>
    rw [foldl_cons, ih, mem_insertIfNew, Std.LawfulEqOrd.compare_eq_iff_eq,
      mem_cons]
    grind

/-- One round of the loop that counts the edges. -/
def countEdges (degrees : StringMap ℤ) (entry : Bytes × List Bytes) : StringMap ℤ :=
  entry.2.foldl (fun degrees dep => degrees.insertIfNew dep 0) (degrees.insert entry.1 entry.2.length)

lemma inDegree_eq (g : DependencyGraph) : g.inDegree = g.graph.toList.foldl countEdges ∅ := rfl

lemma getD_countEdges (m : StringMap ℤ) (e : Bytes × List Bytes) (a : Bytes) :
    (countEdges m e).getD a 0 = if e.1 = a then (e.2.length : ℤ) else m.getD a 0 := by
  rw [countEdges, getD_named, getD_insert]

section

variable (entries : List (Bytes × List Bytes)) (m : StringMap ℤ)
include entries m

lemma getD_counted_of_forall_ne (h : ∀ e ∈ entries, e.1 ≠ v) : (entries.foldl countEdges m).getD v 0 = m.getD v 0 := by
  induction entries generalizing m with
  | nil => rfl
  | cons e entries ih =>
    rw [foldl_cons, ih _ fun x hx => h x (mem_cons_of_mem _ hx), getD_countEdges,
      if_neg (h e mem_cons_self)]

lemma getD_counted_of_mem (hd : entries.Pairwise fun a b => a.1 ≠ b.1) (h : (v, ds) ∈ entries) :
    (entries.foldl countEdges m).getD v 0 = ds.length := by
  induction entries generalizing m with
  | nil => exact absurd h (by simp)
  | cons e entries ih =>
    obtain ⟨hhead, htail⟩ := pairwise_cons.mp hd
    rw [foldl_cons]
    obtain rfl | h := mem_cons.mp h
    · rw [getD_counted_of_forall_ne entries _ fun x hx => (hhead x hx).symm, getD_countEdges,
        if_pos rfl]
    · exact ih _ htail h

lemma mem_counted :
    v ∈ entries.foldl countEdges m ↔ v ∈ m ∨ ∃ e ∈ entries, e.1 = v ∨ v ∈ e.2 := by
  induction entries generalizing m with
  | nil => simp
  | cons e entries ih =>
    rw [foldl_cons, ih, countEdges, mem_named, mem_insert]
    simp only [mem_cons, exists_eq_or_imp]
    grind

end

/-- **The in-degree of a node is the number of its edges.** -/
lemma inDegree_getD (g : DependencyGraph) (v : Bytes) : g.inDegree.getD v 0 = (g.deps v).length := by
  rw [inDegree_eq]
  obtain h | ⟨hnil, hne⟩ := g.entry_or_no_deps v
  · exact getD_counted_of_mem _ _ (toList_distinct g.graph) h
  · rw [getD_counted_of_forall_ne _ _ hne, hnil]
    rfl

lemma mem_nodes : v ∈ g.nodes ↔ v ∈ g.graph ∨ ∃ w, v ∈ g.deps w := by
  rw [nodes, Std.ExtTreeMap.mem_keys, inDegree_eq, mem_counted]
  constructor
  · rintro (h | ⟨⟨k, ds⟩, he, rfl | hv⟩)
    · exact absurd h Std.ExtTreeMap.not_mem_empty
    · refine .inl (Std.ExtTreeMap.mem_iff_isSome_getElem?.mpr ?_)
      simp [Std.ExtTreeMap.mem_toList_iff_getElem?_eq_some.mp he]
    · exact .inr ⟨k, by rw [deps_eq_of_mem he]; exact hv⟩
  · rintro (h | ⟨k, hk⟩)
    · obtain ⟨ds, hds⟩ := Option.isSome_iff_exists.mp (Std.ExtTreeMap.mem_iff_isSome_getElem?.mp h)
      exact .inr ⟨(v, ds), Std.ExtTreeMap.mem_toList_iff_getElem?_eq_some.mpr hds, .inl rfl⟩
    · exact .inr ⟨(k, g.deps k), entry_of_dep hk, .inr hk⟩

lemma nodes_nodup (g : DependencyGraph) : g.nodes.Nodup := nodup_keys

lemma nodes_length (g : DependencyGraph) : g.nodes.length = g.inDegree.size := length_keys

lemma mem_nodes_of_deps (h : g.deps v ≠ []) : v ∈ g.nodes := by
  obtain ⟨d, hd⟩ := exists_mem_of_ne_nil _ h
  refine mem_nodes.mpr (.inl (mem_iff_isSome_getElem?.mpr ?_))
  simp [mem_toList_iff_getElem?_eq_some.mp (entry_of_dep hd)]

/-! ## One round of the loop -/

section

variable (entries : List (Bytes × List Bytes)) (work : StringMap ℤ × List Bytes)
include entries work

lemma released_of_forall_ne
    (h : ∀ e ∈ entries, e.1 ≠ v) : (entries.foldl (release u) work).1.getD v 0 = work.1.getD v 0 := by
  induction entries generalizing work with
  | nil => rfl
  | cons e entries ih =>
    rw [foldl_cons, ih _ fun x hx => h x (mem_cons_of_mem _ hx), release]
    split
    · rw [getD_insert, if_neg (h e mem_cons_self)]
    · rfl

/-- Going through the nodes, the degree of each one that depends on `u` goes down by one. -/
lemma released_of_mem (hd : entries.Pairwise fun a b => a.1 ≠ b.1) (h : (v, ds) ∈ entries) :
    (entries.foldl (release u) work).1.getD v 0 = work.1.getD v 0 - if u ∈ ds then 1 else 0 := by
  induction entries generalizing work with
  | nil => exact absurd h (by simp)
  | cons e entries ih =>
    obtain ⟨hhead, htail⟩ := pairwise_cons.mp hd
    rw [foldl_cons]
    obtain rfl | h := mem_cons.mp h
    · rw [released_of_forall_ne entries _ fun x hx => (hhead x hx).symm, release]
      split
      · rw [getD_insert, if_pos rfl]
      · rw [sub_zero]
    · rw [ih _ htail h, release]
      split
      · rw [getD_insert, if_neg (hhead _ h)]
      · rfl

/-- The nodes for which `u` was the last open edge enter the queue. -/
lemma released_queue (hd : entries.Pairwise fun a b => a.1 ≠ b.1) :
    (entries.foldl (release u) work).2
      = work.2 ++ (entries.filter fun e => u ∈ e.2 ∧ work.1.getD e.1 0 = 1).map Prod.fst := by
  induction entries generalizing work with
  | nil => simp
  | cons e entries ih =>
    obtain ⟨hhead, htail⟩ := pairwise_cons.mp hd
    rw [foldl_cons, ih _ htail]
    -- the entries behind `e` still have the degree they had before `e` was handled
    have hrest : (entries.filter fun x => u ∈ x.2 ∧ (release u work e).1.getD x.1 0 = 1)
        = entries.filter fun x => u ∈ x.2 ∧ work.1.getD x.1 0 = 1 := by
      refine filter_congr fun x hx => ?_
      rw [release]
      split
      · rw [getD_insert, if_neg (hhead x hx)]
      · rfl
    rw [hrest, release]
    by_cases hu : u ∈ e.2
    · by_cases h1 : work.1.getD e.1 0 = 1
      · simp [hu, h1]
      · have : ¬ work.1.getD e.1 0 - 1 = 0 := by omega
        simp [hu, h1, this]
    · simp [hu]

end

/-- `a` has at most the priority of `b`, and for equal priorities at most its name. -/
def RanksUpTo (g : DependencyGraph) (a b : Bytes) : Prop :=
  g.priorities.getD a 0 < g.priorities.getD b 0 ∨ (g.priorities.getD a 0 = g.priorities.getD b 0 ∧ a ≤ b)

lemma RanksUpTo.refl (g : DependencyGraph) (a : Bytes) : g.RanksUpTo a a := .inr ⟨rfl, List.le_refl a⟩

lemma RanksUpTo.trans {c : Bytes} (hab : g.RanksUpTo a b) (hbc : g.RanksUpTo b c) : g.RanksUpTo a c := by
  rcases hab with hab | ⟨hab, hab'⟩
  · rcases hbc with hbc | ⟨hbc, -⟩
    · exact .inl (hab.trans hbc)
    · exact .inl (hbc ▸ hab)
  · rcases hbc with hbc | ⟨hbc, hbc'⟩
    · exact .inl (hab ▸ hbc)
    · exact .inr ⟨hab.trans hbc, List.le_trans hab' hbc'⟩

/-- The comparison of the queue: what does not leave before `b` has at least its rank. -/
lemma leavesBefore_eq_false_iff : g.leavesBefore a b = false ↔ g.RanksUpTo b a := by
  unfold leavesBefore RanksUpTo
  by_cases h : g.priorities.getD a 0 = g.priorities.getD b 0
  · simp [h, not_lt]
  · simp only [ne_eq, h, not_false_eq_true, if_true, decide_eq_false_iff_not, not_lt, Ne.symm h, false_and,
      or_false]
    omega

lemma leavesBefore_ranks (h : g.leavesBefore a b = true) : g.RanksUpTo a b := by
  unfold leavesBefore at h
  by_cases hp : g.priorities.getD a 0 = g.priorities.getD b 0
  · exact .inr ⟨hp, List.le_of_lt (by simpa [hp] using h)⟩
  · exact .inl (by simpa [hp] using h)

/-- The running minimum: it is one of the candidates and none of them ranks below it. -/
lemma least_spec (g : DependencyGraph) (q : List Bytes) (a : Bytes) :
    q.foldl (fun best b => if g.leavesBefore b best then b else best) a ∈ a :: q ∧
      ∀ w ∈ a :: q, g.RanksUpTo (q.foldl (fun best b => if g.leavesBefore b best then b else best) a) w := by
  induction q generalizing a with
  | nil => simpa using RanksUpTo.refl g a
  | cons b q ih =>
    rw [foldl_cons]
    by_cases hba : g.leavesBefore b a = true
    · obtain ⟨hmem, hleast⟩ := ih b
      rw [if_pos hba]
      refine ⟨mem_cons_of_mem _ hmem, ?_⟩
      rintro w (_ | ⟨_, hw⟩)
      · exact (hleast b mem_cons_self).trans (leavesBefore_ranks hba)
      · exact hleast w hw
    · obtain ⟨hmem, hleast⟩ := ih a
      have hab : g.RanksUpTo a b := leavesBefore_eq_false_iff.mp (by simpa using hba)
      rw [if_neg hba]
      refine ⟨?_, ?_⟩
      · exact cons_subset_cons a (subset_cons_self b q) hmem
      · rintro w (_ | ⟨_, _ | ⟨_, hw⟩⟩)
        · exact hleast a mem_cons_self
        · exact (hleast a mem_cons_self).trans hab
        · exact hleast w (mem_cons_of_mem _ hw)

lemma top_eq_none_iff : g.top q = none ↔ q = [] := by
  cases q <;> simp [top]

/-- **The top of the queue** ranks below everything else in it. -/
lemma top_spec (h : g.top q = some u) : u ∈ q ∧ ∀ w ∈ q, g.RanksUpTo u w := by
  cases q with
  | nil => simp [top] at h
  | cons a q =>
    obtain rfl : _ = u := by simpa [top] using h
    exact g.least_spec q a

/-! ## The loop -/

/-- When a node is placed: it has no open dependency, and no other node without one ranks below it. -/
def Chosen (g : DependencyGraph) (v : Bytes) (front : List Bytes) : Prop :=
  openCount g.deps front v = 0 ∧
    ∀ w ∈ g.nodes, w ∉ front → openCount g.deps front w = 0 → g.RanksUpTo v w

lemma released_degrees (hdeg : ∀ v, degrees.getD v 0 = openCount g.deps placed v) (v : Bytes) :
    (g.graph.toList.foldl (release u) (degrees, q)).1.getD v 0 = openCount g.deps (placed ++ [u]) v := by
  rw [openCount_snoc, ← hdeg]
  obtain h | ⟨hnil, hne⟩ := g.entry_or_no_deps v
  · exact released_of_mem _ _ (toList_distinct g.graph) h
  · rw [released_of_forall_ne _ _ hne, hnil]
    simp

/-- One round keeps the books, with the queue as the nodes that are ready. -/
lemma released_books (hb : Books g.deps g.nodes placed q)
    (hdeg : ∀ v, degrees.getD v 0 = openCount g.deps placed v) (hu : u ∈ q) :
    Books g.deps g.nodes (placed ++ [u]) (g.graph.toList.foldl (release u) (degrees, q.erase u)).2 := by
  have hd := toList_distinct g.graph
  rw [released_queue _ _ hd]
  refine hb.step hu ?_ fun v => ?_
  · exact (pairwise_map.mpr (hd.filter _))
  · simp only [mem_map, mem_filter, decide_eq_true_eq, hdeg]
    constructor
    · rintro ⟨⟨k, ds⟩, ⟨he, hk, h1⟩, rfl⟩
      rw [← deps_eq_of_mem he] at hk
      exact ⟨mem_nodes_of_deps (ne_nil_of_mem hk), hk, h1⟩
    · rintro ⟨-, hk, h1⟩
      exact ⟨(v, g.deps v), ⟨entry_of_dep hk, hk, h1⟩, rfl⟩

/-- **The loop.**  It ends with an empty queue, with the books right and every node placed when it was chosen.
Each round places another node, so as many rounds as there are nodes are enough. -/
theorem kahn_books (g : DependencyGraph) : ∀ (fuel : ℕ) (degrees : StringMap ℤ) (q placed : List Bytes),
    Books g.deps g.nodes placed q → (∀ v, degrees.getD v 0 = openCount g.deps placed v) →
    Guarded g.Chosen placed → g.nodes.length ≤ fuel + placed.length →
    Books g.deps g.nodes (g.kahn fuel degrees q placed) [] ∧ Guarded g.Chosen (g.kahn fuel degrees q placed) := by
  intro fuel
  induction fuel with
  | zero =>
    intro degrees q placed hb _ hg hfuel
    -- all nodes are placed, so the queue is empty
    have hsub : (placed ++ q).Subperm g.nodes :=
      hb.nodup.subperm fun v hv => ((hb.mem_iff v).mp hv).1
    have hlen := hsub.length_le
    rw [length_append] at hlen
    obtain rfl : q = [] := eq_nil_of_length_eq_zero (by omega)
    exact ⟨hb, hg⟩
  | succ fuel ih =>
    intro degrees q placed hb hdeg hg hfuel
    rw [kahn]
    cases htop : g.top q with
    | none =>
      rw [top_eq_none_iff.mp htop] at hb
      exact ⟨hb, hg⟩
    | some u =>
      obtain ⟨hu, hleast⟩ := top_spec htop
      have hmem : ∀ w ∈ g.nodes, openCount g.deps placed w = 0 → w ∉ placed → w ∈ q := by
        intro w hw h0 hn
        exact (mem_append.mp ((hb.mem_iff w).mpr ⟨hw, h0⟩)).resolve_left hn
      have hchosen : g.Chosen u placed :=
        ⟨((hb.mem_iff u).mp (mem_append_right _ hu)).2,
          fun w hw hn h0 => hleast w (hmem w hw h0 hn)⟩
      refine ih _ _ _ (released_books hb hdeg hu) (released_degrees hdeg) (hg.snoc hchosen) ?_
      rw [length_append, length_singleton]
      omega

/-- **What `topological_order` returns**: the placed nodes if these are all, and otherwise nothing. -/
theorem topologicalOrder_spec (g : DependencyGraph) :
    ∃ placed, Books g.deps g.nodes placed [] ∧ Guarded g.Chosen placed ∧
      g.topologicalOrder = if placed.length = g.nodes.length then placed else [] := by
  have hstart : Books g.deps g.nodes []
      ((g.inDegree.toList.filter fun entry => entry.2 = 0).map Prod.fst) := by
    refine Books.start ?_ fun v => ?_
    · exact pairwise_map.mpr ((toList_distinct g.inDegree).filter _)
    · rw [nodes, Std.ExtTreeMap.mem_keys, ← Int.natCast_eq_zero, ← inDegree_getD,
        Std.ExtTreeMap.getD_eq_getD_getElem?, Std.ExtTreeMap.mem_iff_isSome_getElem?]
      simp only [mem_map, mem_filter, decide_eq_true_eq]
      constructor
      · rintro ⟨⟨k, x⟩, ⟨he, hx⟩, rfl⟩
        have he := Std.ExtTreeMap.mem_toList_iff_getElem?_eq_some.mp he
        simp only at hx
        simp [he, hx]
      · rintro ⟨hs, hx⟩
        obtain ⟨x, he⟩ := Option.isSome_iff_exists.mp hs
        rw [he] at hx
        exact ⟨(v, x), ⟨Std.ExtTreeMap.mem_toList_iff_getElem?_eq_some.mpr he, hx⟩, rfl⟩
  obtain ⟨hb, hg⟩ := g.kahn_books g.inDegree.size _ _ [] hstart
    (fun v => by rw [inDegree_getD, openCount_nil]) .nil (by rw [nodes_length]; omega)
  refine ⟨_, hb, hg, ?_⟩
  rw [topologicalOrder, nodes_length]
  exact ite_not _ _ _

/-- `topological_order` is complete exactly when the graph has no cycle and no repeated edge. -/
lemma complete_iff (hb : Books g.deps g.nodes placed []) (hg : Guarded g.Chosen placed) :
    placed.length = g.nodes.length ↔ ¬ Cyclic g.deps ∧ ∀ v ∈ g.nodes, (g.deps v).Nodup :=
  hb.complete_iff (fun front v back h => (hg front v back h).1) g.nodes_nodup (fun _ => mem_nodes_of_deps)
    fun v _ _ hd => mem_nodes.mpr (.inr ⟨v, hd⟩)

/-! ## The depth-first search -/

/-- The loop over the dependencies stops at a cycle. -/
lemma dfs_stops (fuel : ℕ) (visiting ds seen : List Bytes) :
    ds.foldl (fun (found : Bool × List Bytes) dep =>
      if found.1 then found else g.dfs fuel dep visiting found.2) (true, seen) = (true, seen) := by
  induction ds with
  | nil => rfl
  | cons d ds ih => rw [foldl_cons, if_pos rfl, ih]

/-- **The search ends.**  The nodes of the path are all different and have entries, so the path never gets as long as
the fuel allows. -/
lemma dfs_search : ∀ (fuel : ℕ) (node : Bytes) (visiting visited : List Bytes),
    visiting.Nodup → (∀ v ∈ visiting, v ∈ g.graph.keys) → g.graph.size < fuel + visiting.length →
    Search g.deps visiting [node] visited (g.dfs fuel node visiting visited).1
      (g.dfs fuel node visiting visited).2 := by
  intro fuel
  induction fuel with
  | zero =>
    intro node visiting visited hnodup hkeys hfuel
    have := (hnodup.subperm hkeys).length_le
    rw [Std.ExtTreeMap.length_keys] at this
    omega
  | succ fuel ih =>
    intro node visiting visited hnodup hkeys hfuel
    by_cases hnode : node ∈ visiting
    · rw [dfs, if_pos hnode]
      exact .closes hnode
    by_cases hseen : node ∈ visited
    · rw [dfs, if_neg hnode, if_pos hseen]
      exact .skips hnode hseen .done
    -- the search below a dependency of the node
    have hdep : ∀ dep ∈ g.deps node, ∀ seen, Search g.deps (node :: visiting) [dep] seen
        (g.dfs fuel dep (node :: visiting) seen).1 (g.dfs fuel dep (node :: visiting) seen).2 := by
      intro dep hd seen
      refine ih dep (node :: visiting) seen (nodup_cons.mpr ⟨hnode, hnodup⟩) ?_ ?_
      · refine forall_mem_cons.mpr ⟨?_, hkeys⟩
        rw [Std.ExtTreeMap.mem_keys, Std.ExtTreeMap.mem_iff_isSome_getElem?,
          Std.ExtTreeMap.mem_toList_iff_getElem?_eq_some.mp (entry_of_dep hd)]
        rfl
      · rw [length_cons]
        omega
    have hfold : ∀ ds, (∀ d ∈ ds, d ∈ g.deps node) → ∀ seen,
        ∃ found seen', ds.foldl (fun (found : Bool × List Bytes) dep =>
            if found.1 then found else g.dfs fuel dep (node :: visiting) found.2) (false, seen) = (found, seen') ∧
          Search g.deps (node :: visiting) ds seen found seen' := by
      intro ds
      induction ds with
      | nil => exact fun _ seen => ⟨false, seen, rfl, .done⟩
      | cons d ds ihd =>
        intro hds seen
        have hd := hdep d (hds d mem_cons_self) seen
        rw [foldl_cons, if_neg (by simp)]
        generalize g.dfs fuel d (node :: visiting) seen = first at hd ⊢
        obtain ⟨found, seen₁⟩ := first
        cases found with
        | true => exact ⟨true, seen₁, dfs_stops fuel _ ds seen₁, hd.cons_of_found ds⟩
        | false =>
          obtain ⟨found, seen', heq, hrest⟩ := ihd (fun x hx => hds x (mem_cons_of_mem _ hx)) seen₁
          exact ⟨found, seen', heq, hd.cons_of_clear hrest⟩
    obtain ⟨found, seen', heq, hbelow⟩ := hfold (g.deps node) (fun _ h => h) visited
    rw [deps] at heq
    simp only [dfs, if_neg hnode, if_neg hseen, heq]
    cases found with
    | true => exact .finds hnode hseen hbelow
    | false => exact .leaves hnode hseen hbelow .done

lemma hasCycleFrom_search (g : DependencyGraph) (name : Bytes) :
    ∃ visited, Search g.deps [] [name] [] (g.hasCycleFrom name) visited :=
  ⟨_, dfs_search _ name [] [] .nil (by simp) (by simp)⟩

lemma hasCycleFrom_iff (g : DependencyGraph) (name : Bytes) :
    g.hasCycleFrom name = true ↔ ReachesCycle g.deps name := by
  obtain ⟨visited, hsearch⟩ := g.hasCycleFrom_search name
  obtain ⟨htrue, hfalse⟩ := hsearch.exact (by simp) (by simp)
  constructor
  · intro h
    simpa using htrue h
  · intro h
    by_contra hf
    exact (hfalse (Bool.eq_false_of_not_eq_true hf)).2 name mem_cons_self h

/-- **No false alarm**: `has_cycle_from` is false everywhere exactly in a graph without a cycle. -/
lemma hasCycleFrom_acyclic : (∀ name, g.hasCycleFrom name = false) ↔ ¬ Cyclic g.deps := by
  simp only [← Bool.not_eq_true, hasCycleFrom_iff]
  constructor
  · rintro h ⟨v, hv⟩
    exact h v ⟨v, .refl, hv⟩
  · rintro h name ⟨c, -, hc⟩
    exact h ⟨c, hc⟩

/-- All nodes are returned, or none. -/
lemma topologicalOrder_all_iff (hrepeat : ∀ v ∈ g.nodes, (g.deps v).Nodup) :
    (∀ v ∈ g.nodes, v ∈ g.topologicalOrder) ↔ ¬ Cyclic g.deps := by
  obtain ⟨placed, hb, hg, heq⟩ := g.topologicalOrder_spec
  have hsub : placed.Subperm g.nodes :=
    hb.placed_nodup.subperm fun v hv => ((hb.mem_iff v).mp (mem_append_left _ hv)).1
  have hcomp := complete_iff hb hg
  rw [heq]
  constructor
  · intro h
    refine (hcomp.mp ?_).1
    by_contra hlen
    rw [if_neg hlen] at h
    have hnone : g.nodes = [] := eq_nil_iff_forall_not_mem.mpr fun v hv => not_mem_nil (h v hv)
    have hle := hsub.length_le
    simp [hnone] at hlen hle
    exact hlen hle
  · intro h v hv
    rw [if_pos (hcomp.mpr ⟨h, hrepeat⟩)]
    exact (hsub.perm_of_length_le (hcomp.mpr ⟨h, hrepeat⟩).ge).mem_iff.mpr hv

/-- **Cycle detection is exact.**  The search ends, and finds a cycle if and only if one can be reached; it finds none
anywhere exactly when the topological order of a graph without repeated edges has every node. -/
theorem cycleDetection_exact (g : DependencyGraph) :
    (∀ name, ∃ visited, Search g.deps [] [name] [] (g.hasCycleFrom name) visited) ∧
    (∀ name, g.hasCycleFrom name = true ↔ ReachesCycle g.deps name) ∧
    ((∀ v ∈ g.nodes, (g.deps v).Nodup) →
      ((∀ name, g.hasCycleFrom name = false) ↔ ∀ v ∈ g.nodes, v ∈ g.topologicalOrder)) :=
  ⟨g.hasCycleFrom_search, g.hasCycleFrom_iff,
    fun hrepeat => hasCycleFrom_acyclic.trans (topologicalOrder_all_iff hrepeat).symm⟩

/-- Two plugins that depend on each other. -/
def crossed : DependencyGraph :=
  { graph := ((∅ : StringMap (List Bytes)).insert (str "a") [str "b"]).insert (str "b") [str "a"] }

theorem cycleDetection_exact_crossed :
    (∀ v ∈ crossed.nodes, (crossed.deps v).Nodup) ∧ crossed.hasCycleFrom (str "a") = true ∧
      ((∀ name, crossed.hasCycleFrom name = false) ↔ ∀ v ∈ crossed.nodes, v ∈ crossed.topologicalOrder) :=
  have hrepeat : ∀ v ∈ crossed.nodes, (crossed.deps v).Nodup := by decide +kernel
  ⟨hrepeat, by decide +kernel, (cycleDetection_exact crossed).2.2 hrepeat⟩

end DependencyGraph

end Caf.Plugin
