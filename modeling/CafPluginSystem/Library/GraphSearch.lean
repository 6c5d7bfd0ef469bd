import Mathlib

/-!
# Searching a graph

The search for a cycle is depth-first.  It keeps the path to where it is and the nodes it is done with, and goes through a
list of nodes: one of the path closes a cycle, one that is done is skipped, and below any other one its dependencies are
searched before it is done.  The search for all that can be reached keeps a stack of nodes to visit.

* `Search` — a search for a cycle from beginning to end; `Search.exact` — it finds one if and only if one can be reached.
* `Closing` — the state of a search with a stack; `Closing.exact` — when the stack is empty, it has been to exactly what
  can be reached.
-/

namespace GraphSearch

open List

/-- The search of `nodes` below the path `visiting`: whether it finds a cycle, and what it is done with then. -/
inductive Search {V : Type} (deps : V → List V) : List V → List V → List V → Bool → List V → Prop
  | done {visiting seen} : Search deps visiting [] seen false seen
  | closes {visiting seen node nodes} (hnode : node ∈ visiting) :
      Search deps visiting (node :: nodes) seen true seen
  | skips {visiting seen seen' node nodes found} (hnode : node ∉ visiting) (hseen : node ∈ seen)
      (hrest : Search deps visiting nodes seen found seen') :
      Search deps visiting (node :: nodes) seen found seen'
  | finds {visiting seen seen' node nodes} (hnode : node ∉ visiting) (hnew : node ∉ seen)
      (hbelow : Search deps (node :: visiting) (deps node) seen true seen') :
      Search deps visiting (node :: nodes) seen true seen'
  | leaves {visiting seen seen₁ seen' node nodes found} (hnode : node ∉ visiting) (hnew : node ∉ seen)
      (hbelow : Search deps (node :: visiting) (deps node) seen false seen₁)
      (hrest : Search deps visiting nodes (node :: seen₁) found seen') :
      Search deps visiting (node :: nodes) seen found seen'

variable {V : Type} {deps : V → List V} {visiting seen seen' nodes : List V} {node : V} {found : Bool}

namespace Search

/-- A search that found a cycle goes no further. -/
lemma cons_of_found (h : Search deps visiting [node] seen true seen') (nodes : List V) :
    Search deps visiting (node :: nodes) seen true seen' := by
  cases h with
  | closes hnode => exact .closes hnode
  | finds hnode hnew hbelow => exact .finds hnode hnew hbelow
  | skips _ _ hrest | leaves _ _ _ hrest => cases hrest

/-- Otherwise it goes on with what is left. -/
lemma cons_of_clear {seen₁ : List V} (h : Search deps visiting [node] seen false seen₁)
    (hrest : Search deps visiting nodes seen₁ found seen') : Search deps visiting (node :: nodes) seen found seen' := by
  cases h with
  | skips hnode hseen hdone =>
    cases hdone
    exact .skips hnode hseen hrest
  | leaves hnode hnew hbelow hdone =>
    cases hdone
    exact .leaves hnode hnew hbelow hrest

end Search

/-- A cycle can be reached. -/
def ReachesCycle (deps : V → List V) (v : V) : Prop :=
  ∃ c, Relation.ReflTransGen (fun a b => b ∈ deps a) v c ∧ Relation.TransGen (fun a b => b ∈ deps a) c c

lemma reachesCycle_iff : ReachesCycle deps node ↔ ∃ dep ∈ deps node, ReachesCycle deps dep := by
  constructor
  · rintro ⟨c, hreach, hc⟩
    obtain rfl | ⟨dep, hdep, hrest⟩ := hreach.cases_head
    · -- the node lies on the cycle, and so does one of its dependencies
      obtain ⟨dep, hdep, hback⟩ := Relation.TransGen.head'_iff.mp hc
      exact ⟨dep, hdep, node, hback, hc⟩
    · exact ⟨dep, hdep, c, hrest, hc⟩
  · rintro ⟨dep, hdep, c, hreach, hc⟩
    exact ⟨c, .head hdep hreach, hc⟩

/-- **The search is exact**, if the nodes of the path depend on those that are searched and no cycle can be reached from a
node that is done. -/
theorem Search.exact (h : Search deps visiting nodes seen found seen')
    (hpath : ∀ v ∈ visiting, ∀ node ∈ nodes, Relation.TransGen (fun a b => b ∈ deps a) v node)
    (hseen : ∀ v ∈ seen, ¬ ReachesCycle deps v) :
    (found = true → ∃ node ∈ nodes, ReachesCycle deps node) ∧
      (found = false → (∀ v ∈ seen', ¬ ReachesCycle deps v) ∧ ∀ node ∈ nodes, ¬ ReachesCycle deps node) := by
  induction h with
  | done => exact ⟨by simp, fun _ => ⟨hseen, by simp⟩⟩
  | @closes visiting seen node nodes hnode =>
    exact ⟨fun _ => ⟨node, mem_cons_self, node, .refl, hpath node hnode node mem_cons_self⟩, by simp⟩
  | @skips visiting seen seen' node nodes found _ hmem _ ih =>
    obtain ⟨htrue, hfalse⟩ := ih (fun v hv n hn => hpath v hv n (mem_cons_of_mem _ hn)) hseen
    refine ⟨fun hf => ?_, fun hf => ⟨(hfalse hf).1, ?_⟩⟩
    · obtain ⟨n, hn, hreach⟩ := htrue hf
      exact ⟨n, mem_cons_of_mem _ hn, hreach⟩
    · exact forall_mem_cons.mpr ⟨hseen node hmem, (hfalse hf).2⟩
  | @finds visiting seen seen' node nodes _ _ _ ih =>
    refine ⟨fun _ => ⟨node, mem_cons_self, reachesCycle_iff.mpr ((ih ?_ hseen).1 rfl)⟩, by simp⟩
    exact forall_mem_cons.mpr ⟨fun dep hdep => .single hdep,
      fun v hv dep hdep => (hpath v hv node mem_cons_self).tail hdep⟩
  | @leaves visiting seen seen₁ seen' node nodes found _ _ _ _ ihbelow ihrest =>
    have hbelow := (ihbelow (forall_mem_cons.mpr ⟨fun dep hdep => .single hdep,
      fun v hv dep hdep => (hpath v hv node mem_cons_self).tail hdep⟩) hseen).2 rfl
    have hclear : ¬ ReachesCycle deps node := by
      rw [reachesCycle_iff]
      rintro ⟨dep, hdep, hreach⟩
      exact hbelow.2 dep hdep hreach
    obtain ⟨htrue, hfalse⟩ := ihrest (fun v hv n hn => hpath v hv n (mem_cons_of_mem _ hn))
      (forall_mem_cons.mpr ⟨hclear, hbelow.1⟩)
    refine ⟨fun hf => ?_, fun hf => ⟨(hfalse hf).1, forall_mem_cons.mpr ⟨hclear, (hfalse hf).2⟩⟩⟩
    obtain ⟨n, hn, hreach⟩ := htrue hf
    exact ⟨n, mem_cons_of_mem _ hn, hreach⟩

/-! ## What can be reached -/

/-- The search has been to `seen` and has `stack` before it. -/
structure Closing (R : V → V → Prop) (entries stack seen : List V) : Prop where
  nodup : seen.Nodup
  reached : ∀ v, v ∈ stack ∨ v ∈ seen → ∃ entry ∈ entries, Relation.ReflTransGen R entry v
  entries : ∀ entry ∈ entries, entry ∈ stack ∨ entry ∈ seen
  closed : ∀ v ∈ seen, ∀ next, R v next → next ∈ stack ∨ next ∈ seen

namespace Closing

variable {R : V → V → Prop} {entries stack : List V}

lemma start (h : ∀ v, v ∈ stack ↔ v ∈ entries) : Closing R entries stack [] where
  nodup := .nil
  reached := fun v hv => ⟨v, (h v).mp (hv.resolve_right not_mem_nil), .refl⟩
  entries := fun entry hentry => .inl ((h entry).mpr hentry)
  closed := by simp

lemma skip (h : Closing R entries (node :: stack) seen) (hnode : node ∈ seen) : Closing R entries stack seen := by
  have hmem : ∀ {v}, v ∈ node :: stack ∨ v ∈ seen → v ∈ stack ∨ v ∈ seen := by
    rintro v (hv | hv)
    · rcases mem_cons.mp hv with rfl | hv
      · exact .inr hnode
      · exact .inl hv
    · exact .inr hv
  exact ⟨h.nodup, fun v hv => h.reached v (hv.imp_left (mem_cons_of_mem _)), fun e he => hmem (h.entries e he),
    fun v hv next hnext => hmem (h.closed v hv next hnext)⟩

/-- A node is visited, and what follows it comes on the stack. -/
lemma visit (h : Closing R entries (node :: stack) seen) (hnode : node ∉ seen) {more : List V}
    (hmore : ∀ next, R node next ↔ next ∈ more) : Closing R entries (more ++ stack) (node :: seen) := by
  have hmem : ∀ {v}, v ∈ node :: stack ∨ v ∈ seen → v ∈ more ++ stack ∨ v ∈ node :: seen := by
    intro v hv
    simp only [mem_append, mem_cons] at hv ⊢
    tauto
  have hreach := h.reached node (.inl mem_cons_self)
  refine ⟨nodup_cons.mpr ⟨hnode, h.nodup⟩, fun v hv => ?_, fun e he => hmem (h.entries e he), ?_⟩
  · by_cases hv' : v ∈ more
    · obtain ⟨entry, hentry, hpath⟩ := hreach
      exact ⟨entry, hentry, hpath.tail ((hmore v).mpr hv')⟩
    · refine h.reached v ?_
      simp only [mem_append, mem_cons, hv', false_or] at hv ⊢
      tauto
  · refine forall_mem_cons.mpr ⟨fun next hnext => ?_, fun v hv next hnext => hmem (h.closed v hv next hnext)⟩
    exact .inl (mem_append_left _ ((hmore next).mp hnext))

/-- **What has been visited** is what can be reached. -/
theorem exact (h : Closing R entries [] seen) (v : V) :
    v ∈ seen ↔ ∃ entry ∈ entries, Relation.ReflTransGen R entry v := by
  refine ⟨fun hv => h.reached v (.inr hv), ?_⟩
  rintro ⟨entry, hentry, hpath⟩
  induction hpath with
  | refl => exact (h.entries entry hentry).resolve_left not_mem_nil
  | tail _ hnext ih => exact (h.closed _ ih _ hnext).resolve_left not_mem_nil

end Closing

end GraphSearch
