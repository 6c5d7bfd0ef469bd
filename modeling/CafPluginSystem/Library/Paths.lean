import Mathlib

/-!
# Paths and directories

A location is the list of names on the way from the root to it.  The components of a path lead from one location to another:
`up` goes to the parent, and the parent of the root is the root.  A file system is known here by its directories; with a
directory it has its parent.

* `walk`, `passed` — where a path leads, and the locations on its way.
* `mkdirs` — the directories that are made so that a path leads to one: those it passes that are missing.
* `opened` — the file that is made or overwritten when a path is opened for writing: everything on its way is there, and it is
  no directory itself.
-/

namespace Paths

open List

variable {ν : Type*}
variable {dirs : List (List ν)} {l : List ν}

inductive Component (ν : Type*) where
  | up
  | name (n : ν)
deriving DecidableEq, Repr

/-- Where a component leads. -/
def Component.step (l : List ν) : Component ν → List ν
  | .up => l.dropLast
  | .name n => l ++ [n]

def walk (l : List ν) (cs : List (Component ν)) : List ν := cs.foldl Component.step l

/-- The locations on the way, the last one included. -/
def passed : List ν → List (Component ν) → List (List ν)
  | _, [] => []
  | l, c :: cs => c.step l :: passed (c.step l) cs

lemma walk_append (l : List ν) (cs ds : List (Component ν)) : walk l (cs ++ ds) = walk (walk l cs) ds := foldl_append ..

lemma passed_append (l : List ν) (cs ds : List (Component ν)) : passed l (cs ++ ds) = passed l cs ++ passed (walk l cs) ds := by
  induction cs generalizing l with
  | nil => rfl
  | cons c cs ih =>
    rw [cons_append, passed, passed, ih]
    rfl

/-! ## Directories -/

/-- With a directory its parent is there. -/
def Closed (dirs : List (List ν)) : Prop := ∀ l n, l ++ [n] ∈ dirs → l ∈ dirs

lemma Closed.mem_above (h : Closed dirs) {d : List ν} (hle : l <+: d) (hd : d ∈ dirs) : l ∈ dirs := by
  obtain ⟨rest, rfl⟩ := hle
  induction rest using List.reverseRecOn with
  | nil => simpa using hd
  | append_singleton rest n ih =>
    rw [← append_assoc] at hd
    exact ih (h _ n hd)

/-- A component leads from a directory to another, or to a place where one can be made. -/
lemma Closed.step (h : Closed dirs) (hl : l ∈ dirs) (c : Component ν) : Closed (c.step l :: dirs) := by
  intro d n hmem
  rcases mem_cons.mp hmem with heq | hold
  · refine mem_cons_of_mem _ ?_
    cases c with
    | up => exact h d n (heq ▸ h.mem_above (List.dropLast_prefix l) hl)
    | name m =>
      obtain ⟨rfl, -⟩ := append_inj' heq rfl
      exact hl
  · exact mem_cons_of_mem _ (h d n hold)

/-- Some locations and everything above them. -/
def closure (ls : List (List ν)) : List (List ν) := ls.flatMap List.inits

lemma mem_closure {ls : List (List ν)} : l ∈ closure ls ↔ ∃ d ∈ ls, l <+: d := by
  rw [closure, mem_flatMap]
  simp only [mem_inits]

lemma closed_closure (ls : List (List ν)) : Closed (closure ls) := by
  intro l n hmem
  obtain ⟨d, hd, hle⟩ := mem_closure.mp hmem
  exact mem_closure.mpr ⟨d, hd, (prefix_append l [n]).trans hle⟩

variable [DecidableEq ν]

/-- The directories that are made, in their order. -/
def mkdirs (dirs : List (List ν)) (l : List ν) : List (Component ν) → List (List ν)
  | [] => []
  | c :: cs =>
    if c.step l ∈ dirs then mkdirs dirs (c.step l) cs
    else c.step l :: mkdirs (c.step l :: dirs) (c.step l) cs

variable {cs : List (Component ν)}

/-- **Exactly the missing directories on the way are made.** -/
lemma mem_mkdirs (hclosed : Closed dirs) (hl : l ∈ dirs) {d : List ν} :
    d ∈ mkdirs dirs l cs ↔ d ∈ passed l cs ∧ d ∉ dirs := by
  induction cs generalizing dirs l with
  | nil => simp [mkdirs, passed]
  | cons c cs ih =>
    rw [mkdirs, passed, mem_cons]
    split_ifs with hmem
    · rw [ih hclosed hmem]
      constructor
      · rintro ⟨hpass, hnew⟩
        exact ⟨.inr hpass, hnew⟩
      · rintro ⟨rfl | hpass, hnew⟩
        · exact absurd hmem hnew
        · exact ⟨hpass, hnew⟩
    · have hclosed' := hclosed.step hl c
      rw [mem_cons, ih hclosed' mem_cons_self, mem_cons, not_or]
      constructor
      · rintro (rfl | ⟨hpass, -, hnew⟩)
        · exact ⟨.inl rfl, hmem⟩
        · exact ⟨.inr hpass, hnew⟩
      · rintro ⟨rfl | hpass, hnew⟩
        · exact .inl rfl
        · by_cases hsame : d = c.step l
          · exact .inl hsame
          · exact .inr ⟨hpass, hsame, hnew⟩

/-- The file that is written. -/
def opened (dirs : List (List ν)) (l : List ν) : List (Component ν) → Option (List ν)
  | [] => none
  | [.name n] => if l ++ [n] ∈ dirs then none else some (l ++ [n])
  | c :: cs => if c.step l ∈ dirs then opened dirs (c.step l) cs else none

/-- A way that is there is gone first. -/
lemma opened_append {ds : List (Component ν)} (hds : ds ≠ []) (h : ∀ d ∈ passed l cs, d ∈ dirs) :
    opened dirs l (cs ++ ds) = opened dirs (walk l cs) ds := by
  induction cs generalizing l with
  | nil => rfl
  | cons c cs ih =>
    obtain ⟨c', rest, hrest⟩ : ∃ c' rest, cs ++ ds = c' :: rest := exists_cons_of_ne_nil (by simp [hds])
    have hopen : opened dirs l (c :: (cs ++ ds)) = if c.step l ∈ dirs then opened dirs (c.step l) (cs ++ ds) else none := by
      rw [hrest]
      cases c <;> rfl
    rw [cons_append, hopen, if_pos (h _ mem_cons_self), ih fun d hd => h d (mem_cons_of_mem _ hd)]
    rfl

/-- **A file is written** at the end of a path that ends in a name, if its way is there and it is not a directory. -/
lemma opened_eq_some {f : List ν} :
    opened dirs l cs = some f ↔ ∃ way n, cs = way ++ [.name n] ∧ f = walk l way ++ [n] ∧ (∀ d ∈ passed l way, d ∈ dirs) ∧ f ∉ dirs := by
  induction cs generalizing l with
  | nil => simp [opened]
  | cons c cs ih =>
    cases cs with
    | nil =>
      have hway (way : List (Component ν)) (n : ν) : [c] = way ++ [.name n] ↔ way = [] ∧ c = .name n := by
        cases way with
        | nil => simp
        | cons _ _ => simp
      cases c with
      | up => simp [opened, hway]
      | name n =>
        rw [opened]
        split_ifs with hmem
        · simp only [hway, false_iff]
          rintro ⟨way, m, ⟨rfl, heq⟩, rfl, -, hnew⟩
          cases heq
          exact hnew hmem
        · simp only [hway, Option.some.injEq]
          constructor
          · rintro rfl
            exact ⟨[], n, ⟨rfl, rfl⟩, rfl, by simp [passed], hmem⟩
          · rintro ⟨way, m, ⟨rfl, heq⟩, rfl, -, -⟩
            cases heq
            rfl
    | cons c' cs =>
      have hopen : opened dirs l (c :: c' :: cs) = if c.step l ∈ dirs then opened dirs (c.step l) (c' :: cs) else none := by
        cases c <;> rfl
      rw [hopen]
      constructor
      · intro hsome
        split_ifs at hsome with hmem
        obtain ⟨way, n, hcs, rfl, hpass, hnew⟩ := ih.mp hsome
        refine ⟨c :: way, n, by rw [hcs]; rfl, rfl, ?_, hnew⟩
        intro d hd
        rcases mem_cons.mp hd with rfl | hd
        · exact hmem
        · exact hpass d hd
      · rintro ⟨way, n, hcs, rfl, hpass, hnew⟩
        cases way with
        | nil => simp at hcs
        | cons c₀ way =>
          obtain ⟨rfl, hcs'⟩ := List.cons.inj hcs
          rw [if_pos (hpass _ mem_cons_self)]
          exact ih.mpr ⟨way, n, hcs', rfl, fun d hd => hpass d (mem_cons_of_mem _ hd), hnew⟩

end Paths
