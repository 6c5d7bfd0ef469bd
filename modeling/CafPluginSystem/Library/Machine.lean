import Mathlib

/-!
# Machines and their runs

A component that reacts to events is a partial step function: `step s l` is the state after
event `l`, or `none` when `l` cannot happen in `s`.  Everything the environment decides — the
scheduling, replies, clock readings, losses — sits in the event, so a run is determined by its
list of events and can be evaluated.

* `Machine.run` — the state a list of events leads to.
* `Machine.run_append` — a run splits at every point, which is how "some time later" is said.
* `Machine.run_invariant` — what every step preserves, every run preserves.
* `Machine.RunWhere` — runs all of whose steps meet a condition on the state before the step
  and the event, with the invariant rule for them.
-/

namespace Machine

variable {σ ℓ : Type*}
variable {step : σ → ℓ → Option σ} {C : σ → ℓ → Prop} {s' s : σ} {I : σ → Prop}

/-- The state that the events of a list, handled one after another, lead to. -/
def run (step : σ → ℓ → Option σ) : σ → List ℓ → Option σ
  | s, [] => some s
  | s, l :: ls => (step s l).bind fun s' => run step s' ls

@[simp] lemma run_nil (step : σ → ℓ → Option σ) (s : σ) : run step s [] = some s := rfl

lemma run_cons {l : ℓ} {ls : List ℓ} :
    run step s (l :: ls) = some s' ↔ ∃ t, step s l = some t ∧ run step t ls = some s' := by
  simp only [run, Option.bind_eq_some_iff]

/-- **A run splits at every point.** -/
lemma run_append {ls₁ ls₂ : List ℓ} :
    run step s (ls₁ ++ ls₂) = some s' ↔
      ∃ t, run step s ls₁ = some t ∧ run step t ls₂ = some s' := by
  induction ls₁ generalizing s with
  | nil => simp
  | cons l ls ih =>
    simp only [List.cons_append, run_cons, ih]
    constructor
    · rintro ⟨u, hu, t, ht, hs⟩
      exact ⟨t, ⟨u, hu, ht⟩, hs⟩
    · rintro ⟨t, ⟨u, hu, ht⟩, hs⟩
      exact ⟨u, hu, t, ht, hs⟩

lemma run_singleton {l : ℓ} :
    run step s [l] = some s' ↔ step s l = some s' := by
  simp [run_cons]

/-- **The invariant rule.**  What every step preserves, every run preserves. -/
theorem run_invariant (hstep : ∀ s l s', I s → step s l = some s' → I s') :
    ∀ {ls : List ℓ} {s s' : σ}, I s → run step s ls = some s' → I s'
  | [], s, s', hI, hr => by
    simp only [run_nil, Option.some.injEq] at hr
    exact hr ▸ hI
  | l :: ls, s, s', hI, hr => by
    obtain ⟨t, ht, hrest⟩ := run_cons.mp hr
    exact run_invariant hstep (hstep s l t hI ht) hrest

/-- Every step of the run meets `C`, a condition on the state before the step and its event. -/
def RunWhere (step : σ → ℓ → Option σ) (C : σ → ℓ → Prop) : σ → List ℓ → Prop
  | _, [] => True
  | s, l :: ls => C s l ∧ ∀ s', step s l = some s' → RunWhere step C s' ls

instance RunWhere.decidable (step : σ → ℓ → Option σ) (C : σ → ℓ → Prop) [∀ s l, Decidable (C s l)] :
    ∀ (s : σ) (ls : List ℓ), Decidable (RunWhere step C s ls)
  | _, [] => isTrue trivial
  | s, l :: ls =>
    match h : step s l with
    | none => decidable_of_iff (C s l) ⟨fun hC => ⟨hC, fun _ hs' => nomatch h.symm.trans hs'⟩, fun hC => hC.1⟩
    | some t =>
      have := RunWhere.decidable step C t ls
      decidable_of_iff (C s l ∧ RunWhere step C t ls)
        ⟨fun hC => ⟨hC.1, fun _ hs' => Option.some.inj (h.symm.trans hs') ▸ hC.2⟩,
          fun hC => ⟨hC.1, hC.2 t h⟩⟩

/-- A condition that the events meet in every state. -/
lemma RunWhere.of_forall :
    ∀ {ls : List ℓ} {s : σ}, (∀ l ∈ ls, ∀ s, C s l) → RunWhere step C s ls
  | [], _, _ => trivial
  | l :: _, s, h => ⟨h l (by simp) s, fun _ _ =>
    RunWhere.of_forall fun l' hl' => h l' (List.mem_cons_of_mem _ hl')⟩

/-- A run that meets a condition at every step splits at every point. -/
lemma RunWhere.append :
    ∀ {ls₁ ls₂ : List ℓ} {s t : σ}, RunWhere step C s (ls₁ ++ ls₂) → run step s ls₁ = some t →
      RunWhere step C s ls₁ ∧ RunWhere step C t ls₂
  | [], _, s, t, hC, hr => by
    simp only [run_nil, Option.some.injEq] at hr
    exact ⟨trivial, hr ▸ hC⟩
  | l :: ls₁, _, s, t, hC, hr => by
    obtain ⟨u, hu, hrest⟩ := run_cons.mp hr
    refine ⟨⟨hC.1, fun s' hs' => ?_⟩, ((hC.2 u hu).append hrest).2⟩
    obtain rfl : u = s' := Option.some.inj (hu.symm.trans hs')
    exact ((hC.2 u hu).append hrest).1

/-- The invariant rule for runs that meet a condition at every step. -/
theorem run_invariant_where (hstep : ∀ s l s', I s → C s l → step s l = some s' → I s') :
    ∀ {ls : List ℓ} {s s' : σ}, I s → RunWhere step C s ls → run step s ls = some s' → I s'
  | [], s, s', hI, _, hr => by
    simp only [run_nil, Option.some.injEq] at hr
    exact hr ▸ hI
  | l :: ls, s, s', hI, hC, hr => by
    obtain ⟨t, ht, hrest⟩ := run_cons.mp hr
    exact run_invariant_where hstep (hstep s l t hI hC.1 ht) (hC.2 t ht) hrest

/-- The rule for relations, for runs that meet a condition at every step. -/
theorem run_relation_where {R : σ → σ → Prop}
    (hrefl : ∀ s, R s s) (htrans : ∀ s t u, R s t → R t u → R s u)
    (hstep : ∀ s l s', C s l → step s l = some s' → R s s') :
    ∀ {ls : List ℓ} {s s' : σ}, RunWhere step C s ls → run step s ls = some s' → R s s'
  | [], s, s', _, hr => by
    simp only [run_nil, Option.some.injEq] at hr
    exact hr ▸ hrefl s
  | l :: ls, s, s', hC, hr => by
    obtain ⟨t, ht, hrest⟩ := run_cons.mp hr
    exact htrans s t s' (hstep s l t hC.1 ht) (run_relation_where hrefl htrans hstep (hC.2 t ht) hrest)

end Machine
