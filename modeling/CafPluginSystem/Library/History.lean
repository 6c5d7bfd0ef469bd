import Mathlib

/-!
# Guarded histories

What a component has done, as a list that only grows at its end.  `Guarded g log` says that each entry of the
history was made at a time at which `g` allowed it, given what had been done before; it is kept by whoever
checks `g` when the history grows.
-/

namespace History

variable {α : Type*} {g : α → List α → Prop} {log : List α}

/-- **Each entry was allowed by what came before it.** -/
def Guarded (g : α → List α → Prop) (log : List α) : Prop :=
  ∀ front x back, log = front ++ x :: back → g x front

lemma Guarded.nil : Guarded g [] := by
  intro front x back h
  simp at h

/-- A history with one more entry. -/
lemma guarded_snoc {x : α} : Guarded g (log ++ [x]) ↔ Guarded g log ∧ g x log := by
  constructor
  · intro h
    refine ⟨fun front y back hlog => h front y (back ++ [x]) (by simp [hlog]), h log x [] rfl⟩
  · rintro ⟨hlog, hx⟩ front y back heq
    rcases List.eq_nil_or_concat back with rfl | ⟨back', z, rfl⟩
    · obtain ⟨rfl, rfl⟩ : log = front ∧ x = y := by
        have := List.append_inj' heq rfl
        simpa using this
      exact hx
    · have hsplit : log ++ [x] = (front ++ y :: back') ++ [z] := by simpa using heq
      obtain ⟨rfl, -⟩ := List.append_inj' hsplit rfl
      exact hlog front y back' rfl

lemma Guarded.snoc (h : Guarded g log) {x : α} (hx : g x log) : Guarded g (log ++ [x]) :=
  guarded_snoc.mpr ⟨h, hx⟩

/-- The history grows by several entries, each of which is allowed when it is made. -/
lemma Guarded.append (h : Guarded g log) : ∀ {entries : List α},
    (∀ front x back, entries = front ++ x :: back → g x (log ++ front)) → Guarded g (log ++ entries) := by
  intro entries
  induction entries generalizing log with
  | nil => intro _; simpa using h
  | cons x entries ih =>
    intro hents
    have hx : g x log := by simpa using hents [] x entries rfl
    have hrest := ih (h.snoc hx) fun front y back hsplit => by
      have hy := hents (x :: front) y back (by rw [hsplit]; rfl)
      simpa using hy
    simpa using hrest

/-- The history grows by entries that are always allowed. -/
lemma Guarded.free (h : Guarded g log) {entries : List α} (hfree : ∀ x ∈ entries, ∀ front, g x front) :
    Guarded g (log ++ entries) :=
  h.append fun front x back hsplit => hfree x (by rw [hsplit]; simp) _

end History
