import Mathlib

/-!
# Computations that can fail

Peeling a successful `Except` computation apart: a bind succeeded when both halves did, a check
succeeded when its condition did not hold.

`SameOutcome R x y` compares two computations: they fail alike or succeed with results that `R`
relates.  It goes through binds, so two runs of one program are compared step by step.

`Raises E x` bounds the errors of a computation, and goes through binds and loops as well.
-/

namespace Fallible

variable {ε : Type*} {α β : Type}

variable {x : Except ε α} {f : α → Except ε β} {xs : List α} {ys : List β}

/-- A bind succeeds when both halves do. -/
lemma bind_eq_ok {b} :
    (x >>= f) = .ok b ↔ ∃ a, x = .ok a ∧ f a = .ok b := by
  cases x with
  | error e =>
    constructor
    · intro h
      cases h
    · rintro ⟨a, h, _⟩
      cases h
  | ok a =>
    constructor
    · intro h
      exact ⟨a, rfl, h⟩
    · rintro ⟨a', h, hf⟩
      cases h
      exact hf

lemma map_eq_ok {f : α → β} {b : β} : x.map f = .ok b ↔ ∃ a, x = .ok a ∧ f a = b := by
  cases x <;> simp [Except.map]

/-- A bind fails with the first half's error, or with the second's after the first succeeded. -/
lemma bind_eq_error {e} :
    (x >>= f) = .error e ↔ x = .error e ∨ ∃ a, x = .ok a ∧ f a = .error e := by
  cases x with
  | error e' =>
    constructor
    · intro h
      cases h
      exact .inl rfl
    · rintro (h | ⟨a, h, _⟩)
      · cases h
        rfl
      · cases h
  | ok a =>
    constructor
    · intro h
      exact .inr ⟨a, rfl, h⟩
    · rintro (h | ⟨a', h, hf⟩)
      · cases h
      · cases h
        exact hf

@[simp] lemma ok_bind (a : α) (f : α → Except ε β) : (Except.ok a >>= f) = f a := rfl

@[simp] lemma error_bind (e : ε) (f : α → Except ε β) :
    ((Except.error e : Except ε α) >>= f) = .error e := rfl

@[simp] lemma pure_eq_ok (a : α) : (pure a : Except ε α) = .ok a := rfl

/-- A check that throws when its condition holds, before the rest of a computation. -/
lemma guard_eq_ok {p : Prop} [Decidable p] {e : ε} {y : Except ε α} {b : α} :
    (if p then .error e else y) = .ok b ↔ ¬p ∧ y = .ok b := by
  by_cases h : p <;> simp [h]

lemma forM_cons (f : α → Except ε Unit) (x : α) (xs : List α) :
    (x :: xs).forM f = f x >>= fun _ => xs.forM f := rfl

/-- A loop of checks succeeds when every check does. -/
lemma forM_eq_ok {f : α → Except ε Unit} :
    xs.forM f = .ok () ↔ ∀ x ∈ xs, f x = .ok () := by
  induction xs with
  | nil => exact ⟨fun _ x hx => absurd hx (by simp), fun _ => rfl⟩
  | cons x xs ih =>
    simp only [forM_cons, bind_eq_ok, ih, List.forall_mem_cons, Unique.exists_iff]

/-- **A successful pass over a list** computes every element. -/
lemma mapM_forall₂ : ∀ {xs : List α} {ys : List β},
    xs.mapM f = .ok ys → List.Forall₂ (fun x y => f x = .ok y) xs ys
  | [], ys, h => by
    cases h
    exact .nil
  | x :: xs, ys, h => by
    simp only [List.mapM_cons, bind_eq_ok, pure_eq_ok] at h
    obtain ⟨y, hy, zs, hzs, hys⟩ := h
    cases hys
    exact .cons hy (mapM_forall₂ hzs)

lemma mapM_length (h : xs.mapM f = .ok ys) : ys.length = xs.length :=
  (mapM_forall₂ h).length_eq.symm

lemma mapM_zip (h : xs.mapM f = .ok ys) {x y} (hmem : (x, y) ∈ xs.zip ys) : f x = .ok y :=
  (List.forall₂_iff_zip.mp (mapM_forall₂ h)).2 hmem

lemma mapM_mem (h : xs.mapM f = .ok ys) {y} (hy : y ∈ ys) :
    ∃ x ∈ xs, f x = .ok y := by
  have hall := mapM_forall₂ h
  clear h
  induction hall with
  | nil => cases hy
  | cons hxy _ ih =>
    rcases List.mem_cons.mp hy with rfl | hy
    · exact ⟨_, List.mem_cons_self, hxy⟩
    · obtain ⟨x, hx, hxy⟩ := ih hy
      exact ⟨x, List.mem_cons_of_mem _ hx, hxy⟩

/-- What each step keeps, the pass keeps. -/
lemma mapM_map_eq {γ : Type} {g : α → γ} {g' : β → γ} (h : xs.mapM f = .ok ys)
    (hg : ∀ x y, f x = .ok y → g' y = g x) : ys.map g' = xs.map g := by
  have hall := mapM_forall₂ h
  clear h
  induction hall with
  | nil => rfl
  | cons hxy _ ih => rw [List.map_cons, List.map_cons, hg _ _ hxy, ih]

lemma forM_congr {f g : α → Except ε Unit} : ∀ {xs : List α}, (∀ x ∈ xs, f x = g x) →
    xs.forM f = xs.forM g
  | [], _ => rfl
  | x :: xs, h => by
    rw [forM_cons, forM_cons, h x (by simp), forM_congr fun y hy => h y (by simp [hy])]

/-- Two computations fail alike, or succeed with related results. -/
def SameOutcome (R : α → β → Prop) : Except ε α → Except ε β → Prop
  | .ok a, .ok b => R a b
  | .error e, .error f => e = f
  | _, _ => False

namespace SameOutcome

variable {γ δ : Type} {R : α → β → Prop} {S : γ → δ → Prop}

lemma of_eq {R : α → α → Prop} (hR : ∀ a, R a a) (x : Except ε α) : SameOutcome R x x := by
  cases x with
  | error e => rfl
  | ok a => exact hR a

lemma bind {x : Except ε α} {y : Except ε β} {f : α → Except ε γ} {g : β → Except ε δ}
    (h : SameOutcome R x y) (hfg : ∀ a b, R a b → SameOutcome S (f a) (g b)) :
    SameOutcome S (x >>= f) (y >>= g) := by
  match x, y, h with
  | .ok a, .ok b, h => exact hfg a b h
  | .error _, .error _, h => exact h

end SameOutcome

/-- Every error that the computation can end in satisfies `E`. -/
def Raises (E : ε → Prop) (x : Except ε α) : Prop := ∀ e, x = .error e → E e

namespace Raises

variable {E F : ε → Prop}

@[simp] lemma ok (a : α) : Raises E (.ok a : Except ε α) := by
  intro e h
  cases h

@[simp] lemma error_iff {e} : Raises E (.error e : Except ε α) ↔ E e := by
  constructor
  · intro h
    exact h e rfl
  · intro h e' he
    cases he
    exact h

variable {x : Except ε α}

lemma mono (h : Raises E x) (hEF : ∀ e, E e → F e) : Raises F x :=
  fun e he => hEF e (h e he)

/-- The second half may rely on what the first one returned. -/
lemma bind {f : α → Except ε β} (h : Raises E x)
    (hf : ∀ a, x = .ok a → Raises E (f a)) : Raises E (x >>= f) := by
  intro e he
  rcases bind_eq_error.mp he with hx | ⟨a, ha, hfa⟩
  · exact h e hx
  · exact hf a ha e hfa

/-- Changing the result does not change the errors. -/
lemma of_map {f : α → β} (h : Raises E (x.map f)) : Raises E x := by
  intro e he
  exact h e (by rw [he]; rfl)

/-- A check in front of the rest of a computation. -/
lemma guard {p : Prop} [Decidable p] {e : ε} {y : Except ε α} (he : E e) (h : ¬p → Raises E y) :
    Raises E (if p then .error e else y) := by
  split
  · exact error_iff.mpr he
  · next hp => exact h hp

lemma forM {f} : ∀ {xs : List α}, (∀ x ∈ xs, Raises E (f x)) →
    Raises E (xs.forM f)
  | [], _ => ok ()
  | x :: xs, h => (h x (by simp)).bind fun _ _ => forM fun y hy => h y (by simp [hy])

lemma foldlM {f} (h : ∀ b a, Raises E (f b a)) : ∀ (xs : List α) (b : β),
    Raises E (xs.foldlM f b)
  | [], b => ok b
  | x :: xs, b => by
    exact (h b x).bind fun b' _ => foldlM h xs b'

lemma mapM {f : α → Except ε β} (h : ∀ a, Raises E (f a)) : ∀ xs : List α, Raises E (xs.mapM f)
  | [] => ok []
  | x :: xs => by
    rw [List.mapM_cons]
    exact (h x).bind fun y _ => (mapM h xs).bind fun ys _ => ok (y :: ys)

end Raises

end Fallible
