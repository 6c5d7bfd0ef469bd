import Mathlib

/-!
# Programs that interact with their surroundings

A handler that sends, asks and waits is a tree: it returns, or it performs an operation and goes on with the reply.
While it runs, its surroundings move on: a state `s : σ` changes by the steps of `env` at any time, and by `sem`
when the program performs an operation.

`Meets W G p Q s`: from `s` on, whatever the replies and whatever the surroundings do in between, `G` holds at
every moment and `Q` when the program has returned.  It is proved by walking through the program.

* `meets_ret`, `meets_ask` — the rules for the two kinds of programs, with an assertion that the surroundings keep.
* `meets_bind` — programs one after the other.
* `Meets.env`, `Meets.step` — what is left of a program meets what the program met; this is how a run of the whole
  system carries `Meets` along.
* `Account`, `Ends` — a sequential account of the operations, and what a program comes to by it.
* `Ends.meets` — if the account tracks the surroundings, a program meets what it comes to by the account.
-/

namespace Interaction

/-- A program with operations `ε`, where the reply to `e` is of type `ρ e`. -/
inductive Program (ε : Type) (ρ : ε → Type) (α : Type) where
  | ret (a : α) : Program ε ρ α
  | ask (e : ε) (k : ρ e → Program ε ρ α) : Program ε ρ α

namespace Program

variable {ε : Type} {ρ : ε → Type} {α β : Type}

def bind : Program ε ρ α → (α → Program ε ρ β) → Program ε ρ β
  | .ret a, f => f a
  | .ask e k, f => .ask e fun r => (k r).bind f

/-- Perform one operation and return its reply. -/
def perform (e : ε) : Program ε ρ (ρ e) := .ask e .ret

instance : Monad (Program ε ρ) where
  pure := .ret
  bind := bind

@[simp] lemma bind_eq (p : Program ε ρ α) (f : α → Program ε ρ β) : p >>= f = p.bind f := rfl

@[simp] lemma pure_eq (a : α) : (pure a : Program ε ρ α) = .ret a := rfl

@[simp] lemma ret_bind (a : α) (f : α → Program ε ρ β) : (Program.ret a : Program ε ρ α).bind f = f a := rfl

@[simp] lemma ask_bind (e : ε) (k : ρ e → Program ε ρ α) (f : α → Program ε ρ β) :
    (Program.ask e k).bind f = .ask e fun r => (k r).bind f := rfl

/-- Binding twice. -/
lemma bind_bind {γ : Type} (p : Program ε ρ α) (f : α → Program ε ρ β) (g : β → Program ε ρ γ) :
    (p.bind f).bind g = p.bind fun a => (f a).bind g := by
  induction p with
  | ret a => rfl
  | ask e k ih => exact congrArg (Program.ask e) (funext ih)

@[simp] lemma perform_bind (e : ε) (f : ρ e → Program ε ρ β) : (perform e).bind f = .ask e f := rfl

end Program

/-- The surroundings of a program: how they move on by themselves and what an operation does. -/
structure Surroundings (ε : Type) (ρ : ε → Type) (σ : Type) where
  env : σ → σ → Prop
  sem : (e : ε) → σ → ρ e → σ → Prop

section

variable {ε : Type} {ρ : ε → Type} {σ α β : Type} (W : Surroundings ε ρ σ) (G : σ → Prop)

/-- What holds from a state on, with the program still to run. -/
def Meets : Program ε ρ α → (α → σ → Prop) → σ → Prop
  | .ret a, Q, s => ∀ s', Relation.ReflTransGen W.env s s' → G s' ∧ Q a s'
  | .ask e k, Q, s => ∀ s', Relation.ReflTransGen W.env s s' →
      G s' ∧ ∀ r s'', W.sem e s' r s'' → Meets (k r) Q s''

variable {W G} {s s' : σ}

variable {A : σ → Prop} {Q : α → σ → Prop} {p : Program ε ρ α}

/-- An assertion that every step of the surroundings keeps is kept by all of them. -/
lemma stable_run (hstable : ∀ s s', A s → W.env s s' → A s') (hA : A s)
    (h : Relation.ReflTransGen W.env s s') : A s' := by
  induction h with
  | refl => exact hA
  | tail _ hstep ih => exact hstable _ _ ih hstep

/-- The rule for a program that returns. -/
lemma meets_ret {a : α} (hA : A s) (hstable : ∀ s s', A s → W.env s s' → A s') (hpost : ∀ s, A s → G s ∧ Q a s) :
    Meets W G (.ret a) Q s :=
  fun s' h => hpost s' (stable_run hstable hA h)

/-- The rule for an operation: the assertion holds when the program gets to it and is kept until it is performed. -/
lemma meets_ask {e : ε} {k : ρ e → Program ε ρ α} (hA : A s)
    (hstable : ∀ s s', A s → W.env s s' → A s') (hG : ∀ s, A s → G s)
    (hstep : ∀ s r s', A s → W.sem e s r s' → Meets W G (k r) Q s') : Meets W G (.ask e k) Q s :=
  fun s' h => ⟨hG s' (stable_run hstable hA h), fun r s'' hs => hstep s' r s'' (stable_run hstable hA h) hs⟩

lemma Meets.env (h : Meets W G p Q s) (hs : W.env s s') :
    Meets W G p Q s' := by
  cases p with
  | ret a | ask e k => exact fun t ht => h t (ht.head hs)

lemma Meets.now (h : Meets W G p Q s) : G s := by
  cases p with
  | ret a | ask e k => exact (h s .refl).1

lemma Meets.step {e : ε} {k : ρ e → Program ε ρ α} (h : Meets W G (.ask e k) Q s) {r : ρ e}
    (hs : W.sem e s r s') : Meets W G (k r) Q s' :=
  (h s .refl).2 r s' hs

lemma Meets.returned {a : α} (h : Meets W G (.ret a) Q s) : Q a s := (h s .refl).2

lemma Meets.mono {Q' : α → σ → Prop} (h : Meets W G p Q s) (hQ : ∀ a s, Q a s → Q' a s) : Meets W G p Q' s := by
  induction p generalizing s with
  | ret a => exact fun t ht => ⟨(h t ht).1, hQ a t (h t ht).2⟩
  | ask e k ih => exact fun t ht => ⟨(h t ht).1, fun r u hu => ih r ((h t ht).2 r u hu)⟩

end

/-! ## Sequential accounts -/

/-- A sequential account of the operations, on a state of its own: when an operation may be performed, and which
replies and states it leads to. -/
structure Account (ε : Type) (ρ : ε → Type) (τ : Type) where
  may : ε → τ → Prop
  does : (e : ε) → τ → ρ e → τ → Prop

section

variable {ε : Type} {ρ : ε → Type} {σ τ α β : Type} {A : Account ε ρ τ} {t : τ}

/-- What a program comes to by the account, if it only performs what it may. -/
def Ends (A : Account ε ρ τ) : Program ε ρ α → (α → τ → Prop) → τ → Prop
  | .ret a, Q, t => Q a t
  | .ask e k, Q, t => A.may e t ∧ ∀ r t', A.does e t r t' → Ends A (k r) Q t'

variable {p : Program ε ρ α}

lemma Ends.mono {Q Q' : α → τ → Prop} (h : Ends A p Q t) (hQ : ∀ a t, Q a t → Q' a t) : Ends A p Q' t := by
  induction p generalizing t with
  | ret a => exact hQ a t h
  | ask e k ih => exact ⟨h.1, fun r t' ht => ih r (h.2 r t' ht)⟩

lemma Ends.bind {f : α → Program ε ρ β} {P : α → τ → Prop} {Q : β → τ → Prop}
    (hp : Ends A p P t) (hf : ∀ a t, P a t → Ends A (f a) Q t) : Ends A (p.bind f) Q t := by
  induction p generalizing t with
  | ret a => exact hf a t hp
  | ask e k ih => exact ⟨hp.1, fun r t' ht => ih r (hp.2 r t' ht)⟩

/-- The account tracks the surroundings by a relation between the two states: what the surroundings do by themselves
does not show in the account, and every operation does what the account says. -/
structure Tracks (W : Surroundings ε ρ σ) (G : σ → Prop) (A : Account ε ρ τ) (Rel : σ → τ → Prop) : Prop where
  now : ∀ s t, Rel s t → G s
  env : ∀ s s' t, Rel s t → W.env s s' → Rel s' t
  sem : ∀ e s r s' t, Rel s t → A.may e t → W.sem e s r s' → ∃ t', A.does e t r t' ∧ Rel s' t'

/-- **Sequential reasoning.**  What a program comes to by an account that tracks the surroundings, it meets in the
surroundings. -/
theorem Ends.meets {W : Surroundings ε ρ σ} {G : σ → Prop} {Rel : σ → τ → Prop} (hT : Tracks W G A Rel)
    {Q : α → τ → Prop} (h : Ends A p Q t) {s : σ} (hrel : Rel s t) :
    Meets W G p (fun a s' => ∃ t', Q a t' ∧ Rel s' t') s := by
  induction p generalizing s t with
  | ret a => exact meets_ret (A := fun s' => Rel s' t) hrel (hT.env · · t) fun s' hs' => ⟨hT.now s' t hs', t, h, hs'⟩
  | ask e k ih =>
    refine meets_ask (A := fun s' => Rel s' t) hrel (hT.env · · t) (hT.now · t) ?_
    intro s' r s'' hs' hsem
    obtain ⟨t', hdoes, hrel'⟩ := hT.sem e s' r s'' t hs' h.1 hsem
    exact ih r (h.2 r t' hdoes) hrel'

end

end Interaction
