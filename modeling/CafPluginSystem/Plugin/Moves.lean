import CafPluginSystem.Plugin.World

/-!
# The steps of the system

What the background events do to the world, one case for each; and the rule by which an invariant of the manager at
rest is carried through a whole run, with every interleaving of the handlers and the background.

* `Moves`, `background_moves` — the background events.
* `surroundings` — the world as the surroundings of a handler.
* `run_rest` — **runs**: what the background keeps and every handler meets again holds whenever the manager is at
  rest; what the handlers guarantee at every moment holds throughout.
-/

namespace Caf.Plugin

open EntityStore Service Interaction

namespace World

variable {μ : Type} {w w' : World μ}

/-- The background events that can happen, each with the world after it. -/
inductive Moves (w : World μ) : Background μ → World μ → Prop where
  | registry {origin : Bytes} {msg : RegistryMsg} {rest : List (Bytes × RegistryMsg)}
      (hm : w.registryMail = (origin, msg) :: rest) :
      Moves w .registry ({ w with registryMail := rest }.registryHandles origin msg)
  | proxy {p : Address} {cell : ProxyCell μ} {letter : ProxyLetter μ} {rest : List (ProxyLetter μ)}
      (hp : w.proxies p = some cell) (ha : cell.alive = true) (hm : cell.mail = letter :: rest) :
      Moves w (.proxy p) (w.proxyHandles p cell letter rest)
  | actor {a : Address} {cell : ActorCell μ} {msg : ActorMsg μ} {snapshot : Bytes}
      (hc : w.actors a = some cell) (ha : cell.alive = true) (hm : cell.received[cell.handled]? = some msg) :
      Moves w (.actor a snapshot) (w.actorHandles a cell msg snapshot)
  | call {p : Address} {cell : ProxyCell μ} {c : Call μ} (hp : w.proxies p = some cell)
      (ha : cell.alive = true) :
      Moves w (.call p c) (w.setProxy p { cell with mail := cell.mail ++ [{ msg := .client c }] })
  | proxyExit {p : Address} {cell : ProxyCell μ} (hp : w.proxies p = some cell) (ha : cell.alive = true)
      (hd : cell.doomed = true) : Moves w (.proxyExit p) (w.setProxy p { cell with alive := false })
  | actorExit {a : Address} {cell : ActorCell μ} (hc : w.actors a = some cell) (ha : cell.alive = true)
      (hd : cell.doomed = true) : Moves w (.actorExit a) (w.setActor a { cell with alive := false })
  | die {a : Address} {cell : ActorCell μ} (hc : w.actors a = some cell) (ha : cell.alive = true) :
      Moves w (.die a) (w.setActor a { cell with alive := false })
  | notify {p a : Address} {cell : ProxyCell μ} (hp : w.proxies p = some cell)
      (hn : w.mayNotify cell a = true) :
      Moves w (.notify p a) (w.setProxy p { cell with mail := cell.mail ++ [{ msg := .down a }] })

lemma setProxy_same (w : World μ) (p : Address) (cell : ProxyCell μ) : (w.setProxy p cell).proxies p = some cell :=
  Function.update_self _ _ _

lemma setProxy_other {p q} (h : q ≠ p) (cell : ProxyCell μ) :
    (w.setProxy p cell).proxies q = w.proxies q :=
  Function.update_of_ne h _ _

lemma toProxy_eq {p cell} (hp : w.proxies p = some cell) (letter : ProxyLetter μ) :
    w.toProxy p letter = w.setProxy p { cell with mail := cell.mail ++ [letter] } := by
  rw [toProxy, hp]

lemma background_moves {b} (h : w.background b = some w') : Moves w b w' := by
  cases b with
  | registry =>
    cases hm : w.registryMail with
    | nil => simp [background, hm] at h
    | cons letter rest =>
      obtain ⟨origin, msg⟩ := letter
      obtain rfl : _ = w' := by simpa [background, hm] using h
      exact .registry hm
  | proxy p =>
    cases hp : w.proxies p with
    | none => simp [background, hp] at h
    | some cell =>
      cases ha : cell.alive with
      | false => simp [background, hp, ha] at h
      | true =>
        cases hm : cell.mail with
        | nil => simp [background, hp, ha, hm] at h
        | cons letter rest =>
          obtain rfl : _ = w' := by simpa [background, hp, ha, hm] using h
          exact .proxy hp ha hm
  | actor a snapshot =>
    cases hc : w.actors a with
    | none => simp [background, hc] at h
    | some cell =>
      cases ha : cell.alive with
      | false => simp [background, hc, ha] at h
      | true =>
        cases hm : cell.received[cell.handled]? with
        | none => simp [background, hc, ha, hm] at h
        | some msg =>
          obtain rfl : _ = w' := by simpa [background, hc, ha, hm] using h
          exact .actor hc ha hm
  | call p c =>
    cases hp : w.proxies p with
    | none => simp [background, hp] at h
    | some cell =>
      cases ha : cell.alive with
      | false => simp [background, hp, ha] at h
      | true =>
        obtain rfl : _ = w' := by simpa [background, hp, ha] using h
        rw [toProxy_eq hp]
        exact .call hp ha
  | proxyExit p =>
    cases hp : w.proxies p with
    | none => simp [background, hp] at h
    | some cell =>
      obtain ⟨⟨ha, hd⟩, rfl⟩ : (cell.alive = true ∧ cell.doomed = true) ∧ _ = w' := by
        simpa [background, hp] using h
      exact .proxyExit hp ha hd
  | actorExit a =>
    cases hc : w.actors a with
    | none => simp [background, hc] at h
    | some cell =>
      obtain ⟨⟨ha, hd⟩, rfl⟩ : (cell.alive = true ∧ cell.doomed = true) ∧ _ = w' := by
        simpa [background, hc] using h
      exact .actorExit hc ha hd
  | die a =>
    cases hc : w.actors a with
    | none => simp [background, hc] at h
    | some cell =>
      obtain ⟨ha, rfl⟩ : cell.alive = true ∧ _ = w' := by simpa [background, hc] using h
      exact .die hc ha
  | notify p a =>
    cases hp : w.proxies p with
    | none => simp [background, hp] at h
    | some cell =>
      obtain ⟨hn, rfl⟩ : w.mayNotify cell a = true ∧ _ = w' := by simpa [background, hp] using h
      rw [toProxy_eq hp]
      exact .notify hp hn

end World

/-! ## Handlers in the world -/

/-- The world as the surroundings of a handler: the background events that `allowed` lets happen, and the operations
with the decisions of the environment that `agreed` lets it make. -/
def surroundings {μ : Type} (allowed : World μ → World.Background μ → Prop)
    (agreed : Op → World μ → World.Choice → Prop) : Surroundings Op Op.Reply (World μ) where
  env w w' := ∃ b, allowed w b ∧ w.background b = some w'
  sem e w r w' := ∃ c, agreed e w c ∧ w.perform e c = some (r, w')

namespace System

variable {μ : Type}

/-- A condition on the steps of the system: on the messages that the manager takes up, on the background events, and
on the decisions of the environment while the manager handles a message. -/
structure Rules (μ : Type) where
  takes : PluginManager → ManagerMsg → Prop := fun _ _ => True
  allowed : World μ → World.Background μ → Prop := fun _ _ => True
  agreed : PluginManager → ManagerMsg → Op → World μ → World.Choice → Prop := fun _ _ _ _ _ => True

/-- The step keeps to the rules. -/
def Rules.Obeys (rules : Rules μ) (s : System μ) : Event μ → Prop
  | .receive msg => rules.takes s.manager msg
  | .perform choice =>
    match s.running with
    | some { msg, since := _, rest := .ask e _ } => rules.agreed s.manager msg e s.world choice
    | _ => True
  | .finish => True
  | .background b => rules.allowed s.world b

instance Rules.Obeys.decidable (rules : Rules μ) [∀ m msg, Decidable (rules.takes m msg)]
    [∀ w b, Decidable (rules.allowed w b)] [∀ m msg e w c, Decidable (rules.agreed m msg e w c)] (s : System μ) :
    ∀ e, Decidable (rules.Obeys s e)
  | .receive msg => inferInstanceAs (Decidable (rules.takes s.manager msg))
  | .perform choice =>
    match hr : s.running with
    | some ⟨msg, _, .ask e _⟩ =>
      decidable_of_iff (rules.agreed s.manager msg e s.world choice) (by simp [Rules.Obeys, hr])
    | some ⟨_, _, .ret _⟩ => isTrue (by simp [Rules.Obeys, hr])
    | none => isTrue (by simp [Rules.Obeys, hr])
  | .finish => isTrue trivial
  | .background b => inferInstanceAs (Decidable (rules.allowed s.world b))

/-- The surroundings of the handler of `msg` under the rules. -/
def Rules.around (rules : Rules μ) (m : PluginManager) (msg : ManagerMsg) : Surroundings Op Op.Reply (World μ) :=
  surroundings rules.allowed (rules.agreed m msg)

/-- What is known of a state: at rest the invariant, and within a handler that what is left of it meets the
invariant. -/
structure Known (rules : Rules μ) (G : World μ → Prop) (R : PluginManager → List (Completed μ) → World μ → Prop)
    (s : System μ) : Prop where
  now : G s.world
  rest : s.running = none → R s.manager s.history s.world
  busy : ∀ msg since p, s.running = some ⟨msg, since, p⟩ →
    Meets (rules.around s.manager msg) G p
      (fun done w => R done.2 (s.history ++ [⟨msg, s.manager, since, done.1, done.2⟩]) w) s.world

variable {rules : Rules μ} {G : World μ → Prop} {R : PluginManager → List (Completed μ) → World μ → Prop}

section Rest

variable (hnow : ∀ m h w, R m h w → G w)
  (hstable : ∀ m h w w' b, R m h w → rules.allowed w b → w.background b = some w' → R m h w')
  (hhandler : ∀ m h w msg, R m h w → rules.takes m msg →
    Meets (rules.around m msg) G (m.handler msg)
      (fun done w' => R done.2 (h ++ [⟨msg, m, w, done.1, done.2⟩]) w') w)

include hnow hstable hhandler

/-- One step. -/
lemma Known.step {s s' e} (hk : Known rules G R s) (hobeys : rules.Obeys s e)
    (hs : s.step e = some s') : Known rules G R s' := by
  cases e with
  | receive msg =>
    cases hr : s.running with
    | some r => simp [System.step, hr] at hs
    | none =>
      obtain rfl : _ = s' := by simpa [System.step, hr] using hs
      refine ⟨hk.now, fun h => by simp at h, ?_⟩
      rintro _ _ _ ⟨⟩
      exact hhandler _ _ _ msg (hk.rest hr) hobeys
  | perform choice =>
    cases hr : s.running with
    | none => simp [System.step, hr] at hs
    | some task =>
      obtain ⟨msg, since, p⟩ := task
      cases p with
      | ret done => simp [System.step, hr] at hs
      | ask e k =>
        simp only [System.step, hr, Option.map_eq_some_iff] at hs
        obtain ⟨⟨reply, w⟩, hw, rfl⟩ := hs
        have hobeys' : rules.agreed s.manager msg e s.world choice := by
          simpa [Rules.Obeys, hr] using hobeys
        have hmeets := (hk.busy msg since _ hr).step ⟨choice, hobeys', hw⟩
        refine ⟨hmeets.now, fun h => by simp at h, ?_⟩
        rintro _ _ _ ⟨⟩
        exact hmeets
  | finish =>
    cases hr : s.running with
    | none => simp [System.step, hr] at hs
    | some task =>
      obtain ⟨msg, since, p⟩ := task
      cases p with
      | ask e k => simp [System.step, hr] at hs
      | ret done =>
        obtain rfl : _ = s' := by simpa [System.step, hr] using hs
        have hdone := (hk.busy msg since _ hr).returned
        exact ⟨hnow _ _ _ hdone, fun _ => hdone, fun _ _ _ h => by simp at h⟩
  | background b =>
    simp only [System.step, Option.map_eq_some_iff] at hs
    obtain ⟨w, hw, rfl⟩ := hs
    refine ⟨?_, fun h => hstable _ _ _ _ b (hk.rest h) hobeys hw, fun msg since p h =>
      (hk.busy msg since p h).env ⟨b, hobeys, hw⟩⟩
    cases hr : s.running with
    | none => exact hnow _ _ _ (hstable _ _ _ _ b (hk.rest hr) hobeys hw)
    | some task => exact ((hk.busy task.msg task.since task.rest hr).env ⟨b, hobeys, hw⟩).now

/-- **Runs.**  An invariant that the background keeps and every handler meets again holds whenever the manager is at
rest, and what it guarantees at every moment holds throughout. -/
theorem run_rest {s s' es} (hk : Known rules G R s)
    (hobeys : Machine.RunWhere System.step rules.Obeys s es) (hrun : Machine.run System.step s es = some s') :
    Known rules G R s' :=
  Machine.run_invariant_where (C := rules.Obeys) (I := Known rules G R)
    (fun _ _ _ hI hC hstep => Known.step hnow hstable hhandler hI hC hstep) hk hobeys hrun

end Rest

end System

end Caf.Plugin
