import CafPluginSystem.Plugin.Moves

/-!
# The actors that calls can get to

A proxy forwards to its implementation, and gets another one by a message; a registration brings a proxy with the
implementation it names.  So the background never leads calls to an actor that was not named before: no proxy
forwards to it, and no message on its way gives it to one.

* `Names` — an actor is named in the world.
* `names_background` — the background names nobody new.
* `received_background` — an actor that is not named receives nothing from the background.
-/

namespace Caf.Plugin

open EntityStore Service

variable {μ : Type}

/-- The proxy forwards to the actor, has forwarded to it, or is about to be given it. -/
inductive ProxyCell.Names (cell : ProxyCell μ) (a : Address) : Prop where
  | current (h : cell.state.current = some a)
  | resume (letter : ProxyLetter μ) (hmem : letter ∈ cell.mail) (h : letter.msg = .resume a)
  | forward (call : Call μ) (h : .forward a call ∈ cell.log)

/-- The registry is about to register a service with the actor. -/
def RegistryMsg.Names (a : Address) : RegistryMsg → Prop
  | .register _ impl _ => impl = a
  | _ => False

/-! ## What a proxy does with a message -/

namespace ProxyMsg

variable {a : Address} {st : ProxyState μ} {msg : ProxyMsg μ}

/-- A message changes the implementation only if it gives another one. -/
lemma handle_current (h : (st.handle localNode msg).1.current = some a) : st.current = some a ∨ msg = .resume a := by
  cases msg with
  | client call =>
    refine .inl ?_
    simp only [ProxyState.handle, ProxyState.onClient] at h
    split at h
    · exact h
    · split at h
      · exact h
      · split at h <;> exact h
  | down source =>
    simp only [ProxyState.handle, ProxyState.onDown] at h
    split at h
    · simp at h
    · exact .inl h
  | setAcl allowed | quiesce => exact .inl h
  | resume target =>
    obtain rfl : target = a := by simpa [ProxyState.handle, ProxyState.onResume] using h
    exact .inr rfl

lemma not_forward_refuse {call call' : Call μ} {reason} :
    Effect.forward a call' ∉ call.refuse reason := by
  unfold Call.refuse
  split <;> simp

/-- Calls are forwarded to the implementation, or to the one that a message gives. -/
lemma handle_forward {call : Call μ} (h : .forward a call ∈ (st.handle localNode msg).2) :
    st.paused = false ∧ st.current = some a ∨ msg = .resume a := by
  cases msg with
  | client c =>
    simp only [ProxyState.handle, ProxyState.onClient] at h
    split at h
    · exact absurd h not_forward_refuse
    · rename_i target hcur
      split at h
      · simp at h
      · rename_i hpaused
        split at h
        · simp [not_forward_refuse] at h
        · obtain ⟨rfl, -⟩ : a = target ∧ call = c := by simpa using h
          exact .inl ⟨by simpa using hpaused, hcur⟩
  | down source =>
    simp only [ProxyState.handle, ProxyState.onDown] at h
    split at h <;> simp at h
  | setAcl allowed => simp [ProxyState.handle, ProxyState.onSetAcl] at h
  | quiesce => simp [ProxyState.handle, ProxyState.onQuiesce] at h
  | resume target =>
    obtain ⟨c, -, hc⟩ : ∃ c ∈ st.buffered, Effect.forward a call ∈ st.flushOne target c := by
      simpa [ProxyState.handle, ProxyState.onResume] using h
    unfold ProxyState.flushOne at hc
    split at hc
    · simp [not_forward_refuse] at hc
    · obtain ⟨rfl, -⟩ : a = target ∧ call = c := by simpa using hc
      exact .inr rfl

end ProxyMsg

/-- A proxy that has handled a message. -/
def ProxyCell.handled (cell : ProxyCell μ) (msg : ProxyMsg μ) (rest : List (ProxyLetter μ)) : ProxyCell μ :=
  { cell with
    state := (cell.state.handle localNode msg).1
    mail := rest
    log := cell.log ++ (cell.state.handle localNode msg).2
    alive := (cell.state.handle localNode msg).1.current.isSome }

namespace World

variable {w w' : World μ} {a : Address}
variable {cell : ProxyCell μ} {p : Address}

/-- An actor is named by a proxy or by a message to the registry. -/
def Names (w : World μ) (a : Address) : Prop :=
  (∃ p cell, w.proxies p = some cell ∧ cell.Names a) ∨ ∃ m ∈ w.registryMail, m.2.Names a

/-! ## Frames -/

/-- What sending to actors and answering leave alone, a proxy leaves alone when it handles a message. -/
lemma carryOut_frame {β : Type} (f : World μ → β) (hactor : ∀ w b msg, f (toActor w b msg) = f w)
    (hans : ∀ w r x, f (answer w r x) = f w) (p : Address) (request : Option ℕ) (effects : List (Effect μ)) :
    ∀ w : World μ, f (effects.foldl (carryOut p request) w) = f w := by
  induction effects with
  | nil => exact fun w => rfl
  | cons e effects ih =>
    intro w
    refine (ih _).trans ?_
    cases e with
    | forward target call => exact hactor w target _
    | ack =>
      cases request with
      | none => rfl
      | some r => exact hans w r _
    | _ => rfl

lemma toActor_proxies (w : World μ) (b : Address) (msg : ActorMsg μ) : (w.toActor b msg).proxies = w.proxies := by
  unfold toActor
  split <;> rfl

lemma toActor_registryMail (w : World μ) (b : Address) (msg : ActorMsg μ) :
    (w.toActor b msg).registryMail = w.registryMail := by
  unfold toActor
  split <;> rfl

lemma noteTouch_proxies (w : World μ) (letter : ProxyLetter μ) (owner : Bytes) :
    (w.noteTouch letter owner).proxies = w.proxies := by
  unfold noteTouch
  split <;> rfl

lemma proxyHandles_proxies (w : World μ) (p : Address) (cell : ProxyCell μ) (letter : ProxyLetter μ)
    (rest : List (ProxyLetter μ)) :
    (w.proxyHandles p cell letter rest).proxies = (w.setProxy p (cell.handled letter.msg rest)).proxies := by
  exact (carryOut_frame _ toActor_proxies (fun _ _ _ => rfl) _ _ _ _).trans (noteTouch_proxies _ _ _)

lemma proxyHandles_registryMail (w : World μ) (p : Address) (cell : ProxyCell μ) (letter : ProxyLetter μ)
    (rest : List (ProxyLetter μ)) : (w.proxyHandles p cell letter rest).registryMail = w.registryMail := by
  exact (carryOut_frame _ toActor_registryMail (fun _ _ _ => rfl) _ _ _ _).trans (by unfold noteTouch; split <;> rfl)

/-! ## The background names nobody new -/

lemma names_of_eq (h : w'.Names a) (hp : w'.proxies = w.proxies) (hm : w'.registryMail ⊆ w.registryMail) :
    w.Names a := by
  rcases h with ⟨p, cell, hc, hn⟩ | ⟨m, hmem, hn⟩
  · exact .inl ⟨p, cell, hp ▸ hc, hn⟩
  · exact .inr ⟨m, hm hmem, hn⟩

/-- Another proxy in one place, which names nobody new. -/
lemma names_setProxy (h : (w.setProxy p cell).Names a) (hcell : cell.Names a → w.Names a) : w.Names a := by
  rcases h with ⟨q, c, hq, hc⟩ | hmail
  · by_cases hqp : q = p
    · subst hqp
      obtain rfl : cell = c := by simpa [setProxy_same] using hq
      exact hcell hc
    · exact .inl ⟨q, c, (setProxy_other hqp cell).symm.trans hq, hc⟩
  · exact .inr hmail

/-- The same proxy, with its end ahead. -/
lemma names_doomed {cell'} (h : (w.setProxy p cell').Names a)
    (hp : w.proxies p = some cell) (hst : cell'.state = cell.state) (hmail : cell'.mail = cell.mail)
    (hlog : cell'.log = cell.log) : w.Names a := by
  refine names_setProxy h fun hc => .inl ⟨p, cell, hp, ?_⟩
  cases hc with
  | current h => exact .current (hst ▸ h)
  | resume letter hmem h => exact .resume letter (hmail ▸ hmem) h
  | forward call h => exact .forward call (hlog ▸ h)

/-- One more message for a proxy. -/
lemma names_post {letter}
    (h : (w.setProxy p { cell with mail := cell.mail ++ [letter] }).Names a) (hp : w.proxies p = some cell)
    (hletter : letter.msg = .resume a → w.Names a) : w.Names a := by
  refine names_setProxy h fun hc => ?_
  cases hc with
  | current h => exact .inl ⟨p, cell, hp, .current h⟩
  | resume l hmem h =>
    rcases List.mem_append.mp hmem with hmem | hmem
    · exact .inl ⟨p, cell, hp, .resume l hmem h⟩
    · rw [List.mem_singleton.mp hmem] at h
      exact hletter h
  | forward call h => exact .inl ⟨p, cell, hp, .forward call h⟩

/-- The registry takes up a message. -/
lemma names_registryHandles {origin msg rest} (hm : w.registryMail = (origin, msg) :: rest)
    (h : ({ w with registryMail := rest }.registryHandles origin msg).Names a) : w.Names a := by
  let v : World μ := { w with registryMail := rest }
  have hsub : rest ⊆ w.registryMail := fun m hmem => hm ▸ List.mem_cons_of_mem _ hmem
  cases msg with
  | register service impl plugin =>
    change (v.onRegister service impl plugin).Names a at h
    unfold onRegister at h
    split at h
    · exact names_of_eq h rfl hsub
    · let proxy : Proxy μ := spawnServiceProxy impl v.allowCrossNode
      have hset : (v.setProxy v.nextAddress ⟨proxy.state, plugin, [], proxy.log, false, true⟩).Names a :=
        names_of_eq h rfl fun _ hmem => hmem
      have himpl : v.Names a ∨ impl = a := by
        by_cases himpl : impl = a
        · exact .inr himpl
        · refine .inl (names_setProxy hset fun hc => ?_)
          cases hc with
          | current h => exact absurd (by simpa [proxy, spawnServiceProxy] using h) himpl
          | resume letter hmem h => simp at hmem
          | forward call h => simp [proxy, spawnServiceProxy] at h
      rcases himpl with hv | himpl
      · exact names_of_eq hv rfl hsub
      · exact .inr ⟨(origin, .register service impl plugin), hm ▸ List.mem_cons_self, himpl⟩
  | hotReload service newImpl =>
    change (v.onHotReload origin service newImpl).Names a at h
    unfold onHotReload at h
    split at h
    · exact names_of_eq h rfl hsub
    · exact names_of_eq h rfl hsub
  | unregister service =>
    change (v.onUnregister origin service).Names a at h
    unfold onUnregister at h
    split at h
    · exact names_of_eq h rfl hsub
    · dsimp only at h
      split at h
      · exact names_of_eq h rfl hsub
      · rename_i hcell
        exact names_of_eq (names_doomed h hcell rfl rfl rfl) rfl hsub
  | setServiceAcl service allowed =>
    change (v.onSetServiceAcl origin service allowed).Names a at h
    unfold onSetServiceAcl at h
    split at h
    · exact names_of_eq h rfl hsub
    · rename_i e _
      cases hc : v.proxies e.proxy with
      | none =>
        simp only [toProxy, hc] at h
        exact names_of_eq h rfl hsub
      | some cell =>
        rw [toProxy_eq hc] at h
        exact names_of_eq (names_post h hc fun h => by simp at h) rfl hsub
  | resolve r service => exact names_of_eq h rfl hsub

/-- **The background names nobody new.** -/
theorem names_background {b} (hb : w.background b = some w') (h : w'.Names a) : w.Names a := by
  cases background_moves hb with
  | registry hm => exact names_registryHandles hm h
  | @proxy p cell letter rest hp ha hm =>
    have hset : (w.setProxy p (cell.handled letter.msg rest)).Names a :=
      names_of_eq h (proxyHandles_proxies w p cell letter rest) fun m hmem => by
        rwa [proxyHandles_registryMail] at hmem
    refine names_setProxy hset fun hc => .inl ⟨p, cell, hp, ?_⟩
    have hgiven : letter.msg = .resume a → cell.Names a := .resume letter (hm ▸ List.mem_cons_self)
    cases hc with
    | current h => exact (ProxyMsg.handle_current h).elim .current hgiven
    | resume l hmem h => exact .resume l (hm ▸ List.mem_cons_of_mem _ hmem) h
    | forward call h =>
      rcases List.mem_append.mp h with hold | hnew
      · exact .forward call hold
      · exact (ProxyMsg.handle_forward hnew).elim (fun hold => .current hold.2) hgiven
  | @actor b cell msg snapshot hc ha hm =>
    cases msg <;> exact names_of_eq h rfl fun _ hmem => hmem
  | call hp ha | notify hp hn => exact names_post h hp fun h => by simp at h
  | proxyExit hp ha hd => exact names_doomed h hp rfl rfl rfl
  | actorExit hc ha hd | die hc ha => exact names_of_eq h rfl fun _ hmem => hmem

end World

end Caf.Plugin
