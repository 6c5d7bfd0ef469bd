import CafPluginSystem.Plugin.Moves

/-!
# The settled table of services

What the registry and the proxies will have come to when every message that has been sent is delivered.  The
background only delivers, so it leaves the settled table as it is; the manager changes it when it sends to the registry
or to a proxy, and then as if the message were handled at once.  So for the table the handlers are sequential programs.

* `Standing` — what is settled about a service; `World.settle` — the table.
* `settle_background` — the background leaves the table alone.
* `settle_toProxy`, `settle_toRegistry` — what the manager sends.
* `settle_delivered` — when everything is delivered, the table is what the registry and the proxies have.
-/

namespace Caf.Plugin

open EntityStore Service Interaction Function StringMap

variable {μ : Type}
variable {msg : RegistryMsg}

/-! ## Services -/

/-- What is settled about a registered service: the plugin it is registered for and its implementation in the
registry; the implementation that its proxy was last given, whether the proxy is paused, and its allow list, none while
it is open to everyone. -/
structure Standing where
  plugin : Bytes
  impl : Address
  aim : Option Address
  paused : Bool
  acl : Option (List (Option Address))

def currentAcl (st : ProxyState μ) : Option (List (Option Address)) := if st.restricted then some st.allowed else none

/-- The implementation that an effect of a proxy shows it was given. -/
def aimOf : Effect μ → Option Address
  | .monitor target => some target
  | _ => none

/-- The last one. -/
def lastAim (log : List (Effect μ)) : Option Address := (log.filterMap aimOf).getLast?

namespace Standing

/-- A service that was just registered. -/
def entered (plugin : Bytes) (impl : Address) : Standing := ⟨plugin, impl, some impl, false, none⟩

/-- A service with a proxy that has handled all its messages. -/
def now (plugin : Bytes) (impl : Address) (st : ProxyState μ) (log : List (Effect μ)) : Standing :=
  ⟨plugin, impl, lastAim log, st.paused, currentAcl st⟩

def pause (st : Standing) : Standing := { st with paused := true }

def resume (st : Standing) (target : Address) : Standing := { st with aim := some target, paused := false }

/-- With one more message handled by the proxy. -/
def after (st : Standing) : ProxyMsg μ → Standing
  | .client _ => st
  | .down _ => st
  | .setAcl allowed => { st with acl := some allowed }
  | .quiesce => st.pause
  | .resume target => st.resume target

@[simp] lemma after_plugin (st : Standing) (msg : ProxyMsg μ) : (st.after msg).plugin = st.plugin := by
  cases msg <;> rfl

lemma after_moved (st : Standing) (impl : Address) (msg : ProxyMsg μ) :
    ({ st with impl } : Standing).after msg = { st.after msg with impl } := by
  cases msg <;> rfl

lemma after_restricted (st : Standing) (allowed : List (Option Address)) {msg : ProxyMsg μ}
    (h : ∀ list, msg ≠ .setAcl list) :
    ({ st with acl := some allowed } : Standing).after msg = { st.after msg with acl := some allowed } := by
  cases msg with
  | setAcl list => exact absurd rfl (h list)
  | _ => rfl

/-- With all the messages of a mailbox handled. -/
def afterAll (st : Standing) (mail : List (ProxyLetter μ)) : Standing :=
  mail.foldl (fun st letter => st.after letter.msg) st

lemma afterAll_moved (impl : Address) (mail : List (ProxyLetter μ)) : ∀ st : Standing,
    ({ st with impl } : Standing).afterAll mail = { st.afterAll mail with impl } := by
  induction mail with
  | nil => exact fun st => rfl
  | cons letter rest ih =>
    intro st
    show (({ st with impl } : Standing).after letter.msg).afterAll rest = _
    rw [after_moved]
    exact ih _

lemma afterAll_append (st : Standing) (mail : List (ProxyLetter μ)) (letter : ProxyLetter μ) :
    st.afterAll (mail ++ [letter]) = (st.afterAll mail).after letter.msg := by
  simp [afterAll]

end Standing

/-! ## What a proxy was given -/

lemma lastAim_append {log effects : List (Effect μ)} (h : effects.filterMap aimOf = []) :
    lastAim (log ++ effects) = lastAim log := by
  simp [lastAim, h]

lemma refuse_aims (call : Call μ) (reason : Bytes) : (call.refuse reason).filterMap aimOf = [] := by
  unfold Call.refuse
  split <;> rfl

lemma flush_aims (st : ProxyState μ) (target : Address) (calls : List (Call μ)) :
    (calls.flatMap (st.flushOne target)).filterMap aimOf = [] := by
  induction calls with
  | nil => rfl
  | cons call rest ih =>
    rw [List.flatMap_cons, List.filterMap_append, ih, List.append_nil]
    unfold ProxyState.flushOne
    split
    · exact refuse_aims call _
    · rfl

lemma lastAim_onResume (st : ProxyState μ) (log : List (Effect μ)) (target : Address) :
    lastAim (log ++ (st.onResume target).2) = some target := by
  simp [lastAim, ProxyState.onResume, aimOf, flush_aims]

/-- Handling a message makes of a service what the message says. -/
lemma Standing.now_handle (plugin : Bytes) (impl : Address) (st : ProxyState μ) (log : List (Effect μ))
    (msg : ProxyMsg μ) :
    now plugin impl (st.handle localNode msg).1 (log ++ (st.handle localNode msg).2)
      = (now plugin impl st log).after msg := by
  have hsame : ∀ st' effects, effects.filterMap aimOf = [] →
      st'.paused = st.paused → currentAcl st' = currentAcl st →
      now plugin impl st' (log ++ effects) = now plugin impl st log := by
    intro st' effects haims hpaused hacl
    rw [now, now, lastAim_append haims, hpaused, hacl]
  cases msg with
  | client call =>
    show now plugin impl (st.onClient localNode call).1 (log ++ (st.onClient localNode call).2) = now plugin impl st log
    unfold ProxyState.onClient
    split
    · exact hsame _ _ (refuse_aims call _) rfl rfl
    · split
      · exact hsame _ _ rfl rfl rfl
      · split
        · exact hsame _ _ (refuse_aims call _) rfl rfl
        · exact hsame _ _ rfl rfl rfl
  | down source =>
    show now plugin impl (st.onDown source).1 (log ++ (st.onDown source).2) = now plugin impl st log
    unfold ProxyState.onDown
    split
    · exact hsame _ _ rfl rfl rfl
    · exact hsame _ _ rfl rfl rfl
  | setAcl allowed =>
    show Standing.mk plugin impl (lastAim (log ++ [])) st.paused (some allowed) = _
    rw [List.append_nil]
    rfl
  | quiesce =>
    show Standing.mk plugin impl (lastAim (log ++ [.ack])) true (currentAcl st) = _
    rw [lastAim_append rfl]
    rfl
  | resume target =>
    show Standing.mk plugin impl (lastAim (log ++ (st.onResume target).2)) false (currentAcl st) = _
    rw [lastAim_onResume]
    rfl

/-! ## Tables -/

abbrev Table := Bytes → Option Standing

namespace RegistryMsg

/-- The service a message to the registry is about. -/
def service : RegistryMsg → Bytes
  | .register service _ _ => service
  | .hotReload service _ => service
  | .unregister service => service
  | .setServiceAcl service _ => service
  | .resolve _ service => service

/-- What a message makes of the service, with everything that follows from it. -/
def effect : RegistryMsg → Option Standing → Option Standing
  | .register _ impl plugin, x => x.or (some (.entered plugin impl))
  | .hotReload _ newImpl, x => x.map fun st => { st with impl := newImpl }
  | .unregister _, _ => none
  | .setServiceAcl _ allowed, x => x.map fun st => { st with acl := some allowed }
  | .resolve _ _, x => x

end RegistryMsg

namespace Table

variable {letter : ProxyMsg μ}

/-- The table with another entry for one service. -/
def change (t : Table) (service : Bytes) (g : Option Standing → Option Standing) : Table :=
  Function.update t service (g (t service))

/-- A message to the registry. -/
def apply (t : Table) (msg : RegistryMsg) : Table := t.change msg.service msg.effect

/-- A message to the proxy of a service. -/
def signal (t : Table) (service : Bytes) (msg : ProxyMsg μ) : Table := t.change service (Option.map (·.after msg))

/-- The table when one message after the other is handled by the registry. -/
def applyAll (t : Table) (mail : List (Bytes × RegistryMsg)) : Table := mail.foldl (fun t m => t.apply m.2) t

variable {t : Table} {service svc : Bytes} {g g' : Option Standing → Option Standing}

@[simp] lemma change_same : t.change service g service = g (t service) := update_self _ _ _

lemma change_other (h : svc ≠ service) : t.change service g svc = t svc := update_of_ne h _ _

lemma change_id (h : g (t service) = t service) : t.change service g = t :=
  update_eq_self_iff.mpr h

/-- Changes of one service that can be made in either order. -/
lemma change_comm (h : svc = service → g (g' (t service)) = g' (g (t service))) :
    (t.change service g').change svc g = (t.change svc g).change service g' := by
  by_cases hsvc : svc = service
  · subst hsvc
    simp [change, update_idem, h rfl]
  · simp only [change, update_of_ne hsvc, update_of_ne (Ne.symm hsvc)]
    exact update_comm (Ne.symm hsvc) _ _ _

lemma resolve_apply (r : ℕ) : t.apply (.resolve r service) = t := change_id rfl

/-- A message that is no list, to the proxy of a registered service, and a message to the registry that does not
unregister it can be sent in either order. -/
lemma apply_signal (hreg : t service ≠ none)
    (hmsg : msg ≠ .unregister service) (hletter : ∀ allowed, letter ≠ .setAcl allowed) :
    (t.signal service letter).apply msg = (t.apply msg).signal service letter := by
  obtain ⟨st, hst⟩ := Option.ne_none_iff_exists'.mp hreg
  refine change_comm fun hsvc => ?_
  cases msg with
  | register s impl plugin => simp [RegistryMsg.effect, hst]
  | hotReload s newImpl => simp [RegistryMsg.effect, hst, Standing.after_moved]
  | unregister s => exact absurd (congrArg RegistryMsg.unregister hsvc) hmsg
  | setServiceAcl s allowed => simp [RegistryMsg.effect, hst, Standing.after_restricted _ _ hletter]
  | resolve r s => rfl

/-- A registered service stays registered, for the same plugin, until it is unregistered. -/
lemma apply_registered {st} (hst : t service = some st)
    (hmsg : msg ≠ .unregister service) : ∃ st', t.apply msg service = some st' ∧ st'.plugin = st.plugin := by
  by_cases hsvc : service = msg.service
  · subst hsvc
    rw [apply, change_same, hst]
    cases msg with
    | register s impl plugin | resolve r s => exact ⟨st, rfl, rfl⟩
    | hotReload s newImpl | setServiceAcl s allowed => exact ⟨_, rfl, rfl⟩
    | unregister s => exact absurd rfl hmsg
  · exact ⟨st, (change_other hsvc).trans hst, rfl⟩

/-- Which plugins the services are registered for after a message depends on which they were registered for. -/
lemma apply_plugins {t' : Table} (h : ∀ service, (t' service).map Standing.plugin = (t service).map Standing.plugin)
    (msg : RegistryMsg) (service : Bytes) :
    (t'.apply msg service).map Standing.plugin = (t.apply msg service).map Standing.plugin := by
  by_cases hsvc : service = msg.service
  · subst hsvc
    have heq := h msg.service
    simp only [apply, change_same]
    cases msg with
    | register s impl plugin =>
      simp only [RegistryMsg.effect, RegistryMsg.service] at heq ⊢
      cases hs : t s <;> cases hs' : t' s <;> simp_all
    | hotReload s newImpl | setServiceAcl s allowed =>
      simpa [RegistryMsg.effect, Function.comp_def] using heq
    | unregister s => rfl
    | resolve r s => exact heq
  · rw [apply, apply, change_other hsvc, change_other hsvc]
    exact h service

lemma applyAll_signal (hletter : ∀ allowed, letter ≠ .setAcl allowed)
    {mail} (hmail : ∀ m ∈ mail, m.2 ≠ .unregister service) :
    ∀ {t : Table}, t service ≠ none →
    (t.signal service letter).applyAll mail = (t.applyAll mail).signal service letter := by
  induction mail with
  | nil => exact fun _ => rfl
  | cons m rest ih =>
    intro t hreg
    obtain ⟨st, hst⟩ := Option.ne_none_iff_exists'.mp hreg
    obtain ⟨st', hst', -⟩ := apply_registered hst (hmail m List.mem_cons_self)
    show ((t.signal service letter).apply m.2).applyAll rest = ((t.apply m.2).applyAll rest).signal service letter
    rw [apply_signal hreg (hmail m List.mem_cons_self) hletter]
    exact ih (fun m' hm' => hmail m' (List.mem_cons_of_mem _ hm')) (by simp [hst'])

end Table

namespace World

variable {w w' : World μ}
variable {cell cell' : ProxyCell μ} {e : VersionedEntry} {service : Bytes} {letter : ProxyLetter μ}
  {p : Address} {b : Background μ}

/-- A proxy once its mailbox is handled, for a registration. -/
def settled (plugin : Bytes) (impl : Address) (cell : ProxyCell μ) : Standing :=
  (Standing.now plugin impl cell.state cell.log).afterAll cell.mail

/-- What is settled about a registration. -/
def standing (w : World μ) (e : VersionedEntry) : Standing :=
  match w.proxies e.proxy with
  | some cell => settled e.plugin e.impl cell
  | none => .entered e.plugin e.impl

lemma standing_eq (hc : w.proxies e.proxy = some cell) :
    w.standing e = settled e.plugin e.impl cell := by
  rw [standing, hc]

lemma afterAll_plugin (st : Standing) (mail : List (ProxyLetter μ)) : (st.afterAll mail).plugin = st.plugin := by
  induction mail generalizing st with
  | nil => rfl
  | cons letter rest ih => exact (ih _).trans (st.after_plugin letter.msg)

@[simp] lemma standing_plugin (w : World μ) (e : VersionedEntry) : (w.standing e).plugin = e.plugin := by
  unfold standing
  split
  · exact afterAll_plugin _ _
  · rfl

/-- The table of the registrations that the registry has. -/
def registered (w : World μ) : Table := fun service => w.services[service]?.map w.standing

/-- **The settled table.** -/
def settle (w : World μ) : Table := w.registered.applyAll w.registryMail

lemma registered_eq (he : w.services[service]? = some e) :
    w.registered service = some (w.standing e) := by
  simp [registered, he]

lemma registered_none (he : w.services[service]? = none) : w.registered service = none := by
  simp [registered, he]

/-! ## The world is in order -/

/-- New addresses are unused; every registration has a proxy of its own, owned by the plugin of the registration. -/
structure Sane (w : World μ) : Prop where
  fresh : ∀ a : Address, w.next ≤ a.id → w.proxies a = none
  owned : ∀ (service : Bytes) (e : VersionedEntry), w.services[service]? = some e →
    ∃ cell, w.proxies e.proxy = some cell ∧ cell.owner = e.plugin
  distinct : ∀ (service service' : Bytes) (e e' : VersionedEntry), w.services[service]? = some e →
    w.services[service']? = some e' → e.proxy = e'.proxy → service = service'

/-- A registration has a proxy, so its address is not a new one. -/
lemma Sane.proxy_ne (hs : Sane w) (he : w.services[service]? = some e)
    {a} (ha : w.next ≤ a.id) : e.proxy ≠ a := by
  rintro rfl
  obtain ⟨cell, hc, -⟩ := hs.owned service e he
  rw [hs.fresh _ ha] at hc
  exact absurd hc (by simp)

/-- The registry is the same, and so are the owners of the proxies. -/
structure Steady (w w' : World μ) : Prop where
  services : w'.services = w.services
  mail : w'.registryMail = w.registryMail
  next : w.next ≤ w'.next
  fresh : ∀ p, w.proxies p = none → w'.proxies p = none
  owners : ∀ p cell, w.proxies p = some cell → ∃ cell', w'.proxies p = some cell' ∧ cell'.owner = cell.owner

namespace Steady

lemma sane (h : Steady w w') (hs : Sane w) : Sane w' := by
  refine ⟨fun a ha => h.fresh a (hs.fresh a (h.next.trans ha)), ?_, ?_⟩
  · intro service e he
    rw [h.services] at he
    obtain ⟨cell, hc, ho⟩ := hs.owned service e he
    obtain ⟨cell', hc', ho'⟩ := h.owners _ cell hc
    exact ⟨cell', hc', ho'.trans ho⟩
  · intro service service' e e' he he'
    rw [h.services] at he he'
    exact hs.distinct service service' e e' he he'

/-- A proxy with the same owner takes the place of the old one. -/
lemma setProxy (hp : w.proxies p = some cell) (ho : cell'.owner = cell.owner) : Steady w (w.setProxy p cell') := by
  refine ⟨rfl, rfl, le_rfl, fun q hq => ?_, fun q c hq => ?_⟩
  · have hne : q ≠ p := fun h => by simp [h, hp] at hq
    simpa [World.setProxy, update_of_ne hne] using hq
  · by_cases hqp : q = p
    · subst hqp
      obtain rfl : cell = c := by simpa [hp] using hq
      exact ⟨cell', setProxy_same w q cell', ho⟩
    · exact ⟨c, (setProxy_other hqp cell').trans hq, rfl⟩

lemma toProxy (p : Address) (letter : ProxyLetter μ) : Steady w (w.toProxy p letter) := by
  cases hp : w.proxies p with
  | none =>
    simp only [World.toProxy, hp]
    exact ⟨rfl, rfl, le_rfl, fun _ h => h, fun _ cell h => ⟨cell, h, rfl⟩⟩
  | some cell =>
    rw [toProxy_eq hp]
    exact setProxy hp rfl

end Steady

/-- Nothing changed for the table: the registry is the same and no proxy has another owner or another settled
standing. -/
structure Alike (w w' : World μ) : Prop extends Steady w w' where
  proxies : ∀ p cell, w.proxies p = some cell →
    ∃ cell', w'.proxies p = some cell' ∧ ∀ plugin impl, settled plugin impl cell' = settled plugin impl cell

namespace Alike

lemma trans {w₁ w₂ w₃ : World μ} (h₁ : Alike w₁ w₂) (h₂ : Alike w₂ w₃) : Alike w₁ w₃ := by
  refine ⟨⟨h₂.services.trans h₁.services, h₂.mail.trans h₁.mail, h₁.next.trans h₂.next,
    fun p h => h₂.fresh p (h₁.fresh p h), fun p cell h => ?_⟩, fun p cell h => ?_⟩
  · obtain ⟨cell₂, hp₂, ho₂⟩ := h₁.owners p cell h
    obtain ⟨cell₃, hp₃, ho₃⟩ := h₂.owners p cell₂ hp₂
    exact ⟨cell₃, hp₃, ho₃.trans ho₂⟩
  · obtain ⟨cell₂, hp₂, ha₂⟩ := h₁.proxies p cell h
    obtain ⟨cell₃, hp₃, ha₃⟩ := h₂.proxies p cell₂ hp₂
    exact ⟨cell₃, hp₃, fun plugin impl => (ha₃ plugin impl).trans (ha₂ plugin impl)⟩

/-- What does not touch the registry and the proxies changes nothing for the table. -/
lemma of_eq (hs : w'.services = w.services) (hm : w'.registryMail = w.registryMail) (hn : w.next ≤ w'.next)
    (hp : w'.proxies = w.proxies) : Alike w w' :=
  ⟨⟨hs, hm, hn, fun p h => by rw [hp]; exact h, fun p cell h => ⟨cell, by rw [hp]; exact h, rfl⟩⟩,
    fun p cell h => ⟨cell, by rw [hp]; exact h, fun _ _ => rfl⟩⟩

lemma refl (w : World μ) : Alike w w := of_eq rfl rfl le_rfl rfl

/-- A proxy with the same owner and the same settled standing takes the place of the old one. -/
lemma setProxy (hp : w.proxies p = some cell)
    (ho : cell'.owner = cell.owner) (ha : ∀ plugin impl, settled plugin impl cell' = settled plugin impl cell) :
    Alike w (w.setProxy p cell') := by
  refine ⟨.setProxy hp ho, fun q c hq => ?_⟩
  by_cases hqp : q = p
  · subst hqp
    obtain rfl : cell = c := by simpa [hp] using hq
    exact ⟨cell', setProxy_same w q cell', ha⟩
  · exact ⟨c, (setProxy_other hqp cell').trans hq, fun _ _ => rfl⟩

/-- A message of a client, or of the runtime, goes to a proxy. -/
lemma post (hp : w.proxies p = some cell) (hl : ∀ st : Standing, st.after letter.msg = st) :
    Alike w (w.setProxy p { cell with mail := cell.mail ++ [letter] }) :=
  setProxy hp rfl fun plugin impl => by rw [settled, settled, Standing.afterAll_append, hl]

lemma toActor (a : Address) (msg : ActorMsg μ) : Alike w (w.toActor a msg) := by
  unfold World.toActor
  split
  · exact of_eq rfl rfl le_rfl rfl
  · exact refl w

lemma carryOut (p : Address) (request : Option ℕ) (effects : List (Effect μ)) :
    ∀ w : World μ, Alike w (effects.foldl (carryOut p request) w) := by
  induction effects with
  | nil => exact refl
  | cons e effects ih =>
    intro w
    refine trans ?_ (ih _)
    cases e with
    | forward target call => exact toActor target _
    | ack =>
      cases request with
      | none => exact refl w
      | some r => exact of_eq rfl rfl le_rfl rfl
    | _ => exact refl w

lemma noteTouch (letter : ProxyLetter μ) (owner : Bytes) : Alike w (w.noteTouch letter owner) := by
  unfold World.noteTouch
  split
  · exact of_eq rfl rfl le_rfl rfl
  · exact refl w

lemma registered (h : Alike w w') (hs : Sane w) : w'.registered = w.registered := by
  funext service
  unfold World.registered
  rw [h.services]
  cases he : w.services[service]? with
  | none => rfl
  | some e =>
    obtain ⟨cell, hc, -⟩ := hs.owned service e he
    obtain ⟨cell', hc', ha⟩ := h.proxies _ cell hc
    simp [standing_eq hc, standing_eq hc', ha]

lemma settle (h : Alike w w') (hs : Sane w) : w'.settle = w.settle := by
  unfold World.settle
  rw [h.registered hs, h.mail]

end Alike

/-! ## Messages to the proxies -/

/-- A message to the proxy of a registered service. -/
lemma registered_toProxy (hs : Sane w) (he : w.services[service]? = some e) (letter : ProxyLetter μ) :
    (w.toProxy e.proxy letter).registered = w.registered.signal service letter.msg := by
  obtain ⟨cell, hc, -⟩ := hs.owned service e he
  rw [toProxy_eq hc]
  funext svc
  by_cases hsvc : svc = service
  · subst hsvc
    have hnew : (w.setProxy e.proxy { cell with mail := cell.mail ++ [letter] }).standing e
        = (settled e.plugin e.impl cell).after letter.msg := by
      rw [standing_eq (setProxy_same w _ _)]
      exact Standing.afterAll_append _ _ _
    rw [Table.signal, Table.change_same, registered_eq he, registered_eq (w := w.setProxy _ _) he, hnew, standing_eq hc]
    rfl
  · rw [Table.signal, Table.change_other hsvc]
    cases he' : w.services[svc]? with
    | none => rw [registered_none he', registered_none (w := w.setProxy _ _) he']
    | some e' =>
      have hne : e'.proxy ≠ e.proxy := fun h => hsvc (hs.distinct _ _ e' e he' he h)
      obtain ⟨cell', hc', -⟩ := hs.owned svc e' he'
      rw [registered_eq he', registered_eq (w := w.setProxy _ _) he', standing_eq hc',
        standing_eq ((setProxy_other hne _).trans hc')]

/-- **A message to a proxy**: the settled table changes at its service, if that is not about to be unregistered. -/
lemma settle_toProxy (hs : Sane w) (he : w.services[service]? = some e)
    (hmail : ∀ m ∈ w.registryMail, m.2 ≠ .unregister service)
    (hletter : ∀ allowed, letter.msg ≠ .setAcl allowed) :
    (w.toProxy e.proxy letter).settle = w.settle.signal service letter.msg := by
  unfold settle
  rw [registered_toProxy hs he, (Steady.toProxy e.proxy letter).mail]
  exact Table.applyAll_signal hletter hmail (by simp [registered_eq he])

/-! ## The background -/

/-- Handling a message moves a proxy along its mailbox, and its settled standing stays what it is. -/
lemma alike_proxyHandles
    {rest} (hp : w.proxies p = some cell) (hm : cell.mail = letter :: rest) :
    Alike w (w.proxyHandles p cell letter rest) := by
  refine ((Alike.setProxy hp ?_ ?_).trans (Alike.noteTouch _ _)).trans (Alike.carryOut _ _ _ _)
  · rfl
  · intro plugin impl
    show (Standing.now plugin impl (cell.state.handle localNode letter.msg).1
      (cell.log ++ (cell.state.handle localNode letter.msg).2)).afterAll rest = settled plugin impl cell
    rw [Standing.now_handle, settled, hm]
    rfl

lemma alike_actorHandles {a cell msg snapshot} :
    Alike w (w.actorHandles a cell msg snapshot) := by
  cases msg with
  | saveState request | _ => exact .of_eq rfl rfl le_rfl rfl

/-- The registry has taken up a message: its table changed as the message says, and the world is in order. -/
structure Applied (w : World μ) (msg : RegistryMsg) (w' : World μ) : Prop where
  sane : Sane w'
  registered : w'.registered = w.registered.apply msg
  mail : w'.registryMail = w.registryMail
  next : w.next ≤ w'.next

lemma Applied.of_alike (h : Alike w w') (hs : Sane w)
    (hmsg : w.registered.apply msg = w.registered) : Applied w msg w' :=
  ⟨h.sane hs, (h.registered hs).trans hmsg.symm, h.mail, h.next⟩

/-- The new table is the old one but for the service of the message. -/
lemma registered_apply (hsame : w'.registered msg.service = msg.effect (w.registered msg.service))
    (hoth : ∀ svc, svc ≠ msg.service → w'.registered svc = w.registered svc) :
    w'.registered = w.registered.apply msg := by
  funext svc
  by_cases hsvc : svc = msg.service
  · rw [hsvc, hsame, Table.apply, Table.change_same]
  · rw [hoth svc hsvc, Table.apply, Table.change_other hsvc]

section

variable (hs : Sane w)
include hs

lemma applied_register (service : Bytes) (impl : Address) (plugin : Bytes) :
    Applied w (.register service impl plugin) (w.onRegister service impl plugin) := by
  by_cases hmem : service ∈ w.services
  · obtain ⟨e, he⟩ := Option.isSome_iff_exists.mp (Std.ExtTreeMap.mem_iff_isSome_getElem?.mp hmem)
    rw [onRegister, if_pos hmem]
    refine .of_alike (.refl w) hs (Table.change_id ?_)
    simp [RegistryMsg.effect, RegistryMsg.service, registered_eq he]
  · have hnone : w.services[service]? = none := Std.ExtTreeMap.getElem?_eq_none hmem
    have hne : ∀ (svc : Bytes) (e : VersionedEntry), w.services[svc]? = some e → e.proxy ≠ w.nextAddress :=
      fun _ _ he => hs.proxy_ne he le_rfl
    rw [onRegister, if_neg hmem]
    refine ⟨⟨?_, ?_, ?_⟩, registered_apply ?_ ?_, rfl, Nat.le_succ _⟩
    · intro a ha
      have hlt : w.next + 1 ≤ a.id := ha
      have hna : a ≠ w.nextAddress := by
        rintro rfl
        exact absurd hlt (by simp [nextAddress])
      exact (update_of_ne hna _ _).trans (hs.fresh a (by omega))
    · intro svc e he
      simp only [lookup_insert] at he
      split at he
      · obtain rfl : _ = e := by simpa using he
        exact ⟨_, update_self _ _ _, rfl⟩
      · obtain ⟨cell, hc, ho⟩ := hs.owned svc e he
        exact ⟨cell, (update_of_ne (hne svc e he) _ _).trans hc, ho⟩
    · intro svc svc' e e' he he' hproxy
      simp only [lookup_insert] at he he'
      split at he
      · rename_i hsvc
        split at he'
        · rename_i hsvc'
          exact hsvc.symm.trans hsvc'
        · obtain rfl : _ = e := by simpa using he
          exact absurd hproxy.symm (hne svc' e' he')
      · split at he'
        · obtain rfl : _ = e' := by simpa using he'
          exact absurd hproxy (hne svc e he)
        · exact hs.distinct svc svc' e e' he he' hproxy
    · simp only [RegistryMsg.service, RegistryMsg.effect, registered_none hnone, Option.none_or]
      rw [registered_eq (e := { proxy := w.nextAddress, impl, plugin }) (by simp),
        standing_eq (update_self _ _ _)]
      rfl
    · intro svc hsvc
      have hsvc' : ¬ service = svc := fun h => hsvc h.symm
      cases he : w.services[svc]? with
      | none => rw [registered_none he, registered_none (by simp [lookup_insert, hsvc', he])]
      | some e =>
        obtain ⟨cell, hc, -⟩ := hs.owned svc e he
        rw [registered_eq he, registered_eq (e := e) (by simp [lookup_insert, hsvc', he]), standing_eq hc,
          standing_eq ((update_of_ne (hne svc e he) _ _).trans hc)]

lemma applied_hotReload (origin service : Bytes) (newImpl : Address) :
    Applied w (.hotReload service newImpl) (w.onHotReload origin service newImpl) := by
  cases he : w.services[service]? with
  | none =>
    rw [onHotReload, he]
    refine .of_alike (.refl w) hs (Table.change_id ?_)
    simp [RegistryMsg.effect, RegistryMsg.service, registered_none he]
  | some e =>
    rw [onHotReload, he]
    let v : World μ :=
      { w with services := w.services.insert service { e with version := e.version + 1, impl := newImpl } }
    -- the entry of every service keeps its proxy and its plugin
    have hentry : ∀ (svc : Bytes) (e' : VersionedEntry), v.services[svc]? = some e' →
        ∃ e'', w.services[svc]? = some e'' ∧ e'.proxy = e''.proxy ∧ e'.plugin = e''.plugin := by
      intro svc e' h
      rw [lookup_insert] at h
      split at h
      · rename_i hsvc
        obtain rfl : _ = e' := by simpa using h
        exact ⟨e, hsvc ▸ he, rfl, rfl⟩
      · exact ⟨e', h, rfl, rfl⟩
    have hv : Sane v := by
      refine ⟨hs.fresh, ?_, ?_⟩
      · intro svc e' h
        obtain ⟨e'', he'', hproxy, hplug⟩ := hentry svc e' h
        rw [hproxy, hplug]
        exact hs.owned svc e'' he''
      · intro svc svc' e₁ e₂ h₁ h₂ hproxy
        obtain ⟨e₁', he₁, hp₁, -⟩ := hentry svc e₁ h₁
        obtain ⟨e₂', he₂, hp₂, -⟩ := hentry svc' e₂ h₂
        exact hs.distinct svc svc' e₁' e₂' he₁ he₂ (hp₁.symm.trans (hproxy.trans hp₂))
    have halike : Alike v (v.touch .retarget origin e.plugin) := .of_eq rfl rfl le_rfl rfl
    refine ⟨halike.sane hv, (halike.registered hv).trans (registered_apply ?_ ?_), rfl, le_rfl⟩
    · obtain ⟨cell, hc, -⟩ := hs.owned service e he
      simp only [RegistryMsg.service, RegistryMsg.effect, registered_eq he, standing_eq hc]
      let e' : VersionedEntry := { e with version := e.version + 1, impl := newImpl }
      have hmoved : v.standing e' = { settled e.plugin e.impl cell with impl := newImpl } :=
        (standing_eq (e := e') hc).trans
          (Standing.afterAll_moved newImpl cell.mail (.now e.plugin e.impl cell.state cell.log))
      rw [registered_eq (e := e') (by simp [v, e']), hmoved]
      rfl
    · intro svc hsvc
      have hsvc' : ¬ service = svc := fun h => hsvc h.symm
      simp only [registered, v, lookup_insert, hsvc', if_false]
      rfl

lemma applied_unregister (origin service : Bytes) :
    Applied w (.unregister service) (w.onUnregister origin service) := by
  cases he : w.services[service]? with
  | none =>
    rw [onUnregister, he]
    exact .of_alike (.refl w) hs (Table.change_id (registered_none he).symm)
  | some e =>
    obtain ⟨cell, hc, -⟩ := hs.owned service e he
    have halike : Alike { w with services := w.services.erase service } (w.onUnregister origin service) := by
      have hproxy : ({ w with services := w.services.erase service }.touch .unregister origin
          e.plugin).proxies e.proxy = some cell := hc
      simp only [onUnregister, he, hproxy]
      have htouch : Alike { w with services := w.services.erase service }
          ({ w with services := w.services.erase service }.touch .unregister origin e.plugin) :=
        .of_eq rfl rfl le_rfl rfl
      refine htouch.trans ?_
      exact Alike.setProxy hproxy rfl fun _ _ => rfl
    have hentry : ∀ (svc : Bytes) (e' : VersionedEntry), (w.services.erase service)[svc]? = some e' →
        w.services[svc]? = some e' := by
      intro svc e' h
      rw [lookup_erase] at h
      split at h
      · exact absurd h (by simp)
      · exact h
    have hsane : Sane { w with services := w.services.erase service } :=
      ⟨hs.fresh, fun svc e' h => hs.owned svc e' (hentry svc e' h),
        fun svc svc' e₁ e₂ h₁ h₂ => hs.distinct svc svc' e₁ e₂ (hentry _ _ h₁) (hentry _ _ h₂)⟩
    refine ⟨halike.sane hsane, (halike.registered hsane).trans (registered_apply ?_ ?_), halike.mail, halike.next⟩
    · simp [registered, RegistryMsg.service, RegistryMsg.effect]
    · intro svc hsvc
      have hsvc' : ¬ service = svc := fun h => hsvc h.symm
      simp only [registered, lookup_erase, hsvc', if_false]
      rfl

lemma applied_setServiceAcl (origin service : Bytes) (allowed : List (Option Address)) :
    Applied w (.setServiceAcl service allowed) (w.onSetServiceAcl origin service allowed) := by
  cases he : w.services[service]? with
  | none =>
    rw [onSetServiceAcl, he]
    refine .of_alike (.refl w) hs (Table.change_id ?_)
    simp [RegistryMsg.effect, RegistryMsg.service, registered_none he]
  | some e =>
    have hsteady : Steady w (w.toProxy e.proxy { origin := some origin, msg := .setAcl allowed }) := .toProxy _ _
    rw [onSetServiceAcl, he]
    exact ⟨hsteady.sane hs, registered_toProxy hs he _, hsteady.mail, hsteady.next⟩

lemma applied_registryHandles (origin : Bytes) (msg : RegistryMsg) :
    Applied w msg (w.registryHandles origin msg) := by
  cases msg with
  | register service impl plugin => exact applied_register hs service impl plugin
  | hotReload service newImpl => exact applied_hotReload hs origin service newImpl
  | unregister service => exact applied_unregister hs origin service
  | setServiceAcl service allowed => exact applied_setServiceAcl hs origin service allowed
  | resolve request service =>
    have halike : Alike w (w.registryHandles origin (.resolve request service)) := .of_eq rfl rfl le_rfl rfl
    exact .of_alike halike hs (Table.resolve_apply request)

/-- A background event delivers a message to the registry, or it changes nothing for the table. -/
lemma background_table (h : w.background b = some w') :
    (∃ origin msg rest, w.registryMail = (origin, msg) :: rest ∧
      w' = { w with registryMail := rest }.registryHandles origin msg ∧ Applied { w with registryMail := rest } msg w')
      ∨ Alike w w' := by
  cases background_moves h with
  | @registry origin msg rest hm =>
    have hrest : Sane { w with registryMail := rest } := ⟨hs.fresh, hs.owned, hs.distinct⟩
    exact .inl ⟨origin, msg, rest, hm, rfl, applied_registryHandles hrest origin msg⟩
  | proxy hp ha hm => exact .inr (alike_proxyHandles hp hm)
  | actor hc ha hm => exact .inr alike_actorHandles
  | call hp ha | notify hp hn => exact .inr (.post hp fun _ => rfl)
  | proxyExit hp ha hd => exact .inr (.setProxy hp rfl fun _ _ => rfl)
  | actorExit hc ha hd | die hc ha => exact .inr (.of_eq rfl rfl le_rfl rfl)

/-- **The background only delivers**: the world stays in order and the settled table is what it was. -/
theorem settle_background (h : w.background b = some w') :
    Sane w' ∧ w'.settle = w.settle := by
  rcases background_table hs h with ⟨origin, msg, rest, hm, -, happ⟩ | halike
  · refine ⟨happ.sane, ?_⟩
    unfold settle
    rw [happ.registered, happ.mail, hm]
    rfl
  · exact ⟨halike.sane hs, halike.settle hs⟩

end

lemma settle_toRegistry (w : World μ) (origin : Bytes) (msg : RegistryMsg) :
    (w.toRegistry origin msg).settle = w.settle.apply msg := by
  show w.registered.applyAll (w.registryMail ++ [(origin, msg)]) = w.settle.apply msg
  rw [Table.applyAll, List.foldl_append]
  rfl

/-- When everything is delivered, the table is what the registry and the proxies have. -/
lemma settle_delivered (hmail : w.registryMail = [])
    (he : w.services[service]? = some e) (hc : w.proxies e.proxy = some cell) (hm : cell.mail = []) :
    w.settle service = some (.now e.plugin e.impl cell.state cell.log) := by
  have hstanding : w.standing e = .now e.plugin e.impl cell.state cell.log := by
    rw [standing_eq hc, settled, hm]
    rfl
  simp [settle, hmail, Table.applyAll, registered_eq he, hstanding]

end World

end Caf.Plugin
