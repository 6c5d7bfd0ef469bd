import CafPluginSystem.Plugin.Ledger

/-!
# What the parts of the handlers come to

The loops of the manager's handlers by the sequential account of `Plugin.Ledger`: which programs leave the table of
services alone, and what the loops that send to the registry and to proxies make of it.

* `Quiet` — programs that only ask, start actors and send to them.
* `Found`, `Collected` — what a resolved service and a resolved list of names tell.
* `Table.mapOn` — the table with another entry for each service of a list; `ends_tellAll` — the loops that send to
  the registry.
* `Stopped`, `ends_quiesceAll`, `ends_resumeAll` — the loops that pause proxies and resume them.
-/

namespace Caf.Plugin

open EntityStore Service Interaction List Function

variable {plugin : Bytes} {allowed : List (Option Address)} {actor proxy : Address}
  {msg : RegistryMsg} {f : Bytes → List RegistryMsg}

/-! ## Programs that leave the table alone -/

/-- Nothing that is known of proxies is forgotten. -/
structure Grown (L L' : Ledger) : Prop where
  owner : ∀ p plugin, L.owner p = some plugin → L'.owner p = some plugin
  home : ∀ p service, L.home p = some service → L'.home p = some service
  held : ∀ p, L.held p = true → L'.held p = true
  next : L.next ≤ L'.next

lemma Grown.refl (L : Ledger) : Grown L L := ⟨fun _ _ h => h, fun _ _ h => h, fun _ h => h, le_rfl⟩

lemma Grown.trans {L₁ L₂ L₃} (h₁ : Grown L₁ L₂) (h₂ : Grown L₂ L₃) : Grown L₁ L₃ :=
  ⟨fun p plugin h => h₂.owner p plugin (h₁.owner p plugin h), fun p s h => h₂.home p s (h₁.home p s h),
    fun p h => h₂.held p (h₁.held p h), h₁.next.trans h₂.next⟩

/-- And the table is as it was. -/
structure Kept (L L' : Ledger) : Prop extends Grown L L' where
  table : L'.table = L.table

namespace Kept

lemma refl (L : Ledger) : Kept L L := ⟨.refl L, rfl⟩

lemma trans {L₁ L₂ L₃} (h₁ : Kept L₁ L₂) (h₂ : Kept L₂ L₃) : Kept L₁ L₃ :=
  ⟨h₁.toGrown.trans h₂.toGrown, h₂.table.trans h₁.table⟩

lemma ask (L : Ledger) (request : ℕ) (q : Question) : Kept L (L.ask request q) :=
  ⟨⟨fun _ _ h => h, fun _ _ h => h, fun _ h => h, le_rfl⟩, rfl⟩

variable {L : Ledger}

lemma spawn (h : L.next ≤ actor.id) : Kept L (L.spawn actor) :=
  ⟨⟨fun _ _ h => h, fun _ _ h => h, fun _ h => h, h.trans (Nat.le_succ _)⟩, rfl⟩

lemma hold (L : Ledger) (proxy : Address) : Kept L (L.hold proxy) := by
  refine ⟨⟨fun _ _ h => h, fun _ _ h => h, fun p h => ?_, le_rfl⟩, rfl⟩
  by_cases hp : p = proxy
  · subst hp
    exact update_self _ _ _
  · exact (update_of_ne hp _ _).trans h

lemma learn {service} (howner : ∀ o, L.owner proxy = some o → o = plugin)
    (hhome : ∀ s, L.home proxy = some s → s = service) : Kept L (L.learn proxy service plugin) := by
  refine ⟨⟨fun p o ho => ?_, fun p s hs => ?_, fun _ h => h, le_rfl⟩, rfl⟩
  · by_cases hp : p = proxy
    · subst hp
      rw [howner o ho]
      exact update_self _ _ _
    · exact (update_of_ne hp _ _).trans ho
  · by_cases hp : p = proxy
    · subst hp
      rw [hhome s hs]
      exact update_self _ _ _
    · exact (update_of_ne hp _ _).trans hs

lemma replied {L' request reply} (h : L.replied request reply L') : Kept L L' := by
  cases reply with
  | none => exact (show L = L' from h) ▸ refl L
  | some a =>
    simp only [Ledger.replied] at h
    split at h
    · exact h ▸ refl L
    · obtain ⟨howner, hhome, rfl⟩ := h
      exact learn howner hhome
    · exact h.2 ▸ hold L _
    · exact h ▸ refl L
    · exact h ▸ refl L
    · exact h.elim

end Kept

/-- The operations that neither change the registry nor touch a proxy. -/
def Op.plain : Op → Bool
  | .tellRegistry _ _ => false
  | .quiesce _ _ => false
  | .resume _ _ _ => false
  | _ => true

variable {α β : Type} {strict : Prop} {ok : (e : Op) → e.Reply → Prop} {L L' : Ledger}

lemma Op.plain.may {e} (h : e.plain = true) : L.may strict e := by
  cases e with
  | tellRegistry origin msg | quiesce origin proxy | resume origin proxy target =>
    simp [Op.plain] at h
  | _ => trivial

lemma Op.plain.kept {e} (h : e.plain = true) {r} (hdoes : L.does ok e r L') : Kept L L' := by
  cases e with
  | tellRegistry origin msg | quiesce origin proxy | resume origin proxy target =>
    simp [Op.plain] at h
  | resolve origin service | saveState actor => exact hdoes.2 ▸ .ask L r _
  | spawn entry deps => exact hdoes.2 ▸ .spawn hdoes.1
  | receive kind request => exact .replied hdoes.2
  | openLibrary path => exact hdoes.2 ▸ .refl L
  | create | destroy entry | restoreState name | monitor actor | tell actor msg =>
    exact (show L = L' from hdoes) ▸ .refl L

/-- The program only performs such operations. -/
def Quiet : Program α → Prop
  | .ret _ => True
  | .ask e k => e.plain = true ∧ ∀ r, Quiet (k r)

lemma Quiet.bind {p : Program α} {f : α → Program β} (hp : Quiet p) (hf : ∀ a, Quiet (f a)) :
    Quiet (p.bind f) := by
  induction p with
  | ret a => exact hf a
  | ask e k ih => exact ⟨hp.1, fun r => ih r (hp.2 r)⟩

lemma Quiet.ends {p : Program α} (hp : Quiet p) : Ends (account strict ok) p (fun _ L' => Kept L L') L := by
  induction p generalizing L with
  | ret a => exact .refl L
  | ask e k ih =>
    exact ⟨Op.plain.may hp.1, fun r L₁ hdoes => (ih r (hp.2 r)).mono fun _ _ h => (Op.plain.kept hp.1 hdoes).trans h⟩

namespace PluginManager

lemma quiet_resolveService (origin service : Bytes) : Quiet (resolveService origin service) := by
  refine ⟨rfl, fun request => ⟨rfl, fun answer => ?_⟩⟩
  rcases answer with - | - | - | - <;> trivial

lemma quiet_saveState (actor : Address) : Quiet (saveState actor) := by
  refine ⟨rfl, fun request => ⟨rfl, fun answer => ?_⟩⟩
  rcases answer with - | - | - | - <;> trivial

lemma quiet_resolveDeps (origin : Bytes) (deps : List Bytes) : Quiet (resolveDeps origin deps) := by
  induction deps with
  | nil => trivial
  | cons dep rest ih =>
    refine (quiet_resolveService origin dep).bind fun found => ?_
    cases found with
    | none => trivial
    | some actor =>
      refine ih.bind fun others => ?_
      cases others <;> trivial

lemma quiet_tellGone (services : List Bytes) (actors : List Address) : Quiet (tellGone services actors) := by
  induction actors with
  | nil => trivial
  | cons actor rest ih => exact ⟨rfl, fun _ => ih⟩

/-- A new actor: its address is taken from then on. -/
lemma ends_startActor (entry : ℕ) (deps : List Address) (state : Bytes) :
    Ends (account strict ok) (startActor entry deps state) (fun actor L' => Kept L L' ∧ actor.id < L'.next) L := by
  refine ⟨trivial, ?_⟩
  rintro actor _ ⟨hnew, rfl⟩
  have hstart : Kept L (L.spawn actor) ∧ actor.id < (L.spawn actor).next := ⟨.spawn hnew, Nat.lt_succ_self _⟩
  -- what follows are messages to the actor, which the ledger does not have
  cases state with
  | nil =>
    refine ⟨trivial, ?_⟩
    rintro _ _ rfl
    refine ⟨trivial, ?_⟩
    rintro _ _ rfl
    exact hstart
  | cons b bs =>
    refine ⟨trivial, ?_⟩
    rintro _ _ rfl
    refine ⟨trivial, ?_⟩
    rintro _ _ rfl
    refine ⟨trivial, ?_⟩
    rintro _ _ rfl
    exact hstart

/-! ## Questions to the registry -/

/-- What a resolved service tells: its proxy is owned by the plugin in the table, and without one the service is not
registered, or the request failed. -/
structure Found (ok : (e : Op) → e.Reply → Prop) (L : Ledger) (service : Bytes) (found : Option Address)
    (L' : Ledger) : Prop where
  kept : Kept L L'
  owner : ∀ proxy, found = some proxy →
    ∃ st, L.table service = some st ∧ L'.owner proxy = some st.plugin ∧ L'.home proxy = some service
  missing : found = none → L.table service = none ∨ ∃ request, ok (.receive .resolve request) none

lemma ends_resolveService (origin service : Bytes) :
    Ends (account strict ok) (resolveService origin service) (Found ok L service) L := by
  refine ⟨trivial, ?_⟩
  rintro request _ ⟨-, rfl⟩
  refine ⟨trivial, ?_⟩
  rintro reply L' ⟨hok, hreplied⟩
  have hkept : Kept L L' := (Kept.ask L request _).trans (.replied hreplied)
  have hasked : (L.ask request (.service service ((L.table service).map Standing.plugin))).asked request
      = some (.service service ((L.table service).map Standing.plugin)) := update_self _ _ _
  cases reply with
  | none => exact ⟨hkept, fun _ h => by simp at h, fun _ => .inr ⟨request, hok⟩⟩
  | some answer =>
    simp only [Ledger.replied, hasked] at hreplied
    cases hst : L.table service with
    | none =>
      rw [hst] at hreplied
      rcases answer with (_ | proxy) | _ | _
      · exact ⟨hkept, fun _ h => by simp at h, fun _ => .inl hst⟩
      · exact hreplied.elim
      · exact hreplied.elim
      · exact hreplied.elim
    | some st =>
      rw [hst] at hreplied
      rcases answer with (_ | proxy) | _ | _
      · exact hreplied.elim
      · obtain ⟨-, -, rfl⟩ := hreplied
        refine ⟨hkept, fun p hp => ?_, fun h => by simp at h⟩
        obtain rfl : proxy = p := by simpa using hp
        exact ⟨st, hst, update_self _ _ _, update_self _ _ _⟩
      · exact hreplied.elim
      · exact hreplied.elim

/-- What a resolved list of names tells: it has the actors of the loaded plugins among them, and someone if one of
them is a registered service and no request fails. -/
structure Collected (ok : (e : Op) → e.Reply → Prop) (m : PluginManager) (t : Table) (names : List Bytes)
    (allowed : List (Option Address)) : Prop where
  plugins : ∀ pname ∈ names, ∀ p, m.plugins[pname]? = some p → some p.actor ∈ allowed
  services : (∀ request, ¬ ok (.receive .resolve request) none) → ∀ pname ∈ names, t pname ≠ none → allowed ≠ []

variable {m : PluginManager}

/-- One more name, with its actor. -/
lemma Collected.cons {t pname names} (h : Collected ok m t names allowed)
    (hp : ∀ p, m.plugins[pname]? = some p → p.actor = actor) :
    Collected ok m t (pname :: names) (some actor :: allowed) := by
  refine ⟨?_, fun _ _ _ _ => by simp⟩
  rintro x (_ | ⟨_, hx⟩) p hxp
  · rw [hp p hxp]
    exact mem_cons_self
  · exact mem_cons_of_mem _ (h.plugins x hx p hxp)

lemma ends_collectAllowed (origin : Bytes) (names : List Bytes) : ∀ L : Ledger,
    Ends (account strict ok) (m.collectAllowed origin names)
      (fun allowed L' => Kept L L' ∧ Collected ok m L.table names allowed) L := by
  induction names with
  | nil =>
    intro L
    exact ⟨.refl L, fun _ h => absurd h (by simp), fun _ _ h => absurd h (by simp)⟩
  | cons pname rest ih =>
    intro L
    unfold collectAllowed
    cases hp : m.plugins[pname]? with
    | some p =>
      refine (ih L).bind fun allowed L' h => ⟨h.1, h.2.cons fun q hq => ?_⟩
      rw [show p = q by simpa [hp] using hq]
    | none =>
      have hnot : ∀ q, m.plugins[pname]? = some q → False := fun q hq => by simp [hp] at hq
      refine (ends_resolveService origin pname).bind fun found L₁ hfound => ?_
      cases found with
      | some actor =>
        refine (ih L₁).bind fun allowed L' h => ⟨hfound.kept.trans h.1, ?_⟩
        exact (hfound.kept.table ▸ h.2).cons fun q hq => (hnot q hq).elim
      | none =>
        refine (ih L₁).mono fun allowed L' h => ⟨hfound.kept.trans h.1, ?_⟩
        have hrest := hfound.kept.table ▸ h.2
        refine ⟨?_, ?_⟩
        · rintro x (_ | ⟨_, hx⟩) q hq
          · exact (hnot q hq).elim
          · exact hrest.plugins x hx q hq
        · rintro hanswered x (_ | ⟨_, hx⟩) hreg
          · rcases hfound.missing rfl with hnone | ⟨request, hfail⟩
            · exact absurd hnone hreg
            · exact absurd hfail (hanswered request)
          · exact hrest.services hanswered x hx hreg

end PluginManager

/-! ## Another entry for each service of a list -/

namespace Table

variable {t : Table} {service : Bytes} {services : List Bytes} {g : Bytes → Option Standing → Option Standing}

def mapOn (t : Table) (services : List Bytes) (g : Bytes → Option Standing → Option Standing) : Table := fun service =>
  if service ∈ services then g service (t service) else t service

lemma mapOn_mem (h : service ∈ services) : t.mapOn services g service = g service (t service) := if_pos h

lemma mapOn_not_mem (h : service ∉ services) : t.mapOn services g service = t service := if_neg h

@[simp] lemma mapOn_nil : t.mapOn [] g = t := by
  funext service
  exact mapOn_not_mem (by simp)

/-- One service after the other. -/
lemma mapOn_cons (hg : ∀ x, g service (g service x) = g service x) :
    (t.change service (g service)).mapOn services g = t.mapOn (service :: services) g := by
  funext svc
  by_cases hsvc : svc = service
  · subst hsvc
    by_cases hmem : svc ∈ services
    · rw [mapOn_mem hmem, mapOn_mem mem_cons_self, change_same, hg]
    · rw [mapOn_not_mem hmem, mapOn_mem mem_cons_self, change_same]
  · by_cases hmem : svc ∈ services
    · rw [mapOn_mem hmem, mapOn_mem (mem_cons_of_mem _ hmem), change_other hsvc]
    · rw [mapOn_not_mem hmem, mapOn_not_mem (by simp [hsvc, hmem]), change_other hsvc]

/-- The messages about one service. -/
lemma foldl_apply {msgs : List RegistryMsg} (h : ∀ msg ∈ msgs, msg.service = service) : ∀ t : Table,
    msgs.foldl apply t = t.change service fun x => msgs.foldl (fun x msg => msg.effect x) x := by
  induction msgs with
  | nil => exact fun t => (change_id rfl).symm
  | cons msg rest ih =>
    intro t
    obtain rfl := h msg mem_cons_self
    rw [foldl_cons, ih (fun msg' hmem => h msg' (mem_cons_of_mem _ hmem)), apply]
    simp [change, update_idem]

/-- What a list of messages makes of a service. -/
def effectAll (f : Bytes → List RegistryMsg) (service : Bytes) (x : Option Standing) : Option Standing :=
  (f service).foldl (fun x msg => msg.effect x) x

/-- Messages about one service after the other. -/
lemma foldl_flatMap (hf : ∀ service, ∀ msg ∈ f service, msg.service = service)
    (hg : ∀ service x, effectAll f service (effectAll f service x) = effectAll f service x) (services : List Bytes) :
    ∀ t : Table, (services.flatMap f).foldl apply t = t.mapOn services (effectAll f) := by
  induction services with
  | nil => exact fun t => mapOn_nil.symm
  | cons service rest ih =>
    intro t
    rw [flatMap_cons, foldl_append, foldl_apply (hf service), ih]
    exact mapOn_cons (hg service)

end Table

/-! ## Loops that send to the registry -/

/-- The services among these that are registered are registered for this plugin. -/
def Own (t : Table) (plugin : Bytes) (services : List Bytes) : Prop :=
  ∀ service ∈ services, ∀ st, t service = some st → st.plugin = plugin

variable {t : Table} {services services' : List Bytes}

lemma Own.mono (h : Own t plugin services)
    (hsub : ∀ service ∈ services', service ∈ services) : Own t plugin services' :=
  fun service hs => h service (hsub service hs)

/-- Who a service is registered for after a message. -/
lemma Table.apply_some {service st} (h : t.apply msg service = some st) :
    (∃ st', t service = some st' ∧ st'.plugin = st.plugin) ∨ ∃ impl, msg = .register service impl st.plugin := by
  by_cases hsvc : service = msg.service
  · subst hsvc
    rw [apply, change_same] at h
    cases msg with
    | register s impl plugin =>
      rcases Option.or_eq_some_iff.mp h with hold | ⟨-, hnew⟩
      · exact .inl ⟨st, hold, rfl⟩
      · obtain rfl : _ = st := by simpa using hnew
        exact .inr ⟨impl, rfl⟩
    | hotReload s newImpl | setServiceAcl s allowed =>
      obtain ⟨st', hst', rfl⟩ := Option.map_eq_some_iff.mp h
      exact .inl ⟨st', hst', rfl⟩
    | unregister s => simp [RegistryMsg.effect] at h
    | resolve r s => exact .inl ⟨st, h, rfl⟩
  · rw [apply, change_other hsvc] at h
    exact .inl ⟨st, h, rfl⟩

/-- What is done to a service does not change who it is registered for. -/
lemma Own.change (h : Own t plugin services) {service}
    {f} (hf : ∀ st, (f st).plugin = st.plugin) :
    Own (t.change service (Option.map f)) plugin services := by
  intro svc hsvc st hst
  by_cases heq : svc = service
  · subst heq
    rw [Table.change_same] at hst
    obtain ⟨st', hst', rfl⟩ := Option.map_eq_some_iff.mp hst
    exact (hf st').trans (h svc hsvc st' hst')
  · rw [Table.change_other heq] at hst
    exact h svc hsvc st hst

/-- The same for a list of services, where new ones are registered for the plugin. -/
lemma Own.mapOn {g} (h : Own t plugin services)
    (hg : ∀ service x st, g service x = some st → st.plugin = plugin ∨ ∃ st', x = some st' ∧ st'.plugin = st.plugin) :
    Own (t.mapOn services' g) plugin services := by
  intro svc hsvc st hst
  by_cases hmem : svc ∈ services'
  · rw [Table.mapOn_mem hmem] at hst
    rcases hg svc _ st hst with hplug | ⟨st', hst', hplug⟩
    · exact hplug
    · exact hplug ▸ h svc hsvc st' hst'
  · rw [Table.mapOn_not_mem hmem] at hst
    exact h svc hsvc st hst

/-- No message on the account of a plugin registers a service for another one. -/
lemma Own.apply (h : Own t plugin services) (hmsg : ∀ service impl name, msg = .register service impl name → name = plugin) :
    Own (t.apply msg) plugin services := by
  intro service hs st hst
  rcases Table.apply_some hst with ⟨st', hst', hplug⟩ | ⟨impl, hreg⟩
  · exact hplug ▸ h service hs st' hst'
  · exact hmsg service impl st.plugin hreg

namespace PluginManager

/-- One message to the registry after the other. -/
def tellAll (origin : Bytes) : List RegistryMsg → Program Unit
  | [] => return ()
  | msg :: rest => do
      tellRegistry origin msg
      tellAll origin rest

/-- The messages that the loops send on the account of a plugin. -/
structure Sent (origin : Bytes) (n : ℕ) (msg : RegistryMsg) : Prop where
  tells : ∀ r service, msg ≠ .resolve r service
  named : ∀ a, msg.Names a → a.id < n
  registers : ∀ service impl name, msg = .register service impl name → name = origin

/-- What is known of proxies stays known, unless their services are unregistered. -/
lemma grown_tell (h : ∀ service, msg ≠ .unregister service) : Grown L (L.tell msg) :=
  ⟨fun _ _ hp => hp, fun p s hp => by simp [Ledger.tell, hp, h], fun _ hp => hp, le_rfl⟩

/-- **The loops that send to the registry.** -/
lemma ends_tellAll (origin : Bytes) (msgs : List RegistryMsg) : ∀ L : Ledger,
    (∀ msg ∈ msgs, Sent origin L.next msg) → (strict → Own L.table origin (msgs.map RegistryMsg.service)) →
    Ends (account strict ok) (tellAll origin msgs)
      (fun _ L' => L'.table = msgs.foldl Table.apply L.table ∧ L'.next = L.next ∧
        ((∀ msg ∈ msgs, ∀ service, msg ≠ .unregister service) → Grown L L')) L := by
  induction msgs with
  | nil => exact fun L _ _ => ⟨rfl, rfl, fun _ => .refl L⟩
  | cons msg rest ih =>
    intro L hsent hown
    have hmsg := hsent msg mem_cons_self
    have hsafe : strict → Safe L.table origin msg := by
      intro hst
      have hsvc := hown hst msg.service mem_cons_self
      cases msg with
      | register service impl plugin | resolve r service => trivial
      | _ => exact hsvc
    refine ⟨⟨hmsg.tells, hmsg.named, hsafe⟩, ?_⟩
    rintro _ _ rfl
    refine (ih (L.tell msg) (fun msg' hmem => hsent msg' (mem_cons_of_mem _ hmem)) fun hst => ?_).mono ?_
    · exact ((hown hst).apply hmsg.registers).mono fun _ hs => mem_cons_of_mem _ hs
    · rintro _ L' ⟨htab, hnext, hgrown⟩
      refine ⟨htab, hnext, fun hkeep => ?_⟩
      exact (grown_tell (hkeep msg mem_cons_self)).trans
        (hgrown fun msg' hmem => hkeep msg' (mem_cons_of_mem _ hmem))

lemma registerAll_eq (origin : Bytes) (actor : Address) (services : List Bytes) :
    registerAll origin actor services
      = tellAll origin (services.flatMap fun service => [.register service actor origin]) := by
  induction services with
  | nil => rfl
  | cons service rest ih => simp [registerAll, tellAll, ih]

lemma setAclAll_eq (origin : Bytes) (allowed : List (Option Address)) (services : List Bytes) :
    setAclAll origin allowed services
      = tellAll origin (services.flatMap fun service => [.setServiceAcl service allowed]) := by
  induction services with
  | nil => rfl
  | cons service rest ih => simp [setAclAll, tellAll, ih]

lemma unregisterAll_eq (origin : Bytes) (services : List Bytes) :
    unregisterAll origin services = tellAll origin (services.flatMap fun service => [.unregister service]) := by
  induction services with
  | nil => rfl
  | cons service rest ih => simp [unregisterAll, tellAll, ih]

/-- What `switchServices` sends for a service. -/
def switching (origin : Bytes) (old : List Bytes) (newActor : Address) (allowed : List (Option Address))
    (service : Bytes) : List RegistryMsg :=
  if service ∈ old then [.hotReload service newActor]
  else if allowed.isEmpty then [.register service newActor origin]
  else [.register service newActor origin, .setServiceAcl service allowed]

lemma switchServices_eq (origin : Bytes) (old : List Bytes) (newActor : Address) (allowed : List (Option Address))
    (services : List Bytes) : switchServices origin old newActor allowed services
      = tellAll origin (services.flatMap (switching origin old newActor allowed)) := by
  induction services with
  | nil => rfl
  | cons service rest ih =>
    rw [switchServices, flatMap_cons, switching, ih]
    by_cases hold : service ∈ old
    · simp [hold, tellAll]
    · cases allowed with
      | nil | cons a allowed => simp [hold, tellAll]

end PluginManager

/-! ## The table after the loops -/

namespace Table

def registerAll (t : Table) (plugin : Bytes) (actor : Address) (services : List Bytes) : Table :=
  t.mapOn services fun _ x => x.or (some (.entered plugin actor))

def setAclAll (t : Table) (allowed : List (Option Address)) (services : List Bytes) : Table :=
  t.mapOn services fun _ => Option.map fun st => { st with acl := some allowed }

def unregisterAll (t : Table) (services : List Bytes) : Table := t.mapOn services fun _ _ => none

def pauseAll (t : Table) (services : List Bytes) : Table := t.mapOn services fun _ => Option.map .pause

def resumeAll (t : Table) (target : Address) (services : List Bytes) : Table :=
  t.mapOn services fun _ => Option.map (·.resume target)

/-- The old services get another implementation; the new ones are registered, and restricted if there is anyone to
allow. -/
def switchAll (t : Table) (plugin : Bytes) (old : List Bytes) (actor : Address) (allowed : List (Option Address))
    (services : List Bytes) : Table :=
  t.mapOn services fun service x =>
    if service ∈ old then x.map fun st => { st with impl := actor }
    else if allowed.isEmpty then x.or (some (.entered plugin actor))
    else (x.or (some (.entered plugin actor))).map fun st => { st with acl := some allowed }

/-- A load: the services are registered, and restricted if the manifest names anyone. -/
def loaded (t : Table) (plugin : Bytes) (manifest : Manifest) (actor : Address) (allowed : List (Option Address)) :
    Table :=
  if manifest.aclAllow.isEmpty then t.registerAll plugin actor manifest.provides
  else (t.registerAll plugin actor manifest.provides).setAclAll allowed manifest.provides

/-- A reload: the old services are paused, the services are switched, and the old ones resumed. -/
def reloaded (t : Table) (plugin : Bytes) (old services : List Bytes) (actor : Address)
    (allowed : List (Option Address)) : Table :=
  ((t.pauseAll old).switchAll plugin old actor allowed services).resumeAll actor old

lemma pauseAll_cons (t : Table) (service : Bytes) (services : List Bytes) :
    (t.change service (Option.map .pause)).pauseAll services = t.pauseAll (service :: services) :=
  mapOn_cons (g := fun _ => Option.map .pause) fun x => by cases x <;> rfl

lemma resumeAll_cons (t : Table) (target : Address) (service : Bytes) (services : List Bytes) :
    (t.change service (Option.map (·.resume target))).resumeAll target services
      = t.resumeAll target (service :: services) :=
  mapOn_cons (g := fun _ => Option.map (·.resume target)) fun x => by cases x <;> rfl

lemma pauseAll_ne_none {t : Table} {services : List Bytes} {service} :
    t.pauseAll services service ≠ none ↔ t service ≠ none := by
  by_cases h : service ∈ services
  · rw [pauseAll, mapOn_mem h]
    simp
  · rw [pauseAll, mapOn_not_mem h]

/-- Whether a service was paused does not matter once it is gone. -/
lemma unregisterAll_pauseAll {t : Table} {paused services} (hsub : ∀ service ∈ paused, service ∈ services) :
    (t.pauseAll paused).unregisterAll services = t.unregisterAll services := by
  funext service
  by_cases h : service ∈ services
  · rw [unregisterAll, unregisterAll, mapOn_mem h, mapOn_mem h]
  · rw [unregisterAll, unregisterAll, mapOn_not_mem h, mapOn_not_mem h, pauseAll, mapOn_not_mem (mt (hsub service) h)]

lemma or_or_same (x : Option Standing) (st : Standing) : (x.or (some st)).or (some st) = x.or (some st) := by
  cases x <;> rfl

end Table

lemma Own.registerAll (h : Own t plugin services) : Own (t.registerAll plugin actor services') plugin services := by
  refine h.mapOn fun service x st hst => ?_
  rcases Option.or_eq_some_iff.mp hst with hold | ⟨-, hnew⟩
  · exact .inr ⟨st, hold, rfl⟩
  · obtain rfl : _ = st := by simpa using hnew
    exact .inl rfl

lemma Own.pauseAll (h : Own t plugin services) :
    Own (t.pauseAll services') plugin services := by
  refine h.mapOn fun service x st hst => .inr ?_
  obtain ⟨st', hst', rfl⟩ := Option.map_eq_some_iff.mp hst
  exact ⟨st', hst', rfl⟩

namespace PluginManager

variable {origin : Bytes} {services : List Bytes}

/-- A list of services, with a list of messages about each. -/
lemma ends_flatMap (hf : ∀ service, ∀ msg ∈ f service, msg.service = service)
    (hg : ∀ service x, Table.effectAll f service (Table.effectAll f service x) = Table.effectAll f service x)
    (hsent : ∀ service, ∀ msg ∈ f service, Sent origin L.next msg) (hown : strict → Own L.table origin services) :
    Ends (account strict ok) (tellAll origin (services.flatMap f))
      (fun _ L' => L'.table = L.table.mapOn services (Table.effectAll f) ∧ L'.next = L.next ∧
        ((∀ service, ∀ msg ∈ f service, ∀ svc, msg ≠ .unregister svc) → Grown L L')) L := by
  have hmem : ∀ msg ∈ services.flatMap f, ∃ service ∈ services, msg ∈ f service := fun msg hmsg => by
    simpa using hmsg
  refine (ends_tellAll origin (services.flatMap f) L (fun msg hmsg => ?_) fun hst => ?_).mono ?_
  · obtain ⟨service, -, hmsg⟩ := hmem msg hmsg
    exact hsent service msg hmsg
  · refine (hown hst).mono fun svc hsvc => ?_
    obtain ⟨msg, hmsg, rfl⟩ := mem_map.mp hsvc
    obtain ⟨service, hs, hmsg⟩ := hmem msg hmsg
    rwa [hf service msg hmsg]
  · rintro _ L' ⟨htab, hnext, hgrown⟩
    refine ⟨htab.trans (Table.foldl_flatMap hf hg services L.table), hnext, fun hkeep => hgrown fun msg hmsg => ?_⟩
    obtain ⟨service, -, hmsg⟩ := hmem msg hmsg
    exact hkeep service msg hmsg

lemma ends_registerAll (hactor : actor.id < L.next) (hown : strict → Own L.table origin services) :
    Ends (account strict ok) (registerAll origin actor services)
      (fun _ L' => Grown L L' ∧ L'.table = L.table.registerAll origin actor services) L := by
  rw [registerAll_eq]
  refine (ends_flatMap (f := fun service => [.register service actor origin]) (by simp [RegistryMsg.service])
    (fun _ x => Table.or_or_same x _) ?_ hown).mono ?_
  · rintro service msg hmsg
    obtain rfl : msg = _ := by simpa using hmsg
    exact ⟨by simp, fun a ha => (show actor = a from ha) ▸ hactor, by simp⟩
  · rintro _ L' ⟨htab, -, hgrown⟩
    exact ⟨hgrown (by simp), htab⟩

lemma ends_setAclAll (hown : strict → Own L.table origin services) :
    Ends (account strict ok) (setAclAll origin allowed services)
      (fun _ L' => Grown L L' ∧ L'.table = L.table.setAclAll allowed services) L := by
  rw [setAclAll_eq]
  refine (ends_flatMap (f := fun service => [.setServiceAcl service allowed]) (by simp [RegistryMsg.service])
    (fun _ x => by cases x <;> rfl) ?_ hown).mono ?_
  · rintro service msg hmsg
    obtain rfl : msg = _ := by simpa using hmsg
    exact ⟨by simp, fun a ha => ha.elim, by simp⟩
  · rintro _ L' ⟨htab, -, hgrown⟩
    exact ⟨hgrown (by simp), htab⟩

lemma ends_unregisterAll (hown : strict → Own L.table origin services) :
    Ends (account strict ok) (unregisterAll origin services)
      (fun _ L' => L'.next = L.next ∧ L'.table = L.table.unregisterAll services) L := by
  rw [unregisterAll_eq]
  refine (ends_flatMap (f := fun service => [.unregister service]) (by simp [RegistryMsg.service]) (fun _ _ => rfl) ?_
    hown).mono ?_
  · rintro service msg hmsg
    obtain rfl : msg = _ := by simpa using hmsg
    exact ⟨by simp, fun a ha => ha.elim, by simp⟩
  · rintro _ L' ⟨htab, hnext, -⟩
    exact ⟨hnext, htab⟩

/-- The services are switched: the old ones get the new implementation, the new ones are registered and, if there is
anyone to allow, restricted. -/
lemma ends_switchServices {old newActor} (hactor : newActor.id < L.next) (hown : strict → Own L.table origin services) :
    Ends (account strict ok) (switchServices origin old newActor allowed services)
      (fun _ L' => Grown L L' ∧ L'.table = L.table.switchAll origin old newActor allowed services) L := by
  have hmsgs : ∀ {service} {msg}, msg ∈ switching origin old newActor allowed service →
      msg = .hotReload service newActor ∨ msg = .register service newActor origin ∨
        msg = .setServiceAcl service allowed := by
    intro service msg hmsg
    unfold switching at hmsg
    split at hmsg
    · exact .inl (by simpa using hmsg)
    · split at hmsg
      · exact .inr (.inl (by simpa using hmsg))
      · exact .inr (by simpa using hmsg)
  have heffect : Table.effectAll (switching origin old newActor allowed) = fun service x =>
      if service ∈ old then x.map fun st => { st with impl := newActor }
      else if allowed.isEmpty then x.or (some (.entered origin newActor))
      else (x.or (some (.entered origin newActor))).map fun st => { st with acl := some allowed } := by
    funext service x
    unfold Table.effectAll switching
    split
    · rfl
    · split <;> rfl
  rw [switchServices_eq]
  refine (ends_flatMap (f := switching origin old newActor allowed) ?_ ?_ ?_ hown).mono ?_
  · rintro service msg hmsg
    rcases hmsgs hmsg with rfl | rfl | rfl <;> rfl
  · intro service x
    rw [heffect]
    dsimp only
    split
    · cases x <;> rfl
    · split
      · exact Table.or_or_same x _
      · cases x <;> rfl
  · rintro service msg hmsg
    rcases hmsgs hmsg with rfl | rfl | rfl
    · exact ⟨by simp, fun a ha => ha.elim, by simp⟩
    · exact ⟨by simp, fun a ha => (show newActor = a from ha) ▸ hactor, by simp⟩
    · exact ⟨by simp, fun a ha => ha.elim, by simp⟩
  · rintro _ L' ⟨htab, -, hgrown⟩
    refine ⟨hgrown fun service msg hmsg => ?_, by rw [htab, heffect]; rfl⟩
    rcases hmsgs hmsg with rfl | rfl | rfl <;> simp

/-! ## Pausing and resuming -/

lemma signal_home {service} (h : L.home proxy = some service) (f : Standing → Standing) :
    L.signal proxy f = L.table.change service (Option.map f) := by
  rw [Ledger.signal, h]

/-- A proxy is asked to pause: it will, and when it has answered it is known to be paused. -/
lemma ends_quiesceProxy {service} (hhome : L.home proxy = some service)
    (howner : strict → L.owner proxy = some origin) :
    Ends (account strict ok) (quiesceProxy origin proxy)
      (fun paused L' => Grown L L' ∧ L'.table = L.table.change service (Option.map .pause) ∧
        (paused = true → L'.held proxy = true) ∧
        (paused = false → ∃ request, ok (.receive .quiesce request) none)) L := by
  refine ⟨⟨by simp [hhome], howner⟩, ?_⟩
  rintro request _ ⟨-, rfl⟩
  refine ⟨trivial, ?_⟩
  rintro reply L' ⟨hok, hreplied⟩
  have hasked : (L.quiesce request proxy).asked request = some (.pause proxy) := update_self _ _ _
  have hgrown : Grown L (L.quiesce request proxy) := ⟨fun _ _ h => h, fun _ _ h => h, fun _ h => h, le_rfl⟩
  have hkept : Kept (L.quiesce request proxy) L' := .replied hreplied
  have htab : L'.table = L.table.change service (Option.map .pause) :=
    hkept.table.trans (signal_home hhome .pause)
  cases reply with
  | none => exact ⟨hgrown.trans hkept.toGrown, htab, fun h => by simp at h, fun _ => ⟨request, hok⟩⟩
  | some answer =>
    simp only [Ledger.replied, hasked] at hreplied
    rcases answer with _ | b | _
    · exact hreplied.elim
    · obtain ⟨rfl, rfl⟩ := hreplied
      exact ⟨hgrown.trans hkept.toGrown, htab, fun _ => update_self _ _ _, fun h => by simp at h⟩
    · exact hreplied.elim

/-- The proxies that `quiesceAll` hands on, of both outcomes. -/
def quiesced : Except (Bytes × List Address) (List Address) → List Address
  | .ok proxies => proxies
  | .error (_, proxies) => proxies

/-- What the loop over the services has come to, with some proxies of other services paused before: it has paused
the proxies of `done`, and it will have paused those of `late`.  If it got through, these are all of them; if not, one
was not registered, or a request failed. -/
structure Stopped (ok : (e : Op) → e.Reply → Prop) (L : Ledger) (before services : List Bytes)
    (result : Except (Bytes × List Address) (List Address)) (done late : List Bytes) (L' : Ledger) : Prop where
  homes : List.Forall₂ (fun p service => L'.home p = some service) (quiesced result) (before ++ done)
  table : L'.table = L.table.pauseAll (done ++ late)
  within : ∀ service ∈ done ++ late, service ∈ services
  failed : late = [] ∨ ∃ request, ok (.receive .quiesce request) none
  all : ∀ proxies, result = .ok proxies → done = services ∧ late = [] ∧ (∀ p ∈ proxies, L'.held p = true) ∧
    ∀ service ∈ services, L.table service ≠ none

lemma ends_quiesceAll (origin : Bytes) (services : List Bytes) : ∀ (L : Ledger) (proxies : List Address)
    (before : List Bytes), (strict → Own L.table origin services) →
    List.Forall₂ (fun p service => L.home p = some service) proxies before → (∀ p ∈ proxies, L.held p = true) →
    (strict → ∀ p ∈ proxies, L.owner p = some origin) →
    Ends (account strict ok) (quiesceAll origin proxies services)
      (fun result L' => Grown L L' ∧ (strict → ∀ p ∈ quiesced result, L'.owner p = some origin) ∧
        ∃ done late, Stopped ok L before services result done late L') L := by
  induction services with
  | nil =>
    intro L proxies before _ hhomes hheld howner
    refine ⟨.refl L, howner, [], [], ?_, Table.mapOn_nil.symm, by simp, .inl rfl, ?_⟩
    · rw [append_nil]
      exact hhomes
    · rintro _ ⟨⟩
      exact ⟨rfl, rfl, hheld, by simp⟩
  | cons service rest ih =>
    intro L proxies before hown hhomes hheld howner
    refine (ends_resolveService origin service).bind fun found L₁ hfound => ?_
    cases found with
    | none =>
      refine ⟨hfound.kept.toGrown, fun hst p hp => hfound.kept.owner p origin (howner hst p hp), [], [], ?_,
        hfound.kept.table.trans Table.mapOn_nil.symm, by simp, .inl rfl, fun _ h => by simp at h⟩
      rw [append_nil]
      exact hhomes.imp fun p s h => hfound.kept.home p s h
    | some proxy =>
      obtain ⟨st, hst, hlearnt, hhome⟩ := hfound.owner proxy rfl
      have hproxy : strict → L₁.owner proxy = some origin := fun hs => by
        rw [hlearnt, hown hs service mem_cons_self st hst]
      refine (ends_quiesceProxy hhome hproxy).bind fun paused L₂ hpaused => ?_
      obtain ⟨hgrown, htab, htrue, hfalse⟩ := hpaused
      rw [hfound.kept.table] at htab
      have hgrown₂ : Grown L L₂ := hfound.kept.toGrown.trans hgrown
      have howner₂ : strict → ∀ p ∈ proxies, L₂.owner p = some origin :=
        fun hs p hp => hgrown₂.owner p origin (howner hs p hp)
      have hhomes₂ : List.Forall₂ (fun p s => L₂.home p = some s) proxies before :=
        hhomes.imp fun p s h => hgrown₂.home p s h
      cases paused with
      | false =>
        refine ⟨hgrown₂, howner₂, [], [service], ?_, ?_, by simp, .inr (hfalse rfl), fun _ h => by simp at h⟩
        · rw [append_nil]
          exact hhomes₂
        · rw [htab]
          exact Table.mapOn_nil.symm.trans (L.table.pauseAll_cons service [])
      | true =>
        refine (ih L₂ (proxies ++ [proxy]) (before ++ [service]) ?_ ?_ ?_ ?_).mono ?_
        · intro hs
          rw [htab]
          exact ((hown hs).mono fun _ h => mem_cons_of_mem _ h).change fun _ => rfl
        · exact rel_append hhomes₂ (.cons (hgrown.home proxy service hhome) .nil)
        · intro p hp
          rcases mem_append.mp hp with hp | hp
          · exact hgrown₂.held p (hheld p hp)
          · rw [mem_singleton.mp hp]
            exact htrue rfl
        · intro hs p hp
          rcases mem_append.mp hp with hp | hp
          · exact howner₂ hs p hp
          · rw [mem_singleton.mp hp]
            exact hgrown.owner proxy origin (hproxy hs)
        · rintro result L' ⟨hgrown₃, howner₃, done, late, hstopped⟩
          refine ⟨hgrown₂.trans hgrown₃, howner₃, service :: done, late, by simpa using hstopped.homes, ?_, ?_,
            hstopped.failed, fun ps hps => ?_⟩
          · rw [hstopped.table, htab, Table.pauseAll_cons]
            rfl
          · intro s hs
            rcases mem_cons.mp hs with rfl | hs
            · exact mem_cons_self
            · exact mem_cons_of_mem _ (hstopped.within s hs)
          · obtain ⟨hdone, hlate, hheld', hreg⟩ := hstopped.all ps hps
            refine ⟨by rw [hdone], hlate, hheld', fun s hs => ?_⟩
            rcases mem_cons.mp hs with rfl | hs
            · simp [hst]
            · have hrest := hreg s hs
              rw [htab] at hrest
              by_cases hsvc : s = service
              · simp [hsvc, hst]
              · rwa [Table.change_other hsvc] at hrest

/-- The loop of `unload`: some of the services will have been paused. -/
lemma ends_quiesceEach (origin : Bytes) (services : List Bytes) : ∀ L : Ledger,
    (strict → Own L.table origin services) →
    Ends (account strict ok) (quiesceEach origin services)
      (fun _ L' => Grown L L' ∧ ∃ done, (∀ service ∈ done, service ∈ services) ∧ L'.table = L.table.pauseAll done) L := by
  induction services with
  | nil => exact fun L _ => ⟨.refl L, [], by simp, Table.mapOn_nil.symm⟩
  | cons service rest ih =>
    intro L hown
    have hrest : strict → Own L.table origin rest := fun hs => (hown hs).mono fun _ h => mem_cons_of_mem _ h
    refine (ends_resolveService origin service).bind fun found L₁ hfound => ?_
    cases found with
    | none =>
      refine (ih L₁ (hfound.kept.table ▸ hrest)).mono ?_
      rintro _ L' ⟨hgrown, done, hdone, htab⟩
      exact ⟨hfound.kept.toGrown.trans hgrown, done, fun s hs => mem_cons_of_mem _ (hdone s hs),
        hfound.kept.table ▸ htab⟩
    | some proxy =>
      obtain ⟨st, hst, hlearnt, hhome⟩ := hfound.owner proxy rfl
      have hproxy : strict → L₁.owner proxy = some origin := fun hs => by
        rw [hlearnt, hown hs service mem_cons_self st hst]
      refine (ends_quiesceProxy hhome hproxy).bind fun _ L₂ hpaused => ?_
      obtain ⟨hgrown, htab, -, -⟩ := hpaused
      rw [hfound.kept.table] at htab
      refine (ih L₂ fun hs => ?_).mono ?_
      · rw [htab]
        exact (hrest hs).change fun _ => rfl
      · rintro _ L' ⟨hgrown₃, done, hdone, htab₃⟩
        refine ⟨(hfound.kept.toGrown.trans hgrown).trans hgrown₃, service :: done, fun s hs => ?_, ?_⟩
        · rcases mem_cons.mp hs with rfl | hs
          · exact mem_cons_self
          · exact mem_cons_of_mem _ (hdone s hs)
        · rw [htab₃, htab, Table.pauseAll_cons]

/-- The loops that resume proxies. -/
lemma ends_resumeAll (origin : Bytes) (target : Address) (proxies : List Address) : ∀ (L : Ledger) (services : List Bytes),
    target.id < L.next → List.Forall₂ (fun p service => L.home p = some service) proxies services →
    (strict → ∀ p ∈ proxies, L.owner p = some origin) →
    Ends (account strict ok) (resumeAll origin target proxies)
      (fun _ L' => L'.next = L.next ∧ L'.table = L.table.resumeAll target services) L := by
  induction proxies with
  | nil =>
    rintro L _ _ ⟨⟩ _
    exact ⟨rfl, Table.mapOn_nil.symm⟩
  | cons proxy rest ih =>
    rintro L _ htgt ⟨⟩ howner
    rename_i service services hhome hhomes
    refine ⟨⟨by simp [hhome], htgt, fun hs => howner hs proxy mem_cons_self⟩, ?_⟩
    rintro _ _ rfl
    refine (ih (L.resume proxy target) services htgt hhomes
      fun hs p hp => howner hs p (mem_cons_of_mem _ hp)).mono ?_
    rintro _ L' ⟨hnext, htab⟩
    refine ⟨hnext, htab.trans ?_⟩
    show (L.signal proxy _).resumeAll target services = L.table.resumeAll target (service :: services)
    rw [signal_home hhome, Table.resumeAll_cons]

end PluginManager

end Caf.Plugin
