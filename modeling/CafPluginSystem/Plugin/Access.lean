import CafPluginSystem.Plugin.Ownership

/-!
# The allow lists of services

A plugin names in its manifest who may call its services (`acl_allow`).  A load turns the names into addresses and
sends the list for every service; a hot reload does so for the services it adds, unless nobody could be resolved, and
leaves the others as they are.  The addresses are those of the moment: when a plugin that is named is loaded later or
replaced, the lists do not follow.

* `restricted_services` — **closed services**: what a load closed stays closed, and so does what a hot reload added for
  someone.
* `trusted_plugins` — **trust**: a plugin that is named is trusted under the conditions that make its address last.
-/

namespace Caf.Plugin

open EntityStore Service Interaction Option StringMap

variable {μ : Type}
variable {acl : Option (List (Option Address))} {msg : ManagerMsg} {done : Outcome × PluginManager}
  {services old : List Bytes} {answered : Prop}

/-! ## Closed services -/

/-- The service is registered with an allow list. -/
def Table.Restricted (t : Table) (service : Bytes) : Prop := ∃ st, t service = some st ∧ st.acl.isSome

namespace Table

variable {t : Table} {plugin : Bytes} {allowed : List (Option Address)} {service : Bytes}
variable {actor : Address}

/-- A service that is entered again stays closed. -/
lemma Restricted.enter (h : t.Restricted service) :
    ∃ st, Table.enter plugin actor acl (t service) = some st ∧ st.acl.isSome := by
  obtain ⟨st, hst, hacl⟩ := h
  refine ⟨{ st with acl := acl.or st.acl }, by rw [hst]; rfl, ?_⟩
  cases acl with
  | none => exact hacl
  | some list => rfl

lemma Restricted.loaded (h : t.Restricted service) (manifest : Manifest) (actor : Address) :
    (t.loaded plugin manifest actor allowed).Restricted service := by
  unfold Table.Restricted
  rw [Table.loaded_eq]
  split
  · exact h.enter
  · exact h

lemma Restricted.reloaded (h : t.Restricted service) (hkeep : ∀ service ∈ old, service ∈ services) (actor : Address) :
    (t.reloaded plugin old services actor allowed).Restricted service := by
  unfold Table.Restricted
  rw [Table.reloaded_eq hkeep]
  split
  · obtain ⟨st, hst, hacl⟩ := h
    rw [hst]
    exact ⟨_, rfl, hacl⟩
  · split
    · exact h.enter
    · exact h

lemma Restricted.givenUp (h : t.Restricted service) {stopped late} :
    ((t.pauseAll (stopped ++ late)).resumeAll actor stopped).Restricted service := by
  obtain ⟨st, hst, hacl⟩ := h
  unfold Table.Restricted
  rw [Table.givenUp_eq, hst]
  split
  · exact ⟨_, rfl, hacl⟩
  · split
    · exact ⟨_, rfl, hacl⟩
    · exact ⟨st, rfl, hacl⟩

/-- A service that is entered with a list is closed. -/
lemma enter_closes (x : Option Standing) :
    ∃ st, Table.enter plugin actor (some allowed) x = some st ∧ st.acl.isSome := by
  cases x with
  | none | some st => exact ⟨_, rfl, rfl⟩

end Table

/-- A load whose manifest names someone closes all its services; a hot reload closes those it adds if its manifest
names a loaded plugin or, when the requests are answered, a registered service. -/
inductive Completed.Closes (answered : Prop) (c : Completed μ) (service : Bytes) : Prop where
  | load (name path : Bytes) (p : LoadedPlugin) (hmsg : c.msg = .load name path) (hdone : c.outcome = .ok true)
      (hp : c.after.plugins[name]? = some p) (hs : service ∈ p.manifest.provides) (hacl : p.manifest.aclAllow ≠ [])
  | reload (name path : Bytes) (old p : LoadedPlugin) (hmsg : c.msg = .reload name path) (hdone : c.outcome = .ok true)
      (hold : c.before.plugins[name]? = some old) (hp : c.after.plugins[name]? = some p)
      (hs : service ∈ p.manifest.provides) (hnew : service ∉ old.manifest.provides) (pname : Bytes)
      (hname : pname ∈ p.manifest.aclAllow)
      (hresolves : pname ∈ c.before.plugins ∨ answered ∧ c.since.settle pname ≠ none)

def ManagerMsg.grows : ManagerMsg → Bool
  | .load _ _ => true
  | .reload _ _ => true
  | _ => false

/-- A request to the registry fails. -/
def resolveFails : Op → World.Choice → Bool
  | .receive .resolve _, .fail => true
  | _, _ => false

/-- Loads and hot reloads only; and the requests to the registry are answered, if that is asked for. -/
def growing (answered : Prop) : System.Rules μ where
  takes _ msg := msg.grows = true
  agreed _ _ e _ c := resolveFails e c = true → ¬ answered

instance (answered : Prop) [Decidable answered] (s : System μ) (e : System.Event μ) :
    Decidable ((growing answered).Obeys s e) :=
  @System.Rules.Obeys.decidable μ (growing answered) (fun _ msg => inferInstanceAs (Decidable (msg.grows = true)))
    (fun _ _ => isTrue trivial)
    (fun _ _ e _ c => inferInstanceAs (Decidable (resolveFails e c = true → ¬ answered))) s e

/-- The replies that keep to it. -/
def Answered (answered : Prop) (_ : PluginManager) (_ : ManagerMsg) : (e : Op) → e.Reply → Prop
  | .receive .resolve _, none => ¬ answered
  | _, _ => True

lemma answered_of_agreed {m : PluginManager} {e : Op} {w w' : World μ}
    {c : World.Choice} {r : e.Reply} (h : (growing answered).agreed m msg e w c)
    (hp : w.perform e c = some (r, w')) : Answered answered m msg e r := by
  cases e with
  | receive kind request =>
    cases kind with
    | resolve =>
      cases c <;> simp only [World.perform, reduceCtorEq, some.injEq, Prod.mk.injEq,
        map_eq_some_iff] at hp
      · obtain ⟨a, -, rfl, -⟩ := hp
        trivial
      · obtain ⟨rfl, -⟩ := hp
        exact h rfl
    | quiesce | saveState => trivial
  | _ => trivial

/-- What was closed is closed, after a change too. -/
lemma closed_changes {m : PluginManager} {h : List (Completed μ)} {w : World μ} {t : Table}
    (hinv : ∀ c ∈ h, ∀ service, c.Closes answered service → w.settle.Restricted service)
    (htakes : (growing (μ := μ) answered).takes m msg)
    (hc : PluginManager.Changes (Answered answered m msg) m w.settle msg done t) :
    ∀ c ∈ h ++ [⟨msg, m, w, done.1, done.2⟩], ∀ service, c.Closes answered service → t.Restricted service := by
  have hlast : ∀ {P : Completed μ → Prop}, (∀ c ∈ h, P c) → P ⟨msg, m, w, done.1, done.2⟩ →
      ∀ c ∈ h ++ [⟨msg, m, w, done.1, done.2⟩], P c := by
    intro P hh hnew c hmem
    rcases List.mem_append.mp hmem with hmem | hmem
    · exact hh c hmem
    · rw [List.mem_singleton.mp hmem]
      exact hnew
  cases hc with
  | same hfail hp =>
    refine hlast hinv ?_
    rintro service (⟨name, path, -, hmsg, hdone, -⟩ | ⟨name, path, -, -, hmsg, hdone, -⟩)
    · exact absurd hdone (hfail _ _ (.inl hmsg))
    · exact absurd hdone (hfail _ _ (.inr hmsg))
  | @givenUp name path reason old done stopped late hold hfail hp hwithin hlate =>
    refine hlast (fun c hmem service hcloses => (hinv c hmem service hcloses).givenUp) ?_
    rintro service (⟨_, _, _, -, hdone, -⟩ | ⟨_, _, _, _, -, hdone, -⟩)
    · simp [hfail] at hdone
    · simp [hfail] at hdone
  | @loaded name path lib p allowed m' hlib hnew hman hp hcoll =>
    refine hlast (fun c hmem service hcloses => (hinv c hmem service hcloses).loaded _ _) ?_
    rintro service (⟨name', path', q, hmsg, -, hq, hs, hacl⟩ | ⟨name', path', -, -, hmsg, -⟩)
    · obtain ⟨rfl, -⟩ : name = name' ∧ path = path' := by simpa using hmsg
      obtain rfl : p = q := by simpa [hp, lookup_insert] using hq
      rw [hman] at hs hacl
      have hne : lib.manifest.aclAllow.isEmpty = false := by simpa using hacl
      show ∃ st, _
      rw [Table.loaded_eq, if_pos hs, hne]
      exact Table.enter_closes _
    · simp at hmsg
  | @reloaded name path old p lib allowed m' hold hlib hkeep hreg hman hp hcoll =>
    refine hlast (fun c hmem service hcloses => (hinv c hmem service hcloses).reloaded hkeep _) ?_
    rintro service (⟨name', path', -, hmsg, -⟩ |
      ⟨name', path', old', q, hmsg, -, hold', hq, hs, hnot, pname, hname, hresolves⟩)
    · simp at hmsg
    · obtain ⟨rfl, -⟩ : name = name' ∧ path = path' := by simpa using hmsg
      obtain rfl : old = old' := by simpa [hold] using hold'
      obtain rfl : p = q := by simpa [hp, lookup_insert] using hq
      rw [hman] at hs hname
      have hallowed : allowed ≠ [] := by
        rcases hresolves with hloaded | ⟨hanswered, hsettled⟩
        · obtain ⟨r, hr⟩ := isSome_iff_exists.mp (Std.ExtTreeMap.mem_iff_isSome_getElem?.mp hloaded)
          exact List.ne_nil_of_mem (hcoll.plugins _ hname r hr)
        · exact hcoll.services (fun _ hfail => hfail hanswered) _ hname hsettled
      have hne : allowed.isEmpty = false := by simpa using hallowed
      show ∃ st, _
      rw [Table.reloaded_eq hkeep, if_neg hnot, if_pos hs, hne]
      exact Table.enter_closes _
  | gone hmsg hold hp =>
    rcases hmsg with rfl | ⟨source, rfl⟩
    · exact absurd htakes (by simp [growing, ManagerMsg.grows])
    · exact absurd htakes (by simp [growing, ManagerMsg.grows])

/-- **Closed services.**  In every run of loads and hot reloads, once everything is delivered, the proxy of a registered
service that a load or a hot reload closed is restricted. -/
theorem restricted_services (answered : Prop) {core : List (Bytes × Address)} {cross : Bool}
    {es : List (System.Event μ)} {s : System μ}
    (hobeys : Machine.RunWhere System.step (growing answered).Obeys (startSystem core cross) es)
    (hrun : Machine.run System.step (startSystem core cross) es = some s)
    (hrest : s.running = none) (hregistry : s.world.registryMail = [])
    (c : Completed μ) (hc : c ∈ s.history) (service : Bytes) (hcloses : c.Closes answered service)
    (e : VersionedEntry) (he : s.world.services[service]? = some e) (cell : ProxyCell μ)
    (hcell : s.world.proxies e.proxy = some cell) (hmail : cell.mail = []) : cell.state.restricted = true := by
  obtain ⟨-, hinv⟩ := (run_changes False (growing answered) (Answered answered)
    (fun _ h t => ∀ c ∈ h, ∀ service, c.Closes answered service → t.Restricted service)
    (fun m msg e w w' c r => answered_of_agreed) (fun m h t msg _ _ => ⟨False.elim, False.elim⟩)
    (fun m h w msg done t hinv htakes hchgs => closed_changes hinv htakes hchgs)
    (fun _ h => absurd h (by simp)) hobeys hrun).2 hrest
  obtain ⟨st, hst, hacl⟩ := hinv c hc service hcloses
  obtain rfl : _ = st := by simpa [World.settle_delivered hregistry he hcell hmail] using hst
  by_contra hopen
  simp [Standing.now, currentAcl, hopen] at hacl

namespace Sample

/-- A plugin is loaded whose manifest names someone who is neither a plugin nor a service. -/
def closing : List (System.Event Unit) :=
  [.receive (.load (str "a") []),
    .perform (.library (some ⟨true, { providing (str "a") (str "s") with aclAllow := [str "nobody"] }⟩)),
    .perform .go, .perform (.state []), .perform .go, .perform .go, .perform .go, .perform .go, .perform .go,
    .background .registry, .background .registry, .perform .go, .perform .go, .finish,
    .background .registry, .background (.proxy ⟨0, 3⟩)]

def closed : System Unit := (Machine.run System.step (startSystem [] false) closing).get (by decide +kernel)

/-- The plugin `a` is loaded without an allow list, and then reloaded with one that names the plugin `b`. -/
def closingLate : List (System.Event Unit) :=
  loading (providing (str "a") (str "s")) ++ loading (providing (str "b") (str "t")) ++
    [.background .registry, .background .registry, .receive (.reload (str "a") []),
      .perform (.library (some ⟨true, { providing (str "a") (str "s") with aclAllow := [str "b"] }⟩)), .perform .go,
      .perform .go, .background .registry, .perform .go, .perform .go, .background (.proxy ⟨0, 4⟩), .perform .go,
      .perform .go, .background (.actor ⟨0, 1⟩ []), .background (.actor ⟨0, 1⟩ []), .perform .go,
      .perform .go, .perform .go, .perform .go, .perform .go, .perform .go, .perform .go, .finish,
      .background .registry, .background (.proxy ⟨0, 4⟩)]

def reloaded : System Unit := (Machine.run System.step (startSystem [] false) closingLate).get (by decide +kernel)

end Sample

theorem restricted_services_closing :
    ((Sample.closed.world.proxies ⟨0, 3⟩).map fun cell => cell.state.allowed) = some [] ∧
      ((Sample.closed.world.proxies ⟨0, 3⟩).get (by decide +kernel)).state.restricted = true :=
  ⟨by decide +kernel,
    restricted_services False (by decide +kernel) (some_get _).symm
      (isNone_iff_eq_none.mp (by decide +kernel)) (by decide +kernel) _
      (List.head_mem (List.isEmpty_eq_false_iff.mp (by decide +kernel))) (str "s")
      (.load (str "a") [] _ (by decide +kernel) (by decide +kernel) (some_get (by decide +kernel)).symm
        (by decide +kernel) (by decide +kernel))
      ⟨⟨0, 3⟩, ⟨0, 1⟩, 1, str "a"⟩ (by decide +kernel) _ (some_get _).symm (by decide +kernel)⟩

/-- The reload has given `a` a manifest that names `b`, and everything is delivered; the proxy of its service is open. -/
theorem open_after_reload :
    Sample.reloaded.running.isNone ∧ Sample.reloaded.world.registryMail = [] ∧
      ((Sample.reloaded.manager.plugins[str "a"]?).map (·.manifest.aclAllow)) = some [str "b"] ∧
      Sample.reloaded.world.services[str "s"]? = some ⟨⟨0, 4⟩, ⟨0, 10⟩, 2, str "a"⟩ ∧
      ((Sample.reloaded.world.proxies ⟨0, 4⟩).map fun cell => (cell.alive, cell.mail, cell.state.restricted))
        = some (true, [], false) := by
  decide +kernel

/-! ## Trust -/

/-- The services of a list are registered for the plugin with this allow list, and the others are as they were. -/
def Table.Follows (t : Table) (plugin : Bytes) (new : List Bytes) (acl : Option (List (Option Address)))
    (t' : Table) : Prop :=
  ∀ service st, t' service = some st →
    service ∈ new ∧ st.plugin = plugin ∧ st.acl = acl ∨
    service ∉ new ∧ ∃ st', t service = some st' ∧ st'.plugin = st.plugin ∧ st'.acl = st.acl

namespace Table

variable {t : Table} {plugin : Bytes} {actor : Address} {allowed : List (Option Address)}

lemma enter_new {st} (h : enter plugin actor acl none = some st) :
    st.plugin = plugin ∧ st.acl = acl := by
  obtain rfl : _ = st := by simpa [enter, Standing.entered] using h
  exact ⟨rfl, rfl⟩

lemma follows_loaded (plugin : Bytes) (actor : Address) (allowed : List (Option Address)) {manifest}
    (hnew : ∀ service ∈ manifest.provides, t service = none) :
    t.Follows plugin manifest.provides (if manifest.aclAllow.isEmpty then none else some allowed)
      (t.loaded plugin manifest actor allowed) := by
  intro service st hst
  rw [loaded_eq] at hst
  split at hst
  · rename_i hs
    rw [hnew service hs] at hst
    exact .inl ⟨hs, enter_new hst⟩
  · exact .inr ⟨‹_›, st, hst, rfl, rfl⟩

lemma follows_reloaded (plugin : Bytes) (actor : Address) (allowed : List (Option Address))
    (hkeep : ∀ service ∈ old, service ∈ services)
    (hnew : ∀ service ∈ services, service ∉ old → t service = none) :
    t.Follows plugin (services.filter (· ∉ old)) (if allowed.isEmpty then none else some allowed)
      (t.reloaded plugin old services actor allowed) := by
  intro service st hst
  rw [reloaded_eq hkeep] at hst
  split at hst
  · obtain ⟨st', hst', rfl⟩ := map_eq_some_iff.mp hst
    exact .inr ⟨by simp [*], st', hst', rfl, rfl⟩
  · rename_i hold
    split at hst
    · rename_i hs
      rw [hnew service hs hold] at hst
      exact .inl ⟨by simp [hs, hold], enter_new hst⟩
    · exact .inr ⟨by simp [*], st, hst, rfl, rfl⟩

end Table

/-- The proxy lets the calls of the actor through. -/
def Standing.Trusts (st : Standing) (actor : Address) : Prop := ∀ allowed, st.acl = some allowed → some actor ∈ allowed

/-- Services are apart, the core services are open, and whoever a loaded plugin names is trusted if loaded. -/
structure Trusting (core : List Bytes) (m : PluginManager) (t : Table) : Prop extends Parted core m t where
  openCore : ∀ service st, t service = some st → service ∈ core → st.acl = none
  trust : ∀ (provider pname : Bytes) (a p : LoadedPlugin), m.plugins[provider]? = some a →
    m.plugins[pname]? = some p → pname ∈ a.manifest.aclAllow →
    ∀ service st, t service = some st → st.plugin = provider → st.Trusts p.actor

/-- The manifest of a plugin that is loaded or reloaded: its services are its own, no loaded plugin and not itself
names it, and a reload names nobody new. -/
def Lasting (core : List (Bytes × Address)) (m : PluginManager) (msg : ManagerMsg) (manifest : Manifest) : Prop :=
  Exclusive (core.map Prod.fst) m msg.plugin manifest ∧ msg.plugin ∉ manifest.aclAllow ∧
    ∀ other ∈ m.plugins.toList, msg.plugin ∉ other.2.manifest.aclAllow ∧
      (other.1 = msg.plugin → ∀ pname ∈ manifest.aclAllow, pname ∈ other.2.manifest.aclAllow)

instance (core : List (Bytes × Address)) (m : PluginManager) (msg : ManagerMsg) (manifest : Manifest) :
    Decidable (Lasting core m msg manifest) :=
  inferInstanceAs (Decidable (_ ∧ _ ∧ ∀ other ∈ m.plugins.toList, _))

namespace Trusting

variable {core : List Bytes} {m m' : PluginManager} {t : Table}

/-- A plugin enters with new services; the others and its own old services stay as they are. -/
lemma enter (h : Trusting core m t) {name p new} (hm : Exclusive core m name p.manifest)
    (hp : m'.plugins = m.plugins.insert name p) {t'} (hparted : Parted core m' t')
    (hfollows : t.Follows name new acl t') (hsub : ∀ service ∈ new, service ∈ p.manifest.provides)
    (hself : name ∉ p.manifest.aclAllow)
    (hnamed : ∀ (other : Bytes) (q : LoadedPlugin), m.plugins[other]? = some q → name ∉ q.manifest.aclAllow)
    (hnames : ∀ old : LoadedPlugin, m.plugins[name]? = some old →
      ∀ pname ∈ p.manifest.aclAllow, pname ∈ old.manifest.aclAllow)
    (hacl : ∀ pname ∈ p.manifest.aclAllow, ∀ q : LoadedPlugin, m.plugins[pname]? = some q →
      ∀ allowed, acl = some allowed → some q.actor ∈ allowed) : Trusting core m' t' := by
  have hlook : ∀ {a} {q}, m'.plugins[a]? = some q → a ≠ name → m.plugins[a]? = some q := by
    intro a q hq hne
    rwa [hp, lookup_insert, if_neg (Ne.symm hne)] at hq
  have hentered : ∀ {q}, m'.plugins[name]? = some q → p = q := by
    intro q hq
    simpa [hp, lookup_insert] using hq
  refine ⟨hparted, fun service st hst hcore => ?_, fun provider pname a q ha hq hname service st hst hplug => ?_⟩
  · rcases hfollows service st hst with ⟨hs, -⟩ | ⟨-, st', hst', -, hsame⟩
    · exact absurd hcore (hm service (hsub service hs)).1
    · exact hsame ▸ h.openCore service st' hst' hcore
  · rcases hfollows service st hst with ⟨hs, hown, hlist⟩ | ⟨hs, st', hst', hold', hsame⟩
    · -- a new service: it is the plugin's own, with the new list
      obtain rfl : name = provider := hown.symm.trans hplug
      obtain rfl := hentered ha
      have hne : pname ≠ name := fun heq => hself (heq ▸ hname)
      rw [Standing.Trusts, hlist]
      exact hacl pname hname q (hlook hq hne)
    · rw [Standing.Trusts, ← hsame]
      rw [← hold'] at hplug
      by_cases hprov : provider = name
      · -- an old service of the plugin: everyone the new manifest names was named before
        subst hprov
        obtain rfl := hentered ha
        have hne : pname ≠ provider := fun heq => hself (heq ▸ hname)
        rcases h.claimed service st' hst' with hcore | ⟨old, hold, -⟩
        · intro allowed hallowed
          rw [h.openCore service st' hst' hcore] at hallowed
          simp at hallowed
        · rw [hplug] at hold
          exact h.trust provider pname old q hold (hlook hq hne) (hnames old hold pname hname) service st' hst' hplug
      · have ha' := hlook ha hprov
        have hne : pname ≠ name := fun heq => hnamed provider a ha' (heq ▸ hname)
        exact h.trust provider pname a q ha' (hlook hq hne) hname service st' hst' hplug

/-- A plugin leaves with its services. -/
lemma leave (h : Trusting core m t) {name old} (hold : m.plugins[name]? = some old)
    (hp : m'.plugins = m.plugins.erase name) : Trusting core m' (t.unregisterAll old.manifest.provides) := by
  have hlook : ∀ {a : Bytes} {q : LoadedPlugin}, m'.plugins[a]? = some q → m.plugins[a]? = some q := by
    intro a q hq
    rw [hp, lookup_erase] at hq
    split at hq
    · simp at hq
    · exact hq
  refine ⟨h.toParted.leave hold hp, fun service st hst => ?_, fun provider pname a q ha hq hname service st hst => ?_⟩
  · exact h.openCore service st (Table.unregisterAll_some hst).2
  · exact h.trust provider pname a q (hlook ha) (hlook hq) hname service st (Table.unregisterAll_some hst).2

/-- Every change keeps the trust, as long as the manifests make the addresses last. -/
lemma changes {core} {ok : (e : Op) → e.Reply → Prop} {t'} (h : Trusting (core.map Prod.fst) m t)
    (hc : PluginManager.Changes ok m t msg done t')
    (hlib : ∀ path lib, ok (.openLibrary path) (some lib) → Lasting core m msg lib.manifest) :
    Trusting (core.map Prod.fst) done.2 t' := by
  have hparted : Parted (core.map Prod.fst) done.2 t' :=
    h.toParted.changes hc fun path lib hopen => (hlib path lib hopen).1
  have hoth : ∀ {name} {q}, m.plugins[name]? = some q → (name, q) ∈ m.plugins.toList :=
    fun hq => Std.ExtTreeMap.mem_toList_iff_getElem?_eq_some.mpr hq
  cases hc with
  | same hfail hp =>
    refine ⟨hparted, h.openCore, fun provider pname a p ha hp' => ?_⟩
    rw [hp] at ha hp'
    exact h.trust provider pname a p ha hp'
  | givenUp hold hfail hp hwithin hlate =>
    refine ⟨hparted, fun service st hst hcore => ?_, fun provider pname a p ha hp' hname service st hst hplug => ?_⟩
    · obtain ⟨st', hst', -, hsame⟩ := Table.givenUp_some hst
      exact hsame ▸ h.openCore service st' hst' hcore
    · obtain ⟨st', hst', hown, hsame⟩ := Table.givenUp_some hst
      rw [hp] at ha hp'
      rw [Standing.Trusts, ← hsame]
      exact h.trust provider pname a p ha hp' hname service st' hst' (hown.trans hplug)
  | @loaded name path lib p allowed m' hopen hfresh hman hp hcoll =>
    obtain ⟨-, hself, hnamed⟩ := hlib path lib hopen
    have hexclusive : Exclusive (core.map Prod.fst) m name lib.manifest := (hlib path lib hopen).1
    have hnone : m.plugins[name]? = none := Std.ExtTreeMap.getElem?_eq_none hfresh
    have hnew : ∀ service ∈ lib.manifest.provides, t service = none := fun service hs =>
      h.unregistered hexclusive hs fun old hold => by simp [hnone] at hold
    have hfollows := Table.follows_loaded name p.actor allowed hnew
    rw [← hman] at hexclusive hself hnamed hcoll hparted hfollows ⊢
    refine h.enter hexclusive hp hparted hfollows (fun _ hs => hs) hself (fun other q hq => (hnamed _ (hoth hq)).1)
      (fun old hold => by simp [hnone] at hold) fun pname hname q hq list hlist => ?_
    split at hlist
    · simp at hlist
    · obtain rfl : allowed = list := by simpa using hlist
      exact hcoll.plugins pname hname q hq
  | @reloaded name path old p lib allowed m' hold hopen hkeep hreg hman hp hcoll =>
    obtain ⟨-, hself, hnamed⟩ := hlib path lib hopen
    have hexclusive : Exclusive (core.map Prod.fst) m name lib.manifest := (hlib path lib hopen).1
    have hnew : ∀ service ∈ lib.manifest.provides, service ∉ old.manifest.provides → t service = none := by
      intro service hs hnot
      refine h.unregistered hexclusive hs fun old' hold' => ?_
      obtain rfl : old = old' := by simpa [hold] using hold'
      exact hnot
    have hfollows := Table.follows_reloaded name p.actor allowed hkeep hnew
    rw [← hman] at hexclusive hself hnamed hcoll hparted hfollows ⊢
    refine h.enter hexclusive hp hparted hfollows (fun _ hs => List.mem_of_mem_filter hs) hself
      (fun other q hq => (hnamed _ (hoth hq)).1) (fun old' hold' => (hnamed _ (hoth hold')).2 rfl)
      fun pname hname q hq list hlist => ?_
    split at hlist
    · simp at hlist
    · obtain rfl : allowed = list := by simpa using hlist
      exact hcoll.plugins pname hname q hq
  | gone hmsg hold hp => exact h.leave hold hp

end Trusting

/-- **Trust.**  In every run in which the manifests of opened libraries make addresses last, once everything is
delivered, the proxies of a loaded plugin's services let through the current actor of every loaded plugin that its
manifest names. -/
theorem trusted_plugins {core : List (Bytes × Address)} {cross : Bool} {es : List (System.Event μ)} {s : System μ}
    (hobeys : Machine.RunWhere System.step (opening (Lasting core)).Obeys (startSystem core cross) es)
    (hrun : Machine.run System.step (startSystem core cross) es = some s)
    (hrest : s.running = none) (hregistry : s.world.registryMail = [])
    (provider pname : Bytes) (a p : LoadedPlugin) (ha : s.manager.plugins[provider]? = some a)
    (hp : s.manager.plugins[pname]? = some p) (hname : pname ∈ a.manifest.aclAllow)
    (service : Bytes) (e : VersionedEntry) (he : s.world.services[service]? = some e) (hplugin : e.plugin = provider)
    (cell : ProxyCell μ) (hcell : s.world.proxies e.proxy = some cell) (hmail : cell.mail = []) :
    cell.state.restricted = true → cell.state.listed (some p.actor) = true := by
  obtain ⟨-, hinv⟩ := (run_changes False (opening (Lasting core)) (Opened (Lasting core))
    (fun m _ t => Trusting (core.map Prod.fst) m t) (fun m msg e w w' c r => opened_of_agreed)
    (fun m h t msg _ _ => ⟨False.elim, False.elim⟩)
    (fun m h w msg done t hinv _ hchgs => hinv.changes hchgs fun _ _ hopen => hopen)
    ⟨parted_start core cross, fun _ _ hst _ => (settle_start hst).2, fun _ _ _ _ h => absurd h (by simp)⟩
    hobeys hrun).2 hrest
  intro hrestricted
  have htrust := hinv.trust provider pname a p ha hp hname service _
    (World.settle_delivered hregistry he hcell hmail) hplugin
  have hlisted := htrust cell.state.allowed (by simp [Standing.now, currentAcl, hrestricted])
  simpa [ProxyState.listed] using hlisted

namespace Sample

/-- The plugin `b` is loaded, and then `a`, which names it. -/
def naming : List (System.Event Unit) :=
  loading (providing (str "b") (str "t")) ++
    [.receive (.load (str "a") []),
      .perform (.library (some ⟨true, { providing (str "a") (str "s") with aclAllow := [str "b"] }⟩)),
      .perform .go, .perform (.state []), .perform .go, .perform .go, .perform .go, .perform .go, .perform .go, .finish,
      .background .registry, .background .registry, .background .registry, .background (.proxy ⟨0, 5⟩)]

def named : System Unit := (Machine.run System.step (startSystem [] false) naming).get (by decide +kernel)

/-- And then `b` is reloaded. -/
def renewing : List (System.Event Unit) :=
  naming ++
    [.receive (.reload (str "b") []), .perform (.library (some ⟨true, providing (str "b") (str "t")⟩)), .perform .go,
      .perform .go, .background .registry, .perform .go, .perform .go, .background (.proxy ⟨0, 4⟩), .perform .go,
      .perform .go, .background (.actor ⟨0, 1⟩ []), .background (.actor ⟨0, 1⟩ []), .perform .go,
      .perform .go, .perform .go, .perform .go, .perform .go, .perform .go, .perform .go, .finish,
      .background .registry, .background (.proxy ⟨0, 4⟩)]

def renewed : System Unit := (Machine.run System.step (startSystem [] false) renewing).get (by decide +kernel)

end Sample

theorem trusted_plugins_named :
    ((Sample.named.world.proxies ⟨0, 5⟩).map fun cell => cell.state.restricted) = some true ∧
      (((Sample.named.world.proxies ⟨0, 5⟩).get (by decide +kernel)).state.restricted = true →
        ((Sample.named.world.proxies ⟨0, 5⟩).get (by decide +kernel)).state.listed
          (some ((Sample.named.manager.plugins[str "b"]?).get (by decide +kernel)).actor) = true) :=
  ⟨by decide +kernel,
    trusted_plugins (by decide +kernel) (some_get _).symm (isNone_iff_eq_none.mp (by decide +kernel))
      (by decide +kernel) (str "a") (str "b") ((Sample.named.manager.plugins[str "a"]?).get (by decide +kernel)) _
      (some_get _).symm (some_get _).symm (by decide +kernel) (str "s")
      ⟨⟨0, 5⟩, ⟨0, 3⟩, 1, str "a"⟩ (by decide +kernel) rfl _ (some_get _).symm (by decide +kernel)⟩

/-- Everything is delivered, and the manifest of `a` names `b`; the proxy of its service knows the old actor of `b`
only. -/
theorem stale_after_reload :
    Sample.renewed.running.isNone ∧ Sample.renewed.world.registryMail = [] ∧
      ((Sample.renewed.manager.plugins[str "a"]?).map (·.manifest.aclAllow)) = some [str "b"] ∧
      ((Sample.renewed.manager.plugins[str "b"]?).map (·.actor)) = some ⟨0, 10⟩ ∧
      Sample.renewed.world.services[str "s"]? = some ⟨⟨0, 5⟩, ⟨0, 3⟩, 1, str "a"⟩ ∧
      ((Sample.renewed.world.proxies ⟨0, 5⟩).map fun cell =>
        (cell.alive, cell.mail, cell.state.restricted, cell.state.listed (some ⟨0, 10⟩)))
        = some (true, [], true, false) := by
  decide +kernel

end Caf.Plugin
