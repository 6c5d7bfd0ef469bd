import CafPluginSystem.Plugin.Handlers

/-!
# Whose services an operation touches

The manager acts on services by the names in manifests; the registry keeps the plugin that a service was registered
for, and refuses a name that is taken.  As long as no two plugins provide a service of the same name, a load, reload,
unload or death only touches services that are registered for its own plugin.  When two do, the manager does not
learn that the second registration was refused.

* `run_changes` — **runs**: an invariant of the plugins and the settled table that every change keeps.
* `Parted` — the invariant: services are registered for the plugin that provides them, and for no other.
* `own_services` — no operation touches a service of another plugin.
-/

namespace Caf.Plugin

open EntityStore Service Interaction Std.ExtTreeMap Option StringMap

variable {μ : Type}
variable {manifest : Manifest} {name : Bytes} {msg : ManagerMsg} {strict : Prop} {p : LoadedPlugin}

/-- The plugin that a message is about. -/
def ManagerMsg.plugin : ManagerMsg → Bytes
  | .load name _ => name
  | .reload name _ => name
  | .unload name => name
  | .down _ => []

/-! ## Runs -/

/-- The rule that the manifest of every library that is opened meets a condition. -/
def opening (C : PluginManager → ManagerMsg → Manifest → Prop) : System.Rules μ where
  agreed m msg _ _ c :=
    match c with
    | .library (some lib) => C m msg lib.manifest
    | _ => True

instance (C : PluginManager → ManagerMsg → Manifest → Prop) [∀ m msg manifest, Decidable (C m msg manifest)]
    (s : System μ) (e : System.Event μ) : Decidable ((opening C).Obeys s e) :=
  @System.Rules.Obeys.decidable μ (opening C) (fun _ _ => isTrue trivial) (fun _ _ => isTrue trivial)
    (fun m msg _ _ c =>
      match c with
      | .library (some lib) => inferInstanceAs (Decidable (C m msg lib.manifest))
      | .library none => isTrue trivial
      | .go => isTrue trivial
      | .fail => isTrue trivial
      | .state _ => isTrue trivial) s e

/-- The replies to the manager that keep to it. -/
def Opened (C : PluginManager → ManagerMsg → Manifest → Prop) (m : PluginManager) (msg : ManagerMsg) :
    (e : Op) → e.Reply → Prop
  | .openLibrary _, some lib => C m msg lib.manifest
  | _, _ => True

lemma opened_of_agreed {C : PluginManager → ManagerMsg → Manifest → Prop} {m : PluginManager}
    {e : Op} {w w' : World μ} {c : World.Choice} {r : e.Reply} (h : (opening C).agreed m msg e w c)
    (hp : w.perform e c = some (r, w')) : Opened C m msg e r := by
  cases e with
  | openLibrary path =>
    cases c <;> simp only [World.perform, reduceCtorEq, some.injEq, Prod.mk.injEq] at hp
    obtain ⟨rfl, -⟩ := hp
    rename_i lib
    cases lib with
    | none => trivial
    | some lib => exact h
  | _ => trivial

/-- The registrations of the core services are all safe. -/
lemma mailOk_core {asked} (core : List (Bytes × Address)) : ∀ t : Table,
    World.MailOk strict asked t (core.map fun c => (str "@core", .register c.1 c.2 (str "@core"))) := by
  induction core with
  | nil => exact fun t => trivial
  | cons c core ih => exact fun t => ⟨fun _ => trivial, ih _⟩

/-- The addresses of the core services come before all others. -/
lemma core_lt_next (core : List (Bytes × Address)) : ∀ (n : ℕ), n ≤ core.foldl (fun n c => max n (c.2.id + 1)) n ∧
    ∀ c ∈ core, c.2.id < core.foldl (fun n c => max n (c.2.id + 1)) n := by
  induction core with
  | nil => exact fun n => ⟨le_rfl, by simp⟩
  | cons c core ih =>
    intro n
    obtain ⟨hle, hlt⟩ := ih (max n (c.2.id + 1))
    refine ⟨(le_max_left _ _).trans hle, fun d hd => ?_⟩
    rcases List.mem_cons.mp hd with rfl | hd
    · exact (Nat.lt_of_succ_le (le_max_right n _)).trans_le hle
    · exact hlt d hd

/-- The system starts with an empty ledger. -/
lemma keeps_start (core : List (Bytes × Address)) (cross : Bool) :
    (startSystem core cross : System μ).world.Keeps strict
      { table := (startSystem core cross : System μ).world.settle } where
  sane := ⟨fun _ _ => rfl, fun service e he => absurd he (by simp [startSystem]),
    fun service _ e _ he => absurd he (by simp [startSystem])⟩
  table := rfl
  fresh := fun _ _ => rfl
  named := by
    rintro a (⟨p, cell, hp, -⟩ | ⟨m, hm, hnames⟩)
    · simp [startSystem] at hp
    · obtain ⟨c, hc, rfl⟩ := List.mem_map.mp hm
      obtain rfl : c.2 = a := hnames
      exact (core_lt_next core 0).2 c hc
  next := Nat.zero_le _
  mail := mailOk_core core _
  boxes := ⟨fun _ _ h => absurd h (by simp), fun _ _ h => absurd h (by simp), fun _ h => absurd h (by simp),
    fun _ _ h => absurd h (by simp [startSystem]), fun _ _ _ h => absurd h (by simp [startSystem]),
    fun _ _ h => absurd h (by simp [startSystem]), fun _ _ h => absurd h (by simp [startSystem])⟩

/-- **Runs.**  An invariant of the plugins, the history and the settled table holds whenever the manager is at rest if
every change keeps it; and if the handlers go by their own services, no service is touched on account of another
plugin, at any time. -/
theorem run_changes (strict : Prop) (rules : System.Rules μ)
    (ok : PluginManager → ManagerMsg → (e : Op) → e.Reply → Prop)
    (Inv : PluginManager → List (Completed μ) → Table → Prop)
    (hok : ∀ m msg e (w w' : World μ) c r, rules.agreed m msg e w c → w.perform e c = some (r, w') → ok m msg e r)
    (howns : ∀ m h t msg, Inv m h t → rules.takes m msg → PluginManager.Owns strict (ok m msg) m msg t)
    (hstep : ∀ m h w msg done t, Inv m h w.settle → rules.takes m msg →
      PluginManager.Changes (ok m msg) m w.settle msg done t →
      Inv done.2 (h ++ [⟨msg, m, w, done.1, done.2⟩]) t)
    {core cross} (hstart : Inv {} [] (startSystem core cross : System μ).world.settle)
    {es s}
    (hobeys : Machine.RunWhere System.step rules.Obeys (startSystem core cross) es)
    (hrun : Machine.run System.step (startSystem core cross) es = some s) :
    (strict → ∀ x ∈ s.world.touched, x.origin = x.owner) ∧
      (s.running = none → (∃ L, s.world.Keeps strict L ∧ s.manager.Housed L.next) ∧
        Inv s.manager s.history s.world.settle) := by
  have hknown := System.run_rest (G := fun w => strict → ∀ x ∈ w.touched, x.origin = x.owner)
    (R := fun m h w => ∃ L, w.Keeps strict L ∧ m.Housed L.next ∧ Inv m h L.table)
    (fun m h w ⟨L, hkeeps, _⟩ => hkeeps.boxes.touched)
    (fun m h w w' b ⟨L, hkeeps, hinv⟩ _ hb => ⟨L, World.keeps_background hkeeps hb, hinv⟩)
    (fun m h w msg ⟨L, hkeeps, hhoused, hinv⟩ htakes => ?_)
    ⟨(keeps_start core cross).boxes.touched,
      fun _ => ⟨_, keeps_start core cross, fun _ _ h => absurd h (by simp [startSystem]), hstart⟩,
      fun _ _ _ h => by simp [startSystem] at h⟩ hobeys hrun
  · refine ⟨hknown.now, fun hrest => ?_⟩
    obtain ⟨L, hkeeps, hhoused, hinv⟩ := hknown.rest hrest
    exact ⟨⟨L, hkeeps, hhoused⟩, hkeeps.table ▸ hinv⟩
  · have htracks := account_tracks strict rules.allowed (G := fun w => strict → ∀ x ∈ w.touched, x.origin = x.owner)
      (fun w L hL => hL.boxes.touched) (hok m msg)
    refine ((PluginManager.handler_ends (howns m h L.table msg hinv htakes) hhoused).meets htracks hkeeps).mono ?_
    rintro done w' ⟨L', ⟨hchgs, hhoused'⟩, hkeeps'⟩
    rw [← hkeeps.table] at hchgs hinv
    exact ⟨L', hkeeps', hhoused', hstep m h w msg done L'.table hinv htakes hchgs⟩

/-! ## The table after a change -/

namespace Table

variable {t : Table} {plugin : Bytes} {actor : Address} {allowed : List (Option Address)} {service : Bytes}
  {services : List Bytes} {st : Standing}
variable {stopped late old : List Bytes}

/-- A service after a plugin entered with it: it is registered unless it was already, and restricted if there is a
list. -/
def enter (plugin : Bytes) (actor : Address) (acl : Option (List (Option Address))) (x : Option Standing) :
    Option Standing :=
  (x.or (some (.entered plugin actor))).map fun st => { st with acl := acl.or st.acl }

lemma enter_some {acl x} (h : enter plugin actor acl x = some st) :
    (∃ st', x = some st' ∧ st'.plugin = st.plugin) ∨ st.plugin = plugin := by
  obtain ⟨st', hst', rfl⟩ := map_eq_some_iff.mp h
  rcases or_eq_some_iff.mp hst' with hold | ⟨-, hnew⟩
  · exact .inl ⟨st', hold, rfl⟩
  · obtain rfl : _ = st' := by simpa using hnew
    exact .inr rfl

lemma loaded_eq (service : Bytes) :
    t.loaded plugin manifest actor allowed service
      = if service ∈ manifest.provides then
          enter plugin actor (if manifest.aclAllow.isEmpty then none else some allowed) (t service)
        else t service := by
  unfold loaded
  by_cases hs : service ∈ manifest.provides
  · cases hacl : manifest.aclAllow with
    | nil => simp [registerAll, mapOn_mem hs, hs, enter]
    | cons a rest => simp [registerAll, setAclAll, mapOn_mem hs, hs, enter]
  · split
    · rw [registerAll, mapOn_not_mem hs]
    · rw [setAclAll, mapOn_not_mem hs, registerAll, mapOn_not_mem hs]

lemma reloaded_eq (hkeep : ∀ service ∈ old, service ∈ services) (service : Bytes) :
    t.reloaded plugin old services actor allowed service
      = if service ∈ old then (t service).map fun st => { st with impl := actor, aim := some actor, paused := false }
        else if service ∈ services then
          enter plugin actor (if allowed.isEmpty then none else some allowed) (t service)
        else t service := by
  unfold reloaded resumeAll switchAll pauseAll
  by_cases hold : service ∈ old
  · have hs := hkeep service hold
    simp only [mapOn_mem hold, mapOn_mem hs, if_pos hold, Option.map_map]
    rfl
  · rw [mapOn_not_mem hold, if_neg hold]
    by_cases hs : service ∈ services
    · rw [mapOn_mem hs, mapOn_not_mem hold, if_neg hold, if_pos hs]
      cases allowed with
      | nil | cons a allowed => simp [enter]
    · rw [mapOn_not_mem hs, mapOn_not_mem hold, if_neg hs]

/-- A reload that is given up. -/
lemma givenUp_eq (service : Bytes) :
    (t.pauseAll (stopped ++ late)).resumeAll actor stopped service
      = if service ∈ stopped then (t service).map fun st => { st with aim := some actor, paused := false }
        else if service ∈ late then (t service).map .pause
        else t service := by
  unfold resumeAll pauseAll
  by_cases hstopped : service ∈ stopped
  · rw [mapOn_mem hstopped, mapOn_mem (List.mem_append_left _ hstopped), if_pos hstopped, Option.map_map]
    rfl
  · rw [mapOn_not_mem hstopped, if_neg hstopped]
    by_cases hlate : service ∈ late
    · rw [mapOn_mem (List.mem_append_right _ hlate), if_pos hlate]
    · rw [mapOn_not_mem (by simp [hstopped, hlate]), if_neg hlate]

/-- It leaves the registrations and the allow lists as they are. -/
lemma givenUp_some (h : (t.pauseAll (stopped ++ late)).resumeAll actor stopped service = some st) :
    ∃ st', t service = some st' ∧ st'.plugin = st.plugin ∧ st'.acl = st.acl := by
  rw [givenUp_eq] at h
  split at h
  · obtain ⟨st', hst', rfl⟩ := map_eq_some_iff.mp h
    exact ⟨st', hst', rfl, rfl⟩
  · split at h
    · obtain ⟨st', hst', rfl⟩ := map_eq_some_iff.mp h
      exact ⟨st', hst', rfl, rfl⟩
    · exact ⟨st, h, rfl, rfl⟩

/-- Who a service is registered for after a plugin entered with services. -/
def Entered (t : Table) (plugin : Bytes) (new : List Bytes) (service : Bytes) (st : Standing) : Prop :=
  (∃ st', t service = some st' ∧ st'.plugin = st.plugin) ∨ st.plugin = plugin ∧ service ∈ new

lemma loaded_some (h : t.loaded plugin manifest actor allowed service = some st) :
    t.Entered plugin manifest.provides service st := by
  rw [loaded_eq] at h
  split at h
  · exact (enter_some h).imp_right fun hplug => ⟨hplug, ‹_›⟩
  · exact .inl ⟨st, h, rfl⟩

lemma reloaded_some (hkeep : ∀ service ∈ old, service ∈ services)
    (h : t.reloaded plugin old services actor allowed service = some st) : t.Entered plugin services service st := by
  rw [reloaded_eq hkeep] at h
  split at h
  · obtain ⟨st', hst', rfl⟩ := map_eq_some_iff.mp h
    exact .inl ⟨st', hst', rfl⟩
  · split at h
    · exact (enter_some h).imp_right fun hplug => ⟨hplug, ‹_›⟩
    · exact .inl ⟨st, h, rfl⟩

lemma unregisterAll_some (h : t.unregisterAll services service = some st) :
    service ∉ services ∧ t service = some st := by
  by_cases hs : service ∈ services
  · simp [unregisterAll, mapOn_mem hs] at h
  · rw [unregisterAll, mapOn_not_mem hs] at h
    exact ⟨hs, h⟩

end Table

/-! ## Services of one plugin only -/

/-- The services of a manifest are provided by no other loaded plugin and are no core services. -/
def Exclusive (core : List Bytes) (m : PluginManager) (name : Bytes) (manifest : Manifest) : Prop :=
  ∀ service ∈ manifest.provides, service ∉ core ∧
    ∀ other ∈ m.plugins.toList, other.1 ≠ name → service ∉ other.2.manifest.provides

instance (core : List Bytes) (m : PluginManager) (name : Bytes) (manifest : Manifest) :
    Decidable (Exclusive core m name manifest) :=
  inferInstanceAs (Decidable (∀ service ∈ manifest.provides, _))

/-- A service is registered for a loaded plugin that provides it, or it is a core service; and no service is provided
twice. -/
structure Parted (core : List Bytes) (m : PluginManager) (t : Table) : Prop where
  claimed : ∀ service st, t service = some st → service ∈ core ∨
    ∃ p : LoadedPlugin, m.plugins[st.plugin]? = some p ∧ service ∈ p.manifest.provides
  exclusive : ∀ (name : Bytes) (p : LoadedPlugin), m.plugins[name]? = some p → Exclusive core m name p.manifest

lemma Exclusive.other {core m}
    (h : Exclusive core m name manifest) {service} (hs : service ∈ manifest.provides) {name'} (hp : m.plugins[name']? = some p) (hs' : service ∈ p.manifest.provides) : name' = name := by
  by_contra hne
  exact (h service hs).2 (name', p) (mem_toList_iff_getElem?_eq_some.mpr hp) hne hs'

namespace Parted

variable {core : List Bytes} {m m' : PluginManager} {t : Table}
variable {ok : (e : Op) → e.Reply → Prop} {t' : Table}

variable (h : Parted core m t)
include h

/-- A registered service of an exclusive manifest is registered for its plugin. -/
lemma own (hm : Exclusive core m name manifest) :
    Own t name manifest.provides := by
  intro service hs st hst
  rcases h.claimed service st hst with hcore | ⟨p, hp, hprov⟩
  · exact absurd hcore (hm service hs).1
  · exact hm.other hs hp hprov

/-- A service that the plugin did not provide before is not registered. -/
lemma unregistered (hm : Exclusive core m name manifest)
    {service} (hs : service ∈ manifest.provides)
    (hnot : ∀ old : LoadedPlugin, m.plugins[name]? = some old → service ∉ old.manifest.provides) :
    t service = none := by
  by_contra hsome
  obtain ⟨st, hst⟩ := ne_none_iff_exists'.mp hsome
  rcases h.claimed service st hst with hcore | ⟨p, hp, hprov⟩
  · exact (hm service hs).1 hcore
  · exact hnot p (hm.other hs hp hprov ▸ hp) hprov

/-- So every handler goes by services of its own plugin. -/
lemma owns (hlib : ∀ path lib, ok (.openLibrary path) (some lib) → Exclusive core m msg.plugin lib.manifest) :
    PluginManager.Owns strict ok m msg t := by
  refine ⟨fun _ name p hp => h.own (h.exclusive name p hp), ?_⟩
  rintro - name path lib (⟨rfl, -⟩ | rfl) hopen
  · exact h.own (hlib path lib hopen)
  · exact h.own (hlib path lib hopen)

/-- A plugin with an exclusive manifest enters, in the place of one whose services it keeps if there was one. -/
lemma enter {new} (hm : Exclusive core m name p.manifest) (hp : m'.plugins = m.plugins.insert name p)
    (hkeep : ∀ old : LoadedPlugin, m.plugins[name]? = some old →
      ∀ service ∈ old.manifest.provides, service ∈ p.manifest.provides)
    (hnew : ∀ service ∈ new, service ∈ p.manifest.provides)
    (ht : ∀ service st, t' service = some st → t.Entered name new service st) : Parted core m' t' := by
  have hlook : ∀ a, m'.plugins[a]? = if name = a then some p else m.plugins[a]? := fun a => by
    rw [hp, lookup_insert]
  have hmem : ∀ other ∈ m'.plugins.toList, other = (name, p) ∨ other ∈ m.plugins.toList ∧ other.1 ≠ name := by
    rintro ⟨a, q⟩ ha
    have hq := mem_toList_iff_getElem?_eq_some.mp ha
    rw [hlook] at hq
    split at hq
    · rename_i hname
      obtain rfl : p = q := by simpa using hq
      exact .inl (by rw [hname])
    · exact .inr ⟨mem_toList_iff_getElem?_eq_some.mpr hq, fun heq => absurd heq.symm ‹_›⟩
  refine ⟨fun service st hst => ?_, fun a q hq service hs => ?_⟩
  · have hpres : ∀ st' : Standing, st'.plugin = name → service ∈ p.manifest.provides →
        ∃ q : LoadedPlugin, m'.plugins[st'.plugin]? = some q ∧ service ∈ q.manifest.provides :=
      fun st' hname hs => ⟨p, by rw [hlook, if_pos hname.symm], hs⟩
    rcases ht service st hst with ⟨st', hst', hplug⟩ | ⟨hname, hs⟩
    · refine (h.claimed service st' hst').imp_right ?_
      rintro ⟨q, hq, hs⟩
      rw [hplug] at hq
      by_cases hname : st.plugin = name
      · exact hpres st hname (hkeep q (hname ▸ hq) service hs)
      · exact ⟨q, by rw [hlook, if_neg (Ne.symm hname)]; exact hq, hs⟩
    · exact .inr (hpres st hname (hnew service hs))
  · rw [hlook] at hq
    split at hq
    · rename_i hname
      obtain rfl : p = q := by simpa using hq
      refine ⟨(hm service hs).1, fun other hoth hne => ?_⟩
      rcases hmem other hoth with rfl | ⟨hoth, -⟩
      · exact absurd hname hne
      · exact (hm service hs).2 other hoth (hname ▸ hne)
    · rename_i hname
      have hold := h.exclusive a q hq service hs
      refine ⟨hold.1, fun other hoth hne => ?_⟩
      rcases hmem other hoth with rfl | ⟨hoth, -⟩
      · exact fun hs' => hname (hm.other hs' hq hs).symm
      · exact hold.2 other hoth hne

/-- A plugin leaves with its services. -/
lemma leave {old} (hold : m.plugins[name]? = some old)
    (hp : m'.plugins = m.plugins.erase name) : Parted core m' (t.unregisterAll old.manifest.provides) := by
  have hlook : ∀ (a : Bytes) (q : LoadedPlugin), m'.plugins[a]? = some q → m.plugins[a]? = some q := by
    intro a q hq
    rw [hp, lookup_erase] at hq
    split at hq
    · simp at hq
    · exact hq
  refine ⟨fun service st hst => ?_, fun a q hq service hs => ?_⟩
  · obtain ⟨hnot, hst⟩ := Table.unregisterAll_some hst
    refine (h.claimed service st hst).imp_right ?_
    rintro ⟨q, hq, hs⟩
    have hne : name ≠ st.plugin := by
      rintro rfl
      obtain rfl : old = q := by simpa [hold] using hq
      exact hnot hs
    exact ⟨q, by rw [hp, lookup_erase, if_neg hne]; exact hq, hs⟩
  · refine (h.exclusive a q (hlook a q hq) service hs).imp_right fun hoth other hmem => ?_
    exact hoth other (mem_toList_iff_getElem?_eq_some.mpr
      (hlook _ _ (mem_toList_iff_getElem?_eq_some.mp hmem)))

/-- The plugins stay, and the services stay registered for whom they were. -/
lemma same (hp : m'.plugins = m.plugins)
    (ht : ∀ service st, t' service = some st → ∃ st', t service = some st' ∧ st'.plugin = st.plugin) :
    Parted core m' t' := by
  refine ⟨fun service st hst => ?_, fun a q hq => ?_⟩
  · obtain ⟨st', hst', hplug⟩ := ht service st hst
    rw [hp, ← hplug]
    exact h.claimed service st' hst'
  · rw [hp] at hq
    have hexclusive := h.exclusive a q hq
    rwa [Exclusive, ← hp] at hexclusive

/-- Every change keeps the services apart, as long as the manifests are exclusive. -/
lemma changes {done} (hc : PluginManager.Changes ok m t msg done t')
    (hlib : ∀ path lib, ok (.openLibrary path) (some lib) → Exclusive core m msg.plugin lib.manifest) :
    Parted core done.2 t' := by
  cases hc with
  | same hfail hp => exact h.same hp fun _ st hst => ⟨st, hst, rfl⟩
  | givenUp hold hfail hp hwithin hlate =>
    refine h.same hp fun service st hst => ?_
    obtain ⟨st', hst', hplug, -⟩ := Table.givenUp_some hst
    exact ⟨st', hst', hplug⟩
  | @loaded name path lib p allowed m' hopen hfresh hman hp hcoll =>
    rw [← hman]
    refine h.enter (by rw [hman]; exact hlib path lib hopen) hp ?_ (fun _ hs => hs) fun _ _ => Table.loaded_some
    intro old hold
    rw [getElem?_eq_none hfresh] at hold
    simp at hold
  | @reloaded name path old p lib allowed m' hold hopen hkeep hreg hman hp hcoll =>
    rw [← hman] at hkeep ⊢
    refine h.enter (by rw [hman]; exact hlib path lib hopen) hp ?_ (fun _ hs => hs)
      fun _ _ => Table.reloaded_some hkeep
    intro old' hold'
    obtain rfl : old = old' := by simpa [hold] using hold'
    exact hkeep
  | gone hmsg hold hp => exact h.leave hold hp

end Parted

/-! ## The start -/

lemma core_registered (core : List (Bytes × Address)) {service st} : ∀ t : Table,
    t.applyAll (core.map fun c => (str "@core", RegistryMsg.register c.1 c.2 (str "@core"))) service = some st →
    t service = some st ∨ service ∈ core.map Prod.fst ∧ st.acl = none := by
  induction core with
  | nil => exact fun t h => .inl h
  | cons c core ih =>
    intro t h
    rcases ih (t.apply (.register c.1 c.2 (str "@core"))) h with hfirst | ⟨hmem, hacl⟩
    · by_cases hsvc : service = c.1
      · subst hsvc
        rw [Table.apply, RegistryMsg.service, Table.change_same] at hfirst
        rcases or_eq_some_iff.mp hfirst with hold | ⟨-, hnew⟩
        · exact .inl hold
        · obtain rfl : _ = st := by simpa using hnew
          exact .inr ⟨List.mem_cons_self, rfl⟩
      · rw [Table.apply, RegistryMsg.service, Table.change_other hsvc] at hfirst
        exact .inl hfirst
    · exact .inr ⟨List.mem_cons_of_mem _ hmem, hacl⟩

/-- At the start only the core services are registered, for everyone. -/
lemma settle_start {core cross service st} (h : (startSystem core cross : System μ).world.settle service = some st) :
    service ∈ core.map Prod.fst ∧ st.acl = none := by
  rcases core_registered core _ h with hempty | hcore
  · simp [World.registered, startSystem] at hempty
  · exact hcore

lemma parted_start (core : List (Bytes × Address)) (cross : Bool) :
    Parted (core.map Prod.fst) {} (startSystem core cross : System μ).world.settle :=
  ⟨fun _ _ h => .inl (settle_start h).1, fun _ _ h => absurd h (by simp)⟩

/-! ## No operation touches a service of another plugin -/

/-- Every library that is opened provides services that no other loaded plugin and no core service has. -/
def exclusively (core : List (Bytes × Address)) (m : PluginManager) (msg : ManagerMsg) (manifest : Manifest) : Prop :=
  Exclusive (core.map Prod.fst) m msg.plugin manifest

instance (core : List (Bytes × Address)) (m : PluginManager) (msg : ManagerMsg) (manifest : Manifest) :
    Decidable (exclusively core m msg manifest) :=
  inferInstanceAs (Decidable (Exclusive _ _ _ _))

/-- **Operations only touch the services of their own plugin**: in every run in which a library that is opened
provides services that no other loaded plugin and no core service has, no service is unregistered, paused, retargeted
or given another allow list on account of an operation on another plugin. -/
theorem own_services {core : List (Bytes × Address)} {cross : Bool} {es : List (System.Event μ)} {s : System μ}
    (hobeys : Machine.RunWhere System.step (opening (exclusively core)).Obeys (startSystem core cross) es)
    (hrun : Machine.run System.step (startSystem core cross) es = some s) :
    ∀ x ∈ s.world.touched, x.origin = x.owner := by
  refine (run_changes True (opening (exclusively core)) (Opened (exclusively core))
    (fun m _ t => Parted (core.map Prod.fst) m t) (fun m msg e w w' c r => opened_of_agreed)
    (fun m h t msg hinv _ => hinv.owns fun _ _ hopen => hopen)
    (fun m h w msg done t hinv _ hchgs => hinv.changes hchgs fun _ _ hopen => hopen)
    (parted_start core cross) hobeys hrun).1 trivial

namespace Sample

/-- A manifest with one service. -/
def providing (name service : Bytes) : Manifest :=
  { name, provides := [service], dependencies := [] }

/-- A plugin with one service and no dependencies is loaded. -/
def loading (manifest : Manifest) : List (System.Event Unit) :=
  [.receive (.load manifest.name []), .perform (.library (some ⟨true, manifest⟩)), .perform .go,
    .perform (.state []), .perform .go, .perform .go, .perform .go, .perform .go, .finish]

/-- It is unloaded while another plugin is loaded: the service has the proxy `p`, the plugin the actor `a`. -/
def unloading (name : Bytes) (p a : Address) : List (System.Event Unit) :=
  [.receive (.unload name), .perform .go, .background .registry, .perform .go, .perform .go,
    .background (.proxy p), .perform .go, .perform .go, .background (.actor a []), .background (.actor a []), .perform .go, .perform .go,
    .perform .go, .perform .go, .finish, .background .registry]

/-- Two plugins with services of their own, and the first one is unloaded. -/
def apart : List (System.Event Unit) :=
  loading (providing (str "a") (str "s")) ++ loading (providing (str "b") (str "t")) ++
    [.background .registry, .background .registry] ++ unloading (str "a") ⟨0, 4⟩ ⟨0, 1⟩

/-- Two plugins that provide the same service, and the second one is unloaded. -/
def clashing : List (System.Event Unit) :=
  loading (providing (str "a") (str "s")) ++ loading (providing (str "b") (str "s")) ++
    [.background .registry, .background .registry] ++ unloading (str "b") ⟨0, 4⟩ ⟨0, 3⟩

end Sample

theorem own_services_apart :
    ((Machine.run System.step (startSystem [] false) Sample.apart).map (·.world.touched.length)) = some 2 ∧
      ∀ x ∈ ((Machine.run System.step (startSystem [] false) Sample.apart).get (by decide +kernel)).world.touched,
        x.origin = x.owner :=
  ⟨by decide +kernel, own_services (by decide +kernel) (some_get _).symm⟩

/-- The service `s` was registered for `a`; the registration for `b` was refused.  Unloading `b` pauses the service of
`a` and takes it out of the registry. -/
theorem touched_clashing :
    (Machine.run System.step (startSystem [] false) Sample.clashing).map (·.world.touched)
      = some [⟨.pause, str "b", str "a"⟩, ⟨.unregister, str "b", str "a"⟩] := by
  decide +kernel

end Caf.Plugin
