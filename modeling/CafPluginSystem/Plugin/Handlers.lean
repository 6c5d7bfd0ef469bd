import CafPluginSystem.Plugin.Effects

/-!
# What the handlers come to

The handlers of the manager by the sequential account of `Plugin.Ledger`: each message changes nothing, or it loads,
reloads or removes a plugin, or a reload is given up; and the table of services changes accordingly.

* `Changes`, `handler_ends` — **the handlers**.
* `prepareReload`, `ends_prepareReload` — the part of `reload` up to the point of no return.
-/

namespace Caf.Plugin

open EntityStore Service Interaction

variable {strict : Prop} {ok : (e : Op) → e.Reply → Prop} {L L' : Ledger}

namespace PluginManager

variable {m : PluginManager}
variable {name path : Bytes} {m' : PluginManager} {n : ℕ} {manifest : Manifest}

/-- What a message comes to: the plugins and the table after it. -/
inductive Changes (ok : (e : Op) → e.Reply → Prop) (m : PluginManager) (t : Table) :
    ManagerMsg → Outcome × PluginManager → Table → Prop where
  | same {msg : ManagerMsg} {done : Outcome × PluginManager}
      (hfail : ∀ name path, msg = .load name path ∨ msg = .reload name path → done.1 ≠ .ok true)
      (hp : done.2.plugins = m.plugins) : Changes ok m t msg done t
  | /-- A reload is given up: the services that were paused are resumed, and one may pause late. -/
    givenUp {name path reason : Bytes} {old : LoadedPlugin} {done : Outcome × PluginManager} {stopped late : List Bytes}
      (hold : m.plugins[name]? = some old) (hfail : done.1 = .error reason) (hp : done.2.plugins = m.plugins)
      (hwithin : ∀ service ∈ stopped ++ late, service ∈ old.manifest.provides)
      (hlate : late = [] ∨ ∃ request, ok (.receive .quiesce request) none) :
      Changes ok m t (.reload name path) done ((t.pauseAll (stopped ++ late)).resumeAll old.actor stopped)
  | loaded {name path : Bytes} {lib : Library} {p : LoadedPlugin} {allowed : List (Option Address)}
      {m' : PluginManager} (hlib : ok (.openLibrary path) (some lib)) (hnew : name ∉ m.plugins)
      (hman : p.manifest = lib.manifest) (hp : m'.plugins = m.plugins.insert name p)
      (hc : Collected ok m (t.registerAll name p.actor lib.manifest.provides) lib.manifest.aclAllow allowed) :
      Changes ok m t (.load name path) (.ok true, m') (t.loaded name lib.manifest p.actor allowed)
  | reloaded {name path : Bytes} {old p : LoadedPlugin} {lib : Library} {allowed : List (Option Address)}
      {m' : PluginManager} (hold : m.plugins[name]? = some old) (hlib : ok (.openLibrary path) (some lib))
      (hkeep : ∀ service ∈ old.manifest.provides, service ∈ lib.manifest.provides)
      (hregistered : ∀ service ∈ old.manifest.provides, t service ≠ none)
      (hman : p.manifest = lib.manifest) (hp : m'.plugins = m.plugins.insert name p)
      (hc : Collected ok m t lib.manifest.aclAllow allowed) :
      Changes ok m t (.reload name path) (.ok true, m')
        (t.reloaded name old.manifest.provides lib.manifest.provides p.actor allowed)
  | gone {msg : ManagerMsg} {name : Bytes} {old : LoadedPlugin} {done : Outcome × PluginManager}
      (hmsg : msg = .unload name ∨ ∃ source, msg = .down source) (hold : m.plugins[name]? = some old)
      (hp : done.2.plugins = m.plugins.erase name) : Changes ok m t msg done (t.unregisterAll old.manifest.provides)

/-- Nothing is refused by the account of a handler that goes by its own services. -/
structure Owns (strict : Prop) (ok : (e : Op) → e.Reply → Prop) (m : PluginManager) (msg : ManagerMsg) (t : Table) :
    Prop where
  plugins : strict → ∀ (name : Bytes) (p : LoadedPlugin), m.plugins[name]? = some p → Own t name p.manifest.provides
  library : strict → ∀ name path lib, (msg = .load name path ∧ name ∉ m.plugins ∨ msg = .reload name path) →
    ok (.openLibrary path) (some lib) → Own t name lib.manifest.provides

/-- The addresses of the actors in the table of plugins are taken. -/
def Housed (m : PluginManager) (n : ℕ) : Prop :=
  ∀ (name : Bytes) (p : LoadedPlugin), m.plugins[name]? = some p → p.actor.id < n

lemma Housed.mono {n'} (h : m.Housed n) (hn : n ≤ n') : m.Housed n' :=
  fun name p hp => (h name p hp).trans_le hn

lemma Housed.insert (h : m.Housed n) {p}
    (hp : m'.plugins = m.plugins.insert name p) (hactor : p.actor.id < n) : m'.Housed n := by
  intro a q hq
  rw [hp, StringMap.lookup_insert] at hq
  split at hq
  · obtain rfl : p = q := by simpa using hq
    exact hactor
  · exact h a q hq

lemma Housed.erase (h : m.Housed n) (hp : m'.plugins = m.plugins.erase name) : m'.Housed n := by
  intro a q hq
  rw [hp, StringMap.lookup_erase] at hq
  split at hq
  · simp at hq
  · exact h a q hq

lemma Housed.same (h : m.Housed n) (hp : m'.plugins = m.plugins) : m'.Housed n := by
  unfold Housed
  rw [hp]
  exact h

/-! ## Load -/

lemma ends_loadResolved {entry deps} (hown : strict → Own L.table name manifest.provides) :
    Ends (account strict ok) (m.loadResolved name entry manifest deps) (fun done L' => ∃ actor allowed,
        done = (.ok true, { m with plugins := m.plugins.insert name ⟨entry, actor, manifest⟩ }) ∧
        Collected ok m (L.table.registerAll name actor manifest.provides) manifest.aclAllow allowed ∧
        L'.table = L.table.loaded name manifest actor allowed ∧ L.next ≤ L'.next ∧ actor.id < L'.next) L := by
  refine ⟨trivial, ?_⟩
  rintro state _ rfl
  refine (ends_startActor entry deps state).bind fun actor L₁ hstart => ?_
  obtain ⟨hkept, hactor⟩ := hstart
  have hown₁ : strict → Own L₁.table name manifest.provides := by
    rw [hkept.table]
    exact hown
  refine (ends_registerAll hactor hown₁).bind ?_
  rintro _ L₂ ⟨hgrown, htab⟩
  rw [hkept.table] at htab
  cases hacl : manifest.aclAllow with
  | nil =>
    refine ⟨actor, [], rfl, ⟨fun _ h => absurd h (by simp), fun _ _ h => absurd h (by simp)⟩, ?_,
      hkept.next.trans hgrown.next, hactor.trans_le hgrown.next⟩
    rw [htab, Table.loaded, hacl]
    rfl
  | cons a rest =>
    refine (ends_collectAllowed name _ _).bind fun allowed L₃ hcoll => ?_
    obtain ⟨hkept₃, hcoll⟩ := hcoll
    have htab₃ : L₃.table = L.table.registerAll name actor manifest.provides := hkept₃.table.trans htab
    refine (ends_setAclAll fun hst => ?_).bind ?_
    · rw [htab₃]
      exact Own.registerAll (hown hst)
    · rintro _ L₄ ⟨hgrown₄, htab₄⟩
      have hgrown := (hgrown.trans hkept₃.toGrown).trans hgrown₄
      refine ⟨actor, allowed, rfl, htab ▸ hcoll, ?_, hkept.next.trans hgrown.next,
        hactor.trans_le hgrown.next⟩
      rw [htab₄, htab₃, Table.loaded, hacl]
      rfl

lemma ends_load (howns : Owns strict ok m (.load name path) L.table) (hm : m.Housed L.next) :
    Ends (account strict ok) (m.load name path)
      (fun done L' => Changes ok m L.table (.load name path) done L'.table ∧ done.2.Housed L'.next) L := by
  have refused : ∀ o m' L', o ≠ .ok true → m'.plugins = m.plugins →
      Kept L L' → Changes ok m L.table (.load name path) (o, m') L'.table ∧ m'.Housed L'.next := by
    intro o m' L' ho hm' hL
    rw [hL.table]
    exact ⟨.same (fun _ _ _ => ho) hm', (hm.mono hL.next).same hm'⟩
  unfold load
  by_cases hmem : name ∈ m.plugins
  · rw [if_pos hmem]
    exact refused _ _ _ (by simp) rfl (.refl L)
  · rw [if_neg hmem]
    refine ⟨trivial, ?_⟩
    rintro opened _ ⟨hlib, rfl⟩
    cases opened with
    | none => exact refused _ _ _ (by simp) rfl (.refl L)
    | some lib =>
      by_cases hsym : lib.symbols = true
      · simp only [Program.ret_bind, hsym, Bool.not_true, Bool.false_eq_true, if_false]
        refine ⟨trivial, ?_⟩
        rintro entry _ rfl
        split
        · refine ⟨trivial, ?_⟩
          rintro _ _ rfl
          exact refused _ _ _ (by simp) rfl (.refl L)
        · refine (quiet_resolveDeps name lib.manifest.dependencies).ends.bind fun deps L₁ hkept => ?_
          cases deps with
          | error dep =>
            refine ⟨trivial, ?_⟩
            rintro _ _ rfl
            exact refused _ _ _ (by simp) rfl hkept
          | ok deps =>
            have hown : strict → Own L₁.table name lib.manifest.provides := by
              rw [hkept.table]
              exact fun hst => howns.library hst name path lib (.inl ⟨rfl, hmem⟩) hlib
            refine (ends_loadResolved hown).mono ?_
            rintro _ L' ⟨actor, allowed, rfl, hc, htab, hnext, hactor⟩
            rw [hkept.table] at hc htab
            rw [htab]
            refine ⟨.loaded (p := ⟨entry, actor, lib.manifest⟩) hlib hmem rfl rfl ⟨hc.plugins, hc.services⟩, ?_⟩
            exact (hm.mono (hkept.next.trans hnext)).insert (p := ⟨entry, actor, lib.manifest⟩) rfl hactor
      · simp only [Program.ret_bind, hsym, Bool.not_false, if_true]
        exact refused _ _ _ (by simp) rfl (.refl L)

/-! ## Reload -/

/-- What `reload` has when it has paused the proxies. -/
structure Prepared where
  old : LoadedPlugin
  entry : ℕ
  lib : Library
  deps : List Address
  proxies : List Address

/-- `reload` up to the snapshot: with an outcome if it has given up. -/
def prepareReload (m : PluginManager) (name path : Bytes) : Program (Except (Outcome × PluginManager) Prepared) := do
  match m.plugins[name]? with
  | none => return .error (.error (str "Plugin not loaded: " ++ name), m)
  | some old =>
    match ← openLibrary path with
    | none => return .error (.error (str "Failed to load library: " ++ path), m)
    | some lib =>
      if !lib.symbols then return .error (.error (str "Missing create/destroy symbols in: " ++ path), m)
      else
        let entry ← create
        match reloadRefusal name old.manifest lib.manifest with
        | some reason =>
          destroy entry
          return .error (.error reason, m)
        | none =>
          match ← resolveDeps name lib.manifest.dependencies with
          | .error dep =>
            destroy entry
            return .error (.error (str "Missing dep: " ++ dep), m)
          | .ok deps =>
            match ← quiesceAll name [] old.manifest.provides with
            | .error (service, proxies) =>
              resumeAll name old.actor proxies
              destroy entry
              return .error (.error (str "Reload: failed to quiesce proxy for service: " ++ service), m)
            | .ok proxies => return .ok ⟨old, entry, lib, deps, proxies⟩

/-- The rest of `reload`. -/
def finishReload (m : PluginManager) (name : Bytes) :
    Except (Outcome × PluginManager) Prepared → Program (Outcome × PluginManager)
  | .error done => return done
  | .ok p => m.reloadQuiesced name p.old p.entry p.lib.manifest p.deps p.proxies

lemma reload_eq (m : PluginManager) (name path : Bytes) :
    m.reload name path = (m.prepareReload name path).bind (m.finishReload name) := by
  unfold reload prepareReload
  cases m.plugins[name]? with
  | none => rfl
  | some old =>
    refine congrArg (Program.ask _) (funext fun opened => ?_)
    cases opened with
    | none => rfl
    | some lib =>
      by_cases hsym : lib.symbols = true
      · simp only [Program.ret_bind, hsym, Bool.not_true, Bool.false_eq_true, if_false]
        refine congrArg (Program.ask _) (funext fun entry => ?_)
        cases reloadRefusal name old.manifest lib.manifest with
        | some reason => rfl
        | none =>
          simp only [Program.bind_eq, Program.pure_eq, Program.bind_bind]
          refine congrArg ((resolveDeps name lib.manifest.dependencies).bind ·) (funext fun deps => ?_)
          cases deps with
          | error dep => rfl
          | ok deps =>
            simp only [Program.bind_bind]
            refine congrArg ((quiesceAll name [] old.manifest.provides).bind ·) (funext fun result => ?_)
            cases result with
            | ok proxies => rfl
            | error failed =>
              simp only [Program.bind_bind]
              rfl
      · simp only [Program.ret_bind, hsym, Bool.not_false, if_true]
        rfl

/-- A manifest that passes the checks of a reload keeps every service. -/
lemma keeps_of_reloadRefusal {old} (h : reloadRefusal name old manifest = none) :
    ∀ service ∈ old.provides, service ∈ manifest.provides := by
  unfold reloadRefusal at h
  split at h
  · simp at h
  · cases hfind : old.provides.find? (· ∉ manifest.provides) with
    | some service =>
      rw [hfind] at h
      simp at h
    | none =>
      intro service hs
      simpa using List.find?_eq_none.mp hfind service hs

/-- A reload that goes on: the library was opened and keeps the services, and their proxies are paused. -/
structure Prepared.Ready (strict : Prop) (ok : (e : Op) → e.Reply → Prop) (m : PluginManager) (name path : Bytes)
    (L : Ledger) (p : Prepared) (L' : Ledger) : Prop where
  old : m.plugins[name]? = some p.old
  library : ok (.openLibrary path) (some p.lib)
  keep : ∀ service ∈ p.old.manifest.provides, service ∈ p.lib.manifest.provides
  registered : ∀ service ∈ p.old.manifest.provides, L.table service ≠ none
  table : L'.table = L.table.pauseAll p.old.manifest.provides
  homes : List.Forall₂ (fun proxy service => L'.home proxy = some service) p.proxies p.old.manifest.provides
  held : ∀ proxy ∈ p.proxies, L'.held proxy = true
  owner : strict → ∀ proxy ∈ p.proxies, L'.owner proxy = some name
  next : L.next ≤ L'.next

lemma ends_prepareReload (howns : Owns strict ok m (.reload name path) L.table) (hm : m.Housed L.next) :
    Ends (account strict ok) (m.prepareReload name path) (fun result L' => (∀ done, result = .error done →
          Changes ok m L.table (.reload name path) done L'.table ∧ done.2.Housed L'.next ∧ done.1 ≠ .ok true) ∧
        ∀ p, result = .ok p → p.Ready strict ok m name path L L') L := by
  have refused : ∀ reason L', Kept L L' →
      ∀ result : Except (Outcome × PluginManager) Prepared, result = .error (.error reason, m) →
      (∀ done, result = .error done →
        Changes ok m L.table (.reload name path) done L'.table ∧ done.2.Housed L'.next ∧ done.1 ≠ .ok true) ∧
      ∀ p, result = .ok p → p.Ready strict ok m name path L L' := by
    rintro reason L' hL _ rfl
    refine ⟨?_, fun p hp => by simp at hp⟩
    rintro _ ⟨⟩
    rw [hL.table]
    exact ⟨.same (fun _ _ _ => by simp) rfl, hm.mono hL.next, by simp⟩
  unfold prepareReload
  cases hold : m.plugins[name]? with
  | none => exact refused _ _ (.refl L) _ rfl
  | some old =>
    refine ⟨trivial, ?_⟩
    rintro opened _ ⟨hlib, rfl⟩
    cases opened with
    | none => exact refused _ _ (.refl L) _ rfl
    | some lib =>
      by_cases hsym : lib.symbols = true
      · simp only [Program.ret_bind, hsym, Bool.not_true, Bool.false_eq_true, if_false]
        refine ⟨trivial, ?_⟩
        rintro entry _ rfl
        cases hrefusal : reloadRefusal name old.manifest lib.manifest with
        | some reason =>
          refine ⟨trivial, ?_⟩
          rintro _ _ rfl
          exact refused _ _ (.refl L) _ rfl
        | none =>
          refine (quiet_resolveDeps name lib.manifest.dependencies).ends.bind fun deps L₁ hkept => ?_
          cases deps with
          | error dep =>
            refine ⟨trivial, ?_⟩
            rintro _ _ rfl
            exact refused _ _ hkept _ rfl
          | ok deps =>
            refine (ends_quiesceAll name old.manifest.provides L₁ [] []
              (hkept.table ▸ fun hst => howns.plugins hst name old hold) .nil (fun _ hp => absurd hp (by simp))
              fun _ _ hp => absurd hp (by simp)).bind fun result L₂ hres => ?_
            obtain ⟨hgrown, howner, done, late, hstopped⟩ := hres
            have hnext : L.next ≤ L₂.next := hkept.next.trans hgrown.next
            have htab := hkept.table ▸ hstopped.table
            cases result with
            | ok proxies =>
              refine ⟨fun _ h => by simp at h, fun p hp => ?_⟩
              obtain rfl := Except.ok.inj hp
              obtain ⟨rfl, rfl, hheld, hreg⟩ := hstopped.all proxies rfl
              refine ⟨hold, hlib, keeps_of_reloadRefusal hrefusal, hkept.table ▸ hreg, ?_,
                hstopped.homes, hheld, howner, hnext⟩
              rw [htab, List.append_nil]
            | error failed =>
              obtain ⟨service, proxies⟩ := failed
              refine (ends_resumeAll name old.actor proxies L₂ done ((hm name old hold).trans_le hnext)
                hstopped.homes howner).bind ?_
              rintro _ L₃ ⟨hnext₃, htab₃⟩
              refine ⟨trivial, ?_⟩
              rintro _ _ rfl
              refine ⟨fun result hres => ?_, fun _ h => by simp at h⟩
              obtain rfl := Except.error.inj hres
              rw [htab₃, htab]
              exact ⟨.givenUp hold rfl rfl hstopped.within hstopped.failed,
                hm.mono (hnext.trans hnext₃.ge), by simp⟩
      · simp only [Program.ret_bind, hsym, Bool.not_false, if_true]
        exact refused _ _ (.refl L) _ rfl

lemma ends_reloadQuiesced {p : Prepared} {L₀ : Ledger}
    (hready : p.Ready strict ok m name path L₀ L) (hm : m.Housed L.next)
    (hown : strict → Own L.table name p.lib.manifest.provides) :
    Ends (account strict ok) (m.reloadQuiesced name p.old p.entry p.lib.manifest p.deps p.proxies)
      (fun done L' => Changes ok m L₀.table (.reload name path) done L'.table ∧ done.2.Housed L'.next) L := by
  refine (quiet_saveState p.old.actor).ends.bind fun state L₁ hkept₁ => ?_
  refine (ends_startActor p.entry p.deps state).bind fun newActor L₂ hstart => ?_
  obtain ⟨hkept₂, hactor⟩ := hstart
  refine (ends_collectAllowed name p.lib.manifest.aclAllow L₂).bind fun allowed L₃ hcoll => ?_
  obtain ⟨hkept₃, hc⟩ := hcoll
  have hkept₂ := hkept₁.trans hkept₂
  have hkept := hkept₂.trans hkept₃
  refine (ends_switchServices (hactor.trans_le hkept₃.next) fun hst => ?_).bind ?_
  · rw [hkept.table]
    exact hown hst
  · rintro _ L₄ ⟨hgrown₄, htab₄⟩
    have hgrown := hkept.toGrown.trans hgrown₄
    have hactor₄ := hactor.trans_le (hkept₃.next.trans hgrown₄.next)
    refine (ends_resumeAll name newActor p.proxies L₄ p.old.manifest.provides hactor₄
      (hready.homes.imp fun proxy service h => hgrown.home proxy service h)
      fun hst proxy hp => hgrown.owner proxy name (hready.owner hst proxy hp)).bind ?_
    rintro _ L₅ ⟨hnext₅, htab₅⟩
    refine ⟨trivial, ?_⟩
    rintro _ _ rfl
    show Changes ok m L₀.table _ _ L₅.table ∧ _
    rw [htab₅, htab₄, hkept.table, hready.table]
    refine ⟨.reloaded (p := ⟨p.entry, newActor, p.lib.manifest⟩) hready.old hready.library hready.keep
      hready.registered rfl rfl ⟨hc.plugins, fun hall service hs hreg => hc.services hall service hs ?_⟩, ?_⟩
    · rw [hkept₂.table, hready.table]
      exact Table.pauseAll_ne_none.mpr hreg
    · exact (hm.mono (hgrown.next.trans hnext₅.ge)).insert (p := ⟨p.entry, newActor, p.lib.manifest⟩) rfl
        (hactor₄.trans_le hnext₅.ge)

lemma ends_reload (howns : Owns strict ok m (.reload name path) L.table) (hm : m.Housed L.next) :
    Ends (account strict ok) (m.reload name path)
      (fun done L' => Changes ok m L.table (.reload name path) done L'.table ∧ done.2.Housed L'.next) L := by
  rw [reload_eq]
  refine (ends_prepareReload howns hm).bind ?_
  rintro (done | p) L₁ ⟨hfail, hready⟩
  · exact ⟨(hfail done rfl).1, (hfail done rfl).2.1⟩
  · have hready := hready p rfl
    refine ends_reloadQuiesced hready (hm.mono hready.next) fun hst => ?_
    rw [hready.table]
    exact (howns.library hst name path p.lib (.inr rfl) hready.library).pauseAll

/-! ## Unload and the end of an actor -/

lemma ends_unload (howns : Owns strict ok m (.unload name) L.table) (hm : m.Housed L.next) :
    Ends (account strict ok) (m.unload name)
      (fun done L' => Changes ok m L.table (.unload name) done L'.table ∧ done.2.Housed L'.next) L := by
  unfold unload
  cases hold : m.plugins[name]? with
  | none => exact ⟨.same (fun _ _ h => by simp at h) rfl, hm⟩
  | some old =>
    have hown := fun hst => howns.plugins hst name old hold
    refine (ends_quiesceEach name old.manifest.provides L hown).bind fun _ L₁ hpaused => ?_
    obtain ⟨hgrown₁, paused, hsub, htab₁⟩ := hpaused
    refine (quiet_saveState old.actor).ends.bind fun _ L₂ hkept₂ => ?_
    have htab₂ : L₂.table = L.table.pauseAll paused := hkept₂.table.trans htab₁
    refine (ends_unregisterAll fun hst => ?_).bind ?_
    · rw [htab₂]
      exact (hown hst).pauseAll
    · rintro _ L₃ ⟨hnext₃, htab₃⟩
      rw [htab₂, Table.unregisterAll_pauseAll hsub] at htab₃
      -- the rest of the handler only sends to plugin actors
      have hgone : ∀ L' : Ledger, Kept L₃ L' → ∀ m' : PluginManager, m'.plugins = m.plugins.erase name →
          Changes ok m L.table (.unload name) (.ok true, m') L'.table ∧ m'.Housed L'.next := by
        intro L' hL' m' hm'
        rw [hL'.table, htab₃]
        have hnext : L.next ≤ L'.next := by
          refine (hgrown₁.next.trans hkept₂.next).trans ?_
          rw [← hnext₃]
          exact hL'.next
        exact ⟨.gone (.inl rfl) hold hm', (hm.mono hnext).erase hm'⟩
      split
      · refine (quiet_tellGone _ _).ends.bind fun _ L₄ hkept₄ => ⟨trivial, ?_⟩
        rintro _ _ rfl
        exact hgone _ hkept₄ _ rfl
      · refine ⟨trivial, ?_⟩
        rintro _ _ rfl
        exact hgone _ (.refl _) _ rfl

lemma ends_down {source} (howns : Owns strict ok m (.down source) L.table) (hm : m.Housed L.next) :
    Ends (account strict ok) (m.down source)
      (fun done L' => Changes ok m L.table (.down source) done L'.table ∧ done.2.Housed L'.next) L := by
  unfold down
  split
  · refine ⟨trivial, ?_⟩
    rintro _ _ rfl
    exact ⟨.same (fun _ _ h => by simp at h) rfl, hm⟩
  · split
    · rename_i name plugin hfind
      have hold : m.plugins[name]? = some plugin :=
        Std.ExtTreeMap.mem_toList_iff_getElem?_eq_some.mp (List.mem_of_find?_eq_some hfind)
      refine (ends_unregisterAll fun hst => howns.plugins hst name plugin hold).bind ?_
      rintro _ L₁ ⟨hnext, htab⟩
      refine ⟨trivial, ?_⟩
      rintro _ _ rfl
      show Changes ok m L.table _ _ L₁.table ∧ _
      rw [htab]
      exact ⟨.gone (.inr ⟨source, rfl⟩) hold rfl, (hm.mono hnext.ge).erase rfl⟩
    · exact ⟨.same (fun _ _ h => by simp at h) rfl, hm⟩

/-- **The handlers.** -/
theorem handler_ends {msg} (howns : Owns strict ok m msg L.table) (hm : m.Housed L.next) :
    Ends (account strict ok) (m.handler msg)
      (fun done L' => Changes ok m L.table msg done L'.table ∧ done.2.Housed L'.next) L := by
  cases msg with
  | load name path => exact ends_load howns hm
  | reload name path => exact ends_reload howns hm
  | unload name => exact ends_unload howns hm
  | down source => exact ends_down howns hm

end PluginManager

end Caf.Plugin
