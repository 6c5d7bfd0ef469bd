import CafPluginSystem.Script.Frames
import CafPluginSystem.EntityStore.Schema

/-!
# The script host

The Lua host (`lua_host_plugin.cpp`) runs every script of its directory as a service of its own: a
child actor for each, entered in a table under the service name.  The table is filled when the host
handles `init`.  `on_save` collects the states of the scripts into one byte string, `on_restore`
hands the parts of such a string to the scripts of the table.

The plugin manager starts a host that has a saved state with `restore` and then `init`, after a
load as after a hot reload.

* `restore_before_init` — in this order no script is sent anything but `init`.
* `restored_iff` — so the saved states reach the scripts only when there is none that should have one.
* `restore_after_init` — in the other order every script gets exactly its bytes.
-/

namespace Caf.Script

open EntityStore Std.ExtTreeMap

/-- A regular file of the scripts directory with the extension `.lua`: its path and, when it loads,
the service name that its manifest or else its file name gives. -/
structure ScriptFile where
  path : Bytes
  selfName : Option Bytes
deriving DecidableEq, Repr

/-- What the host sends: to the registry, and to the child with the given number. -/
inductive Sent where
  | register (service : Bytes) (child : ℕ)
  | init (child : ℕ)
  | restore (child : ℕ) (data : Bytes)
deriving DecidableEq, Repr

/-- The host: the table of its scripts (child actor and path by service name), the number of the next
child, and what it has sent. -/
structure Host where
  instances : StringMap (ℕ × Bytes) := ∅
  nextChild : ℕ := 0
  sent : List Sent := []

/-- The lifecycle messages of the plugin manager that the host's hooks handle. -/
inductive LifecycleMsg where
  | init
  | restore (blob : Bytes)
deriving DecidableEq, Repr

namespace Host

/-- `spawn_script`; a script that does not load is logged and skipped. -/
def spawnScript (h : Host) (file : ScriptFile) : Host :=
  match file.selfName with
  | none => h
  | some name =>
    { instances := h.instances.insert name (h.nextChild, file.path)
      nextChild := h.nextChild + 1
      sent := h.sent ++ [.register name h.nextChild, .init h.nextChild] }

/-- `on_init` with the files of the scripts directory, none when the directory does not exist. -/
def onInit (h : Host) (scriptsDir : Option (List ScriptFile)) : Host :=
  match scriptsDir with
  | none => h
  | some files => files.foldl spawnScript h

/-- `on_save`, with the replies of the children to `save_state`; an error or a time-out gives an empty
state. -/
def onSave (h : Host) (reply : ℕ → Option Bytes) : Bytes :=
  h.instances.toList.foldl (fun buf entry => appendFrame buf entry.1 ((reply entry.2.1).getD [])) []

/-- One round of the loop of `on_restore`: the part goes to the script of that name, if there is one. -/
def restoreOne (h : Host) (part : Bytes × Bytes) : Host :=
  match h.instances[part.1]? with
  | some script => { h with sent := h.sent ++ [.restore script.1 part.2] }
  | none => h

def onRestore (h : Host) (blob : Bytes) : Host := (parseFrames blob).foldl restoreOne h

def handle (scriptsDir : Option (List ScriptFile)) (h : Host) : LifecycleMsg → Host
  | .init => h.onInit scriptsDir
  | .restore blob => h.onRestore blob

end Host

/-- What the plugin manager sends to a new host: the saved state unless it is empty, then `init`. -/
def startMessages (blob : Bytes) : List LifecycleMsg :=
  (if blob = [] then [] else [.restore blob]) ++ [.init]

/-- A freshly loaded or reloaded host with its first messages handled. -/
def restarted (scriptsDir : Option (List ScriptFile)) (blob : Bytes) : Host :=
  (startMessages blob).foldl (Host.handle scriptsDir) {}

/-- Every script of both hosts under the same service name was sent exactly what it had saved. -/
def Restored (old : Host) (reply : ℕ → Option Bytes) (new : Host) : Prop :=
  ∀ (name : Bytes) (before after : ℕ × Bytes),
    old.instances[name]? = some before → new.instances[name]? = some after →
    Sent.restore after.1 ((reply before.1).getD []) ∈ new.sent

/-! ## Restoring an empty table -/

variable {h : Host}

lemma onRestore_empty (hempty : h.instances = ∅) (blob : Bytes) : h.onRestore blob = h := by
  unfold Host.onRestore
  induction parseFrames blob with
  | nil => rfl
  | cons part parts ih => simpa [Host.restoreOne, hempty] using ih

variable {scriptsDir : Option (List ScriptFile)}

/-- `on_init` sends no state. -/
lemma onInit_restore {child : ℕ} {data : Bytes} :
    Sent.restore child data ∈ (h.onInit scriptsDir).sent ↔ Sent.restore child data ∈ h.sent := by
  cases scriptsDir with
  | none => rfl
  | some files =>
    unfold Host.onInit
    simp only
    induction files generalizing h with
    | nil => rfl
    | cons file files ih =>
      rw [List.foldl_cons, ih, Host.spawnScript]
      cases file.selfName with
      | none => rfl
      | some name => simp

/-- The first messages leave the host as `init` alone would: the state that arrives before finds an empty table. -/
lemma restarted_eq (scriptsDir : Option (List ScriptFile)) (blob : Bytes) :
    restarted scriptsDir blob = ({} : Host).onInit scriptsDir := by
  unfold restarted startMessages
  by_cases hb : blob = []
  · simp [hb, Host.handle]
  · simp [hb, Host.handle, onRestore_empty (h := {}) rfl]

/-- **Restore before init.**  No script is sent any state. -/
lemma restore_before_init (scriptsDir : Option (List ScriptFile)) (blob : Bytes) (child : ℕ) (data : Bytes) :
    Sent.restore child data ∉ (restarted scriptsDir blob).sent := by
  rw [restarted_eq, onInit_restore]
  simp

/-- The service name of a script that loads. -/
def Provides (scriptsDir : Option (List ScriptFile)) (name : Bytes) : Prop :=
  ∃ files, scriptsDir = some files ∧ ∃ file ∈ files, file.selfName = some name

lemma mem_spawnScript {file : ScriptFile} {name : Bytes} :
    name ∈ (h.spawnScript file).instances ↔ name ∈ h.instances ∨ file.selfName = some name := by
  unfold Host.spawnScript
  cases file.selfName with
  | none => simp
  | some n =>
    rw [StringMap.mem_insert, Option.some.injEq]
    exact or_comm

/-- After `init` the table has the scripts that loaded. -/
lemma mem_restarted {blob name : Bytes} :
    name ∈ (restarted scriptsDir blob).instances ↔ Provides scriptsDir name := by
  rw [restarted_eq]
  cases scriptsDir with
  | none => simp [Host.onInit, Provides]
  | some files =>
    have hfold : ∀ (files : List ScriptFile) (h : Host),
        name ∈ (files.foldl Host.spawnScript h).instances ↔
          name ∈ h.instances ∨ ∃ file ∈ files, file.selfName = some name := by
      intro files
      induction files with
      | nil => simp
      | cons file files ih =>
        intro h
        rw [List.foldl_cons, ih, mem_spawnScript, or_assoc]
        simp
    simpa [Host.onInit, Provides] using hfold files {}

/-- **Script states over a restart.**  For every saving host, all replies of its scripts and every scripts
directory of the new host: all scripts of both hosts get back what they saved exactly when no script of the
saving host has its service name provided in the directory. -/
theorem restored_iff (old : Host) (reply : ℕ → Option Bytes) (scriptsDir : Option (List ScriptFile)) :
    Restored old reply (restarted scriptsDir (old.onSave reply)) ↔
      ∀ name, Provides scriptsDir name → name ∉ old.instances := by
  constructor
  · intro h name hnew hold
    obtain ⟨before, hb⟩ := Option.isSome_iff_exists.mp (mem_iff_isSome_getElem?.mp hold)
    obtain ⟨after, ha⟩ := Option.isSome_iff_exists.mp
      (mem_iff_isSome_getElem?.mp (mem_restarted.mpr hnew))
    exact restore_before_init _ _ _ _ (h name before after hb ha)
  · intro h name before after hb ha
    have hnew : name ∈ (restarted scriptsDir (old.onSave reply)).instances :=
      mem_iff_isSome_getElem?.mpr (by simp [ha])
    exact absurd (mem_iff_isSome_getElem?.mpr (by simp [hb])) (h name (mem_restarted.mp hnew))

namespace Sample

/-- One script that counts. -/
def scripts : List ScriptFile := [{ path := str "counter.lua", selfName := some (str "counter") }]

def running : Host := restarted (some scripts) []

end Sample

/-- A host with one script saves its state; the restarted host runs the script again but never sends it the
state. -/
theorem restored_counter_lost :
    Sample.running.onSave (fun _ => some (str "42")) = frame (str "counter", str "42") ∧
      str "counter" ∈ (restarted (some Sample.scripts)
        (Sample.running.onSave fun _ => some (str "42"))).instances ∧
      ¬ Restored Sample.running (fun _ => some (str "42"))
        (restarted (some Sample.scripts) (Sample.running.onSave fun _ => some (str "42"))) := by
  refine ⟨by decide +kernel, by decide +kernel, fun h => ?_⟩
  exact restore_before_init _ _ _ _
    (h (str "counter") (0, str "counter.lua") (0, str "counter.lua") (by decide +kernel) (by decide +kernel))

/-! ## Restoring a filled table -/

lemma onSave_eq (h : Host) (reply : ℕ → Option Bytes) :
    h.onSave reply
      = (h.instances.toList.map fun entry => (entry.1, (reply entry.2.1).getD [])).flatMap frame := by
  rw [Host.onSave, List.flatMap_map, List.flatMap_eq_foldl]
  congr
  funext buf entry
  simp [appendFrame, frame]

lemma foldl_restoreOne (parts : List (Bytes × Bytes)) (h : Host) :
    (parts.foldl Host.restoreOne h).instances = h.instances ∧
      h.sent ⊆ (parts.foldl Host.restoreOne h).sent ∧
      ∀ part ∈ parts, ∀ script, h.instances[part.1]? = some script →
        Sent.restore script.1 part.2 ∈ (parts.foldl Host.restoreOne h).sent := by
  induction parts generalizing h with
  | nil => simp
  | cons part parts ih =>
    have hkeep : (h.restoreOne part).instances = h.instances := by
      unfold Host.restoreOne
      split <;> rfl
    have hsub : h.sent ⊆ (h.restoreOne part).sent := by
      unfold Host.restoreOne
      split <;> simp
    obtain ⟨hinst, hsent, hall⟩ := ih (h.restoreOne part)
    refine ⟨hinst.trans hkeep, List.Subset.trans hsub hsent, ?_⟩
    rintro x (_ | ⟨_, hx⟩) script hs
    · refine hsent ?_
      simp [Host.restoreOne, hs]
    · exact hall x hx script (by rw [hkeep]; exact hs)

/-- **Restore after init.**  A host whose table is filled gives every script it has in common with the saving
host exactly the saved bytes, names and states being shorter than 2^32 bytes. -/
theorem restore_after_init {old new : Host} {reply : ℕ → Option Bytes} (hsmall : ∀ entry ∈ old.instances.toList,
      entry.1.length < 2 ^ 32 ∧ ((reply entry.2.1).getD []).length < 2 ^ 32) :
    Restored old reply (new.onRestore (old.onSave reply)) := by
  intro name before after hb ha
  have hparse : parseFrames (old.onSave reply)
      = old.instances.toList.map fun entry => (entry.1, (reply entry.2.1).getD []) := by
    rw [onSave_eq]
    refine parseFrames_flatMap fun e he => ?_
    obtain ⟨entry, hentry, rfl⟩ := List.mem_map.mp he
    exact hsmall entry hentry
  unfold Host.onRestore at ha ⊢
  rw [hparse] at ha ⊢
  obtain ⟨hinst, -, hall⟩ := foldl_restoreOne
    (old.instances.toList.map fun entry => (entry.1, (reply entry.2.1).getD [])) new
  rw [hinst] at ha
  exact hall (name, (reply before.1).getD []) (List.mem_map.mpr ⟨(name, before),
    mem_toList_iff_getElem?_eq_some.mpr hb, rfl⟩) after ha

/-- The counter gets its state back. -/
theorem restore_after_init_counter : Restored Sample.running (fun _ => some (str "42"))
    (Sample.running.onRestore (Sample.running.onSave fun _ => some (str "42"))) :=
  restore_after_init (by decide +kernel)

end Caf.Script
