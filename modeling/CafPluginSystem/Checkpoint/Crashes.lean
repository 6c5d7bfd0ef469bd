import CafPluginSystem.Checkpoint.Format
import CafPluginSystem.EntityStore.Schema
import CafPluginSystem.Library.History
import CafPluginSystem.Library.Machine

/-!
# Checkpoints and crashes

`CheckpointManager` saves the state of a plugin by writing a temporary file, flushing it and renaming it to the file of the
plugin; it restores the state by reading that file.  A save can fail and the process can crash at each of these steps.
What was flushed stays, a rename happens or does not, and whatever the stream had written before may be in the temporary
file.

Plugin names are plain file names, so that a directory is a map from names to contents.

* `Manager.step` — the handlers, step by step, with their failures and crashes.
* `checkpoint` — what a history says the state of a plugin is.
* `checkpoints_atomic` — **in every run a restore returns that state**, and it could be read at every step in between.
-/

namespace Caf.Checkpoint

open EntityStore History StringMap

variable {s : Save}

/-! ## File names -/

/-- `checkpoint_dir_ / (plugin_name + ".ckpt")`. -/
def path (name : Bytes) : Bytes := name ++ str ".ckpt"

def tmpPath (name : Bytes) : Bytes := path name ++ str ".tmp"

/-- The temporary file of a plugin is not the file of any. -/
lemma tmpPath_ne_path (a b : Bytes) : tmpPath a ≠ path b := by
  intro h
  have htmp : (str ".tmp").getLast? = some 112 := by decide
  have hckpt : (str ".ckpt").getLast? = some 116 := by decide
  have hlast := congrArg List.getLast? h
  simp [tmpPath, path, List.getLast?_append, htmp, hckpt] at hlast

/-! ## The manager -/

/-- How far a save has come. -/
inductive Phase where
  | opening
  | writing
  | flushed
  | renamed
deriving DecidableEq, Repr

/-- What has happened: a save has returned or was interrupted by a crash, before or after its rename; a state was
restored, or an exception has left the handler. -/
inductive Entry where
  | returned (s : Save) (ok : Bool)
  | interrupted (s : Save) (renamed : Bool)
  | restored (name : Bytes) (result : Option Bytes)
deriving DecidableEq, Repr

/-- The files, the save that is going on, and what has happened so far. -/
structure Manager where
  disk : StringMap Bytes := ∅
  current : Option (Save × Phase) := none
  log : List Entry := []

inductive Event where
  | save (s : Save)
  | opened
  | notOpened
  | flushed
  /-- Writing or flushing has failed; something may be in the file. -/
  | notFlushed (left : Bytes)
  | renamed
  | notRenamed
  | done
  /-- The process ends and starts again; what was not flushed may be in the file or not. -/
  | crash (left : Bytes)
  | restore (name : Bytes)
deriving DecidableEq, Repr

namespace Manager

/-- `restore_state_atom`. -/
def restore (p : Platform) (m : Manager) (name : Bytes) : Option Bytes :=
  match m.disk[path name]? with
  | none => some []
  | some file => (restoreFile p file).result

/-- The save is over. -/
def leave (m : Manager) (e : Entry) : Manager := { m with current := none, log := m.log ++ [e] }

def write (m : Manager) (file content : Bytes) : Manager := { m with disk := m.disk.insert file content }

/-- `std::filesystem::rename`. -/
def rename (m : Manager) (old new : Bytes) : Option Manager :=
  match m.disk[old]? with
  | none => none
  | some content => some { m with disk := (m.disk.erase old).insert new content }

/-- The steps of `save_state_atom` and the handler `restore_state_atom`.  The data of a request is a vector. -/
def step (p : Platform) (m : Manager) (e : Event) : Option Manager :=
  match m.current, e with
  | none, .save s => if s.data.length ≤ p.vectorMax then some { m with current := some (s, .opening) } else none
  | none, .restore name => some { m with log := m.log ++ [.restored name (m.restore p name)] }
  | none, .crash _ => some m
  | some (s, .opening), .opened => some { m.write (tmpPath s.name) [] with current := some (s, .writing) }
  | some (s, .opening), .notOpened => some (m.leave (.returned s false))
  | some (s, .opening), .crash _ => some (m.leave (.interrupted s false))
  | some (s, .writing), .flushed => some { m.write (tmpPath s.name) (fileOf s) with current := some (s, .flushed) }
  | some (s, .writing), .notFlushed left => some ((m.write (tmpPath s.name) left).leave (.returned s false))
  | some (s, .writing), .crash left => some ((m.write (tmpPath s.name) left).leave (.interrupted s false))
  | some (s, .flushed), .renamed =>
    (m.rename (tmpPath s.name) (path s.name)).map fun m => { m with current := some (s, .renamed) }
  | some (s, .flushed), .notRenamed => some (m.leave (.returned s false))
  | some (s, .flushed), .crash _ => some (m.leave (.interrupted s false))
  | some (s, .renamed), .done => some (m.leave (.returned s true))
  | some (s, .renamed), .crash _ => some (m.leave (.interrupted s true))
  | _, _ => none

end Manager

/-! ## What the state of a plugin is -/

/-- The save that an entry says has taken effect: it was successful, or interrupted after its rename. -/
def Entry.complete : Entry → Option Save
  | .returned s true => some s
  | .interrupted s true => some s
  | _ => none

/-- The data of the last save of a plugin that has taken effect; nothing if there was none. -/
def checkpoint (log : List Entry) (name : Bytes) : Bytes :=
  match (log.filterMap Entry.complete).reverse.find? fun s => s.name = name with
  | none => []
  | some s => s.data

lemma checkpoint_none {e} (h : e.complete = none) (log : List Entry) (name : Bytes) :
    checkpoint (log ++ [e]) name = checkpoint log name := by
  simp [checkpoint, h]

lemma checkpoint_some {e} (h : e.complete = some s) (log : List Entry) (name : Bytes) :
    checkpoint (log ++ [e]) name = if s.name = name then s.data else checkpoint log name := by
  by_cases hname : s.name = name
  · simp [checkpoint, h, hname]
  · simp [checkpoint, h, hname]

/-- A restore has returned what the history says. -/
def Returned : Entry → List Entry → Prop
  | .restored name result, before => result = some (checkpoint before name)
  | _, _ => True

namespace Manager

variable {phase : Phase}

/-- The state of a plugin, by what has happened and by the save that is going on: it counts from its rename on. -/
def expected (m : Manager) (name : Bytes) : Bytes :=
  match m.current with
  | some (s, .renamed) => if s.name = name then s.data else checkpoint m.log name
  | _ => checkpoint m.log name

/-- **The invariant**: the state of every plugin can be read, and what was flushed is in the temporary file. -/
structure Holds (p : Platform) (m : Manager) : Prop where
  readable : ∀ name, m.restore p name = some (m.expected name)
  flushed : ∀ s, m.current = some (s, .flushed) → m.disk[tmpPath s.name]? = some (fileOf s)
  fits : ∀ s phase, m.current = some (s, phase) → s.data.length ≤ p.vectorMax
  returned : Guarded Returned m.log

variable {p : Platform} {m m' : Manager} {e : Event}

/-- A temporary file is not read. -/
lemma restore_write (m : Manager) (a content name : Bytes) :
    (m.write (tmpPath a) content).restore p name = m.restore p name := by
  simp only [restore, write, lookup_insert, if_neg (tmpPath_ne_path a name)]

lemma expected_of_phase (h : m.current = some (s, phase)) (hphase : phase ≠ .renamed)
    (name : Bytes) : m.expected name = checkpoint m.log name := by
  rw [expected, h]
  cases phase with
  | renamed => exact absurd rfl hphase
  | _ => rfl

/-- A save ends without having taken effect. -/
lemma Holds.leave_unchanged (h : Holds p m) (hcur : m.current = some (s, phase))
    (hphase : phase ≠ .renamed) (entry : Entry) (hentry : entry.complete = none) (hfree : ∀ before, Returned entry before)
    {disk} (hdisk : ∀ name, ({ m with disk } : Manager).restore p name = m.restore p name) :
    Holds p (({ m with disk } : Manager).leave entry) where
  readable := by
    intro name
    have hread := h.readable name
    rw [expected_of_phase hcur hphase] at hread
    show ({ m with disk } : Manager).restore p name = some (checkpoint (m.log ++ [entry]) name)
    rw [hdisk, hread, checkpoint_none hentry]
  flushed := by
    intro s' h'
    cases h'
  fits := by
    intro s' phase' h'
    cases h'
  returned := h.returned.snoc (hfree m.log)

/-- A save ends after its rename. -/
lemma Holds.leave_renamed (h : Holds p m) (hcur : m.current = some (s, .renamed)) {entry}
    (hentry : entry.complete = some s) (hfree : ∀ before, Returned entry before) : Holds p (m.leave entry) where
  readable := by
    intro name
    have hread := h.readable name
    rw [expected, hcur] at hread
    show m.restore p name = some (checkpoint (m.log ++ [entry]) name)
    rw [hread, checkpoint_some hentry]
  flushed := by
    intro s' h'
    cases h'
  fits := by
    intro s' phase' h'
    cases h'
  returned := h.returned.snoc (hfree m.log)

/-- A save writes into its temporary file and goes on. -/
lemma Holds.wrote (h : Holds p m) {before} (hcur : m.current = some (s, before))
    (hbefore : before ≠ .renamed) (hphase : phase ≠ .renamed) {content}
    (hcont : phase = .flushed → content = fileOf s) :
    Holds p { m.write (tmpPath s.name) content with current := some (s, phase) } where
  readable := by
    intro name
    have hread := h.readable name
    rw [expected_of_phase hcur hbefore] at hread
    rw [expected_of_phase rfl hphase]
    exact (restore_write m s.name content name).trans hread
  flushed := by
    rintro s' ⟨⟩
    show (m.disk.insert (tmpPath s.name) content)[tmpPath s.name]? = _
    rw [lookup_insert, if_pos rfl, hcont rfl]
  fits := by
    rintro s' phase' ⟨⟩
    exact h.fits s before hcur
  returned := h.returned

/-- The rename puts a complete file in the place of the last one. -/
lemma Holds.rename (h : Holds p m) (hcur : m.current = some (s, .flushed))
    (hrename : m.rename (tmpPath s.name) (path s.name) = some m') :
    Holds p { m' with current := some (s, .renamed) } := by
  rw [Manager.rename, h.flushed s hcur, Option.some.injEq] at hrename
  subst hrename
  refine ⟨?_, ?_, ?_, h.returned⟩
  · intro name
    have hread := h.readable name
    rw [expected_of_phase hcur (by decide)] at hread
    show (match ((m.disk.erase (tmpPath s.name)).insert (path s.name) (fileOf s))[path name]? with
      | none => some [] | some file => (restoreFile p file).result)
      = some (if s.name = name then s.data else checkpoint m.log name)
    rw [lookup_insert]
    by_cases hname : s.name = name
    · subst hname
      rw [if_pos rfl, if_pos rfl]
      exact restoreFile_fileOf p (h.fits s _ hcur)
    · rw [if_neg fun heq : path s.name = path name => hname (List.append_cancel_right heq), if_neg hname, lookup_erase,
        if_neg (tmpPath_ne_path _ _)]
      exact hread
  · rintro s' ⟨⟩
  · rintro s' phase' ⟨⟩
    exact h.fits s _ hcur

lemma expected_idle (h : m.current = none) (name : Bytes) : m.expected name = checkpoint m.log name := by
  rw [expected, h]

/-- Between two saves, an entry that is no save is made. -/
lemma Holds.note (h : Holds p m) (hcur : m.current = none) {entry} (hentry : entry.complete = none)
    (hreturned : Returned entry m.log) : Holds p { m with log := m.log ++ [entry] } where
  readable := by
    intro name
    have hread := h.readable name
    rw [expected_idle hcur] at hread
    rw [expected_idle (m := { m with log := m.log ++ [entry] }) hcur, checkpoint_none hentry]
    exact hread
  flushed := h.flushed
  fits := h.fits
  returned := h.returned.snoc hreturned

/-- A save begins. -/
lemma Holds.begin (h : Holds p m) (hcur : m.current = none) (hfits : s.data.length ≤ p.vectorMax) :
    Holds p { m with current := some (s, .opening) } where
  readable := by
    intro name
    have hread := h.readable name
    rw [expected_idle hcur] at hread
    exact hread
  flushed := by
    rintro s' ⟨⟩
  fits := by
    rintro s' phase' ⟨⟩
    exact hfits
  returned := h.returned

/-- **Every step keeps the invariant.** -/
lemma Holds.step (h : Holds p m) (hstep : m.step p e = some m') : Holds p m' := by
  unfold Manager.step at hstep
  split at hstep
  · next s hcur =>
    split_ifs at hstep with hfits
    cases hstep
    exact h.begin hcur hfits
  · next name hcur =>
    cases hstep
    refine h.note hcur rfl ?_
    rw [Returned, ← expected_idle hcur]
    exact h.readable name
  · cases hstep
    exact h
  · next s hcur =>
    cases hstep
    exact h.wrote hcur (by decide) (by decide) (by simp)
  · next s hcur =>
    cases hstep
    exact h.leave_unchanged hcur (by decide) (.returned s false) rfl (fun _ => trivial) fun _ => rfl
  · next s left hcur =>
    cases hstep
    exact h.leave_unchanged hcur (by decide) (.interrupted s false) rfl (fun _ => trivial) fun _ => rfl
  · next s hcur =>
    cases hstep
    exact h.wrote hcur (by decide) (by decide) fun _ => rfl
  · next s left hcur =>
    cases hstep
    exact h.leave_unchanged hcur (by decide) (.returned s false) rfl (fun _ => trivial) fun name => restore_write m s.name left name
  · next s left hcur =>
    cases hstep
    exact h.leave_unchanged hcur (by decide) (.interrupted s false) rfl (fun _ => trivial) fun name => restore_write m s.name left name
  · next s hcur =>
    obtain ⟨renamed, hrename, rfl⟩ := Option.map_eq_some_iff.mp hstep
    exact h.rename hcur hrename
  · next s hcur =>
    cases hstep
    exact h.leave_unchanged hcur (by decide) (.returned s false) rfl (fun _ => trivial) fun _ => rfl
  · next s left hcur =>
    cases hstep
    exact h.leave_unchanged hcur (by decide) (.interrupted s false) rfl (fun _ => trivial) fun _ => rfl
  · next s hcur =>
    cases hstep
    exact h.leave_renamed hcur rfl fun _ => trivial
  · next s left hcur =>
    cases hstep
    exact h.leave_renamed hcur rfl fun _ => trivial
  · cases hstep

lemma holds_start : Holds p {} where
  readable := by
    intro name
    simp [restore, expected, checkpoint]
  flushed := by
    rintro s ⟨⟩
  fits := by
    rintro s phase ⟨⟩
  returned := Guarded.nil

end Manager

/-- **Checkpoints are crash-atomic.**  In every run from an empty directory, every restore has returned the data of the
last save of the plugin that was successful or interrupted after its rename, and at every step the state of every plugin
can be read. -/
theorem checkpoints_atomic {p : Platform} {es : List Event} {m : Manager}
    (hrun : Machine.run (Manager.step p) {} es = some m) :
    Guarded Returned m.log ∧ ∀ name, m.restore p name = some (m.expected name) := by
  have h : m.Holds p := Machine.run_invariant (fun _ _ _ hm => hm.step) Manager.holds_start hrun
  exact ⟨h.returned, h.readable⟩

namespace Sample

/-- Another state of the plugin `p`, and one of a plugin `q`. -/
def next : Save := { name := str "p", data := [4, 5], timestamp := 6 }

def other : Save := { name := str "q", data := [6], timestamp := 7 }

/-- A save of `p`, a save that is interrupted after its rename, a save of `q` that fails, one of `p` that is interrupted
while it writes, and a restore. -/
def crashing : List Event :=
  [.save saved, .opened, .flushed, .renamed, .done, .save next, .opened, .flushed, .renamed, .crash [],
    .save other, .opened, .notFlushed [1], .save saved, .opened, .crash [67, 75], .restore (str "p")]

def crashed : Manager := (Machine.run (Manager.step platform) {} crashing).get (by decide +kernel)

end Sample

/-- The state of the save that was interrupted after its rename is there. -/
theorem checkpoints_atomic_crashed : Sample.crashed.restore Sample.platform (str "p") = some [4, 5] := by
  have hatomic := (checkpoints_atomic (Option.some_get (x := Machine.run (Manager.step Sample.platform) {} Sample.crashing)
    (by decide +kernel)).symm).2 (str "p")
  have hexp : Sample.crashed.expected (str "p") = [4, 5] := by decide +kernel
  exact hatomic.trans (congrArg some hexp)

end Caf.Checkpoint
