import GeoPolicy.CommandLine.Disk
import Mathlib.Data.List.Basic
import Mathlib.Tactic.SplitIfs

/-!
# Disks are file systems

A disk in memory keeps the laws of a file system. No file is a directory, so where paths lead does
not depend on the files that are there: disks that have the same directories, devices and links, and
take files in the same places, lead all paths to the same places.

## Main definitions

* `CommandLine.Disk.fixed?` — an entry that is no file.
* `CommandLine.Disk.SameTree` — disks that differ in their files alone.
-/

namespace GeoPolicy

theorem bind_eq_ok_iff {ε α β : Type} {x : Except ε α} {f : α → Except ε β} {b : β} :
    (x >>= f) = .ok b ↔ ∃ a, x = .ok a ∧ f a = .ok b := by
  cases x <;> simp [bind, Except.bind]

namespace CommandLine

theorem Device.place_ne_file {φ : Type} (device : Device) (file : φ) :
    device.place ≠ .file file := by
  cases device <;> simp [place]

namespace Disk

/-! ## Entries -/

theorem lookup_filter_ne (entries : List (List String × Entry)) {steps other : List String}
    (h : other ≠ steps) : (entries.filter (·.1 ≠ steps)).lookup other = entries.lookup other := by
  induction entries with
  | nil => rfl
  | cons entry entries ih =>
    obtain ⟨key, entry⟩ := entry
    by_cases hkey : key = steps
    · subst hkey
      rw [List.filter_cons_of_neg (by simp), ih, List.lookup_cons, beq_false_of_ne h]
    · rw [List.filter_cons_of_pos (by simpa using hkey), List.lookup_cons, List.lookup_cons, ih]

theorem get?_insert (d : Disk) (steps other : List String) (content : ByteArray) :
    (d.insert steps content).get? other =
      if other = steps then some (.file content) else d.get? other := by
  rw [get?, insert, List.lookup_cons]
  by_cases h : other = steps
  · rw [if_pos h, beq_iff_eq.2 h]
  · rw [if_neg h, beq_false_of_ne h]
    exact lookup_filter_ne d.entries h

theorem content?_insert (d : Disk) (steps other : List String) (content : ByteArray) :
    (d.insert steps content).content? other =
      if other = steps then some content else d.content? other := by
  rw [content?, get?_insert]
  split_ifs <;> rfl

/-- An entry that is no file. -/
def fixed? (d : Disk) (steps : List String) : Option Entry :=
  match d.get? steps with
  | some (.file _) => none
  | entry => entry

theorem takes_eq_true_iff {d : Disk} {steps : List String} :
    d.takes steps = true ↔ (∃ content, d.get? steps = some (.file content)) ∨
      d.get? steps = none ∧ d.get? steps.dropLast = some (.directory false) := by
  rw [takes]
  constructor
  · intro h
    split at h
    · next content hfile => exact .inl ⟨content, hfile⟩
    · next hnone hdirectory => exact .inr ⟨hnone, hdirectory⟩
    · cases h
  · rintro (⟨content, hfile⟩ | ⟨hnone, hdirectory⟩)
    · rw [hfile]
    · rw [hnone, hdirectory]

theorem fixed?_eq_none_of_takes {d : Disk} {steps : List String} (h : d.takes steps = true) :
    d.fixed? steps = none := by
  obtain ⟨content, hfile⟩ | ⟨hnone, -⟩ := takes_eq_true_iff.1 h
  · rw [fixed?, hfile]
  · rw [fixed?, hnone]

/-! ## Disks with the same tree -/

/-- Disks that differ in their files alone, and take files in the same places. -/
structure SameTree (d e : Disk) : Prop where
  current : d.current = e.current
  fixed? : ∀ steps, d.fixed? steps = e.fixed? steps
  takes : ∀ steps, d.takes steps = e.takes steps

/-- A file that can be written does not change the tree. -/
theorem sameTree_insert {d : Disk} {steps : List String} (h : d.takes steps = true)
    (content : ByteArray) : SameTree d (d.insert steps content) := by
  refine ⟨rfl, fun other => ?_, fun other => ?_⟩
  · by_cases hother : other = steps
    · subst hother
      rw [fixed?_eq_none_of_takes h, fixed?, get?_insert, if_pos rfl]
    · rw [fixed?, fixed?, get?_insert, if_neg hother]
  · rw [Bool.eq_iff_iff]
    by_cases hother : other = steps
    · subst hother
      have hfile : (d.insert other content).get? other = some (.file content) := by
        rw [get?_insert, if_pos rfl]
      exact iff_of_true h (takes_eq_true_iff.2 (.inl ⟨content, hfile⟩))
    · have hdirectory : (d.insert steps content).get? other.dropLast = some (.directory false) ↔
          d.get? other.dropLast = some (.directory false) := by
        rw [get?_insert]
        split_ifs with hparent
        · have hfixed := fixed?_eq_none_of_takes h
          rw [← hparent, fixed?] at hfixed
          constructor
          · intro h
            cases h
          · intro h
            rw [h] at hfixed
            cases hfixed
        · rfl
      rw [takes_eq_true_iff, takes_eq_true_iff, hdirectory, get?_insert, if_neg hother]

namespace SameTree

variable {d e : Disk}

theorem symm (h : SameTree d e) : SameTree e d :=
  ⟨h.current.symm, fun steps => (h.fixed? steps).symm, fun steps => (h.takes steps).symm⟩

/-- An entry that is no file is the same on both disks. -/
theorem get?_of_ne_file (h : SameTree d e) {steps : List String} {entry : Entry}
    (hentry : d.get? steps = some entry) (hfile : ∀ content, entry ≠ .file content) :
    e.get? steps = some entry := by
  have hfixed : d.fixed? steps = some entry := by
    cases entry with
    | file content => exact absurd rfl (hfile content)
    | directory | device | link => rw [Disk.fixed?, hentry]
  rw [h.fixed?, Disk.fixed?] at hfixed
  split at hfixed
  · cases hfixed
  · exact hfixed

theorem isDirectory_of_isDirectory (h : SameTree d e) {steps : List String}
    (hdirectory : d.isDirectory steps = true) : e.isDirectory steps = true := by
  unfold Disk.isDirectory at hdirectory
  split at hdirectory
  · next isSealed hentry =>
    rw [Disk.isDirectory, h.get?_of_ne_file hentry (by simp)]
  · cases hdirectory

theorem isDirectory (h : SameTree d e) (steps : List String) :
    d.isDirectory steps = e.isDirectory steps :=
  Bool.eq_iff_iff.2 ⟨h.isDirectory_of_isDirectory, h.symm.isDirectory_of_isDirectory⟩

theorem target (h : SameTree d e) (here : List String) (name : String) :
    d.target here name = e.target here name := by
  unfold Disk.target
  split
  · next steps hlink => rw [h.get?_of_ne_file hlink (by simp)]
  · next hnot =>
    split
    · next steps hlink => exact absurd (h.symm.get?_of_ne_file hlink (by simp)) (hnot steps)
    · rfl

theorem resolve (h : SameTree d e) (here : List String) (step : String) :
    d.resolve here step = e.resolve here step := by
  rw [Disk.resolve, Disk.resolve, h.isDirectory, h.target]

end SameTree

/-! ## Walks -/

/-- Whether a path can end at an entry. -/
def IsEnd : Option Entry → Prop
  | some (.directory _) | some (.file _) | some (.device _) => True
  | some (.link _) | none => False

theorem enter_eq_ok_iff {d : Disk} {here next : List String} {step : String} :
    d.enter here step = .ok next ↔ d.resolve here step = .ok next ∧ IsEnd (d.get? next) := by
  rw [enter, bind_eq_ok_iff]
  constructor
  · rintro ⟨found, hfound, h⟩
    split at h
    case h_4 | h_5 => cases h
    all_goals
      next hentry =>
      obtain rfl := Except.ok.inj h
      rw [hentry]
      exact ⟨hfound, trivial⟩
  · rintro ⟨hfound, hend⟩
    refine ⟨next, hfound, ?_⟩
    split
    · rfl
    · rfl
    · rfl
    · next hentry => simp [hentry, IsEnd] at hend
    · next hentry => simp [hentry, IsEnd] at hend

theorem isDirectory_eq_true_iff {d : Disk} {steps : List String} :
    d.isDirectory steps = true ↔ ∃ isSealed, d.get? steps = some (.directory isSealed) := by
  rw [isDirectory]
  constructor
  · intro h
    split at h
    · next isSealed hentry => exact ⟨isSealed, hentry⟩
    · cases h
  · rintro ⟨isSealed, hentry⟩
    rw [hentry]

theorem isDirectory_of_resolve {d : Disk} {here next : List String} {step : String}
    (h : d.resolve here step = .ok next) : d.isDirectory here = true := by
  by_contra hnot
  rw [resolve, if_pos (by simpa using hnot)] at h
  cases h

theorem isDirectory_of_foldlM_enter {d : Disk} {steps here last : List String}
    (h : steps.foldlM d.enter here = .ok last) (hlast : d.isDirectory last = true) :
    d.isDirectory here = true := by
  cases steps with
  | nil =>
    obtain rfl := Except.ok.inj h
    exact hlast
  | cons step steps =>
    rw [List.foldlM_cons, bind_eq_ok_iff] at h
    obtain ⟨next, hstep, -⟩ := h
    exact isDirectory_of_resolve (enter_eq_ok_iff.1 hstep).1

namespace SameTree

variable {d e : Disk}

/-- A step to a directory leads there on both disks. -/
theorem enter (h : SameTree d e) {here next : List String} {step : String}
    (hstep : d.enter here step = .ok next) (hnext : d.isDirectory next = true) :
    e.enter here step = .ok next := by
  obtain ⟨isSealed, hentry⟩ := isDirectory_eq_true_iff.1 hnext
  refine enter_eq_ok_iff.2 ⟨(h.resolve here step).symm.trans (enter_eq_ok_iff.1 hstep).1, ?_⟩
  rw [h.get?_of_ne_file hentry (by simp)]
  trivial

theorem foldlM_enter (h : SameTree d e) {steps here last : List String}
    (hsteps : steps.foldlM d.enter here = .ok last) (hlast : d.isDirectory last = true) :
    steps.foldlM e.enter here = .ok last := by
  induction steps generalizing here with
  | nil => exact hsteps
  | cons step steps ih =>
    rw [List.foldlM_cons, bind_eq_ok_iff] at hsteps ⊢
    obtain ⟨next, hstep, hrest⟩ := hsteps
    -- All steps but the last lead to directories, since other steps follow them.
    exact ⟨next, h.enter hstep (isDirectory_of_foldlM_enter hrest hlast), ih hrest⟩

end SameTree

theorem follow_eq_ok_iff {d : Disk} {path : String} {steps last : List String} :
    d.follow path steps = .ok last ↔ path ≠ "" ∧ path.utf8ByteSize ≤ pathLimit ∧
      steps.foldlM d.enter (d.start path) = .ok last := by
  rw [follow]
  by_cases hpath : path = ""
  · simp [hpath]
  · by_cases hsize : pathLimit < path.utf8ByteSize
    · simp [hpath, hsize, Nat.not_le.2 hsize]
    · simp [hpath, hsize, Nat.not_lt.1 hsize]

theorem SameTree.follow {d e : Disk} (h : SameTree d e) {path : String} {steps last : List String}
    (hfollow : d.follow path steps = .ok last) (hlast : d.isDirectory last = true) :
    e.follow path steps = .ok last := by
  obtain ⟨hpath, hsize, hsteps⟩ := follow_eq_ok_iff.1 hfollow
  have hstart : d.start path = e.start path := by rw [start, start, h.current]
  exact follow_eq_ok_iff.2 ⟨hpath, hsize, hstart ▸ h.foldlM_enter hsteps hlast⟩

/-! ## Places -/

theorem writableIn_eq_ok_iff {d : Disk} {here steps : List String} {name : String} :
    d.writableIn here name = .ok steps ↔ d.resolve here name = .ok steps ∧
      ((∃ device, d.get? steps = some (.device device)) ∨ d.takes steps = true) := by
  rw [writableIn, bind_eq_ok_iff]
  constructor
  · rintro ⟨found, hfound, h⟩
    split at h
    · next device hentry =>
      obtain rfl := Except.ok.inj h
      exact ⟨hfound, .inl ⟨device, hentry⟩⟩
    · cases h
    all_goals
      split at h
      · next htakes =>
        obtain rfl := Except.ok.inj h
        exact ⟨hfound, .inr htakes⟩
      · cases h
  · rintro ⟨hfound, ⟨device, hentry⟩ | htakes⟩
    · refine ⟨steps, hfound, ?_⟩
      rw [hentry]
      rfl
    · refine ⟨steps, hfound, ?_⟩
      obtain ⟨content, hentry⟩ | ⟨hentry, -⟩ := takes_eq_true_iff.1 htakes
      · rw [hentry]
        exact if_pos htakes
      · rw [hentry]
        exact if_pos htakes

/-- What is written at a path is written under the last name in the directory before it. -/
theorem writable_eq_ok_iff {d : Disk} {path : String} {steps : List String} :
    d.writable path = .ok steps ↔ ∃ here name,
      d.follow path (Disk.steps path).dropLast = .ok here ∧
        (Disk.steps path).getLast? = some name ∧ d.isDirectory here = true ∧
        endsWithSlash path = false ∧ d.writableIn here name = .ok steps := by
  rw [writable, bind_eq_ok_iff]
  cases hname : (Disk.steps path).getLast? with
  | none =>
    constructor
    · rintro ⟨_, _, h⟩
      cases h
    · rintro ⟨_, _, _, h, -⟩
      cases h
  | some name =>
    refine exists_congr fun here => ?_
    dsimp only
    cases hdirectory : d.isDirectory here <;> cases hslash : endsWithSlash path <;> simp

theorem SameTree.writable {d e : Disk} (h : SameTree d e) {path : String} {steps : List String}
    (hwritable : d.writable path = .ok steps) : e.writable path = .ok steps := by
  obtain ⟨here, name, hfollow, hname, hdirectory, hslash, hsteps⟩ :=
    writable_eq_ok_iff.1 hwritable
  refine writable_eq_ok_iff.2 ⟨here, name, h.follow hfollow hdirectory, hname,
    h.isDirectory here ▸ hdirectory, hslash, ?_⟩
  obtain ⟨hresolve, htakes⟩ := writableIn_eq_ok_iff.1 hsteps
  refine writableIn_eq_ok_iff.2 ⟨(h.resolve here name).symm.trans hresolve, ?_⟩
  exact htakes.imp (fun ⟨device, hdevice⟩ => ⟨device, h.get?_of_ne_file hdevice (by simp)⟩)
    fun htakes => h.takes steps ▸ htakes

/-- All paths lead to the same places on both disks. -/
theorem SameTree.place {d e : Disk} (h : SameTree d e) (path : String) :
    d.place path = e.place path := by
  have hdevice : ∀ steps device, d.get? steps = some (.device device) ↔
      e.get? steps = some (.device device) := fun steps device =>
    ⟨fun hentry => h.get?_of_ne_file hentry (by simp),
      fun hentry => h.symm.get?_of_ne_file hentry (by simp)⟩
  unfold Disk.place
  cases hwritable : d.writable path with
  | ok steps =>
    rw [h.writable hwritable]
    dsimp only
    split
    · next device hentry => rw [(hdevice steps device).1 hentry]
    · next hnot =>
      split
      · next device hentry => exact absurd ((hdevice steps device).2 hentry) (hnot device)
      · rfl
  | error cause =>
    cases hother : e.writable path with
    | ok steps => cases hwritable.symm.trans (h.symm.writable hother)
    | error => rfl

theorem place_eq_file_iff {d : Disk} {path : String} {steps : List String} :
    d.place path = .file steps ↔ d.writable path = .ok steps ∧ d.takes steps = true := by
  rw [place]
  constructor
  · intro h
    split at h
    · cases h
    · next found hwritable =>
      split at h
      · exact absurd h (Device.place_ne_file _ _)
      · next hnot =>
        obtain rfl := Place.file.inj h
        obtain ⟨_, _, -, -, -, -, hsteps⟩ := writable_eq_ok_iff.1 hwritable
        obtain ⟨-, ⟨device, hdevice⟩ | htakes⟩ := writableIn_eq_ok_iff.1 hsteps
        · exact absurd hdevice (hnot device)
        · exact ⟨hwritable, htakes⟩
  · rintro ⟨hwritable, htakes⟩
    rw [hwritable]
    obtain ⟨content, hentry⟩ | ⟨hentry, -⟩ := takes_eq_true_iff.1 htakes
    · simp [hentry]
    · simp [hentry]

theorem write_of_place {d : Disk} {path : String} {steps : List String}
    (h : d.place path = .file steps) (content : ByteArray) :
    d.write path content = (.ok (), d.insert steps content) := by
  obtain ⟨hwritable, htakes⟩ := place_eq_file_iff.1 h
  rw [write, hwritable]
  obtain ⟨old, hentry⟩ | ⟨hentry, -⟩ := takes_eq_true_iff.1 htakes
  · simp [hentry]
  · simp [hentry]

/-- Where there is no file, nothing is kept. -/
theorem write_snd_of_forall_ne {d : Disk} {path : String}
    (h : ∀ steps, d.place path ≠ .file steps) (content : ByteArray) :
    (d.write path content).2 = d := by
  rw [write]
  split
  · rfl
  · next steps hwritable =>
    split
    · rfl
    · next hnot =>
      refine absurd ?_ (h steps)
      rw [place, hwritable]
      dsimp only
      split
      · next device hentry => exact absurd hentry (hnot device)
      · rfl

/-! ## Laws -/

/-- A file is read as it is, and none is read that is not there. -/
theorem read_of_place {d : Disk} {path : String} {steps : List String}
    (h : d.place path = .file steps) :
    d.read path = match d.content? steps with
      | some content => .ok content
      | none => .error .notFound := by
  obtain ⟨hwritable, htakes⟩ := place_eq_file_iff.1 h
  obtain ⟨here, name, hfollow, hname, hdirectory, hslash, hsteps⟩ :=
    writable_eq_ok_iff.1 hwritable
  have hresolve := (writableIn_eq_ok_iff.1 hsteps).1
  obtain ⟨hpath, hsize, hwalk⟩ := follow_eq_ok_iff.1 hfollow
  have hwhole : d.follow path (Disk.steps path) = d.enter here name := by
    rw [follow, if_neg hpath, if_neg (Nat.not_lt.2 hsize),
      ← List.dropLast_append_getLast? name hname, List.foldlM_append, hwalk]
    change [name].foldlM d.enter here = _
    rw [List.foldlM_cons]
    exact bind_pure (d.enter here name)
  rw [Disk.read, hwhole, content?]
  obtain ⟨content, hentry⟩ | ⟨hentry, -⟩ := takes_eq_true_iff.1 htakes
  · have henter : d.enter here name = .ok steps :=
      enter_eq_ok_iff.2 ⟨hresolve, by rw [hentry]; trivial⟩
    rw [henter]
    simp [hentry, hslash, bind, Except.bind, pure, Except.pure]
  · have henter : d.enter here name = .error .notFound := by
      rw [enter, hresolve]
      simp [hentry, bind, Except.bind, throw, throwThe, MonadExceptOf.throw]
    rw [henter, hentry]
    rfl

theorem read_of_content? {d : Disk} {path : String} {steps : List String} {content : ByteArray}
    (h : d.place path = .file steps) (hcontent : d.content? steps = some content) :
    d.read path = .ok content := by
  rw [read_of_place h, hcontent]

theorem sameTree_write (d : Disk) (path : String) (content : ByteArray) :
    SameTree d (d.write path content).2 := by
  by_cases h : ∃ steps, d.place path = .file steps
  · obtain ⟨steps, hplace⟩ := h
    rw [write_of_place hplace]
    exact sameTree_insert (place_eq_file_iff.1 hplace).2 content
  · rw [write_snd_of_forall_ne (not_exists.1 h)]
    exact ⟨rfl, fun _ => rfl, fun _ => rfl⟩

instance : LawfulFileSystem Disk where
  content?_of_read {d path steps content} hplace hread := by
    rw [show FileSystem.read d path = d.read path from rfl, read_of_place hplace] at hread
    change d.content? steps = some content
    split at hread
    · next hcontent => rw [hcontent, Except.ok.inj hread]
    · cases hread
  place_write d path content other := ((sameTree_write d path content).place other).symm
  content?_write {d path steps content} hplace _ := by
    change (d.write path content).2.content? steps = some content
    rw [write_of_place hplace, content?_insert, if_pos rfl]
  content?_write_of_ne {d path steps} content hne := by
    change (d.write path content).2.content? steps = d.content? steps
    by_cases h : ∃ other, d.place path = .file other
    · obtain ⟨other, hplace⟩ := h
      have hother : steps ≠ other := fun heq => hne (heq ▸ hplace)
      rw [write_of_place hplace, content?_insert, if_neg hother]
    · rw [write_snd_of_forall_ne (not_exists.1 h)]

end Disk

end CommandLine

end GeoPolicy
