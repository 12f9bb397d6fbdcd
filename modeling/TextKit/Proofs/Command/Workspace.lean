import TextKit.Command.Workspace
import TextKit.Proofs.Outcome

/-!
# What writing a file changes

Opening a file enters it empty, what is written then goes behind what it holds, and files at other
places are left alone. The way to a file leads through directories, and a directory is one because
of the files under it, so a file that is replaced keeps its directories. The same path therefore
leads to the same place afterwards, and reading it gives what was written.
-/

namespace TextKit.Command.Workspace

variable {w w' : Workspace} {path : String}

/-- A path leads to a place where a file may stand. -/
def Names (w : Workspace) (path : String) (place : Place) : Prop :=
  ∃ directory name, w.locate path = .ok (.entry directory name false) ∧ place = directory ++ [name]

/-- What the last part of a path leads to from the directory before it. -/
def lastTarget (path : Path) (directory : Place) : Target :=
  match path.parts.getLast? with
  | none => .directory
  | some name =>
    if name = ['.'] ∨ name = Place.up then .directory else .entry directory name path.closed

theorem locate_of_length (hempty : path.toList.isEmpty = false)
    (hlength : Text.byteLength path.toList < Path.lengthLimit) :
    w.locate path = ((Path.ofText path.toList).parts.dropLast.foldlM w.descend
      (Path.ofText path.toList).start).map (lastTarget (Path.ofText path.toList)) := by
  rw [locate]
  dsimp only
  rw [if_neg (by simp [hempty]), if_neg (Nat.not_le.mpr hlength)]
  cases hway : (Path.ofText path.toList).parts.dropLast.foldlM w.descend
      (Path.ofText path.toList).start with
  | error fault => rfl
  | ok directory =>
      rw [map_ok, lastTarget]
      change (match (Path.ofText path.toList).parts.getLast? with
        | none => pure Target.directory
        | some name => _) = _
      cases (Path.ofText path.toList).parts.getLast? with
      | none => rfl
      | some name => exact (apply_ite Except.ok _ _ _).symm

/-- A path is followed if it is neither empty nor too long. -/
theorem locate_eq_ok_iff {target : Target} : w.locate path = .ok target ↔
    path.toList.isEmpty = false ∧ Text.byteLength path.toList < Path.lengthLimit ∧
      ∃ directory, (Path.ofText path.toList).parts.dropLast.foldlM w.descend
          (Path.ofText path.toList).start = .ok directory ∧
        lastTarget (Path.ofText path.toList) directory = target := by
  by_cases hempty : path.toList.isEmpty = true
  · have hfault : w.locate path = .error .notFound := by
      rw [locate]
      dsimp only
      rw [if_pos hempty]
      rfl
    simp [hfault, hempty]
  · by_cases hlength : Path.lengthLimit ≤ Text.byteLength path.toList
    · have hfault : w.locate path = .error .nameTooLong := by
        rw [locate]
        dsimp only
        rw [if_neg hempty, if_pos hlength]
        rfl
      simp [hfault, Nat.not_lt.mpr hlength]
    · rw [locate_of_length (by simpa using hempty) (Nat.lt_of_not_le hlength), map_eq_ok_iff]
      simp [hempty, Nat.lt_of_not_le hlength]

section Put

variable (w : Workspace) (place : Place) (content : Bytes)

theorem content?_put_self : (w.put place content).content? place = some content :=
  List.lookup_cons_self

theorem content?_put_of_ne {other : Place} (h : other ≠ place) :
    (w.put place content).content? other = w.content? other := by
  have hother : (other == place) = false := beq_eq_false_iff_ne.mpr h
  have hfilter : ∀ files : List (Place × Bytes),
      (files.filter (·.1 ≠ place)).lookup other = files.lookup other := by
    intro files
    induction files with
    | nil => rfl
    | cons file files ih =>
        by_cases hfile : file.1 = place
        · rw [List.filter_cons_of_neg (by simpa using hfile), ih, List.lookup_cons, hfile, hother]
        · rw [List.filter_cons_of_pos (by simpa using hfile), List.lookup_cons, List.lookup_cons,
            ih]
  rw [content?, put, List.lookup_cons, hother]
  exact hfilter w.files

/-- Entering a file takes no directory away. -/
theorem isDirectory_put {directory : Place} (h : w.isDirectory directory = true) :
    (w.put place content).isDirectory directory = true := by
  rw [isDirectory, Bool.or_eq_true] at h ⊢
  refine h.imp_right fun hfiles => ?_
  obtain ⟨file, hmem, hunder⟩ := List.any_eq_true.mp hfiles
  apply List.any_eq_true.mpr
  by_cases hfile : file.1 = place
  · exact ⟨(place, content), List.mem_cons_self, hfile ▸ hunder⟩
  · exact ⟨file, List.mem_cons_of_mem _ (List.mem_filter.mpr ⟨hmem, by simpa using hfile⟩), hunder⟩

theorem descend_put {directory next : Place} {part : Text}
    (h : w.descend directory part = .ok next) :
    (w.put place content).descend directory part = .ok next := by
  rw [descend] at h ⊢
  by_cases hdot : part = ['.']
  · rw [if_pos hdot] at h ⊢
    exact h
  · by_cases hup : part = Place.up
    · rw [if_neg hdot, if_pos hup] at h ⊢
      exact h
    · rw [if_neg hdot, if_neg hup] at h ⊢
      obtain ⟨⟨⟩, hname, h⟩ := bind_eq_ok_iff.mp h
      refine bind_eq_ok_iff.mpr ⟨(), hname, ?_⟩
      dsimp only at h ⊢
      by_cases hdirectory : w.isDirectory (directory ++ [part]) = true
      · rw [if_pos hdirectory] at h
        rw [if_pos (isDirectory_put w place content hdirectory)]
        exact h
      · rw [if_neg hdirectory] at h
        split at h <;> cases h

theorem foldlM_descend_put {parts : List Text} {start directory : Place}
    (h : parts.foldlM w.descend start = .ok directory) :
    parts.foldlM (w.put place content).descend start = .ok directory := by
  induction parts generalizing start with
  | nil => exact h
  | cons part parts ih =>
      rw [List.foldlM_cons] at h ⊢
      obtain ⟨next, hnext, h⟩ := bind_eq_ok_iff.mp h
      exact bind_eq_ok_iff.mpr ⟨next, descend_put w place content hnext, ih h⟩

/-- Entering a file changes no way that can be gone already. -/
theorem locate_put {target : Target} (h : w.locate path = .ok target) :
    (w.put place content).locate path = .ok target := by
  obtain ⟨hempty, hlength, directory, hway, htarget⟩ := locate_eq_ok_iff.mp h
  exact locate_eq_ok_iff.mpr
    ⟨hempty, hlength, directory, foldlM_descend_put w place content hway, htarget⟩

end Put

/-- What is written to a file goes behind what has been written before. -/
theorem append_put (place : Place) (held content : Bytes) :
    (w.put place held).append place content = w.put place (held ++ content) := by
  have hothers : ∀ file ∈ w.files.filter (·.1 ≠ place), decide (file.1 ≠ place) = true :=
    fun file hfile => (List.mem_filter.mp hfile).2
  rw [append, content?_put_self, Option.getD_some, put, put, put,
    List.filter_cons_of_neg (by simp), List.filter_eq_self.mpr hothers]

/-- A file can be opened where there is no directory. -/
theorem create_eq_ok_iff {place : Place} : w.create path = .ok (place, w') ↔
    ∃ directory name, w.locate path = .ok (.entry directory name false) ∧
      requireName name = .ok () ∧ w.isDirectory (directory ++ [name]) = false ∧
      place = directory ++ [name] ∧ w' = w.put place [] := by
  rw [create]
  constructor
  · intro h
    obtain ⟨target, hlocate, h⟩ := bind_eq_ok_iff.mp h
    cases target with
    | directory => cases h
    | entry directory name closed =>
        cases closed with
        | true => cases h
        | false =>
          obtain ⟨⟨⟩, hname, h⟩ := bind_eq_ok_iff.mp h
          dsimp only at h
          split at h
          · cases h
          · rename_i hdirectory
            cases h
            exact ⟨directory, name, hlocate, hname, Bool.eq_false_iff.mpr hdirectory, rfl, rfl⟩
  · rintro ⟨directory, name, hlocate, hname, hdirectory, rfl, rfl⟩
    refine bind_eq_ok_iff.mpr ⟨_, hlocate, ?_⟩
    refine bind_eq_ok_iff.mpr ⟨(), hname, ?_⟩
    dsimp only
    rw [if_neg (Bool.eq_false_iff.mp hdirectory)]
    rfl

/-- Opening a file empties it and leaves all else as it was. -/
theorem eq_put_of_create {place : Place} (h : w.create path = .ok (place, w')) :
    w' = w.put place [] := by
  obtain ⟨directory, name, -, -, -, -, hw'⟩ := create_eq_ok_iff.mp h
  exact hw'

/-- What is put into a file that has been opened is read back through the same path. -/
theorem read_of_create {place : Place} (h : w.create path = .ok (place, w')) (content : Bytes) :
    w.Names path place ∧ (w.put place content).read path = .ok content := by
  obtain ⟨directory, name, hlocate, hname, -, rfl, -⟩ := create_eq_ok_iff.mp h
  have hlocate' := locate_put w (directory ++ [name]) content hlocate
  have hcontent := content?_put_self w (directory ++ [name]) content
  refine ⟨⟨directory, name, hlocate, rfl⟩, ?_⟩
  rw [read]
  refine bind_eq_ok_iff.mpr ⟨_, hlocate', ?_⟩
  refine bind_eq_ok_iff.mpr ⟨(), hname, ?_⟩
  dsimp only
  rw [hcontent]
  rfl

end TextKit.Command.Workspace
