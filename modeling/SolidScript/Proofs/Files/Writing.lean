import SolidScript.Files.Directory

namespace SolidScript

namespace FileSystem

/-- Two states differ by one file only: the one to which a path leads has a given text. -/
def Changes (fs : FileSystem) (state : fs.State) (path text : String) (after : fs.State) : Prop :=
  ∃ place, fs.place? state path = some place ∧ fs.place? after path = some place ∧
    fs.sight after path = .file (some text) ∧ fs.entry? after place = some (.file (some text)) ∧
    ∀ other, other ≠ place → fs.entry? after other = fs.entry? state other

/-- Only a text that holds the terminator is no path, and a write is done as a whole or not at all. -/
structure Lawful (fs : FileSystem) : Prop where
  noPath {state : fs.State} {path : String} :
    fs.sight state path = .noPath → Path.terminator ∈ path.toList
  refused {state after : fs.State} {path text : String} {fault : PathFault} :
    fs.write state path text = (.error fault, after) → after = state
  written {state after : fs.State} {path text : String} :
    fs.write state path text = (.ok (), after) → fs.Changes state path text after

end FileSystem

namespace Proofs
open FileTree

section
variable {tree : FileTree} {place : Place} {text : String}

theorem isFolder_put (there : Place) :
    (tree.put place text).isFolder there = tree.isFolder there := rfl

theorem file?_put_self : (tree.put place text).file? place = some (some text) := by
  simp [file?, put]

theorem lookup_filter_ne {files : List (Place × Option String)} {other : Place}
    (different : other ≠ place) :
    (files.filter fun entry => entry.1 ≠ place).lookup other = files.lookup other := by
  induction files with
  | nil => rfl
  | cons entry files ih =>
    obtain ⟨there, content⟩ := entry
    by_cases replaced : there = place
    · subst replaced
      rw [List.filter_cons_of_neg (by simp), ih, List.lookup_cons,
        beq_eq_false_iff_ne.mpr different]
    · rw [List.filter_cons_of_pos (by simpa using replaced), List.lookup_cons, List.lookup_cons, ih]

theorem file?_put_of_ne {other : Place} (different : other ≠ place) :
    (tree.put place text).file? other = tree.file? other := by
  rw [file?, put, List.lookup_cons, beq_eq_false_iff_ne.mpr different]
  exact lookup_filter_ne different

theorem follow_put (text : String) (parts : List String) {start : Place} {target : Target}
    (led : tree.follow start parts = .ok target) (at_place : target.filePlace? = some place) :
    (tree.put place text).follow start parts = .ok (.file place (some text)) ∧
      tree.isFolder place = false := by
  -- By induction on the parts of the path: the directories on the way are the same.
  induction parts generalizing start with
  | nil =>
    cases led
    cases at_place
  | cons part rest ih =>
    rw [follow] at led ⊢
    by_cases still : (part = "" || part = ".") = true
    · rw [if_pos still] at led ⊢
      exact ih led
    rw [if_neg still] at led ⊢
    by_cases up : part = ".."
    · rw [if_pos up] at led ⊢
      exact ih led
    rw [if_neg up] at led ⊢
    by_cases long : Path.nameLimit < part.utf8ByteSize
    · rw [if_pos long] at led
      cases led
    rw [if_neg long] at led ⊢
    dsimp only at led ⊢
    by_cases folder : tree.isFolder (start ++ [part]) = true
    · rw [if_pos folder] at led
      rw [isFolder_put, if_pos folder]
      exact ih led
    rw [if_neg folder] at led
    rw [isFolder_put, if_neg folder]
    have here : rest = [] ∧ start ++ [part] = place := by
      cases there : tree.file? (start ++ [part]) <;> cases rest <;> rw [there] at led <;>
        cases led <;> exact ⟨rfl, Option.some.inj at_place⟩
    obtain ⟨rfl, same⟩ := here
    rw [same] at folder ⊢
    rw [file?_put_self]
    exact ⟨rfl, Bool.of_not_eq_true folder⟩

theorem find_put (text : String) {home : Place} {path : String} {target : Target}
    (found : tree.find home path = .ok target) (at_place : target.filePlace? = some place) :
    (tree.put place text).find home path = .ok (.file place (some text)) ∧
      tree.isFolder place = false := by
  unfold find at found ⊢
  split at found
  · cases found
  split at found
  · cases found
  rename_i named short
  rw [if_neg named, if_neg short]
  exact follow_put text _ found at_place

end

theorem write_changes {dir : Directory} {path text : String} {target : Target} {place : Place}
    (plain : Path.terminator ∉ path.toList) (found : dir.tree.find dir.home path = .ok target)
    (at_place : target.filePlace? = some place) :
    Directory.fileSystem.Changes dir path text { dir with tree := dir.tree.put place text } := by
  obtain ⟨found', notFolder⟩ := find_put text found at_place
  refine ⟨place, ?_, ?_, ?_, ?_, fun other different => ?_⟩
  · simp only [Directory.fileSystem, Directory.place?, found, at_place]
  · simp only [Directory.fileSystem, Directory.place?, found', Target.filePlace?]
  · have unseen : ¬ path.toList.contains Path.terminator = true := by simpa using plain
    simp only [Directory.fileSystem, Directory.sight, if_neg unseen, found']
  · simp only [Directory.fileSystem, Directory.entry?, isFolder_put, notFolder, file?_put_self]
    rfl
  · change (if dir.tree.isFolder other then _ else _) = _
    rw [file?_put_of_ne different]
    rfl

theorem terminator_of_sight {dir : Directory} {path : String} (gone : dir.sight path = .noPath) :
    Path.terminator ∈ path.toList := by
  unfold Directory.sight at gone
  split at gone
  · rename_i held
    exact List.contains_iff_mem.mp held
  · split at gone <;> cases gone

theorem write_cases (dir : Directory) (path text : String) :
    (∃ fault, dir.write path text = (.error fault, dir)) ∨
    ∃ target place, Path.terminator ∉ path.toList ∧ dir.tree.find dir.home path = .ok target ∧
      target.filePlace? = some place ∧
      dir.write path text = (.ok (), { dir with tree := dir.tree.put place text }) := by
  unfold Directory.write
  split
  · exact .inl ⟨_, rfl⟩
  rename_i plain
  cases found : dir.tree.find dir.home path with
  | error fault => exact .inl ⟨fault, rfl⟩
  | ok target =>
    dsimp only
    cases at_place : target.filePlace? with
    | none => exact .inl ⟨_, rfl⟩
    | some place =>
      dsimp only
      cases dir.tree.closed.lookup place with
      | some fault => exact .inl ⟨fault, rfl⟩
      | none => exact .inr ⟨target, place, by simpa using plain, rfl, at_place, rfl⟩

theorem directory_lawful : Directory.fileSystem.Lawful where
  noPath := terminator_of_sight
  refused {dir after path text fault} refused := by
    obtain ⟨_, failed⟩ | ⟨_, _, -, -, -, succeeded⟩ := write_cases dir path text
    · exact (Prod.mk.inj (refused.symm.trans failed)).2
    · cases refused.symm.trans succeeded
  written {dir after path text} written := by
    obtain ⟨_, failed⟩ | ⟨target, place, plain, found, at_place, succeeded⟩ :=
      write_cases dir path text
    · cases written.symm.trans failed
    · rw [(Prod.mk.inj (written.symm.trans succeeded)).2]
      exact write_changes plain found at_place

-- A write that fails above the working directory.
example :
    let tree : FileTree := { folders := [["work"]], closed := [(["a"], .noSpace)] }
    let dir : Directory := { tree, home := ["work"] }
    dir.write "../a" "text" = (.error .noSpace, dir) := rfl

end Proofs

end SolidScript
