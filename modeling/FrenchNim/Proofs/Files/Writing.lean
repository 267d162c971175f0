import Mathlib
import FrenchNim.Files.FileSystem

namespace FrenchNim

/-!
# Files that are written

Writing a file changes what one location holds and nothing else, and it takes
away no place where another file could be written. So a row of writings leaves
in every place what was written there last.
-/

namespace FileSystem

/-- A file can be written: one is there already, or the place is free in a directory. -/
def Writable (files : FileSystem) (location : Location) : Prop :=
  (∃ content executable, files.at? location = some (.file content executable)) ∨
    files.at? location = none ∧ files.at? location.parent = some .directory

/-- The mode of a file that is written. A file that is already there keeps its own. -/
def modeAt (files : FileSystem) (location : Location) (executable : Bool) : Bool :=
  match files.at? location with
  | some (.file _ mode) => mode
  | _ => executable

variable {files next after : FileSystem} {location other : Location} {content : Bytes}
  {executable : Bool}

@[simp] theorem at?_root
    (files : FileSystem) :
    files.at? [] = some .directory := by
  simp [at?]

/-- An entry is seen where the tree has it. -/
theorem look_eq_ok_iff
    {entry : Entry} :
    files.look location = .ok entry ↔ files.at? location = some entry := by
  unfold look
  cases files.at? location <;> simp

/-- A file is read where the tree has it. -/
theorem read_eq_ok_iff :
    files.read location = .ok content ↔
      ∃ executable, files.at? location = some (.file content executable) := by
  unfold read look
  cases files.at? location with
  | none =>
      simp [FileSystem.content]
  | some entry =>
      cases entry <;> simp [FileSystem.content]

/-- The root cannot be written. -/
theorem Writable.ne_root
    (writable : files.Writable location) :
    location ≠ [] := by
  rintro rfl
  rcases writable with ⟨content, executable, isFile⟩ | ⟨isFree, -⟩
  · simp at isFile
  · simp at isFree

/-- What writing a file does, and when it can be done. -/
theorem write_eq_ok_iff :
    files.write location content executable = .ok after ↔
      files.Writable location ∧
        after = files.put location (.file content (files.modeAt location executable)) := by
  unfold write Writable modeAt
  cases held : files.at? location with
  | none =>
      cases above : files.at? location.parent with
      | none =>
          simp [look, held, above]
      | some entry =>
          cases entry with
          | directory => simpa [look, held, above] using eq_comm
          | file => simp [look, held, above]
  | some entry =>
      cases entry with
      | directory => simp [look, held]
      | file => simpa [look, held] using eq_comm

/-- Writing a file changes one location alone. -/
theorem at?_write
    (written : files.write location content executable = .ok after)
    (other : Location) :
    after.at? other =
      if other = location then some (.file content (files.modeAt location executable))
      else files.at? other := by
  obtain ⟨writable, rfl⟩ := write_eq_ok_iff.mp written
  exact at?_put files location other _ writable.ne_root

/-- Writing a file leaves all other places as they are. -/
theorem at?_write_of_ne
    (written : files.write location content executable = .ok after)
    (differs : other ≠ location) :
    after.at? other = files.at? other := by
  rw [at?_write written, if_neg differs]

/-- A file that was written is read as it was written. -/
theorem read_write
    (written : files.write location content executable = .ok after) :
    after.read location = .ok content := by
  apply read_eq_ok_iff.mpr
  exact ⟨_, (at?_write written location).trans (if_pos rfl)⟩

/-- What is read at a location depends on what it holds alone, if there is a file. -/
theorem toOption_read
    (files : FileSystem)
    (location : Location) :
    (files.read location).toOption =
      match files.at? location with
      | some (.file content _) => some content
      | _ => none := by
  unfold read look
  cases files.at? location with
  | none =>
      rfl
  | some entry =>
      cases entry <;> rfl

/-- Writing a file leaves all directories as they are. -/
theorem at?_write_directory
    (written : files.write location content executable = .ok after)
    (isDirectory : files.at? other = some .directory) :
    after.at? other = some .directory := by
  rw [← isDirectory]
  apply at?_write_of_ne written
  rintro rfl
  rcases (write_eq_ok_iff.mp written).1 with ⟨_, _, isFile⟩ | ⟨isFree, -⟩
  · simp [isDirectory] at isFile
  · simp [isDirectory] at isFree

/-- A file that can be written can still be written behind another one. -/
theorem Writable.of_write
    (writable : files.Writable other)
    (written : files.write location content executable = .ok after) :
    after.Writable other := by
  by_cases same : other = location
  · exact .inl ⟨_, _, (at?_write written other).trans (if_pos same)⟩
  · rw [Writable, at?_write_of_ne written same]
    rcases writable with isFile | ⟨isFree, above⟩
    · exact .inl isFile
    · exact .inr ⟨isFree, at?_write_directory written above⟩

/-- Where a file can be written it is written. -/
theorem Writable.write
    (writable : files.Writable location)
    (content : Bytes)
    (executable : Bool) :
    ∃ after, files.write location content executable = .ok after :=
  ⟨_, write_eq_ok_iff.mpr ⟨writable, rfl⟩⟩

end FileSystem

/-- A file that is written. -/
structure Writing where
  location : Location
  content : Bytes
  deriving Repr, DecidableEq

/-- The second tree is the first one after a row of writings. -/
inductive Writes : FileSystem → List Writing → FileSystem → Prop
  | done (files : FileSystem) : Writes files [] files
  | write
      {files next after : FileSystem}
      {location : Location}
      {content : Bytes}
      {executable : Bool}
      {rest : List Writing}
      (written : files.write location content executable = .ok next)
      (others : Writes next rest after) :
      Writes files (⟨location, content⟩ :: rest) after

namespace Writes

variable {files next after : FileSystem} {row more : List Writing} {location : Location}

/-- Two rows of writings make one. -/
theorem append
    (first : Writes files row next)
    (second : Writes next more after) :
    Writes files (row ++ more) after := by
  induction first with
  | done files =>
      exact second
  | write written _ inductionHypothesis =>
      exact .write written (inductionHypothesis second)

/-- A location that is not written is as it was. -/
theorem at?_of_ne
    (writes : Writes files row after)
    (untouched : ∀ writing ∈ row, writing.location ≠ location) :
    after.at? location = files.at? location := by
  induction writes with
  | done files =>
      rfl
  | write written _ inductionHypothesis =>
      obtain ⟨differs, others⟩ := List.forall_mem_cons.mp untouched
      rw [inductionHypothesis others]
      exact FileSystem.at?_write_of_ne written (Ne.symm differs)

/-- A location holds a content that was there or was written, if nothing else was written to it. -/
theorem read_of_agree
    {content : Bytes}
    (writes : Writes files row after)
    (agree : ∀ writing ∈ row, writing.location = location → writing.content = content)
    (known : files.read location = .ok content ∨ ∃ writing ∈ row, writing.location = location) :
    after.read location = .ok content := by
  induction writes with
  | done files =>
      rcases known with isThere | ⟨writing, member, -⟩
      · exact isThere
      · cases member
  | @write files next after place stored executable rest written others inductionHypothesis =>
      obtain ⟨agreeFirst, agreeOthers⟩ := List.forall_mem_cons.mp agree
      apply inductionHypothesis agreeOthers
      by_cases same : place = location
      · subst same
        cases agreeFirst rfl
        exact .inl (FileSystem.read_write written)
      · rcases known with isThere | ⟨writing, member, isPlace⟩
        · left
          obtain ⟨mode, isFile⟩ := FileSystem.read_eq_ok_iff.mp isThere
          apply FileSystem.read_eq_ok_iff.mpr
          exact ⟨mode, (FileSystem.at?_write_of_ne written (Ne.symm same)).trans isFile⟩
        · rcases List.mem_cons.mp member with rfl | isOther
          · exact (same isPlace).elim
          · exact .inr ⟨writing, isOther, isPlace⟩

/-- What was written is found in all places just if no two writings to one place disagree. -/
theorem forall_read_iff
    (writes : Writes files row after) :
    (∀ writing ∈ row, after.read writing.location = .ok writing.content) ↔
      ∀ first ∈ row, ∀ second ∈ row,
        first.location = second.location → first.content = second.content := by
  constructor
  · intro found first isFirst second isSecond same
    have sameContent := (found first isFirst).symm.trans
      ((congrArg after.read same).trans (found second isSecond))
    exact Except.ok.inj sameContent
  · intro agree writing member
    apply writes.read_of_agree
    · intro other isOther same
      exact agree other isOther writing member same
    · exact .inr ⟨writing, member, rfl⟩

/-- What could be written before can be written afterwards. -/
theorem writable
    (writes : Writes files row after)
    (writable : files.Writable location) :
    after.Writable location := by
  induction writes with
  | done files =>
      exact writable
  | write written _ inductionHypothesis =>
      exact inductionHypothesis (writable.of_write written)

/-- What was there before is there afterwards. -/
theorem holds
    (writes : Writes files row after)
    (held : files.holds location = true) :
    after.holds location = true := by
  induction writes with
  | done files =>
      exact held
  | write written _ inductionHypothesis =>
      apply inductionHypothesis
      rw [FileSystem.holds, FileSystem.at?_write written]
      split
      · rfl
      · exact held

/-- What was written is there. -/
theorem holds_of_mem
    {writing : Writing}
    (writes : Writes files row after)
    (member : writing ∈ row) :
    after.holds writing.location = true := by
  induction writes with
  | done files =>
      cases member
  | write written others inductionHypothesis =>
      rcases List.mem_cons.mp member with rfl | isLater
      · apply others.holds
        rw [FileSystem.holds, FileSystem.at?_write written, if_pos rfl]
        rfl
      · exact inductionHypothesis isLater

end Writes

end FrenchNim
