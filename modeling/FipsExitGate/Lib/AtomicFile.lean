import Mathlib.Data.List.TakeDrop
import Mathlib.Data.Option.Basic

/-!
# Replacing a file by a rename

A program that replaces a file writes the new content to a temporary file next to it, syncs
it, and renames it into place.  A crash, or an error, may stop it between any two steps.  What
is in place then is the old content or the new one: `file_run_take_replace` says which, by the
number of steps that were taken.

A file may also be moved aside, which leaves nothing in its place.
-/

namespace AtomicFile

universe u

/-- A directory with the file, its temporary file, and what was moved aside. -/
structure Dir (α : Type u) where
  file : Option α
  tmp : Option α
  aside : List α

/-- A step on the directory. -/
inductive FileOp (α : Type u) where
  /-- The temporary file is created or truncated; `blank` is the content of an empty file. -/
  | openTmp (blank : α)
  | writeTmp (a : α)
  | syncTmp
  | closeTmp
  | renameTmp
  | syncDir
  | moveAside

variable {α : Type u}

/-- What a step does that completes. -/
def FileOp.apply (d : Dir α) : FileOp α → Dir α
  | .openTmp blank => { d with tmp := some blank }
  | .writeTmp a => { d with tmp := some a }
  | .syncTmp | .closeTmp | .syncDir => d
  | .renameTmp => { d with file := d.tmp, tmp := none }
  | .moveAside => { d with file := none, aside := d.aside ++ d.file.toList }

def run (d : Dir α) (ops : List (FileOp α)) : Dir α :=
  ops.foldl FileOp.apply d

@[simp] theorem run_nil (d : Dir α) : run d [] = d := rfl

@[simp] theorem run_cons (d : Dir α) (op : FileOp α) (ops : List (FileOp α)) :
    run d (op :: ops) = run (op.apply d) ops := rfl

/-- The steps that replace the file. -/
def replace (blank a : α) : List (FileOp α) :=
  [.openTmp blank, .writeTmp a, .syncTmp, .closeTmp, .renameTmp, .syncDir]

/-- **Old or new**: the file has the new content from the rename on, the fifth step. -/
theorem file_run_take_replace (d : Dir α) (blank a : α) (n : Nat) :
    (run d ((replace blank a).take n)).file = if n < 5 then d.file else some a := by
  rcases n with _ | _ | _ | _ | _ | n
  · rfl
  · rfl
  · rfl
  · rfl
  · rfl
  · rw [if_neg (by omega)]
    cases n with
    | zero => rfl
    | succ n => simp [replace, FileOp.apply]

theorem file_run_replace (d : Dir α) (blank a : α) : (run d (replace blank a)).file = some a := rfl

end AtomicFile
