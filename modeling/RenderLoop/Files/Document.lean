import RenderLoop.Files.Basic
import RenderLoop.Data.Jsonc

/-!
# Documents in files

Descriptions and configurations are documents that files hold. One that is not
there, cannot be read or is malformed is as good as none. A document that is
nested deeper than the machine can follow is another matter: reading it ends
with an error, and nobody takes it for a missing one.
-/

namespace RenderLoop

namespace FileSystem

variable {α : Type}

/-- What a file holds for a reader of documents, if anything. The error is a
file that is nested too deep. -/
def document? (fs : FileSystem)
    (read : (depth : Nat) → String → Except JsonFault α) (file : Path) :
    Except Path (Option α) :=
  match (fs.file? file).bind StoredFile.text? with
  | none => .ok none
  | some text =>
    match read fs.limits.nesting text with
    | .ok a => .ok (some a)
    | .error .malformed => .ok none
    | .error .tooDeep => .error file

variable {fs : FileSystem} {read : Nat → String → Except JsonFault α}
  {file : Path}

/-- A document is read iff its file has a text and the text can be read. -/
theorem document?_eq_some {a : α} : fs.document? read file = .ok (some a) ↔
    ∃ text, (fs.file? file).bind StoredFile.text? = some text ∧
      read fs.limits.nesting text = .ok a := by
  unfold document?
  cases (fs.file? file).bind StoredFile.text? with
  | none => simp
  | some text =>
    cases hread : read fs.limits.nesting text with
    | ok b => simp [hread]
    | error fault => cases fault <;> simp [hread]

/-- Reading a document fails iff its file has a text that is nested too deep. -/
theorem document?_eq_error {p : Path} : fs.document? read file = .error p ↔
    p = file ∧ ∃ text, (fs.file? file).bind StoredFile.text? = some text ∧
      read fs.limits.nesting text = .error .tooDeep := by
  unfold document?
  cases (fs.file? file).bind StoredFile.text? with
  | none => simp
  | some text =>
    cases hread : read fs.limits.nesting text with
    | ok b => simp [hread]
    | error fault => cases fault <;> simp [hread, eq_comm]

end FileSystem

end RenderLoop
