import Timetable.Store.Memory

/-!
# Seed files

A store in memory can start from a JSON file that holds a plan and a catalog.
-/

namespace Timetable

namespace Json

/-- The fields of a seed that have been read. -/
structure SeedDraft where
  plan : Option PlanRecord := none
  catalog : Option (List CourseRecord) := none

/-- The layout of a seed. -/
def seedLayout : Layout SeedDraft Store.Seed where
  title := "Seed"
  fields :=
    [.of "plan" false (·.plan) (fun x d => { d with plan := some x }) planLayout.read,
     .of "catalog" false (·.catalog) (fun x d => { d with catalog := some x })
      (list courseLayout.read)]
  blank := {}
  finish d := some { plan := d.plan.getD {}, catalog := d.catalog.getD [] }

end Json

/-- What reading a file gives: its bytes, or why it cannot be read. -/
inductive FileContent where
  | bytes (content : ByteArray)
  | failed (why : String)

namespace FileContent

/-- The wording for a file that does not exist. -/
def missingReason : String := "No such file or directory (os error 2)"

/-- The wording for a file that is no text. -/
def notTextReason : String := "stream did not contain valid UTF-8"

/-- A file that does not exist. -/
def missing : FileContent := failed missingReason

/-- The text of a file. Its bytes are UTF-8. -/
def text : FileContent → Except String String
  | failed why => .error why
  | bytes content =>
    match String.fromUTF8? content with
    | some s => .ok s
    | none => .error notTextReason

end FileContent

/-- Reads a seed from the content of the file at `path`. -/
def Store.Seed.ofFile (path : String) (file : FileContent) : Except Store.Error Store.Seed :=
  match file.text with
  | .error why => .error (.seed (path ++ ": " ++ why))
  | .ok body =>
    match Json.decode Json.seedLayout.read body with
    | .error e => .error (.seed (path ++ ": " ++ e.message))
    | .ok seed => .ok seed

end Timetable
