import Stencil.Load.Result
import Stencil.Workflow.Schema
import Stencil.Workflow.Snapshot
import Stencil.Yaml.Document

/-!
# Loading workflows and snapshots

Workflows and snapshots are written as documents, in texts or files. A text that is no document, a
document that is no dictionary and a dictionary that the schema rejects are failures; so are a file
that is missing or cannot be read and a path to a directory. Values that no date or number has,
bytes that are no text and paths that cannot be looked at are faults.
-/

namespace Stencil

/-- What is found under the path of a file. -/
inductive File
  /-- Nothing can be learnt about the path, for the given reason. -/
  | inaccessible (reason : String)
  | missing
  /-- A directory, or something else that is no file. -/
  | directory
  /-- A file that cannot be opened or read, for the given reason. -/
  | unreadable (reason : String)
  | content (bytes : List UInt8)

/-- A kind of data that documents hold: its name in messages and its schema. -/
structure DocumentKind (α : Type) where
  label : String
  check : List (Value × Value) → Checked α

namespace DocumentKind

/-- The kind of documents that hold workflows. -/
def workflow : DocumentKind Workflow :=
  ⟨"Workflow", Workflow.check⟩

/-- The kind of documents that hold snapshots. -/
def snapshot : DocumentKind Snapshot :=
  ⟨"Execution snapshot", Snapshot.check⟩

end DocumentKind

namespace Load

variable {α : Type}

/-- The data that a value read from a source gives. -/
def ofValue (kind : DocumentKind α) (source : String) (value : Value) : Outcome (Load α) :=
  match value with
  | .map entries =>
    match kind.check entries with
    | .ok data => .ok (.success data [("source", .text source)])
    | .error problems =>
      failure s!"{kind.label} validation failed in {source}:\n{(Fault.invalid problems).message}" []
  | other =>
    failure s!"{kind.label} {source} must be a YAML dictionary, got {other.typeName}" []

/-- The data of a document, whose source is named in messages. -/
def ofText (kind : DocumentKind α) (content source : String) : Outcome (Load α) :=
  match Yaml.read content with
  | .ok value => ofValue kind source value
  | .error .notYaml => failure s!"Invalid YAML syntax in {source}" []
  | .error fault => .error fault

/-- A text with every line ended by a line feed alone. -/
def unifyBreaks : List Char → List Char
  | [] => []
  | '\r' :: '\n' :: rest => '\n' :: unifyBreaks rest
  | c :: rest => (if c = '\r' then '\n' else c) :: unifyBreaks rest

/-- The data of the file under a path. -/
def ofFile (kind : DocumentKind α) (path : String) (file : File) : Outcome (Load α) :=
  match file with
  | .inaccessible reason => .error (.inaccessible reason)
  | .missing => failure s!"{kind.label} file not found: {path}" []
  | .directory => failure s!"Path is not a file: {path}" []
  | .unreadable reason => failure s!"Failed to read file '{path}': {reason}" []
  | .content bytes =>
    match Text.utf8Text bytes with
    | .ok text => ofText kind (String.ofList (unifyBreaks text)) path
    | .error error => .error (.encoding error)

end Load
end Stencil
