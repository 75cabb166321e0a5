import BoardAudit.Json.Parser
import BoardAudit.Storage.Sink
import BoardAudit.Text.Blank
import BoardAudit.Text.Utf8

/-!
# Audit files

A file of entries, one JSON object a line. Reading it goes line by line: blank lines are skipped, and
the first line that cannot be read decides. A file stays open for inserting while the path may lose it
or get another one.
-/

namespace BoardAudit

/-- A line of a file: its octets, and whether a line feed ends it. -/
structure Line where
  octets : List UInt8
  ended : Bool
  deriving DecidableEq

namespace Line

/-- The octets without the carriage return before the line feed. -/
def content (l : Line) : List UInt8 :=
  if l.ended ∧ l.octets.getLast? = some 0x0D then l.octets.dropLast else l.octets

/-- The lines of a file. -/
def split : List UInt8 → List Line
  | [] => []
  | b :: bs =>
    if b = 0x0A then ⟨[], true⟩ :: split bs
    else
      match split bs with
      | [] => [⟨[b], false⟩]
      | l :: ls => { l with octets := b :: l.octets } :: ls

/-- The entry of a line; a blank line has none. -/
def read (l : Line) : Except SinkError (Option LogEntry) :=
  match Text.decodeUtf8? l.content with
  | none => .error (.file .invalidData)
  | some s =>
    if Text.trim s.toList = [] then .ok none
    else
      match (Json.ofText? s).bind LogEntry.ofJson? with
      | some e => .ok (some e)
      | none => .error (.serialization "not an audit entry")

/-- The entries of lines in their order, or the first error. -/
def readAll : List Line → Except SinkError (List LogEntry)
  | [] => .ok []
  | l :: ls => do
    let e ← l.read
    let es ← readAll ls
    return e.toList ++ es

end Line

/-- The line of an entry, its line feed included. -/
def LogEntry.line (e : LogEntry) : List UInt8 := Text.encodeUtf8 e.toJson.compress ++ [0x0A]

/-- A file of entries: what stands at its path, whether that is the file that is open, and the ids of
the entries to come. -/
structure AuditFile where
  content : Option (List UInt8)
  attached : Bool
  ids : IdSource

namespace AuditFile

/-- Opens the file of the path, a new one if there is none. -/
def opened (content : Option (List UInt8)) (ids : IdSource) : AuditFile :=
  ⟨some (content.getD []), true, ids⟩

/-- Opens the file of the path again. -/
def reopen (f : AuditFile) : AuditFile := .opened f.content f.ids

/-- Appends an entry under a new id to the open file. -/
def insert (f : AuditFile) (m : LogModel) : LogEntry × AuditFile :=
  let (id, ids) := f.ids.draw
  let e : LogEntry := ⟨id, m⟩
  (e, { f with
    content := if f.attached then f.content.map (· ++ e.line) else f.content
    ids })

/-- Appends octets to the file of the path, a new one if there is none. -/
def append (f : AuditFile) (bs : List UInt8) : AuditFile :=
  { f with content := some (f.content.getD [] ++ bs) }

/-- Removes the file from the path; the open file is then out of reach. -/
def delete (f : AuditFile) : AuditFile := { f with content := none, attached := false }

/-- The entries of the file of the path. -/
def readAll (f : AuditFile) : Except SinkError (List LogEntry) :=
  match f.content with
  | none => .error (.file .notFound)
  | some bs => Line.readAll (Line.split bs)

end AuditFile

end BoardAudit
