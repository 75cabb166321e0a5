import BoardAudit.EntityId.Text
import BoardAudit.Kind

/-!
# Errors

What can go wrong, by cause, and the text of each cause. The chain of an error is its own text
followed by the texts of what caused it.
-/

namespace BoardAudit

/-- Why there is no trigger. -/
inductive TriggerError where
  | emptyId
  | emptyKind
  | unknownKind (value : String)
  | unknownAction (value : String)
  deriving DecidableEq

/-- Why a row could not be read. -/
inductive RepositoryError where
  | notFound (kind : Kind) (id : EntityId)
  | backend (text : String)
  deriving DecidableEq

/-- Why a file could not be used. -/
inductive FileError where
  | notFound
  | isDirectory
  | invalidData
  | other (text : String)
  deriving DecidableEq

/-- Why an audit entry could not be kept. -/
inductive SinkError where
  | serialization (text : String)
  | file (error : FileError)
  | backend (text : String)
  deriving DecidableEq

/-- Why a trigger was not handled. -/
inductive HandlerError where
  | fetch (error : RepositoryError)
  | insert (error : SinkError)
  deriving DecidableEq

/-- Any error of the library. -/
inductive Error where
  | trigger (error : TriggerError)
  | repository (error : RepositoryError)
  | sink (error : SinkError)
  | handler (error : HandlerError)
  | internal (text : String)
  deriving DecidableEq

/-! ### Texts -/

def TriggerError.message : TriggerError → String
  | .emptyId => "Entity id cannot be empty"
  | .emptyKind => "Resource kind cannot be empty"
  | .unknownKind value => "Unknown resource kind '" ++ value ++ "'"
  | .unknownAction value => "Unknown action '" ++ value ++ "'"

def RepositoryError.message : RepositoryError → String
  | .notFound kind id => kind.name ++ " not found: " ++ id.toString
  | .backend text => "Repository backend error: " ++ text

def FileError.message : FileError → String
  | .notFound => "No such file or directory"
  | .isDirectory => "Is a directory"
  | .invalidData => "stream did not contain valid UTF-8"
  | .other text => text

def SinkError.message : SinkError → String
  | .serialization text => "Failed to serialize log entry: " ++ text
  | .file error => "I/O error: " ++ error.message
  | .backend text => "Log sink backend error: " ++ text

def HandlerError.message : HandlerError → String
  | .fetch error => "Fetch failed: " ++ error.message
  | .insert error => "Log insert failed: " ++ error.message

def Error.message : Error → String
  | .trigger error => "Validation error: " ++ error.message
  | .repository error => "Repository error: " ++ error.message
  | .sink error => "Log sink error: " ++ error.message
  | .handler error => "Handler error: " ++ error.message
  | .internal text => "Internal error: " ++ text

/-! ### Chains -/

/-- The text of the error, then the text beneath it. -/
def SinkError.chain (e : SinkError) : List String :=
  match e with
  | .serialization text => [e.message, text]
  | .file error => [e.message, error.message]
  | .backend _ => [e.message]

/-- The text of the error, then the chain of its cause. -/
def HandlerError.chain (e : HandlerError) : List String :=
  match e with
  | .fetch error => [e.message, error.message]
  | .insert error => e.message :: error.chain

/-- The text of the error, then the chain of its cause. -/
def Error.chain (e : Error) : List String :=
  match e with
  | .trigger error => [e.message, error.message]
  | .repository error => [e.message, error.message]
  | .sink error => e.message :: error.chain
  | .handler error => e.message :: error.chain
  | .internal _ => [e.message]

end BoardAudit
