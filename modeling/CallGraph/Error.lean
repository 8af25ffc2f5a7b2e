import CallGraph.Json.Failure

/-! The causes for which an export fails, and their wording. -/
namespace CallGraph

/-- Why a file, a folder or a connection could not be used. -/
inductive IoError
  | notFound
  | permissionDenied
  | alreadyExists
  | notFolder
  | isFolder
  | noSpace
  | nameTooLong
  | tooManyLinks
  | networkUnreachable
  | connectionRefused
  | nulInName
  | notUtf8
  | streamClosed
  | other (text : String)
  deriving DecidableEq, Repr

def IoError.message : IoError → String
  | .notFound => "No such file or directory (os error 2)"
  | .permissionDenied => "Permission denied (os error 13)"
  | .alreadyExists => "File exists (os error 17)"
  | .notFolder => "Not a directory (os error 20)"
  | .isFolder => "Is a directory (os error 21)"
  | .noSpace => "No space left on device (os error 28)"
  | .nameTooLong => "File name too long (os error 36)"
  | .tooManyLinks => "Too many levels of symbolic links (os error 40)"
  | .networkUnreachable => "Network is unreachable (os error 101)"
  | .connectionRefused => "Connection refused (os error 111)"
  | .nulInName => "file name contained an unexpected NUL byte"
  | .notUtf8 => "stream did not contain valid UTF-8"
  | .streamClosed => "stream already closed"
  | .other text => text

/-- Why an embedded database refuses an operation. -/
inductive DatabaseError
  | cannotOpen (path : String)
  | nulInPath (position : Nat)
  | notADatabase
  | noTable (name : String)
  | foreignKey
  | full
  deriving DecidableEq, Repr

def DatabaseError.message : DatabaseError → String
  | .cannotOpen path => "unable to open database file: " ++ path
  | .nulInPath position => "nul byte found in provided data at position: " ++ toString position
  | .notADatabase => "file is not a database"
  | .noTable name => "no such table: " ++ name
  | .foreignKey => "FOREIGN KEY constraint failed"
  | .full => "database or disk is full"

/-- The words that the database itself has for a refusal. -/
def DatabaseError.detail : DatabaseError → List String
  | .cannotOpen _ => ["Error code 14: Unable to open the database file"]
  | .nulInPath position => [(DatabaseError.nulInPath position).message]
  | .notADatabase => ["Error code 26: File opened that is not a database file"]
  | .noTable _ => ["Error code 1: SQL logic error"]
  | .foreignKey => ["Error code 787: Foreign key constraint failed"]
  | .full => ["Error code 13: Insertion failed because database is full"]

/-- What is wrong with the address of a graph server. -/
inductive AddressFault
  | noHost
  | port
  | hostCharacter
  | ipv6
  deriving DecidableEq, Repr

def AddressFault.message : AddressFault → String
  | .noHost => "empty host"
  | .port => "invalid port number"
  | .hostCharacter => "invalid domain character"
  | .ipv6 => "invalid IPv6 address"

/-- Why a graph server could not be used. -/
inductive RemoteError
  | server (code message : String)
  | io (cause : IoError)
  | address (fault : AddressFault)
  | unsupportedScheme (scheme : String)
  | unsupportedVersion (version : Nat)
  | authentication (message : String)
  | unexpectedReply (request : String)
  deriving DecidableEq, Repr

def RemoteError.message : RemoteError → String
  | .server code message => "Neo4j error `" ++ code ++ "`: " ++ message
  | .io cause => "an IO error occurred: " ++ cause.message
  | .address fault => "Invalid URI: " ++ fault.message
  | .unsupportedScheme scheme => "Unsupported URI scheme: " ++ scheme
  | .unsupportedVersion version => "Unsupported bolt version " ++ toString version
  | .authentication message => "authentication error: " ++ message
  | .unexpectedReply request => "unexpected response for " ++ request

/-- Why a graph store failed. -/
inductive StoreError
  | remote (cause : RemoteError)
  | database (cause : DatabaseError)
  | runtime (cause : IoError)
  | decode (text : String)
  | closed
  deriving DecidableEq, Repr

def StoreError.message : StoreError → String
  | .remote cause => "neo4j: " ++ cause.message
  | .database cause => "sqlite: " ++ cause.message
  | .runtime cause => "failed to start async runtime: " ++ cause.message
  | .decode text => "unexpected query result: " ++ text
  | .closed => "store session is already closed"

/-- What is wrong with the inputs of an export. -/
inductive ConfigurationError
  | outputTaken (path : String)
  | outputFailed (path : String) (cause : IoError)
  | databaseFolderFailed (path : String) (cause : IoError)
  | inputUnreadable (path : String) (cause : IoError)
  | noArchives (path : String)
  | captureUnreadable (path : String) (cause : IoError)
  | other (text : String)
  deriving DecidableEq, Repr

def ConfigurationError.message : ConfigurationError → String
  | .outputTaken path =>
    "Couldn't create output folder at " ++ path ++ ": path exists and is not a directory"
  | .outputFailed path cause =>
    "Couldn't create output folder at " ++ path ++ ": " ++ cause.message
  | .databaseFolderFailed path cause =>
    "Couldn't create database folder at " ++ path ++ ": " ++ cause.message
  | .inputUnreadable path cause => "cannot list input folder " ++ path ++ ": " ++ cause.message
  | .noArchives path => "Couldn't find any .jar files matching predicate at " ++ path
  | .captureUnreadable path cause =>
    "cannot open call graph dump " ++ path ++ ": " ++ cause.message
  | .other text => text

/-- How a process ended. -/
inductive ExitStatus
  | code (n : Nat)
  | signal (n : Nat)
  deriving DecidableEq, Repr

def ExitStatus.isSuccess : ExitStatus → Bool
  | .code n => n = 0
  | .signal _ => false

private def signalName : Nat → String
  | 1 => " (SIGHUP)"
  | 2 => " (SIGINT)"
  | 3 => " (SIGQUIT)"
  | 4 => " (SIGILL)"
  | 6 => " (SIGABRT)"
  | 8 => " (SIGFPE)"
  | 9 => " (SIGKILL)"
  | 11 => " (SIGSEGV)"
  | 13 => " (SIGPIPE)"
  | 14 => " (SIGALRM)"
  | 15 => " (SIGTERM)"
  | _ => ""

def ExitStatus.message : ExitStatus → String
  | .code n => "exit status: " ++ toString n
  | .signal n => "signal: " ++ toString n ++ signalName n

/-- Why the stream of edges broke. -/
inductive EngineError
  | noHeader
  | unreadableHeader (cause : IoError)
  | invalidHeader (line : Nat) (fault : Json.Fault)
  | unreadableAfter (line : Nat) (cause : IoError)
  | invalidEdge (line : Nat) (fault : Json.Fault)
  | notStarted (program : String) (cause : IoError)
  | exited (status : ExitStatus)
  | other (text : String)
  deriving DecidableEq, Repr

def EngineError.message : EngineError → String
  | .noHeader => "call graph stream is empty (missing header)"
  | .unreadableHeader cause => "failed to read call graph header: " ++ cause.message
  | .invalidHeader line fault =>
    "line " ++ toString line ++ ": invalid call graph header: " ++ fault.describe
  | .unreadableAfter line cause =>
    "failed to read call graph after line " ++ toString line ++ ": " ++ cause.message
  | .invalidEdge line fault => "line " ++ toString line ++ ": invalid edge: " ++ fault.describe
  | .notStarted program cause => "failed to start analyzer " ++ program ++ ": " ++ cause.message
  | .exited status => "analyzer exited with " ++ status.message
  | .other text => text

/-- Why an export failed. -/
inductive ExportError
  | configuration (cause : ConfigurationError)
  | io (path : String) (cause : IoError)
  | store (cause : StoreError)
  | engine (cause : EngineError)
  deriving DecidableEq, Repr

namespace ExportError

def message : ExportError → String
  | configuration cause => "configuration error: " ++ cause.message
  | io path cause => "I/O error on " ++ path ++ ": " ++ cause.message
  | store cause => "store error: " ++ cause.message
  | engine cause => "analysis engine error: " ++ cause.message

/-- The words for what lies behind a failed use of a graph server. -/
private def remoteSources : RemoteError → List String
  | .io cause => [cause.message]
  | .address fault => [fault.message]
  | _ => []

/-- The words for what lies behind a failed store, the nearest cause first. -/
private def storeSources : StoreError → List String
  | .remote cause => cause.message :: remoteSources cause
  | .database cause => cause.message :: cause.detail
  | .runtime cause => [cause.message]
  | _ => []

/-- The words for an error and then for each cause behind it. -/
def chain (e : ExportError) : List String :=
  e.message ::
    match e with
    | io _ cause => [cause.message]
    | store cause => cause.message :: storeSources cause
    | _ => []

end ExportError
end CallGraph
