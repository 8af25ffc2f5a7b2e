/-! What a run tells about itself. -/
namespace CallGraph

inductive Level
  | debug
  | info
  | warning
  deriving DecidableEq, Repr

/-- The part of a run that tells something. -/
inductive Origin
  | export
  | pipeline
  | progress
  | documents
  | storeSink
  | server
  | replay
  | analyzer
  deriving DecidableEq, Repr

/-- One line of a run's log. -/
structure Note where
  level : Level
  origin : Origin
  text : String
  deriving DecidableEq, Repr

end CallGraph
