/-!
# What can be wrong with a configuration
-/

namespace Bindery

/-- Why a configuration is refused. -/
inductive ConfigError where
  | notFound (path : String)
  | unsupportedFormat (format : String)
  | invalidValue (detail : String)
  | invalidPattern (pattern detail : String)
  | noEntries
  | emptyEntry (name : String)
  | duplicateChunkGroup (name : String)
  | groupShadowsEntry (name : String)
  | invalidChunkGroup (name reason : String)
  | io (detail : String)
  deriving DecidableEq, Repr

def ConfigError.message : ConfigError → String
  | .notFound path => "config file not found: " ++ path
  | .unsupportedFormat format => "unsupported configuration format: " ++ format
  | .invalidValue detail => "invalid config value: " ++ detail
  | .invalidPattern pattern detail => "invalid pattern '" ++ pattern ++ "': " ++ detail
  | .noEntries => "no entries specified"
  | .emptyEntry name => "entry '" ++ name ++ "' declares no modules"
  | .duplicateChunkGroup name => "chunk group '" ++ name ++ "' is declared more than once"
  | .groupShadowsEntry name => "chunk group '" ++ name ++ "' has the same name as an entry"
  | .invalidChunkGroup name reason => "invalid chunk group '" ++ name ++ "': " ++ reason
  | .io detail => "I/O error: " ++ detail

end Bindery
