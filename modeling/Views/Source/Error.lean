import Views.FileSystem.Basic
import Views.Render.Error
import Views.Registry
/-!
# Errors of sources and of setting up

A source says that something is not there or that it could not be read; the two are told apart
because only the first may be answered by going without. What is wrong with a set-up is found
before anything is rendered.
-/

namespace Views

/-- Why a source gave nothing. -/
inductive SourceError where
  | notFound (id : String)
  | unreadable (id cause : String)
  deriving DecidableEq, Repr, Inhabited

namespace SourceError

/-- Whether there is nothing under the identity. -/
def isNotFound : SourceError → Bool
  | notFound _ => true
  | unreadable _ _ => false

/-- The error in words. -/
def message : SourceError → String
  | notFound id => "template source not found: " ++ id
  | unreadable id cause => "failed to read template source '" ++ id ++ "': " ++ cause

/-- What a failed reading means for a source. -/
def ofReading (id : String) (isMissing : Bool) (cause : String) : SourceError :=
  if isMissing then notFound id else unreadable id cause

/-- What the fault of a file means for a source. -/
def ofFault (id : String) (fault : FileFault) : SourceError :=
  ofReading id (fault == .missing) fault.message

end SourceError

/-- What is wrong with a set-up. -/
inductive SetupError where
  | badSource (reason : String)
  | badOption (field reason : String)
  | unparsable
  | unreadable (path : FilePath) (fault : FileFault)
  | partialUncompilable (error : BrokenTemplate)
  deriving Repr, Inhabited

/-- The error in words. -/
def SetupError.message : SetupError → String
  | badSource reason => "invalid template provider: " ++ reason
  | badOption field reason => "invalid value for '" ++ field ++ "': " ++ reason
  | unparsable => "failed to parse engine configuration"
  | unreadable path fault =>
    "failed to read engine configuration " ++ path.display ++ ": " ++ fault.message
  | partialUncompilable error => error.message

end Views
