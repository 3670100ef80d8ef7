/-!
# Faults of a CORS policy
-/

namespace Switchyard

/-- Why a CORS policy is refused. -/
inductive CorsFault where
  | wildcardWithCredentials
  | badOrigin (origin : String)
  | noOriginsWithCredentials
  | badOriginPattern (pattern reason : String)
  | badMethod (method : String)
  | conflictingCredentials
  deriving DecidableEq, Repr

def CorsFault.kind : CorsFault → String
  | wildcardWithCredentials => "WildcardWithCredentials"
  | badOrigin _ => "InvalidOriginFormat"
  | noOriginsWithCredentials => "EmptyOriginsWithCredentials"
  | badOriginPattern .. => "InvalidOriginPattern"
  | badMethod _ => "InvalidMethod"
  | conflictingCredentials => "ConflictingCredentials"

def CorsFault.message (f : CorsFault) : String :=
  "Invalid CORS configuration: " ++
    match f with
    | wildcardWithCredentials =>
      "allowed origins contain '*' while allow_credentials is true; " ++
        "list explicit origins or origin patterns"
    | badOrigin o => "origin '" ++ o ++ "' is not of the form scheme://host[:port]"
    | noOriginsWithCredentials =>
      "allow_credentials is true but no origin or origin pattern is allowed"
    | badOriginPattern p r => "origin pattern '" ++ p ++ "' does not compile: " ++ r
    | badMethod m => "'" ++ m ++ "' is not an HTTP method token"
    | conflictingCredentials => "global and handler policies disagree on allow_credentials"

end Switchyard
