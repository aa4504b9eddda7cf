import ScriptLens.Catalog.Basic

namespace ScriptLens

inductive SessionError where
  | worker (message : String)
  | unexpectedResponse (method found : String)
  | duplicateLib (path : String)
  | staleVersion (file : String) (current attempted : Version)
deriving DecidableEq

inductive ServiceError where
  | invalidArgument (message : String)
  | unexpectedResponse (method found : String)
  | worker (message : String)
  | internal (message : String)
deriving DecidableEq

def unexpectedMessage (method found : String) : String :=
  "Unexpected response for " ++ method ++ ": " ++ found

namespace SessionError

def message : SessionError → String
  | worker m => "Worker error: " ++ m
  | unexpectedResponse method found => unexpectedMessage method found
  | duplicateLib path => "Extra lib already registered: " ++ path
  | staleVersion file current attempted => staleMessage file current attempted

def toService : SessionError → ServiceError
  | worker m => .worker m
  | unexpectedResponse method found => .unexpectedResponse method found
  | e@(duplicateLib _) | e@(staleVersion ..) => .invalidArgument e.message

end SessionError

def CatalogError.toService (e : CatalogError) : ServiceError :=
  .invalidArgument e.message

def ServiceError.message : ServiceError → String
  | invalidArgument m => "Invalid argument: " ++ m
  | unexpectedResponse method found => unexpectedMessage method found
  | worker m => "Worker error: " ++ m
  | internal m => "Internal error: " ++ m

end ScriptLens
