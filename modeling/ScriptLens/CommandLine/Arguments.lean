namespace ScriptLens

inductive Command where
  | outline (path : String) (json tree : Bool)
  | refs (path : String) (roots libs : List String) (json : Bool)
  | diagnostics (path : String) (json : Bool)
  | serve
  | schema
deriving DecidableEq

structure Invocation where
  config : Option String
  verbose : Bool
  command : Command
deriving DecidableEq

/-- Why arguments lead to no command. Asking for help or for the version is one of the reasons. -/
inductive UsageError where
  | unknownArgument
  | invalidSubcommand
  | missingSubcommand
  | invalidValue
  | tooManyValues
  | argumentConflict
  | missingRequiredArgument
  | helpOnMissing
  | help
  | version
deriving DecidableEq

namespace UsageError

def label : UsageError → String
  | unknownArgument => "UnknownArgument"
  | invalidSubcommand => "InvalidSubcommand"
  | missingSubcommand => "MissingSubcommand"
  | invalidValue => "InvalidValue"
  | tooManyValues => "TooManyValues"
  | argumentConflict => "ArgumentConflict"
  | missingRequiredArgument => "MissingRequiredArgument"
  | helpOnMissing => "DisplayHelpOnMissingArgumentOrSubcommand"
  | help => "DisplayHelp"
  | version => "DisplayVersion"

def exitCode : UsageError → UInt8
  | help | version => 0
  | _ => 2

end UsageError

namespace Arguments

inductive Verb where
  | outline
  | refs
  | diagnostics
  | serve
  | schema
deriving DecidableEq

def verbs : List (String × Verb) :=
  [("outline", .outline), ("refs", .refs), ("diagnostics", .diagnostics), ("serve", .serve),
   ("schema", .schema)]

inductive Switch where
  | config
  | verbose
  | json
  | tree
  | root
  | lib
  | help
  | version
deriving DecidableEq

namespace Switch

def long : Switch → String
  | config => "config"
  | verbose => "verbose"
  | json => "json"
  | tree => "tree"
  | root => "root"
  | lib => "lib"
  | help => "help"
  | version => "version"

def short? : Switch → Option Char
  | verbose => some 'v'
  | root => some 'r'
  | help => some 'h'
  | version => some 'V'
  | _ => none

def takesValue : Switch → Bool
  | config | root | lib => true
  | _ => false

end Switch

def switches : Option Verb → List Switch
  | none => [.config, .verbose, .help, .version]
  | some .outline => [.config, .verbose, .help, .json, .tree]
  | some .refs => [.config, .verbose, .help, .json, .root, .lib]
  | some .diagnostics => [.config, .verbose, .help, .json]
  | some .serve | some .schema => [.config, .verbose, .help]

def takesPath : Option Verb → Bool
  | some .outline | some .refs | some .diagnostics => true
  | _ => false

inductive Pending where
  | awaiting (switch : Switch)
  | value (switch : Switch) (value : String)
  | path (path : String)
deriving DecidableEq

structure Level where
  config : Option String := none
  verbose : Bool := false
  json : Bool := false
  tree : Bool := false
  roots : List String := []
  libs : List String := []
  path : Option String := none
  pending : Option Pending := none
  plain : Bool := false
deriving DecidableEq

namespace Level

def enterValue (l : Level) (switch : Switch) (value : String) : Except UsageError Level :=
  match switch with
  | .config =>
    if l.config.isSome then .error .argumentConflict
    else if value = "" then .error .invalidValue
    else .ok { l with config := some value }
  | .lib => if value = "" then .error .invalidValue else .ok { l with libs := l.libs ++ [value] }
  | .root => .ok { l with roots := l.roots ++ [value] }
  | _ => .error .tooManyValues

def settle (l : Level) : Except UsageError Level :=
  let settled := { l with pending := none }
  match l.pending with
  | none => .ok settled
  | some (.awaiting _) => .error .invalidValue
  | some (.value switch value) => settled.enterValue switch value
  | some (.path path) =>
    if path = "" then .error .invalidValue else .ok { settled with path := some path }

def setFlag (l : Level) (switch : Switch) : Except UsageError Level :=
  match switch with
  | .verbose => if l.verbose then .error .argumentConflict else .ok { l with verbose := true }
  | .json => if l.json then .error .argumentConflict else .ok { l with json := true }
  | .tree => if l.tree then .error .argumentConflict else .ok { l with tree := true }
  | .help => .error .help
  | .version => .error .version
  | .config | .root | .lib => .error .invalidValue

def take (l : Level) (switch : Switch) (joined : Option String) : Except UsageError Level := do
  let l ← l.settle
  match joined with
  | some value => l.enterValue switch value
  | none =>
    if switch.takesValue then .ok { l with pending := some (.awaiting switch) }
    else l.setFlag switch

def takeLong (verb : Option Verb) (l : Level) (body : List Char) : Except UsageError Level :=
  let name := String.ofList (body.takeWhile (· != '='))
  let joined := match body.dropWhile (· != '=') with
    | _ :: value => some (String.ofList value)
    | [] => none
  match (switches verb).find? (·.long = name) with
  | none => .error .unknownArgument
  | some switch =>
    if joined.isSome && !switch.takesValue then .error .tooManyValues else l.take switch joined

/-- Switches by their letters. What follows one that takes a value is its value, without an equals
sign in front. -/
def takeShort (verb : Option Verb) (l : Level) : List Char → Except UsageError Level
  | [] => .ok l
  | c :: cs =>
    match (switches verb).find? (·.short? = some c) with
    | none => .error .unknownArgument
    | some switch =>
      if switch.takesValue then
        match cs with
        | [] => l.take switch none
        | '=' :: value => l.take switch (some (.ofList value))
        | value => l.take switch (some (.ofList value))
      else do
        let l ← l.take switch none
        takeShort verb l cs

def takeWord (verb : Option Verb) (l : Level) (word : String) : Except UsageError Level :=
  if takesPath verb && l.path.isNone && !(l.pending matches some (.path _)) then do
    let l ← l.settle
    return { l with pending := some (.path word) }
  else if verb.isNone && !l.plain then .error .invalidSubcommand
  else .error .unknownArgument

def takeArgument (verb : Option Verb) (l : Level) (arg : String) : Except UsageError Level :=
  if l.plain then l.takeWord verb arg
  else
    match arg.toList with
    | ['-', '-'] => .ok { l with plain := true }
    | '-' :: '-' :: body => l.takeLong verb body
    | '-' :: c :: cs => l.takeShort verb (c :: cs)
    | _ =>
      match l.pending with
      | some (.awaiting switch) => .ok { l with pending := some (.value switch arg) }
      | _ => l.takeWord verb arg

def takeAll (verb : Option Verb) (l : Level) : List String → Except UsageError Level
  | [] => l.settle
  | arg :: rest => do takeAll verb (← l.takeArgument verb arg) rest

def expectsVerb (l : Level) : Bool :=
  !l.plain && !(l.pending matches some (.awaiting _))

def takeUntilVerb (l : Level) :
    List String → Except UsageError (Level × Option (String × List String))
  | [] => do return (← l.settle, none)
  | arg :: rest =>
    if l.expectsVerb && (arg = "help" || (verbs.lookup arg).isSome) then .ok (l, some (arg, rest))
    else do takeUntilVerb (← l.takeArgument none arg) rest

def command (l : Level) : Verb → Except UsageError Command
  | .outline =>
    match l.path with
    | some path =>
      if l.tree && !l.json then .error .missingRequiredArgument
      else .ok (.outline path l.json l.tree)
    | none => .error .missingRequiredArgument
  | .refs =>
    match l.path with
    | some path =>
      if l.roots.isEmpty then .error .missingRequiredArgument
      else .ok (.refs path l.roots l.libs l.json)
    | none => .error .missingRequiredArgument
  | .diagnostics =>
    match l.path with
    | some path => .ok (.diagnostics path l.json)
    | none => .error .missingRequiredArgument
  | .serve => .ok .serve
  | .schema => .ok .schema

end Level

def helpOn : List String → UsageError
  | [] => .help
  | [name] => if name = "help" || (verbs.lookup name).isSome then .help else .invalidSubcommand
  | _ => .invalidSubcommand

/-- The invocation that the arguments ask for. A configuration named after the command wins over one
named before it. -/
def parse (args : List String) : Except UsageError Invocation := do
  let (before, found) ← Level.takeUntilVerb {} args
  match found with
  | none =>
    .error (if before.config.isNone && !before.verbose then .helpOnMissing else .missingSubcommand)
  | some (name, rest) =>
    match verbs.lookup name with
    | none => .error (helpOn rest)
    | some verb =>
      let after ← Level.takeAll (some verb) {} rest
      let command ← after.command verb
      let before ← before.settle
      return {
        config := after.config.or before.config
        verbose := before.verbose || after.verbose
        command }

end Arguments

end ScriptLens
