/-!
What a command line asks for. Arguments are taken from left to right and the first wrong one is
reported; a request for the version or for help is met as soon as it is reached.
-/

namespace BindingGen.CommandLine

/-- What a run is told to do. -/
structure Options where
  module : String
  force : Bool
  input : Option String
  outputDir : String
  dryRun : Bool
  verbose : Bool
  deriving DecidableEq, Repr

/-- What a command line asks for. -/
inductive Request where
  | version
  | help
  | generate (options : Options)
  deriving DecidableEq, Repr

/-- What is wrong with a command line. -/
inductive UsageFault where
  | unknown (argument : String)
  | missingValue (option : String)
  | uncalledValue (option : String)
  | repeated (option : String)
  deriving DecidableEq, Repr

/-- The text of a usage fault. -/
def UsageFault.message : UsageFault → String
  | .unknown argument => "unexpected argument '" ++ argument ++ "' found"
  | .missingValue option => "a value is required for '" ++ option ++ "' but none was supplied"
  | .uncalledValue option => "unexpected value for '" ++ option ++ "' found; no more were expected"
  | .repeated option => "the argument '" ++ option ++ "' cannot be used multiple times"

/-- An argument by its meaning. -/
inductive Key where
  | force
  | dryRun
  | verbose
  | input
  | outputDir
  | version
  | help
  deriving DecidableEq, Repr

namespace Key

/-- The keys by their long names. -/
def longNames : List (String × Key) :=
  [("force", force), ("dry-run", dryRun), ("verbose", verbose), ("input", input),
   ("output-dir", outputDir), ("version", version), ("help", help)]

/-- The keys by their letters. -/
def letters : List (Char × Key) :=
  [('f', force), ('v', verbose), ('i', input), ('o', outputDir), ('V', version), ('h', help)]

/-- Whether a key is followed by a value. -/
def takesValue : Key → Bool
  | input => true
  | outputDir => true
  | _ => false

end Key

/-- The arguments taken so far. -/
structure Draft where
  module : Option String
  values : List (Key × String)
  flags : List Key
  deriving DecidableEq, Repr

namespace Draft

/-- No argument taken. -/
def empty : Draft := ⟨none, [], []⟩

/-- The options of a command line that is taken in full. -/
def options (draft : Draft) : Options where
  module := draft.module.getD "example"
  force := draft.flags.contains .force
  input := draft.values.lookup .input
  outputDir := (draft.values.lookup .outputDir).getD "."
  dryRun := draft.flags.contains .dryRun
  verbose := draft.flags.contains .verbose

/-- Takes the name of the module. -/
def takeModule (draft : Draft) (name : String) : Except UsageFault Draft :=
  match draft.module with
  | none => .ok { draft with module := some name }
  | some _ => .error (.unknown name)

/-- Takes a flag. -/
def takeFlag (draft : Draft) (key : Key) (shown : String) : Except UsageFault Draft :=
  if draft.flags.contains key then .error (.repeated shown)
  else .ok { draft with flags := key :: draft.flags }

/-- Takes the value of an option; a path has at least one character. -/
def takeValue (draft : Draft) (key : Key) (shown value : String) : Except UsageFault Draft :=
  if value.isEmpty then .error (.missingValue shown)
  else if (draft.values.lookup key).isSome then .error (.repeated shown)
  else .ok { draft with values := (key, value) :: draft.values }

end Draft

/-- How the keys of one argument end. -/
inductive Ending where
  /-- All is taken. -/
  | complete (draft : Draft)
  /-- A value is still to come, as the next argument. -/
  | awaiting (draft : Draft) (key : Key)
  /-- A request that is met at once. -/
  | answered (request : Request)
  deriving DecidableEq, Repr

/-- The request of a key that asks for something else than a run. -/
def Key.request? : Key → Option Request
  | .version => some .version
  | .help => some .help
  | _ => none

/-- Takes the letters of one argument. The value of an option may be attached to its letter, with or
without an equals sign. -/
def takeLetters (draft : Draft) (shown : String) : List Char → Except UsageFault Ending
  | [] => .ok (.complete draft)
  | letter :: rest =>
    match Key.letters.lookup letter with
    | none => .error (.unknown shown)
    | some key =>
      match key.request? with
      | some request => .ok (.answered request)
      | none =>
        if key.takesValue then
          match rest with
          | [] => .ok (.awaiting draft key)
          | '=' :: value => (draft.takeValue key shown (String.ofList value)).map .complete
          | value => (draft.takeValue key shown (String.ofList value)).map .complete
        else
          match draft.takeFlag key shown with
          | .error fault => .error fault
          | .ok draft => takeLetters draft shown rest

/-- The characters before the first equals sign, and those after it if there is one. -/
def splitEquals : List Char → List Char × Option (List Char)
  | [] => ([], none)
  | c :: rest =>
    if c = '=' then ([], some rest)
    else
      let (before, after) := splitEquals rest
      (c :: before, after)

/-- Takes an argument by its long name. -/
def takeLong (draft : Draft) (shown : String) (cs : List Char) : Except UsageFault Ending :=
  let (name, value) := splitEquals cs
  match Key.longNames.lookup (String.ofList name), value with
  | none, _ => .error (.unknown shown)
  | some key, some value =>
    if key.takesValue then (draft.takeValue key shown (String.ofList value)).map .complete
    else .error (.uncalledValue shown)
  | some key, none =>
    match key.request? with
    | some request => .ok (.answered request)
    | none =>
      if key.takesValue then .ok (.awaiting draft key)
      else (draft.takeFlag key shown).map .complete

/-- Takes arguments none of which is an option. -/
def takeModules (draft : Draft) : List String → Except UsageFault Draft
  | [] => .ok draft
  | name :: rest =>
    match draft.takeModule name with
    | .ok draft => takeModules draft rest
    | .error fault => .error fault

/-- Takes the keys of one argument, or the name of the module. A lone dash is a name. -/
def takeArgument (draft : Draft) (argument : String) : Except UsageFault Ending :=
  match argument.toList with
  | '-' :: '-' :: cs => takeLong draft argument cs
  | '-' :: c :: cs => takeLetters draft argument (c :: cs)
  | _ => (draft.takeModule argument).map .complete

/-- Whether an argument can be the value of the option before it. -/
def isValue (argument : String) : Bool := argument == "-" || argument.toList.head? != some '-'

/-- Takes all arguments. -/
def takeAll (draft : Draft) : List String → Except UsageFault Request
  | [] => .ok (.generate draft.options)
  | argument :: rest =>
    if argument = "--" then (takeModules draft rest).map fun draft => .generate draft.options
    else
      match takeArgument draft argument with
      | .error fault => .error fault
      | .ok (.answered request) => .ok request
      | .ok (.complete draft) => takeAll draft rest
      | .ok (.awaiting draft key) =>
        match rest with
        | [] => .error (.missingValue argument)
        | value :: rest =>
          if isValue value then
            match draft.takeValue key argument value with
            | .ok draft => takeAll draft rest
            | .error fault => .error fault
          else .error (.missingValue argument)

/-- What a command line asks for. -/
def parse (arguments : List String) : Except UsageFault Request := takeAll .empty arguments

end BindingGen.CommandLine
