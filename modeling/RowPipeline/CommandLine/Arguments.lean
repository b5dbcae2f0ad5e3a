import RowPipeline.Shard

/-!
Arguments of the program. They are read from left to right; the first thing that is wrong, or that
asks for help, ends the reading.
-/

namespace RowPipeline

namespace CommandLine

inductive OptionName where
  | plan
  | rows
  | config
  | shard
  | nodes
  | shards
  | index
  deriving DecidableEq, Repr

namespace OptionName

def name : OptionName → String
  | .plan => "plan"
  | .rows => "rows"
  | .config => "config"
  | .shard => "shard"
  | .nodes => "nodes"
  | .shards => "shards"
  | .index => "index"

def forRun : List OptionName := [.plan, .rows, .config, .shard, .nodes, .shards, .index]

def forValidate : List OptionName := [.plan, .config, .shard]

end OptionName

structure Options where
  plan : Option String := none
  rows : Option String := none
  config : Option String := none
  shard : Option String := none
  nodes : Option Nat := none
  shards : Option Nat := none
  indices : List String := []
  deriving DecidableEq, Repr

/-- A number of shards; zero may have any sign. -/
def shards? (text : String) : Option Nat :=
  match text.toList with
  | '-' :: digits => if !digits.isEmpty && digits.all (· == '0') then some 0 else none
  | digits => boundedNumber? 0x100000000 digits

def once {α : Type} (current : Option α) (value : Option α) : Option (Option α) :=
  match current, value with
  | none, some value => some (some value)
  | _, _ => none

def path? (text : String) : Option String := if text.isEmpty then none else some text

namespace Options

/-- The options with one more; `none` if the value is malformed or the option was given before. -/
def set? (options : Options) (option : OptionName) (text : String) : Option Options :=
  match option with
  | .plan => (once options.plan (path? text)).map fun plan => { options with plan := plan }
  | .rows => (once options.rows (path? text)).map fun rows => { options with rows := rows }
  | .config =>
    (once options.config (path? text)).map fun config => { options with config := config }
  | .shard => (once options.shard (some text)).map fun shard => { options with shard := shard }
  | .nodes =>
    (once options.nodes (boundedNumber? 0x10000000000000000 text.toList)).map fun nodes =>
      { options with nodes := nodes }
  | .shards =>
    (once options.shards (shards? text)).map fun shards => { options with shards := shards }
  | .index => some { options with indices := options.indices ++ [text] }

end Options

inductive Command where
  | run (plan rows : String) (config shard : Option String) (nodes shards : Nat)
      (indices : List String)
  | validate (plan : String) (config shard : Option String)
  deriving DecidableEq, Repr

inductive Request (α : Type) where
  | help
  | version
  | malformed
  | accepted (value : α)
  deriving DecidableEq, Repr

def isFlag (argument : String) : Bool :=
  match argument.toList with
  | '-' :: _ :: _ => true
  | _ => false

/-- The name of a long flag, with the value attached to it. -/
def longFlag? (argument : String) : Option (String × Option String) :=
  match argument.toList with
  | '-' :: '-' :: rest =>
    let name := String.ofList (rest.takeWhile (· != '='))
    match rest.dropWhile (· != '=') with
    | _ :: value => some (name, some (String.ofList value))
    | [] => some (name, none)
  | _ => none

def isShortFlag (letter : Char) (argument : String) : Bool :=
  match argument.toList with
  | '-' :: first :: _ => first == letter
  | _ => false

def readOptions (known : List OptionName) : List String → Options → Request Options
  | [], options => .accepted options
  | argument :: rest, options =>
    if argument == "--" then if rest.isEmpty then .accepted options else .malformed
    else
      match longFlag? argument with
      | some ("help", none) => .help
      | some (name, attached) =>
        match known.find? (·.name == name), attached, rest with
        | some option, some value, rest =>
          match options.set? option value with
          | some options => readOptions known rest options
          | none => .malformed
        | some option, none, value :: rest =>
          if isFlag value then .malformed
          else
            match options.set? option value with
            | some options => readOptions known rest options
            | none => .malformed
        | _, _, _ => .malformed
      | none => if isShortFlag 'h' argument then .help else .malformed

def Request.andThen {α β : Type} (request : Request α) (next : α → Request β) : Request β :=
  match request with
  | .help => .help
  | .version => .version
  | .malformed => .malformed
  | .accepted value => next value

def runCommand (options : Options) : Request Command :=
  match options.plan, options.rows with
  | some plan, some rows =>
    .accepted
      (.run plan rows options.config options.shard (options.nodes.getD 1) (options.shards.getD 1)
        options.indices)
  | _, _ => .malformed

def validateCommand (options : Options) : Request Command :=
  match options.plan with
  | some plan => .accepted (.validate plan options.config options.shard)
  | none => .malformed

/-- Help on the program or on one of its commands. -/
def helpCommand : List String → Request Command
  | [] => .help
  | [command] => if ["run", "validate", "help"].contains command then .help else .malformed
  | _ => .malformed

def readArguments : List String → Request Command
  | [] => .malformed
  | first :: rest =>
    match first with
    | "run" => (readOptions OptionName.forRun rest {}).andThen runCommand
    | "validate" => (readOptions OptionName.forValidate rest {}).andThen validateCommand
    | "help" => helpCommand rest
    | "--help" => .help
    | "--version" => .version
    | other =>
      if isShortFlag 'h' other then .help
      else if isShortFlag 'V' other then .version
      else .malformed

end CommandLine

end RowPipeline
