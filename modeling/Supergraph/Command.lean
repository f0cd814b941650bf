import Supergraph.Composition
import Supergraph.Config
import Supergraph.FilePath
import Supergraph.Text.Json

namespace Supergraph.Command

open Text

structure Request where
  config : String
  json : Bool := false
  disabledRules : List String := []
deriving DecidableEq, Inhabited

structure Arguments where
  configs : List String := []
  json : Nat := 0
  disabledRules : List String := []

def Arguments.read? (a : Arguments) : List String → Option Arguments
  | [] => some a
  -- Behind two dashes there are no options.
  | "--" :: rest => some { a with configs := a.configs ++ rest }
  | "--json" :: rest => read? { a with json := a.json + 1 } rest
  | "--disable-rule" :: name :: rest =>
    if isOption name then none
    else read? { a with disabledRules := a.disabledRules ++ [name] } rest
  | argument :: rest =>
    let name := argument.toList.drop "--disable-rule=".length
    if "--disable-rule=".toList.isPrefixOf argument.toList then
      read? { a with disabledRules := a.disabledRules ++ [String.ofList name] } rest
    else if isOption argument then none
    else read? { a with configs := a.configs ++ [argument] } rest
where
  isOption (argument : String) : Bool := argument.toList.head? == some '-' && argument != "-"

def Request.ofArguments? : List String → Option Request
  | "compose" :: rest => do
    let a ← Arguments.read? {} rest
    match a.configs with
    | [config] =>
      if config.isEmpty || a.json > 1 then none
      else some { config, json := a.json == 1, disabledRules := a.disabledRules }
    | _ => none
  | _ => none

inductive Failure
  | usage
  | unreadableConfig (path : String)
  | invalidConfig (path : String)
  | unreadableSchema (subgraph path : String)
deriving DecidableEq, Inhabited

def Failure.message : Failure → String
  | .usage => "Usage: supergraph compose [--json] [--disable-rule <NAME>]... <CONFIG>"
  | .unreadableConfig path => "Error: failed to read " ++ path
  | .invalidConfig path => "Error: invalid supergraph config " ++ path
  | .unreadableSchema subgraph path =>
    "Error: failed to read schema of subgraph " ++ subgraph ++ " at " ++ path

structure Outcome where
  exitCode : UInt32
  output : String := ""
  error : String := ""
deriving DecidableEq, Inhabited

def Failure.outcome (f : Failure) : Outcome where
  exitCode := if f = .usage then 2 else 1
  error := f.message ++ "\n"

def renderText : Except (List CompositionError) Composition → String
  | .ok c => c.text
  | .error errors => "\n".intercalate (errors.map (·.report.render))

def jsonOfReport (r : ErrorReport) : Json :=
  .object [("message", .string r.message), ("code", .string r.code.text)]

def renderJson : Except (List CompositionError) Composition → String
  | .ok c => (Json.object [("supergraphSdl", .string c.text), ("errors", .array [])]).render 0
  | .error errors =>
    (Json.object [("errors", .array (errors.map fun e => jsonOfReport e.report))]).render 0

def outcome (json : Bool) (result : Except (List CompositionError) Composition) : Outcome where
  exitCode := if result.isOk then 0 else 1
  output := (if json then renderJson result else renderText result) ++ "\n"

variable {m : Type → Type} [Monad m]

def readSchemas (read : String → m (Option String)) (directory : String) :
    List (String × SubgraphSource) → m (Except Failure (List SubgraphText))
  | [] => return .ok []
  | (name, source) :: rest => do
    let path := FilePath.join directory source.file
    match ← read path with
    | none => return .error (.unreadableSchema name path)
    | some text =>
      match ← readSchemas read directory rest with
      | .error failure => return .error failure
      | .ok texts => return .ok ({ name, url := source.url, text } :: texts)

def readSubgraphs (read : String → m (Option String)) (path : String) :
    m (Except Failure (List SubgraphText)) := do
  match ← read path with
  | none => return .error (.unreadableConfig path)
  | some text =>
    match Config.parse? text with
    | none => return .error (.invalidConfig path)
    | some config => readSchemas read (FilePath.directory path) config.subgraphs.toList

def composeTexts (texts : List SubgraphText) (disabledRules : List String) :
    Except (List CompositionError) Composition :=
  match Subgraph.parseAll texts with
  | .error errors => .error errors
  | .ok subgraphs => compose subgraphs disabledRules

def run (read : String → m (Option String)) (arguments : List String) : m Outcome := do
  match Request.ofArguments? arguments with
  | none => return Failure.usage.outcome
  | some request =>
    match ← readSubgraphs read request.config with
    | .error failure => return failure.outcome
    | .ok texts => return outcome request.json (composeTexts texts request.disabledRules)

end Supergraph.Command
