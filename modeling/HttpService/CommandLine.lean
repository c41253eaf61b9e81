import HttpService.Client
import HttpService.Configuration.Settings
import HttpService.Declaration.Codec
import HttpService.Endpoint.Codec
import HttpService.Endpoint.Render
import HttpService.Url.PlainNames
import HttpService.Validation.Services

/-!
# The command line

Three commands work on a service declaration: `check` reports what is wrong with it, `describe`
prints its endpoints, and `call` calls one of them; another tells the version.  A command is a pure
function of the declaration's bytes, the environment and the transport; it ends with an exit code
and two texts.  The program has no tables of domain names, so it takes the mapping that refuses what
needs them.
-/

namespace HttpService

inductive Command
  | version
  | check (file : String)
  | describe (file : String) (asJson : Bool)
  | call (file function : String) (baseUrl : Option String) (texts documents : List String)
  deriving DecidableEq, Repr

/-- How a command ends: its exit code, and what it writes to its two outputs. -/
structure Report where
  exit : Nat
  output : String
  errors : String
  deriving DecidableEq, Repr

namespace CommandLine

/-! ## Reading the arguments -/

/-- The arguments of a command, sorted: the positional ones, and the options with their values. -/
structure Sorted where
  positional : List String
  options : List (String × String)
  flags : List String

/-- The words with a value, and those without, that a command knows. -/
structure Vocabulary where
  options : List String
  flags : List String

def looksLikeOption (word : String) : Bool :=
  word.toList.head? == some '-' && word != "-"

def cutValue (word : String) : Option (String × String) :=
  (Text.cut (· == '=') word.toList).map fun p => (String.ofList p.1, String.ofList p.2)

/-- Sorts the words of a command; none if one of them has no place. -/
def sortWords (v : Vocabulary) : List String → Option Sorted
  | [] => some ⟨[], [], []⟩
  | "--" :: rest => some ⟨rest, [], []⟩
  | word :: rest =>
    if !looksLikeOption word then
      (sortWords v rest).map fun s => { s with positional := word :: s.positional }
    else if v.flags.contains word then
      (sortWords v rest).map fun s => { s with flags := word :: s.flags }
    else if v.options.contains word then
      match rest with
      | value :: more =>
        if looksLikeOption value then none
        else (sortWords v more).map fun s => { s with options := (word, value) :: s.options }
      | [] => none
    else
      match cutValue word with
      | some (name, value) =>
        if v.options.contains name then
          (sortWords v rest).map fun s => { s with options := (name, value) :: s.options }
        else none
      | none => none

def Sorted.values (s : Sorted) (option : String) : List String :=
  (s.options.filter fun o => o.1 = option).map (·.2)

/-- The value of an option that may stand once. -/
def Sorted.value? (s : Sorted) (option : String) : Option (Option String) :=
  match s.values option with
  | [] => some none
  | [value] => some (some value)
  | _ => none

def command? : List String → Option Command
  | "--version" :: _ => some .version
  | "-V" :: _ => some .version
  | "check" :: words =>
    match sortWords ⟨[], []⟩ words with
    | some ⟨[file], _, _⟩ => some (.check file)
    | _ => none
  | "describe" :: words =>
    match sortWords ⟨[], ["--json"]⟩ words with
    | some ⟨[file], _, []⟩ => some (.describe file false)
    | some ⟨[file], _, [_]⟩ => some (.describe file true)
    | _ => none
  | "call" :: words => do
    let sorted ← sortWords ⟨["--base-url", "--arg", "--json"], []⟩ words
    let baseUrl ← sorted.value? "--base-url"
    match sorted.positional with
    | [file, function] =>
      some (.call file function baseUrl (sorted.values "--arg") (sorted.values "--json"))
    | _ => none
  | _ => none

/-! ## Reports -/

def said (message : String) : String :=
  "restwire: " ++ message ++ "\n"

def versionText : String :=
  "restwire 0.1.0"

def succeed (output : String) : Report :=
  ⟨0, output, ""⟩

def failCall (message : String) : Report :=
  ⟨1, "", said message⟩

def abandon (message : String) : Report :=
  ⟨2, "", said message⟩

def usage : Report :=
  abandon "expected check <file>, describe [--json] <file>, or call [options] <file> <function>"

/-! ## Reading the inputs -/

def readDeclaration (file : String) (input : Except String Bytes) : Except Report ServiceDecl :=
  let source := if file = "-" then "stdin" else file
  match input with
  | .error fault => .error (abandon ("failed to read " ++ source ++ ": " ++ fault))
  | .ok bytes =>
    let failed (reason : String) : Report :=
      abandon ("failed to parse service declaration: " ++ reason)
    if (Utf8.decode? bytes).isNone then
      .error (abandon ("failed to read " ++ source ++ ": stream did not contain valid UTF-8"))
    else
      match Json.parseAs ServiceDecl.outline bytes with
      | .error fault => .error (failed fault.message)
      | .ok document =>
        match ServiceDecl.ofJson? document with
        | some declaration => .ok declaration
        | none => .error (failed "the document is not a service declaration")

def readPair (option word : String) : Except Report (String × String) :=
  match cutValue word with
  | some pair => .ok pair
  | none => .error (abandon
      ("invalid " ++ option ++ " " ++ Text.quoted word ++ ": expected format <name>=<value>"))

def readText (word : String) : Except Report (String × Argument) :=
  (readPair "--arg" word).map fun p => (p.1, .string p.2)

def readDocument (word : String) : Except Report (String × Argument) := do
  let (name, text) ← readPair "--json" word
  match Json.parseNormal (Utf8.encode text.toList) with
  | .ok value => return (name, Argument.ofJson value)
  | .error fault => throw (abandon ("invalid JSON for " ++ name ++ ": " ++ fault.message))

/-- The arguments of a call: texts, then documents; a later one takes the place of an earlier one
of the same name. -/
def readArguments (texts documents : List String) : Except Report Arguments := do
  let first ← texts.mapM readText
  let second ← documents.mapM readDocument
  return Arguments.ofList (first ++ second)

/-! ## The commands -/

def check (declaration : ServiceDecl) : Report :=
  match declaration.validate with
  | .ok service =>
    succeed ("valid: " ++ service.name ++ " (" ++ toString service.endpoints.length ++
      " functions)\n")
  | .error diagnostics => ⟨1, "", Diagnostic.report diagnostics⟩

def overview (service : Service) : String :=
  service.name ++ " implements " ++ service.implements ++ "\n" ++
    String.join (service.endpoints.map fun (e : Endpoint) => "\n" ++ e.render)

/-- Prints the valid endpoints of a declaration, and reports what is wrong with the others. -/
def describe (declaration : ServiceDecl) (asJson : Bool) : Report :=
  let analysis := declaration.analyze
  let output := match analysis.service with
    | none => ""
    | some service => if asJson then service.toJson.pretty ++ "\n" else overview service
  ⟨if analysis.diagnostics.isEmpty then 0 else 1, output, Diagnostic.report analysis.diagnostics⟩

def answerReport : Except CallFault (Answer Json) → Report
  | .ok (.success value _) => succeed (value.pretty ++ "\n")
  | .ok (.error exchange) =>
    let status := toString exchange.response.status.toNat
    let body := String.ofList (Utf8.decodeLossy exchange.response.body)
    ⟨1, "", said ("server responded with status " ++ status) ++ body ++ "\n"⟩
  | .ok (.failure fault _) => failCall fault.message
  | .error fault => abandon fault.message

/-- The client that an environment sets up; a base URL that is given takes precedence. -/
def client {σ : Type} [DomainNames] (env : String → Option String) (baseUrl : Option String)
    (transport : Transport σ) : Except ConfigurationFault (Client σ) := do
  let settings ← Settings.ofVariables env
  settings.checkUserAgent
  let given := baseUrl.or (env Settings.baseUrlVariable)
  let base ← { settings with baseUrl := given.or settings.baseUrl }.requireBaseUrl
  Client.ofText base Converter.defaults [] transport

def call {σ : Type} [DomainNames] (declaration : ServiceDecl) (env : String → Option String)
    (transport : Transport σ) (state : σ) (function : String) (baseUrl : Option String)
    (texts documents : List String) : Report :=
  match declaration.validate with
  | .error diagnostics => ⟨1, "", Diagnostic.report diagnostics⟩
  | .ok service =>
    match client env baseUrl transport with
    | .error fault => abandon fault.message
    | .ok client =>
      match readArguments texts documents with
      | .error report => report
      | .ok args =>
        let bound : ServiceClient σ := ⟨client, service⟩
        answerReport (bound.invokeJson function args state).1

end CommandLine

/-- The file that a command reads, if it reads one; `-` is the standard input. -/
def Command.file? : Command → Option String
  | .version => none
  | .check file => some file
  | .describe file _ => some file
  | .call file _ _ _ _ => some file

/-- Carries out a command, given the bytes of its file or the fault of reading them. -/
def Command.run {σ : Type} [DomainNames] (c : Command) (input : Except String Bytes)
    (env : String → Option String) (transport : Transport σ) (state : σ) : Report :=
  let reading (file : String) (use : ServiceDecl → Report) : Report :=
    match CommandLine.readDeclaration file input with
    | .error report => report
    | .ok declaration => use declaration
  match c with
  | .version => CommandLine.succeed (CommandLine.versionText ++ "\n")
  | .check file => reading file CommandLine.check
  | .describe file asJson => reading file fun d => CommandLine.describe d asJson
  | .call file function baseUrl texts documents =>
    reading file fun d => CommandLine.call d env transport state function baseUrl texts documents

end HttpService
