/-!
# Log settings

Three texts of the environment say what is reported. Debugging is on for a
few words in any letter case. A level that is absent or unknown falls back on
whether debugging is on, and a format on the one for machines. Letter case is
that of ASCII, which decides all words that count here.
-/

namespace BoundSql.Log

/-- The texts of the environment, each of which may be absent. -/
structure Environment where
  debug : Option String := none
  level : Option String := none
  format : Option String := none
  deriving DecidableEq, Repr

/-- The least urgent events that are reported. -/
inductive Threshold where
  | trace
  | debug
  | info
  | warn
  | error
  deriving DecidableEq, Repr

/-- How events are written. -/
inductive Format where
  | json
  | pretty
  | compact
  deriving DecidableEq, Repr

/-- The name of a threshold. -/
def Threshold.name : Threshold → String
  | trace => "trace"
  | debug => "debug"
  | info => "info"
  | warn => "warn"
  | error => "error"

/-- Every threshold. -/
def Threshold.all : List Threshold := [trace, debug, info, warn, error]

/-- The name of a format. -/
def Format.name : Format → String
  | json => "json"
  | pretty => "pretty"
  | compact => "compact"

/-- Every format. -/
def Format.all : List Format := [json, pretty, compact]

/-- A text in small letters. -/
def lower (text : String) : String :=
  String.ofList (text.toList.map Char.toLower)

namespace Environment

/-- Whether debugging is on. -/
def debugging (environment : Environment) : Bool :=
  match environment.debug with
  | some text => ["true", "1", "yes"].contains (lower text)
  | none => false

/-- The threshold in effect. -/
def threshold (environment : Environment) : Threshold :=
  let fallback : Threshold := if environment.debugging then .debug else .warn
  match environment.level with
  | some text => (Threshold.all.find? fun t => t.name == lower text).getD fallback
  | none => fallback

/-- The format in effect. -/
def formatting (environment : Environment) : Format :=
  match environment.format with
  | some text => (Format.all.find? fun f => f.name == lower text).getD .json
  | none => .json

/-- The environment after debugging has been asked for. -/
def withDebug (environment : Environment) : Environment :=
  { environment with debug := some "true" }

/-- The environment after a level has been asked for. -/
def withLevel (environment : Environment) (level : String) : Environment :=
  { environment with level := some level }

end Environment

/-- The filter that lets the events of the library through from a level on. -/
def filterDirective (level : String) : String :=
  "querymaker=" ++ level ++ ",querymaker_query=" ++ level

end BoundSql.Log
