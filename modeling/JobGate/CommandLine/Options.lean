/-
What is asked for on a command line.

The first argument is a verb.  Among the others the path of the settings may be
given, in one argument or in two, and the last one given counts.  Everything that
looks like another flag is refused, and what does not is a word for the verb.
-/

namespace JobGate
namespace CommandLine

/-- What can be asked for. -/
inductive Verb
  | serve
  | parse
  | checkConfig
  | help
  | unknown
deriving DecidableEq, Repr

def Verb.ofWord (s : String) : Verb :=
  if s = "serve" then serve
  else if s = "parse" then parse
  else if s = "check-config" then checkConfig
  else if s = "help" || s = "--help" || s = "-h" then help
  else unknown

def helpText : String := "\n".intercalate [
  "Usage: runbridge <command> [--config <path>]",
  "",
  "Commands:",
  "  serve          Read chat messages from stdin, write replies to stdout",
  "  parse <text>   Show how a chat message is interpreted",
  "  check-config   Load and validate the settings file",
  "  help           Show this help",
  "",
  "Settings default to ~/.runbridge/config.yaml (override with RUNBRIDGE_CONFIG)."]

/-- Why arguments could not be taken. -/
inductive OptionFault
  | noPath
  | unknownFlag (flag : String)
deriving DecidableEq, Repr

def OptionFault.message : OptionFault → String
  | noPath => "`--config` requires a path"
  | unknownFlag flag => "unknown flag `" ++ flag ++ "`"

/-- The arguments behind the verb. -/
structure Options where
  /-- The path of the settings. -/
  path : Option String := none
  words : List String := []
deriving DecidableEq, Repr

namespace Options

/-- The flag whose value is an argument of its own. -/
def flag : String := "--config"

def joinedFlag : List Char := "--config=".toList

def joinedValue? (arg : String) : Option String :=
  if joinedFlag.isPrefixOf arg.toList then some (String.ofList (arg.toList.drop joinedFlag.length))
  else none

/-- Whether an argument looks like a flag. -/
def looksLikeFlag (arg : String) : Bool := "--".toList.isPrefixOf arg.toList

def parseFrom (o : Options) : List String → Except OptionFault Options
  | [] => .ok o
  | arg :: rest =>
    if arg = flag then
      match rest with
      | [] => .error .noPath
      | path :: rest => parseFrom { o with path := some path } rest
    else
      match joinedValue? arg with
      | some path =>
        if path.isEmpty then .error .noPath else parseFrom { o with path := some path } rest
      | none =>
        if looksLikeFlag arg then .error (.unknownFlag arg)
        else parseFrom { o with words := o.words ++ [arg] } rest

def parse (args : List String) : Except OptionFault Options := parseFrom {} args

end Options
end CommandLine
end JobGate
