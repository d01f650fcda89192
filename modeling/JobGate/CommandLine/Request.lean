/-
What a command line asks for.
-/
import JobGate.CommandLine.Options
import JobGate.Settings.Location

namespace JobGate
namespace CommandLine

/-- What is to be done.  The path is that of the settings, where one was given. -/
inductive Request
  | help
  | interpret (text : String)
  | check (path : Option String)
  | serve (path : Option String)
deriving DecidableEq, Repr

/-- Why a command line asks for nothing that can be done. -/
inductive Misuse
  | options (fault : OptionFault)
  | unknownCommand (word : String)
  | noText
deriving DecidableEq, Repr

def Misuse.message : Misuse → String
  | options fault => fault.message
  | unknownCommand word => "unknown command `" ++ word ++ "`\n\n" ++ helpText
  | noText => "usage: runbridge parse <text>"

namespace Request

/-- The request in arguments.  The options are looked at before the verb. -/
def ofArgs : List String → Except Misuse Request
  | [] => .ok .help
  | word :: rest =>
    match Options.parse rest with
    | .error fault => .error (.options fault)
    | .ok options =>
      match Verb.ofWord word with
      | .help => .ok .help
      | .parse =>
        if options.words.isEmpty then .error .noText
        else .ok (.interpret (" ".intercalate options.words))
      | .checkConfig => .ok (.check options.path)
      | .serve => .ok (.serve options.path)
      | .unknown => .error (.unknownCommand word)

/-- The path of the settings that a request is carried out with, if it needs any. -/
def settingsPath? (e : Settings.Environment) : Request → Option String
  | check path | serve path => path.or (Settings.usualPath? e)
  | _ => none

def readsChannel : Request → Bool
  | serve _ => true
  | _ => false

end Request
end CommandLine
end JobGate
