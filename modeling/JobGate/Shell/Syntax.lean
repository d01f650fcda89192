/-
The scripts of a command shell.

A word is a list of parts, since what becomes of a part depends on whether it was
quoted.  Commands nest: what a compound command is made of are commands again.
-/

namespace JobGate
namespace Shell

/-- What is done with a parameter. -/
inductive ParamUse
  | value
  | length
  /-- A word stands in when the parameter is unset, or also when it is empty. -/
  | default (orEmpty : Bool)
  /-- Like `default`, and the parameter is set to the word. -/
  | assign (orEmpty : Bool)
  /-- A word stands in when the parameter is set. -/
  | alternative (orEmpty : Bool)
  /-- The script ends with a message when the parameter is unset. -/
  | demand (orEmpty : Bool)
  /-- What matches a pattern is cut off the end. -/
  | cutEnd (longest : Bool)
  /-- What matches a pattern is cut off the start. -/
  | cutStart (longest : Bool)
deriving DecidableEq, Repr

def ParamUse.cuts : ParamUse → Bool
  | cutEnd _ | cutStart _ => true
  | value | length | default _ | assign _ | alternative _ | demand _ => false

inductive RedirectKind
  | input
  | output
  | append
  | duplicate
  /-- The target is the text that is read. -/
  | document
deriving DecidableEq, Repr

mutual

/-- A part of a word. -/
inductive Part
  | text (s : String) (quoted : Bool)
  | param (name : String) (use : ParamUse) (word : List Part) (quoted : Bool)
  | arithmetic (expression : List Part)
  | command (c : Command) (quoted : Bool)

/-- A redirection of a file descriptor. -/
inductive Redirect
  | mk (descriptor : Nat) (kind : RedirectKind) (target : List Part)

inductive Command
  | nothing
  | simple (line : Nat) (words : List (List Part)) (redirects : List Redirect)
  | redirected (body : Command) (redirects : List Redirect)
  | subshell (body : Command)
  | group (body : Command)
  | branch (condition yes no : Command)
  | repeated (until_ : Bool) (condition body : Command)
  /-- Without words the loop runs over the positional parameters. -/
  | each (name : String) (words : Option (List (List Part))) (body : Command)
  | choose (word : List Part) (arms : List (List (List Part) × Command))
  | define (name : String) (body : Command)
  | negated (body : Command)
  | pipe (left right : Command)
  | both (left right : Command)
  | either (left right : Command)
  | sequence (first second : Command)
  | background (body : Command)

end

abbrev Word := List Part

end Shell
end JobGate
