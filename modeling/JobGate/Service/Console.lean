/-
Lines that are typed at a console.

A line is a message written as a JSON object, or else what somebody at the
console says.  A blank line is nothing.
-/
import JobGate.Wire.Records

namespace JobGate
namespace Console

def sender : String := "console"

def conversation : String := "console"

def said (body : String) : Inbound where
  channel := Inbound.defaultChannel
  sender := sender
  conversation := conversation
  body := body

/-- The message in a line, or why there is none; a blank line has no answer. -/
def read? (line : String) : Option (Except Wire.Fault Inbound) :=
  let text := Text.trim line
  if text.isEmpty then none
  else if text.toList.head? = some '\x7b' then some (Inbound.ofText text)
  else some (.ok (said text))

end Console
end JobGate
