/-
Messages that come in from a chat channel.
-/
import JobGate.Text.Blank

namespace JobGate

/-- A message and where it came from.  The provider's identifier is there when
the channel gives its messages one. -/
structure Inbound where
  channel : String
  sender : String
  conversation : String
  body : String
  providerId : Option String := none
deriving DecidableEq, Repr

namespace Inbound

/-- The channel of a message that names none. -/
def defaultChannel : String := "chat"

/-- The fields that may not be blank. -/
inductive Field
  | channel
  | sender
  | conversation
  | body
deriving DecidableEq, Repr

def Field.name : Field → String
  | channel => "channel"
  | sender => "from"
  | conversation => "conversation"
  | body => "body"

def Field.message (f : Field) : String :=
  "inbound message field `" ++ f.name ++ "` is required and must be non-empty"

def get (m : Inbound) : Field → String
  | .channel => m.channel
  | .sender => m.sender
  | .conversation => m.conversation
  | .body => m.body

def blankField? (m : Inbound) : Option Field :=
  [Field.channel, .sender, .conversation, .body].find? fun f => Text.isEmptyTrimmed (m.get f)

/-- What tells this message from others of its sender: the provider's
identifier, or else what it holds. -/
def source (m : Inbound) : String := m.providerId.getD m.body

end Inbound
end JobGate
