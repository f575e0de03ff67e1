import GattSync.Text.Padded
import GattSync.Json.Decoder

/-!
# Connection states

The states that one cycle walks through, in order: idle, scanning, connecting, connected,
disconnected. The last one ends the cycle.
-/

namespace GattSync

/-- Where a cycle stands with its peripheral. -/
inductive Connection where
  /-- The adapter has not been seen powered on. -/
  | idle
  | scanning
  /-- A peripheral matched and a connection was requested. -/
  | connecting
  | connected
  /-- The peripheral has disconnected. -/
  | disconnected
  deriving DecidableEq, Repr, Inhabited

namespace Connection

def text : Connection → String
  | .idle => "Idle"
  | .scanning => "Scanning"
  | .connecting => "Connecting"
  | .connected => "Connected"
  | .disconnected => "Disconnected"

/-- All states, in the order of a cycle. -/
def all : List Connection := [.idle, .scanning, .connecting, .connected, .disconnected]

/-- The state of that name. -/
def ofText? (s : String) : Option Connection := all.find? fun c => c.text == s

def isConnected (c : Connection) : Bool := c == .connected

/-- A completed connection request is of interest. It can overtake the end of the scan. -/
def awaitsConnection (c : Connection) : Bool := c == .scanning || c == .connecting

/-- The cycle is over. -/
def isDone (c : Connection) : Bool := c == .disconnected

def toJson (c : Connection) : Json := Json.ofText c.text

def ofJson? : Json → Option Connection := Json.asChoice? (all.map fun c => (c.text, c))

end Connection
end GattSync
