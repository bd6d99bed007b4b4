import TaskRelay.Failure
import TaskRelay.Json.Printer

/-!
# Configuration

A `Config` says where an engine is and how it runs tasks. Every field may be unset, and the
canonical form leaves unset fields out, so that whoever reads it applies its own defaults. The
canonical form is put together field by field (`Config.canonical`); what the description of the
fields makes of a configuration is `Config.derived`.

A `ConfigStore` holds at most one configuration. Configuring starts from an empty one, and an
update that breaks off leaves the store as it was.
-/

namespace TaskRelay

structure Config where
  host : Option String
  port : Option (Ranged .uint16)
  /-- How many threads an engine runs tasks on. -/
  threadCount : Option (Ranged .size)
  /-- Whether an engine says so when it is ready. -/
  readySignal : Option Bool
deriving DecidableEq

namespace Config

/-- Nothing is set. -/
def empty : Config := ⟨none, none, none, none⟩

instance : Inhabited Config := ⟨empty⟩

/-! ### The canonical form -/

/-- A member for a field that is set. -/
def member {α : Type} (key : String) (toJson : α → Json) : Option α → List (String × Json)
  | none => []
  | some a => [(key, toJson a)]

/-- The members of the fields that are set, in the order of the fields. -/
def members (c : Config) : List (String × Json) :=
  member "host" .string c.host ++ member "port" Ranged.toJson c.port ++
    member "thread_count" Ranged.toJson c.threadCount ++ member "ready_signal" .bool c.readySignal

/-- The fields that are set, by increasing key. -/
def canonical (c : Config) : List (String × Json) := Members.sort c.members

/-- The text with the fields in their own order. -/
def text (c : Config) : String := (Json.object c.members).compact

/-! ### Reading -/

def fields : Fields :=
  .cons (.blankable "host") (.option .text) <|
  .cons (.blankable "port") (.option (.int .uint16)) <|
  .cons (.blankable "thread_count") (.option (.int .size)) <|
  .cons (.blankable "ready_signal") (.option .bool) .nil

def shape : Shape := .record "struct Config" false fields

def ofData : shape.Carrier → Config
  | (host, port, threadCount, readySignal, _) => ⟨host, port, threadCount, readySignal⟩

def toData (c : Config) : shape.Carrier := (c.host, c.port, c.threadCount, c.readySignal, ())

/-- The configuration of a text. -/
def parse (t : String) : Except DecodeError Config := (shape.parse t).map ofData

/-- The configuration of a map; causes have no place. -/
def ofCanonical (members : List (String × Json)) : Except Cause Config :=
  (shape.ofJson .value (.object members)).map ofData

/-- The value that the fields write, by the same description by which they are read. -/
def derived (c : Config) : Except EncodeError Value :=
  (fields.toSetMembers c.toData).map fun members => Value.ofJson (.object members)

end Config

/-! ### Stores -/

/-- Holds a configuration once there is one. -/
structure ConfigStore where
  /-- What complaints call the store. -/
  name : String
  slot : Option Config
deriving DecidableEq

namespace ConfigStore

/-- A store that holds nothing. -/
def new (name : String) : ConfigStore := ⟨name, none⟩

/-- Stores what `update` makes of an empty configuration. An update that breaks off changes
nothing. -/
def configure {ε : Type} (update : Config → Except ε Config) (s : ConfigStore) :
    Except ε Config × ConfigStore :=
  match update .empty with
  | .error e => (.error e, s)
  | .ok c => (.ok c, { s with slot := some c })

/-- The configuration, if there is one. -/
def config (s : ConfigStore) : Except Failure Config :=
  match s.slot with
  | some c => .ok c
  | none => .error (.configuration s.name)

def isConfigured (s : ConfigStore) : Bool := s.slot.isSome

def reset (s : ConfigStore) : ConfigStore := { s with slot := none }

end ConfigStore

end TaskRelay
