import BuildQueue.Config.Basic
import BuildQueue.Kdl.Document

/-!
# Reading settings

The nodes of a document set the settings one after the other, so the last one that sets a setting
counts; nodes with other names are passed over. The first invalid value is reported, also where a
later node sets the same setting.
-/

namespace BuildQueue

/-- An integer as an unsigned 64-bit number. -/
def unsigned (field : String) (n : Int) : Except ConfigError UInt64 :=
  if IntegerRange.unsigned64.contains n then .ok (.ofNat n.toNat)
  else .error (.invalidValue field s!"expected a non-negative integer, got {n}")

/-- A value that has to be an unsigned integer. -/
def Kdl.Value.unsigned (value : Kdl.Value) (field : String) : Except ConfigError UInt64 :=
  match value.integer? with
  | none => .error (.invalidValue field "expected an integer")
  | some n => BuildQueue.unsigned field n

/-- The first argument of a node, which has to be there and an unsigned integer. -/
def Kdl.Node.unsignedArgument (node : Kdl.Node) (field : String) : Except ConfigError UInt64 :=
  match node.argument? with
  | none => .error (.missingField field)
  | some value => value.unsigned field

namespace DatabaseConfig

/-- A number of connections is positive and has 32 bits. -/
def connections (n : UInt64) : Except ConfigError UInt32 :=
  if 0 < n.toNat ∧ n.toNat < UInt32.size then .ok n.toUInt32
  else .error (.invalidValue "max-connections" s!"expected a positive connection count, got {n}")

/-- Takes over the properties of a node. -/
def apply (config : DatabaseConfig) (node : Kdl.Node) : Except ConfigError DatabaseConfig := do
  let url := ((node.property? "url").bind Kdl.Value.string?).getD config.url
  match node.property? "max-connections" with
  | none => return { config with url }
  | some value =>
    let maxConnections ← connections (← value.unsigned "max-connections")
    return { url, maxConnections }

end DatabaseConfig

namespace QueueConfig

def strategyOfName (name : String) : Except ConfigError StrategyKind :=
  match StrategyKind.parse name with
  | .ok strategy => .ok strategy
  | .error _ =>
    .error (.invalidValue "strategy"
      ("unknown strategy '" ++ name ++ "', expected 'direct-scan' or 'projection'"))

/-- Takes over one setting. -/
def applySetting (config : QueueConfig) (node : Kdl.Node) : Except ConfigError QueueConfig :=
  match node.name with
  | "strategy" =>
    match node.argument?.bind Kdl.Value.string? with
    | none => .error (.missingField "queue strategy")
    | some name => do return { config with strategy := ← strategyOfName name }
  | "failover" =>
    match node.argument?.bind Kdl.Value.boolean? with
    | none => .error (.invalidValue "failover" "expected #true or #false")
    | some failover => .ok { config with failover }
  | "poll-timeout-ms" => do
    let ms ← node.unsignedArgument "poll-timeout-ms"
    if ms = 0 then
      throw (.invalidValue "poll-timeout-ms" "must be greater than zero")
    return { config with pollTimeout := .ofMillis ms }
  | "backoff-seconds" => do
    return { config with backoff := .ofSeconds (← node.unsignedArgument "backoff-seconds") }
  | _ => .ok config

/-- Takes over the settings in the block of a node. -/
def apply (config : QueueConfig) (node : Kdl.Node) : Except ConfigError QueueConfig :=
  (node.children.getD []).foldlM applySetting config

end QueueConfig

namespace SystemConfig

/-- Takes over the settings of one node. -/
def applyNode (config : SystemConfig) (node : Kdl.Node) : Except ConfigError SystemConfig :=
  match node.name with
  | "database" => do return { config with database := ← config.database.apply node }
  | "queue" => do return { config with queue := ← config.queue.apply node }
  | _ => .ok config

/-- Takes over the settings of a document. -/
def apply (config : SystemConfig) (nodes : List Kdl.Node) : Except ConfigError SystemConfig :=
  nodes.foldlM applyNode config

def ofNodes (nodes : List Kdl.Node) : Except ConfigError SystemConfig := standard.apply nodes

def parse (text : String) : Except ConfigError SystemConfig :=
  match Kdl.parse? text.toList with
  | none => .error .parse
  | some nodes => ofNodes nodes

end SystemConfig

end BuildQueue
