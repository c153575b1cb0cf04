import CallTelemetry.Settings.Properties

/-! Settings of the side that reads and draws maps. -/
namespace CallTelemetry.Settings

/-- The time that the building of a map may take, in milliseconds, and the number of links that it
may read. -/
structure Web where
  buildTimeout : Nat
  linkLimit : Nat
  buckets : Nat
  tableNamespace : String
  deriving DecidableEq

namespace Web

def standard : Web := ⟨600000, 500000000, 16, "default"⟩

def buildTimeoutKey := "web.servermap.build.timeout"
def linkLimitKey := "web.servermap.linkdata.limit"
def bucketsKey := "web.rowkey.buckets"
def tableNamespaceKey := "web.table.namespace"

def keys : List String := [buildTimeoutKey, linkLimitKey, bucketsKey, tableNamespaceKey]

def check (w : Web) : Except SettingsError Unit := do
  if w.buildTimeout = 0 then throw (.notPositive buildTimeoutKey)
  if w.buckets < 1 ∨ 256 < w.buckets then throw (.bucketsOutOfRange bucketsKey w.buckets)

def ofProperties (p : Properties) : Except SettingsError Web := do
  let buildTimeout ← p.sizeOf buildTimeoutKey standard.buildTimeout
  let linkLimit ← p.sizeOf linkLimitKey standard.linkLimit
  let buckets ← p.sizeOf bucketsKey standard.buckets
  let tableNamespace := p.textOf tableNamespaceKey standard.tableNamespace
  let w : Web := { buildTimeout, linkLimit, buckets, tableNamespace }
  w.check
  return w

def ofEnvironment (environment : String → Option String)
    (file? : String → Option (List UInt8)) : Except SettingsError Web := do
  ofProperties (← gather environment file? keys)

end Web

end CallTelemetry.Settings
