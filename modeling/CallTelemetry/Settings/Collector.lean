import CallTelemetry.Settings.Instrument
import CallTelemetry.Settings.SocketAddress

/-! Settings of the side that collects and writes. -/
namespace CallTelemetry.Settings

/-- How counters are gathered before they are written. The limits bound the pending cells of a
writer, the flush interval is in milliseconds, and a batch is counted in rows. -/
structure Bulk where
  enable : Bool
  limitSize : Nat
  calleeLimitSize : Nat
  flushInterval : Nat
  batchSize : Nat
  deriving DecidableEq

def Bulk.standard : Bulk := ⟨true, 100000, 100000, 1000, 1000⟩

structure Collector where
  bulk : Bulk
  receiverBind : String
  buckets : Nat
  tableNamespace : String
  instrument : Instrument
  deriving DecidableEq

namespace Collector

def enableKey := "bulk.enable"
def limitSizeKey := "bulk.limit.size"
def calleeLimitSizeKey := "bulk.callee.limit.size"
def flushIntervalKey := "bulk.flush.interval.ms"
def batchSizeKey := "bulk.batch.size"
def receiverBindKey := "collector.receiver.bind"
def bucketsKey := "collector.rowkey.buckets"
def tableNamespaceKey := "collector.table.namespace"

def keys : List String :=
  [enableKey, limitSizeKey, calleeLimitSizeKey, flushIntervalKey, batchSizeKey, receiverBindKey,
    bucketsKey, tableNamespaceKey]

/-- Refuses settings that no collector can run with; the first of several faults is answered. -/
def check (c : Collector) : Except SettingsError Unit := do
  if c.bulk.limitSize = 0 ∨ c.bulk.calleeLimitSize = 0 then throw .limitNotPositive
  if c.bulk.flushInterval = 0 then throw (.notPositive flushIntervalKey)
  if c.bulk.batchSize = 0 then throw (.notPositive batchSizeKey)
  if c.buckets < 1 ∨ 256 < c.buckets then throw (.bucketsOutOfRange bucketsKey c.buckets)
  if !SocketAddress.valid c.receiverBind then
    throw (.notASocketAddress receiverBindKey c.receiverBind)

def ofProperties (p : Properties) : Except SettingsError Collector := do
  let enable ← p.booleanOf enableKey Bulk.standard.enable
  let limitSize ← p.sizeOf limitSizeKey Bulk.standard.limitSize
  let calleeLimitSize ← p.sizeOf calleeLimitSizeKey Bulk.standard.calleeLimitSize
  let flushInterval ← p.sizeOf flushIntervalKey Bulk.standard.flushInterval
  let batchSize ← p.sizeOf batchSizeKey Bulk.standard.batchSize
  let receiverBind := p.textOf receiverBindKey "0.0.0.0:9993"
  let buckets ← p.sizeOf bucketsKey 16
  let tableNamespace := p.textOf tableNamespaceKey "default"
  let instrument ← Instrument.ofProperties p
  let c : Collector :=
    { bulk := { enable, limitSize, calleeLimitSize, flushInterval, batchSize }
      receiverBind, buckets, tableNamespace, instrument }
  c.check
  return c

def ofEnvironment (environment : String → Option String)
    (file? : String → Option (List UInt8)) : Except SettingsError Collector := do
  ofProperties (← gather environment file? (keys ++ Instrument.keys))

end Collector

end CallTelemetry.Settings
