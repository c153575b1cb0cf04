import CallTelemetry.Inspection
import CallTelemetry.Settings.Collector
import CallTelemetry.Settings.Web

/-! Settings in JSON. The interval and the timeout show both as they are set and as the durations
that they stand for, in milliseconds. -/
namespace CallTelemetry.Settings

open Inspection

def Instrument.inspect (i : Instrument) : Json :=
  .object [("engine", .text i.engine), ("registrySize", .int i.registrySize),
    ("maxDepth", .int i.maxDepth), ("maxSequence", .int i.maxSequence),
    ("overflowLogRation", .int i.overflowLogRation),
    ("propagateException", .bool i.propagateException), ("lambda", .bool i.lambdaSupport),
    ("jdkClassNames", list .text i.allowedJdkClasses)]

def Collector.inspect (c : Collector) : Json :=
  .object [("enable", .bool c.bulk.enable), ("limitSize", .int c.bulk.limitSize),
    ("calleeLimitSize", .int c.bulk.calleeLimitSize),
    ("flushIntervalMs", .int c.bulk.flushInterval), ("flushInterval", .int c.bulk.flushInterval),
    ("batchSize", .int c.bulk.batchSize), ("bind", .text c.receiverBind),
    ("buckets", .int c.buckets), ("namespace", .text c.tableNamespace),
    ("instrument", c.instrument.inspect)]

def Web.inspect (w : Web) : Json :=
  .object [("buildTimeoutMs", .int w.buildTimeout), ("buildTimeout", .int w.buildTimeout),
    ("linkDataLimit", .int w.linkLimit), ("buckets", .int w.buckets),
    ("namespace", .text w.tableNamespace)]

end CallTelemetry.Settings
