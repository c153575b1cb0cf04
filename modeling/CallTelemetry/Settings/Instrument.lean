import CallTelemetry.Settings.Properties

/-! Limits on call stacks and interceptors, which agents and collectors share. -/
namespace CallTelemetry.Settings

structure Instrument where
  engine : String
  registrySize : Nat
  maxDepth : Int
  maxSequence : Int
  overflowLogRation : Int
  propagateException : Bool
  lambdaSupport : Bool
  allowedJdkClasses : List String
  deriving DecidableEq

namespace Instrument

def engineKey := "profiler.instrument.engine"
def registrySizeKey := "profiler.interceptorregistry.size"
def maxDepthKey := "profiler.callstack.max.depth"
def maxSequenceKey := "profiler.callstack.max.sequence"
def overflowLogRationKey := "profiler.callstack.overflow.log.ration"
def propagateExceptionKey := "profiler.interceptor.exception.propagate"
def lambdaSupportKey := "profiler.lambda.expressions.support"
def allowedJdkClassesKey := "profiler.instrument.jdk.allow.classnames"

def keys : List String :=
  [engineKey, registrySizeKey, maxDepthKey, maxSequenceKey, overflowLogRationKey,
    propagateExceptionKey, lambdaSupportKey, allowedJdkClassesKey]

/-- Minus one means unbounded; any other depth is at least two. -/
def clampDepth (depth : Int) : Int := if depth = -1 then depth else max depth 2

/-- From 4 to 32767; a negative length means the longest. -/
def clampSequence (length : Int) : Int :=
  if length < 0 then 32767 else min (max length 4) 32767

def ofProperties (p : Properties) : Except SettingsError Instrument := do
  let engine := p.textOf engineKey "ASM"
  let registrySize ← p.sizeOf registrySizeKey 8192
  let maxDepth ← p.int32Of maxDepthKey 64
  let maxSequence ← p.int32Of maxSequenceKey 5000
  let overflowLogRation ← p.int32Of overflowLogRationKey 100
  let propagateException ← p.booleanOf propagateExceptionKey false
  let lambdaSupport ← p.booleanOf lambdaSupportKey true
  return {
    engine, registrySize
    maxDepth := clampDepth maxDepth
    maxSequence := clampSequence maxSequence
    overflowLogRation := max overflowLogRation 1
    propagateException, lambdaSupport
    allowedJdkClasses := p.listOf allowedJdkClassesKey }

end Instrument

end CallTelemetry.Settings
