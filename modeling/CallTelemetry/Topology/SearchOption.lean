import CallTelemetry.Json.Document
import CallTelemetry.Topology.Selection

/-! How far a map reaches, as a request states it. -/
namespace CallTelemetry.Topology

structure SearchOption where
  outDepth : Nat
  inDepth : Nat
  bidirectional : Bool
  serversOnly : Bool
  deriving DecidableEq

namespace SearchOption

def standard : SearchOption := ⟨1, 1, false, false⟩

def selectorName (bidirectional : Bool) : String :=
  if bidirectional then "BIDIRECTIONAL" else "UNIDIRECTIONAL"

def bidirectional? (name : String) : Option Bool :=
  [false, true].find? fun b => selectorName b == name

/-- Any field may be left out. -/
def ofDocument? (d : Json.Document) : Option SearchOption := do
  let size (fallback : Nat) (field : Option Json.Document) : Option Nat :=
    let integer := Json.Document.toIntIn? 0 0xffffffffffffffff
    (Json.Document.optional integer fallback field).map Int.toNat
  match ← d.fields? ["outSearchDepth", "inSearchDepth", "linkSelectorType", "wasOnly"] with
  | [outDepth, inDepth, selector, serversOnly] =>
    return {
      outDepth := ← size standard.outDepth outDepth
      inDepth := ← size standard.inDepth inDepth
      bidirectional := ← Json.Document.optional (Json.Document.toChoice? bidirectional?)
        standard.bidirectional selector
      serversOnly := ←
        Json.Document.optional Json.Document.toBool? standard.serversOnly serversOnly }
  | _ => none

def parse? (text : String) : Option SearchOption := Json.Document.parse? text >>= ofDocument?

/-- The search that a map makes: only what is read outward is held back to servers. -/
def search (o : SearchOption) : Search :=
  ⟨o.outDepth, o.inDepth, o.bidirectional, if o.serversOnly then Links.betweenServers else id, id⟩

end SearchOption

end CallTelemetry.Topology
