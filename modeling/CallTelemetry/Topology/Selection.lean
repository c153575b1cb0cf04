import CallTelemetry.Topology.Links

/-! Selection of the links around some applications. Level by level, the links of the applications
found last are read, and the applications at their far ends are found. Outward search follows calls,
inward search follows them backward; each has a depth of its own and reads an application once. -/
namespace CallTelemetry.Topology

/-- Applications that a search has read, and those that it has found since. -/
structure Frontier where
  seen : List Application
  found : List Application
  deriving DecidableEq

namespace Frontier

/-- The found applications that have not been read, each once. -/
def fresh (f : Frontier) : List Application :=
  f.found.foldl
    (fun fresh a => if fresh.contains a || f.seen.contains a then fresh else fresh ++ [a]) []

/-- Goes on to the applications found by reading the fresh ones. -/
def next (f : Frontier) (fresh found : List Application) : Frontier := ⟨fresh ++ f.seen, found⟩

end Frontier

structure Search where
  outDepth : Nat
  inDepth : Nat
  /-- Whether what one search finds is handed to the other as well. -/
  bidirectional : Bool
  /-- Applied to all links that are read outward, before they count. -/
  keepOutbound : Links → Links
  keepInbound : Links → Links

namespace Search

def hasOutbound (a : Application) : Bool :=
  !a.type.isTerminal && !a.type.isUnknown && !a.type.isUser

def hasInbound (a : Application) : Bool := !a.type.isUser

def callees (l : Links) : List Application := l.links.map (·.edge.target)

def callers (l : Links) : List Application := l.links.map (·.edge.source)

/-- The far ends of links read outward and inward, to be searched outward next. -/
def nextOut (s : Search) (outs ins : List Links) : List Application :=
  (outs.flatMap callees).filter hasOutbound ++
    if s.bidirectional then (ins.flatMap callers).filter hasOutbound else []

def nextIn (s : Search) (outs ins : List Links) : List Application :=
  (if s.bidirectional then (outs.flatMap callees).filter hasInbound else []) ++
    (ins.flatMap callers).filter hasInbound

/-- Reads at most `levels` levels, with the outward and inward depths that are left. All that is
read for one level is asked for at once. -/
def run [Monad m] (s : Search)
    (readLevel : List Application → List Application → m (List Links × List Links)) :
    Nat → Nat → Nat → Frontier → Frontier → Duplex → m Duplex
  | 0, _, _, _, _, d => return d
  | levels + 1, outLeft, inLeft, outward, inward, d => do
    let outs := if 0 < outLeft then outward.fresh else []
    let ins := if 0 < inLeft then inward.fresh else []
    if outs.isEmpty && ins.isEmpty then return d
    let (outLinks, inLinks) ← readLevel outs ins
    let outLinks := outLinks.map s.keepOutbound
    let inLinks := inLinks.map s.keepInbound
    let d := outLinks.foldl Duplex.addOutbound d
    let d := inLinks.foldl Duplex.addInbound d
    run s readLevel levels (outLeft - 1) (inLeft - 1)
      (outward.next outs (s.nextOut outLinks inLinks))
      (inward.next ins (s.nextIn outLinks inLinks)) d

def select [Monad m] (s : Search)
    (readLevel : List Application → List Application → m (List Links × List Links))
    (sources : List Application) : m Duplex :=
  s.run readLevel (max s.outDepth s.inDepth) s.outDepth s.inDepth ⟨[], sources⟩ ⟨[], sources⟩ .empty

end Search

end CallTelemetry.Topology
