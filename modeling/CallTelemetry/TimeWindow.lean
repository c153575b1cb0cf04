import CallTelemetry.Json
import CallTelemetry.Statistics.RowKey

/-! Time ranges cut into slots of equal length. Slots begin at multiples of their length, so the
slots of a range may begin before it. -/
namespace CallTelemetry

structure RangeError where
  first : Int
  last : Int
  deriving DecidableEq

def RangeError.message (e : RangeError) : String :=
  s!"invalid range: from {e.first} is after to {e.last}"

/-- The milliseconds from `first` to `last`, both included. -/
structure TimeRange where
  first : Int
  last : Int
  deriving DecidableEq

namespace TimeRange

def of (first last : Int) : Except RangeError TimeRange :=
  if last < first then .error ⟨first, last⟩ else .ok ⟨first, last⟩

/-- The range of a given duration that ends at `last`. -/
def endingAt (last duration : Int) : Except RangeError TimeRange := of (last - duration) last

def duration (r : TimeRange) : Int := r.last - r.first

def toJson (r : TimeRange) : Json := .object [("from", .int r.first), ("to", .int r.last)]

end TimeRange

structure TimeWindow where
  range : TimeRange
  slotSize : Int
  deriving DecidableEq

namespace TimeWindow

def maxSlots : Int := 200

/-- Slots are a minute long at least, as that is how finely statistics are kept. -/
def withSlotSize (range : TimeRange) (slotSize : Int) : TimeWindow :=
  ⟨range, max slotSize Statistics.slotMillis⟩

/-- The slots are as many whole minutes long as keep their number near `maxSlots`. -/
def ofRange (range : TimeRange) : TimeWindow :=
  let minutes := range.duration / Statistics.slotMillis + 1
  let perSlot := (minutes + maxSlots - 1) / maxSlots
  withSlotSize range (max perSlot 1 * Statistics.slotMillis)

/-- The start of the slot that holds a timestamp. -/
def refine (w : TimeWindow) (timestamp : Int) : Int := timestamp - timestamp % w.slotSize

/-- From the start of the first slot to the start of the last. -/
def slotRange (w : TimeWindow) : TimeRange := ⟨w.refine w.range.first, w.refine w.range.last⟩

def count (w : TimeWindow) : Nat := (w.slotRange.duration / w.slotSize + 1).toNat

/-- The position of the slot that holds a timestamp; before the first slot it is zero. -/
def index (w : TimeWindow) (timestamp : Int) : Nat :=
  ((w.refine timestamp - w.slotRange.first) / w.slotSize).toNat

/-- The times from `time` on that lie `step` apart, up to `last`. -/
def strides (step last time : Int) : List Int :=
  if 0 < step ∧ time ≤ last then time :: strides step last (time + step) else []
termination_by (last + 1 - time).toNat
decreasing_by omega

/-- The starts of the slots, the oldest first. -/
def slots (w : TimeWindow) : List Int :=
  strides w.slotSize w.slotRange.last w.slotRange.first

end TimeWindow

end CallTelemetry
