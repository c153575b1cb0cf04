/-! Identifiers of agents and applications. -/
namespace CallTelemetry.Identifier

/-- The width in bytes of the field that a row key keeps for an identifier. -/
def maxLength : Nat := 24

def allowed (c : Char) : Bool := c.isAlphanum || c = '.' || c = '_' || c = '-'

/-- One to `limit` ASCII letters, digits, points, underscores and hyphens. -/
def validWithin (limit : Nat) (id : String) : Bool :=
  !id.isEmpty && id.utf8ByteSize ≤ limit && id.toList.all allowed

def valid (id : String) : Bool := validWithin maxLength id

end CallTelemetry.Identifier
