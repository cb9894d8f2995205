/-! # Spans

A span is a stretch of a source text, given by the byte offsets of its start and of its end. -/

namespace JsonSelect

/-- The bytes from `start` up to, not including, `stop`. -/
structure Span where
  start : Nat
  stop : Nat
deriving DecidableEq, Repr

/-- Whether a span covers the byte at `offset`. -/
def Span.covers (s : Span) (offset : Nat) : Bool := s.start ≤ offset && offset < s.stop

end JsonSelect
