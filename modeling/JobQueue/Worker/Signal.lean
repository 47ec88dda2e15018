/-
  The signal to stop.

  A signal has one sender and any number of listeners.  Once sent it stays
  sent, for listeners of before and of after.  A sender that goes away without
  sending leaves its listeners waiting.
-/

namespace JobQueue

/-- A signal, as its listeners see it. -/
structure Signal where
  sent : Bool := false
  hasSender : Bool := true
  deriving DecidableEq, Repr, Inhabited

namespace Signal

/-- The signal is sent, if somebody is there to send it. -/
def send (s : Signal) : Signal := { s with sent := s.sent || s.hasSender }

/-- The sender goes away. -/
def dropSender (s : Signal) : Signal := { s with hasSender := false }

end Signal

end JobQueue
