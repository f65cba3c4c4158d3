import Mathlib.Init

namespace SimpleCdn

structure HttpResponse where
  status : Nat
  text : String
  deriving DecidableEq

/-- An IP address and a port, as a socket reports them. -/
abbrev Address := String × Nat

end SimpleCdn
