/-!
# Arithmetic modulo a number

Powers by repeated squaring, and inverses modulo a prime.
-/

set_option autoImplicit false

namespace QuorumKeeper.Tls.Modular

/-- `base ^ exponent` modulo `m`. -/
def pow (base exponent m : Nat) : Nat :=
  if exponent = 0 then 1 % m
  else
    let half := pow (base * base % m) (exponent / 2) m
    if exponent % 2 = 1 then half * base % m else half
termination_by exponent
decreasing_by omega

/-- The inverse of a number modulo a prime. -/
def inverse (a prime : Nat) : Nat :=
  pow (a % prime) (prime - 2) prime

/-- `a - b` modulo `m`, for numbers below `m`. -/
def sub (a b m : Nat) : Nat :=
  (a + (m - b)) % m

end QuorumKeeper.Tls.Modular
