/-
co_async/utils/expected.hpp, as far as the stream code uses it.

An error code is a category with a number. Only two categories matter here: the
one of `eofError` and the codes of std::errc.
-/

import Mathlib

namespace MCoro

inductive ErrorCode where
  | eofError
  | errc (value : Int)
  deriving DecidableEq, Repr

abbrev Expected (T : Type) := Except ErrorCode T

namespace Expected

variable {T U : Type}

def transform (transformer : T → U) : Expected T → Expected U
  | .ok value => .ok (transformer value)
  | .error code => .error code

/-- `or_else(e, f)`: the value of `f` in place of the error `e`. -/
def orElse (code : ErrorCode) (value : T) : Expected T → Expected T
  | .error other => if other = code then .ok value else .error other
  | .ok value => .ok value

end Expected

end MCoro
