/-
The control block of co_async/awaiter/when_all.hpp.

Each helper coroutine that has its result takes one off mCount, and the one that
takes the last off resumes the awaiting coroutine.
-/

import Mathlib

namespace MCoro

/-- `mCount` is only decremented where it is shown to be positive. -/
structure WhenAllCtlBlock where
  mCount : Nat
  deriving DecidableEq, Repr

namespace WhenAllCtlBlock

/-- The end of whenAllHelper, and whether it returns `mPrevious`. -/
def finishHelper (control : WhenAllCtlBlock) : WhenAllCtlBlock × Bool :=
  let control := { mCount := control.mCount - 1 }
  (control, control.mCount = 0)

end WhenAllCtlBlock

end MCoro
