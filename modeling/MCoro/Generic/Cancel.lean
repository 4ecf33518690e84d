/-
The cancel sources of co_async/generic/cancel.hpp.

A canceller is a CancelCallback or a CancelSource built from a token. Its task is
named by the canceller itself: `canceller.doCancel()` only creates a coroutine,
which runs when when_all starts it.
-/

import Mathlib

namespace MCoro

/-- `mCancellers` is the intrusive list from front to back. -/
structure CancelSourceImpl (Canceller : Type) where
  mCancellers : List Canceller
  mCanceled : Bool
  deriving DecidableEq, Repr

namespace CancelSourceImpl

variable {Canceller : Type}

def initial : CancelSourceImpl Canceller :=
  { mCancellers := []
    mCanceled := false }

def doIsCanceled (source : CancelSourceImpl Canceller) : Bool :=
  source.mCanceled

/-- The constructors of CancelCallback and CancelSource; a push_front. -/
def doRegister (source : CancelSourceImpl Canceller) (canceller : Canceller) :
    CancelSourceImpl Canceller :=
  { source with mCancellers := canceller :: source.mCancellers }

/-- The destructor of a canceller: `erase_from_parent`, nothing when it is not linked. -/
def eraseFromParent [DecidableEq Canceller] (source : CancelSourceImpl Canceller)
    (canceller : Canceller) : CancelSourceImpl Canceller :=
  { source with mCancellers := source.mCancellers.erase canceller }

/-- doCancel until it awaits when_all: the tasks it created, or none when it
returns at once. The list is never `empty()` in the sense of the source, whose
root is linked to itself. -/
def doCancel (source : CancelSourceImpl Canceller) :
    Option (CancelSourceImpl Canceller × List Canceller) :=
  if source.mCanceled then none
  else some ({ source with mCanceled := true }, source.mCancellers)

/-- The rest of doCancel, after when_all. -/
def doCancelEnd (source : CancelSourceImpl Canceller) : CancelSourceImpl Canceller :=
  { source with mCancellers := [] }

end CancelSourceImpl

end MCoro
