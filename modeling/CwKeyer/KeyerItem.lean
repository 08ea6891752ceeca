import Mathlib.Logic.Basic

/-!
# `IKeyerCW`: elements and the calls every CW output answers

`KeyerItem` and the PARIS timing formula of `utils/IKeyerCW.h`, and the
three calls of the interface as data: a component that implements
`IKeyerCW` is modelled by what it does on a `KeyerCall`.
-/

namespace CwKeyer

/-- `enum KeyerItem`. -/
inductive KeyerItem where
  | dit
  | dah
  | interElementSpace
  | letterSpace
  | wordSpace
deriving Repr, DecidableEq

/-- `PARIS_TIME_BASE`: a dit at one word per minute, in ms. -/
def parisTimeBase : Int := 1200

/-- `IKeyerCW::calculateDuration`, in ms. The division is the int
division of the source; the products by 3.0 and 7.0 are exact. -/
def calculateDuration (item : KeyerItem) (wpm : Int) : Int :=
  match item with
  | .dit => parisTimeBase.tdiv wpm
  | .dah => parisTimeBase.tdiv wpm * 3
  | .interElementSpace => parisTimeBase.tdiv wpm
  | .letterSpace => parisTimeBase.tdiv wpm * 3
  | .wordSpace => parisTimeBase.tdiv wpm * 7

/-- A call of the `IKeyerCW` interface. -/
inductive KeyerCall where
  | runCW (item : KeyerItem) (duration : Int)
  | startRunCw
  | stopRunCw
deriving Repr, DecidableEq

end CwKeyer
