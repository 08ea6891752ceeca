import CwKeyer.KeyerItem
import CwKeyer.Machine

/-!
# `Keyer`

The data of `keyer/Keyer.cpp` and what its methods do to it, and the
keyer as a machine of four atomic steps: a paddle event, and the keyer
thread starting and finishing an element (`paddleKeyer`). The threads
themselves, with the mutex and the condition variable, are in
`Keyer.Threads`.
-/

namespace CwKeyer

/-- `enum Mode`. -/
inductive Mode where
  | ultimatic
  | iambicA
  | iambicB
deriving Repr, DecidableEq

/-- The members of `Keyer` that the paddles and the keyer thread share.
`m_lastPressed` and `m_lastQueued` are not initialised, so they have no
default here. -/
structure Keyer where
  ditTime : Int := 0
  dahTime : Int := 0
  spaceTime : Int := 0
  ditPressed : Bool := false
  dahPressed : Bool := false
  lastPressed : KeyerItem
  lastQueued : KeyerItem
  mode : Mode := .iambicB
  queue : List KeyerItem := []
deriving Repr, DecidableEq

def reverse (item : KeyerItem) : KeyerItem := if item = .dit then .dah else .dit

namespace Keyer

/-- Only one item is queued; further ones are dropped. -/
def enqueue (k : Keyer) (item : KeyerItem) : Keyer :=
  if k.queue.length < 1 then { k with lastQueued := item, queue := k.queue ++ [item] } else k

def onDit (k : Keyer) (pressed : Bool) : Keyer :=
  if pressed then { k with ditPressed := true, lastPressed := .dit }.enqueue .dit
  else { k with ditPressed := false }

def onDah (k : Keyer) (pressed : Bool) : Keyer :=
  if pressed then { k with dahPressed := true, lastPressed := .dah }.enqueue .dah
  else { k with dahPressed := false }

def squeeze (k : Keyer) : Bool := k.ditPressed && k.dahPressed

/-- The item that the mode processing after an element enqueues, given
the squeeze captured when the element started. -/
def modeItem (k : Keyer) (squeeze : Bool) : Option KeyerItem :=
  if squeeze then
    match k.mode with
    | .ultimatic => some k.lastPressed
    | .iambicB => some (reverse k.lastQueued)
    | .iambicA => some (reverse k.lastQueued)
  else if k.ditPressed then some .dit
  else if k.dahPressed then some .dah
  else none

def processMode (k : Keyer) (squeeze : Bool) : Keyer :=
  match k.modeItem squeeze with
  | some item => k.enqueue item
  | none => k

/-- The call every output gets for an element. -/
def playDitDah (k : Keyer) (item : KeyerItem) : Option KeyerCall :=
  match item with
  | .dit => some (.runCW .dit k.ditTime)
  | .dah => some (.runCW .dah k.dahTime)
  | _ => none

/-- The settings part of `initKeyer`. -/
def configure (k : Keyer) (wpm : Int) (mode : Mode) : Keyer :=
  { k with
    ditTime := calculateDuration .dit wpm
    dahTime := calculateDuration .dah wpm
    spaceTime := calculateDuration .interElementSpace wpm
    mode := mode }

end Keyer

/-! ## Elements as atomic steps -/

/-- The keyer with the element in progress and its captured squeeze, and
for the statements: every element started so far, and every call an
output got for them. -/
structure KeyerRun where
  keyer : Keyer
  playing : Option (KeyerItem × Bool) := none
  started : List KeyerItem := []
  calls : List KeyerCall := []
deriving Repr, DecidableEq

inductive KeyerAct where
  | onDit (pressed : Bool)
  | onDah (pressed : Bool)
  | start
  | finish
deriving Repr, DecidableEq

namespace KeyerAct

/-- The step is the keyer thread's. -/
def byThread : KeyerAct → Bool
  | .start => true
  | .finish => true
  | _ => false

def isPress : KeyerAct → Bool
  | .onDit pressed => pressed
  | .onDah pressed => pressed
  | _ => false

def isRelease : KeyerAct → Bool
  | .onDit pressed => !pressed
  | .onDah pressed => !pressed
  | _ => false

end KeyerAct

def KeyerRun.step (s : KeyerRun) : KeyerAct → Option KeyerRun
  | .onDit pressed => some { s with keyer := s.keyer.onDit pressed }
  | .onDah pressed => some { s with keyer := s.keyer.onDah pressed }
  | .start =>
      match s.playing, s.keyer.queue with
      | none, item :: rest =>
          some {
            keyer := { s.keyer with queue := rest }
            playing := some (item, s.keyer.squeeze)
            started := s.started ++ [item]
            calls := s.calls ++ (s.keyer.playDitDah item).toList }
      | _, _ => none
  | .finish =>
      match s.playing with
      | some (_, squeeze) =>
          some { s with keyer := s.keyer.processMode squeeze, playing := none }
      | none => none

/-- The keyer, its paddles and its thread. -/
def paddleKeyer : Machine KeyerRun KeyerAct := ⟨KeyerRun.step⟩

/-- A keyer after its first `initKeyer`; `lastPressed` and `lastQueued`
are whatever was in memory. -/
def KeyerRun.init (lastPressed lastQueued : KeyerItem) (wpm : Int) (mode : Mode) : KeyerRun :=
  { keyer := { lastPressed := lastPressed, lastQueued := lastQueued : Keyer }.configure wpm mode }

/-- Nothing sounds and nothing is queued. -/
def KeyerRun.Idle (s : KeyerRun) : Prop := s.playing = none ∧ s.keyer.queue = []

end CwKeyer
