import CwKeyer.KeyerItem
import CwKeyer.Machine
import CwKeyer.Platform

/-!
# `CwDecoder`

`cwdecoder/MorseTable.h` and `cwdecoder/CwDecoder.cpp`. The decoder is a
machine of two actions, each one critical section of `m_mutex`: a `runCW`
and an iteration of `timeoutLoop`. Every reading of the clock is part of
the action, in nanoseconds; `runCW` reads it twice, to measure the silence
and for `m_lastSignalTime`.

The decoder carries a log for the statements: the elements it received,
the sequences it handed to `MorseTable::decode` and the texts it passed
to its callback, in order, since its last `start`.
-/

namespace CwKeyer

/-! ## The Morse table -/

namespace MorseTable

def notFound : Char := '\x00'
def sk : Char := '\x01'
def bk : Char := '\x02'
def cwError : Char := '\x03'

/-- The character for a `KeyerItem`. -/
def toSymbol (item : KeyerItem) : Char := if item = .dit then '.' else '-'

def table : List (String × Char) := [
  (".-", 'A'), ("-...", 'B'), ("-.-.", 'C'), ("-..", 'D'), (".", 'E'), ("..-.", 'F'),
  ("--.", 'G'), ("....", 'H'), ("..", 'I'), (".---", 'J'), ("-.-", 'K'), (".-..", 'L'),
  ("--", 'M'), ("-.", 'N'), ("---", 'O'), (".--.", 'P'), ("--.-", 'Q'), (".-.", 'R'),
  ("...", 'S'), ("-", 'T'), ("..-", 'U'), ("...-", 'V'), (".--", 'W'), ("-..-", 'X'),
  ("-.--", 'Y'), ("--..", 'Z'),
  ("-----", '0'), (".----", '1'), ("..---", '2'), ("...--", '3'), ("....-", '4'),
  (".....", '5'), ("-....", '6'), ("--...", '7'), ("---..", '8'), ("----.", '9'),
  (".-.-.-", '.'), ("--..--", ','), ("..--..", '?'), (".----.", '\''), ("-.-.--", '!'),
  ("-..-.", '/'), ("-.--.", '('), ("-.--.-", ')'), (".-...", '&'), ("---...", ':'),
  ("-.-.-.", ';'), ("-...-", '='), (".-.-.", '+'), ("-....-", '-'), (".-..-.", '"'),
  (".--.-.", '@'), ("..--.-", '_'),
  ("...-.-", sk), ("-...-.-", bk), ("........", cwError)]

def decode (sequence : String) : Char := (table.lookup sequence).getD notFound

def keys : List String := table.map Prod.fst

end MorseTable

/-! ## The decoder -/

/-- What an observer of the decoder sees, in order. -/
inductive DecoderEvent where
  /-- an element was appended to `m_currentSequence` -/
  | element (item : KeyerItem)
  /-- `flushLetter` handed the sequence to `MorseTable::decode` -/
  | handed (sequence : String)
  /-- `m_callbackTextDecoded` was called -/
  | text (s : String)
deriving Repr, DecidableEq

structure CwDecoder where
  interElementSpace : Int := 0
  letterSpace : Int := 0
  wordSpace : Int := 0
  started : Bool := false
  running : Bool := false
  currentSequence : String := ""
  /-- `m_lastSignalTime`, in ns -/
  lastSignalTime : Int := 0
  lastDuration : Int := 0
  log : List DecoderEvent := []
deriving Repr, DecidableEq

/-- `duration_cast<milliseconds>` of a duration in ns. -/
def millis (ns : Int) : Int := ns.tdiv 1000000

namespace CwDecoder

/-- The callback that `flushLetter` makes for a decoded character. -/
def textOf (ch : Char) : Option String :=
  if ch = MorseTable.bk then some "<BK>"
  else if ch = MorseTable.sk then some "<SK>"
  else if ch = MorseTable.cwError then some "<ERROR>"
  else if ch = MorseTable.notFound then none
  else some (String.singleton ch)

def emit (d : CwDecoder) (e : DecoderEvent) : CwDecoder := { d with log := d.log ++ [e] }

def flushLetter (d : CwDecoder) : CwDecoder :=
  if d.currentSequence = "" then d
  else
    { d with
      currentSequence := ""
      log := d.log ++ .handed d.currentSequence ::
        ((textOf (MorseTable.decode d.currentSequence)).toList.map .text) }

/-- The silence that both threads measure at a reading of the clock. The
differences of ints are exact here; results that rest on them ask for them
to be ints (`ExactAt`). -/
def silenceMs (d : CwDecoder) (now : Int) : Int :=
  max (toInt (millis (now - d.lastSignalTime)) - d.lastDuration - d.interElementSpace)
    d.interElementSpace

/-- No int overflows when the silence is measured. -/
structure ExactAt (d : CwDecoder) (now : Int) : Prop where
  elapsed : InInt (millis (now - d.lastSignalTime))
  sinceEnd : InInt (millis (now - d.lastSignalTime) - d.lastDuration)
  silence : InInt (millis (now - d.lastSignalTime) - d.lastDuration - d.interElementSpace)

instance (d : CwDecoder) (now : Int) : Decidable (d.ExactAt now) :=
  decidable_of_iff (InInt (millis (now - d.lastSignalTime))
      ∧ InInt (millis (now - d.lastSignalTime) - d.lastDuration)
      ∧ InInt (millis (now - d.lastSignalTime) - d.lastDuration - d.interElementSpace))
    ⟨fun ⟨h₁, h₂, h₃⟩ => ⟨h₁, h₂, h₃⟩, fun ⟨h₁, h₂, h₃⟩ => ⟨h₁, h₂, h₃⟩⟩

theorem ExactAt.of_eq {d : CwDecoder} {now n k u : Int}
    (hms : millis (now - d.lastSignalTime) = n) (hduration : d.lastDuration = k)
    (hunit : d.interElementSpace = u) (helapsed : InInt n) (hsinceEnd : InInt (n - k))
    (hsilence : InInt (n - k - u)) : d.ExactAt now := by
  subst hms hduration hunit
  exact ⟨helapsed, hsinceEnd, hsilence⟩

theorem silenceMs_eq {d : CwDecoder} {now : Int} (h : d.ExactAt now) :
    d.silenceMs now = max (millis (now - d.lastSignalTime) - d.lastDuration - d.interElementSpace)
      d.interElementSpace := by
  rw [silenceMs, toInt_eq_self h.elapsed]

/-- `stop`: the timeout thread has been joined when it returns. -/
def stop (d : CwDecoder) : CwDecoder :=
  { d with running := false, started := false, currentSequence := "" }

/-- `start`; `m_lastDuration` is left as the last session had it. -/
def start (d : CwDecoder) (farnsWorth wpm now : Int) : CwDecoder :=
  { d.stop with
    interElementSpace := calculateDuration .interElementSpace farnsWorth
    letterSpace := calculateDuration .letterSpace wpm
    wordSpace := calculateDuration .wordSpace farnsWorth
    currentSequence := ""
    lastSignalTime := now
    started := true
    running := true
    log := [] }

/-- What `runCW` flushes, for a silence measured before the element. -/
def endLetter (d : CwDecoder) (silence : Int) : CwDecoder :=
  if silence ≥ d.wordSpace then d.flushLetter.emit (.text " ")
  else if silence > d.interElementSpace then d.flushLetter
  else d

def append (d : CwDecoder) (item : KeyerItem) : CwDecoder :=
  { d with
    currentSequence := d.currentSequence.push (MorseTable.toSymbol item)
    log := d.log ++ [.element item] }

/-- `runCW`, with its two readings of the clock. -/
def runCW (d : CwDecoder) (item : KeyerItem) (duration now signalTime : Int) : CwDecoder :=
  if !d.started then d
  else
    ({ d with lastSignalTime := signalTime, lastDuration := duration }.endLetter
      (d.silenceMs now)).append item

/-- An iteration of `timeoutLoop`, after its sleep. -/
def timeoutCheck (d : CwDecoder) (now : Int) : CwDecoder :=
  if d.currentSequence = "" then d
  else if d.silenceMs now ≥ d.wordSpace then
    { d.flushLetter.emit (.text " ") with lastDuration := 0 }
  else d

end CwDecoder

/-! ## The machine -/

inductive DecoderAct where
  | runCW (item : KeyerItem) (duration now signalTime : Int)
  | timeoutCheck (now : Int)
deriving Repr, DecidableEq

def CwDecoder.step (d : CwDecoder) : DecoderAct → Option CwDecoder
  | .runCW item duration now signalTime => some (d.runCW item duration now signalTime)
  | .timeoutCheck now => if d.running then some (d.timeoutCheck now) else none

/-- No int overflows in this step: a check measures the silence only with a
sequence pending. -/
def CwDecoder.Exact (d : CwDecoder) : DecoderAct → Prop
  | .runCW _ _ now _ => d.ExactAt now
  | .timeoutCheck now => d.currentSequence ≠ "" → d.ExactAt now

instance (d : CwDecoder) : (a : DecoderAct) → Decidable (d.Exact a)
  | .runCW _ _ now _ => inferInstanceAs (Decidable (d.ExactAt now))
  | .timeoutCheck now => inferInstanceAs (Decidable (_ → d.ExactAt now))

/-- A session of the decoder: what its two threads do between a `start`
and the next `stop`, in any order. -/
def cwDecoder : Machine CwDecoder DecoderAct := ⟨CwDecoder.step⟩

/-- The elements that a run receives. -/
def DecoderAct.item? : DecoderAct → Option KeyerItem
  | .runCW item _ _ _ => some item
  | .timeoutCheck _ => none

def received (as : List DecoderAct) : List KeyerItem := as.filterMap DecoderAct.item?

theorem received_snoc (as : List DecoderAct) (a : DecoderAct) :
    received (as ++ [a]) = received as ++ a.item?.toList := by
  rw [received, List.filterMap_append, List.filterMap_cons]
  cases h : a.item? <;> simp [received]

/-! ## What a log says -/

@[simp] def DecoderEvent.item? : DecoderEvent → Option KeyerItem
  | .element item => some item
  | _ => none

@[simp] def DecoderEvent.handed? : DecoderEvent → Option String
  | .handed sequence => some sequence
  | _ => none

@[simp] def DecoderEvent.text? : DecoderEvent → Option String
  | .text s => some s
  | _ => none

namespace CwDecoder

/-- The elements appended since the last `start`. -/
def elements (d : CwDecoder) : List KeyerItem := d.log.filterMap DecoderEvent.item?

/-- The sequences handed to `MorseTable::decode` since the last `start`. -/
def handed (d : CwDecoder) : List String := d.log.filterMap DecoderEvent.handed?

/-- The callbacks since the last `start`. -/
def texts (d : CwDecoder) : List String := d.log.filterMap DecoderEvent.text?

end CwDecoder

end CwKeyer
