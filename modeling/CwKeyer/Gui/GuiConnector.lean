import CwKeyer.Decoder.CwDecoder
import CwKeyer.Gui.Configuration
import CwKeyer.Keyer.Basic

/-!
# `GuiConnector`

The settings of `gui/GuiConnector.cpp`: the members, the settings file,
and the three components that are told of them, each by what matters here:
the keyer, the CW decoder, and for the remote client the arguments that it
was started with. Every method is a function from the state before to the
state after. It can end with an exception, which nothing in the program
catches, and `setWpm` and `setFarnsWorth` call each other, which `fuel`
bounds.

What the program does not decide is in `Environment`: what the file
system does in each call of `Configuration`, whether the remote client
can connect, and the clock that `CwDecoder::start` reads. A `QString` is
the text that it holds.
-/

namespace CwKeyer

/-! ## Keys and defaults -/

def cfgAmplitude : String := "amplitude"
def cfgFrequency : String := "frequency"
def cfgWpm : String := "wpm"
def cfgFarnsWorth : String := "farnsWorth"
def cfgSelectedAudioDevice : String := "selected_audio_device"
def cfgMode : String := "mode"
def cfgCommOut : String := "commout"
def cfgCommIn : String := "commin"
def cfgEnabledSound : String := "enabled_sound"
def cfgRemotePort : String := "remote_port"
def cfgRemoteMoxDelayMs : String := "remote_mox_delay_ms"
def cfgRemoteConnected : String := "remote_connected"
def cfgRemoteIp : String := "remote_ip"

def defaultAmplitude : Rat := 1 / 2
def defaultFrequency : Rat := 650
def defaultWpm : Int := 25
def defaultFarnsWorth : Int := 25
def defaultMode : Int := 3
def defaultRemotePort : Int := 50005
def defaultRemoteMoxDelayMs : Int := 250
def defaultRemoteIp : String := "127.0.0.1"

/-- The numbers of `enum Mode`. -/
def Mode.toInt : Mode → Int
  | .ultimatic => 1
  | .iambicA => 2
  | .iambicB => 3

/-- `static_cast<Mode>` of one of them. -/
def Mode.ofInt (n : Int) : Mode :=
  if n = 1 then .ultimatic else if n = 2 then .iambicA else .iambicB

theorem Mode.toInt_ofInt {n : Int} (h : n = 1 ∨ n = 2 ∨ n = 3) : (Mode.ofInt n).toInt = n := by
  rcases h with rfl | rfl | rfl <;> rfl

/-- `QChar::isSpace`. -/
def isSpace (c : Char) : Bool :=
  c.val = 0x20 || 0x09 ≤ c.val && c.val ≤ 0x0d || c.val = 0x85 || c.val = 0xa0 || c.val = 0x1680
    || 0x2000 ≤ c.val && c.val ≤ 0x200a || c.val = 0x2028 || c.val = 0x2029 || c.val = 0x202f
    || c.val = 0x205f || c.val = 0x3000

/-- `QString::trimmed`. -/
def trimmed (s : String) : String :=
  String.ofList (((s.toList.dropWhile isSpace).reverse.dropWhile isSpace).reverse)

/-! ## State -/

/-- The arguments of `RemoteClient::start`. -/
structure RemoteArgs where
  serverIp : String
  port : Int
  moxReleaseDelayMs : Int
deriving Repr, DecidableEq

/-- Read from the front; past the end a call of the file system succeeds,
a connection fails and the clock shows 0. -/
structure Environment where
  files : List FileOutcome := []
  connects : List Bool := []
  clock : List Int := []
deriving Repr, DecidableEq

def Environment.filesOk (env : Environment) : Bool := env.files.all FileOutcome.ok

/-- The members with a setting. -/
structure Settings where
  amplitude : Rat := defaultAmplitude
  frequency : Rat := defaultFrequency
  wpm : Int := defaultWpm
  farnsWorth : Int := defaultFarnsWorth
  mode : Int := Mode.iambicB.toInt
  selectedAudioDevice : Int := 0
  selectedCommPort : Int := -1
  selectedCommPortIn : Int := -1
  remotePort : Int := defaultRemotePort
  remoteMoxDelayMs : Int := defaultRemoteMoxDelayMs
  serverIp : String := defaultRemoteIp
deriving Repr, DecidableEq

/-- `remote` is `none` while the remote client is not started. -/
structure GuiConnector extends Settings where
  audioDevices : Nat
  commPorts : Nat
  keyer : Keyer
  cwDecoder : CwDecoder := {}
  remote : Option RemoteArgs := none
  soundEnabled : Bool := false
  file : ConfigFile
  env : Environment
deriving Repr, DecidableEq

/-- How a call can end without returning. -/
inductive Abort where
  | threw (what : String)
  | outOfFuel
deriving Repr, DecidableEq

namespace GuiConnector

open CwKeyer.Configuration

/-! ### Calls of `Configuration` -/

def nextFile (g : GuiConnector) : FileOutcome × GuiConnector :=
  (g.env.files.headD {}, { g with env := { g.env with files := g.env.files.tail } })

def put (g : GuiConnector) (write : ConfigFile → FileOutcome → Except String ConfigFile) :
    Except Abort GuiConnector :=
  let (io, g) := g.nextFile
  match write g.file io with
  | .ok file => .ok { g with file := file }
  | .error what => .error (.threw what)

def get {α : Type} (g : GuiConnector) (read : ConfigFile → FileOutcome → Except String α) :
    Except Abort (α × GuiConnector) :=
  let (io, g) := g.nextFile
  match read g.file io with
  | .ok value => .ok (value, g)
  | .error what => .error (.threw what)

/-! ### The components -/

def nextClock (g : GuiConnector) : Int × GuiConnector :=
  (g.env.clock.headD 0, { g with env := { g.env with clock := g.env.clock.tail } })

def startCwDecoder (g : GuiConnector) : GuiConnector :=
  let (now, g) := g.nextClock
  { g with cwDecoder := g.cwDecoder.start g.farnsWorth g.wpm now }

def stopCwDecoder (g : GuiConnector) : GuiConnector := { g with cwDecoder := g.cwDecoder.stop }

def resetCwDecoder (g : GuiConnector) : GuiConnector :=
  if g.cwDecoder.started then g.stopCwDecoder.startCwDecoder else g

def resetKeyer (g : GuiConnector) : GuiConnector :=
  { g with keyer := g.keyer.configure g.wpm (.ofInt g.mode) }.resetCwDecoder

def nextConnect (g : GuiConnector) : Bool × GuiConnector :=
  (g.env.connects.headD false, { g with env := { g.env with connects := g.env.connects.tail } })

/-- `RemoteClient::start`: arguments that it rejects leave it as it was,
otherwise it stops and tries to connect. -/
def startRemote (g : GuiConnector) : Bool × GuiConnector :=
  if g.remotePort ≤ 0 ∨ g.remotePort > 65535 ∨ g.serverIp.isEmpty then (false, g)
  else
    let (connected, g) := g.nextConnect
    (connected,
      { g with
        remote := if connected then some ⟨g.serverIp, g.remotePort, g.remoteMoxDelayMs⟩ else none })

def setRemoteConnected (g : GuiConnector) (connected : Bool) : Except Abort GuiConnector :=
  let (started, g) := if connected then g.startRemote else (false, { g with remote := none })
  g.put (putValueBool cfgRemoteConnected started)

def resetRemotes (g : GuiConnector) : Except Abort GuiConnector := do
  let (connected, g) ← g.get (getValueBool cfgRemoteConnected)
  let g ← g.setRemoteConnected false
  if connected then g.setRemoteConnected true else return g

/-- The part of `resetSound` that reads the settings file. -/
def resetSound (g : GuiConnector) : Except Abort GuiConnector := do
  let (has, g) ← g.get (hasValue cfgEnabledSound)
  if has then
    let (enabled, g) ← g.get (getValueBool cfgEnabledSound)
    return { g with soundEnabled := enabled }
  else return { g with soundEnabled := false }

/-! ### Construction -/

/-- A numeric setting is taken from the file if it is valid there, and set
to its default and written otherwise. -/
def loadNumber {α : Type} (g : GuiConnector) (read : ConfigFile → FileOutcome → Except String α)
    (valid : α → Bool) (default : α)
    (write : α → ConfigFile → FileOutcome → Except String ConfigFile) :
    Except Abort (α × GuiConnector) := do
  let (value, g) ← g.get read
  if valid value then return (value, g)
  else
    let g ← g.put (write default)
    return (default, g)

/-- The wpm and the Farnsworth speed are written as doubles. -/
def putIntAsDouble (key : String) (value : Int) :
    ConfigFile → FileOutcome → Except String ConfigFile :=
  putValueDouble key value

def putDefaultIp (g : GuiConnector) : Except Abort GuiConnector :=
  { g with serverIp := defaultRemoteIp }.put (putValueString cfgRemoteIp defaultRemoteIp)

def loadServerIp (g : GuiConnector) : Except Abort GuiConnector := do
  let (has, g) ← g.get (hasValue cfgRemoteIp)
  if has then
    let (configuredIp, g) ← g.get (getValueString cfgRemoteIp)
    if configuredIp.isEmpty then g.putDefaultIp else return { g with serverIp := configuredIp }
  else g.putDefaultIp

def loadConfiguration (g : GuiConnector) : Except Abort GuiConnector := do
  let (amplitude, g) ← g.loadNumber (getValueDouble cfgAmplitude) (0 < ·) defaultAmplitude
    (putValueDouble cfgAmplitude)
  let g := { g with amplitude := amplitude }
  let (frequency, g) ← g.loadNumber (getValueDouble cfgFrequency) (0 < ·) defaultFrequency
    (putValueDouble cfgFrequency)
  let g := { g with frequency := frequency }
  let (wpm, g) ← g.loadNumber (getValueInt cfgWpm) (0 < ·) defaultWpm (putIntAsDouble cfgWpm)
  let g := { g with wpm := wpm }
  let (farnsWorth, g) ← g.loadNumber (getValueInt cfgFarnsWorth) (0 < ·) defaultFarnsWorth
    (putIntAsDouble cfgFarnsWorth)
  let g := { g with farnsWorth := farnsWorth }
  let (mode, g) ← g.loadNumber (getValueInt cfgMode) (fun mode => mode = 1 || mode = 2 || mode = 3)
    defaultMode (putValueInt cfgMode)
  let g := { g with mode := mode }
  let (selDev, g) ← g.get (getValueInt cfgSelectedAudioDevice)
  let g := if 0 ≤ selDev ∧ selDev < g.audioDevices then { g with selectedAudioDevice := selDev } else g
  let (selCom, g) ← g.get (getValueInt cfgCommOut)
  let g := if 0 ≤ selCom ∧ selCom < g.commPorts then { g with selectedCommPort := selCom } else g
  let (selCommIn, g) ← g.get (getValueInt cfgCommIn)
  let g := if 0 ≤ selCommIn ∧ selCommIn < g.commPorts then { g with selectedCommPortIn := selCommIn } else g
  let (remotePort, g) ← g.loadNumber (getValueInt cfgRemotePort)
    (fun port => 0 < port && port ≤ 65535) defaultRemotePort (putValueInt cfgRemotePort)
  let g := { g with remotePort := remotePort }
  let (remoteMoxDelayMs, g) ← g.loadNumber (getValueInt cfgRemoteMoxDelayMs) (0 ≤ ·)
    defaultRemoteMoxDelayMs (putValueInt cfgRemoteMoxDelayMs)
  let g := { g with remoteMoxDelayMs := remoteMoxDelayMs }
  g.loadServerIp

def initConnector (g : GuiConnector) : Except Abort GuiConnector := do
  let g ← g.resetKeyer.resetSound
  g.resetCwDecoder.resetRemotes

/-- The constructor, and `initConnector` when the window has been made. -/
def boot (audioDevices commPorts : Nat) (keyer : Keyer) (file : ConfigFile) (env : Environment) :
    Except Abort GuiConnector := do
  let g ← loadConfiguration
    { audioDevices := audioDevices, commPorts := commPorts, keyer := keyer, file := file, env := env }
  g.initConnector

/-! ### Setters -/

mutual

def setWpm : Nat → GuiConnector → Int → Except Abort GuiConnector
  | 0, _, _ => .error .outOfFuel
  | fuel + 1, g, value =>
      if g.wpm = value then return g
      else do
        let g ← { g with wpm := value }.put (putValueInt cfgWpm value)
        let g ← if g.farnsWorth > g.wpm then setFarnsWorth fuel g g.wpm else pure g
        return g.resetKeyer

def setFarnsWorth : Nat → GuiConnector → Int → Except Abort GuiConnector
  | 0, _, _ => .error .outOfFuel
  | fuel + 1, g, value =>
      if g.farnsWorth = value then return g
      else do
        let g ← { g with farnsWorth := value }.put (putValueInt cfgFarnsWorth value)
        let g ← if g.farnsWorth > g.wpm then setWpm fuel g g.farnsWorth else pure g
        return g.resetCwDecoder

end

def setMode (g : GuiConnector) (value : Int) : Except Abort GuiConnector :=
  if g.mode = value then return g
  else do
    let g ← { g with mode := value }.put (putValueInt cfgMode value)
    return g.resetKeyer

/-- `qFuzzyCompare` compares doubles up to rounding. -/
def setAmplitude (qFuzzyCompare : Rat → Rat → Bool) (g : GuiConnector) (value : Rat) :
    Except Abort GuiConnector :=
  if qFuzzyCompare g.amplitude value then return g
  else do
    let g ← { g with amplitude := value }.put (putValueDouble cfgAmplitude value)
    g.resetSound

def setFrequency (qFuzzyCompare : Rat → Rat → Bool) (g : GuiConnector) (value : Rat) :
    Except Abort GuiConnector :=
  if qFuzzyCompare g.frequency value then return g
  else do
    let g ← { g with frequency := value }.put (putValueDouble cfgFrequency value)
    g.resetSound

def setSelectedAudioDevice (g : GuiConnector) (index : Int) : Except Abort GuiConnector :=
  if index < 0 ∨ index ≥ g.audioDevices then return g
  else if g.selectedAudioDevice = index then return g
  else do
    let g ← { g with selectedAudioDevice := index }.put (putValueInt cfgSelectedAudioDevice index)
    g.resetSound

def setEnabledCwDecoder (g : GuiConnector) (enabled : Bool) : GuiConnector :=
  if enabled then g.startCwDecoder else g.stopCwDecoder

def setRemotePort (g : GuiConnector) (port : Int) : Except Abort GuiConnector :=
  if port ≤ 0 ∨ port > 65535 then return g
  else if g.remotePort = port then return g
  else do
    let g ← { g with remotePort := port }.put (putValueInt cfgRemotePort port)
    g.resetRemotes

def setServerIp (g : GuiConnector) (ip : String) : Except Abort GuiConnector :=
  let normalized := trimmed ip
  if normalized.isEmpty then return g
  else if g.serverIp = normalized then return g
  else do
    let g ← { g with serverIp := normalized }.put (putValueString cfgRemoteIp normalized)
    g.resetRemotes

def setRemoteMoxDelayMs (g : GuiConnector) (delayMs : Int) : Except Abort GuiConnector :=
  if delayMs < 0 then return g
  else if g.remoteMoxDelayMs = delayMs then return g
  else do
    let g ← { g with remoteMoxDelayMs := delayMs }.put (putValueInt cfgRemoteMoxDelayMs delayMs)
    g.resetRemotes

end GuiConnector

/-! ## The calls of the user interface -/

inductive GuiCall where
  | setWpm (value : Int)
  | setFarnsWorth (value : Int)
  | setMode (value : Int)
  | setEnabledCwDecoder (enabled : Bool)
  | setRemotePort (port : Int)
  | setServerIp (ip : String)
  | setRemoteMoxDelayMs (delayMs : Int)
  | setRemoteConnected (connected : Bool)
deriving Repr, DecidableEq

/-- The arguments that the user interface passes: speeds from 10 to 50, a
mode, an int. -/
def GuiCall.offered : GuiCall → Bool
  | .setWpm value => 10 ≤ value && value ≤ 50
  | .setFarnsWorth value => 10 ≤ value && value ≤ 50
  | .setMode value => value = 1 || value = 2 || value = 3
  | .setRemoteMoxDelayMs delayMs => -2 ^ 31 ≤ delayMs && delayMs < 2 ^ 31
  | _ => true

/-- A call with its surroundings, or the remote client losing its
connection. -/
inductive GuiAct where
  | call (c : GuiCall) (env : Environment)
  | connectionLost
deriving Repr, DecidableEq

namespace GuiConnector

def perform (fuel : Nat) (g : GuiConnector) : GuiCall → Except Abort GuiConnector
  | .setWpm value => setWpm fuel g value
  | .setFarnsWorth value => setFarnsWorth fuel g value
  | .setMode value => g.setMode value
  | .setEnabledCwDecoder enabled => .ok (g.setEnabledCwDecoder enabled)
  | .setRemotePort port => g.setRemotePort port
  | .setServerIp ip => g.setServerIp ip
  | .setRemoteMoxDelayMs delayMs => g.setRemoteMoxDelayMs delayMs
  | .setRemoteConnected connected => g.setRemoteConnected connected

/-- A call that does not return ends the run. -/
def step (fuel : Nat) (g : GuiConnector) : GuiAct → Option GuiConnector
  | .call c env =>
      if c.offered then (perform fuel { g with env := env } c).toOption else none
  | .connectionLost => some { g with remote := none }

end GuiConnector

def guiConnector (fuel : Nat) : Machine GuiConnector GuiAct := ⟨GuiConnector.step fuel⟩

end CwKeyer
