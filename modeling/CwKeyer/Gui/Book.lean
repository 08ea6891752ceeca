import CwKeyer.Gui.GuiConnector
import CwKeyer.Persisted

/-!
# The settings and their store

What `GuiConnector` is for, without its components and without the file
system: it holds settings and keeps them in a store, from which the next
session loads them. A setter is `assign`, which changes the setting and what
is stored under its key; loading is `load`. How each setting is kept is in
`SavedSetting.persisted`.
-/

namespace CwKeyer

/-- What is stored under each key. -/
abbrev Store := String → Option JsonValue

/-! ## The settings that are kept -/

inductive SavedSetting where
  | amplitude
  | frequency
  | wpm
  | farnsWorth
  | mode
  | selectedAudioDevice
  | remotePort
  | remoteMoxDelayMs
  | serverIp
deriving Repr, DecidableEq

namespace SavedSetting

abbrev Value : SavedSetting → Type
  | .amplitude => Rat
  | .frequency => Rat
  | .serverIp => String
  | _ => Int

def key : SavedSetting → String
  | .amplitude => cfgAmplitude
  | .frequency => cfgFrequency
  | .wpm => cfgWpm
  | .farnsWorth => cfgFarnsWorth
  | .mode => cfgMode
  | .selectedAudioDevice => cfgSelectedAudioDevice
  | .remotePort => cfgRemotePort
  | .remoteMoxDelayMs => cfgRemoteMoxDelayMs
  | .serverIp => cfgRemoteIp

def get : (s : SavedSetting) → Settings → s.Value
  | .amplitude, g => g.amplitude
  | .frequency, g => g.frequency
  | .wpm, g => g.wpm
  | .farnsWorth, g => g.farnsWorth
  | .mode, g => g.mode
  | .selectedAudioDevice, g => g.selectedAudioDevice
  | .remotePort, g => g.remotePort
  | .remoteMoxDelayMs, g => g.remoteMoxDelayMs
  | .serverIp, g => g.serverIp

def set : (s : SavedSetting) → s.Value → Settings → Settings
  | .amplitude, value, g => { g with amplitude := value }
  | .frequency, value, g => { g with frequency := value }
  | .wpm, value, g => { g with wpm := value }
  | .farnsWorth, value, g => { g with farnsWorth := value }
  | .mode, value, g => { g with mode := value }
  | .selectedAudioDevice, value, g => { g with selectedAudioDevice := value }
  | .remotePort, value, g => { g with remotePort := value }
  | .remoteMoxDelayMs, value, g => { g with remoteMoxDelayMs := value }
  | .serverIp, value, g => { g with serverIp := value }

variable {s s' : SavedSetting} {g : Settings}

@[simp] theorem get_set_self {value : s.Value} : s.get (s.set value g) = value := by
  cases s <;> rfl

theorem get_set_ne {value : s.Value} (h : s' ≠ s) : s'.get (s.set value g) = s'.get g := by
  cases s <;> cases s' <;>
    first
      | rfl
      | exact absurd rfl h

theorem key_ne (h : s' ≠ s) : s'.key ≠ s.key := by
  cases s <;> cases s' <;>
    first
      | exact absurd rfl h
      | decide

theorem key_ne_remoteConnected (s : SavedSetting) : s.key ≠ cfgRemoteConnected := by
  cases s <;> decide

/-! ### How they are kept -/

def double (valid : Rat → Bool) (default : Rat) : Persisted JsonValue Rat :=
  ⟨JsonValue.toDouble, 0, valid, default, .number, rfl⟩

def int (valid : Int → Bool) (default : Int) (h : JsonValue.toInt (.number default) = default) :
    Persisted JsonValue Int :=
  ⟨JsonValue.toInt, 0, valid, default, fun n => .number n, h⟩

theorem cStr_defaultRemoteIp : Configuration.cStr defaultRemoteIp = defaultRemoteIp :=
  Configuration.cStr_eq_iff.mpr (by decide)

/-- An audio device can be selected if there is one with its number. -/
def persisted (audioDevices : Nat) : (s : SavedSetting) → Persisted JsonValue s.Value
  | .amplitude => double (0 < ·) defaultAmplitude
  | .frequency => double (0 < ·) defaultFrequency
  | .wpm => int (0 < ·) defaultWpm rfl
  | .farnsWorth => int (0 < ·) defaultFarnsWorth rfl
  | .mode => int (fun mode => mode = 1 || mode = 2 || mode = 3) defaultMode rfl
  | .selectedAudioDevice => int (fun n => 0 ≤ n ∧ n < audioDevices) 0 rfl
  | .remotePort => int (fun port => 0 < port && port ≤ 65535) defaultRemotePort rfl
  | .remoteMoxDelayMs => int (0 ≤ ·) defaultRemoteMoxDelayMs rfl
  | .serverIp =>
      ⟨JsonValue.toString, "", fun ip => !ip.isEmpty, defaultRemoteIp,
        fun ip => .string (Configuration.cStr ip), cStr_defaultRemoteIp⟩

theorem load_selectedAudioDevice {audioDevices : Nat} {v : Option JsonValue} :
    (selectedAudioDevice.persisted audioDevices).load v =
      if 0 ≤ v.elim 0 JsonValue.toInt ∧ v.elim 0 JsonValue.toInt < audioDevices then
        v.elim 0 JsonValue.toInt
      else 0 := by
  simp [Persisted.load, Persisted.read, persisted, int]

/-- The settings whose default is stored when there is no valid value. -/
def refilled : List SavedSetting :=
  [.amplitude, .frequency, .wpm, .farnsWorth, .mode, .remotePort, .remoteMoxDelayMs, .serverIp]

def refill (audioDevices : Nat) (s : SavedSetting) :
    String × (Option JsonValue → Option JsonValue) :=
  (s.key, (s.persisted audioDevices).refill)

end SavedSetting

/-! ## Loading -/

def Settings.ofStore (audioDevices commPorts : Nat) (store : Store) : Settings :=
  let load (s : SavedSetting) : s.Value := (s.persisted audioDevices).load (store s.key)
  let port (key : String) : Int :=
    let selected := (store key).elim 0 JsonValue.toInt
    if 0 ≤ selected ∧ selected < commPorts then selected else -1
  { amplitude := load .amplitude
    frequency := load .frequency
    wpm := load .wpm
    farnsWorth := load .farnsWorth
    mode := load .mode
    selectedAudioDevice := load .selectedAudioDevice
    selectedCommPort := port cfgCommOut
    selectedCommPortIn := port cfgCommIn
    remotePort := load .remotePort
    remoteMoxDelayMs := load .remoteMoxDelayMs
    serverIp := load .serverIp }

/-- The store when the settings have been loaded. -/
def Store.loaded (audioDevices : Nat) (store : Store) : Store :=
  applyChanges store (SavedSetting.refilled.map (SavedSetting.refill audioDevices))

namespace Store

variable {S : Store} {s : SavedSetting} {audioDevices : Nat}

theorem loaded_refilled (h : s ∈ SavedSetting.refilled) :
    Store.loaded audioDevices S s.key = (s.persisted audioDevices).refill (S s.key) := by
  let changes := SavedSetting.refilled.map (SavedSetting.refill audioDevices)
  have hnodup : (changes.map Prod.fst).Nodup := by
    show (SavedSetting.refilled.map SavedSetting.key).Nodup
    decide
  exact applyChanges_target hnodup (List.mem_map_of_mem h)

theorem loaded_selectedAudioDevice :
    Store.loaded audioDevices S cfgSelectedAudioDevice = S cfgSelectedAudioDevice := by
  refine applyChanges_of_not_target ?_
  show cfgSelectedAudioDevice ∉ SavedSetting.refilled.map SavedSetting.key
  decide

@[simp] theorem get_ofStore (commPorts : Nat) :
    s.get (.ofStore audioDevices commPorts S) = (s.persisted audioDevices).load (S s.key) := by
  cases s <;> rfl

end Store

/-! ## The two speeds -/

/-- What a write leaves under the other keys when it goes wrong. -/
def KeepsOrLoses (key : String) (S S' : Store) : Prop :=
  (∀ other, other ≠ key → S' other = S other) ∨ ∀ other, other ≠ key → S' other = none

/-- The Farnsworth speed that is loaded is not above the wpm. -/
def SpeedsSorted (S : Store) : Prop :=
  (SavedSetting.farnsWorth.persisted 0).load (S cfgFarnsWorth) ≤
    (SavedSetting.wpm.persisted 0).load (S cfgWpm)

instance (S : Store) : Decidable (SpeedsSorted S) := inferInstanceAs (Decidable (_ ≤ _))

/-- Losing both speeds sorts them. -/
theorem SpeedsSorted.of_rest {S S' : Store} {same : Prop} {key : String} (h : SpeedsSorted S)
    (hkey : key ≠ cfgWpm ∧ key ≠ cfgFarnsWorth) (hrest : S' = S ∨ same ∧ KeepsOrLoses key S S') :
    SpeedsSorted S' := by
  rcases hrest with rfl | ⟨-, hkeeps | hloses⟩
  · exact h
  · unfold SpeedsSorted
    rw [hkeeps cfgWpm hkey.1.symm, hkeeps cfgFarnsWorth hkey.2.symm]
    exact h
  · unfold SpeedsSorted
    rw [hloses cfgWpm hkey.1.symm, hloses cfgFarnsWorth hkey.2.symm]
    decide

/-- The file may lose the Farnsworth speed after the wpm has been read, but
only when the wpm is the default. -/
theorem SpeedsSorted.loaded {S S' : Store} {wpm farnsWorth : Int} (h : SpeedsSorted S)
    (hwpm : wpm = (SavedSetting.wpm.persisted 0).load (S cfgWpm))
    (hrest : S' = S ∨ wpm = defaultWpm ∧ KeepsOrLoses cfgWpm S S')
    (hfarnsWorth : farnsWorth = (SavedSetting.farnsWorth.persisted 0).load (S' cfgFarnsWorth)) :
    farnsWorth ≤ wpm := by
  subst hfarnsWorth
  rcases hrest with rfl | ⟨hdefault, hkeeps | hloses⟩
  · rw [hwpm]
    exact h
  · rw [hkeeps cfgFarnsWorth (by decide), hwpm]
    exact h
  · rw [hloses cfgFarnsWorth (by decide), hdefault]
    decide

/-! ## Settings and store -/

/-- Settings, the number of audio devices, and the store. -/
structure Book extends Settings where
  audioDevices : Nat
  store : Store

namespace Book

variable {b : Book} {s s' : SavedSetting}

def load (commPorts : Nat) (b : Book) : Book where
  toSettings := .ofStore b.audioDevices commPorts b.store
  audioDevices := b.audioDevices
  store := b.store.loaded b.audioDevices

/-- A setting takes a value, which is stored. -/
def assign (s : SavedSetting) (value : s.Value) (b : Book) : Book where
  toSettings := s.set value b.toSettings
  audioDevices := b.audioDevices
  store := Function.update b.store s.key (some ((s.persisted b.audioDevices).encode value))

@[simp] theorem get_assign_self {value : s.Value} : s.get (b.assign s value).toSettings = value :=
  SavedSetting.get_set_self

theorem get_assign_ne {value : s.Value} (h : s' ≠ s) :
    s'.get (b.assign s value).toSettings = s'.get b.toSettings :=
  SavedSetting.get_set_ne h

@[simp] theorem assign_store_self {value : s.Value} :
    (b.assign s value).store s.key = some ((s.persisted b.audioDevices).encode value) :=
  Function.update_self ..

theorem assign_store_ne {value : s.Value} {key : String} (h : key ≠ s.key) :
    (b.assign s value).store key = b.store key :=
  Function.update_of_ne h ..

/-! ## Setters -/

/-- A setter ignores a value, or accepts and assigns it. -/
def Takes (accepts : Prop) (s : SavedSetting) (value : s.Value) (b b' : Book) : Prop :=
  b' = b ∨ accepts ∧ b' = b.assign s value

/-- The two speeds drag each other along. -/
def setWpm (value : Int) (b : Book) : Book :=
  if b.wpm = value then b
  else if b.farnsWorth > value then (b.assign .wpm value).assign .farnsWorth value
  else b.assign .wpm value

def setFarnsWorth (value : Int) (b : Book) : Book :=
  if b.farnsWorth = value then b
  else if value > b.wpm then (b.assign .farnsWorth value).assign .wpm value
  else b.assign .farnsWorth value

end Book

end CwKeyer
