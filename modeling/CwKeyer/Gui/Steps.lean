import CwKeyer.Gui.GuiConnector
import CwKeyer.Meets

/-!
# What the steps of a setter do

A setter assigns a setting, writes it to the settings file and resets the
components that are told of it. `Current` says that every component runs
on the current settings, `ReadsBack` that the settings file holds them.
Each step has one lemma: `putInt_spec` for the assignment of an int that
is written next, `resetKeyer_spec`, `resetCwDecoder_spec` and
`resetRemotes_spec` for the components. What a step does to the rest of
the state is an equation, so that a setter's proof substitutes it and
goes on.
-/

namespace CwKeyer

namespace GuiConnector

open CwKeyer.Configuration

/-! ## Current settings -/

/-- The keyer's times are those of a wpm, its mode is `mode`. -/
structure KeyerCurrent (k : Keyer) (wpm mode : Int) : Prop where
  ditTime : k.ditTime = calculateDuration .dit wpm
  dahTime : k.dahTime = calculateDuration .dah wpm
  spaceTime : k.spaceTime = calculateDuration .interElementSpace wpm
  mode : k.mode.toInt = mode

/-- The thresholds of a started decoder are those of the two speeds. -/
structure DecoderCurrent (d : CwDecoder) (farnsWorth wpm : Int) : Prop where
  interElementSpace : d.started = true →
    d.interElementSpace = calculateDuration .interElementSpace farnsWorth
  letterSpace : d.started = true → d.letterSpace = calculateDuration .letterSpace wpm
  wordSpace : d.started = true → d.wordSpace = calculateDuration .wordSpace farnsWorth

/-- A started remote client was started with the current arguments. -/
def RemoteCurrent (g : GuiConnector) : Prop :=
  ∀ args, g.remote = some args → args = ⟨g.serverIp, g.remotePort, g.remoteMoxDelayMs⟩

/-- Every component runs on the current settings. -/
structure Current (g : GuiConnector) : Prop where
  keyer : KeyerCurrent g.keyer g.wpm g.mode
  decoder : DecoderCurrent g.cwDecoder g.farnsWorth g.wpm
  remote : g.RemoteCurrent

def ModeValid (mode : Int) : Prop := mode = 1 ∨ mode = 2 ∨ mode = 3

/-- The settings that a component is told of. -/
inductive Setting where
  | wpm
  | farnsWorth
  | mode
  | remotePort
  | remoteMoxDelayMs
  | serverIp
deriving DecidableEq

namespace Setting

def key : Setting → String
  | .wpm => cfgWpm
  | .farnsWorth => cfgFarnsWorth
  | .mode => cfgMode
  | .remotePort => cfgRemotePort
  | .remoteMoxDelayMs => cfgRemoteMoxDelayMs
  | .serverIp => cfgRemoteIp

/-- `Configuration` returns the current value. -/
def ReadsBack (g : GuiConnector) : Setting → Prop
  | .wpm => getValueInt cfgWpm g.file {} = .ok g.wpm
  | .farnsWorth => getValueInt cfgFarnsWorth g.file {} = .ok g.farnsWorth
  | .mode => getValueInt cfgMode g.file {} = .ok g.mode
  | .remotePort => getValueInt cfgRemotePort g.file {} = .ok g.remotePort
  | .remoteMoxDelayMs => getValueInt cfgRemoteMoxDelayMs g.file {} = .ok g.remoteMoxDelayMs
  | .serverIp => getValueString cfgRemoteIp g.file {} = .ok g.serverIp

theorem key_ne {s s' : Setting} (h : s ≠ s') : s.key ≠ s'.key := by
  cases s <;> cases s' <;>
    first
      | exact absurd rfl h
      | decide

theorem key_ne_remoteConnected (s : Setting) : s.key ≠ cfgRemoteConnected := by
  cases s <;> decide

/-- It depends on the settings and on what is stored under the key. -/
theorem readsBack_congr {g g' : GuiConnector} {s : Setting}
    (hsettings : g'.toSettings = g.toSettings)
    (hstored : stored g'.file s.key = stored g.file s.key) : s.ReadsBack g' ↔ s.ReadsBack g := by
  have hread {α : Type} (absent : Except String α) (convert : JsonValue → α) :
      readValue absent convert s.key g'.file {} = readValue absent convert s.key g.file {} :=
    readValue_congr rfl hstored.symm
  cases s <;>
    · simp only [ReadsBack, getValueInt, getValueString, key] at hread ⊢
      rw [hread, hsettings]

end Setting

def ReadsBack (g : GuiConnector) : Prop := ∀ s : Setting, s.ReadsBack g

/-- The components do not matter. -/
theorem ReadsBack.of_eq {g g' : GuiConnector} (h : g.ReadsBack)
    (hsettings : g'.toSettings = g.toSettings) (hfile : g'.file = g.file) : g'.ReadsBack :=
  fun s => (Setting.readsBack_congr hsettings (by rw [hfile])).mpr (h s)

/-! ## What a call does to the settings file -/

/-- A call ends with an exception only if the file system fails, and never
for want of fuel. -/
def Excused (ok : Prop) : Abort → Prop
  | .threw _ => ¬ ok
  | .outOfFuel => False

/-- `g'` is `g` after a call of `Configuration` that may have written
`key`: when the file system works it keeps on working, and what is stored
under the other keys stays. -/
structure Filed (ok : Prop) (key : String) (g g' : GuiConnector) : Prop where
  frame : ∃ file files, g' = { g with file := file, env := { g.env with files := files } }
  files : ok → g'.env.filesOk = true
  others : ok → ∀ other, other ≠ key → stored g'.file other = stored g.file other

variable {ok : Prop} {g g' : GuiConnector} {key : String}

theorem head_ok (hok : g.env.filesOk = true) :
    (g.env.files.headD {}).ok = true ∧ g.env.files.tail.all FileOutcome.ok = true := by
  unfold Environment.filesOk at hok
  cases hfiles : g.env.files with
  | nil => exact ⟨rfl, rfl⟩
  | cons io files =>
      rw [hfiles] at hok
      simpa using hok

theorem put_spec {v : JsonValue} (hok : ok → g.env.filesOk = true) :
    Meets (Excused ok) (fun g' => Filed ok key g g' ∧ (ok → stored g'.file key = some v))
      (g.put (putValue key v)) := by
  have hputs (h : ok) := putValue_ok key v g.file (head_ok (hok h)).1
  unfold put nextFile
  dsimp only
  cases hput : putValue key v g.file (g.env.files.headD {}) with
  | error what =>
      refine Meets.error fun h => ?_
      obtain ⟨file, hwritten, -⟩ := hputs h
      rw [hput] at hwritten
      cases hwritten
  | ok file =>
      have hfile (h : ok) : stored file key = some v ∧
          ∀ other, other ≠ key → stored file other = stored g.file other := by
        obtain ⟨file', hwritten, hstored⟩ := hputs h
        obtain rfl := Except.ok.inj (hput.symm.trans hwritten)
        exact hstored
      refine Meets.pure ⟨⟨⟨file, _, rfl⟩, ?_, fun h => (hfile h).2⟩, fun h => (hfile h).1⟩
      exact fun h => (head_ok (hok h)).2

theorem get_spec {α : Type} {absent : Except String α} {convert : JsonValue → α}
    (hok : ok → g.env.filesOk = true)
    (hreads : ok → ∃ value, readValue absent convert key g.file {} = .ok value) :
    Meets (Excused ok)
      (fun r => (∃ files, r.2 = { g with env := { g.env with files := files } }) ∧
        (ok → r.2.env.filesOk = true) ∧ (ok → readValue absent convert key g.file {} = .ok r.1))
      (g.get (readValue absent convert key)) := by
  have hread (h : ok) : readValue absent convert key g.file (g.env.files.headD {}) =
      readValue absent convert key g.file {} := by
    have hio := (head_ok (hok h)).1
    refine readValue_congr ?_ rfl
    simp only [FileOutcome.ok, Bool.and_eq_true] at hio
    exact hio.1.1
  unfold get nextFile
  dsimp only
  cases hget : readValue absent convert key g.file (g.env.files.headD {}) with
  | error what =>
      refine Meets.error fun h => ?_
      obtain ⟨value, hvalue⟩ := hreads h
      rw [← hread h, hget] at hvalue
      cases hvalue
  | ok value =>
      refine Meets.pure ⟨⟨_, rfl⟩, fun h => (head_ok (hok h)).2, ?_⟩
      exact fun h => (hread h).symm.trans hget

/-- A setting is assigned and written: the others read back as before. -/
theorem putSetting_spec {s : Setting} {v : JsonValue} (hok : ok → g.env.filesOk = true) :
    Meets (Excused ok)
      (fun g' => (∃ file files, g' = { g with file := file, env := { g.env with files := files } }) ∧
        (ok → g'.env.filesOk = true) ∧
        (ok → stored g'.file s.key = some v ∧ ∀ s', s' ≠ s → (s'.ReadsBack g' ↔ s'.ReadsBack g)))
      (g.put (putValue s.key v)) := by
  refine (put_spec hok).mono ?_
  rintro g' ⟨⟨⟨file, files, rfl⟩, hfiles, hkeys⟩, hself⟩
  refine ⟨⟨file, files, rfl⟩, hfiles, fun h => ⟨hself h, fun s' hne => ?_⟩⟩
  have hsame := hkeys h s'.key (Setting.key_ne hne)
  exact Setting.readsBack_congr (by rfl) hsame

theorem getValueInt_of_stored {file : ConfigFile} {n : Int} (hint : InInt n)
    (h : stored file key = some (.number n)) : getValueInt key file {} = .ok n := by
  rw [getValueInt, readValue_eq rfl, h]
  exact congrArg Except.ok (JsonValue.toInt_number hint.1 hint.2)

/-- `Assigned n g s g₁`: the int setting `s` of `g` is set to `n` in `g₁`. -/
inductive Assigned (n : Int) (g : GuiConnector) : Setting → GuiConnector → Prop
  | wpm : Assigned n g .wpm { g with wpm := n }
  | farnsWorth : Assigned n g .farnsWorth { g with farnsWorth := n }
  | mode : Assigned n g .mode { g with mode := n }
  | remotePort : Assigned n g .remotePort { g with remotePort := n }
  | remoteMoxDelayMs : Assigned n g .remoteMoxDelayMs { g with remoteMoxDelayMs := n }

namespace Assigned

variable {n : Int} {s s' : Setting} {g₁ : GuiConnector}

theorem env_eq (h : Assigned n g s g₁) : g₁.env = g.env := by
  cases h <;> rfl

theorem readsBack_self (h : Assigned n g s g₁) (hint : InInt n) {file : ConfigFile}
    (hstored : stored file s.key = some (.number n)) : s.ReadsBack { g₁ with file := file } := by
  cases h <;> exact getValueInt_of_stored hint hstored

theorem readsBack_other (h : Assigned n g s g₁) (hne : s' ≠ s) (hback : s'.ReadsBack g) :
    s'.ReadsBack g₁ := by
  cases h <;> cases s' <;>
    first
      | exact hback
      | exact absurd rfl hne

end Assigned

/-- An int is assigned and then written: all settings read back if they did
before. -/
theorem putInt_spec {n : Int} {s : Setting} {g₁ : GuiConnector} (hassigned : Assigned n g s g₁)
    (hint : InInt n) (hok : ok → g.env.filesOk = true) :
    Meets (Excused ok)
      (fun g' => (∃ file files, g' = { g₁ with file := file, env := { g.env with files := files } }) ∧
        (ok → g'.env.filesOk = true) ∧ (ok → g.ReadsBack → g'.ReadsBack))
      (g₁.put (putValueInt s.key n)) := by
  refine (putSetting_spec fun h => (congrArg Environment.filesOk hassigned.env_eq).trans (hok h)).mono ?_
  rintro g' ⟨⟨file, files, rfl⟩, hfiles, hstored⟩
  rw [hassigned.env_eq] at hfiles hstored ⊢
  refine ⟨⟨file, files, rfl⟩, hfiles, ?_⟩
  intro h hread s'
  obtain ⟨hvalue, hsame⟩ := hstored h
  by_cases hs : s' = s
  · subst hs
    exact (Setting.readsBack_congr (by rfl) (by rfl)).mp (hassigned.readsBack_self hint hvalue)
  · exact (hsame s' hs).mpr (hassigned.readsBack_other hs (hread s'))

/-! ## What resetting a component does -/

theorem startCwDecoder_spec (g : GuiConnector) : ∃ cwDecoder clock, g.startCwDecoder =
    { g with cwDecoder := cwDecoder, env := { g.env with clock := clock } } ∧
      DecoderCurrent cwDecoder g.farnsWorth g.wpm :=
  ⟨_, _, rfl, fun _ => rfl, fun _ => rfl, fun _ => rfl⟩

/-- Whatever the thresholds were, they are current afterwards. -/
theorem resetCwDecoder_spec (g : GuiConnector) : ∃ cwDecoder clock, g.resetCwDecoder =
    { g with cwDecoder := cwDecoder, env := { g.env with clock := clock } } ∧
      DecoderCurrent cwDecoder g.farnsWorth g.wpm := by
  unfold resetCwDecoder
  split
  case isTrue => exact ⟨_, _, rfl, fun _ => rfl, fun _ => rfl, fun _ => rfl⟩
  case isFalse hstopped =>
    refine ⟨g.cwDecoder, g.env.clock, rfl, ?_⟩
    exact ⟨fun h => absurd h hstopped, fun h => absurd h hstopped, fun h => absurd h hstopped⟩

theorem resetKeyer_spec (g : GuiConnector) (hmode : ModeValid g.mode) :
    ∃ keyer cwDecoder clock, g.resetKeyer =
      { g with keyer := keyer, cwDecoder := cwDecoder, env := { g.env with clock := clock } } ∧
      KeyerCurrent keyer g.wpm g.mode ∧ DecoderCurrent cwDecoder g.farnsWorth g.wpm := by
  obtain ⟨cwDecoder, clock, hreset, hdecoder⟩ :=
    resetCwDecoder_spec { g with keyer := g.keyer.configure g.wpm (.ofInt g.mode) }
  exact ⟨_, cwDecoder, clock, hreset, ⟨rfl, rfl, rfl, Mode.toInt_ofInt hmode⟩, hdecoder⟩

/-- `start` gives the current arguments or leaves the client alone. -/
theorem startRemote_spec (h : g.RemoteCurrent) :
    (∃ remote connects, g.startRemote.2 =
      { g with remote := remote, env := { g.env with connects := connects } }) ∧
    g.startRemote.2.RemoteCurrent := by
  unfold startRemote
  split
  case isTrue => exact ⟨⟨g.remote, g.env.connects, rfl⟩, h⟩
  case isFalse =>
    refine ⟨⟨_, _, rfl⟩, ?_⟩
    intro args hargs
    dsimp only [nextConnect] at hargs
    split at hargs
    · exact (Option.some.inj hargs).symm
    · cases hargs

/-- `g'` differs from `g` in the remote client and what is stored under
its key. -/
structure RemoteOnly (ok : Prop) (g g' : GuiConnector) : Prop where
  frame : ∃ remote file files connects, g' = { g with
    remote := remote
    file := file
    env := { g.env with files := files, connects := connects } }
  files : ok → g'.env.filesOk = true
  others : ok → ∀ other, other ≠ cfgRemoteConnected → stored g'.file other = stored g.file other

theorem setRemoteConnected_spec (hok : ok → g.env.filesOk = true) (connected : Bool)
    (h : connected = true → g.RemoteCurrent) :
    Meets (Excused ok) (fun g' => RemoteOnly ok g g' ∧ g'.RemoteCurrent)
      (g.setRemoteConnected connected) := by
  unfold setRemoteConnected
  cases connected with
  | true =>
      obtain ⟨⟨remote, connects, hstart⟩, hcurrent⟩ := startRemote_spec (h rfl)
      simp only [if_true]
      rw [hstart] at hcurrent ⊢
      refine Meets.mono (put_spec (by exact hok)) ?_
      rintro g' ⟨⟨⟨file, files, rfl⟩, hfiles, hothers⟩, -⟩
      exact ⟨⟨⟨remote, file, files, connects, rfl⟩, hfiles, hothers⟩, hcurrent⟩
  | false =>
      simp only [Bool.false_eq_true, if_false]
      refine Meets.mono (put_spec (by exact hok)) ?_
      rintro g' ⟨⟨⟨file, files, rfl⟩, hfiles, hothers⟩, -⟩
      exact ⟨⟨⟨none, file, files, g.env.connects, rfl⟩, hfiles, hothers⟩, nofun⟩

theorem RemoteOnly.trans {g'' : GuiConnector} (h : RemoteOnly ok g g') (h' : RemoteOnly ok g' g'') :
    RemoteOnly ok g g'' := by
  obtain ⟨remote, file, files, connects, rfl⟩ := h.frame
  obtain ⟨remote', file', files', connects', rfl⟩ := h'.frame
  refine ⟨⟨remote', file', files', connects', rfl⟩, h'.files, ?_⟩
  intro hok other hne
  exact (h'.others hok other hne).trans (h.others hok other hne)

theorem RemoteOnly.readsBack (h : RemoteOnly ok g g') (hok : ok) (s : Setting) :
    s.ReadsBack g' ↔ s.ReadsBack g := by
  have hsame := h.others hok s.key s.key_ne_remoteConnected
  obtain ⟨remote, file, files, connects, rfl⟩ := h.frame
  exact Setting.readsBack_congr (by rfl) hsame

/-- Whatever it was started with, a remote client that is started
afterwards has the current arguments. -/
theorem resetRemotes_spec (hok : ok → g.env.filesOk = true) :
    Meets (Excused ok) (fun g' => RemoteOnly ok g g' ∧ g'.RemoteCurrent) g.resetRemotes := by
  unfold resetRemotes
  refine Meets.bind (get_spec hok fun _ => readValue_default) ?_
  rintro ⟨connected, g₁⟩ ⟨⟨files, rfl⟩, hfiles, -⟩
  have hfirst : RemoteOnly ok g { g with env := { g.env with files := files } } :=
    ⟨⟨g.remote, g.file, files, g.env.connects, rfl⟩, hfiles, fun _ _ _ => rfl⟩
  refine Meets.bind (setRemoteConnected_spec hfiles false nofun) ?_
  rintro g₂ ⟨hsecond, hcurrent⟩
  refine Meets.ite (fun _ => ?_) fun _ => Meets.pure ⟨hfirst.trans hsecond, hcurrent⟩
  refine (setRemoteConnected_spec hsecond.files true fun _ => hcurrent).mono ?_
  rintro g₃ ⟨hthird, hcurrent'⟩
  exact ⟨(hfirst.trans hsecond).trans hthird, hcurrent'⟩

/-! ## What holds between the calls -/

/-- What holds whenever control is outside. -/
structure InUse (g : GuiConnector) : Prop where
  modeValid : ModeValid g.mode
  current : g.Current

theorem resetRemotes_inUse (hok : ok → g.env.filesOk = true) (hmode : ModeValid g.mode)
    (hkeyer : KeyerCurrent g.keyer g.wpm g.mode)
    (hdecoder : DecoderCurrent g.cwDecoder g.farnsWorth g.wpm) :
    Meets (Excused ok)
      (fun g' => InUse g' ∧ (ok → ∀ s : Setting, s.ReadsBack g' ↔ s.ReadsBack g)) g.resetRemotes := by
  refine (resetRemotes_spec hok).mono ?_
  rintro g' ⟨honly, hremote⟩
  have hreads (h : ok) := honly.readsBack h
  obtain ⟨remote, file, files, connects, rfl⟩ := honly.frame
  exact ⟨⟨hmode, hkeyer, hdecoder, hremote⟩, hreads⟩

end GuiConnector

end CwKeyer
