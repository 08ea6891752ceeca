import CwKeyer.Gui.CurrentSettings
import CwKeyer.Gui.Kept
import CwKeyer.Gui.Simulation

/-!
# Settings over restarts

The user changes settings, and ends a session and starts the next one, with
the same audio devices and a file system that works. The specification is
`SettingsSurvive`: at every restart a setting that is stored keeps its value,
and one that has never been stored has its declared value. The program meets
it in the runs that restart with an amplitude above 0 and a server IP without
a NUL, provided that the settings file had a delay for the remote client to
begin with (`settings_survive_iff`).
-/

namespace CwKeyer

/-- The setters, with what the user interface passes to them. -/
inductive SettingCall where
  | setAmplitude (value : Rat)
  | setFrequency (value : Rat)
  | setWpm (value : Int)
  | setFarnsWorth (value : Int)
  | setMode (value : Int)
  | setSelectedAudioDevice (index : Int)
  | setRemotePort (port : Int)
  | setRemoteMoxDelayMs (delayMs : Int)
  | setServerIp (ip : String)
deriving Repr, DecidableEq

def SettingCall.offered : SettingCall → Bool
  | .setAmplitude value => 0 ≤ value && value ≤ 1
  | .setFrequency value => 300 ≤ value && value ≤ 1000
  | .setWpm value => 10 ≤ value && value ≤ 50
  | .setFarnsWorth value => 10 ≤ value && value ≤ 50
  | .setMode value => value = 1 || value = 2 || value = 3
  | .setSelectedAudioDevice index => -2 ^ 31 ≤ index && index < 2 ^ 31
  | .setRemotePort _ => true
  | .setRemoteMoxDelayMs delayMs => 0 ≤ delayMs && delayMs ≤ 10000
  | .setServerIp _ => true

/-- A call, or the end of the session and the construction of the next. -/
inductive SessionAct where
  | call (c : SettingCall) (env : Environment)
  | restart (commPorts : Nat) (keyer : Keyer) (env : Environment)
deriving Repr, DecidableEq

namespace SessionAct

def isRestart : SessionAct → Bool
  | .call .. => false
  | .restart .. => true

/-- The file system works. -/
def possible : SessionAct → Bool
  | .call c env => c.offered && env.filesOk
  | .restart _ _ env => env.filesOk

end SessionAct

namespace GuiConnector

open CwKeyer.Configuration

def performSetting (qFuzzyCompare : Rat → Rat → Bool) (fuel : Nat) (g : GuiConnector) :
    SettingCall → Except Abort GuiConnector
  | .setAmplitude value => g.setAmplitude qFuzzyCompare value
  | .setFrequency value => g.setFrequency qFuzzyCompare value
  | .setWpm value => setWpm fuel g value
  | .setFarnsWorth value => setFarnsWorth fuel g value
  | .setMode value => g.setMode value
  | .setSelectedAudioDevice index => g.setSelectedAudioDevice index
  | .setRemotePort port => g.setRemotePort port
  | .setRemoteMoxDelayMs delayMs => g.setRemoteMoxDelayMs delayMs
  | .setServerIp ip => g.setServerIp ip

def sessionStep (qFuzzyCompare : Rat → Rat → Bool) (fuel : Nat) (g : GuiConnector)
    (a : SessionAct) : Option GuiConnector :=
  if a.possible then
    match a with
    | .call c env => (performSetting qFuzzyCompare fuel { g with env := env } c).toOption
    | .restart commPorts keyer env => (boot g.audioDevices commPorts keyer g.file env).toOption
  else none

end GuiConnector

def sessions (qFuzzyCompare : Rat → Rat → Bool) (fuel : Nat) : Machine GuiConnector SessionAct :=
  ⟨GuiConnector.sessionStep qFuzzyCompare fuel⟩

namespace GuiConnector

open CwKeyer.Configuration

variable {qFuzzyCompare : Rat → Rat → Bool} {fuel : Nat} {g g' : GuiConnector} {b : Book}

/-- The specification, for a first session with `file`. Calls and restarts
are done. -/
structure SettingsSurvive (qFuzzyCompare : Rat → Rat → Bool) (fuel : Nat) (file : ConfigFile)
    (g : GuiConnector) (as : List SessionAct) : Prop where
  returns : ∀ t a, (sessions qFuzzyCompare fuel).Reachable g t → a.possible = true →
    (sessionStep qFuzzyCompare fuel t a).isSome = true
  start : ∀ s : SavedSetting, stored file s.key = none → s.get g.toSettings = s.get declared
  restarts : (sessions qFuzzyCompare fuel).Along
    (fun g a g' => a.isRestart = true → ∀ s : SavedSetting, s.get g'.toSettings =
      if (stored g.file s.key).isSome = true then s.get g.toSettings else s.get declared) g as

/-! ## One step -/

/-- A call leads the book onward. -/
theorem performSetting_spec (fuel : Nat) (h : Shows True g b) {c : SettingCall}
    (hoffered : c.offered = true) :
    Meets (Excused True) (fun g' => ∃ b', Shows True g' b' ∧ Book.Onward b b')
      (performSetting qFuzzyCompare (fuel + 2) g c) := by
  have htakes {accepts : Prop} {s : SavedSetting} {value : s.Value} {x : Except Abort GuiConnector}
      (hx : Meets (Excused True) (Follows True accepts s value b) x)
      (hvalue : accepts →
        s.Kept b.audioDevices (some ((s.persisted b.audioDevices).encode value)) value) :
      Meets (Excused True) (fun g' => ∃ b', Shows True g' b' ∧ Book.Onward b b') x := by
    refine hx.mono ?_
    rintro g' ⟨b', hb', hshows⟩
    exact ⟨b', hshows, hb'.onward hvalue⟩
  cases c with
  | setAmplitude value =>
      simp only [SettingCall.offered, Bool.and_eq_true, decide_eq_true_eq] at hoffered
      exact htakes (h.setAmplitude value) fun _ => ⟨rfl, rfl, hoffered.1⟩
  | setFrequency value =>
      simp only [SettingCall.offered, Bool.and_eq_true, decide_eq_true_eq] at hoffered
      have hpos : (0 : Rat) < value :=
        Rat.not_le.mp fun hle => absurd (Rat.le_trans hoffered.1 hle) (by decide)
      exact htakes (h.setFrequency value) fun _ => ⟨rfl, decide_eq_true hpos⟩
  | setWpm value =>
      simp only [SettingCall.offered, Bool.and_eq_true, decide_eq_true_eq] at hoffered
      refine (h.setWpm fuel value).mono fun g' h' => ⟨_, h', ?_⟩
      exact Book.onward_setWpm (by omega) (by omega)
  | setFarnsWorth value =>
      simp only [SettingCall.offered, Bool.and_eq_true, decide_eq_true_eq] at hoffered
      refine (h.setFarnsWorth fuel value).mono fun g' h' => ⟨_, h', ?_⟩
      exact Book.onward_setFarnsWorth (by omega) (by omega)
  | setMode value =>
      have hmode := hoffered
      simp only [SettingCall.offered, Bool.or_eq_true, decide_eq_true_eq] at hmode
      refine htakes (h.setMode value) fun _ => ?_
      exact SavedSetting.remembers_number (by omega) (by omega) hoffered
  | setSelectedAudioDevice index =>
      simp only [SettingCall.offered, Bool.and_eq_true, decide_eq_true_eq] at hoffered
      refine htakes (h.setSelectedAudioDevice index) fun haccepts => ?_
      refine Persisted.Remembers.load ?_
      exact SavedSetting.remembers_number hoffered.1 hoffered.2 (decide_eq_true haccepts)
  | setRemotePort port =>
      refine htakes (h.setRemotePort port) fun haccepts => ?_
      refine SavedSetting.remembers_number (by omega) (by omega) ?_
      simpa using haccepts
  | setRemoteMoxDelayMs delayMs =>
      simp only [SettingCall.offered, Bool.and_eq_true, decide_eq_true_eq] at hoffered
      refine htakes (h.setRemoteMoxDelayMs delayMs) fun haccepts => ?_
      exact SavedSetting.remembers_number (by omega) (by omega) (decide_eq_true haccepts)
  | setServerIp ip => exact htakes (h.setServerIp ip) fun haccepts => ⟨rfl, haccepts⟩

/-- What is kept in the book is kept in the program. -/
theorem Shows.kept (h : Shows True g b) (hb : b.Kept) : g.book.Kept := by
  intro s
  have hs := hb s
  rw [← h.settings, ← h.audioDevices, ← h.store trivial s.key s.key_ne_remoteConnected] at hs
  exact hs

theorem Shows.onward {g₀ : GuiConnector} (h : Shows True g b) (hb : Book.Onward g₀.book b) :
    Book.Onward g₀.book g.book := by
  refine ⟨fun hkept => h.kept (hb.kept hkept), ?_⟩
  intro hdelay
  refine Eq.trans (congrArg Option.isSome ?_) (hb.delay hdelay)
  exact h.store trivial cfgRemoteMoxDelayMs (by decide)

theorem not_excused_true (e : Abort) : ¬ Excused True e := by
  cases e with
  | threw what => exact fun h => h trivial
  | outOfFuel => exact id

/-- A step is done, and a restart loads the book. -/
theorem sessionStep_spec (qFuzzyCompare : Rat → Rat → Bool) (hfuel : 2 ≤ fuel) (hkept : g.book.Kept)
    {a : SessionAct} (ha : a.possible = true) :
    ∃ g', sessionStep qFuzzyCompare fuel g a = some g' ∧ Book.Onward g.book g'.book ∧
      (a.isRestart = true → ∃ commPorts, g'.toSettings = (g.book.load commPorts).toSettings) := by
  obtain ⟨n, rfl⟩ := Nat.exists_eq_add_of_le' hfuel
  unfold sessionStep
  rw [if_pos ha]
  cases a with
  | call c env =>
      obtain ⟨hoffered, hfiles⟩ := Bool.and_eq_true_iff.mp ha
      have hshows : Shows True { g with env := env } g.book :=
        ⟨rfl, rfl, fun _ => hfiles, fun _ _ _ => rfl⟩
      have hspec := @performSetting_spec qFuzzyCompare _ _ n hshows c hoffered
      obtain ⟨g', hcall, b', hshows', honward⟩ := hspec.exists_ok not_excused_true
      exact ⟨g', congrArg Except.toOption hcall, hshows'.onward honward, nofun⟩
  | restart commPorts keyer env =>
      have hspec := @boot_shows True g.audioDevices commPorts keyer g.file env fun _ => ha
      obtain ⟨g', hboot, b', hshows', -, -, hloaded⟩ := hspec.exists_ok not_excused_true
      obtain rfl : b' = g.book.load commPorts := hloaded trivial
      refine ⟨g', congrArg Except.toOption hboot, ?_, fun _ => ⟨commPorts, hshows'.settings⟩⟩
      exact hshows'.onward (Book.onward_load hkept commPorts)

/-! ## Runs -/

/-- The restart gives back what it has to in these states. -/
def Restartable (g : GuiConnector) : Prop := g.amplitude ≠ 0 ∧ '\x00' ∉ g.serverIp.toList

instance : DecidablePred Restartable := fun _ => inferInstanceAs (Decidable (_ ∧ _))

/-- What holds in every session once there is a delay. -/
structure InSession (g : GuiConnector) : Prop where
  kept : g.book.Kept
  delay : (stored g.file cfgRemoteMoxDelayMs).isSome = true

theorem possible_of_step {a : SessionAct} (hstep : sessionStep qFuzzyCompare fuel g a = some g') :
    a.possible = true :=
  (Option.ite_none_right_eq_some.mp hstep).1

theorem kept_step (hfuel : 2 ≤ fuel) (h : g.book.Kept) {a : SessionAct}
    (hstep : sessionStep qFuzzyCompare fuel g a = some g') : g'.book.Kept := by
  obtain ⟨g₁, hg₁, honward, -⟩ :=
    sessionStep_spec qFuzzyCompare hfuel h (possible_of_step hstep)
  obtain rfl := Option.some.inj (hstep.symm.trans hg₁)
  exact honward.kept h

theorem InSession.step (hfuel : 2 ≤ fuel) (h : InSession g) {a : SessionAct}
    (hstep : sessionStep qFuzzyCompare fuel g a = some g') : InSession g' := by
  obtain ⟨g₁, hg₁, honward, -⟩ :=
    sessionStep_spec qFuzzyCompare hfuel h.kept (possible_of_step hstep)
  obtain rfl := Option.some.inj (hstep.symm.trans hg₁)
  exact ⟨honward.kept h.kept, honward.delay h.delay⟩

/-- One restart. -/
theorem InSession.restart_iff (hfuel : 2 ≤ fuel) (h : InSession g) {a : SessionAct}
    (hstep : sessionStep qFuzzyCompare fuel g a = some g') (ha : a.isRestart = true) :
    (∀ s : SavedSetting, s.get g'.toSettings =
      if (stored g.file s.key).isSome = true then s.get g.toSettings else s.get declared) ↔
        g.Restartable := by
  obtain ⟨g₁, hg₁, -, hrestart⟩ :=
    sessionStep_spec qFuzzyCompare hfuel h.kept (possible_of_step hstep)
  obtain rfl := Option.some.inj (hstep.symm.trans hg₁)
  obtain ⟨commPorts, hloaded⟩ := hrestart ha
  rw [hloaded]
  refine h.kept.survives_load_iff.trans ?_
  constructor
  · rintro ⟨hamplitude, -, hip⟩
    exact ⟨hamplitude, hip⟩
  · rintro ⟨hamplitude, hip⟩
    exact ⟨hamplitude, h.delay, hip⟩

theorem restarts_iff (hfuel : 2 ≤ fuel) (h : InSession g) (as : List SessionAct) :
    (sessions qFuzzyCompare fuel).Along
        (fun g a g' => a.isRestart = true → ∀ s : SavedSetting, s.get g'.toSettings =
          if (stored g.file s.key).isSome = true then s.get g.toSettings else s.get declared) g as ↔
      (sessions qFuzzyCompare fuel).Along
        (fun g a _ => a.isRestart = true → g.Restartable) g as := by
  refine Machine.along_congr (I := InSession) ?_ ?_ h
  · intro s a s' hs hstep
    exact imp_congr_right fun ha => hs.restart_iff hfuel hstep ha
  · intro s a s' hs _ hstep
    exact hs.step hfuel hstep

section Construction

variable {audioDevices commPorts : Nat} {keyer : Keyer} {file : ConfigFile} {env : Environment}

/-- The first session. -/
theorem boot_book (hok : env.filesOk = true)
    (hboot : boot audioDevices commPorts keyer file env = .ok g) :
    Shows True g (Book.load commPorts ⟨{}, audioDevices, stored file⟩) := by
  have hspec := @boot_shows True audioDevices commPorts keyer file env fun _ => hok
  obtain ⟨b, hshows, -, -, hloaded⟩ := hspec.ok hboot
  exact hloaded trivial ▸ hshows

theorem boot_start_iff (hok : env.filesOk = true)
    (hboot : boot audioDevices commPorts keyer file env = .ok g) :
    (∀ s : SavedSetting, stored file s.key = none → s.get g.toSettings = s.get declared) ↔
      (stored file cfgRemoteMoxDelayMs).isSome = true := by
  have hload (s : SavedSetting) (hnone : stored file s.key = none) :
      s.get g.toSettings = (s.persisted audioDevices).load none := by
    rw [(boot_book hok hboot).settings]
    exact (Store.get_ofStore commPorts).trans (congrArg _ hnone)
  constructor
  · intro hstart
    by_contra habsent
    have hnone : stored file cfgRemoteMoxDelayMs = none := by simpa using habsent
    have hdelay := (hload .remoteMoxDelayMs hnone).symm.trans (hstart .remoteMoxDelayMs hnone)
    exact SavedSetting.load_none_iff.mp hdelay rfl
  · intro hdelay s hnone
    rw [hload s hnone]
    refine SavedSetting.load_none_iff.mpr ?_
    rintro rfl
    rw [show stored file cfgRemoteMoxDelayMs = none from hnone] at hdelay
    cases hdelay

/-- The settings survive exactly if the settings file had a delay to begin
with and no session ends with an amplitude of 0 or with a server IP that has a
NUL. -/
theorem settings_survive_iff (qFuzzyCompare : Rat → Rat → Bool) (hfuel : 2 ≤ fuel)
    (hok : env.filesOk = true) (hnul : NulFree (stored file))
    (hboot : boot audioDevices commPorts keyer file env = .ok g) (as : List SessionAct) :
    SettingsSurvive qFuzzyCompare fuel file g as ↔
      (stored file cfgRemoteMoxDelayMs).isSome = true ∧
        (sessions qFuzzyCompare fuel).Along
          (fun g a _ => a.isRestart = true → g.Restartable) g as := by
  have hbook := boot_book hok hboot
  have hkept : g.book.Kept := hbook.kept (Book.kept_load hnul)
  have hsession (hdelay : (stored file cfgRemoteMoxDelayMs).isSome = true) : InSession g := by
    refine ⟨hkept, ?_⟩
    rw [hbook.store trivial cfgRemoteMoxDelayMs (by decide)]
    have hrefilled : SavedSetting.remoteMoxDelayMs ∈ SavedSetting.refilled := by decide
    exact (congrArg Option.isSome (Store.loaded_refilled hrefilled)).trans
      ((Persisted.refill_of_absent rfl _).trans hdelay)
  constructor
  · intro hsurvive
    have hdelay := (boot_start_iff hok hboot).mp hsurvive.start
    exact ⟨hdelay, (restarts_iff hfuel (hsession hdelay) as).mp hsurvive.restarts⟩
  · rintro ⟨hdelay, hrestartable⟩
    refine ⟨fun t a hreach ha => ?_, (boot_start_iff hok hboot).mpr hdelay,
      (restarts_iff hfuel (hsession hdelay) as).mpr hrestartable⟩
    have ht : t.book.Kept := hreach.invariant hkept fun _ _ _ hs hstep => kept_step hfuel hs hstep
    obtain ⟨t', ht', -⟩ := sessionStep_spec qFuzzyCompare hfuel ht ha
    rw [ht']
    rfl

end Construction

/-- A settings file with a delay. -/
def delayFile : ConfigFile := some [(cfgRemoteMoxDelayMs, .number 100), (cfgAmplitude, .number 1)]

theorem delayFile_nulFree : NulFree (stored delayFile) := by
  intro ip hip
  have hnone : stored delayFile cfgRemoteIp = none := rfl
  rw [hnone] at hip
  cases hip

def idleKeyer : Keyer := { lastPressed := .dit, lastQueued := .dit }

def delayStart : GuiConnector where
  amplitude := 1
  remoteMoxDelayMs := 100
  audioDevices := 1
  commPorts := 0
  keyer := { idleKeyer with ditTime := 48, dahTime := 144, spaceTime := 48 }
  file := some [(cfgRemoteConnected, .bool false), (cfgRemoteIp, .string defaultRemoteIp),
    (cfgRemotePort, .number defaultRemotePort), (cfgMode, .number defaultMode),
    (cfgFarnsWorth, .number defaultFarnsWorth), (cfgWpm, .number defaultWpm),
    (cfgFrequency, .number defaultFrequency), (cfgRemoteMoxDelayMs, .number 100),
    (cfgAmplitude, .number 1)]
  env := {}

theorem boot_delayStart : boot 1 0 idleKeyer delayFile {} = .ok delayStart := rfl

theorem settings_survive_delayStart :
    SettingsSurvive (fun p q => p = q) 2 delayFile delayStart
      [.call (.setAmplitude (3 / 4)) {}, .restart 0 idleKeyer {}] := by
  refine (settings_survive_iff _ (by decide) rfl delayFile_nulFree boot_delayStart _).mpr ⟨rfl, ?_⟩
  decide +kernel

/-- Without a settings file the delay is 0, and a sound that has been turned
off is on again after a restart. -/
theorem settings_do_not_survive :
    (boot 0 0 idleKeyer none {} = .ok firstStart ∧
      ¬ SettingsSurvive (fun p q => p = q) 2 none firstStart []) ∧
    boot 1 0 idleKeyer delayFile {} = .ok delayStart ∧
      ¬ SettingsSurvive (fun p q => p = q) 2 delayFile delayStart
        [.call (.setAmplitude 0) {}, .restart 0 idleKeyer {}] := by
  refine ⟨⟨boot_firstStart, fun h => ?_⟩, boot_delayStart, ?_⟩
  · have hdelay : (0 : Int) = defaultRemoteMoxDelayMs := h.start .remoteMoxDelayMs rfl
    exact absurd hdelay (by decide)
  · intro h
    have hamplitude := h.restarts.mono (Q := fun g a g' => a.isRestart = true →
      g'.amplitude = if (stored g.file cfgAmplitude).isSome = true then g.amplitude
        else declared.amplitude) fun _ _ _ hrestart ha => hrestart ha .amplitude
    exact absurd hamplitude (by decide +kernel)

end GuiConnector

end CwKeyer
