import CwKeyer.Gui.Boot

/-!
# The connector shows its book

`Shows ok g b` says that `g` has the settings of the book `b`, and, as long
as the file system works, that the settings file is its store, but for
`remote_connected`, which is not a setting. The components may be in any
state: resetting them keeps the relation, an assignment that is written is
`Book.assign`, and so every setter and the construction follow the book.
-/

namespace CwKeyer

namespace GuiConnector

open CwKeyer.Configuration

variable {ok : Prop} {g g' : GuiConnector} {b : Book}

structure Shows (ok : Prop) (g : GuiConnector) (b : Book) : Prop where
  settings : g.toSettings = b.toSettings
  audioDevices : g.audioDevices = b.audioDevices
  files : ok → g.env.filesOk = true
  store : ok → ∀ key, key ≠ cfgRemoteConnected → stored g.file key = b.store key

/-- The settings and the settings file of `g`. -/
def book (g : GuiConnector) : Book := ⟨g.toSettings, g.audioDevices, stored g.file⟩

theorem shows_book (hok : ok → g.env.filesOk = true) : Shows ok g g.book :=
  ⟨rfl, rfl, hok, fun _ _ _ => rfl⟩

/-! ## The components -/

theorem Shows.resetCwDecoder (h : Shows ok g b) : Shows ok g.resetCwDecoder b := by
  obtain ⟨cwDecoder, clock, hreset, -⟩ := g.resetCwDecoder_spec
  rw [hreset]
  exact ⟨h.settings, h.audioDevices, h.files, h.store⟩

theorem Shows.resetKeyer (h : Shows ok g b) : Shows ok g.resetKeyer b := by
  have hconfigured : Shows ok { g with keyer := g.keyer.configure g.wpm (.ofInt g.mode) } b :=
    ⟨h.settings, h.audioDevices, h.files, h.store⟩
  exact hconfigured.resetCwDecoder

theorem Shows.resetSound (h : Shows ok g b) :
    Meets (Excused ok) (fun g' => Shows ok g' b) g.resetSound := by
  refine (resetSound_spec h.files).mono ?_
  rintro g' ⟨⟨soundEnabled, files, rfl⟩, hfiles⟩
  exact ⟨h.settings, h.audioDevices, hfiles, h.store⟩

theorem Shows.resetRemotes (h : Shows ok g b) :
    Meets (Excused ok) (fun g' => Shows ok g' b) g.resetRemotes := by
  refine (resetRemotes_spec h.files).mono ?_
  rintro g' ⟨honly, -⟩
  have hfiles := honly.files
  have hothers := honly.others
  obtain ⟨remote, file, files, connects, rfl⟩ := honly.frame
  refine ⟨h.settings, h.audioDevices, hfiles, ?_⟩
  intro hok key hkey
  exact (hothers hok key hkey).trans (h.store hok key hkey)

/-! ## An assignment -/

theorem Shows.put (h : Shows ok g b) (s : SavedSetting) (value : s.Value) :
    Meets (Excused ok) (fun g' => Shows ok g' (b.assign s value))
      ({ g with toSettings := s.set value g.toSettings }.put
        (putValue s.key ((s.persisted b.audioDevices).encode value))) := by
  refine Meets.mono (put_spec (by exact h.files)) ?_
  rintro g' ⟨⟨⟨file, files, rfl⟩, hfiles, hothers⟩, hself⟩
  refine ⟨?_, h.audioDevices, hfiles, ?_⟩
  · show s.set value g.toSettings = s.set value b.toSettings
    rw [h.settings]
  · intro hok key hkey
    by_cases hne : key = s.key
    · subst hne
      rw [Book.assign_store_self]
      exact hself hok
    · rw [Book.assign_store_ne hne]
      exact (hothers hok key hne).trans (h.store hok key hkey)

/-- `g` can end as the book does when it takes a value. -/
def Follows (ok accepts : Prop) (s : SavedSetting) (value : s.Value) (b : Book)
    (g' : GuiConnector) : Prop :=
  ∃ b', b.Takes accepts s value b' ∧ Shows ok g' b'

variable {accepts : Prop} {s : SavedSetting} {value : s.Value}

/-- A setter that assigns and then resets components. -/
theorem Shows.put_bind (h : Shows ok g b) (haccepts : accepts)
    {reset : GuiConnector → Except Abort GuiConnector}
    (hreset : ∀ {g₁ b₁}, Shows ok g₁ b₁ →
      Meets (Excused ok) (fun g' => Shows ok g' b₁) (reset g₁)) :
    Meets (Excused ok) (Follows ok accepts s value b)
      ({ g with toSettings := s.set value g.toSettings }.put
        (putValue s.key ((s.persisted b.audioDevices).encode value)) >>= reset) := by
  refine Meets.bind (h.put s value) ?_
  intro g₁ h₁
  exact (hreset h₁).mono fun g' h' => ⟨_, .inr ⟨haccepts, rfl⟩, h'⟩

theorem Shows.ignore (h : Shows ok g b) : Meets (Excused ok) (Follows ok accepts s value b)
    (Pure.pure g : Except Abort GuiConnector) :=
  Meets.pure ⟨b, .inl rfl, h⟩

/-! ## Setters -/

variable {qFuzzyCompare : Rat → Rat → Bool}

theorem Shows.setAmplitude (h : Shows ok g b) (value : Rat) :
    Meets (Excused ok) (Follows ok True .amplitude value b)
      (g.setAmplitude qFuzzyCompare value) := by
  unfold GuiConnector.setAmplitude
  refine Meets.ite (fun _ => h.ignore) fun _ => ?_
  exact @Shows.put_bind _ _ _ _ .amplitude value h trivial _ Shows.resetSound

theorem Shows.setFrequency (h : Shows ok g b) (value : Rat) :
    Meets (Excused ok) (Follows ok True .frequency value b)
      (g.setFrequency qFuzzyCompare value) := by
  unfold GuiConnector.setFrequency
  refine Meets.ite (fun _ => h.ignore) fun _ => ?_
  exact @Shows.put_bind _ _ _ _ .frequency value h trivial _ Shows.resetSound

theorem Shows.setMode (h : Shows ok g b) (value : Int) :
    Meets (Excused ok) (Follows ok True .mode value b) (g.setMode value) := by
  unfold GuiConnector.setMode
  refine Meets.ite (fun _ => h.ignore) fun _ => ?_
  exact @Shows.put_bind _ _ _ _ .mode value h trivial _ fun h₁ => Meets.pure h₁.resetKeyer

theorem Shows.setSelectedAudioDevice (h : Shows ok g b) (index : Int) :
    Meets (Excused ok)
      (Follows ok (0 ≤ index ∧ index < b.audioDevices) .selectedAudioDevice index b)
      (g.setSelectedAudioDevice index) := by
  unfold GuiConnector.setSelectedAudioDevice
  refine Meets.ite (fun _ => h.ignore) fun hrange => ?_
  refine Meets.ite (fun _ => h.ignore) fun _ => ?_
  have haccepts : 0 ≤ index ∧ index < b.audioDevices := by
    rw [← h.audioDevices]
    omega
  exact @Shows.put_bind _ _ _ _ .selectedAudioDevice index h haccepts _ Shows.resetSound

theorem Shows.setRemotePort (h : Shows ok g b) (port : Int) :
    Meets (Excused ok) (Follows ok (0 < port ∧ port ≤ 65535) .remotePort port b)
      (g.setRemotePort port) := by
  unfold GuiConnector.setRemotePort
  refine Meets.ite (fun _ => h.ignore) fun hrange => ?_
  refine Meets.ite (fun _ => h.ignore) fun _ => ?_
  have haccepts : 0 < port ∧ port ≤ 65535 := by omega
  exact @Shows.put_bind _ _ _ _ .remotePort port h haccepts _ Shows.resetRemotes

theorem Shows.setRemoteMoxDelayMs (h : Shows ok g b) (delayMs : Int) :
    Meets (Excused ok) (Follows ok (0 ≤ delayMs) .remoteMoxDelayMs delayMs b)
      (g.setRemoteMoxDelayMs delayMs) := by
  unfold GuiConnector.setRemoteMoxDelayMs
  refine Meets.ite (fun _ => h.ignore) fun hrange => ?_
  refine Meets.ite (fun _ => h.ignore) fun _ => ?_
  have haccepts : 0 ≤ delayMs := by omega
  exact @Shows.put_bind _ _ _ _ .remoteMoxDelayMs delayMs h haccepts _ Shows.resetRemotes

theorem Shows.setServerIp (h : Shows ok g b) (ip : String) :
    Meets (Excused ok) (Follows ok ((trimmed ip).isEmpty = false) .serverIp (trimmed ip) b)
      (g.setServerIp ip) := by
  unfold GuiConnector.setServerIp
  refine Meets.ite (fun _ => h.ignore) fun hempty => ?_
  refine Meets.ite (fun _ => h.ignore) fun _ => ?_
  have haccepts : (trimmed ip).isEmpty = false := by simpa using hempty
  exact @Shows.put_bind _ _ _ _ .serverIp (trimmed ip) h haccepts _ Shows.resetRemotes

/-! ### The speeds -/

theorem Shows.wpm_eq (h : Shows ok g b) : g.wpm = b.wpm := congrArg Settings.wpm h.settings

theorem Shows.farnsWorth_eq (h : Shows ok g b) : g.farnsWorth = b.farnsWorth :=
  congrArg Settings.farnsWorth h.settings

/-- A Farnsworth speed that the wpm allows drags nothing along. -/
theorem Shows.setFarnsWorth_low (fuel : Nat) (h : Shows ok g b) {value : Int}
    (hne : b.farnsWorth ≠ value) (hlow : value ≤ b.wpm) :
    Meets (Excused ok) (fun g' => Shows ok g' (b.assign .farnsWorth value))
      (GuiConnector.setFarnsWorth (fuel + 1) g value) := by
  rw [GuiConnector.setFarnsWorth, if_neg (h.farnsWorth_eq ▸ hne)]
  refine Meets.bind (h.put .farnsWorth value) ?_
  intro g₁ h₁
  have hspeeds : ¬ g₁.farnsWorth > g₁.wpm := by
    rw [h₁.farnsWorth_eq, h₁.wpm_eq]
    exact Int.not_lt.mpr hlow
  rw [if_neg hspeeds]
  exact Meets.pure h₁.resetCwDecoder

theorem Shows.setWpm_high (fuel : Nat) (h : Shows ok g b) {value : Int} (hne : b.wpm ≠ value)
    (hhigh : b.farnsWorth ≤ value) :
    Meets (Excused ok) (fun g' => Shows ok g' (b.assign .wpm value))
      (GuiConnector.setWpm (fuel + 1) g value) := by
  rw [GuiConnector.setWpm, if_neg (h.wpm_eq ▸ hne)]
  refine Meets.bind (h.put .wpm value) ?_
  intro g₁ h₁
  have hspeeds : ¬ g₁.farnsWorth > g₁.wpm := by
    rw [h₁.farnsWorth_eq, h₁.wpm_eq]
    exact Int.not_lt.mpr hhigh
  rw [if_neg hspeeds]
  exact Meets.pure h₁.resetKeyer

theorem Shows.setWpm (fuel : Nat) (h : Shows ok g b) (value : Int) :
    Meets (Excused ok) (fun g' => Shows ok g' (b.setWpm value))
      (GuiConnector.setWpm (fuel + 2) g value) := by
  unfold Book.setWpm
  by_cases hsame : b.wpm = value
  · rw [GuiConnector.setWpm, if_pos (h.wpm_eq.trans hsame), if_pos hsame]
    exact Meets.pure h
  rw [if_neg hsame]
  by_cases hhigh : b.farnsWorth ≤ value
  · rw [if_neg (Int.not_lt.mpr hhigh)]
    exact h.setWpm_high (fuel + 1) hsame hhigh
  rw [if_pos (Int.not_le.mp hhigh), GuiConnector.setWpm, if_neg (h.wpm_eq ▸ hsame)]
  refine Meets.bind (h.put .wpm value) ?_
  intro g₁ h₁
  have hvalue : g₁.wpm = value := h₁.wpm_eq
  have hspeeds : g₁.farnsWorth > g₁.wpm := by
    rw [h₁.farnsWorth_eq, hvalue]
    exact Int.not_le.mp hhigh
  rw [if_pos hspeeds, hvalue]
  -- now the wpm is the speed, and `setFarnsWorth` does not call back
  have hslower : (b.assign .wpm value).farnsWorth ≠ value := fun heq => hhigh (Int.le_of_eq heq)
  refine Meets.bind (h₁.setFarnsWorth_low fuel hslower (Int.le_refl value)) ?_
  intro g₂ h₂
  exact Meets.pure h₂.resetKeyer

theorem Shows.setFarnsWorth (fuel : Nat) (h : Shows ok g b) (value : Int) :
    Meets (Excused ok) (fun g' => Shows ok g' (b.setFarnsWorth value))
      (GuiConnector.setFarnsWorth (fuel + 2) g value) := by
  unfold Book.setFarnsWorth
  by_cases hsame : b.farnsWorth = value
  · rw [GuiConnector.setFarnsWorth, if_pos (h.farnsWorth_eq.trans hsame), if_pos hsame]
    exact Meets.pure h
  rw [if_neg hsame]
  by_cases hlow : value ≤ b.wpm
  · rw [if_neg (Int.not_lt.mpr hlow)]
    exact h.setFarnsWorth_low (fuel + 1) hsame hlow
  rw [if_pos (Int.not_le.mp hlow), GuiConnector.setFarnsWorth, if_neg (h.farnsWorth_eq ▸ hsame)]
  refine Meets.bind (h.put .farnsWorth value) ?_
  intro g₁ h₁
  have hvalue : g₁.farnsWorth = value := h₁.farnsWorth_eq
  have hspeeds : g₁.farnsWorth > g₁.wpm := by
    rw [h₁.wpm_eq, hvalue]
    exact Int.not_le.mp hlow
  rw [if_pos hspeeds, hvalue]
  -- now the Farnsworth speed is the wpm, and `setWpm` does not call back
  have hfaster : (b.assign .farnsWorth value).wpm ≠ value := fun heq =>
    hlow (Int.le_of_eq heq.symm)
  refine Meets.bind (h₁.setWpm_high fuel hfaster (Int.le_refl value)) ?_
  intro g₂ h₂
  exact Meets.pure h₂.resetCwDecoder

/-! ## Construction -/

theorem Shows.initConnector (h : Shows ok g b) :
    Meets (Excused ok) (fun g' => Shows ok g' b) g.initConnector := by
  unfold GuiConnector.initConnector
  refine Meets.bind h.resetKeyer.resetSound ?_
  intro g₁ h₁
  exact h₁.resetCwDecoder.resetRemotes

/-- After the construction the speeds that were sorted in the file are in
order, and with a working file system the book has been loaded from it. -/
theorem boot_shows {audioDevices commPorts : Nat} {keyer : Keyer} {file : ConfigFile}
    {env : Environment} (hok : ok → env.filesOk = true) :
    Meets (Excused ok)
      (fun g => ∃ b, Shows ok g b ∧ 0 < b.farnsWorth ∧
        (SpeedsSorted (stored file) → b.farnsWorth ≤ b.wpm) ∧
        (ok → b = Book.load commPorts ⟨{}, audioDevices, stored file⟩))
      (boot audioDevices commPorts keyer file env) := by
  unfold boot
  refine Meets.bind (loadConfiguration_spec (by exact hok) rfl rfl rfl) ?_
  intro g₁ h
  refine (shows_book h.files).initConnector.mono fun g hg => ?_
  refine ⟨_, hg, h.farnsWorth_pos, h.sorted, ?_⟩
  intro hok
  rw [book, h.settings hok, h.store hok, h.audioDevices]
  rfl

end GuiConnector

end CwKeyer
