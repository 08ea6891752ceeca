import CwKeyer.Gui.Book
import CwKeyer.Gui.Steps

/-!
# `loadConfiguration`

With a working file system `loadConfiguration` is `Book.load`: the settings
are those of the store, and the store is refilled (`Configured`). When
something fails the settings are still valid, each read from what is left: a
write of a default that goes wrong keeps the other keys or loses all of them
(`put_keeps_or_loses`), which does not put the speeds out of order.
-/

namespace CwKeyer

namespace GuiConnector

open CwKeyer.Configuration

variable {ok : Prop} {g₀ g g' : GuiConnector} {key : String} {done : List SavedSetting}

/-! ## One setting -/

theorem readValue_persisted {α : Type} (p : Persisted JsonValue α) {file : ConfigFile}
    {io : FileOutcome} {value : α}
    (h : readValue (.ok p.absent) p.decode key file io = .ok value) :
    value = p.read (stored file key) := by
  cases file with
  | none => exact (Except.ok.inj h).symm
  | some root =>
      by_cases hopen : io.openRead = true
      · rw [readValue_eq hopen] at h
        cases hvalue : stored (some root) key with
        | none =>
            rw [hvalue] at h
            exact (Except.ok.inj h).symm
        | some v =>
            rw [hvalue] at h
            exact (Except.ok.inj h).symm
      · rw [readValue, if_neg hopen] at h
        cases h

theorem get_persisted {α : Type} {p : Persisted JsonValue α} {r : α × GuiConnector}
    (h : g.get (readValue (.ok p.absent) p.decode key) = .ok r) :
    r.1 = p.read (stored g.file key) := by
  unfold get nextFile at h
  dsimp only at h
  split at h
  case h_1 value hread =>
    obtain rfl := Except.ok.inj h
    exact readValue_persisted p hread
  case h_2 => cases h

theorem put_keeps_or_loses {v : JsonValue} (h : g.put (putValue key v) = .ok g') :
    KeepsOrLoses key (stored g.file) (stored g'.file) := by
  unfold put nextFile at h
  dsimp only at h
  split at h
  case h_2 => cases h
  case h_1 file hput =>
    obtain rfl := Except.ok.inj h
    unfold putValue writeFullJson at hput
    split at hput
    case isFalse => cases hput
    case isTrue =>
      obtain rfl := Except.ok.inj hput
      by_cases hwrite : (g.env.files.headD {}).write = true
      · rw [if_pos hwrite]
        cases hfile : g.file with
        | none =>
            refine .inl fun other hne => ?_
            exact JsonObject.value_insert_ne hne
        | some root =>
            by_cases hread : (g.env.files.headD {}).openRead = true
            · refine .inl fun other hne => ?_
              show (JsonObject.insert (if _ then root else []) key v).value other = root.value other
              rw [if_pos hread, JsonObject.value_insert_ne hne]
            · refine .inr fun other hne => ?_
              show (JsonObject.insert (if _ then root else []) key v).value other = none
              rw [if_neg hread, JsonObject.value_insert_ne hne]
              rfl
      · rw [if_neg hwrite]
        exact .inr fun other _ => rfl

/-- `g'` is `g` after calls of `Configuration`. -/
structure Filing (g g' : GuiConnector) : Prop where
  settings : g'.toSettings = g.toSettings
  audioDevices : g'.audioDevices = g.audioDevices
  commPorts : g'.commPorts = g.commPorts

/-- A setting that is kept as `p` under `key` has been loaded. -/
structure Loads {α : Type} (ok : Prop) (key : String) (p : Persisted JsonValue α)
    (g : GuiConnector) (value : α) (g' : GuiConnector) : Prop where
  filing : Filing g g'
  files : ok → g'.env.filesOk = true
  loaded : value = p.load (stored g.file key)
  store : ok → stored g'.file = applyChange (stored g.file) (key, p.refill)
  rest : stored g'.file = stored g.file ∨
    value = p.default ∧ KeepsOrLoses key (stored g.file) (stored g'.file)

theorem Loads.valid {α : Type} {p : Persisted JsonValue α} {value : α}
    (h : Loads ok key p g value g') (hdefault : p.valid p.default = true) :
    p.valid value = true := by
  rw [h.loaded]
  exact Persisted.valid_load hdefault _

theorem loadNumber_spec {α : Type} (p : Persisted JsonValue α)
    {write : α → ConfigFile → FileOutcome → Except String ConfigFile}
    (hok : ok → g.env.filesOk = true)
    (hwrite : write p.default = putValue key (p.encode p.default)) :
    Meets (Excused ok) (fun r => Loads ok key p g r.1 r.2)
      (g.loadNumber (readValue (.ok p.absent) p.decode key) p.valid p.default write) := by
  unfold loadNumber
  refine Meets.bind ((get_spec hok fun _ => readValue_default).strengthen fun r => get_persisted) ?_
  rintro ⟨value, g₁⟩ ⟨⟨⟨files, rfl⟩, hfiles, -⟩, hread⟩
  obtain rfl : value = p.read (stored g.file key) := hread
  refine Meets.ite (fun hvalid => ?_) fun hinvalid => ?_
  · have hload := (p.load_of_valid hvalid).symm
    have hrefill := p.refill_of_valid hvalid
    refine Meets.pure ⟨⟨rfl, rfl, rfl⟩, hfiles, hload, fun _ => ?_, .inl rfl⟩
    exact (Function.update_eq_self_iff.mpr hrefill).symm
  · rw [hwrite]
    refine Meets.bind ((put_spec hfiles).strengthen fun _ => put_keeps_or_loses) ?_
    rintro g₂ ⟨⟨⟨⟨file, files', rfl⟩, hfiles', hothers⟩, hself⟩, hrest⟩
    have hload := (p.load_of_invalid hinvalid).symm
    refine Meets.pure ⟨⟨rfl, rfl, rfl⟩, hfiles', hload, fun h => ?_, .inr ⟨rfl, hrest⟩⟩
    funext other
    by_cases hne : other = key
    · subst hne
      exact (hself h).trans (applyChange_self.trans (p.refill_of_invalid hinvalid)).symm
    · exact (hothers h other hne).trans (applyChange_of_ne hne).symm

/-! ## One after the other -/

/-- `g` is on the way from `g₀`, and the settings in `done` have been loaded. -/
structure Loading (ok : Prop) (g₀ : GuiConnector) (done : List SavedSetting) (g : GuiConnector) :
    Prop where
  audioDevices : g.audioDevices = g₀.audioDevices
  commPorts : g.commPorts = g₀.commPorts
  files : ok → g.env.filesOk = true
  store : ok → stored g.file =
    applyChanges (stored g₀.file) (done.map (SavedSetting.refill g₀.audioDevices))

theorem Loading.assigned (h : Loading ok g₀ done g) (settings : Settings) :
    Loading ok g₀ done { g with toSettings := settings } :=
  ⟨h.audioDevices, h.commPorts, h.files, h.store⟩

/-- What has not been loaded is still what it was. -/
theorem Loading.untouched (h : Loading ok g₀ done g) (hok : ok)
    (hnew : key ∉ done.map SavedSetting.key) : stored g.file key = stored g₀.file key := by
  rw [h.store hok]
  exact applyChanges_of_not_target (by simpa [SavedSetting.refill, Function.comp_def] using hnew)

theorem loadSetting_spec (s : SavedSetting)
    {write : s.Value → ConfigFile → FileOutcome → Except String ConfigFile}
    (h : Loading ok g₀ done g) (hnew : s.key ∉ done.map SavedSetting.key)
    (hwrite : write (s.persisted g₀.audioDevices).default =
      putValue s.key ((s.persisted g₀.audioDevices).encode (s.persisted g₀.audioDevices).default)) :
    Meets (Excused ok)
      (fun r => Loads ok s.key (s.persisted g₀.audioDevices) g r.1 r.2 ∧
        Loading ok g₀ (done ++ [s]) r.2 ∧
        (ok → r.1 = (s.persisted g₀.audioDevices).load (stored g₀.file s.key)))
      (g.loadNumber
        (readValue (.ok (s.persisted g₀.audioDevices).absent) (s.persisted g₀.audioDevices).decode
          s.key)
        (s.persisted g₀.audioDevices).valid (s.persisted g₀.audioDevices).default write) := by
  refine (loadNumber_spec _ h.files hwrite).mono ?_
  rintro ⟨value, g₁⟩ hloads
  have haudio := hloads.filing.audioDevices.trans h.audioDevices
  have hcomm := hloads.filing.commPorts.trans h.commPorts
  refine ⟨hloads, ⟨haudio, hcomm, hloads.files, fun hok => ?_⟩, ?_⟩
  · rw [hloads.store hok, h.store hok, List.map_append, List.map_singleton, applyChanges_snoc]
    rfl
  · intro hok
    rw [← h.untouched hok hnew]
    exact hloads.loaded

/-- Devices and ports are read and not written. -/
theorem getInt_spec (h : Loading ok g₀ done g) (hnew : key ∉ done.map SavedSetting.key) :
    Meets (Excused ok)
      (fun r => r.2.toSettings = g.toSettings ∧ Loading ok g₀ done r.2 ∧
        (ok → r.1 = (stored g₀.file key).elim 0 JsonValue.toInt))
      (g.get (getValueInt key)) := by
  have hread {r : Int × GuiConnector} (hget : g.get (getValueInt key) = .ok r) :
      r.1 = (stored g.file key).elim 0 JsonValue.toInt :=
    @get_persisted g key Int (SavedSetting.int (fun _ => true) 0 rfl) r hget
  refine ((get_spec h.files fun _ => readValue_default).strengthen fun r => hread).mono ?_
  rintro ⟨value, g₁⟩ ⟨⟨⟨files, rfl⟩, hfiles, -⟩, hvalue⟩
  refine ⟨rfl, ⟨h.audioDevices, h.commPorts, hfiles, h.store⟩, ?_⟩
  intro hok
  rw [← h.untouched hok hnew]
  exact hvalue

variable {audioDevices : Nat}

/-- `g'` is `g` with the server IP loaded. -/
structure IpLoaded (ok : Prop) (audioDevices : Nat) (g g' : GuiConnector) : Prop where
  frame : ∃ ip file files,
    g' = { g with serverIp := ip, file := file, env := { g.env with files := files } }
  files : ok → g'.env.filesOk = true
  loaded : ok → g'.serverIp =
    (SavedSetting.serverIp.persisted audioDevices).load (stored g.file cfgRemoteIp)
  store : ok → stored g'.file =
    applyChange (stored g.file) (SavedSetting.serverIp.refill audioDevices)

theorem IpLoaded.of_files {files : List FileOutcome}
    (h : IpLoaded ok audioDevices { g with env := { g.env with files := files } } g') :
    IpLoaded ok audioDevices g g' := by
  obtain ⟨ip, file, files', rfl⟩ := h.frame
  exact ⟨⟨ip, file, files', rfl⟩, h.files, h.loaded, h.store⟩

theorem valid_serverIp_iff {v : Option JsonValue} :
    (SavedSetting.serverIp.persisted audioDevices).valid
        ((SavedSetting.serverIp.persisted audioDevices).read v) = true ↔
      (v.elim "" JsonValue.toString).isEmpty = false := by
  show (!(v.elim "" JsonValue.toString).isEmpty) = true ↔ _
  rw [Bool.not_eq_true']

theorem putDefaultIp_spec (hok : ok → g.env.filesOk = true)
    (hinvalid : ok → ((stored g.file cfgRemoteIp).elim "" JsonValue.toString).isEmpty = true) :
    Meets (Excused ok) (IpLoaded ok audioDevices g) g.putDefaultIp := by
  refine Meets.mono (put_spec (by exact hok)) ?_
  rintro g₂ ⟨⟨⟨file, files, rfl⟩, hfiles, hothers⟩, hself⟩
  have hread (h : ok) : ¬ (SavedSetting.serverIp.persisted audioDevices).valid
      ((SavedSetting.serverIp.persisted audioDevices).read (stored g.file cfgRemoteIp)) = true := by
    rw [valid_serverIp_iff, hinvalid h]
    decide
  have hload (h : ok) := (Persisted.load_of_invalid (hread h)).symm
  refine ⟨⟨defaultRemoteIp, file, files, rfl⟩, hfiles, hload, ?_⟩
  intro h
  funext other
  by_cases hne : other = cfgRemoteIp
  · subst hne
    exact (hself h).trans (applyChange_self.trans (Persisted.refill_of_invalid (hread h))).symm
  · exact (hothers h other hne).trans (applyChange_of_ne hne).symm

/-- `hasValue` answers whether `getValueString` finds a value. -/
theorem hasValue_eq {file : ConfigFile} {has : Bool} (h : hasValue key file {} = .ok has) :
    has = (stored file key).isSome := by
  rw [hasValue, readValue_eq rfl] at h
  cases hvalue : stored file key with
  | none =>
      rw [hvalue] at h
      exact (Except.ok.inj h).symm
  | some v =>
      rw [hvalue] at h
      exact (Except.ok.inj h).symm

theorem getValueString_eq {file : ConfigFile} (h : (stored file key).isSome = true) :
    getValueString key file {} = .ok ((stored file key).elim "" JsonValue.toString) := by
  rw [getValueString, readValue_eq rfl]
  obtain ⟨v, hv⟩ := Option.isSome_iff_exists.mp h
  rw [hv]
  rfl

theorem loadServerIp_spec (audioDevices : Nat) (hok : ok → g.env.filesOk = true) :
    Meets (Excused ok) (IpLoaded ok audioDevices g) g.loadServerIp := by
  unfold loadServerIp
  refine Meets.bind (get_spec hok fun _ => readValue_default) ?_
  rintro ⟨has, g₁⟩ ⟨⟨files, rfl⟩, hfiles, hhas⟩
  refine Meets.ite (fun hpresent => ?_) fun habsent => ?_
  · obtain rfl : has = true := hpresent
    have hread (h : ok) := getValueString_eq (hasValue_eq (hhas h)).symm
    refine Meets.bind (get_spec hfiles fun h => ⟨_, hread h⟩) ?_
    rintro ⟨configuredIp, g₂⟩ ⟨⟨files', rfl⟩, hfiles', hip⟩
    have hip' (h : ok) : configuredIp = (stored g.file cfgRemoteIp).elim "" JsonValue.toString :=
      Except.ok.inj ((hip h).symm.trans (hread h))
    refine Meets.ite (fun hempty => ?_) fun hempty => ?_
    · refine (putDefaultIp_spec hfiles' fun h => ?_).mono fun _ h => h.of_files.of_files
      rw [← hip' h]
      exact hempty
    · have hvalid (h : ok) : (SavedSetting.serverIp.persisted audioDevices).valid
          ((SavedSetting.serverIp.persisted audioDevices).read (stored g.file cfgRemoteIp)) =
            true := by
        rw [valid_serverIp_iff, ← hip' h]
        simpa using hempty
      refine Meets.pure ⟨⟨configuredIp, g.file, files', rfl⟩, hfiles', fun h => ?_, fun h => ?_⟩
      · exact (hip' h).trans (Persisted.load_of_valid (hvalid h)).symm
      · have hrefill := Persisted.refill_of_valid (hvalid h)
        exact (Function.update_eq_self_iff.mpr hrefill).symm
  · refine (putDefaultIp_spec hfiles fun h => ?_).mono fun _ h => h.of_files
    have hnone : stored g.file cfgRemoteIp = none := by
      have hsome : has = (stored g.file cfgRemoteIp).isSome := hasValue_eq (hhas h)
      rw [hsome] at habsent
      simpa using habsent
    show ((stored g.file cfgRemoteIp).elim "" JsonValue.toString).isEmpty = true
    rw [hnone]
    rfl

/-! ## All of them -/

/-- `g'` is `g` with its configuration loaded. -/
structure Configured (ok : Prop) (g g' : GuiConnector) : Prop where
  audioDevices : g'.audioDevices = g.audioDevices
  files : ok → g'.env.filesOk = true
  modeValid : ModeValid g'.mode
  farnsWorth_pos : 0 < g'.farnsWorth
  sorted : SpeedsSorted (stored g.file) → g'.farnsWorth ≤ g'.wpm
  settings : ok → g'.toSettings = .ofStore g.audioDevices g.commPorts (stored g.file)
  store : ok → stored g'.file = Store.loaded g.audioDevices (stored g.file)

/-- An assignment under a condition is an assignment. -/
theorem ite_assign {c : Prop} [Decidable c] (assign : Int → GuiConnector) {old new : Int}
    (h : assign old = g) : (if c then assign new else g) = assign (if c then new else old) := by
  split
  · rfl
  · exact h.symm

theorem loadConfiguration_spec (hok : ok → g.env.filesOk = true)
    (hdevice : g.selectedAudioDevice = 0) (hout : g.selectedCommPort = -1)
    (hin : g.selectedCommPortIn = -1) :
    Meets (Excused ok) (Configured ok g) g.loadConfiguration := by
  unfold loadConfiguration
  have h₀ : Loading ok g [] g := ⟨rfl, rfl, hok, fun _ => rfl⟩
  refine Meets.bind (loadSetting_spec .amplitude h₀ (by decide) rfl) ?_
  rintro ⟨amplitude, g₁⟩ ⟨(hloads₁ : Loads ok _ _ _ amplitude g₁), h₁, hamplitude⟩
  refine Meets.bind (loadSetting_spec .frequency (h₁.assigned _) (by decide) rfl) ?_
  rintro ⟨frequency, g₂⟩ ⟨(hloads₂ : Loads ok _ _ _ frequency g₂), h₂, hfrequency⟩
  refine Meets.bind (loadSetting_spec .wpm (h₂.assigned _) (by decide) rfl) ?_
  rintro ⟨wpm, g₃⟩ ⟨(hloads₃ : Loads ok _ _ _ wpm g₃), h₃, hwpm⟩
  refine Meets.bind (loadSetting_spec .farnsWorth (h₃.assigned _) (by decide) rfl) ?_
  rintro ⟨farnsWorth, g₄⟩ ⟨(hloads₄ : Loads ok _ _ _ farnsWorth g₄), h₄, hfarnsWorth⟩
  refine Meets.bind (loadSetting_spec .mode (h₄.assigned _) (by decide) rfl) ?_
  rintro ⟨mode, g₅⟩ ⟨(hloads₅ : Loads ok _ _ _ mode g₅), h₅, hmode⟩
  refine Meets.bind (getInt_spec (h₅.assigned _) (by decide)) ?_
  rintro ⟨selDev, g₆⟩ ⟨(hsame₆ : g₆.toSettings = _), h₆, hselDev⟩
  dsimp only
  rw [ite_assign (fun n => { g₆ with selectedAudioDevice := n }) rfl]
  refine Meets.bind (getInt_spec (h₆.assigned _) (by decide)) ?_
  rintro ⟨selCom, g₇⟩ ⟨(hsame₇ : g₇.toSettings = _), h₇, hselCom⟩
  dsimp only
  rw [ite_assign (fun n => { g₇ with selectedCommPort := n }) rfl]
  refine Meets.bind (getInt_spec (h₇.assigned _) (by decide)) ?_
  rintro ⟨selCommIn, g₈⟩ ⟨(hsame₈ : g₈.toSettings = _), h₈, hselCommIn⟩
  dsimp only
  rw [ite_assign (fun n => { g₈ with selectedCommPortIn := n }) rfl]
  refine Meets.bind (loadSetting_spec .remotePort (h₈.assigned _) (by decide) rfl) ?_
  rintro ⟨remotePort, g₉⟩ ⟨(hloads₉ : Loads ok _ _ _ remotePort g₉), h₉, hremotePort⟩
  refine Meets.bind (loadSetting_spec .remoteMoxDelayMs (h₉.assigned _) (by decide) rfl) ?_
  rintro ⟨delay, g₁₀⟩ ⟨(hloads₁₀ : Loads ok _ _ _ delay g₁₀), h₁₀, hdelay⟩
  refine (loadServerIp_spec g.audioDevices (by exact h₁₀.files)).mono ?_
  rintro g' ⟨⟨ip, file, files, rfl⟩, hfiles, hip, hstore⟩
  -- what was assigned is still there
  have hsettings : g₁₀.toSettings = { g.toSettings with
      amplitude := amplitude, frequency := frequency, wpm := wpm, farnsWorth := farnsWorth
      mode := mode, remotePort := remotePort
      selectedAudioDevice := if 0 ≤ selDev ∧ selDev < g.audioDevices then selDev else 0
      selectedCommPort := if 0 ≤ selCom ∧ selCom < g.commPorts then selCom else -1
      selectedCommPortIn :=
        if 0 ≤ selCommIn ∧ selCommIn < g.commPorts then selCommIn else -1 } := by
    have hdevices : g₆.audioDevices = g.audioDevices := h₆.audioDevices
    have hports₇ : g₇.commPorts = g.commPorts := h₇.commPorts
    have hports₈ : g₈.commPorts = g.commPorts := h₈.commPorts
    simp [hloads₁₀.filing.settings, hloads₉.filing.settings, hsame₈, hsame₇, hsame₆,
      hloads₅.filing.settings, hloads₄.filing.settings, hloads₃.filing.settings,
      hloads₂.filing.settings, hloads₁.filing.settings, hdevice, hout, hin, hdevices, hports₇,
      hports₈]
  refine ⟨h₁₀.audioDevices, hfiles, ?_, ?_, ?_, ?_, ?_⟩
  · show ModeValid g₁₀.toSettings.mode
    rw [hsettings]
    have hvalid : (decide (mode = 1) || decide (mode = 2) || decide (mode = 3)) = true :=
      hloads₅.valid rfl
    simpa [ModeValid, or_assoc] using hvalid
  · show 0 < g₁₀.toSettings.farnsWorth
    rw [hsettings]
    have hvalid : decide (0 < farnsWorth) = true := hloads₄.valid rfl
    exact of_decide_eq_true hvalid
  · intro h
    show g₁₀.toSettings.farnsWorth ≤ g₁₀.toSettings.wpm
    rw [hsettings]
    have h₁ : SpeedsSorted (stored g₁.file) := h.of_rest (by decide) hloads₁.rest
    have h₂ : SpeedsSorted (stored g₂.file) := h₁.of_rest (by decide) hloads₂.rest
    exact h₂.loaded hloads₃.loaded hloads₃.rest hloads₄.loaded
  · intro h
    have hselDev' : (SavedSetting.selectedAudioDevice.persisted g.audioDevices).load
        (stored g.file cfgSelectedAudioDevice) =
          if 0 ≤ selDev ∧ selDev < g.audioDevices then selDev else 0 := by
      rw [SavedSetting.load_selectedAudioDevice, ← hselDev h]
    have hip' : ip = (SavedSetting.serverIp.persisted g.audioDevices).load
        (stored g.file cfgRemoteIp) := by
      rw [← h₁₀.untouched h (show cfgRemoteIp ∉ _ by decide)]
      exact hip h
    show { g₁₀.toSettings with remoteMoxDelayMs := delay, serverIp := ip } = _
    rw [hsettings, ← hselDev', hip']
    dsimp only at *
    rw [hamplitude h, hfrequency h, hwpm h, hfarnsWorth h, hmode h, hselCom h, hselCommIn h,
      hremotePort h, hdelay h]
    rfl
  · intro h
    refine (hstore h).trans ?_
    show applyChange (stored g₁₀.file) _ = _
    rw [h₁₀.store h]
    rfl

/-- What the store says afterwards is what has been loaded. -/
theorem Configured.read_eq (h : Configured ok g g') (hok : ok) {s : SavedSetting}
    (hs : s ∈ SavedSetting.refilled) :
    (s.persisted g.audioDevices).read (stored g'.file s.key) = s.get g'.toSettings := by
  rw [h.store hok, h.settings hok, Store.loaded_refilled hs, Persisted.read_refill,
    Store.get_ofStore]

theorem readValue_eq_read {α : Type} (p : Persisted JsonValue α) {file : ConfigFile} :
    readValue (.ok p.absent) p.decode key file {} = .ok (p.read (stored file key)) := by
  rw [readValue_eq rfl]
  cases stored file key <;> rfl

theorem Configured.readsBack (h : Configured ok g g') (hok : ok) : g'.ReadsBack := by
  -- the settings that are read by `getValueInt`
  have hread (s : SavedSetting) (hs : s ∈ SavedSetting.refilled) :
      readValue (.ok (s.persisted g.audioDevices).absent) (s.persisted g.audioDevices).decode s.key
        g'.file {} = .ok (s.get g'.toSettings) := by
    rw [readValue_eq_read, h.read_eq hok hs]
  intro s
  cases s with
  | wpm => exact hread .wpm (by decide)
  | farnsWorth => exact hread .farnsWorth (by decide)
  | mode => exact hread .mode (by decide)
  | remotePort => exact hread .remotePort (by decide)
  | remoteMoxDelayMs => exact hread .remoteMoxDelayMs (by decide)
  | serverIp =>
      have hrefilled : SavedSetting.serverIp ∈ SavedSetting.refilled := by decide
      have hip := h.read_eq hok hrefilled
      have hsome : (stored g'.file cfgRemoteIp).isSome = true := by
        rw [h.store hok]
        exact (congrArg _ (Store.loaded_refilled hrefilled)).trans (Persisted.refill_isSome rfl _)
      exact (getValueString_eq hsome).trans (congrArg _ hip)

end GuiConnector

end CwKeyer
