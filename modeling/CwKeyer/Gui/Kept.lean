import CwKeyer.Gui.Book

/-!
# What a restart keeps

Every session keeps its settings in the store (`Book.Kept`), whatever is
assigned: the store says what the settings are, but for what `c_str()` drops
of a server IP. Loading keeps a setting that is stored and gives one that is
not stored its declared value, with three exceptions (`Restorable`): an
amplitude of 0 does not count as valid, a server IP with a NUL is not stored
whole, and a delay that is not stored reads as 0, which does count as valid.
-/

namespace CwKeyer

open CwKeyer.Configuration

/-- The settings as `GuiConnector` declares them. -/
def declared : Settings := {}

/-- No server IP with a NUL is stored: `putValueString` never does that. -/
def NulFree (S : Store) : Prop :=
  ∀ ip, S cfgRemoteIp = some (.string ip) → '\x00' ∉ ip.toList

namespace SavedSetting

variable {audioDevices : Nat} {s : SavedSetting} {v : Option JsonValue}

/-! ## One setting -/

/-- A setting is `a` while `v` is stored for it. -/
def Kept (audioDevices : Nat) : (s : SavedSetting) → Option JsonValue → s.Value → Prop
  | .amplitude, v, a =>
      v.isSome = true ∧ (amplitude.persisted audioDevices).read v = a ∧ (0 : Rat) ≤ a
  | .frequency, v, a => (frequency.persisted audioDevices).Remembers v a
  | .wpm, v, a => (wpm.persisted audioDevices).Remembers v a
  | .farnsWorth, v, a => (farnsWorth.persisted audioDevices).Remembers v a
  | .mode, v, a => (mode.persisted audioDevices).Remembers v a
  | .selectedAudioDevice, v, a => (selectedAudioDevice.persisted audioDevices).load v = a
  | .remotePort, v, a => (remotePort.persisted audioDevices).Remembers v a
  | .remoteMoxDelayMs, v, a => (remoteMoxDelayMs.persisted audioDevices).Remembers v a
  | .serverIp, v, a => v = some (.string (cStr a)) ∧ a.isEmpty = false

/-- The settings that come back. -/
def Restorable : (s : SavedSetting) → Option JsonValue → s.Value → Prop
  | .amplitude, _, a => a ≠ (0 : Rat)
  | .remoteMoxDelayMs, v, _ => v.isSome = true
  | .serverIp, _, a => '\x00' ∉ a.toList
  | _, _, _ => True

theorem cStr_nulFree (ip : String) : '\x00' ∉ (cStr ip).toList := by
  intro hmem
  rw [cStr, String.toList_ofList] at hmem
  exact absurd (List.mem_takeWhile_imp hmem) (by decide)

/-- A setting that is invalid when it is absent is stored. -/
theorem load_of_remembers {α : Type} {p : Persisted JsonValue α} {a dflt : α}
    (h : p.Remembers v a) (habsent : p.valid p.absent = false) :
    p.load v = if v.isSome = true then a else dflt := by
  rw [if_pos (h.isSome habsent), h.load]

theorem defaultAmplitude_pos : 0 < defaultAmplitude := by decide +kernel

theorem load_amplitude_iff {a : Rat} (h : amplitude.Kept audioDevices v a) :
    (amplitude.persisted audioDevices).load v =
      (if v.isSome = true then a else declared.amplitude) ↔ a ≠ 0 := by
  obtain ⟨hsome, hread, hlow⟩ := h
  rw [if_pos hsome, Persisted.load_eq_iff hread]
  show decide (0 < a) = true ∨ defaultAmplitude = a ↔ a ≠ 0
  constructor
  · rintro (hvalid | hdefault) rfl
    · exact absurd (of_decide_eq_true hvalid) (by decide)
    · exact absurd defaultAmplitude_pos (by rw [hdefault]; decide)
  · intro hne
    exact .inl (decide_eq_true (Rat.lt_of_le_of_ne hlow (Ne.symm hne)))

/-- A delay that is not stored is loaded as 0. -/
theorem load_remoteMoxDelayMs_iff {a : Int} (h : remoteMoxDelayMs.Kept audioDevices v a) :
    (remoteMoxDelayMs.persisted audioDevices).load v =
      (if v.isSome = true then a else declared.remoteMoxDelayMs) ↔ v.isSome = true := by
  cases v with
  | none =>
      refine iff_of_false (fun heq => ?_) nofun
      have hdelay : (0 : Int) = defaultRemoteMoxDelayMs := heq
      exact absurd hdelay (by decide)
  | some v => exact iff_of_true h.load rfl

theorem load_serverIp_iff {a : String} (h : serverIp.Kept audioDevices v a) :
    (serverIp.persisted audioDevices).load v = (if v.isSome = true then a else declared.serverIp) ↔
      '\x00' ∉ a.toList := by
  obtain ⟨rfl, hne⟩ := h
  rw [← cStr_eq_iff]
  show (if (!(cStr a).isEmpty) = true then cStr a else defaultRemoteIp) = a ↔ cStr a = a
  split
  case isTrue => exact Iff.rfl
  case isFalse hempty =>
    have hempty : (cStr a).isEmpty = true := by simpa using hempty
    constructor
    · rintro rfl
      exact cStr_defaultRemoteIp
    · intro hwhole
      rw [hwhole, hne] at hempty
      cases hempty

theorem load_iff_restorable {a : s.Value} (h : s.Kept audioDevices v a) :
    (s.persisted audioDevices).load v = (if v.isSome = true then a else s.get declared) ↔
      s.Restorable v a := by
  cases s with
  | amplitude => exact load_amplitude_iff h
  | frequency => exact iff_of_true (load_of_remembers h rfl) trivial
  | wpm => exact iff_of_true (load_of_remembers h rfl) trivial
  | farnsWorth => exact iff_of_true (load_of_remembers h rfl) trivial
  | mode => exact iff_of_true (load_of_remembers h rfl) trivial
  | selectedAudioDevice =>
      refine iff_of_true ?_ trivial
      cases v with
      | none =>
          refine load_selectedAudioDevice.trans ?_
          split <;> rfl
      | some v => exact h
  | remotePort => exact iff_of_true (load_of_remembers h rfl) trivial
  | remoteMoxDelayMs => exact load_remoteMoxDelayMs_iff h
  | serverIp => exact load_serverIp_iff h

/-- Loading a setting that is not stored gives its declared value, but for
the delay. -/
theorem load_none_iff : (s.persisted audioDevices).load none = s.get declared ↔
    s ≠ .remoteMoxDelayMs := by
  cases s with
  | selectedAudioDevice =>
      refine iff_of_true (load_selectedAudioDevice.trans ?_) nofun
      split <;> rfl
  | remoteMoxDelayMs =>
      refine iff_of_false (fun heq => ?_) fun h => h rfl
      have hdelay : (0 : Int) = defaultRemoteMoxDelayMs := heq
      exact absurd hdelay (by decide)
  | _ => exact iff_of_true rfl nofun

/-- Only a text that is stored is a valid server IP. -/
theorem kept_refill_serverIp (hnul : ∀ ip, v = some (.string ip) → '\x00' ∉ ip.toList) :
    serverIp.Kept audioDevices ((serverIp.persisted audioDevices).refill v)
      ((serverIp.persisted audioDevices).load v) := by
  have hdefault : serverIp.Kept audioDevices (some (.string (cStr defaultRemoteIp)))
      defaultRemoteIp := ⟨rfl, by decide⟩
  cases v with
  | none => exact hdefault
  | some v =>
      cases v with
      | string ip =>
          have hwhole : cStr ip = ip := cStr_eq_iff.mpr (hnul ip rfl)
          by_cases hvalid : (serverIp.persisted audioDevices).valid ip = true
          · rw [Persisted.refill_of_valid (by exact hvalid), Persisted.load_of_valid (by exact hvalid)]
            have hnonempty : ip.isEmpty = false := Bool.not_eq_true' _ ▸ hvalid
            exact ⟨congrArg _ (congrArg _ hwhole.symm), hnonempty⟩
          · rw [Persisted.refill_of_invalid (by exact hvalid),
              Persisted.load_of_invalid (by exact hvalid)]
            exact hdefault
      | _ => exact hdefault

/-- What is kept when a setting has been loaded. -/
theorem kept_refill {S : Store} (hnul : NulFree S) (hs : s ∈ refilled) :
    s.Kept audioDevices ((s.persisted audioDevices).refill (S s.key))
      ((s.persisted audioDevices).load (S s.key)) := by
  cases s with
  | amplitude =>
      have h : (amplitude.persisted audioDevices).Remembers _ _ :=
        Persisted.remembers_refill (decide_eq_true defaultAmplitude_pos) (S cfgAmplitude)
      exact ⟨h.isSome rfl, h.read, Rat.le_of_lt (of_decide_eq_true h.valid)⟩
  | selectedAudioDevice => exact absurd hs (by decide)
  | serverIp => exact kept_refill_serverIp hnul
  | _ => exact Persisted.remembers_refill rfl _

theorem remembers_number {valid : Int → Bool} {default value : Int}
    {hdefault : JsonValue.toInt (.number default) = default} (hlow : -2 ^ 31 ≤ value)
    (hhigh : value < 2 ^ 31) (hvalid : valid value = true) :
    (int valid default hdefault).Remembers (some (.number value)) value :=
  ⟨JsonValue.toInt_number hlow hhigh, hvalid⟩

end SavedSetting

/-! ## All of them -/

namespace Book

variable {b b' : Book} {s : SavedSetting}

/-- What holds of every session. -/
def Kept (b : Book) : Prop :=
  ∀ s : SavedSetting, s.Kept b.audioDevices (b.store s.key) (s.get b.toSettings)

theorem Kept.nulFree (h : b.Kept) : NulFree b.store := by
  intro ip hip
  obtain ⟨hstored, -⟩ := h .serverIp
  obtain rfl : ip = cStr b.serverIp := by
    have hsame := hip.symm.trans hstored
    exact JsonValue.string.inj (Option.some.inj hsame)
  exact SavedSetting.cStr_nulFree b.serverIp

theorem Kept.assign (h : b.Kept) {value : s.Value}
    (hvalue : s.Kept b.audioDevices (some ((s.persisted b.audioDevices).encode value)) value) :
    (b.assign s value).Kept := by
  intro s'
  by_cases hs : s' = s
  · subst hs
    rw [assign_store_self, get_assign_self]
    exact hvalue
  · rw [assign_store_ne (SavedSetting.key_ne hs), get_assign_ne hs]
    exact h s'

/-- What a session goes through: its settings stay kept, and a delay that is
stored stays stored. -/
structure Onward (b b' : Book) : Prop where
  kept : b.Kept → b'.Kept
  delay : (b.store cfgRemoteMoxDelayMs).isSome = true →
    (b'.store cfgRemoteMoxDelayMs).isSome = true

theorem Onward.refl (b : Book) : Onward b b := ⟨id, id⟩

theorem Onward.trans {b'' : Book} (h : Onward b b') (h' : Onward b' b'') : Onward b b'' :=
  ⟨fun hkept => h'.kept (h.kept hkept), fun hdelay => h'.delay (h.delay hdelay)⟩

theorem onward_assign {value : s.Value}
    (hvalue : s.Kept b.audioDevices (some ((s.persisted b.audioDevices).encode value)) value) :
    Onward b (b.assign s value) := by
  refine ⟨fun h => h.assign hvalue, ?_⟩
  intro hdelay
  by_cases hs : cfgRemoteMoxDelayMs = s.key
  · rw [hs, assign_store_self]
    rfl
  · rw [assign_store_ne hs]
    exact hdelay

theorem Takes.onward {accepts : Prop} {value : s.Value}
    (hvalue : accepts →
      s.Kept b.audioDevices (some ((s.persisted b.audioDevices).encode value)) value)
    (htakes : b.Takes accepts s value b') : Onward b b' := by
  rcases htakes with rfl | ⟨haccepts, rfl⟩
  · exact .refl _
  · exact onward_assign (hvalue haccepts)

/-- A speed that can be stored. -/
theorem onward_setWpm {value : Int} (hpos : 0 < value) (hhigh : value < 2 ^ 31) :
    Onward b (b.setWpm value) := by
  have hwpm (b : Book) : Onward b (b.assign .wpm value) :=
    onward_assign (SavedSetting.remembers_number (by omega) hhigh (decide_eq_true hpos))
  unfold setWpm
  split
  · exact .refl b
  split
  · refine (hwpm b).trans (onward_assign ?_)
    exact SavedSetting.remembers_number (by omega) hhigh (decide_eq_true hpos)
  · exact hwpm b

theorem onward_setFarnsWorth {value : Int} (hpos : 0 < value) (hhigh : value < 2 ^ 31) :
    Onward b (b.setFarnsWorth value) := by
  have hspeed (b : Book) : Onward b (b.assign .farnsWorth value) :=
    onward_assign (SavedSetting.remembers_number (by omega) hhigh (decide_eq_true hpos))
  unfold setFarnsWorth
  split
  · exact .refl b
  split
  · refine (hspeed b).trans (onward_assign ?_)
    exact SavedSetting.remembers_number (by omega) hhigh (decide_eq_true hpos)
  · exact hspeed b

/-- A session starts with what it has loaded. -/
theorem kept_load {commPorts : Nat} (hnul : NulFree b.store) : (b.load commPorts).Kept := by
  intro s
  rw [show (b.load commPorts).toSettings = .ofStore b.audioDevices commPorts b.store from rfl,
    Store.get_ofStore]
  by_cases hs : s ∈ SavedSetting.refilled
  · rw [show (b.load commPorts).store s.key = _ from Store.loaded_refilled hs]
    exact SavedSetting.kept_refill hnul hs
  · obtain rfl : s = .selectedAudioDevice := by
      revert hs
      cases s <;> decide
    exact congrArg _ (@Store.loaded_selectedAudioDevice b.store b.audioDevices)

theorem onward_load (h : b.Kept) (commPorts : Nat) : Onward b (b.load commPorts) := by
  refine ⟨fun _ => kept_load h.nulFree, ?_⟩
  intro hdelay
  have hrefilled : SavedSetting.remoteMoxDelayMs ∈ SavedSetting.refilled := by decide
  exact (congrArg Option.isSome (Store.loaded_refilled hrefilled)).trans
    ((Persisted.refill_of_absent rfl _).trans hdelay)

/-- A setting that is stored comes back, one that is not stored has its
declared value. -/
def Survives (b b' : Book) : Prop :=
  ∀ s : SavedSetting, s.get b'.toSettings =
    if (b.store s.key).isSome = true then s.get b.toSettings else s.get declared

theorem Kept.survives_load_iff (h : b.Kept) {commPorts : Nat} : b.Survives (b.load commPorts) ↔
    b.amplitude ≠ 0 ∧ (b.store cfgRemoteMoxDelayMs).isSome = true ∧ '\x00' ∉ b.serverIp.toList := by
  have heach (s : SavedSetting) : s.get (b.load commPorts).toSettings =
      (if (b.store s.key).isSome = true then s.get b.toSettings else s.get declared) ↔
        s.Restorable (b.store s.key) (s.get b.toSettings) := by
    rw [show (b.load commPorts).toSettings = .ofStore b.audioDevices commPorts b.store from rfl,
      Store.get_ofStore]
    exact SavedSetting.load_iff_restorable (h s)
  constructor
  · intro hsurvives
    exact ⟨(heach .amplitude).mp (hsurvives .amplitude),
      (heach .remoteMoxDelayMs).mp (hsurvives .remoteMoxDelayMs),
      (heach .serverIp).mp (hsurvives .serverIp)⟩
  · rintro ⟨hamplitude, hdelay, hip⟩ s
    refine (heach s).mpr ?_
    cases s with
    | amplitude => exact hamplitude
    | remoteMoxDelayMs => exact hdelay
    | serverIp => exact hip
    | _ => trivial

end Book

end CwKeyer
