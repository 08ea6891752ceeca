import CwKeyer.Gui.CurrentSettings
import CwKeyer.Gui.Simulation

/-!
# Serial ports

The two serial ports of `gui/GuiConnector.cpp` are indices into the list of
ports that was made at the start. `loadConfiguration`, `setSelectedCommPort`
and `setSelectedCommPortIn` check an index before they store it, so it is
either the initial -1 or in range (`PortsValid`). `setEnabledCommOut` and
`setEnabledCommIn` use it without a check. So an access is out of range
exactly when a port is enabled before one has been loaded or selected
(`accesses_in_range_iff`).
-/

namespace CwKeyer

/-! ## The two settings -/

inductive CommSetting where
  | commOut
  | commIn
deriving Repr, DecidableEq

namespace CommSetting

def key : CommSetting → String
  | .commOut => cfgCommOut
  | .commIn => cfgCommIn

def get : CommSetting → Settings → Int
  | .commOut, g => g.selectedCommPort
  | .commIn, g => g.selectedCommPortIn

def set (which : CommSetting) (index : Int) (g : Settings) : Settings :=
  match which with
  | .commOut => { g with selectedCommPort := index }
  | .commIn => { g with selectedCommPortIn := index }

variable {which which' : CommSetting} {g : Settings} {index : Int}

@[simp] theorem get_set_self : which.get (which.set index g) = index := by
  cases which <;> rfl

@[simp] theorem set_get_self : which.set (which.get g) g = g := by
  cases which <;> rfl

theorem get_set_ne (h : which' ≠ which) : which'.get (which.set index g) = which'.get g := by
  cases which <;> cases which' <;> first | rfl | exact absurd rfl h

end CommSetting

/-- `m_commPorts[index]` is an element of the list. -/
def InRange (n : Nat) (index : Int) : Prop := 0 ≤ index ∧ index < n

instance (n : Nat) (index : Int) : Decidable (InRange n index) := inferInstanceAs (Decidable (_ ∧ _))

/-- `m_commPorts[index]`; out of range the behaviour is undefined. -/
def portAt (ports : List String) (index : Int) : Option String :=
  if index < 0 then none else ports[index.toNat]?

theorem portAt_isSome_iff {ports : List String} {index : Int} :
    (portAt ports index).isSome = true ↔ InRange ports.length index := by
  unfold portAt InRange
  split
  case isTrue hneg => exact iff_of_false nofun fun hrange => absurd hneg (by omega)
  case isFalse hpos =>
    rw [Option.isSome_iff_ne_none, Ne, List.getElem?_eq_none_iff]
    omega

namespace GuiConnector

open CwKeyer.Configuration

/-- The setters of the two indices. -/
def setSelected (which : CommSetting) (g : GuiConnector) (index : Int) :
    Except Abort GuiConnector :=
  if index < 0 ∨ index ≥ g.commPorts then return g
  else if which.get g.toSettings = index then return g
  else { g with toSettings := which.set index g.toSettings }.put (putValueInt which.key index)

def setSelectedCommPort : GuiConnector → Int → Except Abort GuiConnector := setSelected .commOut

def setSelectedCommPortIn : GuiConnector → Int → Except Abort GuiConnector := setSelected .commIn

end GuiConnector

/-! ## State -/

/-- What `m_serialComm` or `m_serialCommIn` is told. -/
inductive SerialOrder where
  | start (portName : String)
  | stop
deriving Repr, DecidableEq

/-- `accesses` are the indices that `m_commPorts` has been accessed at, and
`orders` what the serial components have been told, both in order. -/
structure CommPanel where
  gui : GuiConnector
  accesses : List Int := []
  orders : List (CommSetting × SerialOrder) := []
deriving Repr, DecidableEq

namespace CommPanel

/-- Nothing is started at an index out of range. -/
def setEnabled (which : CommSetting) (ports : List String) (p : CommPanel) (enabled : Bool) :
    CommPanel :=
  if enabled then
    let index := which.get p.gui.toSettings
    { p with
      accesses := p.accesses ++ [index]
      orders := p.orders ++ (portAt ports index).toList.map fun name => (which, .start name) }
  else { p with orders := p.orders ++ [(which, .stop)] }

def setEnabledCommOut : List String → CommPanel → Bool → CommPanel := setEnabled .commOut

def setEnabledCommIn : List String → CommPanel → Bool → CommPanel := setEnabled .commIn

end CommPanel

/-- A call of the user interface, with its surroundings if it writes the
settings file. -/
inductive CommAct where
  | setSelected (which : CommSetting) (index : Int) (env : Environment)
  | setEnabled (which : CommSetting) (enabled : Bool)
deriving Repr, DecidableEq

namespace CommPanel

/-- A call that does not return ends the run. -/
def select (p : CommPanel) (g : Except Abort GuiConnector) : Option CommPanel :=
  g.toOption.map fun gui => { p with gui := gui }

def step (ports : List String) (p : CommPanel) : CommAct → Option CommPanel
  | .setSelected .commOut index env =>
      p.select ({ p.gui with env := env }.setSelectedCommPort index)
  | .setSelected .commIn index env =>
      p.select ({ p.gui with env := env }.setSelectedCommPortIn index)
  | .setEnabled .commOut enabled => some (p.setEnabledCommOut ports enabled)
  | .setEnabled .commIn enabled => some (p.setEnabledCommIn ports enabled)

end CommPanel

def commPanel (ports : List String) : Machine CommPanel CommAct := ⟨CommPanel.step ports⟩

/-! ## What the settings file cannot do

Whatever is stored and whatever fails, the construction ends with valid
indices.
-/

namespace GuiConnector

open CwKeyer.Configuration

/-- There are `n` ports, and each index is in range or the initial one. -/
def PortsValid (n : Nat) (g : GuiConnector) : Prop :=
  g.commPorts = n ∧ (g.selectedCommPort = -1 ∨ InRange n g.selectedCommPort) ∧
    (g.selectedCommPortIn = -1 ∨ InRange n g.selectedCommPortIn)

variable {n : Nat} {g g' : GuiConnector} {which : CommSetting} {index : Int}

theorem portsValid_iff : g.PortsValid n ↔ g.commPorts = n ∧ ∀ which : CommSetting,
    which.get g.toSettings = -1 ∨ InRange n (which.get g.toSettings) := by
  refine and_congr_right fun _ => ⟨?_, fun h => ⟨h .commOut, h .commIn⟩⟩
  rintro ⟨hout, hin⟩ which
  cases which with
  | commOut => exact hout
  | commIn => exact hin

/-- An index that is not negative has been checked. -/
theorem PortsValid.inRange_iff (h : g.PortsValid n) (which : CommSetting) :
    InRange n (which.get g.toSettings) ↔ 0 ≤ which.get g.toSettings := by
  rcases (portsValid_iff.mp h).2 which with hunset | hrange
  · rw [hunset]
    exact iff_of_false (fun hrange => absurd hrange.1 (by decide)) (by decide)
  · exact iff_of_true hrange hrange.1

theorem put_portsValid (h : g.PortsValid n)
    (write : ConfigFile → FileOutcome → Except String ConfigFile) :
    Meets (Excused False) (PortsValid n) (g.put write) := by
  unfold put nextFile
  dsimp only
  split
  · exact Meets.pure h
  · exact Meets.error not_false

theorem get_portsValid {α : Type} (h : g.PortsValid n)
    (read : ConfigFile → FileOutcome → Except String α) :
    Meets (Excused False) (fun r => r.2.PortsValid n) (g.get read) := by
  unfold GuiConnector.get nextFile
  dsimp only
  split
  · exact Meets.pure h
  · exact Meets.error not_false

theorem loadNumber_portsValid {α : Type} {read : ConfigFile → FileOutcome → Except String α}
    {valid : α → Bool} {default : α}
    {write : α → ConfigFile → FileOutcome → Except String ConfigFile} (h : g.PortsValid n) :
    Meets (Excused False) (fun r => r.2.PortsValid n) (g.loadNumber read valid default write) := by
  unfold loadNumber
  refine Meets.bind (get_portsValid h read) ?_
  rintro ⟨value, g₁⟩ h₁
  refine Meets.ite (fun _ => Meets.pure h₁) fun _ => ?_
  refine Meets.bind (put_portsValid h₁ _) ?_
  intro g₂ h₂
  exact Meets.pure h₂

theorem loadServerIp_portsValid (h : g.PortsValid n) :
    Meets (Excused False) (PortsValid n) g.loadServerIp := by
  unfold loadServerIp
  refine Meets.bind (get_portsValid h _) ?_
  rintro ⟨has, g₁⟩ h₁
  refine Meets.ite (fun _ => ?_) fun _ => put_portsValid (by exact h₁) _
  refine Meets.bind (get_portsValid h₁ _) ?_
  rintro ⟨configuredIp, g₂⟩ h₂
  exact Meets.ite (fun _ => put_portsValid (by exact h₂) _) fun _ => Meets.pure h₂

/-- A stored index is only taken over in range. -/
theorem PortsValid.load (h : g.PortsValid n) (which : CommSetting) (selected : Int) :
    (if 0 ≤ selected ∧ selected < g.commPorts then
      { g with toSettings := which.set selected g.toSettings } else g).PortsValid n := by
  split
  case isFalse => exact h
  case isTrue hrange =>
    obtain ⟨rfl, hout, hin⟩ := h
    cases which with
    | commOut => exact ⟨rfl, .inr hrange, hin⟩
    | commIn => exact ⟨rfl, hout, .inr hrange⟩

theorem loadConfiguration_portsValid (h : g.PortsValid n) :
    Meets (Excused False) (PortsValid n) g.loadConfiguration := by
  unfold loadConfiguration
  refine Meets.bind (loadNumber_portsValid h) ?_
  rintro ⟨amplitude, g₁⟩ h₁
  refine Meets.bind (loadNumber_portsValid (by exact h₁)) ?_
  rintro ⟨frequency, g₂⟩ h₂
  refine Meets.bind (loadNumber_portsValid (by exact h₂)) ?_
  rintro ⟨wpm, g₃⟩ h₃
  refine Meets.bind (loadNumber_portsValid (by exact h₃)) ?_
  rintro ⟨farnsWorth, g₄⟩ h₄
  refine Meets.bind (loadNumber_portsValid (by exact h₄)) ?_
  rintro ⟨mode, g₅⟩ h₅
  refine Meets.bind (get_portsValid (by exact h₅) _) ?_
  rintro ⟨selDev, g₆⟩ h₆
  dsimp only
  rw [ite_assign (fun device => { g₆ with selectedAudioDevice := device }) rfl]
  refine Meets.bind (get_portsValid (by exact h₆) _) ?_
  rintro ⟨selCom, g₇⟩ h₇
  refine Meets.bind (get_portsValid (h₇.load .commOut selCom) _) ?_
  rintro ⟨selCommIn, g₈⟩ h₈
  refine Meets.bind (loadNumber_portsValid (h₈.load .commIn selCommIn)) ?_
  rintro ⟨remotePort, g₉⟩ h₉
  refine Meets.bind (loadNumber_portsValid (by exact h₉)) ?_
  rintro ⟨remoteMoxDelayMs, g₁₀⟩ h₁₀
  exact loadServerIp_portsValid (by exact h₁₀)

theorem PortsValid.resetCwDecoder (h : g.PortsValid n) : g.resetCwDecoder.PortsValid n := by
  obtain ⟨cwDecoder, clock, hreset, -⟩ := resetCwDecoder_spec g
  rw [hreset]
  exact h

theorem initConnector_portsValid (h : g.PortsValid n) :
    Meets (Excused False) (PortsValid n) g.initConnector := by
  unfold initConnector
  have hkeyer : g.resetKeyer.PortsValid n := PortsValid.resetCwDecoder (by exact h)
  refine Meets.bind (resetSound_spec False.elim) ?_
  rintro g₁ ⟨⟨soundEnabled, files, rfl⟩, -⟩
  refine (resetRemotes_spec False.elim).mono ?_
  rintro g₂ ⟨⟨⟨remote, file, files', connects, rfl⟩, -, -⟩, -⟩
  exact PortsValid.resetCwDecoder (by exact hkeyer)

theorem boot_portsValid {audioDevices : Nat} {keyer : Keyer} {file : ConfigFile}
    {env : Environment} :
    Meets (Excused False) (PortsValid n) (boot audioDevices n keyer file env) := by
  unfold boot
  refine Meets.bind (loadConfiguration_portsValid ⟨rfl, .inl rfl, .inl rfl⟩) ?_
  intro g₁ h₁
  exact initConnector_portsValid h₁

/-- With a working file system the stored index is what counts. -/
theorem boot_loaded_iff {audioDevices : Nat} {keyer : Keyer} {file : ConfigFile}
    {env : Environment} (hboot : boot audioDevices n keyer file env = .ok g)
    (hok : env.filesOk = true) (which : CommSetting) :
    0 ≤ which.get g.toSettings ↔ InRange n ((stored file which.key).elim 0 JsonValue.toInt) := by
  obtain ⟨b, hshows, -, -, hb⟩ := (boot_shows fun _ : True => hok).ok hboot
  obtain rfl := hb trivial
  have hget : which.get g.toSettings =
      if InRange n ((stored file which.key).elim 0 JsonValue.toInt) then
        (stored file which.key).elim 0 JsonValue.toInt else -1 := by
    rw [hshows.settings]
    cases which with
    | commOut => rfl
    | commIn => rfl
  rw [hget]
  split
  case isTrue hrange => exact iff_of_true hrange.1 hrange
  case isFalse hrange => exact iff_of_false (by decide) hrange

end GuiConnector

/-! ## What the calls do -/

namespace GuiConnector

variable {which : CommSetting} {index : Int} {g g' : GuiConnector}

open CwKeyer.Configuration

/-- An index in range is stored, any other is ignored. -/
theorem setSelected_eq (h : setSelected which g index = .ok g') :
    g'.commPorts = g.commPorts ∧ g'.toSettings =
      if InRange g.commPorts index then which.set index g.toSettings else g.toSettings := by
  unfold setSelected at h
  split at h
  case isTrue hout =>
    obtain rfl := Except.ok.inj h
    rw [if_neg (by unfold InRange; omega)]
    exact ⟨rfl, rfl⟩
  case isFalse hin =>
    rw [if_pos (show InRange g.commPorts index by unfold InRange; omega)]
    split at h
    case isTrue hsame =>
      obtain rfl := Except.ok.inj h
      rw [← hsame, CommSetting.set_get_self]
      exact ⟨rfl, rfl⟩
    case isFalse =>
      unfold put nextFile at h
      dsimp only at h
      split at h
      · obtain rfl := Except.ok.inj h
        exact ⟨rfl, rfl⟩
      · cases h

/-- So the indices stay valid. -/
theorem PortsValid.selected {n : Nat} (h : g.PortsValid n) (hcount : g'.commPorts = g.commPorts)
    (hsettings : g'.toSettings =
      if InRange g.commPorts index then which.set index g.toSettings else g.toSettings) :
    g'.PortsValid n ∧ ∀ which' : CommSetting, 0 ≤ which'.get g'.toSettings ↔
      0 ≤ which'.get g.toSettings ∨ which' = which ∧ InRange n index := by
  obtain ⟨rfl, hindices⟩ := portsValid_iff.mp h
  by_cases hrange : InRange g.commPorts index
  · rw [if_pos hrange] at hsettings
    have hget (which' : CommSetting) : which'.get g'.toSettings =
        if which' = which then index else which'.get g.toSettings := by
      rw [hsettings]
      split
      case isTrue heq => rw [heq, CommSetting.get_set_self]
      case isFalse hne => exact CommSetting.get_set_ne hne
    refine ⟨portsValid_iff.mpr ⟨hcount, fun which' => ?_⟩, fun which' => ?_⟩
    · rw [hget]
      split
      · exact .inr hrange
      · exact hindices which'
    · rw [hget]
      split
      case isTrue heq => exact iff_of_true hrange.1 (.inr ⟨heq, hrange⟩)
      case isFalse hne => exact (or_iff_left fun hchosen => hne hchosen.1).symm
  · rw [if_neg hrange] at hsettings
    rw [hsettings]
    refine ⟨portsValid_iff.mpr ⟨hcount, fun which' => ?_⟩, fun which' => ?_⟩
    · rw [hsettings]
      exact hindices which'
    · exact (or_iff_left fun hchosen => hrange hchosen.2).symm

end GuiConnector

namespace CommPanel

variable {ports : List String} {p p' : CommPanel} {which which' : CommSetting} {index : Int}
  {env : Environment} {enabled : Bool}

theorem step_setSelected (h : p.step ports (.setSelected which index env) = some p') :
    ∃ g', GuiConnector.setSelected which { p.gui with env := env } index = .ok g' ∧
      p' = { p with gui := g' } := by
  have hselect : p.select (GuiConnector.setSelected which { p.gui with env := env } index) =
      some p' := by
    cases which with
    | commOut => exact h
    | commIn => exact h
  cases hcall : GuiConnector.setSelected which { p.gui with env := env } index with
  | error e =>
      rw [hcall] at hselect
      cases hselect
  | ok g' =>
      rw [hcall] at hselect
      exact ⟨g', rfl, (Option.some.inj hselect).symm⟩

theorem step_setEnabled :
    p.step ports (.setEnabled which enabled) = some (p.setEnabled which ports enabled) := by
  cases which <;> rfl

/-- Among `as` a port of the list is selected. -/
def Selected (n : Nat) (which : CommSetting) (as : List CommAct) : Prop :=
  ∃ index env, CommAct.setSelected which index env ∈ as ∧ InRange n index

theorem selected_singleton {n : Nat} :
    Selected n which [.setSelected which' index env] ↔ which = which' ∧ InRange n index := by
  constructor
  · rintro ⟨index', env', hmem, hrange⟩
    obtain ⟨rfl, rfl, -⟩ := CommAct.setSelected.inj (List.mem_singleton.mp hmem)
    exact ⟨rfl, hrange⟩
  · rintro ⟨rfl, hrange⟩
    exact ⟨index, env, List.mem_singleton_self _, hrange⟩

theorem selected_append {n : Nat} {as bs : List CommAct} :
    Selected n which (as ++ bs) ↔ Selected n which as ∨ Selected n which bs := by
  simp only [Selected, List.mem_append, or_and_right, exists_or]

/-- One step: an index stops being the initial one when a port is
selected. -/
theorem step_ports {a : CommAct} (h : p.gui.PortsValid ports.length)
    (hstep : p.step ports a = some p') :
    p'.gui.PortsValid ports.length ∧ ∀ which : CommSetting,
      0 ≤ which.get p'.gui.toSettings ↔
        0 ≤ which.get p.gui.toSettings ∨ Selected ports.length which [a] := by
  cases a with
  | setSelected which' index env =>
      obtain ⟨g', hcall, rfl⟩ := step_setSelected hstep
      obtain ⟨hcount, hsettings⟩ := GuiConnector.setSelected_eq hcall
      obtain ⟨hvalid, hiff⟩ := GuiConnector.PortsValid.selected h hcount hsettings
      refine ⟨hvalid, fun which => ?_⟩
      rw [selected_singleton]
      exact hiff which
  | setEnabled which' enabled =>
      obtain rfl := Option.some.inj (step_setEnabled.symm.trans hstep)
      have hgui : (p.setEnabled which' ports enabled).gui = p.gui := by
        unfold setEnabled
        split <;> rfl
      rw [hgui]
      refine ⟨h, fun which => ⟨.inl, ?_⟩⟩
      rintro (hset | ⟨index, env, hmem, -⟩)
      · exact hset
      · cases List.mem_singleton.mp hmem

/-- A run: an index is not negative exactly if it was not at the start or a
port has been selected. -/
theorem run_ports {as : List CommAct} (h : p.gui.PortsValid ports.length)
    (hrun : (commPanel ports).run p as = some p') :
    p'.gui.PortsValid ports.length ∧ ∀ which : CommSetting,
      0 ≤ which.get p'.gui.toSettings ↔
        0 ≤ which.get p.gui.toSettings ∨ Selected ports.length which as := by
  refine Machine.run_rec (C := fun as p' => p'.gui.PortsValid ports.length ∧
    ∀ which : CommSetting, 0 ≤ which.get p'.gui.toSettings ↔
      0 ≤ which.get p.gui.toSettings ∨ Selected ports.length which as) ?_ ?_ hrun
  · refine ⟨h, fun which => ⟨.inl, ?_⟩⟩
    rintro (hset | ⟨index, env, hmem, -⟩)
    · exact hset
    · cases hmem
  · rintro as t a u ⟨ht, hiff⟩ hstep
    obtain ⟨hu, hnext⟩ := step_ports ht hstep
    refine ⟨hu, fun which => ?_⟩
    rw [hnext, hiff, selected_append, or_assoc]

/-- Every access so far was within the list. -/
def AccessesInRange (ports : List String) (p : CommPanel) : Prop :=
  ∀ index ∈ p.accesses, InRange ports.length index

/-- The step makes no access at a negative index. -/
def EnablesLoaded (p : CommPanel) (a : CommAct) : Prop :=
  ∀ which : CommSetting, a = .setEnabled which true → 0 ≤ which.get p.gui.toSettings

theorem step_accesses {a : CommAct} (h : p.gui.PortsValid ports.length)
    (hbefore : p.AccessesInRange ports) (hstep : p.step ports a = some p') :
    p'.AccessesInRange ports ↔ p.EnablesLoaded a := by
  cases a with
  | setSelected which index env =>
      obtain ⟨g', -, rfl⟩ := step_setSelected hstep
      exact iff_of_true hbefore nofun
  | setEnabled which enabled =>
      obtain rfl := Option.some.inj (step_setEnabled.symm.trans hstep)
      cases enabled with
      | false => exact iff_of_true hbefore nofun
      | true =>
          have hlast : (p.setEnabled which ports true).AccessesInRange ports ↔
              InRange ports.length (which.get p.gui.toSettings) := by
            constructor
            · intro hafter
              exact hafter _ (List.mem_append_right _ (List.mem_singleton_self _))
            · intro hrange index hmem
              rcases List.mem_append.mp hmem with hold | hnew
              · exact hbefore index hold
              · rwa [List.mem_singleton.mp hnew]
          rw [hlast, h.inRange_iff]
          constructor
          · intro hset which' heq
            obtain ⟨rfl, -⟩ := CommAct.setEnabled.inj heq
            exact hset
          · intro hloaded
            exact hloaded which rfl

theorem along_accesses_iff (h : p.gui.PortsValid ports.length) (hbefore : p.AccessesInRange ports)
    (as : List CommAct) :
    (commPanel ports).Along (fun _ _ p' => p'.AccessesInRange ports) p as ↔
      (commPanel ports).Along (fun p a _ => p.EnablesLoaded a) p as := by
  refine Machine.along_congr
    (I := fun p => p.gui.PortsValid ports.length ∧ p.AccessesInRange ports) ?_ ?_ ⟨h, hbefore⟩
  · rintro p a p' ⟨hvalid, hp⟩ hstep
    exact step_accesses hvalid hp hstep
  · rintro p a p' ⟨hvalid, hp⟩ hloaded hstep
    exact ⟨(step_ports hvalid hstep).1, (step_accesses hvalid hp hstep).mpr hloaded⟩

end CommPanel

namespace GuiConnector

open CommPanel CwKeyer.Configuration

variable {g : GuiConnector} {audioDevices : Nat} {ports : List String} {keyer : Keyer}
  {file : ConfigFile} {env : Environment}

/-- Every access is within the list in exactly the runs in which a port is
only enabled when one has been loaded at the start or selected before. With
a working file system one is loaded at the start if the stored index is in
range. -/
theorem accesses_in_range_iff (hboot : boot audioDevices ports.length keyer file env = .ok g)
    (as : List CommAct) :
    ((commPanel ports).Along (fun _ _ p => p.AccessesInRange ports) { gui := g } as ↔
      ∀ which pre post, as = pre ++ .setEnabled which true :: post →
        ((commPanel ports).run { gui := g } pre).isSome = true →
          0 ≤ which.get g.toSettings ∨ Selected ports.length which pre) ∧
    (env.filesOk = true → ∀ which : CommSetting, 0 ≤ which.get g.toSettings ↔
      InRange ports.length ((stored file which.key).elim 0 JsonValue.toInt)) := by
  have hvalid : g.PortsValid ports.length := boot_portsValid.ok hboot
  have hnone : AccessesInRange ports { gui := g } := fun _ hmem => absurd hmem List.not_mem_nil
  refine ⟨?_, boot_loaded_iff hboot⟩
  rw [along_accesses_iff hvalid hnone, Machine.along_iff_forall]
  constructor
  · intro h which pre post heq hrun
    obtain ⟨p, hp⟩ := Option.isSome_iff_exists.mp hrun
    exact ((run_ports hvalid hp).2 which).mp (h pre _ post p _ heq hp step_setEnabled which rfl)
  · intro h pre a post p p' heq hp _ which ha
    subst ha
    exact ((run_ports hvalid hp).2 which).mpr (h which pre post heq (by simp [hp]))

/-- The stored output is no longer there: another port is selected, and
both are enabled. -/
def selectAndEnable : List CommAct :=
  [.setSelected .commOut 1 {}, .setEnabled .commOut true, .setEnabled .commIn true]

theorem accesses_in_range_selected :
    let ports := ["ttyS0", "ttyS1"]
    ∃ g p, boot 0 2 { lastPressed := .dit, lastQueued := .dit }
          (some [(CommSetting.commOut.key, .number 7)]) {} = .ok g
      ∧ (commPanel ports).run { gui := g } selectAndEnable = some p ∧ p.accesses = [1, 0]
      ∧ (commPanel ports).Along (fun _ _ p => p.AccessesInRange ports) { gui := g } selectAndEnable
      ∧ ¬ 0 ≤ CommSetting.commOut.get g.toSettings := by
  intro ports
  have hboot : boot 0 ports.length { lastPressed := .dit, lastQueued := .dit }
      (some [(CommSetting.commOut.key, .number 7)]) {} = .ok _ := rfl
  obtain ⟨hiff, hloaded⟩ := accesses_in_range_iff hboot selectAndEnable
  have hgone := (hloaded rfl .commOut).not.mpr (by decide)
  refine ⟨_, _, rfl, rfl, rfl, hiff.mpr ?_, hgone⟩
  intro which pre post heq _
  rcases pre with _ | ⟨first, _ | ⟨second, _ | ⟨third, pre⟩⟩⟩
  · cases heq
  · cases heq
    exact .inr (selected_singleton.mpr ⟨rfl, by decide⟩)
  · cases heq
    exact .inl ((hloaded rfl .commIn).mpr (by decide))
  · simp [selectAndEnable] at heq

/-- Without a serial port the output is enabled: `m_commPorts[-1]`. -/
theorem access_out_of_range :
    boot 0 0 { lastPressed := .dit, lastQueued := .dit } none {} = .ok firstStart ∧
    ¬ (commPanel []).Along (fun _ _ p => p.AccessesInRange []) { gui := firstStart }
      [.setEnabled .commOut true] := by
  refine ⟨boot_firstStart, ?_⟩
  intro halong
  obtain ⟨hrange, -⟩ := halong _ rfl
  exact absurd (hrange (-1) (List.mem_singleton_self _)).1 (by decide)

end GuiConnector

end CwKeyer
