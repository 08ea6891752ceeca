import CwKeyer.Gui.CommPorts
import CwKeyer.Gui.Sessions
import CwKeyer.Serial.SerialPorts

/-!
# The selected port over restarts

A session makes the list of ports anew, and the settings file keeps the index
of the selected port. With a file system that works the index stays the same
until another port is selected (`Shown`), whatever else is set and however
often the program is restarted. So it is the same port that is selected
exactly if as many ports sort before it as when it was selected
(`selected_port_kept_iff`).
-/

namespace CwKeyer

/-- A session, with `/dev` as it was at its start. -/
structure PortPanel where
  dev : Option DevDir
  panel : CommPanel

inductive PortAct where
  | setting (c : SettingCall) (env : Environment)
  | comm (a : CommAct)
  | restart (dev : Option DevDir) (audioDevices : Nat) (keyer : Keyer) (env : Environment)

/-- The file system works, and an index is an int. -/
def PortAct.possible : PortAct → Bool
  | .setting _ env => env.filesOk
  | .comm (.setSelected _ index env) => env.filesOk && -2 ^ 31 ≤ index && index < 2 ^ 31
  | .comm (.setEnabled _ _) => true
  | .restart _ _ _ env => env.filesOk

namespace PortPanel

def ports (s : PortPanel) : List String := SerialPorts.listPorts s.dev

/-- `m_commPorts[index]` for the index of a port setting. -/
def selected (s : PortPanel) (which : CommSetting) : Option String :=
  portAt s.ports (which.get s.panel.gui.toSettings)

def boot (dev : Option DevDir) (audioDevices : Nat) (keyer : Keyer) (file : ConfigFile)
    (env : Environment) : Option PortPanel :=
  (GuiConnector.boot audioDevices (SerialPorts.listPorts dev).length keyer file env).toOption.map
    fun gui => ⟨dev, { gui := gui }⟩

def step (qFuzzyCompare : Rat → Rat → Bool) (fuel : Nat) (s : PortPanel) :
    PortAct → Option PortPanel
  | .setting c env =>
      let gui := { s.panel.gui with env := env }
      (gui.performSetting qFuzzyCompare fuel c).toOption.map fun gui =>
        { s with panel := { s.panel with gui := gui } }
  | .comm a => (s.panel.step s.ports a).map fun panel => { s with panel := panel }
  | .restart dev audioDevices keyer env => boot dev audioDevices keyer s.panel.gui.file env

end PortPanel

def portSessions (qFuzzyCompare : Rat → Rat → Bool) (fuel : Nat) : Machine PortPanel PortAct :=
  ⟨PortPanel.step qFuzzyCompare fuel⟩

namespace GuiConnector

open CwKeyer.Configuration

/-! ## The index -/

/-- The settings file has `index` for a port setting, which is in use if
there is such a port. -/
structure Shown (which : CommSetting) (index : Int) (n : Nat) (g : GuiConnector) : Prop where
  count : g.commPorts = n
  files : g.env.filesOk = true
  stored : (stored g.file which.key).elim 0 JsonValue.toInt = index
  loaded : which.get g.toSettings = if InRange n index then index else -1

variable {which : CommSetting} {index : Int} {n : Nat} {g g' : GuiConnector}
  {qFuzzyCompare : Rat → Rat → Bool}

theorem key_ne_comm (s : SavedSetting) (which : CommSetting) : which.key ≠ s.key := by
  cases s <;> cases which <;> decide

theorem get_set_saved (s : SavedSetting) (value : s.Value) (settings : Settings) :
    which.get (s.set value settings) = which.get settings := by
  cases s <;> cases which <;> rfl

/-- Any outcome of a call. -/
abbrev Leaves (Q : GuiConnector → Prop) (x : Except Abort GuiConnector) : Prop :=
  Meets (fun _ => True) Q x

theorem Shown.put (h : g.Shown which index n) (s : SavedSetting) (value : s.Value) (v : JsonValue) :
    Leaves (Shown which index n)
      ({ g with toSettings := s.set value g.toSettings }.put (putValue s.key v)) := by
  refine Meets.weaken (Meets.mono (put_spec fun _ : True => h.files) ?_) fun _ _ => trivial
  rintro g' ⟨⟨⟨file, files, rfl⟩, hfiles, hothers⟩, -⟩
  refine ⟨h.count, hfiles trivial, ?_, (get_set_saved s value g.toSettings).trans h.loaded⟩
  have hother := hothers trivial which.key (key_ne_comm s which)
  exact (congrArg (Option.elim · 0 JsonValue.toInt) hother).trans h.stored

theorem Shown.resetCwDecoder (h : g.Shown which index n) :
    g.resetCwDecoder.Shown which index n := by
  obtain ⟨cwDecoder, clock, hreset, -⟩ := g.resetCwDecoder_spec
  rw [hreset]
  exact ⟨h.count, h.files, h.stored, h.loaded⟩

theorem Shown.resetKeyer (h : g.Shown which index n) : g.resetKeyer.Shown which index n := by
  refine Shown.resetCwDecoder ?_
  exact ⟨h.count, h.files, h.stored, h.loaded⟩

theorem Shown.resetSound (h : g.Shown which index n) :
    Leaves (Shown which index n) g.resetSound := by
  refine Meets.weaken (Meets.mono (resetSound_spec fun _ : True => h.files) ?_)
    fun _ _ => trivial
  rintro g' ⟨⟨soundEnabled, files, rfl⟩, hfiles⟩
  exact ⟨h.count, hfiles trivial, h.stored, h.loaded⟩

theorem Shown.resetRemotes (h : g.Shown which index n) :
    Leaves (Shown which index n) g.resetRemotes := by
  refine Meets.weaken (Meets.mono (resetRemotes_spec fun _ : True => h.files) ?_)
    fun _ _ => trivial
  rintro g' ⟨honly, -⟩
  have hfiles := honly.files trivial
  have hother := honly.others trivial which.key (by cases which <;> decide)
  obtain ⟨remote, file, files, connects, rfl⟩ := honly.frame
  exact ⟨h.count, hfiles, (congrArg (Option.elim · 0 JsonValue.toInt) hother).trans h.stored,
    h.loaded⟩

/-! ## Setters -/

/-- A setter that assigns and then resets components. -/
theorem Shown.put_bind (h : g.Shown which index n) (s : SavedSetting) (value : s.Value)
    (v : JsonValue) {reset : GuiConnector → Except Abort GuiConnector}
    (hreset : ∀ {g₁ : GuiConnector}, g₁.Shown which index n →
      Leaves (Shown which index n) (reset g₁)) :
    Leaves (Shown which index n)
      ({ g with toSettings := s.set value g.toSettings }.put (putValue s.key v) >>= reset) :=
  Meets.bind (h.put s value v) fun _ => hreset

theorem shown_speeds (fuel : Nat) :
    (∀ {g : GuiConnector} (value : Int), g.Shown which index n →
      Leaves (Shown which index n) (setWpm fuel g value))
      ∧ ∀ {g : GuiConnector} (value : Int), g.Shown which index n →
        Leaves (Shown which index n) (setFarnsWorth fuel g value) := by
  induction fuel with
  | zero => exact ⟨fun _ _ => Meets.error trivial, fun _ _ => Meets.error trivial⟩
  | succ fuel ih =>
      refine ⟨fun value h => ?_, fun value h => ?_⟩
      · unfold setWpm
        refine Meets.ite (fun _ => Meets.pure h) fun _ => ?_
        refine h.put_bind .wpm value (.number value) fun h₁ => ?_
        refine Meets.ite (fun _ => ?_) fun _ => Meets.pure h₁.resetKeyer
        exact Meets.bind (ih.2 _ h₁) fun _ h₂ => Meets.pure h₂.resetKeyer
      · unfold setFarnsWorth
        refine Meets.ite (fun _ => Meets.pure h) fun _ => ?_
        refine h.put_bind .farnsWorth value (.number value) fun h₁ => ?_
        refine Meets.ite (fun _ => ?_) fun _ => Meets.pure h₁.resetCwDecoder
        exact Meets.bind (ih.1 _ h₁) fun _ h₂ => Meets.pure h₂.resetCwDecoder

theorem Shown.performSetting (h : g.Shown which index n) (fuel : Nat) (c : SettingCall) :
    Leaves (Shown which index n) (performSetting qFuzzyCompare fuel g c) := by
  have hsame : Leaves (Shown which index n) (Pure.pure g) := Meets.pure h
  cases c with
  | setAmplitude value =>
      exact Meets.ite (fun _ => hsame) fun _ =>
        h.put_bind .amplitude value (.number value) Shown.resetSound
  | setFrequency value =>
      exact Meets.ite (fun _ => hsame) fun _ =>
        h.put_bind .frequency value (.number value) Shown.resetSound
  | setWpm value => exact (shown_speeds fuel).1 value h
  | setFarnsWorth value => exact (shown_speeds fuel).2 value h
  | setMode value =>
      exact Meets.ite (fun _ => hsame) fun _ =>
        h.put_bind .mode value (.number value) fun h₁ => Meets.pure h₁.resetKeyer
  | setSelectedAudioDevice device =>
      exact Meets.ite (fun _ => hsame) fun _ => Meets.ite (fun _ => hsame) fun _ =>
        h.put_bind .selectedAudioDevice device (.number device) Shown.resetSound
  | setRemotePort port =>
      exact Meets.ite (fun _ => hsame) fun _ => Meets.ite (fun _ => hsame) fun _ =>
        h.put_bind .remotePort port (.number port) Shown.resetRemotes
  | setRemoteMoxDelayMs delayMs =>
      exact Meets.ite (fun _ => hsame) fun _ => Meets.ite (fun _ => hsame) fun _ =>
        h.put_bind .remoteMoxDelayMs delayMs (.number delayMs) Shown.resetRemotes
  | setServerIp ip =>
      exact Meets.ite (fun _ => hsame) fun _ => Meets.ite (fun _ => hsame) fun _ =>
        h.put_bind .serverIp (trimmed ip) (.string (cStr (trimmed ip))) Shown.resetRemotes

/-! ## Selections and restarts -/

theorem keys_ne {which which' : CommSetting} (h : which' ≠ which) : which.key ≠ which'.key := by
  cases which <;> cases which' <;> first | exact absurd rfl h | decide

/-- A selection in range is written and in use; any other changes nothing. -/
theorem Shown.setSelected (h : g.Shown which index n) {which' : CommSetting} {selected : Int}
    (hint : -2 ^ 31 ≤ selected ∧ selected < 2 ^ 31)
    (hcall : setSelected which' g selected = .ok g') :
    g'.Shown which (if which' = which ∧ InRange n selected then selected else index) n := by
  unfold GuiConnector.setSelected at hcall
  split_ifs at hcall with hout hsame
  · obtain rfl := Except.ok.inj hcall
    rw [if_neg fun hin => ?_]
    · exact h
    · have hin := hin.2
      rw [h.count] at hout
      unfold InRange at hin
      omega
  · obtain rfl := Except.ok.inj hcall
    by_cases hself : which' = which ∧ InRange n selected
    · rw [if_pos hself]
      obtain ⟨rfl, hin⟩ := hself
      have hloaded := h.loaded
      split_ifs at hloaded with hrange
      · rwa [← hsame, hloaded]
      · rw [hloaded] at hsame
        exact absurd hin.1 (by omega)
    · rwa [if_neg hself]
  · have hin : InRange n selected := by
      rw [h.count] at hout
      unfold InRange
      omega
    obtain ⟨⟨⟨file, files, rfl⟩, hfiles, hothers⟩, hself⟩ :=
      Meets.ok (put_spec fun _ : True => by exact h.files) hcall
    by_cases hwhich : which' = which
    · subst hwhich
      rw [if_pos ⟨rfl, hin⟩]
      refine ⟨h.count, hfiles trivial, ?_, ?_⟩
      · rw [hself trivial]
        exact JsonValue.toInt_number hint.1 hint.2
      · rw [if_pos hin]
        exact CommSetting.get_set_self
    · rw [if_neg fun hin => hwhich hin.1]
      refine ⟨h.count, hfiles trivial, ?_, ?_⟩
      · have hother := hothers trivial which.key (keys_ne hwhich)
        exact (congrArg (Option.elim · 0 JsonValue.toInt) hother).trans h.stored
      · exact (CommSetting.get_set_ne (Ne.symm hwhich)).trans h.loaded

/-- The next session has the index that is stored. -/
theorem shown_boot {audioDevices : Nat} {keyer : Keyer} {file : ConfigFile} {env : Environment}
    (hfiles : env.filesOk = true) (hindex : (stored file which.key).elim 0 JsonValue.toInt = index)
    (hboot : boot audioDevices n keyer file env = .ok g) : g.Shown which index n := by
  obtain ⟨b, hshows, -, -, hb⟩ := (boot_shows fun _ : True => hfiles).ok hboot
  obtain rfl := hb trivial
  have hcount : g.commPorts = n := (boot_portsValid.ok hboot).1
  refine ⟨hcount, hshows.files trivial, ?_, ?_⟩
  · rw [hshows.store trivial which.key (by cases which <;> decide)]
    have hkept : Store.loaded audioDevices (stored file) which.key = stored file which.key := by
      refine applyChanges_of_not_target ?_
      show which.key ∉ SavedSetting.refilled.map SavedSetting.key
      cases which <;> decide
    exact (congrArg (Option.elim · 0 JsonValue.toInt) hkept).trans hindex
  · rw [hshows.settings, ← hindex]
    cases which with
    | commOut => rfl
    | commIn => rfl

end GuiConnector

namespace PortPanel

variable {which : CommSetting} {index : Int} {s s' t : PortPanel} {a : PortAct}
  {qFuzzyCompare : Rat → Rat → Bool} {fuel : Nat}

def Shown (which : CommSetting) (index : Int) (s : PortPanel) : Prop :=
  s.panel.gui.Shown which index s.ports.length

theorem exists_ok_of_toOption {ε α β : Type} {x : Except ε α} {f : α → β} {b : β}
    (h : x.toOption.map f = some b) : ∃ a, x = .ok a ∧ f a = b := by
  cases x with
  | error e => cases h
  | ok a => exact ⟨a, rfl, Option.some.inj h⟩

theorem shown_launch {dev : Option DevDir} {audioDevices : Nat} {keyer : Keyer} {file : ConfigFile}
    {env : Environment} (hfiles : env.filesOk = true)
    (hboot : boot dev audioDevices keyer file env = some s)
    (hindex : (Configuration.stored file which.key).elim 0 JsonValue.toInt = index) :
    s.Shown which index := by
  obtain ⟨g, hg, rfl⟩ := exists_ok_of_toOption hboot
  exact GuiConnector.shown_boot hfiles hindex hg

/-- `a` selects no port for this setting. -/
def Keeps (which : CommSetting) (a : PortAct) : Prop :=
  ∀ selected env, a ≠ .comm (.setSelected which selected env)

/-- One step: the index only changes when a port is selected. -/
theorem Shown.step (h : s.Shown which index) (hpossible : a.possible = true)
    (hstep : (portSessions qFuzzyCompare fuel).step s a = some s') :
    ∃ index', s'.Shown which index' ∧ (Keeps which a → index' = index) := by
  cases a with
  | setting c env =>
      obtain ⟨g, hg, rfl⟩ := exists_ok_of_toOption hstep
      have hbefore :
          GuiConnector.Shown which index s.ports.length { s.panel.gui with env := env } :=
        ⟨h.count, hpossible, h.stored, h.loaded⟩
      exact ⟨index, (hbefore.performSetting fuel c).ok hg, fun _ => rfl⟩
  | comm a =>
      obtain ⟨p, hp, rfl⟩ := Option.map_eq_some_iff.mp hstep
      cases a with
      | setSelected which' selected env =>
          simp only [PortAct.possible, Bool.and_eq_true, decide_eq_true_eq, and_assoc] at hpossible
          obtain ⟨hfiles, hint⟩ := hpossible
          obtain ⟨g, hg, rfl⟩ := CommPanel.step_setSelected hp
          have hbefore :
              GuiConnector.Shown which index s.ports.length { s.panel.gui with env := env } :=
            ⟨h.count, hfiles, h.stored, h.loaded⟩
          refine ⟨_, hbefore.setSelected hint hg, fun hkeeps => ?_⟩
          refine if_neg fun hself => ?_
          exact hkeeps selected env (by rw [hself.1])
      | setEnabled which' enabled =>
          obtain rfl := Option.some.inj (CommPanel.step_setEnabled.symm.trans hp)
          have hgui : (s.panel.setEnabled which' s.ports enabled).gui = s.panel.gui := by
            unfold CommPanel.setEnabled
            split <;> rfl
          refine ⟨index, ?_, fun _ => rfl⟩
          show GuiConnector.Shown which index s.ports.length _
          rw [hgui]
          exact h
  | restart dev audioDevices keyer env =>
      exact ⟨index, shown_launch hpossible hstep h.stored, fun _ => rfl⟩

/-- A run. -/
theorem Shown.run {as : List PortAct} (h : s.Shown which index)
    (hpossible : ∀ a ∈ as, a.possible = true)
    (hrun : (portSessions qFuzzyCompare fuel).run s as = some t) :
    ∃ index', t.Shown which index' ∧ ((∀ a ∈ as, Keeps which a) → index' = index) := by
  induction as generalizing s index with
  | nil =>
      obtain rfl := Option.some.inj hrun
      exact ⟨index, h, fun _ => rfl⟩
  | cons a as ih =>
      obtain ⟨s₁, hstep, hrun⟩ := Machine.run_cons.mp hrun
      obtain ⟨ha, has⟩ := List.forall_mem_cons.mp hpossible
      obtain ⟨index₁, h₁, hkept₁⟩ := h.step ha hstep
      obtain ⟨index₂, h₂, hkept₂⟩ := ih h₁ has hrun
      refine ⟨index₂, h₂, fun hkeeps => ?_⟩
      obtain ⟨hka, hkas⟩ := List.forall_mem_cons.mp hkeeps
      rw [hkept₂ hkas, hkept₁ hka]

theorem Shown.selected_eq (h : s.Shown which index) (hindex : 0 ≤ index) :
    s.selected which = s.ports[index.toNat]? := by
  unfold selected portAt
  rw [h.loaded]
  split_ifs with hin hneg hneg
  · exact absurd hindex (by omega)
  · rfl
  · refine (List.getElem?_eq_none_iff.mpr ?_).symm
    unfold InRange at hin
    omega
  · exact absurd hneg (by decide)

/-- The index is the rank of the port it selects. -/
theorem Shown.rank_selected {p : String} (h : s.Shown which index)
    (hselected : s.selected which = some p) : index = Ranks.rank s.ports p := by
  have hindex : 0 ≤ index := by
    refine le_of_not_gt fun hneg => ?_
    unfold selected at hselected
    rw [h.loaded, if_neg fun hin => absurd hin.1 (by omega)] at hselected
    cases hselected
  rw [h.selected_eq hindex] at hselected
  have hrank : Ranks.rank s.ports p = index.toNat :=
    (SerialPorts.getElem?_listPorts.mp hselected).2
  rw [hrank, Int.toNat_of_nonneg hindex]

end PortPanel

open PortPanel

variable {dev : Option DevDir} {audioDevices : Nat} {keyer : Keyer} {file : ConfigFile}
  {env : Environment} {qFuzzyCompare : Rat → Rat → Bool} {fuel : Nat} {which : CommSetting}
  {p : String} {s₀ s t : PortPanel} {as bs : List PortAct}

/-- As long as no other port is selected, what is selected is the port of the
rank that the port had when it was selected, in the list of the session. -/
theorem selected_port_kept_iff (hboot : boot dev audioDevices keyer file env = some s₀)
    (hfiles : env.filesOk = true) (hrun : (portSessions qFuzzyCompare fuel).run s₀ as = some s)
    (hselected : s.selected which = some p)
    (hlater : (portSessions qFuzzyCompare fuel).run s bs = some t)
    (hkeeps : ∀ a ∈ bs, Keeps which a) (hpossible : ∀ a ∈ as ++ bs, a.possible = true) :
    t.selected which = t.ports[Ranks.rank s.ports p]?
      ∧ (t.selected which = some p ↔
        p ∈ t.ports ∧ Ranks.rank t.ports p = Ranks.rank s.ports p) := by
  obtain ⟨has, hbs⟩ := List.forall_mem_append.mp hpossible
  have h₀ : s₀.Shown which ((Configuration.stored file which.key).elim 0 JsonValue.toInt) :=
    shown_launch hfiles hboot rfl
  obtain ⟨index, hs, -⟩ := h₀.run has hrun
  obtain ⟨index', ht, hkept⟩ := hs.run hbs hlater
  obtain rfl := hkept hkeeps
  obtain rfl := hs.rank_selected hselected
  have hnow : t.selected which = t.ports[Ranks.rank s.ports p]? := by
    rw [ht.selected_eq (Int.natCast_nonneg _), Int.toNat_natCast]
  refine ⟨hnow, ?_⟩
  rw [hnow]
  exact SerialPorts.getElem?_listPorts

/-- Two adapters. -/
def twoAdapters : DevDir where
  entries := [⟨"ttyUSB1", true⟩, ⟨"null", true⟩, ⟨"ttyUSB0", true⟩]
  distinct := by decide

/-- A modem has been plugged in. -/
def withModem : DevDir where
  entries := ⟨"ttyACM0", true⟩ :: twoAdapters.entries
  distinct := by decide

example : SerialPorts.listPorts (some withModem) =
    ["/dev/ttyACM0", "/dev/ttyUSB0", "/dev/ttyUSB1"] := by decide

/-- The modem takes the place of the first adapter, and the first adapter that
of the second. -/
theorem selected_port_withModem : ∃ s₀ s t,
    boot (some twoAdapters) 1 GuiConnector.idleKeyer GuiConnector.delayFile {} = some s₀
      ∧ (portSessions (fun p q => p = q) 0).run s₀ [.comm (.setSelected .commOut 1 {})] = some s
      ∧ s.selected .commOut = some "/dev/ttyUSB1"
      ∧ (portSessions (fun p q => p = q) 0).run s
        [.restart (some withModem) 1 GuiConnector.idleKeyer {}] = some t
      ∧ t.selected .commOut = some "/dev/ttyUSB0" := by
  obtain ⟨s₀, s, t, hboot, hrun, hselected, hlater, hrank, hports⟩ : ∃ s₀ s t,
      boot (some twoAdapters) 1 GuiConnector.idleKeyer GuiConnector.delayFile {} = some s₀
        ∧ (portSessions (fun p q => p = q) 0).run s₀ [.comm (.setSelected .commOut 1 {})] = some s
        ∧ s.selected .commOut = some "/dev/ttyUSB1"
        ∧ (portSessions (fun p q => p = q) 0).run s
          [.restart (some withModem) 1 GuiConnector.idleKeyer {}] = some t
        ∧ Ranks.rank s.ports "/dev/ttyUSB1" = 1
        ∧ t.ports = ["/dev/ttyACM0", "/dev/ttyUSB0", "/dev/ttyUSB1"] := by
    exact ⟨_, _, _, rfl, rfl, by decide, rfl, by decide, by decide⟩
  have hkeeps : ∀ a ∈ [PortAct.restart (some withModem) 1 GuiConnector.idleKeyer {}],
      Keeps .commOut a := by
    intro a ha selected env hact
    obtain rfl := List.mem_singleton.mp ha
    cases hact
  have hnow := (selected_port_kept_iff hboot (by decide) hrun hselected hlater hkeeps
    (by decide)).1
  rw [hrank, hports] at hnow
  exact ⟨s₀, s, t, hboot, hrun, hselected, hlater, hnow⟩

end CwKeyer
