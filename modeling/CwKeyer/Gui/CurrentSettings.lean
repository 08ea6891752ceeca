import CwKeyer.Gui.Boot
import CwKeyer.Gui.Setters
import CwKeyer.Machine

/-!
# Components run on the current settings

A setter updates a member, the settings file and a running component one
after the other. `SettingsApplied` is the specification: the calls return,
the components run on the current settings, and a settings file that can
be read and written holds them. It holds of a run exactly if no server IP
with a NUL character is accepted (`settings_applied_iff`): `putValueString`
passes on the `c_str()` of a string, so that the remote client is started
with the whole text while the settings file has what precedes the NUL.
-/

namespace CwKeyer

/-- The file system works during a call. -/
def GuiAct.filesOk : GuiAct → Bool
  | .call _ env => env.filesOk
  | .connectionLost => true

namespace GuiConnector

/-- A call returns, unless a file cannot be opened. -/
def Returns (fuel : Nat) (g : GuiConnector) (c : GuiCall) : Prop :=
  perform fuel g c ≠ .error .outOfFuel ∧ (g.env.filesOk = true → ∃ g', perform fuel g c = .ok g')

/-- The specification, after a construction with `env`. -/
structure SettingsApplied (fuel : Nat) (env : Environment) (g : GuiConnector) (as : List GuiAct) :
    Prop where
  returns : ∀ t c env', (guiConnector fuel).Reachable g t → c.offered = true →
    Returns fuel { t with env := env' } c
  current : g.Current ∧ (guiConnector fuel).Along (fun _ _ g' => g'.Current) g as
  readsBack : env.filesOk = true →
    g.ReadsBack ∧ ((guiConnector fuel).restrict GuiAct.filesOk).Along (fun _ _ g' => g'.ReadsBack) g as

variable {fuel : Nat} {g g' : GuiConnector} {a : GuiAct}

theorem returns_of_inUse {c : GuiCall} (hfuel : 2 ≤ fuel) (h : InUse g) (hoffered : c.offered = true) :
    Returns fuel g c := by
  obtain ⟨n, rfl⟩ := Nat.exists_eq_add_of_le' hfuel
  have hspec := perform_spec n (fun hok : g.env.filesOk = true => hok) h hoffered g.env
  constructor
  · exact fun hfuel => hspec.excused hfuel
  · intro hok
    cases hcall : perform (n + 2) g c with
    | ok g' => exact ⟨g', rfl⟩
    | error e =>
        have hexcused := hspec.excused hcall
        cases e with
        | threw what => exact absurd hok hexcused
        | outOfFuel => exact hexcused.elim

/-- One step of a run. -/
theorem step_spec (hfuel : 2 ≤ fuel) (h : InUse g) (hstep : step fuel g a = some g') :
    InUse g' ∧ (a.filesOk = true → g.ReadsBack → (g'.ReadsBack ↔ g.Storable a = true)) := by
  cases a with
  | call c env =>
      obtain ⟨hoffered, hstep⟩ := Option.ite_none_right_eq_some.mp hstep
      obtain ⟨n, rfl⟩ := Nat.exists_eq_add_of_le' hfuel
      have hin : InUse { g with env := env } := ⟨h.modeValid, h.current.keyer, h.current.decoder, h.current.remote⟩
      have hspec := perform_spec n (fun hok : env.filesOk = true => hok) hin hoffered env
      cases hcall : perform (n + 2) { g with env := env } c with
      | error e =>
          rw [hcall] at hstep
          cases hstep
      | ok g₁ =>
          rw [hcall] at hstep
          obtain rfl := Option.some.inj hstep
          obtain ⟨hin', hreads⟩ := hspec.ok hcall
          exact ⟨hin', fun hok hread => hreads hok (hread.of_eq rfl rfl)⟩
  | connectionLost =>
      obtain rfl := Option.some.inj hstep
      refine ⟨⟨h.modeValid, h.current.keyer, h.current.decoder, nofun⟩, ?_⟩
      intro _ hread
      exact iff_of_true (hread.of_eq rfl rfl) rfl

/-- Whatever is done and whatever fails, the components run on the current
settings. -/
theorem reachable_inUse (hfuel : 2 ≤ fuel) (h : InUse g) (hreach : (guiConnector fuel).Reachable g g') :
    InUse g' :=
  hreach.invariant h fun _ _ _ hin hstep => (step_spec hfuel hin hstep).1

theorem along_current (hfuel : 2 ≤ fuel) (h : InUse g) (as : List GuiAct) :
    (guiConnector fuel).Along (fun _ _ g' => g'.Current) g as := by
  refine Machine.along_of_invariant (P := fun _ _ _ => True) (I := InUse) ?_ h ?_
  · intro s a s' hin _ hstep
    have hin' := (step_spec hfuel hin hstep).1
    exact ⟨hin', hin'.current⟩
  · exact Machine.Along.of_forall fun _ _ => trivial

/-- While the file system works, the settings file is current in the runs
that store every server IP whole. -/
theorem along_readsBack_iff (hfuel : 2 ≤ fuel) (h : InUse g) (hread : g.ReadsBack) (as : List GuiAct) :
    ((guiConnector fuel).restrict GuiAct.filesOk).Along (fun _ _ g' => g'.ReadsBack) g as ↔
      ((guiConnector fuel).restrict GuiAct.filesOk).Along (fun g a _ => g.Storable a = true) g as := by
  refine Machine.along_congr (I := fun g => InUse g ∧ g.ReadsBack) ?_ ?_ ⟨h, hread⟩
  · rintro s a s' ⟨hin, hs⟩ hstep
    obtain ⟨hok, hstep⟩ := Machine.restrict_step.mp hstep
    exact (step_spec hfuel hin hstep).2 hok hs
  · rintro s a s' ⟨hin, hs⟩ hstorable hstep
    obtain ⟨hok, hstep⟩ := Machine.restrict_step.mp hstep
    obtain ⟨hin', hreads⟩ := step_spec hfuel hin hstep
    exact ⟨hin', (hreads hok hs).mpr hstorable⟩

/-- The settings are applied in exactly the runs in which no server IP with
a NUL character is accepted. -/
theorem settings_applied_iff (hfuel : 2 ≤ fuel) {audioDevices commPorts : Nat} {keyer : Keyer}
    {file : ConfigFile} {env : Environment} (hboot : boot audioDevices commPorts keyer file env = .ok g)
    (as : List GuiAct) : SettingsApplied fuel env g as ↔ (env.filesOk = true →
      ((guiConnector fuel).restrict GuiAct.filesOk).Along (fun g a _ => g.Storable a = true) g as) := by
  obtain ⟨hin, hread⟩ := (boot_spec fun hok : env.filesOk = true => hok).ok hboot
  constructor
  · intro happlied hok
    exact (along_readsBack_iff hfuel hin (hread hok) as).mp (happlied.readsBack hok).2
  · intro hstorable
    refine ⟨?_, ⟨hin.current, along_current hfuel hin as⟩, ?_⟩
    · intro t c env' hreach hoffered
      have ht := reachable_inUse hfuel hin hreach
      refine returns_of_inUse hfuel ?_ hoffered
      exact ⟨ht.modeValid, ht.current.keyer, ht.current.decoder, ht.current.remote⟩
    · intro hok
      exact ⟨hread hok, (along_readsBack_iff hfuel hin (hread hok) as).mpr (hstorable hok)⟩

/-- After a start without a settings file. -/
def firstStart : GuiConnector where
  remoteMoxDelayMs := 0
  audioDevices := 0
  commPorts := 0
  keyer := { ditTime := 48, dahTime := 144, spaceTime := 48, lastPressed := .dit, lastQueued := .dit }
  file := some [(cfgRemoteConnected, .bool false), (cfgRemoteIp, .string defaultRemoteIp),
    (cfgRemotePort, .number defaultRemotePort), (cfgMode, .number defaultMode),
    (cfgFarnsWorth, .number defaultFarnsWorth), (cfgWpm, .number defaultWpm),
    (cfgFrequency, .number defaultFrequency), (cfgAmplitude, .number defaultAmplitude)]
  env := {}

theorem boot_firstStart :
    boot 0 0 { lastPressed := .dit, lastQueued := .dit } none {} = .ok firstStart :=
  rfl

theorem settings_applied_firstStart :
    SettingsApplied 2 {} firstStart
      [.call (.setWpm 20) {}, .call (.setServerIp "10.0.0.1") {}, .connectionLost] :=
  (settings_applied_iff (by decide) boot_firstStart _).mpr fun _ => by decide

/-- What follows the NUL is used but not stored. -/
theorem server_ip_cut_short :
    boot 0 0 { lastPressed := .dit, lastQueued := .dit } none {} = .ok firstStart ∧
    ¬ SettingsApplied 2 {} firstStart [.call (.setServerIp "10.0.0.1\x00x") {}] := by
  refine ⟨boot_firstStart, ?_⟩
  intro happlied
  obtain ⟨hread, -⟩ := (happlied.readsBack rfl).2 _ rfl
  have hback : (.ok "10.0.0.1" : Except String String) = .ok "10.0.0.1\x00x" := hread .serverIp
  exact absurd (Except.ok.inj hback) (by decide)

end GuiConnector

end CwKeyer
