import CwKeyer.Gui.Loading

/-!
# Construction

What is known when `initConnector` has returned, whatever the settings
file held: every component runs on the current settings
(`initConnector_spec`), and with a working file system the settings file
holds them (`boot_spec`).
-/

namespace CwKeyer

namespace GuiConnector

open CwKeyer.Configuration

variable {ok : Prop} {g : GuiConnector}

/-! ## `initConnector` -/

theorem resetSound_spec (hok : ok → g.env.filesOk = true) :
    Meets (Excused ok)
      (fun g' => (∃ soundEnabled files, g' =
          { g with soundEnabled := soundEnabled, env := { g.env with files := files } }) ∧
        (ok → g'.env.filesOk = true))
      g.resetSound := by
  unfold resetSound
  refine Meets.bind (get_spec hok fun _ => readValue_default) ?_
  rintro ⟨has, g₁⟩ ⟨⟨files, rfl⟩, hfiles, -⟩
  refine Meets.ite (fun _ => ?_) fun _ => Meets.pure ⟨⟨false, files, rfl⟩, hfiles⟩
  refine Meets.bind (get_spec hfiles fun _ => readValue_default) ?_
  rintro ⟨enabled, g₂⟩ ⟨⟨files', rfl⟩, hfiles', -⟩
  exact Meets.pure ⟨⟨enabled, files', rfl⟩, hfiles'⟩

/-- Whatever the components were before. -/
theorem initConnector_spec (hok : ok → g.env.filesOk = true) (hmode : ModeValid g.mode) :
    Meets (Excused ok) (fun g' => InUse g' ∧ (ok → g.ReadsBack → g'.ReadsBack)) g.initConnector := by
  unfold initConnector
  obtain ⟨keyer, cwDecoder, clock, hreset, hkeyer, -⟩ := g.resetKeyer_spec hmode
  rw [hreset]
  refine Meets.bind (resetSound_spec (by exact hok)) ?_
  rintro g₁ ⟨⟨soundEnabled, files, rfl⟩, hfiles⟩
  obtain ⟨cwDecoder', clock', hreset', hdecoder⟩ := resetCwDecoder_spec
    { g with
      keyer := keyer, cwDecoder := cwDecoder, soundEnabled := soundEnabled
      env := { g.env with files := files, clock := clock } }
  rw [hreset']
  refine Meets.mono (resetRemotes_inUse ?_ ?_ ?_ ?_) ?_
  · exact hfiles
  · exact hmode
  · exact hkeyer
  · exact hdecoder
  · rintro g' ⟨hin, hsame⟩
    exact ⟨hin, fun h hread s => (hsame h s).mpr (hread.of_eq rfl rfl s)⟩

theorem boot_spec {audioDevices commPorts : Nat} {keyer : Keyer} {file : ConfigFile}
    {env : Environment} (hok : ok → env.filesOk = true) :
    Meets (Excused ok) (fun g => InUse g ∧ (ok → g.ReadsBack))
      (boot audioDevices commPorts keyer file env) := by
  unfold boot
  refine Meets.bind (loadConfiguration_spec (by exact hok) rfl rfl rfl) ?_
  intro g₁ hconfigured
  refine (initConnector_spec hconfigured.files hconfigured.modeValid).mono ?_
  rintro g ⟨hin, hread⟩
  exact ⟨hin, fun h => hread h (hconfigured.readsBack h)⟩

end GuiConnector

end CwKeyer
