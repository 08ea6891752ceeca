import CwKeyer.Gui.Steps

/-!
# Setters

Every setter returns, leaves the components on the current settings, and,
while the file system works, leaves a settings file that reads back. The
one exception is `setServerIp` (`setServerIp_spec`). `perform_spec` puts
them together.
-/

namespace CwKeyer

namespace GuiConnector

open CwKeyer.Configuration

variable {ok : Prop} {g g' : GuiConnector}

/-- What read back before the call reads back afterwards. -/
structure Applied (ok : Prop) (g g' : GuiConnector) : Prop where
  inUse : InUse g'
  readsBack : ok → g.ReadsBack → g'.ReadsBack

theorem Applied.refl (h : InUse g) : Applied ok g g := ⟨h, fun _ hread => hread⟩

/-! ## The remote client -/

/-- The keyer and the decoder are not told of the setting, the remote client
is. -/
theorem putInt_resetRemotes {n : Int} {s : Setting} {g₁ : GuiConnector}
    (hassigned : Assigned n g s g₁) (hint : InInt n) (hok : ok → g.env.filesOk = true)
    (hmode : ModeValid g₁.mode) (hkeyer : KeyerCurrent g₁.keyer g₁.wpm g₁.mode)
    (hdecoder : DecoderCurrent g₁.cwDecoder g₁.farnsWorth g₁.wpm) :
    Meets (Excused ok) (Applied ok g) (g₁.put (putValueInt s.key n) >>= resetRemotes) := by
  refine Meets.bind (putInt_spec hassigned hint hok) ?_
  rintro g₂ ⟨⟨file, files, rfl⟩, hfiles, hreads⟩
  refine (resetRemotes_inUse hfiles hmode hkeyer hdecoder).mono ?_
  rintro g' ⟨hin, hsame⟩
  exact ⟨hin, fun h hread s => (hsame h s).mpr (hreads h hread s)⟩

theorem setRemotePort_spec (hok : ok → g.env.filesOk = true) (h : InUse g) (port : Int) :
    Meets (Excused ok) (Applied ok g) (g.setRemotePort port) := by
  unfold setRemotePort
  refine Meets.ite (fun _ => Meets.pure (.refl h)) fun hrange => ?_
  refine Meets.ite (fun _ => Meets.pure (.refl h)) fun _ => ?_
  have hint : InInt port := ⟨by omega, by omega⟩
  exact putInt_resetRemotes .remotePort hint hok h.modeValid h.current.keyer h.current.decoder

theorem setRemoteMoxDelayMs_spec (hok : ok → g.env.filesOk = true) (h : InUse g) {delayMs : Int}
    (hhigh : delayMs < 2 ^ 31) :
    Meets (Excused ok) (Applied ok g) (g.setRemoteMoxDelayMs delayMs) := by
  unfold setRemoteMoxDelayMs
  refine Meets.ite (fun _ => Meets.pure (.refl h)) fun hrange => ?_
  refine Meets.ite (fun _ => Meets.pure (.refl h)) fun _ => ?_
  have hint : InInt delayMs := ⟨by omega, hhigh⟩
  exact putInt_resetRemotes .remoteMoxDelayMs hint hok h.modeValid h.current.keyer h.current.decoder

/-- The server IP is written by its `c_str()`: it reads back exactly if that
is all of it. -/
theorem setServerIp_spec (hok : ok → g.env.filesOk = true) (h : InUse g) (ip : String) :
    Meets (Excused ok)
      (fun g' => InUse g' ∧ (ok → g.ReadsBack → (g'.ReadsBack ↔
        ((trimmed ip).isEmpty = true ∨ g.serverIp = trimmed ip ∨ cStr (trimmed ip) = trimmed ip))))
      (g.setServerIp ip) := by
  unfold setServerIp
  refine Meets.ite (fun hempty => ?_) fun hempty => ?_
  · exact Meets.pure ⟨h, fun _ hread => iff_of_true hread (.inl hempty)⟩
  refine Meets.ite (fun hsame => ?_) fun hnew => ?_
  · exact Meets.pure ⟨h, fun _ hread => iff_of_true hread (.inr (.inl hsame))⟩
  refine Meets.bind (putSetting_spec (s := .serverIp) hok) ?_
  rintro g₁ ⟨⟨file, files, rfl⟩, hfiles, hstored⟩
  refine (resetRemotes_inUse hfiles h.modeValid h.current.keyer h.current.decoder).mono ?_
  rintro g' ⟨hin, hsame⟩
  refine ⟨hin, ?_⟩
  intro h hread
  obtain ⟨hip, hothers⟩ := hstored h
  have hreadIp : getValueString cfgRemoteIp file {} = .ok (cStr (trimmed ip)) := by
    rw [getValueString, readValue_eq rfl]
    simp only [Setting.key] at hip
    rw [hip]
    rfl
  constructor
  · intro hread'
    have hback : getValueString cfgRemoteIp file {} = .ok (trimmed ip) :=
      (hsame h .serverIp).mp (hread' .serverIp)
    rw [hreadIp] at hback
    exact .inr (.inr (Except.ok.inj hback))
  · rintro (hempty' | hsame' | hwhole) s
    · exact absurd hempty' hempty
    · exact absurd hsame' hnew
    · refine (hsame h s).mpr ?_
      have hback := hread s
      cases s with
      | serverIp =>
          show getValueString cfgRemoteIp file {} = .ok (trimmed ip)
          rw [hreadIp, hwhole]
      | _ => exact (hothers _ (by decide)).mpr hback

theorem setRemoteConnected_inUse (hok : ok → g.env.filesOk = true) (h : InUse g) (connected : Bool) :
    Meets (Excused ok) (Applied ok g) (g.setRemoteConnected connected) := by
  refine (setRemoteConnected_spec hok connected fun _ => h.current.remote).mono ?_
  rintro g' ⟨honly, hremote⟩
  have hreads (h : ok) := honly.readsBack h
  obtain ⟨remote, file, files, connects, rfl⟩ := honly.frame
  refine ⟨⟨h.modeValid, h.current.keyer, h.current.decoder, hremote⟩, ?_⟩
  intro h hread s
  exact (hreads h s).mpr (hread s)

/-! ## The keyer and the decoder -/

theorem setMode_spec (hok : ok → g.env.filesOk = true) (h : InUse g) {value : Int}
    (hvalue : ModeValid value) : Meets (Excused ok) (Applied ok g) (g.setMode value) := by
  unfold setMode
  refine Meets.ite (fun _ => Meets.pure (.refl h)) fun _ => ?_
  have hint : InInt value := by
    rcases hvalue with rfl | rfl | rfl <;> decide
  refine Meets.bind (putInt_spec .mode hint hok) ?_
  rintro g₁ ⟨⟨file, files, rfl⟩, -, hreads⟩
  obtain ⟨keyer, cwDecoder, clock, hreset, hkeyer, hdecoder⟩ := resetKeyer_spec
    { g with mode := value, file := file, env := { g.env with files := files } } hvalue
  rw [hreset]
  refine Meets.pure ⟨⟨hvalue, hkeyer, hdecoder, h.current.remote⟩, fun h hread => ?_⟩
  exact (hreads h hread).of_eq rfl rfl

theorem setEnabledCwDecoder_spec (h : InUse g) (enabled : Bool) :
    Applied ok g (g.setEnabledCwDecoder enabled) := by
  cases enabled with
  | true =>
      obtain ⟨cwDecoder, clock, hstart, hdecoder⟩ := g.startCwDecoder_spec
      rw [setEnabledCwDecoder, if_pos rfl, hstart]
      refine ⟨⟨h.modeValid, h.current.keyer, hdecoder, h.current.remote⟩, ?_⟩
      intro _ hread
      exact hread.of_eq rfl rfl
  | false =>
      refine ⟨⟨h.modeValid, h.current.keyer, ⟨nofun, nofun, nofun⟩, h.current.remote⟩, ?_⟩
      intro _ hread
      exact hread.of_eq rfl rfl

/-- `setFarnsWorth` with a speed that the wpm allows calls nobody. -/
theorem setFarnsWorth_low (fuel : Nat) (hok : ok → g.env.filesOk = true) {value : Int}
    (hint : InInt value) (hne : g.farnsWorth ≠ value) (hlow : value ≤ g.wpm) :
    Meets (Excused ok)
      (fun g' => (∃ cwDecoder file env, g' =
          { g with farnsWorth := value, cwDecoder := cwDecoder, file := file, env := env } ∧
            DecoderCurrent cwDecoder value g.wpm) ∧
        (ok → g'.env.filesOk = true) ∧ (ok → g.ReadsBack → g'.ReadsBack))
      (setFarnsWorth (fuel + 1) g value) := by
  rw [setFarnsWorth, if_neg hne]
  refine Meets.bind (putInt_spec .farnsWorth hint hok) ?_
  rintro g₁ ⟨⟨file, files, rfl⟩, hfiles, hreads⟩
  rw [if_neg (by simpa using hlow)]
  obtain ⟨cwDecoder, clock, hreset, hdecoder⟩ := resetCwDecoder_spec
    { g with farnsWorth := value, file := file, env := { g.env with files := files } }
  show Meets _ _ (Except.ok (resetCwDecoder _))
  rw [hreset]
  refine Meets.pure ⟨⟨cwDecoder, file, _, rfl, hdecoder⟩, hfiles, fun h hread => ?_⟩
  exact (hreads h hread).of_eq rfl rfl

/-- `setWpm` with a wpm that the Farnsworth speed allows calls nobody. -/
theorem setWpm_high (fuel : Nat) (hok : ok → g.env.filesOk = true) {value : Int}
    (hint : InInt value) (hmode : ModeValid g.mode) (hne : g.wpm ≠ value)
    (hhigh : g.farnsWorth ≤ value) :
    Meets (Excused ok)
      (fun g' => (∃ keyer cwDecoder file env, g' =
          { g with wpm := value, keyer := keyer, cwDecoder := cwDecoder, file := file, env := env } ∧
            KeyerCurrent keyer value g.mode ∧ DecoderCurrent cwDecoder g.farnsWorth value) ∧
        (ok → g'.env.filesOk = true) ∧ (ok → g.ReadsBack → g'.ReadsBack))
      (setWpm (fuel + 1) g value) := by
  rw [setWpm, if_neg hne]
  refine Meets.bind (putInt_spec .wpm hint hok) ?_
  rintro g₁ ⟨⟨file, files, rfl⟩, hfiles, hreads⟩
  rw [if_neg (by simpa using hhigh)]
  obtain ⟨keyer, cwDecoder, clock, hreset, hkeyer, hdecoder⟩ := resetKeyer_spec
    { g with wpm := value, file := file, env := { g.env with files := files } } hmode
  show Meets _ _ (Except.ok (resetKeyer _))
  rw [hreset]
  refine Meets.pure ⟨⟨keyer, cwDecoder, file, _, rfl, hkeyer, hdecoder⟩, hfiles, fun h hread => ?_⟩
  exact (hreads h hread).of_eq rfl rfl

/-- `setWpm` is done after at most one call of `setFarnsWorth`. -/
theorem setWpm_spec (fuel : Nat) (hok : ok → g.env.filesOk = true) (h : InUse g) {value : Int}
    (hint : InInt value) : Meets (Excused ok) (Applied ok g) (setWpm (fuel + 2) g value) := by
  by_cases hsame : g.wpm = value
  · rw [setWpm, if_pos hsame]
    exact Meets.pure (.refl h)
  by_cases hhigh : g.farnsWorth ≤ value
  · refine (setWpm_high (fuel + 1) hok hint h.modeValid hsame hhigh).mono ?_
    rintro g' ⟨⟨keyer, cwDecoder, file, env, rfl, hkeyer, hdecoder⟩, -, hreads⟩
    exact ⟨⟨h.modeValid, hkeyer, hdecoder, h.current.remote⟩, hreads⟩
  rw [setWpm, if_neg hsame]
  refine Meets.bind (putInt_spec .wpm hint hok) ?_
  rintro g₁ ⟨⟨file, files, rfl⟩, hfiles, hreads⟩
  rw [if_pos (by simpa using hhigh)]
  -- now the wpm is the speed, and `setFarnsWorth` does not call back
  have hslower : g.farnsWorth ≠ value := fun heq => hhigh (Int.le_of_eq heq)
  have hcall := setFarnsWorth_low fuel hfiles hint hslower (Int.le_refl value)
  refine Meets.bind hcall ?_
  rintro g₂ ⟨⟨cwDecoder, file', env, rfl, -⟩, -, hreads'⟩
  obtain ⟨keyer, cwDecoder', clock, hreset, hkeyer, hdecoder⟩ := resetKeyer_spec
    { g with wpm := value, farnsWorth := value, cwDecoder := cwDecoder, file := file', env := env }
    h.modeValid
  show Meets _ _ (Except.ok (resetKeyer _))
  rw [hreset]
  refine Meets.pure ⟨⟨h.modeValid, hkeyer, hdecoder, h.current.remote⟩, fun h hread => ?_⟩
  exact (hreads' h (hreads h hread)).of_eq rfl rfl

/-- `setFarnsWorth` is done after at most one call of `setWpm`. -/
theorem setFarnsWorth_spec (fuel : Nat) (hok : ok → g.env.filesOk = true) (h : InUse g) {value : Int}
    (hint : InInt value) : Meets (Excused ok) (Applied ok g) (setFarnsWorth (fuel + 2) g value) := by
  by_cases hsame : g.farnsWorth = value
  · rw [setFarnsWorth, if_pos hsame]
    exact Meets.pure (.refl h)
  by_cases hlow : value ≤ g.wpm
  · refine (setFarnsWorth_low (fuel + 1) hok hint hsame hlow).mono ?_
    rintro g' ⟨⟨cwDecoder, file, env, rfl, hdecoder⟩, -, hreads⟩
    exact ⟨⟨h.modeValid, h.current.keyer, hdecoder, h.current.remote⟩, hreads⟩
  rw [setFarnsWorth, if_neg hsame]
  refine Meets.bind (putInt_spec .farnsWorth hint hok) ?_
  rintro g₁ ⟨⟨file, files, rfl⟩, hfiles, hreads⟩
  rw [if_pos (by simpa using hlow)]
  -- now the Farnsworth speed is the wpm, and `setWpm` does not call back
  have hfaster : g.wpm ≠ value := fun heq => hlow (Int.le_of_eq heq.symm)
  have hcall := setWpm_high fuel hfiles hint h.modeValid hfaster (Int.le_refl value)
  refine Meets.bind hcall ?_
  rintro g₂ ⟨⟨keyer, cwDecoder, file', env, rfl, hkeyer, -⟩, -, hreads'⟩
  obtain ⟨cwDecoder', clock, hreset, hdecoder⟩ := resetCwDecoder_spec
    { g with
      wpm := value, farnsWorth := value, keyer := keyer, cwDecoder := cwDecoder
      file := file', env := env }
  show Meets _ _ (Except.ok (resetCwDecoder _))
  rw [hreset]
  refine Meets.pure ⟨⟨h.modeValid, hkeyer, hdecoder, h.current.remote⟩, fun h hread => ?_⟩
  exact (hreads' h (hreads h hread)).of_eq rfl rfl

/-! ## All calls -/

/-- The server IP that a call sets is stored whole. -/
def Storable (g : GuiConnector) : GuiAct → Bool
  | .call (.setServerIp ip) _ =>
      (trimmed ip).isEmpty || g.serverIp = trimmed ip || '\x00' ∉ (trimmed ip).toList
  | _ => true

theorem inInt_of_speed {value : Int} (h : (10 ≤ value && value ≤ 50) = true) : InInt value := by
  obtain ⟨hlow, hhigh⟩ := Bool.and_eq_true_iff.mp h
  have hlow := of_decide_eq_true hlow
  have hhigh := of_decide_eq_true hhigh
  constructor <;> omega

theorem perform_spec (fuel : Nat) (hok : ok → g.env.filesOk = true) (h : InUse g) {c : GuiCall}
    (hoffered : c.offered = true) (env : Environment) :
    Meets (Excused ok)
      (fun g' => InUse g' ∧
        (ok → g.ReadsBack → (g'.ReadsBack ↔ g.Storable (.call c env) = true)))
      (perform (fuel + 2) g c) := by
  -- all calls but one keep whatever read back
  have hkeeps {x : Except Abort GuiConnector} (hx : Meets (Excused ok) (Applied ok g) x)
      (hstorable : g.Storable (.call c env) = true) : Meets (Excused ok)
      (fun g' => InUse g' ∧ (ok → g.ReadsBack → (g'.ReadsBack ↔ g.Storable (.call c env) = true))) x :=
    hx.mono fun g' happlied => ⟨happlied.inUse,
      fun hok hread => iff_of_true (happlied.readsBack hok hread) hstorable⟩
  cases c with
  | setWpm value =>
      exact hkeeps (setWpm_spec fuel hok h (inInt_of_speed hoffered)) rfl
  | setFarnsWorth value =>
      exact hkeeps (setFarnsWorth_spec fuel hok h (inInt_of_speed hoffered)) rfl
  | setMode value =>
      have hvalid : ModeValid value := by
        simpa [GuiCall.offered, ModeValid, or_assoc] using hoffered
      exact hkeeps (setMode_spec hok h hvalid) rfl
  | setEnabledCwDecoder enabled => exact hkeeps (Meets.pure (setEnabledCwDecoder_spec h enabled)) rfl
  | setRemotePort port => exact hkeeps (setRemotePort_spec hok h port) rfl
  | setRemoteMoxDelayMs delayMs =>
      have hint : delayMs < 2 ^ 31 := by
        simp only [GuiCall.offered, Bool.and_eq_true, decide_eq_true_eq] at hoffered
        exact hoffered.2
      exact hkeeps (setRemoteMoxDelayMs_spec hok h hint) rfl
  | setRemoteConnected connected => exact hkeeps (setRemoteConnected_inUse hok h connected) rfl
  | setServerIp ip =>
      refine (setServerIp_spec hok h ip).mono ?_
      rintro g' ⟨hin, hreads⟩
      refine ⟨hin, fun h hread => (hreads h hread).trans ?_⟩
      simp [Storable, cStr_eq_iff, or_assoc]

end GuiConnector

end CwKeyer
