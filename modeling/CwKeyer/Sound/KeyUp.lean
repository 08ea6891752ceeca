import CwKeyer.Sound.OneVoice

/-!
# The end of a stream

Once the key is up, every tick brings the stream nearer to its end, as long
as the key stays up: the release runs out, then the timer counts. So the
sink is stopped after 100 ticks at most, whatever else happens
(`key_up_ends`). A sink that did not open never counts: its timer runs on.
-/

namespace CwKeyer

/-! ## The sidetone -/

def SidetoneAct.isTick : SidetoneAct → Bool
  | .tick => true
  | _ => false

namespace Sidetone

variable {s s' : Sidetone} {a : SidetoneAct}

/-- Ticks until the sink is stopped. -/
def ticksLeft (s : Sidetone) : Nat :=
  match s.voice with
  | .key timer _ =>
      if s.released then Sound.maxIdleTicks - (timer.idleTicks + 1) + 1
      else (s.stop.getD 0 + s.releaseSamples - s.generated) / timer.numSamples.toNat
        + Sound.maxIdleTicks
  | _ => 0

/-- A stream, if there is one, is open and its key is up. -/
def Fading (s : Sidetone) : Prop :=
  ∀ timer opened, s.voice = .key timer opened →
    opened = true ∧ 0 < timer.numSamples ∧ s.stop.isSome = true

/-- The key does not go down, or not for a sidetone that is switched on. -/
def NoKeyDown (s : Sidetone) (a : SidetoneAct) (_ : Sidetone) : Prop :=
  ∀ opened, a = .keyDown opened → s.enabled = false

theorem ticksLeft_of_voice (h : ∀ timer opened, s.voice ≠ .key timer opened) : s.ticksLeft = 0 := by
  unfold ticksLeft
  split
  case h_1 timer opened hvoice => exact absurd hvoice (h timer opened)
  case h_2 => rfl

theorem fading_of_voice (h : ∀ timer opened, s.voice ≠ .key timer opened) : s.Fading :=
  fun timer opened hvoice => absurd hvoice (h timer opened)

theorem ticksLeft_key {timer : PushTimer} {opened : Bool} (hvoice : s.voice = .key timer opened)
    {x : Nat} (hstop : s.stop = some x) :
    s.ticksLeft = if x + s.releaseSamples < s.generated then
        Sound.maxIdleTicks - (timer.idleTicks + 1) + 1
      else (x + s.releaseSamples - s.generated) / timer.numSamples.toNat + Sound.maxIdleTicks := by
  rw [ticksLeft, hvoice, released, hstop]
  simp

theorem ticksLeft_pos (h : s.Fading) {timer : PushTimer} {opened : Bool}
    (hvoice : s.voice = .key timer opened) : 0 < s.ticksLeft := by
  obtain ⟨x, hstop⟩ := Option.isSome_iff_exists.mp (h timer opened hvoice).2.2
  rw [ticksLeft_key hvoice hstop]
  split_ifs
  · exact Nat.succ_pos _
  · exact Nat.lt_add_left _ (by decide)

/-- A step that leaves the stream alone. -/
theorem Fading.of_same (h : s.Fading) (hvoice : s'.voice = s.voice)
    (hstream : (∃ timer opened, s.voice = .key timer opened) →
      s'.stop = s.stop ∧ s'.generated = s.generated ∧ s'.releaseSamples = s.releaseSamples) :
    s'.Fading ∧ 0 + s'.ticksLeft ≤ s.ticksLeft := by
  by_cases hkey : ∃ timer opened, s.voice = .key timer opened
  · obtain ⟨hstop, hgenerated, hrelease⟩ := hstream hkey
    obtain ⟨timer, opened, hkey⟩ := hkey
    obtain ⟨hopen, hpos, hup⟩ := h timer opened hkey
    obtain ⟨x, hx⟩ := Option.isSome_iff_exists.mp hup
    refine ⟨?_, ?_⟩
    · intro timer opened hkey'
      rw [hstop]
      exact h timer opened (hvoice.symm.trans hkey')
    · rw [ticksLeft_key (hvoice.trans hkey) (hstop.trans hx), ticksLeft_key hkey hx, hgenerated,
        hrelease, Nat.zero_add]
  · have hsilent (timer : PushTimer) (opened : Bool) : s'.voice ≠ .key timer opened := by
      rw [hvoice]
      exact fun hkey' => hkey ⟨timer, opened, hkey'⟩
    rw [ticksLeft_of_voice hsilent]
    exact ⟨fading_of_voice hsilent, Nat.zero_le _⟩

/-- A tick is one of those that are left: the release gets shorter by a
chunk, or the timer counts. -/
theorem Fading.tick (h : s.Fading) (hstep : s.step .tick = some s') :
    s'.Fading ∧ 1 + s'.ticksLeft ≤ s.ticksLeft := by
  simp only [Sidetone.step] at hstep
  split at hstep
  case h_1 timer hvoice =>
    obtain ⟨-, hpos, hup⟩ := h timer true hvoice
    obtain ⟨x, hstop⟩ := Option.isSome_iff_exists.mp hup
    let s₁ : Sidetone := { s with generated := s.generated + timer.numSamples.toNat }
    let s₂ : Sidetone := { s₁ with voice := s₁.ticked timer }
    obtain rfl : s₂ = s' := Option.some.inj hstep
    have hreleased : s₁.released
        = decide (x + s.releaseSamples < s.generated + timer.numSamples.toNat) := by
      show s.stop.any _ = _
      rw [hstop]
      rfl
    have hkey {idleTicks : Nat} (hvoice' : s₂.voice = .key ⟨timer.numSamples, idleTicks⟩ true) :
        s₂.Fading ∧ s₂.ticksLeft = if x + s.releaseSamples < s₁.generated then
            Sound.maxIdleTicks - (idleTicks + 1) + 1
          else (x + s.releaseSamples - s₁.generated) / timer.numSamples.toNat
            + Sound.maxIdleTicks := by
      refine ⟨?_, ticksLeft_key hvoice' hstop⟩
      intro timer' opened hkey
      obtain ⟨rfl, rfl⟩ := Voice.key.inj (hvoice'.symm.trans hkey)
      exact ⟨rfl, hpos, hup⟩
    rw [ticksLeft_key hvoice hstop]
    by_cases hover : x + s.releaseSamples < s.generated + timer.numSamples.toNat
    · rw [decide_eq_true hover] at hreleased
      by_cases hlast : timer.idleTicks + 1 ≥ Sound.maxIdleTicks
      · have hsilent : s₂.voice = .silent := by
          show s₁.ticked timer = _
          rw [Sidetone.ticked, if_pos hreleased, if_pos hlast]
        have hno (timer : PushTimer) (opened : Bool) : s₂.voice ≠ .key timer opened := by
          rw [hsilent]
          intro hkey
          cases hkey
        rw [ticksLeft_of_voice hno]
        refine ⟨fading_of_voice hno, ?_⟩
        split_ifs
        · omega
        · exact Nat.le_add_left _ _
      · have hcounts : s₂.voice = .key ⟨timer.numSamples, timer.idleTicks + 1⟩ true := by
          show s₁.ticked timer = _
          rw [Sidetone.ticked, if_pos hreleased, if_neg hlast]
        obtain ⟨hfading, hleft⟩ := hkey hcounts
        rw [hleft, if_pos hover]
        refine ⟨hfading, ?_⟩
        have hmax : Sound.maxIdleTicks = 100 := rfl
        split_ifs
        · omega
        · exact (show _ ≤ Sound.maxIdleTicks by omega).trans (Nat.le_add_left ..)
    · have hsounds : s₂.voice = .key ⟨timer.numSamples, 0⟩ true := by
        show s₁.ticked timer = _
        rw [Sidetone.ticked, hreleased, if_neg (by simpa using hover)]
      obtain ⟨hfading, hleft⟩ := hkey hsounds
      have hchunk : 0 < timer.numSamples.toNat := by omega
      have hfits : timer.numSamples.toNat ≤ x + s.releaseSamples - s.generated := by omega
      have hrest : x + s.releaseSamples - s₁.generated
          = x + s.releaseSamples - s.generated - timer.numSamples.toNat := (Nat.sub_sub ..).symm
      rw [hleft, if_neg hover, if_neg (by omega), hrest, Nat.div_eq_sub_div hchunk hfits]
      exact ⟨hfading, by omega⟩
  case h_2 timer hvoice =>
    obtain ⟨hopen, -⟩ := h timer false hvoice
    cases hopen
  case h_3 => cases hstep

theorem Fading.step (h : s.Fading) (hstep : sidetoneMachine.step s a = some s')
    (hup : s.NoKeyDown a s') :
    s'.Fading ∧ (if a.isTick then 1 else 0) + s'.ticksLeft ≤ s.ticksLeft := by
  cases a with
  | tick => exact h.tick hstep
  | configure sampleRate releaseSamples buffer =>
      obtain rfl := Option.some.inj hstep
      exact ⟨fading_of_voice nofun, Nat.zero_le _⟩
  | enable enable =>
      obtain rfl := Option.some.inj hstep
      exact h.of_same rfl fun _ => ⟨rfl, rfl, rfl⟩
  | play duration =>
      simp only [sidetoneMachine, Sidetone.step] at hstep
      split_ifs at hstep
      · obtain ⟨samples, -, rfl⟩ := Option.map_eq_some_iff.mp hstep
        exact ⟨fading_of_voice nofun, Nat.zero_le _⟩
      · obtain rfl := Option.some.inj hstep
        exact h.of_same rfl fun _ => ⟨rfl, rfl, rfl⟩
  | keyDown opened =>
      have hoff : ¬s.enabled = true := by simp [hup opened rfl]
      obtain rfl := Option.some.inj ((if_neg hoff).symm.trans hstep)
      exact h.of_same rfl fun _ => ⟨rfl, rfl, rfl⟩
  | keyUp =>
      obtain rfl := Option.some.inj hstep
      refine h.of_same rfl ?_
      rintro ⟨timer, opened, hvoice⟩
      obtain ⟨x, hstop⟩ := Option.isSome_iff_exists.mp (h timer opened hvoice).2.2
      simp [hstop]

theorem Fading.run {acts : List SidetoneAct} (h : s.Fading)
    (hup : sidetoneMachine.Along NoKeyDown s acts) (hrun : sidetoneMachine.run s acts = some s') :
    s'.Fading ∧ acts.countP SidetoneAct.isTick + s'.ticksLeft ≤ s.ticksLeft :=
  Machine.run_countP (fun _ _ _ h hup hstep => h.step hstep hup) h hup hrun

end Sidetone

/-! ## The player -/

variable {K : Type} [Field K] [LinearOrder K] [IsStrictOrderedRing K] [FloorRing K] {pi : K}
  {sin : K → K} {p p₀ p' : SoundPlayer K} {a : PlayerAct K}

/-- No request to start is delivered to a sound that is switched on. -/
def SoundPlayer.NoKeyDown (p : SoundPlayer K) (a : PlayerAct K) (_ : SoundPlayer K) : Prop :=
  ∀ opened, a = .deliver opened → p.queue.head? = some .startCwRequested → p.sound.enabled = false

def PlayerAct.isTick : PlayerAct K → Bool
  | .tick _ => true
  | _ => false

theorem fading_step (h : PlayerInv sin p) (hfading : (p.sidetone sin).Fading)
    (hup : p.NoKeyDown a p') (hstep : (player pi sin).step p a = some p') :
    (p'.sidetone sin).Fading
      ∧ (if a.isTick then 1 else 0) + (p'.sidetone sin).ticksLeft ≤ (p.sidetone sin).ticksLeft := by
  obtain ⟨-, hrun, -⟩ := h.step hstep
  cases a with
  | deliver opened =>
      cases hqueue : p.queue with
      | nil =>
          rw [deliver_nil hqueue] at hstep
          cases hstep
      | cons request queue =>
          rw [SoundPlayer.asks, hqueue] at hrun
          have hdelivered := (Machine.run_singleton ..).symm.trans hrun
          cases request with
          | startCwRequested =>
              refine hfading.step hdelivered fun _ _ => ?_
              exact hup opened rfl (by rw [hqueue]; rfl)
          | playRequested | stopCwRequested =>
              refine hfading.step hdelivered fun _ hkey => ?_
              cases hkey
  | resetSound config =>
      refine hfading.run ?_ hrun
      refine Machine.Along.mono ?_ (Machine.Along.of_forall (p := fun a => ∀ opened, a ≠ .keyDown opened) ?_)
      · exact fun s a s' hno opened hkey => absurd hkey (hno opened)
      · simp [SoundPlayer.asks]
  | setEnabled | tick =>
      refine hfading.step ((Machine.run_singleton ..).symm.trans hrun) fun _ hkey => ?_
      cases hkey
  | emit | read | lost =>
      obtain heq : p.sidetone sin = p'.sidetone sin := Option.some.inj hrun
      rw [← heq]
      exact ⟨hfading, (Nat.zero_add _).le⟩

variable {queue : List SoundRequest} {config : SoundConfig K}

/-- **Key up ends the stream.** When the key of an open stream is up and
does not go down again, at most 100 ticks follow, fewer as long as the
timer runs, over every interleaving of requests, reads, resets and
failures of the sink. -/
theorem key_up_ends (h : (SoundPlayer.constructed queue).resetSound pi config = some p₀)
    {before as : List (PlayerAct K)} (hbefore : (player pi sin).run p₀ before = some p)
    {timer : PushTimer} (htimer : p.sound.pushTimer = some timer)
    (hopen : p.sound.sinkDevice = true)
    (hkey : ∀ g ∈ p.sound.cwGenerator, g.stopping = true)
    (hup : (player pi sin).Along SoundPlayer.NoKeyDown p as)
    (hrun : (player pi sin).run p as = some p') :
    as.countP PlayerAct.isTick + (if p'.sound.pushTimer.isSome then 1 else 0)
      ≤ Sound.maxIdleTicks := by
  have hinv := (player_projects.run (playerInv_started sin h).1 hbefore).1
  obtain ⟨g, stop, n, htuned⟩ := hinv.tuned
  have hvoice : (p.sidetone sin).voice = .key timer true := by
    rw [← hopen]
    exact voice_key htimer
  have hstopped : stop.isSome = true := hkey _ htuned.generator
  obtain ⟨x, rfl⟩ := Option.isSome_iff_exists.mp hstopped
  have hstop : (p.sidetone sin).stop = some x := by rw [sidetone_eq htuned]
  have hchunk : timer.numSamples = 882 := hinv.chunk timer htimer
  have hfading : (p.sidetone sin).Fading := by
    intro timer' opened hvoice'
    obtain ⟨rfl, rfl⟩ := Voice.key.inj (hvoice.symm.trans hvoice')
    exact ⟨rfl, by omega, by rw [hstop]; rfl⟩
  have hleft : (p.sidetone sin).ticksLeft ≤ Sound.maxIdleTicks := by
    have hgenerated : (p.sidetone sin).generated = n := by rw [sidetone_eq htuned]
    have hrelease : (p.sidetone sin).releaseSamples = 220 := congrArg Int.toNat htuned.ramp
    have hle : x ≤ n := htuned.stop_le x rfl
    have hshort : (x + 220 - n) / 882 = 0 := Nat.div_eq_of_lt (by omega)
    rw [Sidetone.ticksLeft_key hvoice hstop, hgenerated, hrelease, hchunk]
    split_ifs
    · have hmax : Sound.maxIdleTicks = 100 := rfl
      omega
    · exact (congrArg (· + Sound.maxIdleTicks) hshort).le.trans (Nat.zero_add _).le
  obtain ⟨⟨-, hfading'⟩, hcount⟩ := Machine.run_countP
    (I := fun p => PlayerInv sin p ∧ (p.sidetone sin).Fading) (c := PlayerAct.isTick)
    (m := fun p => (p.sidetone sin).ticksLeft)
    (fun p a p' hp hpup hstep => by
      obtain ⟨hfading, hle⟩ := fading_step hp.1 hp.2 hpup hstep
      exact ⟨⟨(hp.1.step hstep).1, hfading⟩, hle⟩) ⟨hinv, hfading⟩ hup hrun
  split_ifs with hrunning
  · obtain ⟨timer', htimer'⟩ := Option.isSome_iff_exists.mp hrunning
    have hpos := Sidetone.ticksLeft_pos hfading' (voice_key htimer')
    omega
  · omega

theorem key_up_ends_tick : ∃ p : SoundPlayer ℝ,
    (player Real.pi Real.sin).run (SoundPlayer.started Real.pi ⟨650, 1 / 2, true, true⟩)
        [.emit .startCwRequested, .emit .stopCwRequested, .deliver true, .deliver true] = some p
      ∧ ∀ as p', (player Real.pi Real.sin).Along SoundPlayer.NoKeyDown p as →
        (player Real.pi Real.sin).run p as = some p' →
        as.countP PlayerAct.isTick + (if p'.sound.pushTimer.isSome then 1 else 0) ≤ 100 := by
  obtain ⟨p, hbefore, htimer, hopen, hkey⟩ : ∃ p : SoundPlayer ℝ,
      (player Real.pi Real.sin).run (SoundPlayer.started Real.pi ⟨650, 1 / 2, true, true⟩)
          [.emit .startCwRequested, .emit .stopCwRequested, .deliver true, .deliver true] = some p
        ∧ p.sound.pushTimer = some ⟨882, 0⟩ ∧ p.sound.sinkDevice = true
        ∧ p.sound.cwGenerator.map CwGenerator.stopping = some true := ⟨_, rfl, rfl, rfl, rfl⟩
  refine ⟨p, hbefore, fun as p' hup hrun => ?_⟩
  refine key_up_ends (started_eq rfl) hbefore htimer hopen ?_ hup hrun
  intro g hg
  rw [Option.mem_def.mp hg] at hkey
  exact Option.some.inj hkey

end CwKeyer
