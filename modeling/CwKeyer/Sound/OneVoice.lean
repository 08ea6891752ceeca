import CwKeyer.Projection
import CwKeyer.Sound.Sidetone

/-!
# One voice

Every run of the player is one of its sidetone (`player_one_voice`), and no
step of it uses a pointer to something that is gone (`player_step_isSome`):
whatever replaces a sink or a stream has called `stop` before, and
`initWithDevice` is called by `resetSound` alone.
-/

namespace CwKeyer

variable {K : Type} [Field K] [LinearOrder K] [FloorRing K] {sin : K → K} {p : SoundPlayer K}

/-! ## Ticks -/

section

variable {g : CwGenerator K} {stop : Option Nat} {n : Nat} {timer : PushTimer}

/-- The tick of an open stream. -/
theorem sidetone_tick (htuned : p.sound.Tuned g stop n) (htimer : p.sound.pushTimer = some timer)
    (hopen : p.sound.sinkDevice = true) :
    (p.sidetone sin).step .tick = some { p.sidetone sin with
      generated := n + timer.numSamples.toNat
      voice := Sidetone.ticked
        { p.sidetone sin with generated := n + timer.numSamples.toNat } timer } := by
  have hvoice : p.voice = .key timer true := by rw [voice_key htimer, hopen]
  rw [sidetone_eq htuned, hvoice]
  rfl

/-- The release is over in the sidetone when the generator says so. -/
theorem released_eq (htuned : p.sound.Tuned g stop n) (m : Nat) :
    Sidetone.released { p.sidetone sin with generated := m } = (g.after stop m).stopped := by
  rw [sidetone_eq htuned, ← htuned.releaseSamples]
  rfl

/-- The stream goes on. -/
theorem performs_tick_on (h : PlayerInv sin p) (htuned : p.sound.Tuned g stop n)
    (htimer : p.sound.pushTimer = some timer) (hopen : p.sound.sinkDevice = true)
    {idleTicks : Nat} (hvoice : Sidetone.ticked
      { p.sidetone sin with generated := n + timer.numSamples.toNat } timer
        = .key { timer with idleTicks := idleTicks } true) (ticks : List (PushTick K)) :
    Performs sin p { p with sound := { p.sound with
      cwGenerator := some (g.after stop (n + timer.numSamples.toNat))
      pushTimer := some { timer with idleTicks := idleTicks }
      ticks := ticks } } .tick := by
  have hbuffer : p.activeBuffer = none := h.buffer (by rw [htimer]; rfl)
  have hstop_le : ∀ x ∈ stop, x ≤ n + timer.numSamples.toNat := fun x hx =>
    (htuned.stop_le x hx).trans (Nat.le_add_right ..)
  let p' : SoundPlayer K := { p with sound := { p.sound with
    cwGenerator := some (g.after stop (n + timer.numSamples.toNat))
    pushTimer := some { timer with idleTicks := idleTicks }
    ticks := ticks } }
  have htuned' : p'.sound.Tuned g stop (n + timer.numSamples.toNat) :=
    ⟨rfl, hstop_le, htuned.rate, htuned.sampleRate, htuned.releaseSamples, htuned.ramp,
      htuned.attack, htuned.release⟩
  refine ⟨⟨⟨g, stop, _, htuned'⟩, h.sink, fun _ => ⟨rfl, (h.device hopen).2⟩, fun _ => hbuffer,
    h.pull, ?_, h.cache⟩, rfl, ?_⟩
  · rintro _ ⟨⟩
    exact h.chunk timer htimer
  rw [sidetone_tick htuned htimer hopen, sidetone_eq (p := p') htuned', hvoice, sidetone_eq htuned,
    voice_key (p := p') rfl, ← hopen]
  rfl

/-- The sink is stopped. -/
theorem performs_tick_off (h : PlayerInv sin p) (htuned : p.sound.Tuned g stop n)
    (htimer : p.sound.pushTimer = some timer) (hopen : p.sound.sinkDevice = true)
    (hvoice : Sidetone.ticked
      { p.sidetone sin with generated := n + timer.numSamples.toNat } timer = .silent)
    (ticks : List (PushTick K)) :
    Performs sin p { p with
      sound := { p.sound with
        cwGenerator := some (g.after stop (n + timer.numSamples.toNat))
        pushTimer := none
        sinkDevice := false
        ticks := ticks }
      sink := some {} } .tick := by
  have hbuffer : p.activeBuffer = none := h.buffer (by rw [htimer]; rfl)
  have hstop_le : ∀ x ∈ stop, x ≤ n + timer.numSamples.toNat := fun x hx =>
    (htuned.stop_le x hx).trans (Nat.le_add_right ..)
  let p' : SoundPlayer K := { p with
    sound := { p.sound with
      cwGenerator := some (g.after stop (n + timer.numSamples.toNat))
      pushTimer := none
      sinkDevice := false
      ticks := ticks }
    sink := some {} }
  have htuned' : p'.sound.Tuned g stop (n + timer.numSamples.toNat) :=
    ⟨rfl, hstop_le, htuned.rate, htuned.sampleRate, htuned.releaseSamples, htuned.ramp,
      htuned.attack, htuned.release⟩
  refine ⟨⟨⟨g, stop, _, htuned'⟩, rfl, nofun, nofun, ?_, nofun, h.cache⟩, rfl, ?_⟩
  · rintro _ ⟨⟩ stream hstream
    cases hstream
  · have hsilent : p'.voice = .silent := by
      rw [voice_buffer (p := p') rfl, hbuffer]
      rfl
    rw [sidetone_tick htuned htimer hopen, sidetone_eq (p := p') htuned', hvoice,
      sidetone_eq htuned, hsilent]
    rfl

theorem performs_countIdle (h : PlayerInv sin p) (htuned : p.sound.Tuned g stop n)
    (htimer : p.sound.pushTimer = some timer) (hopen : p.sound.sinkDevice = true)
    {sink : AudioSink} (hsink : p.sink = some sink) (s : Sound K) (ticks : List (PushTick K))
    (hs : s = ({ p.sound with
      cwGenerator := some (g.after stop (n + timer.numSamples.toNat))
      ticks := ticks } : Sound K).countIdle timer
        (g.after stop (n + timer.numSamples.toNat)).stopped) :
    Performs sin p { p with
      sound := s, sink := some (if s.pushTimer.isSome then sink else sink.stop) } .tick := by
  have hreleased := @released_eq K _ _ _ sin p g stop n htuned (n + timer.numSamples.toNat)
  rw [Sound.countIdle] at hs
  split_ifs at hs with hstopped hlast
  · have hvoice : Sidetone.ticked
        { p.sidetone sin with generated := n + timer.numSamples.toNat } timer = .silent := by
      rw [Sidetone.ticked, hreleased, if_pos hstopped, if_pos hlast]
    subst hs
    exact performs_tick_off h htuned htimer hopen hvoice ticks
  · have hvoice : Sidetone.ticked
        { p.sidetone sin with generated := n + timer.numSamples.toNat } timer
          = .key { timer with idleTicks := timer.idleTicks + 1 } true := by
      rw [Sidetone.ticked, hreleased, if_pos hstopped, if_neg hlast]
    subst hs
    have hon := performs_tick_on h htuned htimer hopen hvoice ticks
    rwa [hsink] at hon
  · have hvoice : Sidetone.ticked
        { p.sidetone sin with generated := n + timer.numSamples.toNat } timer
          = .key { timer with idleTicks := 0 } true := by
      rw [Sidetone.ticked, hreleased, if_neg hstopped]
    subst hs
    have hon := performs_tick_on h htuned htimer hopen hvoice ticks
    rwa [hsink] at hon

/-- A tick finds the device of the stream that is open. -/
theorem performs_tick (h : PlayerInv sin p) (htimer : p.sound.pushTimer = some timer)
    (accepted : Nat) :
    (accepted ≤ 2 * timer.numSamples.toNat → (p.onTimeout sin timer accepted).isSome = true)
      ∧ ∀ p', p.onTimeout sin timer accepted = some p' → Performs sin p p' .tick := by
  obtain ⟨g, stop, n, htuned⟩ := h.tuned
  cases hopen : p.sound.sinkDevice with
  | false =>
      have hsame : p.onTimeout sin timer accepted = some p := if_neg (by simp [hopen])
      rw [hsame]
      refine ⟨fun _ => rfl, ?_⟩
      rintro _ ⟨⟩
      have hvoice : p.voice = .key timer false := by rw [voice_key htimer, hopen]
      refine ⟨h, rfl, ?_⟩
      rw [sidetone_eq htuned, hvoice]
      rfl
  | true =>
      obtain ⟨sink, hsink⟩ := Option.isSome_iff_exists.mp h.sink
      have hstream : sink.stream = some (p.device, .push) := (h.device hopen).2 sink hsink
      have hrate : g.sampleRate ≠ 0 := by rw [htuned.sampleRate, htuned.rate]; decide
      obtain ⟨chunk, hchunk⟩ := @CwGenerator.exists_samplesFrom K _ sin g stop n hrate
        timer.numSamples.toNat
      let tick : PushTick K := ⟨g.after stop n, timer, chunk, accepted⟩
      have hlength : tick.bytes.length = 2 * timer.numSamples.toNat := by
        rw [PushTick.length_bytes, CwGenerator.length_of_samplesFrom hchunk]
      have hsound := @onTimeout_after K _ _ _ sin g p.sound stop n timer accepted htuned.attack
        htuned.release htuned.generator htuned.stop_le hopen
      rw [hchunk, Option.bind_some] at hsound
      have hwritten : p.onTimeout sin timer accepted
          = (p.sound.onTimeout sin timer accepted).map fun s => { p with
            sound := s, sink := some (if s.pushTimer.isSome then sink else sink.stop) } := by
        rw [SoundPlayer.onTimeout, if_pos hopen, hsink]
        exact (if_pos hstream).trans (Option.map_eq_bind ..).symm
      rw [hwritten, hsound]
      by_cases haccepted : accepted ≤ tick.bytes.length
      · rw [if_pos haccepted]
        refine ⟨fun _ => rfl, fun p' hp' => ?_⟩
        obtain rfl := Option.some.inj hp'
        exact performs_countIdle h htuned htimer hopen hsink _ (p.sound.ticks ++ [tick]) rfl
      · rw [if_neg haccepted, Option.map_none]
        exact ⟨fun hle => absurd (hle.trans_eq hlength.symm) haccepted, fun p' hp' => nomatch hp'⟩

end

/-! ## Runs -/

section

variable {K : Type} [Field K] [LinearOrder K] [IsStrictOrderedRing K] [FloorRing K]

theorem truncate_ramp : truncate ((defaultSampleRate : K) * (5 / 1000)) = rampSamples := by
  have hpos : (0 : K) ≤ defaultSampleRate * (5 / 1000) := by norm_num [defaultSampleRate]
  rw [truncate, if_pos hpos, Int.floor_eq_iff]
  constructor <;> norm_num [defaultSampleRate, rampSamples]

theorem tuned_tune (pi : K) (config : SoundConfig K) (s : Sound K) :
    ∃ g, (config.tune pi s).Tuned g none 0 := by
  have hramp : 0 ≤ truncate ((defaultSampleRate : K) * (5 / 1000)) := by
    rw [truncate_ramp]
    decide
  exact ⟨.new pi defaultSampleRate config.frequency config.amplitude _ _, rfl, nofun, rfl, rfl, rfl,
    truncate_ramp, hramp, hramp⟩

end

variable {p : SoundPlayer K} {pi : K} {sin : K → K}

variable (pi) in
/-- `resetSound` ends whatever sounds, whatever there was before. -/
theorem resetSound_eq (hsound : p.sound.sinkDevice = true → p.sound.pushTimer.isSome = true)
    {config : SoundConfig K} (hsupported : config.supported = true) :
    p.resetSound pi config = some { p with
      sound := { config.tune pi p.sound with
        enabled := config.enabled, pushTimer := none, sinkDevice := false }
      sink := some {}, activeBuffer := none, cacheSound := [] } := by
  have hformat (s : Sound K) : s.initWithDevice pi (fun _ => config.supported) config.frequency
      defaultSampleRate config.amplitude (5 / 1000) (5 / 1000) = some (config.tune pi s) :=
    if_pos hsupported
  rw [SoundPlayer.resetSound, SoundPlayer.initWithDevice, hformat]
  simp only [SoundPlayer.stop, Option.bind_eq_bind, Option.bind_some, SoundPlayer.setEnabled]
  congr 2
  split_ifs with htimer
  · rfl
  · have hclosed : p.sound.sinkDevice = false := by
      by_contra hopen
      exact htimer (hsound (by simpa using hopen))
    have hnone : p.sound.pushTimer = none := by simpa using htimer
    rw [← hclosed, ← hnone]
    rfl

/-- `Sound` as it is constructed, with the requests that precede the first
`resetSound`. -/
def SoundPlayer.constructed (queue : List SoundRequest) : SoundPlayer K :=
  { sound := .new, queue := queue }

/-- The player after the first `resetSound`. -/
def SoundPlayer.started (pi : K) (config : SoundConfig K) : SoundPlayer K where
  sound := { config.tune pi .new with enabled := config.enabled }
  sink := some {}

theorem started_eq {config : SoundConfig K}
    (hsupported : config.supported = true) :
    (SoundPlayer.constructed []).resetSound pi config = some (.started pi config) :=
  resetSound_eq pi (fun hopen => absurd hopen Bool.false_ne_true) hsupported

theorem supported_of_resetSound {config : SoundConfig K} {p' : SoundPlayer K}
    (h : p.resetSound pi config = some p') : config.supported = true := by
  obtain ⟨q, hq, -⟩ := Option.bind_eq_some_iff.mp h
  obtain ⟨s, hs, -⟩ := Option.bind_eq_some_iff.mp hq
  exact (Option.ite_none_right_eq_some.mp hs).1

variable (pi) in
theorem performs_deliver (h : PlayerInv sin p) {request : SoundRequest}
    {queue : List SoundRequest} (hqueue : p.queue = request :: queue) (opened : Bool) :
    ∃ p', (player pi sin).step p (.deliver opened) = some p' ∧ PlayerInv sin p'
      ∧ p'.queue = queue
      ∧ (p.sidetone sin).step (request.asks opened) = some (p'.sidetone sin) := by
  let q : SoundPlayer K := { p with queue := queue }
  have hq : PlayerInv sin q := ⟨h.tuned, h.sink, h.device, h.buffer, h.pull, h.chunk, h.cache⟩
  obtain ⟨p', hp', hperforms⟩ := performs_request hq request opened
  refine ⟨p', ?_, hperforms.inv, hperforms.queue, hperforms.step⟩
  show SoundPlayer.step pi sin p (.deliver opened) = some p'
  rw [SoundPlayer.step, hqueue]
  exact hp'

theorem deliver_nil (hqueue : p.queue = []) (opened : Bool) :
    (player pi sin).step p (.deliver opened) = none := by
  show SoundPlayer.step pi sin p (.deliver opened) = none
  rw [SoundPlayer.step, hqueue]

variable [IsStrictOrderedRing K]

variable (pi sin) in
theorem performs_resetSound (hsound : p.sound.sinkDevice = true → p.sound.pushTimer.isSome = true)
    {config : SoundConfig K} (hsupported : config.supported = true) :
    ∃ p', p.resetSound pi config = some p' ∧ PlayerInv sin p' ∧ p'.queue = p.queue
      ∧ sidetoneMachine.run (p.sidetone sin) (p.asks sin pi (.resetSound config))
        = some (p'.sidetone sin) := by
  obtain ⟨g, htuned⟩ := tuned_tune pi config p.sound
  have hreset := resetSound_eq pi hsound hsupported
  refine ⟨_, hreset, ⟨⟨g, none, 0, htuned.of_fields rfl rfl rfl⟩, rfl, nofun, nofun, ?_, nofun, nofun⟩,
    rfl, rfl⟩
  rintro _ ⟨⟩ stream hstream
  cases hstream

/-- What a step adds to the queue. -/
def SoundPlayer.emits (_ : SoundPlayer K) : PlayerAct K → List SoundRequest
  | .emit request => [request]
  | _ => []

/-- What a step takes from the queue. -/
def SoundPlayer.delivers (p : SoundPlayer K) : PlayerAct K → List SoundRequest
  | .deliver _ => p.queue.head?.toList
  | _ => []

/-- Every step is performed by the plain sidetone, and the queue keeps its
order. -/
theorem PlayerInv.step {p' : SoundPlayer K} {a : PlayerAct K} (h : PlayerInv sin p)
    (hstep : (player pi sin).step p a = some p') :
    PlayerInv sin p'
      ∧ sidetoneMachine.run (p.sidetone sin) (p.asks sin pi a) = some (p'.sidetone sin)
      ∧ p.queue ++ p.emits a = p.delivers a ++ p'.queue := by
  cases a with
  | emit request =>
      obtain rfl := Option.some.inj hstep
      exact ⟨⟨h.tuned, h.sink, h.device, h.buffer, h.pull, h.chunk, h.cache⟩, rfl, rfl⟩
  | deliver opened =>
      cases hqueue : p.queue with
      | nil =>
          rw [deliver_nil hqueue] at hstep
          cases hstep
      | cons request queue =>
          obtain ⟨p₁, hp₁, hinv, hrest, hperforms⟩ := performs_deliver pi h hqueue opened
          obtain rfl := Option.some.inj (hp₁.symm.trans hstep)
          rw [SoundPlayer.asks, SoundPlayer.delivers, hqueue, hrest]
          exact ⟨hinv, (Machine.run_singleton ..).trans hperforms, List.append_nil _⟩
  | tick accepted =>
      obtain ⟨timer, htimer, hstep⟩ := Option.bind_eq_some_iff.mp hstep
      have hperforms := (performs_tick h htimer accepted).2 p' hstep
      rw [hperforms.queue]
      exact ⟨hperforms.inv, (Machine.run_singleton ..).trans hperforms.step, List.append_nil _⟩
  | read =>
      obtain rfl := read_cases hstep
      exact ⟨h, rfl, List.append_nil _⟩
  | setEnabled enable =>
      obtain rfl := Option.some.inj hstep
      obtain ⟨g, stop, n, htuned⟩ := h.tuned
      exact ⟨⟨⟨g, stop, n, htuned.of_fields rfl rfl rfl⟩, h.sink, h.device, h.buffer, h.pull,
        h.chunk, h.cache⟩, rfl, List.append_nil _⟩
  | resetSound config =>
      obtain ⟨p₁, hp₁, hinv, hqueue, hrun⟩ := performs_resetSound pi sin
        (fun hopen => (h.device hopen).1) (supported_of_resetSound hstep)
      obtain rfl := Option.some.inj (hp₁.symm.trans hstep)
      rw [hqueue]
      exact ⟨hinv, hrun, List.append_nil _⟩
  | lost =>
      obtain rfl := Option.some.inj hstep
      obtain ⟨sink, hsink⟩ := Option.isSome_iff_exists.mp h.sink
      refine ⟨⟨h.tuned, ?_, fun hopen => ⟨(h.device hopen).1, ?_⟩, h.buffer, ?_, h.chunk,
        h.cache⟩, rfl,
        List.append_nil _⟩
      · rw [hsink]
        rfl
      · intro lost hlost
        obtain rfl : sink.lost = lost := by simpa [hsink] using hlost
        exact (h.device hopen).2 sink hsink
      · intro lost hlost stream hstream
        obtain rfl : sink.lost = lost := by simpa [hsink] using hlost
        exact .inl rfl

theorem player_projects : Machine.Projects (player pi sin) sidetoneMachine (PlayerInv sin)
    (SoundPlayer.sidetone sin) (SoundPlayer.asks sin pi) := by
  intro p a p' h hstep
  obtain ⟨hinv, hrun, -⟩ := h.step hstep
  exact ⟨hinv, hrun⟩

/-! ## Nothing gets stuck -/

/-- The steps that the program and its surroundings can take. -/
def SoundPlayer.Offers (p : SoundPlayer K) : PlayerAct K → Prop
  | .deliver _ => p.queue ≠ []
  | .tick accepted => ∃ timer ∈ p.sound.pushTimer, accepted ≤ 2 * timer.numSamples.toNat
  | .resetSound config => config.supported = true
  | _ => True

theorem PlayerInv.isSome_step (h : PlayerInv sin p) {a : PlayerAct K} (hoffers : p.Offers a) :
    ((player pi sin).step p a).isSome = true := by
  cases a with
  | deliver opened =>
      obtain ⟨request, queue, hqueue⟩ := List.exists_cons_of_ne_nil hoffers
      obtain ⟨p', hp', -⟩ := performs_deliver pi h hqueue opened
      exact Option.isSome_iff_exists.mpr ⟨p', hp'⟩
  | tick accepted =>
      obtain ⟨timer, htimer, haccepted⟩ := hoffers
      have htick := (performs_tick h htimer accepted).1 haccepted
      show (p.sound.pushTimer.bind _).isSome = true
      rwa [htimer]
  | read =>
      show p.read.isSome = true
      unfold SoundPlayer.read
      split_ifs with hreads hbuffer
      · rfl
      · obtain ⟨sink, hsink⟩ := Option.isSome_iff_exists.mp h.sink
        rw [hsink, Option.any_some, Bool.and_eq_true, Bool.not_eq_true'] at hreads
        obtain ⟨hplaying, hpull⟩ := hreads
        obtain ⟨⟨stream, mode⟩, hstream, hmode⟩ := (Option.any_eq_true ..).mp hpull
        obtain rfl : mode = .pull := of_decide_eq_true hmode
        rcases h.pull sink hsink stream hstream with hstopped | hsome
        · rw [hplaying] at hstopped
          cases hstopped
        · exact absurd hsome hbuffer
      · rfl
  | resetSound config =>
      obtain ⟨p', hp', -⟩ := performs_resetSound pi sin
        (fun hopen => (h.device hopen).1) hoffers
      exact Option.isSome_iff_exists.mpr ⟨p', hp'⟩
  | emit | setEnabled | lost => rfl

/-! ## The sound of the program -/

variable {queue : List SoundRequest} {config : SoundConfig K} {p₀ : SoundPlayer K}

variable (sin) in
theorem playerInv_started (h : (SoundPlayer.constructed queue).resetSound pi config = some p₀) :
    PlayerInv sin p₀ ∧ p₀.queue = queue := by
  obtain ⟨p₁, hp₁, hinv, hqueue, -⟩ := performs_resetSound pi sin
    (p := SoundPlayer.constructed queue) nofun (supported_of_resetSound h)
  obtain rfl := Option.some.inj (hp₁.symm.trans h)
  exact ⟨hinv, hqueue⟩

/-- **No pointer dangles.** Once the sound has been set up, every request
that is pending can be delivered, every tick of the timer run and every
read of the audio system served, at any point of any run. -/
theorem player_step_isSome (h : (SoundPlayer.constructed queue).resetSound pi config = some p₀)
    {as : List (PlayerAct K)} (hrun : (player pi sin).run p₀ as = some p) {a : PlayerAct K}
    (hoffers : p.Offers a) : ((player pi sin).step p a).isSome = true :=
  (player_projects.run (playerInv_started sin h).1 hrun).1.isSome_step hoffers

theorem player_step_isSome_tick : ∃ p : SoundPlayer ℝ,
    (player Real.pi Real.sin).run (SoundPlayer.started Real.pi ⟨650, 1 / 2, true, true⟩)
        [.emit .startCwRequested, .deliver true] = some p
      ∧ ((player Real.pi Real.sin).step p (.tick 1764)).isSome = true := by
  obtain ⟨p, hrun, htimer⟩ : ∃ p : SoundPlayer ℝ,
      (player Real.pi Real.sin).run (SoundPlayer.started Real.pi ⟨650, 1 / 2, true, true⟩)
          [.emit .startCwRequested, .deliver true] = some p
        ∧ p.sound.pushTimer = some ⟨882, 0⟩ := ⟨_, rfl, rfl⟩
  exact ⟨p, hrun, player_step_isSome (started_eq rfl) hrun ⟨⟨882, 0⟩, htimer, by decide⟩⟩

/-- **One voice.** The player does what a sidetone with one voice does that
gets the requests in their order: neither the queue nor the cache, the
buffers or the streams are heard. -/
theorem player_one_voice (h : (SoundPlayer.constructed queue).resetSound pi config = some p₀)
    {as : List (PlayerAct K)} (hrun : (player pi sin).run p₀ as = some p) :
    sidetoneMachine.run (p₀.sidetone sin)
        ((player pi sin).trace (SoundPlayer.asks sin pi) p₀ as) = some (p.sidetone sin)
      ∧ queue ++ (player pi sin).trace SoundPlayer.emits p₀ as
        = (player pi sin).trace SoundPlayer.delivers p₀ as ++ p.queue := by
  obtain ⟨hinv, hqueue⟩ := playerInv_started sin h
  refine ⟨(player_projects.run hinv hrun).2, ?_⟩
  rw [← hqueue]
  refine Machine.trace_queue (I := PlayerInv sin) ?_ hinv hrun
  intro p a p' hp hstep
  obtain ⟨hp', -, hkeeps⟩ := hp.step hstep
  exact ⟨hp', hkeeps⟩

theorem player_one_voice_key : ∃ p : SoundPlayer ℝ,
    (player Real.pi Real.sin).run (SoundPlayer.started Real.pi ⟨650, 1 / 2, true, true⟩)
        [.emit .startCwRequested, .emit (.playRequested 48), .deliver true] = some p
      ∧ sidetoneMachine.run
          ((SoundPlayer.started Real.pi ⟨650, 1 / 2, true, true⟩).sidetone Real.sin)
          [.keyDown true] = some (p.sidetone Real.sin)
      ∧ [.startCwRequested, .playRequested 48] = [.startCwRequested] ++ p.queue := by
  obtain ⟨p, hrun⟩ : ∃ p : SoundPlayer ℝ,
      (player Real.pi Real.sin).run (SoundPlayer.started Real.pi ⟨650, 1 / 2, true, true⟩)
        [.emit .startCwRequested, .emit (.playRequested 48), .deliver true] = some p := ⟨_, rfl⟩
  obtain ⟨hvoice, hqueue⟩ := player_one_voice (started_eq rfl) hrun
  exact ⟨p, hrun, hvoice, hqueue⟩

end CwKeyer
