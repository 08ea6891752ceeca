import CwKeyer.Sound.Clicks
import CwKeyer.Sound.Player
import CwKeyer.Sound.Silence

/-!
# The plain sidetone

What the player is for: one voice, which plays a paddle tone or the stream
of the straight key, with no queue, no cache and no sinks. A request to the
player is one to its sidetone (`performs_request`).
-/

namespace CwKeyer

/-! ## The plain sidetone -/

/-- What sounds: nothing, the tone of a paddle element, or the stream of the
straight key. -/
inductive Voice where
  | silent
  | tone (samples : List Int)
  | key (timer : PushTimer) (opened : Bool)
deriving Repr, DecidableEq

/-- A single voice, and the samples that the stream has got since the key
went down and until it went up. -/
structure Sidetone where
  enabled : Bool
  sampleRate : Int
  releaseSamples : Nat
  buffer : Int → Option (List Int)
  generated : Nat
  stop : Option Nat
  voice : Voice

inductive SidetoneAct where
  | configure (sampleRate : Int) (releaseSamples : Nat) (buffer : Int → Option (List Int))
  | enable (enable : Bool)
  | play (duration : Int)
  | keyDown (opened : Bool)
  | keyUp
  | tick

namespace Sidetone

/-- The key's stream goes on, or takes over. -/
def keyed (s : Sidetone) (opened : Bool) : Voice :=
  match s.voice with
  | .key timer wasOpened => .key timer wasOpened
  | _ => .key { numSamples := (s.sampleRate * Sound.chunkMs).tdiv 1000 } opened

/-- All samples of the release have been generated. -/
def released (s : Sidetone) : Bool := s.stop.any fun x => x + s.releaseSamples < s.generated

/-- The voice after a tick. -/
def ticked (s : Sidetone) (timer : PushTimer) : Voice :=
  if s.released then
    if timer.idleTicks + 1 ≥ Sound.maxIdleTicks then .silent
    else .key { timer with idleTicks := timer.idleTicks + 1 } true
  else .key { timer with idleTicks := 0 } true

def step (s : Sidetone) : SidetoneAct → Option Sidetone
  | .configure sampleRate releaseSamples buffer =>
      some ⟨s.enabled, sampleRate, releaseSamples, buffer, 0, none, .silent⟩
  | .enable enable => some { s with enabled := enable }
  | .play duration =>
      if s.enabled then (s.buffer duration).map fun samples => { s with voice := .tone samples }
      else some s
  | .keyDown opened =>
      if s.enabled then some { s with generated := 0, stop := none, voice := s.keyed opened }
      else some s
  | .keyUp => some { s with stop := s.stop <|> some s.generated }
  | .tick =>
      match s.voice with
      | .key timer true =>
          let s := { s with generated := s.generated + timer.numSamples.toNat }
          some { s with voice := s.ticked timer }
      | .key _ false => some s
      | _ => none

end Sidetone

def sidetoneMachine : Machine Sidetone SidetoneAct := ⟨Sidetone.step⟩

/-! ## What the player plays -/

variable {K : Type} [Field K] [LinearOrder K] [FloorRing K] (sin : K → K)

def SoundPlayer.voice (p : SoundPlayer K) : Voice :=
  match p.sound.pushTimer with
  | some timer => .key timer p.sound.sinkDevice
  | none => p.activeBuffer.elim .silent .tone

/-- The plain sidetone of a player. -/
def SoundPlayer.sidetone (p : SoundPlayer K) : Sidetone where
  enabled := p.sound.enabled
  sampleRate := p.sound.sampleRate
  releaseSamples := p.sound.releaseSamples.toNat
  buffer duration := SoundPlayer.elementBuffer sin p.sound duration
  generated := p.sound.cwGenerator.elim 0 fun g => g.sampleIndex.toNat
  stop := p.sound.cwGenerator.bind fun g => if g.stopping then some g.stopSample.toNat else none
  voice := p.voice

/-- What a request asks of the sidetone. -/
def SoundRequest.asks (opened : Bool) : SoundRequest → SidetoneAct
  | .playRequested duration => .play duration
  | .startCwRequested => .keyDown opened
  | .stopCwRequested => .keyUp

/-- What a step asks of the sidetone. -/
def SoundPlayer.asks (pi : K) (p : SoundPlayer K) : PlayerAct K → List SidetoneAct
  | .deliver opened => (p.queue.head?.map (SoundRequest.asks opened)).toList
  | .tick _ => [.tick]
  | .setEnabled enable => [.enable enable]
  | .resetSound config =>
      let s := config.tune pi Sound.new
      [.configure s.sampleRate s.releaseSamples.toNat fun duration =>
        SoundPlayer.elementBuffer sin s duration, .enable config.enabled]
  | _ => []

/-! ## The invariant -/

/-- What the ramps come to. -/
def rampSamples : Int := 220

/-- The samples of a chunk. -/
def chunkSamples : Int := (defaultSampleRate * Sound.chunkMs).tdiv 1000

/-- The parameters of a sound are those of its generator, which has
generated `n` samples and was stopped at `stop`. -/
structure Sound.Tuned (s : Sound K) (g : CwGenerator K) (stop : Option Nat) (n : Nat) : Prop where
  generator : s.cwGenerator = some (g.after stop n)
  stop_le : ∀ x ∈ stop, x ≤ n
  rate : s.sampleRate = defaultSampleRate
  sampleRate : g.sampleRate = s.sampleRate
  releaseSamples : g.releaseSamples = s.releaseSamples
  ramp : s.releaseSamples = rampSamples
  attack : 0 ≤ g.attackSamples
  release : 0 ≤ g.releaseSamples

structure PlayerInv (p : SoundPlayer K) : Prop where
  tuned : ∃ g stop n, p.sound.Tuned g stop n
  sink : p.sink.isSome = true
  device : p.sound.sinkDevice = true → p.sound.pushTimer.isSome = true
    ∧ ∀ sink ∈ p.sink, sink.stream = some (p.device, .push)
  buffer : p.sound.pushTimer.isSome = true → p.activeBuffer = none
  pull : ∀ sink ∈ p.sink, ∀ stream, sink.stream = some (stream, .pull) →
    sink.stopped = true ∨ p.activeBuffer.isSome = true
  chunk : ∀ timer ∈ p.sound.pushTimer, timer.numSamples = chunkSamples
  cache : ∀ entry ∈ p.cacheSound, SoundPlayer.elementBuffer sin p.sound entry.1 = some entry.2

/-! ## Buffers -/

theorem isSome_mapM {α β : Type} {f : α → Option β} :
    ∀ {l : List α}, (∀ a ∈ l, (f a).isSome = true) → (l.mapM f).isSome = true
  | [], _ => rfl
  | a :: l, h => by
      obtain ⟨b, hb⟩ := Option.isSome_iff_exists.mp (h a List.mem_cons_self)
      obtain ⟨bs, hbs⟩ := Option.isSome_iff_exists.mp
        (isSome_mapM fun c hc => h c (List.mem_cons_of_mem a hc))
      rw [List.mapM_cons, hb, hbs]
      rfl

/-- The envelope divides by a ramp only where there is one. -/
theorem isSome_bufferEnvelope {K : Type} (s : Sound K) (totalSamples i : Int) :
    (s.bufferEnvelope totalSamples i).isSome = true := by
  unfold Sound.bufferEnvelope
  split_ifs with hrises hfalls
  · rw [divide, if_neg hrises.2.ne']
    rfl
  · rw [divide, if_neg hfalls.2.ne']
    rfl
  · rfl

theorem exists_generateBuffer {s : Sound K} (hrate : s.sampleRate ≠ 0) (durationSec : K) :
    ∃ samples, s.generateBuffer sin durationSec = some samples := by
  let totalSamples := truncate (s.sampleRate * durationSec)
  refine Option.isSome_iff_exists.mp (isSome_mapM (l := List.range totalSamples.toNat) fun i _ => ?_)
  obtain ⟨t, ht⟩ := CwGenerator.exists_divide i hrate
  obtain ⟨env, henv⟩ := Option.isSome_iff_exists.mp (isSome_bufferEnvelope s totalSamples i)
  rw [Sound.bufferSample, ht, henv]
  rfl

/-! ## What is performed -/

section

variable {K : Type} {s s' : Sound K} {g : CwGenerator K} {stop : Option Nat} {n : Nat}

theorem Sound.Tuned.of_fields (h : s.Tuned g stop n) (hgenerator : s'.cwGenerator = s.cwGenerator)
    (hrate : s'.sampleRate = s.sampleRate) (hrelease : s'.releaseSamples = s.releaseSamples) :
    s'.Tuned g stop n :=
  ⟨hgenerator.trans h.generator, h.stop_le, hrate.trans h.rate, h.sampleRate.trans hrate.symm,
    h.releaseSamples.trans hrelease.symm, hrelease.trans h.ramp, h.attack, h.release⟩

theorem onStartCwRequested_opens (henabled : s.enabled = true) (hgenerator : s.cwGenerator = some g)
    (htimer : s.pushTimer = none) (opened : Bool) :
    s.onStartCwRequested opened = { s with
      cwGenerator := some g.startStream
      sinkDevice := opened
      pushTimer := some { numSamples := (s.sampleRate * Sound.chunkMs).tdiv 1000 }
      ticks := [] } := by
  rw [Sound.onStartCwRequested, henabled, hgenerator]
  exact if_neg (by simp [htimer])

theorem Sound.Tuned.startStream (h : s.Tuned g stop n) (hgenerator : s'.cwGenerator =
      some (g.after stop n).startStream) (hrate : s'.sampleRate = s.sampleRate)
    (hrelease : s'.releaseSamples = s.releaseSamples) : s'.Tuned g none 0 := by
  refine ⟨hgenerator.trans ?_, nofun, hrate.trans h.rate, h.sampleRate.trans hrate.symm,
    h.releaseSamples.trans hrelease.symm, hrelease.trans h.ramp, h.attack, h.release⟩
  rw [CwGenerator.startStream_eq]
  rfl

theorem Sound.Tuned.stopStream (h : s.Tuned g stop n) :
    s.onStopCwRequested.Tuned g (stop <|> some n) n := by
  refine ⟨?_, ?_, h.rate, h.sampleRate, h.releaseSamples, h.ramp, h.attack, h.release⟩
  · rw [Sound.onStopCwRequested, h.generator, Option.map_some,
      CwGenerator.stopStream_after h.stop_le]
  · cases stop with
    | none => simp
    | some x => simpa using h.stop_le

end

/-- The player performs what is asked of the sidetone, and keeps its
invariant. -/
structure Performs (p p' : SoundPlayer K) (a : SidetoneAct) : Prop where
  inv : PlayerInv sin p'
  queue : p'.queue = p.queue
  step : (p.sidetone sin).step a = some (p'.sidetone sin)

variable {sin} {p : SoundPlayer K}

/-- `stop` leaves nothing behind. -/
theorem stop_eq (h : PlayerInv sin p) : ∃ sink,
    p.stop = { p with
      sound := { p.sound with pushTimer := none, sinkDevice := false }
      sink := some sink, activeBuffer := none, cacheSound := [] }
      ∧ ∀ stream, sink.stream = some (stream, .pull) → sink.stopped = true := by
  obtain ⟨sink, hsink⟩ := Option.isSome_iff_exists.mp h.sink
  refine ⟨if sink.stopped then sink else sink.stop, ?_, ?_⟩
  · unfold SoundPlayer.stop
    rw [hsink, Option.map_some]
    congr 1
    split_ifs with htimer
    · rfl
    · have hdevice : p.sound.sinkDevice = false := by
        by_contra hopen
        exact htimer (h.device (by simpa using hopen)).1
      have hnone : p.sound.pushTimer = none := by simpa using htimer
      rw [← hdevice, ← hnone]
  · intro stream hstream
    split_ifs with hstopped
    · exact hstopped
    · rfl

/-- The cache has just been cleared: a paddle tone is always generated. -/
theorem onPlayRequested_eq (h : PlayerInv sin p) (henabled : p.sound.enabled = true)
    (duration : Int) (opened : Bool) :
    ∃ samples, SoundPlayer.elementBuffer sin p.sound duration = some samples
      ∧ p.onPlayRequested sin duration opened = some { p with
        sound := { p.sound with pushTimer := none, sinkDevice := false }
        sink := some ⟨some (p.streams, .pull), !opened⟩
        streams := p.streams + 1
        activeBuffer := some samples
        cacheSound := [(duration, samples)] } := by
  obtain ⟨g, stop, n, htuned⟩ := h.tuned
  have hrate : p.sound.sampleRate ≠ 0 := by rw [htuned.rate]; decide
  obtain ⟨samples, hsamples⟩ := @exists_generateBuffer K _ _ _ sin p.sound hrate (duration / 1000)
  obtain ⟨sink, hstop, -⟩ := stop_eq h
  have hcached : p.stop.cached sin duration = some [(duration, samples)] := by
    have hgenerated : SoundPlayer.elementBuffer sin p.stop.sound duration = some samples := by
      rw [hstop]
      exact hsamples
    rw [SoundPlayer.cached, hgenerated, hstop]
    rfl
  refine ⟨samples, hsamples, ?_⟩
  rw [SoundPlayer.onPlayRequested, if_pos henabled, SoundPlayer.playBuffer, hcached, hstop]
  simp [AudioSink.start]

theorem performs_play (h : PlayerInv sin p) (duration : Int) (opened : Bool) :
    ∃ p', p.onPlayRequested sin duration opened = some p'
      ∧ Performs sin p p' (.play duration) := by
  cases henabled : p.sound.enabled with
  | false =>
      have hsame : p.onPlayRequested sin duration opened = some p := if_neg (by simp [henabled])
      have hidle : (p.sidetone sin).step (.play duration) = some (p.sidetone sin) :=
        if_neg (by simp [SoundPlayer.sidetone, henabled])
      exact ⟨p, hsame, h, rfl, hidle⟩
  | true =>
      obtain ⟨g, stop, n, htuned⟩ := h.tuned
      obtain ⟨samples, hsamples, hplay⟩ := onPlayRequested_eq h henabled duration opened
      refine ⟨_, hplay, ⟨⟨g, stop, n, htuned.of_fields rfl rfl rfl⟩, rfl, nofun, nofun, ?_, nofun, ?_⟩,
        rfl, ?_⟩
      · exact fun _ _ _ _ => .inr rfl
      · exact List.forall_mem_singleton.mpr hsamples
      · refine (if_pos henabled).trans ?_
        rw [show (p.sidetone sin).buffer duration = some samples from hsamples]
        rfl

section

variable {K : Type} {p : SoundPlayer K}

theorem read_cases {p' : SoundPlayer K} (h : p.read = some p') : p' = p := by
  unfold SoundPlayer.read at h
  split_ifs at h <;> exact (Option.some.inj h).symm

theorem voice_key {timer : PushTimer} (h : p.sound.pushTimer = some timer) :
    p.voice = .key timer p.sound.sinkDevice := by
  rw [SoundPlayer.voice, h]

theorem voice_buffer (h : p.sound.pushTimer = none) :
    p.voice = p.activeBuffer.elim .silent .tone := by
  rw [SoundPlayer.voice, h]

end

/-- The sidetone of a player, when its stream is known. -/
theorem sidetone_eq {g : CwGenerator K} {stop : Option Nat} {n : Nat}
    (htuned : p.sound.Tuned g stop n) :
    p.sidetone sin = ⟨p.sound.enabled, p.sound.sampleRate, p.sound.releaseSamples.toNat,
      fun duration => SoundPlayer.elementBuffer sin p.sound duration, n, stop, p.voice⟩ := by
  rw [SoundPlayer.sidetone, htuned.generator]
  cases stop <;> rfl

/-- The key's stream takes over from whatever sounds. -/
theorem onStartCwRequested_eq (h : PlayerInv sin p) (henabled : p.sound.enabled = true)
    (hgenerator : p.sound.cwGenerator.isSome = true) (htimer : p.sound.pushTimer = none)
    (opened : Bool) :
    p.onStartCwRequested opened = some { p with
      sound := p.sound.onStartCwRequested opened
      sink := some ⟨some (p.streams, .push), !opened⟩
      streams := p.streams + 1
      device := p.streams
      activeBuffer := none
      cacheSound := [] } := by
  obtain ⟨sink, hstop, -⟩ := stop_eq h
  have hdevice : p.sound.sinkDevice = false := by
    by_contra hopen
    have hrunning := (h.device (by simpa using hopen)).1
    rw [htimer] at hrunning
    cases hrunning
  have hsound : p.stop.sound = p.sound := by
    rw [hstop, ← htimer, ← hdevice]
  rw [SoundPlayer.onStartCwRequested, if_pos ⟨henabled, hgenerator⟩, htimer, SoundPlayer.startPush,
    hsound, hstop]
  rfl

theorem performs_keyDown (h : PlayerInv sin p) (opened : Bool) :
    ∃ p', p.onStartCwRequested opened = some p' ∧ Performs sin p p' (.keyDown opened) := by
  cases henabled : p.sound.enabled with
  | false =>
      have hsame : p.onStartCwRequested opened = some p := if_neg (by simp [henabled])
      have hidle : (p.sidetone sin).step (.keyDown opened) = some (p.sidetone sin) :=
        if_neg (by simp [SoundPlayer.sidetone, henabled])
      exact ⟨p, hsame, h, rfl, hidle⟩
  | true =>
      obtain ⟨g, stop, n, htuned⟩ := h.tuned
      have hgenerator : p.sound.cwGenerator.isSome = true := by rw [htuned.generator]; rfl
      cases htimer : p.sound.pushTimer with
      | some timer =>
          have hrunning : p.sound.pushTimer.isSome = true := by rw [htimer]; rfl
          let p' : SoundPlayer K :=
            { p with sound := { p.sound with cwGenerator := some (g.after stop n).startStream } }
          have hstart : p.onStartCwRequested opened = some p' := by
            rw [SoundPlayer.onStartCwRequested, if_pos ⟨henabled, hgenerator⟩, if_pos hrunning,
              onStartCwRequested_running henabled htuned.generator hrunning]
          have htuned' : p'.sound.Tuned g none 0 := htuned.startStream rfl rfl rfl
          have hvoice : (p.sidetone sin).keyed opened = p'.voice := by
            have hkeyed : (p.sidetone sin).voice = .key timer p.sound.sinkDevice := voice_key htimer
            rw [voice_key (p := p') htimer, Sidetone.keyed, hkeyed]
          refine ⟨p', hstart, ⟨⟨g, none, 0, htuned'⟩, h.sink, h.device, h.buffer, h.pull, h.chunk, h.cache⟩,
            rfl, (if_pos henabled).trans ?_⟩
          rw [sidetone_eq htuned', hvoice]
          rfl
      | none =>
          let timer : PushTimer := { numSamples := (p.sound.sampleRate * Sound.chunkMs).tdiv 1000 }
          let p' : SoundPlayer K := { p with
            sound := { p.sound with
              cwGenerator := some (g.after stop n).startStream
              sinkDevice := opened
              pushTimer := some timer
              ticks := [] }
            sink := some ⟨some (p.streams, .push), !opened⟩
            streams := p.streams + 1
            device := p.streams
            activeBuffer := none
            cacheSound := [] }
          have hstart : p.onStartCwRequested opened = some p' := by
            rw [onStartCwRequested_eq h henabled hgenerator htimer,
              onStartCwRequested_opens henabled htuned.generator htimer]
          have htuned' : p'.sound.Tuned g none 0 := htuned.startStream rfl rfl rfl
          have hvoice : (p.sidetone sin).keyed opened = p'.voice := by
            have hidle : (p.sidetone sin).voice = p.activeBuffer.elim .silent .tone :=
              voice_buffer htimer
            rw [Sidetone.keyed, hidle]
            cases p.activeBuffer <;> rfl
          refine ⟨p', hstart, ⟨⟨g, none, 0, htuned'⟩, rfl, fun _ => ⟨rfl, ?_⟩, fun _ => rfl, ?_,
            ?_, nofun⟩, rfl, (if_pos henabled).trans ?_⟩
          · rintro _ ⟨⟩
            rfl
          · rintro _ ⟨⟩ stream hstream
            cases hstream
          · rintro _ ⟨⟩
            rw [chunkSamples, ← htuned.rate]
          · rw [sidetone_eq htuned', hvoice]
            rfl

theorem performs_keyUp (h : PlayerInv sin p) : Performs sin p p.onStopCwRequested .keyUp := by
  obtain ⟨g, stop, n, htuned⟩ := h.tuned
  refine ⟨⟨⟨g, _, n, htuned.stopStream⟩, h.sink, h.device, h.buffer, h.pull, h.chunk, h.cache⟩, rfl, ?_⟩
  rw [sidetone_eq htuned, sidetone_eq (p := p.onStopCwRequested) htuned.stopStream]
  rfl

theorem performs_request (h : PlayerInv sin p) (request : SoundRequest) (opened : Bool) :
    ∃ p', p.handle sin opened request = some p' ∧ Performs sin p p' (request.asks opened) := by
  cases request with
  | playRequested duration => exact performs_play h duration opened
  | startCwRequested => exact performs_keyDown h opened
  | stopCwRequested => exact ⟨_, rfl, performs_keyUp h⟩

end CwKeyer
