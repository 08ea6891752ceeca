import CwKeyer.Decoder.Conservation
import CwKeyer.Decoder.Segmentation
import CwKeyer.Keyer.Steady
import CwKeyer.Remote.Commands
import CwKeyer.Station.Outputs

/-!
# From the paddles to the outputs

The elements that the keyer starts are what the decoder spells
(`decoded_as_keyed`) and what the remote client sends (`sent_as_keyed`),
each of them once and in order, however the threads of the station
interleave and whatever the straight key does in between.
-/

namespace CwKeyer

/-! ## Elements -/

@[simp] theorem elementsOf_nil : elementsOf [] = [] := rfl

@[simp] theorem elementsOf_append (calls calls' : List KeyerCall) :
    elementsOf (calls ++ calls') = elementsOf calls ++ elementsOf calls' :=
  List.filterMap_append ..

/-- An element with the duration that the keyer plays it for. -/
def timed (wpm : Int) (item : KeyerItem) : KeyerItem × Int := (item, calculateDuration item wpm)

theorem elementsOf_timed (wpm : Int) (items : List KeyerItem) :
    elementsOf (items.map fun item => .runCW item (calculateDuration item wpm))
      = items.map (timed wpm) := by
  rw [elementsOf, List.filterMap_map]
  exact List.filterMap_eq_map (f := timed wpm) ▸ rfl

namespace Station

section

variable {K σ : Type}

/-- The keyer's calls are for elements, and the others are not. -/
structure CallInv (wpm : Int) (s : Station K σ) : Prop where
  elements : ElementInv wpm s.keyer
  paddle : ∀ call output, s.call .keyer = some (call, output) →
    ∃ item, item.isElement = true ∧ call = .runCW item (calculateDuration item wpm)
  straight : ∀ call output, s.call .straight = some (call, output) → call.element? = none

theorem callInv_init {lastPressed lastQueued : KeyerItem} {wpm : Int} {mode : Mode}
    {s : Station K σ} (hkeyer : s.keyer = .init lastPressed lastQueued wpm mode) (hfree : ∀ c, s.call c = none) :
    CallInv wpm s :=
  ⟨hkeyer ▸ elementInv_init lastPressed lastQueued wpm mode, by simp [hfree], by simp [hfree]⟩

theorem elementCall_eq {wpm : Int} {s : Station K σ} (h : ElementInv wpm s.keyer)
    {call : KeyerCall} (hcall : s.elementCall = some call) :
    ∃ item, item.isElement = true ∧ call = .runCW item (calculateDuration item wpm) := by
  obtain ⟨item, hhead, hplay⟩ := Option.bind_eq_some_iff.mp hcall
  have hitem : item.isElement = true := h.queue item (List.mem_of_mem_head? hhead)
  rw [Keyer.playDitDah_of_isElement hitem h.configured] at hplay
  exact ⟨item, hitem, (Option.some.inj hplay).symm⟩

theorem element?_straightKey (pressed : Bool) : (straightKey pressed).element? = none := by
  cases pressed <;> rfl

theorem issues_keyer {wpm : Int} {s : Station K σ} (h : ElementInv wpm s.keyer)
    (a : StationAct K) : ∀ call ∈ s.issues .keyer a,
      ∃ item, item.isElement = true ∧ call = .runCW item (calculateDuration item wpm) := by
  intro call hcall
  cases a with
  | paddle a =>
      by_cases hstart : a = .start
      · exact elementCall_eq h (by simpa [issues, hstart] using hcall)
      · simp [issues, hstart] at hcall
  | onStraight | deliver | sound | serial | timeoutCheck | remote => simp [issues] at hcall

theorem issues_straight (s : Station K σ) (a : StationAct K) :
    ∀ call ∈ s.issues .straight a, call.element? = none := by
  intro call hcall
  cases a with
  | onStraight pressed =>
      obtain rfl : call = straightKey pressed := by simpa [issues] using hcall
      exact element?_straightKey pressed
  | paddle | deliver | sound | serial | timeoutCheck | remote => simp [issues] at hcall

end

variable {K σ : Type} [Field K] [LinearOrder K] [FloorRing K] {pi : K} {sin : K → K}
  {port : Machine σ SerialAct} {s s' t : Station K σ} {a : StationAct K} {as : List (StationAct K)}
  {wpm : Int}

theorem CallInv.step (hI : CallInv wpm s) (h : (station pi sin port).step s a = some s') :
    CallInv wpm s' := by
  have hkeyer : ElementInv wpm s'.keyer := by
    have hreach : paddleKeyer.Reachable s.keyer s'.keyer := ⟨_, (keyer_projects s a s' trivial h).2⟩
    exact hreach.invariant hI.elements fun _ _ _ hI hstep => elementInv_step hI hstep
  exact ⟨hkeyer, (callStep_of_step .keyer h).forall_call (issues_keyer hI.elements a) hI.paddle,
    (callStep_of_step .straight h).forall_call (s.issues_straight a) hI.straight⟩

theorem callInv_of_run (hI : CallInv wpm s) (h : (station pi sin port).run s as = some t) :
    CallInv wpm t :=
  Machine.Reachable.invariant ⟨as, h⟩ hI fun _ _ _ hI hstep => hI.step hstep

/-- The elements that an output has got, and the one that it will get. -/
theorem started_split {lastPressed lastQueued : KeyerItem} {mode : Mode}
    (hkeyer : s.keyer = .init lastPressed lastQueued wpm mode) (hfree : ∀ c, s.call c = none)
    (h : (station pi sin port).run s as = some t) (o : Output) :
    ∃ got late, t.keyer.started = got ++ late
      ∧ got.map (timed wpm) = elementsOf ((station pi sin port).trace (hears .keyer o) s as)
      ∧ late.length ≤ 1 ∧ (t.call .keyer = none → late = []) := by
  have hcalls : t.keyer.calls = _ := (callInv_of_run (callInv_init hkeyer hfree) h).elements.calls
  have hstarted : t.keyer.started.map (timed wpm)
      = elementsOf ((station pi sin port).trace (hears .keyer o) s as)
        ++ elementsOf (t.awaited .keyer o) := by
    have hinit : s.keyer.calls = [] := by rw [hkeyer]; rfl
    rw [calls_eq_trace h, hinit, List.nil_append, trace_issues .keyer o (hfree _) h] at hcalls
    rw [← elementsOf_append, hcalls, elementsOf_timed]
  obtain ⟨got, late, hsplit, hgot, hlate⟩ := List.map_eq_append_iff.mp hstarted
  have hlength : late.length = (elementsOf (t.awaited .keyer o)).length := by
    rw [← hlate, List.length_map]
  refine ⟨got, late, hsplit, hgot, ?_, ?_⟩
  · exact hlength.trans_le ((List.length_filterMap_le ..).trans (length_awaited_le_one ..))
  · intro hrest
    rw [awaited_of_free hrest] at hlength
    exact List.eq_nil_of_length_eq_zero hlength

/-! ## The decoder -/

theorem received_elements (hI : CallInv wpm s) (h : (station pi sin port).run s as = some t) :
    received ((station pi sin port).trace StationAct.decoderActs s as)
      = (elementsOf ((station pi sin port).trace (hears .keyer .decoder) s as)).map Prod.fst := by
  rw [received, elementsOf, List.map_filterMap, ← Machine.trace_filterMap,
    ← Machine.trace_filterMap]
  refine Machine.trace_congr (I := CallInv wpm) ?_ hI h
  intro s a s' hI hs
  refine ⟨hI.step hs, ?_⟩
  cases steps_of_step hs with
  | deliver c reading call output u hcall =>
      cases c with
      | keyer =>
          obtain ⟨item, -, rfl⟩ := hI.paddle call output hcall
          cases output <;>
            simp [StationAct.decoderActs, hears, hcall, KeyerCall.element?, DecoderAct.item?]
      | straight =>
          have hkey := hI.straight call output hcall
          cases call <;> cases output <;>
            simp_all [StationAct.decoderActs, hears, KeyerCall.element?]
  | timeoutCheck now => rfl
  | paddle | start | onStraight | sound | serial | remote => rfl

theorem conserves_of_run (d : CwDecoder) (farnsWorth wpm startTime : Int) {as : List DecoderAct}
    {t : CwDecoder} (hrun : cwDecoder.run (d.start farnsWorth wpm startTime) as = some t) :
    CwDecoder.Conserves (received as) t := by
  refine (cwDecoder.run_rec (C := fun as t => CwDecoder.Live (calculateDuration .interElementSpace
    farnsWorth) (calculateDuration .wordSpace farnsWorth) t ∧ CwDecoder.Conserves (received as) t)
    ⟨d.live_start farnsWorth wpm startTime, d.conserves_start farnsWorth wpm startTime⟩
    ?_ hrun).2
  rintro as t a t' ⟨hlive, hcons⟩ hstep
  have hmove := CwDecoder.step_moves hlive hstep
  rw [received_snoc]
  exact ⟨hmove.live hlive, hcons.step hmove⟩

/-! ## The wire -/

theorem sends_element (hwpm : 0 < calculateDuration .dit wpm) {item : KeyerItem}
    (hitem : item.isElement = true) :
    (KeyerCall.runCW item (calculateDuration item wpm)).sends = true := by
  have hdah : calculateDuration .dah wpm = calculateDuration .dit wpm * 3 := rfl
  cases item with
  | dit => simpa [KeyerCall.sends] using hwpm
  | dah =>
      have hpos : 0 < calculateDuration .dah wpm := by omega
      simpa [KeyerCall.sends] using hpos
  | interElementSpace | letterSpace | wordSpace => simp [KeyerItem.isElement] at hitem

theorem command?_of_isCall {a : RemoteAct} (ha : a.isCall = false) : a.command? = none := by
  cases a with
  | call => cases ha
  | timer | start | stop | main => rfl

theorem commands_eq (hwpm : 0 < calculateDuration .dit wpm) (hI : CallInv wpm s)
    (h : (station pi sin port).run s as = some t) :
    elementsOf (commands ((station pi sin port).trace StationAct.remoteActs s as))
      = elementsOf ((station pi sin port).trace (hears .keyer .remote) s as) := by
  rw [commands, elementsOf, elementsOf, List.filterMap_filterMap, ← Machine.trace_filterMap,
    ← Machine.trace_filterMap]
  refine Machine.trace_congr (I := CallInv wpm) ?_ hI h
  intro s a s' hI hs
  refine ⟨hI.step hs, ?_⟩
  cases steps_of_step hs with
  | deliver c reading call output u hcall =>
      cases c with
      | keyer =>
          obtain ⟨item, hitem, rfl⟩ := hI.paddle call output hcall
          have hsends := sends_element hwpm hitem
          cases output <;>
            simp [StationAct.remoteActs, hears, hcall, RemoteAct.command?, hsends,
              List.filterMap_cons]
      | straight =>
          have hkey := hI.straight call output hcall
          cases call <;> cases output <;>
            simp_all [StationAct.remoteActs, hears, KeyerCall.element?, RemoteAct.command?]
  | remote a remote ha =>
      simp [StationAct.remoteActs, hears, command?_of_isCall ha]
  | paddle | start | onStraight | sound | serial | timeoutCheck => rfl

end Station

def Line.timed? : Line → Option Int
  | .keyerTimed duration => some duration
  | _ => none

/-- The durations of the timed keyer lines of a wire. -/
def timedLines (wire : List Line) : List Int := wire.filterMap Line.timed?

@[simp] theorem timedLines_append (w w' : List Line) :
    timedLines (w ++ w') = timedLines w ++ timedLines w' :=
  List.filterMap_append ..

theorem timedLines_keyerLines (wire : List Line) :
    timedLines (keyerLines wire) = timedLines wire := by
  rw [timedLines, keyerLines, List.filterMap_filter]
  refine List.filterMap_congr fun line _ => ?_
  cases line <;> rfl

theorem timedLines_map_line (calls : List KeyerCall) :
    timedLines (calls.map KeyerCall.line) = (elementsOf calls).map Prod.snd := by
  rw [timedLines, elementsOf, List.filterMap_map, List.map_filterMap]
  refine List.filterMap_congr fun call _ => ?_
  cases call <;> rfl

section

variable {K σ : Type} [Field K] [LinearOrder K] [FloorRing K] (pi : K) (sin : K → K)
  (port : Machine σ SerialAct) {lastPressed lastQueued : KeyerItem} {mode : Mode} {wpm : Int}
  {s t : Station K σ} {as : List (StationAct K)}

open Station

/-- **The decoder spells what is keyed.** From a station at rest whose decoder
has just been started, whatever the clocks read: the sequences that it has
handed over and the one that it holds spell the elements that the keyer has
started, but for one of which the call has not reached the decoder yet. -/
theorem decoded_as_keyed {d : CwDecoder} {farnsWorth wpm' now : Int}
    (hkeyer : s.keyer = .init lastPressed lastQueued wpm mode) (hfree : ∀ c, s.call c = none)
    (hdecoder : s.decoder = d.start farnsWorth wpm' now)
    (hrun : (station pi sin port).run s as = some t) :
    ∃ spelled late, t.keyer.started = spelled ++ late
      ∧ String.join t.decoder.handed ++ t.decoder.currentSequence
        = String.ofList (spelled.map MorseTable.toSymbol)
      ∧ late.length ≤ 1 ∧ (t.call .keyer = none → late = []) := by
  obtain ⟨spelled, late, hsplit, hspelled, hlate⟩ := started_split hkeyer hfree hrun .decoder
  have hdecode := (decoder_projects.run trivial hrun).2
  rw [hdecoder] at hdecode
  have hcons := conserves_of_run d farnsWorth wpm' now hdecode
  rw [received_elements (callInv_init hkeyer hfree) hrun, ← hspelled, List.map_map] at hcons
  refine ⟨spelled, late, hsplit, ?_, hlate⟩
  have hitems : Prod.fst ∘ timed wpm = id := rfl
  simpa [hitems] using hcons.spelled

theorem decoded_as_keyed_dit : ∃ t : Station ℝ LinuxSerial,
    (station Real.pi Real.sin (linuxSerial false)).run (Station.quiet .init) ditAndStraight = some t
      ∧ t.keyer.started = [.dit] ∧ t.decoder.currentSequence = ""
      ∧ ∃ spelled late, t.keyer.started = spelled ++ late
        ∧ String.join t.decoder.handed ++ t.decoder.currentSequence
          = String.ofList (spelled.map MorseTable.toSymbol)
        ∧ late.length ≤ 1 ∧ (t.call .keyer = none → late = []) := by
  refine ⟨_, rfl, rfl, rfl, ?_⟩
  have hrun : (station Real.pi Real.sin (linuxSerial false)).run (Station.quiet .init)
      ditAndStraight = some _ := rfl
  exact decoded_as_keyed _ _ _ rfl (by rintro (_ | _) <;> rfl) rfl hrun

/-- **The wire carries what is keyed.** From a station at rest on a session
that stays until the end of the run, whatever the straight key, the timer
and `stop` do: the timed lines that are added are those of the elements that
the keyer has started, in their order, but for the last ones; of these the
first are lost, since the session does not run any more, and to one the call
has not been made yet. -/
theorem sent_as_keyed (hwpm : 0 < calculateDuration .dit wpm)
    (hkeyer : s.keyer = .init lastPressed lastQueued wpm mode) (hfree : ∀ c, s.call c = none)
    (hmain : s.remote.main.notStarting) (has : ∀ a, .remote a ∈ as → a.isStart = false)
    (hrun : (station pi sin port).run s as = some t) :
    ∃ sent lost late, t.keyer.started = sent ++ lost ++ late
      ∧ timedLines t.remote.client.wire
        = timedLines s.remote.client.wire ++ sent.map (calculateDuration · wpm)
      ∧ (t.remote.client.running = true → t.remote.client.socketFd.isSome = true → lost = [])
      ∧ late.length ≤ 1 ∧ (t.call .keyer = none → late = []) := by
  obtain ⟨made, late, hsplit, hmade, hlate⟩ := started_split hkeyer hfree hrun .remote
  have hstarts : ∀ a ∈ (station pi sin port).trace StationAct.remoteActs s as,
      a.isStart = false := by
    refine Machine.forall_mem_trace fun s a ha b hb => ?_
    cases a with
    | remote a =>
        obtain rfl := List.mem_singleton.mp hb
        exact has b ha
    | deliver c reading =>
        simp only [StationAct.remoteActs] at hb
        split at hb
        · obtain rfl := List.mem_singleton.mp hb
          rfl
        · cases hb
    | paddle | onStraight | sound | serial | timeoutCheck => cases hb
  obtain ⟨sent, lost, hcommands, hwire, hlost⟩ :=
    (transmits_run hmain hstarts (remote_projects.run trivial hrun).2).lines
  rw [← commands_eq hwpm (callInv_init hkeyer hfree) hrun, hcommands, elementsOf_append] at hmade
  obtain ⟨itemsSent, itemsLost, rfl, hsent, hitems⟩ := List.map_eq_append_iff.mp hmade
  refine ⟨itemsSent, itemsLost, late, hsplit, ?_, ?_, hlate⟩
  · have htimed := congrArg timedLines hwire
    rw [timedLines_append, timedLines_keyerLines, timedLines_keyerLines, timedLines_map_line,
      ← hsent, List.map_map] at htimed
    exact htimed
  · intro hrunning hsocket
    have hopen : t.remote.client.canSend = true := by
      simp [RemoteClient.canSend, hrunning, hsocket]
    rw [hlost hopen, elementsOf_nil] at hitems
    exact List.map_eq_nil_iff.mp hitems

end

/-- The dit reaches the remote client as well. -/
def ditSent {K : Type} : List (StationAct K) :=
  ditAndStraight ++ List.replicate 2 (.deliver .keyer ⟨3, 3, 5, ⟨true, true, true⟩⟩)

theorem sent_as_keyed_dit : ∃ (r : RemoteSystem) (t : Station ℝ LinuxSerial),
    remote.run .init (connects ⟨"127.0.0.1", 50005, 250⟩) = some r
      ∧ (station Real.pi Real.sin (linuxSerial false)).run (Station.quiet r) ditSent = some t
      ∧ t.remote.client.wire = [.trx true, .keyerTimed 60]
      ∧ ∃ sent lost late, t.keyer.started = sent ++ lost ++ late
        ∧ timedLines t.remote.client.wire
          = timedLines r.client.wire ++ sent.map (calculateDuration · 20)
        ∧ (t.remote.client.running = true → t.remote.client.socketFd.isSome = true → lost = [])
        ∧ late.length ≤ 1 ∧ (t.call .keyer = none → late = []) := by
  obtain ⟨r, t, hr, hmain, hrun, hwire⟩ : ∃ (r : RemoteSystem) (t : Station ℝ LinuxSerial),
      remote.run .init (connects ⟨"127.0.0.1", 50005, 250⟩) = some r ∧ r.main = .idle
        ∧ (station Real.pi Real.sin (linuxSerial false)).run (Station.quiet r) ditSent = some t
        ∧ t.remote.client.wire = [.trx true, .keyerTimed 60] := ⟨_, _, rfl, rfl, rfl, rfl⟩
  refine ⟨r, t, hr, hrun, hwire, ?_⟩
  refine sent_as_keyed _ _ _ (by decide) rfl (by rintro (_ | _) <;> rfl) ?_ ?_ hrun
  · show r.main.notStarting
    rw [hmain]
    trivial
  · intro a ha
    simp [ditSent, ditAndStraight] at ha

end CwKeyer
