import Mathlib.Analysis.SpecialFunctions.Trigonometric.Basic
import CwKeyer.Keyer.Steady
import CwKeyer.Station.Station

/-!
# What the outputs get

A run of the station is one of each of its parts (`sound_projects` and its
like), so what holds of a part alone holds of it in the station. And every
output gets every call of a caller, in the order in which it is made, except
for a call that is still on its way (`calls_reach_outputs`).
-/

namespace CwKeyer

namespace Station

section

variable {K σ : Type} {s : Station K σ}

/-- A call that is on its way is the only thing that `setCall` changes. -/
@[simp] theorem setCall_keyer (c : Caller) (call : Option (KeyerCall × Output)) :
    (s.setCall c call).keyer = s.keyer := by cases c <;> rfl

@[simp] theorem setCall_sound (c : Caller) (call : Option (KeyerCall × Output)) :
    (s.setCall c call).sound = s.sound := by cases c <;> rfl

@[simp] theorem setCall_serial (c : Caller) (call : Option (KeyerCall × Output)) :
    (s.setCall c call).serial = s.serial := by cases c <;> rfl

@[simp] theorem setCall_decoder (c : Caller) (call : Option (KeyerCall × Output)) :
    (s.setCall c call).decoder = s.decoder := by cases c <;> rfl

@[simp] theorem setCall_remote (c : Caller) (call : Option (KeyerCall × Output)) :
    (s.setCall c call).remote = s.remote := by cases c <;> rfl

theorem call_setCall (c c' : Caller) (call : Option (KeyerCall × Output)) :
    (s.setCall c call).call c' = if c' = c then call else s.call c' := by
  cases c <;> cases c' <;> rfl

end

/-! ## Steps -/

variable {K σ : Type} [Field K] [LinearOrder K] [FloorRing K] {pi : K} {sin : K → K}
  {port : Machine σ SerialAct} {s s' : Station K σ} {a : StationAct K}

variable (pi sin port) in
/-- What a step has done. -/
inductive Steps (s : Station K σ) : StationAct K → Station K σ → Prop
  /-- a paddle moves, or an element ends -/
  | paddle (a : KeyerAct) (keyer : KeyerRun) (hstart : a ≠ .start)
      (h : paddleKeyer.step s.keyer a = some keyer) : Steps s (.paddle a) { s with keyer := keyer }
  /-- an element starts -/
  | start (keyer : KeyerRun) (hcall : s.paddleCall = none)
      (h : paddleKeyer.step s.keyer .start = some keyer) :
      Steps s (.paddle .start)
        { s with keyer := keyer, paddleCall := s.elementCall.map (·, .sound) }
  | onStraight (pressed : Bool) (hcall : s.straightCall = none) :
      Steps s (.onStraight pressed) { s with straightCall := some (straightKey pressed, .sound) }
  | deliver (c : Caller) (reading : Reading) (call : KeyerCall) (output : Output)
      (t : Station K σ) (hcall : s.call c = some (call, output))
      (h : s.perform pi sin port call reading output = some t) :
      Steps s (.deliver c reading) (t.setCall c (output.next.map (call, ·)))
  | sound (a : PlayerAct K) (sound : SoundPlayer K) (ha : a.isCall = false)
      (h : (player pi sin).step s.sound a = some sound) :
      Steps s (.sound a) { s with sound := sound }
  | serial (a : SerialAct) (serial : σ) (ha : a.isCall = false)
      (h : port.step s.serial a = some serial) : Steps s (.serial a) { s with serial := serial }
  | timeoutCheck (now : Int) (decoder : CwDecoder)
      (h : cwDecoder.step s.decoder (.timeoutCheck now) = some decoder) :
      Steps s (.timeoutCheck now) { s with decoder := decoder }
  | remote (a : RemoteAct) (remote : RemoteSystem) (ha : a.isCall = false)
      (h : CwKeyer.remote.step s.remote a = some remote) :
      Steps s (.remote a) { s with remote := remote }

theorem steps_of_step (h : (station pi sin port).step s a = some s') :
    s.Steps pi sin port a s' := by
  cases a with
  | paddle a =>
      obtain ⟨hfree, h⟩ := Option.ite_none_left_eq_some.mp h
      obtain ⟨keyer, hkeyer, rfl⟩ := Option.map_eq_some_iff.mp h
      by_cases hstart : a = .start
      · subst hstart
        have hcall : s.paddleCall = none := by simpa [KeyerAct.byThread] using hfree
        simpa using Steps.start keyer hcall hkeyer
      · simpa [hstart] using Steps.paddle a keyer hstart hkeyer
  | onStraight pressed =>
      obtain ⟨hfree, h⟩ := Option.ite_none_left_eq_some.mp h
      obtain rfl := Option.some.inj h
      exact .onStraight pressed (by simpa using hfree)
  | deliver c reading =>
      obtain ⟨⟨call, output⟩, hcall, h⟩ := Option.bind_eq_some_iff.mp h
      obtain ⟨t, ht, rfl⟩ := Option.map_eq_some_iff.mp h
      exact .deliver c reading call output t hcall ht
  | sound a =>
      obtain ⟨ha, h⟩ := Option.ite_none_left_eq_some.mp h
      obtain ⟨sound, hsound, rfl⟩ := Option.map_eq_some_iff.mp h
      exact .sound a sound (by simpa using ha) hsound
  | serial a =>
      obtain ⟨ha, h⟩ := Option.ite_none_left_eq_some.mp h
      obtain ⟨serial, hserial, rfl⟩ := Option.map_eq_some_iff.mp h
      exact .serial a serial (by simpa using ha) hserial
  | timeoutCheck now =>
      obtain ⟨decoder, hdecoder, rfl⟩ := Option.map_eq_some_iff.mp h
      exact .timeoutCheck now decoder hdecoder
  | remote a =>
      obtain ⟨ha, h⟩ := Option.ite_none_left_eq_some.mp h
      obtain ⟨remote, hremote, rfl⟩ := Option.map_eq_some_iff.mp h
      exact .remote a remote (by simpa using ha) hremote

variable (pi sin port) in
/-- The output that is called makes its step, and the rest of the station
does not change. -/
inductive Performed (s : Station K σ) (call : KeyerCall) (reading : Reading) :
    Output → Station K σ → Prop
  | sound (sound : SoundPlayer K)
      (h : (player pi sin).step s.sound (.emit call.request) = some sound) :
      Performed s call reading .sound { s with sound := sound }
  | serial (serial : σ) (h : port.step s.serial call.serialAct = some serial) :
      Performed s call reading .serial { s with serial := serial }
  | decoder (item : KeyerItem) (duration : Int) (decoder : CwDecoder)
      (hcall : call = .runCW item duration)
      (h : cwDecoder.step s.decoder (.runCW item duration reading.now reading.signalTime)
        = some decoder) : Performed s call reading .decoder { s with decoder := decoder }
  | straight (hcall : call = .startRunCw ∨ call = .stopRunCw) : Performed s call reading .decoder s
  | remote (remote : RemoteSystem)
      (h : CwKeyer.remote.step s.remote (.call call reading.nowMs reading.ok) = some remote) :
      Performed s call reading .remote { s with remote := remote }

theorem performed_of_perform {call : KeyerCall} {reading : Reading} {output : Output}
    (h : s.perform pi sin port call reading output = some s') :
    s.Performed pi sin port call reading output s' := by
  cases output with
  | sound =>
      rw [perform] at h
      obtain ⟨sound, hsound, rfl⟩ := Option.map_eq_some_iff.mp h
      exact .sound sound hsound
  | serial =>
      rw [perform] at h
      obtain ⟨serial, hserial, rfl⟩ := Option.map_eq_some_iff.mp h
      exact .serial serial hserial
  | decoder =>
      cases call with
      | runCW item duration =>
          rw [perform] at h
          obtain ⟨decoder, hdecoder, rfl⟩ := Option.map_eq_some_iff.mp h
          exact .decoder item duration decoder rfl hdecoder
      | startRunCw =>
          obtain rfl := Option.some.inj h
          exact .straight (.inl rfl)
      | stopRunCw =>
          obtain rfl := Option.some.inj h
          exact .straight (.inr rfl)
  | remote =>
      rw [perform] at h
      obtain ⟨remote, hremote, rfl⟩ := Option.map_eq_some_iff.mp h
      exact .remote remote hremote

theorem Performed.call_eq {call : KeyerCall} {reading : Reading} {output : Output}
    (h : s.Performed pi sin port call reading output s') (c : Caller) : s'.call c = s.call c := by
  cases h <;> cases c <;> rfl

theorem Performed.keyer_eq {call : KeyerCall} {reading : Reading} {output : Output}
    (h : s.Performed pi sin port call reading output s') : s'.keyer = s.keyer := by
  cases h <;> rfl

end Station

/-! ## The parts -/

namespace StationAct

variable {K σ : Type}

/-- What a step is for the keyer. -/
def keyerActs (_ : Station K σ) : StationAct K → List KeyerAct
  | .paddle a => [a]
  | _ => []

def soundActs (s : Station K σ) : StationAct K → List (PlayerAct K)
  | .sound a => [a]
  | .deliver c _ =>
      match s.call c with
      | some (call, .sound) => [.emit call.request]
      | _ => []
  | _ => []

def serialActs (s : Station K σ) : StationAct K → List SerialAct
  | .serial a => [a]
  | .deliver c _ =>
      match s.call c with
      | some (call, .serial) => [call.serialAct]
      | _ => []
  | _ => []

def decoderActs (s : Station K σ) : StationAct K → List DecoderAct
  | .timeoutCheck now => [.timeoutCheck now]
  | .deliver c reading =>
      match s.call c with
      | some (.runCW item duration, .decoder) =>
          [.runCW item duration reading.now reading.signalTime]
      | _ => []
  | _ => []

def remoteActs (s : Station K σ) : StationAct K → List RemoteAct
  | .remote a => [a]
  | .deliver c reading =>
      match s.call c with
      | some (call, .remote) => [.call call reading.nowMs reading.ok]
      | _ => []
  | _ => []

/-- What a step is for an output besides the calls that it gets. -/
def sound? : StationAct K → Option (PlayerAct K)
  | .sound a => some a
  | _ => none

def serial? : StationAct K → Option SerialAct
  | .serial a => some a
  | _ => none

def decoder? : StationAct K → Option DecoderAct
  | .timeoutCheck now => some (.timeoutCheck now)
  | _ => none

def remote? : StationAct K → Option RemoteAct
  | .remote a => some a
  | _ => none

/-- The straight key goes down or up. -/
def pressed? : StationAct K → Option Bool
  | .onStraight pressed => some pressed
  | _ => none

end StationAct

namespace Station

open Machine StationAct

variable {K σ : Type} [Field K] [LinearOrder K] [FloorRing K] {pi : K} {sin : K → K}
  {port : Machine σ SerialAct}

theorem keyer_projects : Projects (station (σ := σ) pi sin port) paddleKeyer (fun _ => True)
    Station.keyer keyerActs := by
  intro s a s' _ hs
  refine ⟨trivial, ?_⟩
  cases steps_of_step hs with
  | paddle a keyer hstart h => simpa [keyerActs] using h
  | start keyer hcall h => simpa [keyerActs] using h
  | deliver c reading call output t hcall h =>
      simp [keyerActs, (performed_of_perform h).keyer_eq]
  | onStraight | sound | serial | timeoutCheck | remote => rfl

theorem sound_projects : Projects (station (σ := σ) pi sin port) (player pi sin) (fun _ => True)
    Station.sound soundActs := by
  intro s a s' _ hs
  refine ⟨trivial, ?_⟩
  cases steps_of_step hs with
  | sound a sound ha h => simpa [soundActs] using h
  | deliver c reading call output t hcall h =>
      cases performed_of_perform h with
      | sound sound hsound => simpa [soundActs, hcall] using hsound
      | serial | decoder | straight | remote => simp [soundActs, hcall]
  | paddle | start | onStraight | serial | timeoutCheck | remote => rfl

theorem serial_projects : Projects (station (σ := σ) pi sin port) port (fun _ => True)
    Station.serial serialActs := by
  intro s a s' _ hs
  refine ⟨trivial, ?_⟩
  cases steps_of_step hs with
  | serial a serial ha h => simpa [serialActs] using h
  | deliver c reading call output t hcall h =>
      cases performed_of_perform h with
      | serial serial hserial => simpa [serialActs, hcall] using hserial
      | sound | decoder | straight | remote => simp [serialActs, hcall]
  | paddle | start | onStraight | sound | timeoutCheck | remote => rfl

theorem decoder_projects : Projects (station (σ := σ) pi sin port) cwDecoder (fun _ => True)
    Station.decoder decoderActs := by
  intro s a s' _ hs
  refine ⟨trivial, ?_⟩
  cases steps_of_step hs with
  | timeoutCheck now decoder h => simpa [decoderActs] using h
  | deliver c reading call output t hcall h =>
      cases performed_of_perform h with
      | decoder item duration decoder hitem hdecoder =>
          simpa [decoderActs, hcall, hitem] using hdecoder
      | straight hkey => rcases hkey with rfl | rfl <;> simp [decoderActs, hcall]
      | sound | serial | remote => simp [decoderActs, hcall]
  | paddle | start | onStraight | sound | serial | remote => rfl

theorem remote_projects : Projects (station (σ := σ) pi sin port) CwKeyer.remote (fun _ => True)
    Station.remote remoteActs := by
  intro s a s' _ hs
  refine ⟨trivial, ?_⟩
  cases steps_of_step hs with
  | remote a remote ha h => simpa [remoteActs] using h
  | deliver c reading call output t hcall h =>
      cases performed_of_perform h with
      | remote remote hremote => simpa [remoteActs, hcall] using hremote
      | sound | serial | decoder | straight => simp [remoteActs, hcall]
  | paddle | start | onStraight | sound | serial | timeoutCheck => rfl

end Station

/-! ## Calls -/

def KeyerCall.element? : KeyerCall → Option (KeyerItem × Int)
  | .runCW item duration => some (item, duration)
  | _ => none

/-- The elements of a list of calls, with their durations. -/
def elementsOf (calls : List KeyerCall) : List (KeyerItem × Int) :=
  calls.filterMap KeyerCall.element?

def PlayerAct.request? {K : Type} : PlayerAct K → Option SoundRequest
  | .emit request => some request
  | _ => none

def SerialAct.call? : SerialAct → Option KeyerCall
  | .runCW item duration => some (.runCW item duration)
  | .startRunCw => some .startRunCw
  | .stopRunCw => some .stopRunCw
  | _ => none

def DecoderAct.element? : DecoderAct → Option (KeyerItem × Int)
  | .runCW item duration _ _ => some (item, duration)
  | .timeoutCheck _ => none

def RemoteAct.call? : RemoteAct → Option KeyerCall
  | .call k _ _ => some k
  | _ => none

theorem PlayerAct.request?_of_isCall {K : Type} {a : PlayerAct K} (ha : a.isCall = false) :
    a.request? = none := by
  cases a with
  | emit => cases ha
  | deliver | tick | read | setEnabled | resetSound | lost => rfl

theorem SerialAct.call?_of_isCall {a : SerialAct} (ha : a.isCall = false) : a.call? = none := by
  cases a with
  | runCW | startRunCw | stopRunCw => cases ha
  | call | work | start | stop | main | openOther | closeOther => rfl

@[simp] theorem SerialAct.call?_serialAct (call : KeyerCall) :
    call.serialAct.call? = some call := by
  cases call <;> rfl

theorem RemoteAct.call?_of_isCall {a : RemoteAct} (ha : a.isCall = false) : a.call? = none := by
  cases a with
  | call => cases ha
  | timer | start | stop | main => rfl

/-- The calls of one of the callers. -/
def callsOf (c : Caller) (got : List (Caller × KeyerCall)) : List KeyerCall :=
  got.filterMap fun g => if g.1 = c then some g.2 else none

namespace Station

section

variable {K σ : Type}

/-- The call that a caller begins to make in a step. -/
def issues (c : Caller) (s : Station K σ) : StationAct K → List KeyerCall
  | .paddle a => if c = .keyer ∧ a = .start then s.elementCall.toList else []
  | .onStraight pressed => if c = .straight then [straightKey pressed] else []
  | _ => []

/-- The call that an output gets in a step. -/
def delivers (o : Output) (s : Station K σ) : StationAct K → List (Caller × KeyerCall)
  | .deliver c _ =>
      match s.call c with
      | some (call, output) => if output = o then [(c, call)] else []
      | none => []
  | _ => []

/-- The call of a caller that an output gets in a step. -/
def hears (c : Caller) (o : Output) (s : Station K σ) : StationAct K → List KeyerCall
  | .deliver c' _ =>
      match s.call c' with
      | some (call, output) => if c' = c ∧ output = o then [call] else []
      | none => []
  | _ => []

theorem callsOf_delivers (c : Caller) (o : Output) (s : Station K σ) (a : StationAct K) :
    callsOf c (s.delivers o a) = s.hears c o a := by
  cases a with
  | deliver c' reading =>
      simp only [delivers, hears]
      cases s.call c' with
      | none => rfl
      | some call => by_cases hc : c' = c <;> by_cases ho : call.2 = o <;> simp [callsOf, hc, ho]
  | paddle | onStraight | sound | serial | timeoutCheck | remote => rfl

/-- The call of a caller that an output will still get. -/
def awaited (c : Caller) (o : Output) (s : Station K σ) : List KeyerCall :=
  match s.call c with
  | some (call, output) => if output.position ≤ o.position then [call] else []
  | none => []

theorem awaited_of_free {c : Caller} {o : Output} {s : Station K σ} (h : s.call c = none) :
    s.awaited c o = [] := by rw [awaited, h]

theorem length_awaited_le_one (c : Caller) (o : Output) (s : Station K σ) :
    (s.awaited c o).length ≤ 1 := by
  unfold awaited
  split
  · split <;> simp
  · simp

theorem mem_awaited {c : Caller} {o : Output} {s : Station K σ} {call : KeyerCall}
    (h : call ∈ s.awaited c o) :
    ∃ output, s.call c = some (call, output) ∧ output.position ≤ o.position := by
  rw [awaited] at h
  cases hcall : s.call c with
  | none =>
      rw [hcall] at h
      cases h
  | some issued =>
      rw [hcall] at h
      obtain ⟨ho, h⟩ := List.mem_ite_nil_right.mp h
      obtain rfl := List.mem_singleton.mp h
      exact ⟨issued.2, rfl, ho⟩

/-- Who gets a call first does not wait for it longer. -/
theorem length_awaited_le (c : Caller) (s : Station K σ) {o o' : Output}
    (h : o.position ≤ o'.position) : (s.awaited c o).length ≤ (s.awaited c o').length := by
  unfold awaited
  cases s.call c with
  | none => exact Nat.le_refl 0
  | some call =>
      by_cases ho : call.2.position ≤ o.position
      · simp [ho, ho.trans h]
      · simp [ho]

/-- What a step is for a caller. -/
inductive CallStep (c : Caller) (s : Station K σ) (a : StationAct K) (s' : Station K σ) : Prop
  | other (hissues : s.issues c a = []) (hhears : ∀ o, s.hears c o a = [])
      (hcall : s'.call c = s.call c)
  | issued (call : Option KeyerCall) (hissues : s.issues c a = call.toList)
      (hhears : ∀ o, s.hears c o a = []) (hfree : s.call c = none)
      (hcall : s'.call c = call.map (·, .sound))
  | delivered (call : KeyerCall) (output : Output) (hissues : s.issues c a = [])
      (hhears : ∀ o, s.hears c o a = if output = o then [call] else [])
      (hbusy : s.call c = some (call, output)) (hcall : s'.call c = output.next.map (call, ·))

/-- An output gets the call when it is its turn, and waits no longer then. -/
theorem CallStep.awaited {c : Caller} {s s' : Station K σ} {a : StationAct K}
    (h : CallStep c s a s') (o : Output) :
    s.awaited c o ++ s.issues c a = s.hears c o a ++ s'.awaited c o := by
  unfold Station.awaited
  cases h with
  | other hissues hhears hcall => simp [hissues, hhears, hcall]
  | issued call hissues hhears hfree hcall =>
      rw [hissues, hhears, hfree, hcall]
      cases call <;> cases o <;> rfl
  | delivered call output hissues hhears hbusy hcall =>
      rw [hissues, hhears, hbusy, hcall]
      cases output <;> cases o <;> rfl

/-- A call stays what it is from output to output. -/
theorem CallStep.forall_call {c : Caller} {s s' : Station K σ} {a : StationAct K}
    (h : CallStep c s a s') {p : KeyerCall → Prop} (hissues : ∀ call ∈ s.issues c a, p call)
    (hs : ∀ call output, s.call c = some (call, output) → p call) :
    ∀ call output, s'.call c = some (call, output) → p call := by
  intro call output hcall
  cases h with
  | other _ _ heq => exact hs call output (heq ▸ hcall)
  | issued call' heq _ _ hcall' =>
      rw [hcall'] at hcall
      obtain ⟨_, rfl, hpair⟩ := Option.map_eq_some_iff.mp hcall
      obtain ⟨rfl, -⟩ := Prod.mk.inj hpair
      exact hissues _ (by simp [heq])
  | delivered call' output' _ _ hbusy hcall' =>
      rw [hcall'] at hcall
      obtain ⟨_, -, hpair⟩ := Option.map_eq_some_iff.mp hcall
      obtain ⟨rfl, -⟩ := Prod.mk.inj hpair
      exact hs _ output' hbusy

/-- An element that starts is called for. -/
theorem calls_step {s s' : KeyerRun} {a : KeyerAct} (h : paddleKeyer.step s a = some s') :
    s'.calls = s.calls
      ++ if a = .start then (s.keyer.queue.head?.bind s.keyer.playDitDah).toList else [] := by
  cases a with
  | onDit pressed | onDah pressed =>
      obtain rfl := Option.some.inj h
      simp
  | start =>
      obtain ⟨item, rest, -, hqueue, rfl⟩ := paddleKeyer_start h
      simp [hqueue]
  | finish =>
      obtain ⟨item, squeeze, -, rfl⟩ := paddleKeyer_finish h
      simp

end

variable {K σ : Type} [Field K] [LinearOrder K] [FloorRing K] {pi : K} {sin : K → K}
  {port : Machine σ SerialAct} {s s' t : Station K σ}

theorem callStep_of_step {a : StationAct K} (c : Caller)
    (h : (station pi sin port).step s a = some s') : CallStep c s a s' := by
  cases steps_of_step h with
  | paddle a keyer hstart =>
      cases c <;> exact .other (by simp [issues, hstart]) (fun _ => rfl) rfl
  | start keyer hcall =>
      cases c with
      | keyer => exact .issued s.elementCall rfl (fun _ => rfl) hcall rfl
      | straight => exact .other rfl (fun _ => rfl) rfl
  | onStraight pressed hcall =>
      cases c with
      | keyer => exact .other rfl (fun _ => rfl) rfl
      | straight => exact .issued (some (straightKey pressed)) rfl (fun _ => rfl) hcall rfl
  | deliver c' reading call output u hcall hperform =>
      have hother := (performed_of_perform hperform).call_eq
      by_cases hc : c = c'
      · subst hc
        exact .delivered call output rfl (by simp [hears, hcall]) hcall (by simp [call_setCall])
      · exact .other rfl (by simp [hears, hcall, Ne.symm hc]) (by simp [call_setCall, hc, hother])
  | sound | serial | timeoutCheck | remote => cases c <;> exact .other rfl (fun _ => rfl) rfl

theorem trace_issues (c : Caller) (o : Output) {as : List (StationAct K)} (hfree : s.call c = none)
    (hrun : (station pi sin port).run s as = some t) :
    (station pi sin port).trace (issues c) s as
      = (station pi sin port).trace (hears c o) s as ++ t.awaited c o := by
  have hqueue := Machine.trace_queue (I := fun _ => True)
    (fun _ _ _ _ hs => ⟨trivial, (callStep_of_step c hs).awaited o⟩) trivial hrun
  simpa [awaited, hfree] using hqueue

theorem calls_eq_trace {as : List (StationAct K)} (h : (station pi sin port).run s as = some t) :
    t.keyer.calls = s.keyer.calls ++ (station pi sin port).trace (issues .keyer) s as := by
  refine Machine.trace_log (l := fun s => s.keyer.calls) ?_ h
  intro s a s' hs
  cases steps_of_step hs with
  | paddle a keyer hstart h => simpa [issues, hstart] using calls_step h
  | start keyer hcall h => simpa [issues, elementCall] using calls_step h
  | deliver c reading call output u hcall hperform =>
      simp [issues, (performed_of_perform hperform).keyer_eq]
  | onStraight | sound | serial | timeoutCheck | remote => simp [issues]

theorem pressed_eq_trace {as : List (StationAct K)} (h : (station pi sin port).run s as = some t) :
    (station pi sin port).trace (issues .straight) s as
      = (as.filterMap StationAct.pressed?).map straightKey := by
  rw [List.map_filterMap]
  refine Machine.trace_eq_filterMap ?_ h
  intro s a s' hs
  cases a with
  | onStraight pressed => rfl
  | paddle | deliver | sound | serial | timeoutCheck | remote => simp [issues, StationAct.pressed?]

theorem callsOf_trace_delivers (c : Caller) (o : Output) (as : List (StationAct K)) :
    callsOf c ((station pi sin port).trace (delivers o) s as)
      = (station pi sin port).trace (hears c o) s as := by
  rw [callsOf, ← Machine.trace_filterMap]
  congr 1
  funext s a
  exact callsOf_delivers c o s a

/-! ## What the outputs receive -/

open StationAct

variable (pi sin port) in
/-- What an output does in a run: its own machine gets the calls, and takes
besides them the steps of the run that are its own. The calls of the straight
key have empty bodies in the decoder. -/
def Receives (s t : Station K σ) (as : List (StationAct K)) (calls : List KeyerCall) :
    Output → Prop
  | .sound =>
      (player pi sin).Serves PlayerAct.request? s.sound (calls.map KeyerCall.request)
        (as.filterMap sound?) t.sound
  | .serial =>
      port.Serves SerialAct.call? s.serial calls (as.filterMap serial?) t.serial
  | .decoder =>
      cwDecoder.Serves DecoderAct.element? s.decoder (elementsOf calls)
        (as.filterMap decoder?) t.decoder
  | .remote =>
      CwKeyer.remote.Serves RemoteAct.call? s.remote calls (as.filterMap remote?) t.remote

/-- The calls that a caller makes in a run. -/
def Makes (s t : Station K σ) (as : List (StationAct K)) (calls : List KeyerCall) : Caller → Prop
  | .keyer => t.keyer.calls = s.keyer.calls ++ calls
  | .straight => (as.filterMap pressed?).map straightKey = calls

theorem makes_issues {as : List (StationAct K)} (h : (station pi sin port).run s as = some t)
    (c : Caller) : s.Makes t as ((station pi sin port).trace (issues c) s as) c := by
  cases c with
  | keyer => exact calls_eq_trace h
  | straight => exact (pressed_eq_trace h).symm

theorem receives_delivers {as : List (StationAct K)} (h : (station pi sin port).run s as = some t)
    (o : Output) : Receives pi sin port s t as
      (((station pi sin port).trace (delivers o) s as).map Prod.snd) o := by
  cases o with
  | sound =>
      rw [Receives, List.map_map, ← Machine.trace_map]
      refine sound_projects.serves (fun s a s' hs => ?_) trivial h
      cases steps_of_step hs with
      | sound a sound ha =>
          simp [soundActs, sound?, delivers, PlayerAct.request?_of_isCall ha]
      | deliver c reading call output u hcall =>
          cases output <;> simp [soundActs, sound?, delivers, hcall, PlayerAct.request?]
      | paddle | start | onStraight | serial | timeoutCheck | remote => exact ⟨rfl, rfl⟩
  | serial =>
      rw [Receives, ← Machine.trace_map]
      refine serial_projects.serves (fun s a s' hs => ?_) trivial h
      cases steps_of_step hs with
      | serial a serial ha =>
          simp [serialActs, serial?, delivers, SerialAct.call?_of_isCall ha]
      | deliver c reading call output u hcall =>
          cases output <;> simp [serialActs, serial?, delivers, hcall]
      | paddle | start | onStraight | sound | timeoutCheck | remote => exact ⟨rfl, rfl⟩
  | decoder =>
      rw [Receives, elementsOf, ← Machine.trace_map, ← Machine.trace_filterMap]
      refine decoder_projects.serves (fun s a s' hs => ?_) trivial h
      cases steps_of_step hs with
      | deliver c reading call output u hcall =>
          cases call <;> cases output <;>
            simp [decoderActs, decoder?, delivers, hcall, DecoderAct.element?, KeyerCall.element?]
      | paddle | start | onStraight | sound | serial | timeoutCheck | remote => exact ⟨rfl, rfl⟩
  | remote =>
      rw [Receives, ← Machine.trace_map]
      refine remote_projects.serves (fun s a s' hs => ?_) trivial h
      cases steps_of_step hs with
      | remote a remote ha =>
          simp [remoteActs, remote?, delivers, RemoteAct.call?_of_isCall ha]
      | deliver c reading call output u hcall =>
          cases output <;> simp [remoteActs, remote?, delivers, hcall, RemoteAct.call?]
      | paddle | start | onStraight | sound | serial | timeoutCheck => exact ⟨rfl, rfl⟩

end Station

open Station in
/-- **Every output gets every call.** Whatever happens between two calls, the
machine of each output receives the calls of the two callers, those of one
caller in the order in which it makes them. It lacks at most the one that is
on its way there, and no output gets a call before the one in front of it. -/
theorem calls_reach_outputs {K σ : Type} [Field K] [LinearOrder K] [FloorRing K] (pi : K)
    (sin : K → K) (port : Machine σ SerialAct) {s t : Station K σ} {as : List (StationAct K)}
    (hfree : ∀ c, s.call c = none) (hrun : (station pi sin port).run s as = some t) :
    ∃ got : Output → List (Caller × KeyerCall),
      (∀ o, Receives pi sin port s t as ((got o).map Prod.snd) o)
        ∧ (∀ c o, ∃ late, s.Makes t as (callsOf c (got o) ++ late) c ∧ late.length ≤ 1
          ∧ ∀ call ∈ late, ∃ output : Output,
              t.call c = some (call, output) ∧ output.position ≤ o.position)
        ∧ ∀ c (o o' : Output), o.position ≤ o'.position →
            callsOf c (got o') <+: callsOf c (got o) := by
  refine ⟨fun o => (station pi sin port).trace (delivers o) s as, receives_delivers hrun, ?_, ?_⟩
  · intro c o
    refine ⟨t.awaited c o, ?_, length_awaited_le_one c o t, fun call hcall => mem_awaited hcall⟩
    rw [callsOf_trace_delivers, ← trace_issues c o (hfree c) hrun]
    exact makes_issues hrun c
  · intro c o o' ho
    rw [callsOf_trace_delivers, callsOf_trace_delivers]
    -- both have got the first of the calls, and the later output waits for more
    have hissues := trace_issues c o (hfree c) hrun
    have hissues' := trace_issues c o' (hfree c) hrun
    have hlength := congrArg List.length (hissues.symm.trans hissues')
    rw [List.length_append, List.length_append] at hlength
    have hlate := length_awaited_le c t ho
    exact List.prefix_of_prefix_length_le ⟨_, hissues'.symm⟩ ⟨_, hissues.symm⟩ (by omega)

/-- A station before its first element, on Linux and with no serial port. -/
def Station.quiet {K : Type} [Field K] (remote : RemoteSystem) : Station K LinuxSerial where
  keyer := .init .dit .dit 20 .iambicB
  sound := { sound := .new }
  serial := {}
  decoder := CwDecoder.start {} 20 20 0
  remote := remote

/-- A dit, and the straight key goes down before the dit has reached the
serial port. -/
def ditAndStraight {K : Type} : List (StationAct K) :=
  [.paddle (.onDit true), .paddle .start, .deliver .keyer ⟨0, 0, 0, ⟨true, true, true⟩⟩,
    .onStraight true, .deliver .straight ⟨1, 1, 0, ⟨true, true, true⟩⟩,
    .deliver .keyer ⟨2, 2, 0, ⟨true, true, true⟩⟩]

theorem calls_reach_outputs_dit : ∃ t : Station ℝ LinuxSerial,
    (station Real.pi Real.sin (linuxSerial false)).run (Station.quiet .init) ditAndStraight = some t
      ∧ t.keyer.calls = [.runCW .dit 60]
      ∧ t.sound.queue = [.playRequested 60, .startCwRequested]
      ∧ ∃ got : Output → List (Caller × KeyerCall),
        (∀ o, Station.Receives Real.pi Real.sin (linuxSerial false) (Station.quiet .init) t
          ditAndStraight ((got o).map Prod.snd) o)
        ∧ (∀ c o, ∃ late, (Station.quiet .init).Makes t ditAndStraight (callsOf c (got o) ++ late) c
          ∧ late.length ≤ 1 ∧ ∀ call ∈ late, ∃ output : Output,
              t.call c = some (call, output) ∧ output.position ≤ o.position)
        ∧ ∀ c (o o' : Output), o.position ≤ o'.position →
            callsOf c (got o') <+: callsOf c (got o) := by
  refine ⟨_, rfl, rfl, rfl, ?_⟩
  have hrun : (station Real.pi Real.sin (linuxSerial false)).run (Station.quiet .init)
      ditAndStraight = some _ := rfl
  exact calls_reach_outputs _ _ _ (by rintro (_ | _) <;> rfl) hrun

end CwKeyer
