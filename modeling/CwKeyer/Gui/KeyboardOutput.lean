import CwKeyer.Gui.PaddleInput

/-!
# The keyboard output

`Keyboard` turns the events of the USB paddle into key strokes while it is
enabled: `onDit` and `onDah` are called on the reader's thread, the strokes
are sent by the GUI thread, with a queue in between.
`GuiConnector::setEnabledKeyboard` returns early when the keyboard listener,
another component, already is as the output should be. So turning the
output off works exactly when it is off already or the listener is on, and
no paddle is held whose press has passed (`output_turned_off_iff`).
-/

namespace CwKeyer

/-- `m_keyboard` beside the paddle input it gets its events from. `called`
counts the calls of `onDit` and `onDah`, and `checked` is a call that has
found `m_enabled` set and has not emitted its signal; `off` says that the
last request was to turn the output off. -/
structure KeyboardOutput where
  input : PaddleInput
  enabled : Bool := false
  called : Nat := 0
  checked : Option PaddleEvent := none
  queue : List PaddleEvent := []
  injected : List PaddleEvent := []
  off : Bool := false
deriving Repr, DecidableEq

/-- The operations on the paddle input and the steps of the reader, the
request, a call of `onDit` or `onDah` up to its check, the signal, and the
slot. -/
inductive OutputAct where
  | input (a : InputAct)
  | setEnabledKeyboard (enabled : Bool)
  | call
  | emit
  | deliver
deriving Repr, DecidableEq

/-- What waits for the reader's thread, or is done by it. -/
def InputAct.byReader : InputAct → Bool
  | .reader _ => true
  | .disconnectDevice => true
  | _ => false

namespace KeyboardOutput

/-- The keyboard is the listener that has been added to the device. -/
def events (s : KeyboardOutput) : List PaddleEvent := s.input.device.listeners[1]?.getD []

/-- The callback of a transfer has not returned. -/
def inCallback (s : KeyboardOutput) : Bool := s.checked.isSome || s.called < s.events.length

def setEnabledKeyboard (s : KeyboardOutput) (enabled : Bool) : KeyboardOutput :=
  if s.input.listener.enabled = enabled then { s with off := !enabled }
  else { s with enabled := enabled, off := !enabled }

/-- `pressDit` and `pressDah`; no key is sent without a device to send it. -/
def press (s : KeyboardOutput) (sends : Bool) (event : PaddleEvent) : KeyboardOutput :=
  if sends then { s with injected := s.injected ++ [event] } else s

def step (sends : Bool) (s : KeyboardOutput) : OutputAct → Option KeyboardOutput
  | .input a =>
      if s.inCallback && a.byReader then none
      else (s.input.step a).map fun input => { s with input := input }
  | .setEnabledKeyboard enabled => some (s.setEnabledKeyboard enabled)
  | .call =>
      if s.checked.isSome then none
      else s.events[s.called]?.map fun event =>
        { s with called := s.called + 1, checked := if s.enabled then some event else none }
  | .emit => s.checked.map fun event =>
      { s with checked := none, queue := s.queue ++ [event] }
  | .deliver => match s.queue with
      | [] => none
      | event :: queue => some ({ s with queue := queue }.press sends event)

end KeyboardOutput

/-- `sends`: on Linux, `/dev/uinput` could be opened; on Windows, always. -/
def keyboardOutput (sends : Bool) : Machine KeyboardOutput OutputAct := ⟨KeyboardOutput.step sends⟩

/-! ## The property and its condition -/

/-- After every key-down there is a key-up. -/
def KeysUp (strokes : List PaddleEvent) : Prop :=
  Answered (ditEdges strokes) ∧ Answered (dahEdges strokes)

/-- Once the queued events are delivered, a request to turn the output off
has turned it off, and no key is left down. -/
def TurnedOff (sends : Bool) (_ : KeyboardOutput) (_ : OutputAct) (s' : KeyboardOutput) : Prop :=
  s'.off = true → ∀ t,
    (keyboardOutput sends).run s' (List.replicate s'.queue.length .deliver) = some t →
    t.enabled = false ∧ KeysUp t.injected

/-- No paddle has a press as its last event. -/
def LetGo (events : List PaddleEvent) : Prop :=
  levelAfter (ditEdges events) = false ∧ levelAfter (dahEdges events) = false

instance (events : List PaddleEvent) : Decidable (LetGo events) :=
  inferInstanceAs (Decidable (_ ∧ _))

def PaddleEvent.pressed : PaddleEvent → Bool
  | .onDit pressed => pressed
  | .onDah pressed => pressed

/-- When the output is turned off, it is off or the listener is on, and the
paddles have been let go that have passed; a press that has been found to
pass before is not queued after. -/
def TurnsOff (sends : Bool) (s : KeyboardOutput) (a : OutputAct) (_ : KeyboardOutput) : Prop :=
  match a with
  | .setEnabledKeyboard false =>
      (s.enabled = false ∨ s.input.listener.enabled = true)
        ∧ (sends = true → LetGo (s.injected ++ s.queue))
  | .emit => s.off = true → sends = true → ∀ event ∈ s.checked, event.pressed = false
  | _ => True

/-! ## Delivery -/

variable {sends : Bool} {s s' : KeyboardOutput}

/-- The state when all events in the queue have been delivered. -/
def KeyboardOutput.drained (s : KeyboardOutput) (sends : Bool) : KeyboardOutput :=
  { s with queue := [], injected := if sends then s.injected ++ s.queue else s.injected }

theorem KeyboardOutput.drained_press {event : PaddleEvent} {queue : List PaddleEvent}
    (hqueue : s.queue = event :: queue) :
    ({ s with queue := queue }.press sends event).drained sends = s.drained sends := by
  cases sends <;> simp [press, drained, hqueue]

theorem KeyboardOutput.press_frame {event : PaddleEvent} :
    (s.press sends event).off = s.off ∧ (s.press sends event).enabled = s.enabled := by
  unfold press
  split <;> exact ⟨rfl, rfl⟩

theorem KeyboardOutput.queue_press {event : PaddleEvent} :
    (s.press sends event).queue = s.queue := by
  unfold press
  split <;> rfl

theorem deliver_cases (h : (keyboardOutput sends).step s .deliver = some s') :
    ∃ event queue, s.queue = event :: queue
      ∧ s' = { s with queue := queue }.press sends event := by
  have hmatch : (match s.queue with
      | [] => none
      | event :: queue => some ({ s with queue := queue }.press sends event)) = some s' := h
  cases hqueue : s.queue with
  | nil =>
      rw [hqueue] at hmatch
      cases hmatch
  | cons event queue =>
      rw [hqueue] at hmatch
      exact ⟨event, queue, rfl, (Option.some.inj hmatch).symm⟩

theorem run_deliver :
    (keyboardOutput sends).run s (List.replicate s.queue.length .deliver)
      = some (s.drained sends) := by
  induction hqueue : s.queue generalizing s with
  | nil =>
      have hdrained : s.drained sends = s := by
        obtain ⟨_, _, _, _, queue, _, _⟩ := s
        obtain rfl : queue = [] := hqueue
        cases sends <;> simp [KeyboardOutput.drained]
      rw [hdrained]
      rfl
  | cons event queue ih =>
      have hstep : (keyboardOutput sends).step s .deliver
          = some ({ s with queue := queue }.press sends event) := by
        show (match s.queue with | [] => none | event :: queue => _) = _
        rw [hqueue]
      refine Machine.run_cons.mpr ⟨_, hstep, ?_⟩
      rw [ih KeyboardOutput.queue_press, KeyboardOutput.drained_press hqueue]

theorem keysUp_iff {strokes : List PaddleEvent} : KeysUp strokes ↔ LetGo strokes :=
  and_congr answered_iff answered_iff

theorem turnedOff_iff {a : OutputAct} : TurnedOff sends s a s' ↔
    (s'.off = true → s'.enabled = false ∧ LetGo (s'.drained sends).injected) := by
  refine imp_congr_right fun _ => ?_
  rw [run_deliver, ← keysUp_iff]
  exact ⟨fun h => h _ rfl, fun h t ht => Option.some.inj ht ▸ h⟩

/-! ## Steps -/

/-- What a request to turn the output off is to bring about holds until it
is turned on, and without a device no key has been sent. -/
structure OutputInv (sends : Bool) (s : KeyboardOutput) : Prop where
  off : s.off = true → s.enabled = false ∧ LetGo (s.drained sends).injected
  silent : sends = false → s.injected = []

theorem outputInv_init (sends : Bool) (input : PaddleInput) : OutputInv sends { input := input } :=
  ⟨nofun, fun _ => rfl⟩

theorem letGo_drained (h : sends = false → s.injected = []) :
    LetGo (s.drained sends).injected ↔ (sends = true → LetGo (s.injected ++ s.queue)) := by
  cases sends with
  | true => exact ⟨fun h _ => h, fun h => h rfl⟩
  | false =>
      have hnone : (s.drained false).injected = [] := h rfl
      rw [hnone]
      exact iff_of_true ⟨rfl, rfl⟩ nofun

theorem letGo_snoc {events : List PaddleEvent} {event : PaddleEvent} (h : LetGo events) :
    LetGo (events ++ [event]) ↔ event.pressed = false := by
  cases event <;> simp [LetGo, PaddleEvent.pressed, h.1, h.2]

theorem turnedOff_request (h : OutputInv sends s) :
    TurnedOff sends s (.setEnabledKeyboard false) (s.setEnabledKeyboard false)
      ↔ TurnsOff sends s (.setEnabledKeyboard false) (s.setEnabledKeyboard false) := by
  have hdrained := letGo_drained h.silent
  rw [turnedOff_iff, KeyboardOutput.setEnabledKeyboard]
  split
  case isTrue hsame =>
    have hoff : s.input.listener.enabled ≠ true := by simp [hsame]
    exact (forall_prop_of_true rfl).trans (and_congr (or_iff_left hoff).symm hdrained)
  case isFalse hother =>
    have hon : s.input.listener.enabled = true := by simpa using hother
    exact (forall_prop_of_true rfl).trans (and_congr (iff_of_true rfl (.inr hon)) hdrained)

/-- An event that is queued while the output is off. -/
theorem turnedOff_emit (h : OutputInv sends s) {event : PaddleEvent}
    (hevent : s.checked = some event) :
    TurnedOff sends s .emit { s with checked := none, queue := s.queue ++ [event] }
      ↔ TurnsOff sends s .emit { s with checked := none, queue := s.queue ++ [event] } := by
  let queued : KeyboardOutput := { s with checked := none, queue := s.queue ++ [event] }
  rw [turnedOff_iff]
  refine forall_congr' fun hoff => ?_
  obtain ⟨hdisabled, hletgo⟩ := h.off hoff
  have hbefore := (letGo_drained h.silent).mp hletgo
  have hafter : LetGo (queued.drained sends).injected ↔ _ := letGo_drained h.silent
  refine (and_iff_right hdisabled).trans (hafter.trans (forall_congr' fun hsends => ?_))
  show LetGo (s.injected ++ (s.queue ++ [event])) ↔ _
  rw [← List.append_assoc, letGo_snoc (hbefore hsends), hevent]
  simp

theorem turnedOff_step {a : OutputAct} (h : OutputInv sends s)
    (hstep : (keyboardOutput sends).step s a = some s') :
    (TurnedOff sends s a s' ↔ TurnsOff sends s a s') ∧ (sends = false → s'.injected = []) := by
  cases a with
  | input a =>
      obtain ⟨-, hstep⟩ := Option.ite_none_left_eq_some.mp hstep
      obtain ⟨input, -, rfl⟩ := Option.map_eq_some_iff.mp hstep
      exact ⟨turnedOff_iff.trans (iff_of_true h.off trivial), h.silent⟩
  | setEnabledKeyboard enabled =>
      obtain rfl := Option.some.inj hstep
      have hsilent : sends = false → (s.setEnabledKeyboard enabled).injected = [] := by
        unfold KeyboardOutput.setEnabledKeyboard
        split <;> exact h.silent
      cases enabled with
      | true =>
          refine ⟨turnedOff_iff.trans (iff_of_true ?_ trivial), hsilent⟩
          unfold KeyboardOutput.setEnabledKeyboard
          split <;> exact nofun
      | false => exact ⟨turnedOff_request h, hsilent⟩
  | call =>
      obtain ⟨-, hstep⟩ := Option.ite_none_left_eq_some.mp hstep
      obtain ⟨event, -, rfl⟩ := Option.map_eq_some_iff.mp hstep
      exact ⟨turnedOff_iff.trans (iff_of_true h.off trivial), h.silent⟩
  | emit =>
      obtain ⟨event, hevent, rfl⟩ := Option.map_eq_some_iff.mp hstep
      exact ⟨turnedOff_emit h hevent, h.silent⟩
  | deliver =>
      obtain ⟨event, queue, hqueue, rfl⟩ := deliver_cases hstep
      obtain ⟨hoff, henabled⟩ := @KeyboardOutput.press_frame sends { s with queue := queue } event
      rw [turnedOff_iff, hoff, henabled, KeyboardOutput.drained_press hqueue]
      refine ⟨iff_of_true h.off trivial, ?_⟩
      intro hsends
      rw [hsends]
      exact h.silent hsends

/-- **Turning the keyboard output off.** A request to turn it off leaves it
off with every key let go, once the queue is empty and until it is turned on
again, exactly in the runs in which the output was off or the listener on at
each such request, and the paddles that have passed were let go. -/
theorem output_turned_off_iff (sends stored : Bool) (as : List OutputAct) :
    (keyboardOutput sends).Along (TurnedOff sends)
        { input := { device := .init 1, stored := stored } } as
      ↔ (keyboardOutput sends).Along (TurnsOff sends)
          { input := { device := .init 1, stored := stored } } as := by
  refine Machine.along_congr (I := OutputInv sends) ?_ ?_ (outputInv_init sends _)
  · exact fun s a s' h hstep => (turnedOff_step h hstep).1
  · intro s a s' h hturns hstep
    obtain ⟨hiff, hsilent⟩ := turnedOff_step h hstep
    exact ⟨turnedOff_iff.mp (hiff.mpr hturns), hsilent⟩

/-- The output is turned on and off while the USB device is connected. -/
def onAndOff : List OutputAct :=
  [.input (.initConnector true .claimed), .setEnabledKeyboard true, .setEnabledKeyboard false]

/-- It stays on. -/
theorem onAndOff_stays_on : ¬∀ sends stored as, (keyboardOutput sends).Along (TurnedOff sends)
    { input := { device := .init 1, stored := stored } } as := by
  intro h
  have hrun : ∃ t, (keyboardOutput true).run { input := { device := .init 1, stored := true } }
      (onAndOff.take 2) = some t ∧ t.enabled = true ∧ t.input.listener.enabled = false :=
    ⟨_, rfl, rfl, rfl⟩
  obtain ⟨t, hrun, henabled, hlistener⟩ := hrun
  have hstays : t.setEnabledKeyboard false = { t with off := true } := if_pos hlistener
  have hlast : (keyboardOutput true).Along (TurnedOff true) t (onAndOff.drop 2) :=
    (h true true onAndOff).append hrun
  have hoff := (hlast _ rfl).1
  rw [hstays] at hoff
  obtain ⟨hdisabled, -⟩ := hoff rfl _ run_deliver
  exact absurd (henabled.symm.trans hdisabled) nofun

end CwKeyer
