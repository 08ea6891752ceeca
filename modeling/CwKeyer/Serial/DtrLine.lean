import CwKeyer.Serial.SerialComm

/-!
# DTR and the key

The straight key and every element of a session write an absolute level to
one line. What is down stays asserted as long as whoever clears the line
is the last to need it: an element at its end when neither the straight
key nor another element is down, a release of the straight key when no
element sounds. `dtr_follows_key_iff` shows that these are the runs in
which DTR follows the key.
-/

namespace CwKeyer

namespace SerialComm

/-- The level of the session's line. -/
def dtr (c : SerialComm) : Option Bool := c.hSerial.bind c.ports.level

/-- The line is asserted if it is needed. -/
def Holds (c : SerialComm) (need : Bool) : Prop := need = true → c.dtr = some true

instance (c : SerialComm) (need : Bool) : Decidable (c.Holds need) :=
  inferInstanceAs (Decidable (need = true → c.dtr = some true))

/-- `m_hSerial` is an open descriptor. -/
def IsOpen (c : SerialComm) : Prop := ∃ fd, c.hSerial = some fd ∧ fd ∈ c.ports.numbers

/-- A running port with an open descriptor. -/
structure Ready (c : SerialComm) (fd : Nat) : Prop where
  serial : c.hSerial = some fd
  running : c.running = true
  opened : fd ∈ c.ports.numbers

variable {c : SerialComm} {fd : Nat} {level need need' : Bool}

theorem IsOpen.setDtr (h : c.IsOpen) : (c.setDtr level).IsOpen := by
  obtain ⟨fd, hserial, hopen⟩ := h
  exact ⟨fd, hserial, by simpa using hopen⟩

theorem IsOpen.mem_numbers (h : c.IsOpen) (hserial : c.hSerial = some fd) :
    fd ∈ c.ports.numbers := by
  obtain ⟨n, hn, hopen⟩ := h
  obtain rfl : n = fd := Option.some.inj (hn.symm.trans hserial)
  exact hopen

theorem IsOpen.dtr_setDtr (h : c.IsOpen) : (c.setDtr level).dtr = some level := by
  obtain ⟨fd, hserial, hopen⟩ := h
  show c.hSerial.bind (c.ports.drive c.hSerial level).level = some level
  rw [hserial]
  exact Lines.level_drive hopen

theorem Ready.isOpen (h : c.Ready fd) : c.IsOpen := ⟨fd, h.serial, h.opened⟩

theorem Ready.setDtr (h : c.Ready fd) : (c.setDtr level).Ready fd :=
  ⟨h.serial, h.running, by simpa using h.opened⟩

theorem Ready.startRunCw (h : c.Ready fd) : c.startRunCw = c.setDtr true := by
  simp [SerialComm.startRunCw, h.serial, h.running]

theorem Ready.stopRunCw (h : c.Ready fd) : c.stopRunCw = c.setDtr false := by
  simp [SerialComm.stopRunCw, h.serial, h.running]

theorem Ready.dtr_setDtr (h : c.Ready fd) : (c.setDtr level).dtr = some level :=
  h.isOpen.dtr_setDtr

/-- Whoever asserts the line serves everybody. -/
theorem Ready.holds_assert (h : c.Ready fd) : (c.setDtr true).Holds need :=
  fun _ => h.dtr_setDtr

/-- Whoever clears it must be the last to need it. -/
theorem Ready.holds_clear (h : c.Ready fd) : (c.setDtr false).Holds need ↔ need = false := by
  constructor
  · intro hholds
    by_contra hneed
    have hlevel := hholds (by simpa using hneed)
    rw [h.dtr_setDtr] at hlevel
    cases hlevel
  · rintro rfl
    exact nofun

theorem Holds.of_less (h : c.Holds need) (hless : need' = true → need = true) : c.Holds need' :=
  fun hneed => h (hless hneed)

end SerialComm

/-- The calls of the keyer and the steps of what they set going. -/
def SerialAct.inSession : SerialAct → Bool
  | .runCW _ _ => true
  | .call _ => true
  | .work _ => true
  | .startRunCw => true
  | .stopRunCw => true
  | _ => false

/-! ## Linux -/

namespace LinuxSerial

/-- An element has set DTR and its duration has not elapsed. -/
def sounding (s : LinuxSerial) : Bool := s.elements.any fun e => e.pc = .holding

def keyDown (s : LinuxSerial) : Bool := s.straight || s.sounding

/-- A started client, before any element of the session. -/
structure Started (s : LinuxSerial) (fd : Nat) : Prop where
  ready : s.comm.Ready fd
  straight : s.straight = false
  elements : ∀ e ∈ s.elements, e.pc = .done

/-- Whoever clears DTR is the last to need it. -/
def ClearsAlone (s : LinuxSerial) : SerialAct → Bool
  | .work i =>
      match s.elements[i]? with
      | some e => e.pc ≠ .elapsed || !s.keyDown
      | none => true
  | .stopRunCw => !s.sounding
  | _ => true

structure LineInv (s : LinuxSerial) (fd : Nat) : Prop where
  ready : s.comm.Ready fd
  captured : ∀ e ∈ s.elements, e.pc ≠ .done → e.fd = some fd

variable {dtrControl : Bool} {s s' : LinuxSerial} {fd i : Nat} {e : ElementThread} {pc : ElementPc}

/-- `start` leads there. -/
theorem started_of_start {level : Bool}
    (h : (linuxSerial dtrControl).run {} [.start (some fd) level, .main true] = some s) :
    s.Started fd := by
  obtain rfl := Option.some.inj h
  refine ⟨⟨rfl, rfl, ?_⟩, rfl, nofun⟩
  show fd ∈ Lines.numbers (Lines.drive _ _ _)
  simp [SerialComm.openPort]

theorem Started.lineInv (h : s.Started fd) : LineInv s fd :=
  ⟨h.ready, fun e he hdone => absurd (h.elements e he) hdone⟩

theorem Started.keyDown (h : s.Started fd) : s.keyDown = false := by
  simp only [LinuxSerial.keyDown, sounding, h.straight, Bool.false_or, List.any_eq_false]
  intro e he
  simp [h.elements e he]

/-- An element that goes on to a step in which it does not sound adds
nothing to those that sound. -/
theorem sounding_set (hpc : pc ≠ .holding)
    (h : (s.elements.set i { e with pc := pc }).any (fun e => e.pc = .holding) = true) :
    s.sounding = true := by
  obtain ⟨e', he', hholding⟩ := List.any_eq_true.mp h
  rcases List.mem_or_eq_of_mem_set he' with he' | rfl
  · exact List.any_eq_true.mpr ⟨e', he', hholding⟩
  · simp [hpc] at hholding

/-- The other elements sound as before. -/
theorem sounding_set_of_silent (hi : s.elements[i]? = some e) (he : e.pc ≠ .holding)
    (h : s.sounding = true) :
    (s.elements.set i { e with pc := pc }).any (fun e => e.pc = .holding) = true := by
  obtain ⟨e', he', hholding⟩ := List.any_eq_true.mp h
  obtain ⟨j, hj⟩ := List.mem_iff_getElem?.mp he'
  have hne : i ≠ j := by
    rintro rfl
    obtain rfl := Option.some.inj (hi.symm.trans hj)
    simp [he] at hholding
  refine List.any_eq_true.mpr ⟨e', List.mem_of_getElem? (i := j) ?_, hholding⟩
  rw [List.getElem?_set_ne hne, hj]

theorem LineInv.set (h : LineInv s fd) {comm : SerialComm} (hready : comm.Ready fd)
    (hi : s.elements[i]? = some e) (hpc : e.pc ≠ .done) :
    LineInv { s with comm := comm, elements := s.elements.set i { e with pc := pc } } fd := by
  refine ⟨hready, ?_⟩
  intro e' he' hdone
  rcases List.mem_or_eq_of_mem_set he' with he' | rfl
  · exact h.captured e' he' hdone
  · exact h.captured e (List.mem_of_getElem? hi) hpc

/-- The step of an element's thread, and what it does to the line. -/
theorem lineInv_element (h : LineInv s fd) (hholds : s.comm.Holds s.keyDown)
    (hstep : s.elementStep i = some s') :
    LineInv s' fd ∧ (s'.comm.Holds s'.keyDown ↔ s.ClearsAlone (.work i) = true) := by
  unfold elementStep at hstep
  cases hi : s.elements[i]? with
  | none => rw [hi] at hstep; cases hstep
  | some e =>
      rw [hi] at hstep
      dsimp only at hstep
      simp only [ClearsAlone, hi]
      have hdrive (level : Bool) (hpc : e.pc ≠ .done) :
          { s.comm with ports := s.comm.ports.drive e.fd level } = s.comm.setDtr level := by
        rw [h.captured e (List.mem_of_getElem? hi) hpc, ← h.ready.serial]
        rfl
      cases hpc : e.pc with
      | done => rw [hpc] at hstep; cases hstep
      | toSet =>
          rw [hpc] at hstep
          dsimp only at hstep
          rw [hdrive true (by simp [hpc])] at hstep
          obtain rfl := Option.some.inj hstep
          refine ⟨h.set h.ready.setDtr hi (by simp [hpc]), iff_of_true ?_ (by simp)⟩
          exact h.ready.holds_assert
      | holding =>
          rw [hpc] at hstep
          obtain rfl := Option.some.inj hstep
          refine ⟨h.set h.ready hi (by simp [hpc]), iff_of_true (hholds.of_less fun hdown => ?_) (by simp)⟩
          rcases Bool.or_eq_true_iff.mp hdown with hstraight | hsounding
          · exact Bool.or_eq_true_iff.mpr (.inl hstraight)
          · exact Bool.or_eq_true_iff.mpr (.inr (sounding_set (by simp) hsounding))
      | elapsed =>
          rw [hpc] at hstep
          dsimp only at hstep
          rw [hdrive false (by simp [hpc])] at hstep
          obtain rfl := Option.some.inj hstep
          refine ⟨h.set h.ready.setDtr hi (by simp [hpc]), ?_⟩
          rw [h.ready.holds_clear]
          -- the thread does not sound before this step, nor after it
          have hsame : (s.elements.set i { e with pc := .done }).any (fun e => e.pc = .holding) =
              s.sounding :=
            Bool.eq_iff_iff.mpr
              ⟨sounding_set (by simp), sounding_set_of_silent hi (by simp [hpc])⟩
          simp [keyDown, sounding, hsame]

theorem lineInv_call (h : LineInv s fd) (hstep : s.callStep i = some s') :
    LineInv s' fd ∧ s'.comm = s.comm ∧ s'.keyDown = s.keyDown := by
  rcases callStep_cases hstep with ⟨call, -, ⟨-, rfl⟩ | ⟨-, rfl⟩⟩
  · exact ⟨⟨h.ready, h.captured⟩, rfl, rfl⟩
  · refine ⟨⟨h.ready, fun e he hdone => ?_⟩, rfl, by simp [keyDown, sounding]⟩
    rcases List.mem_append.mp he with he | he
    · exact h.captured e he hdone
    · obtain rfl := List.mem_singleton.mp he
      exact h.ready.serial

theorem lineInv_step {a : SerialAct} (h : LineInv s fd) (hholds : s.comm.Holds s.keyDown)
    (hact : a.inSession = true) (hstep : (linuxSerial dtrControl).step s a = some s') :
    LineInv s' fd ∧ (s'.comm.Holds s'.keyDown ↔ s.ClearsAlone a = true) := by
  cases a with
  | start | stop | main | openOther | closeOther => cases hact
  | work i => exact lineInv_element h hholds hstep
  | call i =>
      obtain ⟨hinv, hcomm, hdown⟩ := lineInv_call h hstep
      exact ⟨hinv, iff_of_true (by rwa [hcomm, hdown]) rfl⟩
  | runCW item duration =>
      obtain rfl := Option.some.inj hstep
      split <;> exact ⟨⟨h.ready, h.captured⟩, iff_of_true hholds rfl⟩
  | startRunCw =>
      obtain rfl := Option.some.inj hstep
      rw [h.ready.startRunCw]
      exact ⟨⟨h.ready.setDtr, h.captured⟩, iff_of_true h.ready.holds_assert rfl⟩
  | stopRunCw =>
      obtain rfl := Option.some.inj hstep
      rw [h.ready.stopRunCw]
      refine ⟨⟨h.ready.setDtr, h.captured⟩, ?_⟩
      show (s.comm.setDtr false).Holds (false || s.sounding) ↔ (!s.sounding) = true
      rw [h.ready.holds_clear, Bool.false_or, Bool.not_eq_true']

end LinuxSerial

/-! ## Windows -/

namespace WindowsSerial

/-- The worker has set DTR for a request and its duration has not elapsed. -/
def sounding (s : WindowsSerial) : Bool :=
  match s.worker with
  | some (.holding _) => true
  | _ => false

def keyDown (s : WindowsSerial) : Bool := s.straight || s.sounding

/-- A started client, before any element of the session. -/
structure Started (s : WindowsSerial) (fd : Nat) : Prop where
  ready : s.comm.Ready fd
  straight : s.straight = false
  worker : s.worker = some .head

/-- Whoever clears DTR is the last to need it. -/
def ClearsAlone (s : WindowsSerial) : SerialAct → Bool
  | .work _ =>
      match s.worker with
      | some (.elapsed _) => !s.straight
      | _ => true
  | .stopRunCw => !s.sounding
  | _ => true

variable {s s' : WindowsSerial} {fd i : Nat}

theorem started_of_start {level : Bool}
    (h : windowsSerial.run {} [.start (some fd) level, .main true] = some s) : s.Started fd := by
  obtain rfl := Option.some.inj h
  refine ⟨⟨rfl, rfl, ?_⟩, rfl, rfl⟩
  show fd ∈ Lines.numbers (Lines.drive _ _ _)
  simp [SerialComm.openPort]

theorem Started.keyDown (h : s.Started fd) : s.keyDown = false := by
  simp [WindowsSerial.keyDown, sounding, h.straight, h.worker]

/-- The step of the worker, and what it does to the line. -/
theorem ready_worker (h : s.comm.Ready fd) (hholds : s.comm.Holds s.keyDown)
    (hstep : s.workerStep = some s') :
    s'.comm.Ready fd ∧ (s'.comm.Holds s'.keyDown ↔ s.ClearsAlone (.work i) = true) := by
  have hstraight (hs : s.straight = true) : s.keyDown = true := by simp [keyDown, hs]
  unfold workerStep at hstep
  cases hworker : s.worker with
  | none => rw [hworker] at hstep; cases hstep
  | some pc =>
      rw [hworker] at hstep
      simp only [ClearsAlone, hworker]
      cases pc with
      | exited => cases hstep
      | head =>
          obtain rfl := Option.some.inj hstep
          refine ⟨h, iff_of_true (hholds.of_less fun hdown => hstraight ?_) rfl⟩
          simpa [keyDown, sounding, h.running] using hdown
      | waiting =>
          cases hqueue : s.queue with
          | nil =>
              rw [hqueue] at hstep
              obtain rfl := Option.some.inj hstep
              refine ⟨h, iff_of_true (hholds.of_less fun hdown => hstraight ?_) rfl⟩
              simpa [keyDown, sounding, h.running] using hdown
          | cons request rest =>
              rw [hqueue] at hstep
              obtain rfl := Option.some.inj hstep
              refine ⟨h, iff_of_true (hholds.of_less fun hdown => hstraight ?_) rfl⟩
              simpa [keyDown, sounding, h.serial] using hdown
      | toSet request =>
          obtain rfl := Option.some.inj hstep
          exact ⟨h.setDtr, iff_of_true h.holds_assert rfl⟩
      | holding request =>
          obtain rfl := Option.some.inj hstep
          refine ⟨h, iff_of_true (hholds.of_less fun hdown => hstraight ?_) rfl⟩
          simpa [keyDown, sounding] using hdown
      | elapsed request =>
          obtain rfl := Option.some.inj hstep
          refine ⟨h.setDtr, ?_⟩
          rw [h.holds_clear]
          simp [keyDown, sounding]

theorem callStep_comm (hstep : s.callStep i = some s') :
    s'.comm = s.comm ∧ s'.keyDown = s.keyDown := by
  rcases callStep_cases hstep with ⟨call, -, ⟨-, rfl⟩ | ⟨-, -, rfl⟩⟩ <;> exact ⟨rfl, rfl⟩

theorem ready_step {a : SerialAct} (h : s.comm.Ready fd) (hholds : s.comm.Holds s.keyDown)
    (hact : a.inSession = true) (hstep : windowsSerial.step s a = some s') :
    s'.comm.Ready fd ∧ (s'.comm.Holds s'.keyDown ↔ s.ClearsAlone a = true) := by
  cases a with
  | start | stop | main | openOther | closeOther => cases hact
  | work i => exact ready_worker h hholds hstep
  | call i =>
      obtain ⟨hcomm, hdown⟩ := callStep_comm hstep
      exact ⟨by rwa [hcomm], iff_of_true (by rwa [hcomm, hdown]) rfl⟩
  | runCW item duration =>
      obtain rfl := Option.some.inj hstep
      split <;> exact ⟨h, iff_of_true hholds rfl⟩
  | startRunCw =>
      obtain rfl := Option.some.inj hstep
      rw [h.startRunCw]
      exact ⟨h.setDtr, iff_of_true h.holds_assert rfl⟩
  | stopRunCw =>
      obtain rfl := Option.some.inj hstep
      rw [h.stopRunCw]
      refine ⟨h.setDtr, ?_⟩
      show (s.comm.setDtr false).Holds (false || s.sounding) ↔ (!s.sounding) = true
      rw [h.holds_clear, Bool.false_or, Bool.not_eq_true']

end WindowsSerial

/-! ## Runs -/

/-- On a started client DTR is asserted whenever the straight key is down
or an element sounds exactly when nobody clears it from under another. -/
theorem dtr_follows_key_iff (dtrControl : Bool) (fd : Nat) (as : List SerialAct) :
    (∀ s : LinuxSerial, s.Started fd →
      (((linuxSerial dtrControl).restrict SerialAct.inSession).Along
          (fun _ _ s' => s'.comm.Holds s'.keyDown) s as ↔
        ((linuxSerial dtrControl).restrict SerialAct.inSession).Along
          (fun s a _ => s.ClearsAlone a = true) s as)) ∧
    ∀ s : WindowsSerial, s.Started fd →
      ((windowsSerial.restrict SerialAct.inSession).Along
          (fun _ _ s' => s'.comm.Holds s'.keyDown) s as ↔
        (windowsSerial.restrict SerialAct.inSession).Along
          (fun s a _ => s.ClearsAlone a = true) s as) := by
  constructor
  · intro s hs
    refine Machine.along_congr
      (I := fun s : LinuxSerial => LinuxSerial.LineInv s fd ∧ s.comm.Holds s.keyDown) ?_ ?_
      ⟨hs.lineInv, by simp [SerialComm.Holds, hs.keyDown]⟩
    · rintro s a s' ⟨hinv, hholds⟩ hstep
      obtain ⟨hact, hstep⟩ := Machine.restrict_step.mp hstep
      exact (LinuxSerial.lineInv_step hinv hholds hact hstep).2
    · rintro s a s' ⟨hinv, hholds⟩ halone hstep
      obtain ⟨hact, hstep⟩ := Machine.restrict_step.mp hstep
      obtain ⟨hinv', hiff⟩ := LinuxSerial.lineInv_step hinv hholds hact hstep
      exact ⟨hinv', hiff.mpr halone⟩
  · intro s hs
    refine Machine.along_congr
      (I := fun s : WindowsSerial => s.comm.Ready fd ∧ s.comm.Holds s.keyDown) ?_ ?_
      ⟨hs.ready, by simp [SerialComm.Holds, hs.keyDown]⟩
    · rintro s a s' ⟨hready, hholds⟩ hstep
      obtain ⟨hact, hstep⟩ := Machine.restrict_step.mp hstep
      exact (WindowsSerial.ready_step hready hholds hact hstep).2
    · rintro s a s' ⟨hready, hholds⟩ halone hstep
      obtain ⟨hact, hstep⟩ := Machine.restrict_step.mp hstep
      obtain ⟨hready', hiff⟩ := WindowsSerial.ready_step hready hholds hact hstep
      exact ⟨hready', hiff.mpr halone⟩

/-- The straight key is pressed and released, then an element sounds. -/
def pressThenDit : List SerialAct :=
  [.startRunCw, .stopRunCw, .runCW .dit 60, .call 0, .call 0, .work 0, .work 0, .work 0]

def openPort3 : SerialComm := { hSerial := some 3, running := true, ports := [(3, false)] }

theorem dtr_follows_key_iff_apart :
    (∃ s, ((linuxSerial false).restrict SerialAct.inSession).run { comm := openPort3 } pressThenDit
        = some s
      ∧ ((linuxSerial false).restrict SerialAct.inSession).Along
        (fun _ _ s' => s'.comm.Holds s'.keyDown) { comm := openPort3 } pressThenDit)
      ∧ ∃ s, (windowsSerial.restrict SerialAct.inSession).run
          { comm := openPort3, worker := some .head } (pressThenDit ++ [.work 0, .work 0]) = some s
        ∧ (windowsSerial.restrict SerialAct.inSession).Along
          (fun _ _ s' => s'.comm.Holds s'.keyDown) { comm := openPort3, worker := some .head }
          (pressThenDit ++ [.work 0, .work 0]) := by
  refine ⟨⟨_, rfl, ?_⟩, ⟨_, rfl, ?_⟩⟩
  · exact ((dtr_follows_key_iff false 3 _).1 _ ⟨⟨rfl, rfl, by decide⟩, rfl, by decide⟩).mpr
      (by decide)
  · exact ((dtr_follows_key_iff false 3 _).2 _ ⟨⟨rfl, rfl, by decide⟩, rfl, rfl⟩).mpr (by decide)

/-- The straight key is pressed while a dit sounds, and the end of the dit
clears DTR under it. -/
theorem dtr_cleared_under_key :
    ¬ ((linuxSerial false).restrict SerialAct.inSession).Along
        (fun _ _ s' => s'.comm.Holds s'.keyDown)
        { comm := { hSerial := some 3, running := true, ports := [(3, false)] } }
        [.runCW .dit 60, .call 0, .call 0, .work 0, .startRunCw, .work 0, .work 0] ∧
    ¬ (windowsSerial.restrict SerialAct.inSession).Along
        (fun _ _ s' => s'.comm.Holds s'.keyDown)
        { comm := { hSerial := some 3, running := true, ports := [(3, false)] }
          worker := some .head }
        [.runCW .dit 60, .call 0, .call 0, .work 0, .work 0, .work 0, .startRunCw, .work 0,
          .work 0] := by
  decide

end CwKeyer
