import CwKeyer.Keyer.Steady
import CwKeyer.Serial.DtrLine

/-!
# Marks on the line

The paddle keyer and the serial port of Linux against a clock. The keyer
calls `runCW` and sleeps for the element and a space; the thread of the
element sets DTR, sleeps for the element and clears DTR. Neither waits for
the other, and the system may run either of them late. As long as every
element is over `lateness` ms after its time at the latest, and a space is
longer than that, DTR carries the elements as separate marks of their
lengths (`marks_keep_apart`).
-/

namespace CwKeyer

/-- What becomes of a `runCW` call: when it was made, and when the thread of
its element set DTR and cleared it. -/
structure Mark where
  item : KeyerItem
  called : Nat
  rise : Option Nat := none
  fall : Option Nat := none
deriving Repr, DecidableEq

namespace Mark

def sounds (m : Mark) : Bool := m.rise.isSome && m.fall.isNone

def length (wpm : Int) (m : Mark) : Nat := (calculateDuration m.item wpm).toNat

/-- The thread of the element takes its step from `pc`. -/
def written (m : Mark) (pc : ElementPc) (now : Nat) : Mark :=
  match pc with
  | .toSet => { m with rise := some now }
  | .elapsed => { m with fall := some now }
  | _ => m

end Mark

/-! ## Steps -/

/-- `wake` is the end of the keyer's sleep. The port is started, so that the
thread of every call has the call's number. -/
structure LinuxKeyer where
  keyer : KeyerRun
  serial : LinuxSerial
  now : Nat := 0
  wake : Nat := 0
  marks : List Mark := []
deriving Repr, DecidableEq

inductive ClockAct where
  | pass (ms : Nat)
  | paddle (a : KeyerAct)
  | call (i : Nat)
  | work (i : Nat)
deriving Repr, DecidableEq

namespace LinuxKeyer

/-- The keyer thread is in `runCW`. -/
def calling (s : LinuxKeyer) : Bool := s.serial.calls.any fun call => call.pc ≠ .returned

/-- The keyer thread starts an element. It sleeps once `runCW` has returned,
so at least until `wake`. -/
def start (s : LinuxKeyer) : Option LinuxKeyer :=
  (paddleKeyer.step s.keyer .start).bind fun keyer =>
    match s.keyer.keyer.queue.head?.bind s.keyer.keyer.playDitDah with
    | some (.runCW item duration) =>
        ((linuxSerial false).step s.serial (.runCW item duration)).map fun serial =>
          { s with
            keyer := keyer
            serial := serial
            wake := s.now + (duration + s.keyer.keyer.spaceTime).toNat
            marks := s.marks ++ [⟨item, s.now, none, none⟩] }
    | _ => some { s with keyer := keyer }

/-- The thread of element `i` takes a step, from its sleep only when that is
over. -/
def work (s : LinuxKeyer) (i : Nat) : Option LinuxKeyer := do
  let e ← s.serial.elements[i]?
  let m ← s.marks[i]?
  if e.pc = .holding ∧ m.rise.any (s.now < · + e.duration.toNat) = true then none
  else
    ((linuxSerial false).step s.serial (.work i)).map fun serial =>
      { s with serial := serial, marks := s.marks.set i (m.written e.pc s.now) }

def step (s : LinuxKeyer) : ClockAct → Option LinuxKeyer
  | .pass ms => some { s with now := s.now + ms }
  | .paddle .start => s.start
  | .paddle .finish =>
      if s.calling = true ∨ s.now < s.wake then none
      else (paddleKeyer.step s.keyer .finish).map fun keyer => { s with keyer := keyer }
  | .paddle a => (paddleKeyer.step s.keyer a).map fun keyer => { s with keyer := keyer }
  | .call i =>
      ((linuxSerial false).step s.serial (.call i)).map fun serial => { s with serial := serial }
  | .work i => s.work i

end LinuxKeyer

def linuxKeyer : Machine LinuxKeyer ClockAct := ⟨LinuxKeyer.step⟩

namespace LinuxKeyer

/-! ## The property -/

/-- No element is later than `lateness`. -/
def Prompt (wpm : Int) (lateness : Nat) (s : LinuxKeyer) : Prop :=
  ∀ m ∈ s.marks, m.fall = none → s.now ≤ m.called + m.length wpm + lateness

instance (wpm : Int) (lateness : Nat) (s : LinuxKeyer) : Decidable (s.Prompt wpm lateness) :=
  inferInstanceAs (Decidable (∀ m ∈ s.marks, _))

/-- The times of a mark follow that of its call. -/
def Punctual (wpm : Int) (lateness : Nat) (m : Mark) : Prop :=
  ∀ r ∈ m.rise, m.called ≤ r ∧
    ∀ f ∈ m.fall, r + m.length wpm ≤ f ∧ f ≤ m.called + m.length wpm + lateness

structure OnTime (wpm : Int) (space lateness now wake : Nat) (marks : List Mark) : Prop where
  called : ∀ m ∈ marks, m.called ≤ now ∧ m.called + m.length wpm + space ≤ wake
  punctual : ∀ m ∈ marks, Punctual wpm lateness m
  apart : marks.Pairwise fun m m' => ∃ f ∈ m.fall, f + space ≤ m'.called + lateness

/-- Calls that have returned, with their elements played. -/
structure Past (calls : List RunCwCall) (elements : List ElementThread) (marks : List Mark) :
    Prop where
  returned : ∀ call ∈ calls, call.pc = .returned
  done : ∀ e ∈ elements, e.pc = .done
  ended : ∀ m ∈ marks, m.rise.isSome = true ∧ m.fall.isSome = true
  length_elements : elements.length = calls.length
  length_marks : marks.length = calls.length

/-- How far the thread of an element has got with its mark. -/
def Tracks (now : Nat) (m : Mark) (e : ElementThread) : Prop :=
  m.fall = none ∧ match e.pc with
    | .toSet => m.rise = none
    | .holding => m.rise.isSome = true
    | .elapsed => ∃ r, m.rise = some r ∧ r + e.duration.toNat ≤ now
    | .done => False

/-- All calls but the last are past; the last is under way, or its element
is. -/
inductive Phase (wpm : Int) (s : LinuxKeyer) : Prop
  | rests (past : Past s.serial.calls s.serial.elements s.marks)
  | calling (calls : List RunCwCall) (call : RunCwCall) (marks : List Mark) (m : Mark)
      (past : Past calls s.serial.elements marks) (hcalls : s.serial.calls = calls ++ [call])
      (hmarks : s.marks = marks ++ [m]) (hpc : call.pc ≠ .returned)
      (hduration : call.duration = calculateDuration m.item wpm)
      (hrise : m.rise = none) (hfall : m.fall = none)
  | playing (calls : List RunCwCall) (call : RunCwCall) (elements : List ElementThread)
      (e : ElementThread) (marks : List Mark) (m : Mark) (past : Past calls elements marks)
      (hcalls : s.serial.calls = calls ++ [call])
      (helements : s.serial.elements = elements ++ [e]) (hmarks : s.marks = marks ++ [m])
      (hpc : call.pc = .returned) (hduration : e.duration = calculateDuration m.item wpm)
      (htracks : Tracks s.now m e)

structure MarkInv (wpm : Int) (fd lateness : Nat) (s : LinuxKeyer) : Prop where
  elements : ElementInv wpm s.keyer
  space : s.keyer.keyer.spaceTime = calculateDuration .interElementSpace wpm
  line : s.serial.LineInv fd
  level : s.serial.comm.dtr = some (s.marks.any Mark.sounds)
  phase : Phase wpm s
  times : OnTime wpm (calculateDuration .interElementSpace wpm).toNat lateness s.now s.wake s.marks
  items : s.marks.map Mark.item = s.keyer.started
  rested : s.keyer.playing = none → s.calling = false ∧ s.wake ≤ s.now

theorem calling_eq_false {s : LinuxKeyer} :
    s.calling = false ↔ ∀ call ∈ s.serial.calls, call.pc = .returned := by
  simp [calling]

variable {s s' t : LinuxKeyer} {wpm : Int} {fd lateness i : Nat}

/-! ## The last of a list -/

/-- An entry that has what none of the others has is the last one. -/
theorem last_of_getElem? {α : Type} {p : α → Prop} {l : List α} {a b : α} (hl : ∀ x ∈ l, p x)
    (h : (l ++ [a])[i]? = some b) (hb : ¬p b) : i = l.length ∧ b = a := by
  rcases Nat.lt_or_ge i l.length with hlt | hge
  · rw [List.getElem?_append_left hlt] at h
    exact absurd (hl b (List.mem_of_getElem? h)) hb
  · rw [List.getElem?_append_right hge] at h
    obtain ⟨hi, hab⟩ := List.getElem?_eq_some_iff.mp h
    have hi : i - l.length < 1 := hi
    refine ⟨by omega, ?_⟩
    simpa using hab.symm

theorem set_last {α : Type} {l : List α} {a b : α} {n : Nat} (h : l.length = n) :
    (l ++ [a]).set n b = l ++ [b] := by
  subst h
  simp

theorem getElem?_last {α : Type} {l : List α} {a : α} {n : Nat} (h : l.length = n) :
    (l ++ [a])[n]? = some a := by
  subst h
  simp

/-! ## Threads -/

/-- The step of an element's thread, on a session's line. -/
theorem elementStep_line {c c' : LinuxSerial} (h : c.LineInv fd)
    (hstep : c.elementStep i = some c') : ∃ e pc comm, c.elements[i]? = some e
      ∧ c' = { c with comm := comm, elements := c.elements.set i { e with pc := pc } }
      ∧ comm.Ready fd
      ∧ (e.pc = .toSet ∧ pc = .holding ∧ comm.dtr = some true
        ∨ e.pc = .holding ∧ pc = .elapsed ∧ comm.dtr = c.comm.dtr
        ∨ e.pc = .elapsed ∧ pc = .done ∧ comm.dtr = some false) := by
  unfold LinuxSerial.elementStep at hstep
  cases hi : c.elements[i]? with
  | none => rw [hi] at hstep; cases hstep
  | some e =>
      rw [hi] at hstep
      dsimp only at hstep
      have hdrive (level : Bool) (hpc : e.pc ≠ .done) :
          { c.comm with ports := c.comm.ports.drive e.fd level } = c.comm.setDtr level := by
        rw [h.captured e (List.mem_of_getElem? hi) hpc, ← h.ready.serial]
        rfl
      cases hpc : e.pc with
      | done => rw [hpc] at hstep; cases hstep
      | toSet =>
          rw [hpc] at hstep
          dsimp only at hstep
          rw [hdrive true (by simp [hpc])] at hstep
          exact ⟨e, _, _, rfl, (Option.some.inj hstep).symm, h.ready.setDtr,
            .inl ⟨hpc, rfl, h.ready.dtr_setDtr⟩⟩
      | holding =>
          rw [hpc] at hstep
          exact ⟨e, _, _, rfl, (Option.some.inj hstep).symm, h.ready, .inr (.inl ⟨hpc, rfl, rfl⟩)⟩
      | elapsed =>
          rw [hpc] at hstep
          dsimp only at hstep
          rw [hdrive false (by simp [hpc])] at hstep
          exact ⟨e, _, _, rfl, (Option.some.inj hstep).symm, h.ready.setDtr,
            .inr (.inr ⟨hpc, rfl, h.ready.dtr_setDtr⟩)⟩

/-! ## Marks -/

theorem Past.snoc {calls : List RunCwCall} {elements : List ElementThread} {marks : List Mark}
    {call : RunCwCall} {e : ElementThread} {m : Mark} (h : Past calls elements marks)
    (hcall : call.pc = .returned) (he : e.pc = .done)
    (hm : m.rise.isSome = true ∧ m.fall.isSome = true) :
    Past (calls ++ [call]) (elements ++ [e]) (marks ++ [m]) := by
  refine ⟨?_, ?_, ?_, ?_, ?_⟩
  · exact List.forall_mem_append.mpr ⟨h.returned, List.forall_mem_singleton.mpr hcall⟩
  · exact List.forall_mem_append.mpr ⟨h.done, List.forall_mem_singleton.mpr he⟩
  · exact List.forall_mem_append.mpr ⟨h.ended, List.forall_mem_singleton.mpr hm⟩
  · rw [List.length_append, List.length_append, h.length_elements]
    rfl
  · rw [List.length_append, List.length_append, h.length_marks]
    rfl

theorem Past.any_sounds {calls : List RunCwCall} {elements : List ElementThread}
    {marks : List Mark} (h : Past calls elements marks) : marks.any Mark.sounds = false := by
  rw [List.any_eq_false]
  intro m hm
  simp [Mark.sounds, Option.isSome_iff_ne_none.mp (h.ended m hm).2]

theorem Past.any_sounds_last {calls : List RunCwCall} {elements : List ElementThread}
    {marks : List Mark} (h : Past calls elements marks) (m : Mark) :
    (marks ++ [m]).any Mark.sounds = m.sounds := by
  rw [List.any_append, h.any_sounds, Bool.false_or, List.any_cons, List.any_nil, Bool.or_false]

/-- Time passes. -/
theorem OnTime.pass {space now wake ms : Nat} {marks : List Mark}
    (h : OnTime wpm space lateness now wake marks) :
    OnTime wpm space lateness (now + ms) wake marks :=
  ⟨fun m hm => ⟨(h.called m hm).1.trans (Nat.le_add_right ..), (h.called m hm).2⟩, h.punctual,
    h.apart⟩

/-- The last mark changes. -/
theorem OnTime.set_last {space now wake : Nat} {marks : List Mark} {m m' : Mark}
    (h : OnTime wpm space lateness now wake (marks ++ [m])) (hitem : m'.item = m.item)
    (hcalled : m'.called = m.called) (hpunctual : Punctual wpm lateness m') :
    OnTime wpm space lateness now wake (marks ++ [m']) := by
  have hlength : m'.length wpm = m.length wpm := by rw [Mark.length, hitem, Mark.length]
  obtain ⟨hpast, -, hlast⟩ := List.pairwise_append.mp h.apart
  refine ⟨?_, ?_, List.pairwise_append.mpr ⟨hpast, List.pairwise_singleton .., ?_⟩⟩
  · intro m₁ hm₁
    rcases List.mem_append.mp hm₁ with hm₁ | hm₁
    · exact h.called m₁ (List.mem_append_left _ hm₁)
    · obtain rfl := List.mem_singleton.mp hm₁
      rw [hcalled, hlength]
      exact h.called m (by simp)
  · intro m₁ hm₁
    rcases List.mem_append.mp hm₁ with hm₁ | hm₁
    · exact h.punctual m₁ (List.mem_append_left _ hm₁)
    · obtain rfl := List.mem_singleton.mp hm₁
      exact hpunctual
  · intro m₁ hm₁ m₂ hm₂
    obtain rfl := List.mem_singleton.mp hm₂
    rw [hcalled]
    exact hlast m₁ hm₁ m (by simp)

/-- An element is called for when all marks are over and the keyer's sleep
is. -/
theorem OnTime.call {space now wake wake' : Nat} {marks : List Mark} {m : Mark}
    (h : OnTime wpm space lateness now wake marks) (hawake : wake ≤ now)
    (hover : ∀ m ∈ marks, m.rise.isSome = true ∧ m.fall.isSome = true) (hcalled : m.called = now)
    (hrise : m.rise = none) (hwake : now + m.length wpm + space ≤ wake') :
    OnTime wpm space lateness now wake' (marks ++ [m]) := by
  refine ⟨?_, ?_, List.pairwise_append.mpr ⟨h.apart, List.pairwise_singleton .., ?_⟩⟩
  · intro m₁ hm₁
    rcases List.mem_append.mp hm₁ with hm₁ | hm₁
    · have hold := h.called m₁ hm₁
      omega
    · obtain rfl := List.mem_singleton.mp hm₁
      omega
  · intro m₁ hm₁
    rcases List.mem_append.mp hm₁ with hm₁ | hm₁
    · exact h.punctual m₁ hm₁
    · obtain rfl := List.mem_singleton.mp hm₁
      intro r hr
      rw [hrise] at hr
      cases hr
  · intro m₁ hm₁ m₂ hm₂
    obtain rfl := List.mem_singleton.mp hm₂
    obtain ⟨r, hr⟩ := Option.isSome_iff_exists.mp (hover m₁ hm₁).1
    obtain ⟨f, hf⟩ := Option.isSome_iff_exists.mp (hover m₁ hm₁).2
    refine ⟨f, hf, ?_⟩
    have hfall := ((h.punctual m₁ hm₁ r hr).2 f hf).2
    have hold := (h.called m₁ hm₁).2
    omega

/-! ## The invariant -/

theorem markInv_work (h : MarkInv wpm fd lateness s) (hprompt : s.Prompt wpm lateness)
    (hstep : s.work i = some s') : MarkInv wpm fd lateness s' := by
  obtain ⟨e, hi, hstep⟩ := Option.bind_eq_some_iff.mp hstep
  obtain ⟨m, hm, hstep⟩ := Option.bind_eq_some_iff.mp hstep
  obtain ⟨hawake, hstep⟩ := Option.ite_none_left_eq_some.mp hstep
  obtain ⟨serial, hserial, rfl⟩ := Option.map_eq_some_iff.mp hstep
  obtain ⟨e', pc, comm, hi', rfl, hready, hpc⟩ := elementStep_line h.line hserial
  obtain rfl := Option.some.inj (hi.symm.trans hi')
  have hlive : e.pc ≠ .done := by rcases hpc with ⟨hpc, -⟩ | ⟨hpc, -⟩ | ⟨hpc, -⟩ <;> simp [hpc]
  have hline : LinuxSerial.LineInv
      { s.serial with comm := comm, elements := s.serial.elements.set i { e with pc := pc } } fd :=
    h.line.set hready hi hlive
  cases h.phase with
  | rests past => exact absurd (past.done e (List.mem_of_getElem? hi)) hlive
  | calling calls call marks m₁ past =>
      exact absurd (past.done e (List.mem_of_getElem? hi)) hlive
  | playing calls call elements e₁ marks m₁ past hcalls helements hmarks hreturned hduration
      htracks =>
      rw [helements] at hi
      obtain ⟨rfl, rfl⟩ := last_of_getElem? past.done hi hlive
      have hlength : marks.length = elements.length :=
        past.length_marks.trans past.length_elements.symm
      obtain rfl : m₁ = m := by
        rw [hmarks, getElem?_last hlength] at hm
        exact Option.some.inj hm
      have htimes := h.times
      rw [hmarks] at htimes
      have hmem : m₁ ∈ s.marks := by simp [hmarks]
      have hlate : s.now ≤ m₁.called + m₁.length wpm + lateness := hprompt m₁ hmem htracks.1
      have hcalled : m₁.called ≤ s.now := (h.times.called m₁ hmem).1
      have hset (m' : Mark) : s.marks.set elements.length m' = marks ++ [m'] := by
        rw [hmarks, LinuxKeyer.set_last hlength]
      have hthreads (pc : ElementPc) : s.serial.elements.set elements.length { e with pc := pc }
          = elements ++ [{ e with pc := pc }] := by
        rw [helements, LinuxKeyer.set_last rfl]
      have hinv (m' : Mark) (hitem : m'.item = m₁.item) (hsame : m'.called = m₁.called)
          (hlevel : comm.dtr = some m'.sounds) (hpunctual : Punctual wpm lateness m')
          (hphase : Tracks s.now m' { e with pc := pc } ∨ pc = .done ∧ m'.rise.isSome = true
            ∧ m'.fall.isSome = true) :
          MarkInv wpm fd lateness { s with
            serial := { s.serial with
              comm := comm, elements := s.serial.elements.set elements.length { e with pc := pc } }
            marks := s.marks.set elements.length m' } := by
        refine ⟨h.elements, h.space, hline, ?_, ?_, ?_, ?_, h.rested⟩
        · show comm.dtr = some ((s.marks.set elements.length m').any Mark.sounds)
          rw [hset, past.any_sounds_last, hlevel]
        · rcases hphase with htracks' | ⟨rfl, hover⟩
          · exact .playing calls call elements { e with pc := pc } marks m' past hcalls
              (hthreads pc) (hset m') hreturned (hitem ▸ hduration) htracks'
          · refine .rests ?_
            show Past s.serial.calls (s.serial.elements.set _ _) (s.marks.set _ _)
            rw [hcalls, hthreads, hset]
            exact past.snoc hreturned rfl hover
        · show OnTime _ _ _ _ _ (s.marks.set elements.length m')
          rw [hset]
          exact htimes.set_last hitem hsame hpunctual
        · show (s.marks.set elements.length m').map Mark.item = s.keyer.started
          rw [← h.items, hset, hmarks]
          simp [hitem]
      rcases hpc with ⟨hpc, rfl, hlevel⟩ | ⟨hpc, rfl, hlevel⟩ | ⟨hpc, rfl, hlevel⟩
      · have hwritten : m₁.written e.pc s.now = { m₁ with rise := some s.now } := by
          rw [hpc]
          rfl
        rw [hwritten]
        refine hinv _ rfl rfl ?_ ?_ (.inl ⟨htracks.1, rfl⟩)
        · rw [hlevel, Mark.sounds, htracks.1]
          rfl
        · intro r hr
          obtain rfl := Option.some.inj hr
          refine ⟨hcalled, fun f hf => ?_⟩
          rw [show m₁.fall = none from htracks.1] at hf
          cases hf
      · have hwritten : m₁.written e.pc s.now = m₁ := by
          rw [hpc]
          rfl
        rw [hwritten]
        have hrisen : m₁.rise.isSome = true := by simpa [Tracks, hpc] using htracks.2
        obtain ⟨r, hr⟩ := Option.isSome_iff_exists.mp hrisen
        refine hinv m₁ rfl rfl ?_ (htimes.punctual m₁ (by simp)) (.inl ⟨htracks.1, r, hr, ?_⟩)
        · rw [hlevel, h.level, hmarks, past.any_sounds_last]
        · simpa [hpc, hr] using hawake
      · have hwritten : m₁.written e.pc s.now = { m₁ with fall := some s.now } := by
          rw [hpc]
          rfl
        rw [hwritten]
        obtain ⟨r, hr, hslept⟩ : ∃ r, m₁.rise = some r ∧ r + e.duration.toNat ≤ s.now := by
          simpa [Tracks, hpc] using htracks.2
        have hduration : e.duration.toNat = m₁.length wpm := by rw [hduration, Mark.length]
        refine hinv _ rfl rfl ?_ ?_ (.inr ⟨rfl, by simp [hr], rfl⟩)
        · rw [hlevel, Mark.sounds]
          simp
        · intro r' hr'
          obtain rfl := Option.some.inj (hr.symm.trans hr')
          refine ⟨(htimes.punctual m₁ (by simp) r hr).1, fun f hf => ?_⟩
          obtain rfl := Option.some.inj hf
          exact ⟨hduration ▸ hslept, hlate⟩

/-- With a space between the elements there is an element. -/
theorem sleep_eq {item : KeyerItem} (hitem : item.isElement = true)
    (hspace : 0 < (calculateDuration .interElementSpace wpm).toNat) :
    (calculateDuration item wpm + calculateDuration .interElementSpace wpm).toNat
      = (calculateDuration item wpm).toNat + (calculateDuration .interElementSpace wpm).toNat := by
  have hdit : calculateDuration .dit wpm = calculateDuration .interElementSpace wpm := rfl
  have hdah : calculateDuration .dah wpm = calculateDuration .interElementSpace wpm * 3 := rfl
  rcases Bool.or_eq_true_iff.mp hitem with h | h
  · obtain rfl := of_decide_eq_true h
    omega
  · obtain rfl := of_decide_eq_true h
    omega

/-- At the end of the keyer's sleep the last element is over. -/
theorem MarkInv.past (h : MarkInv wpm fd lateness s)
    (hlate : lateness < (calculateDuration .interElementSpace wpm).toNat)
    (hprompt : s.Prompt wpm lateness) (hfree : s.keyer.playing = none) :
    Past s.serial.calls s.serial.elements s.marks := by
  obtain ⟨hreturned, hawake⟩ := h.rested hfree
  cases h.phase with
  | rests past => exact past
  | calling calls call marks m past hcalls hmarks hpc =>
      exact absurd (calling_eq_false.mp hreturned call (by simp [hcalls])) hpc
  | playing calls call elements e marks m past hcalls helements hmarks hpc hduration htracks =>
      have hmem : m ∈ s.marks := by simp [hmarks]
      have hover := hprompt m hmem htracks.1
      have hwake := (h.times.called m hmem).2
      omega

theorem markInv_start (h : MarkInv wpm fd lateness s)
    (hlate : lateness < (calculateDuration .interElementSpace wpm).toNat)
    (hprompt : s.Prompt wpm lateness) (hstep : s.start = some s') :
    MarkInv wpm fd lateness s' := by
  obtain ⟨keyer, hkeyer, hstep⟩ := Option.bind_eq_some_iff.mp hstep
  have helements := elementInv_step h.elements hkeyer
  obtain ⟨item, rest, hfree, hqueue, rfl⟩ := paddleKeyer_start hkeyer
  have hpast := h.past hlate hprompt hfree
  have hitem : item.isElement = true := h.elements.queue item (by simp [hqueue])
  have hplay := Keyer.playDitDah_of_isElement hitem h.elements.configured
  rw [hqueue, List.head?_cons, Option.bind_some, hplay] at hstep
  rw [hplay] at helements
  obtain ⟨serial, hserial, rfl⟩ := Option.map_eq_some_iff.mp hstep
  obtain rfl := Option.some.inj hserial
  rw [if_pos h.line.ready.running]
  refine ⟨helements, h.space, ⟨h.line.ready, h.line.captured⟩, ?_, ?_, ?_, ?_, nofun⟩
  · show s.serial.comm.dtr = some ((s.marks ++ _).any Mark.sounds)
    rw [h.level, hpast.any_sounds_last, hpast.any_sounds]
    rfl
  · exact .calling s.serial.calls _ s.marks _ hpast rfl rfl (by simp) rfl rfl rfl
  · refine h.times.call (h.rested hfree).2 hpast.ended rfl rfl ?_
    rw [h.space, sleep_eq hitem (by omega), Mark.length, Nat.add_assoc]
  · simp [h.items]

theorem markInv_call (h : MarkInv wpm fd lateness s) {serial : LinuxSerial}
    (hstep : s.serial.callStep i = some serial) :
    MarkInv wpm fd lateness { s with serial := serial } := by
  obtain ⟨hline, hcomm, -⟩ := LinuxSerial.lineInv_call h.line hstep
  obtain ⟨call, hi, hstep⟩ := LinuxSerial.callStep_cases hstep
  have hpc : call.pc ≠ .returned := by rcases hstep with ⟨hpc, -⟩ | ⟨hpc, -⟩ <;> simp [hpc]
  cases h.phase with
  | rests past => exact absurd (past.returned call (List.mem_of_getElem? hi)) hpc
  | playing calls call₁ elements e marks m past hcalls helements hmarks hreturned =>
      rw [hcalls] at hi
      obtain ⟨-, rfl⟩ := last_of_getElem? past.returned hi hpc
      exact absurd hreturned hpc
  | calling calls call₁ marks m past hcalls hmarks hcalling hduration hrise hfall =>
      rw [hcalls] at hi
      obtain ⟨rfl, rfl⟩ := last_of_getElem? past.returned hi hpc
      have hset (pc : RunCwPc) : s.serial.calls.set calls.length { call with pc := pc }
          = calls ++ [{ call with pc := pc }] := by
        rw [hcalls, LinuxKeyer.set_last rfl]
      have hbusy : s.keyer.playing = none → False := fun hfree =>
        hpc (calling_eq_false.mp (h.rested hfree).1 call (by simp [hcalls]))
      refine ⟨h.elements, h.space, hline, hcomm ▸ h.level, ?_, h.times, h.items,
        fun hfree => (hbusy hfree).elim⟩
      rcases hstep with ⟨-, rfl⟩ | ⟨-, rfl⟩
      · have hport : s.serial.comm.hSerial.isNone = false := by simp [h.line.ready.serial]
        rw [hport]
        exact .calling calls _ marks m past (hset .hand) hmarks (by simp) hduration hrise hfall
      · exact .playing calls _ s.serial.elements _ marks m past (hset .returned) rfl hmarks rfl
          hduration ⟨hfall, hrise⟩

theorem Phase.pass (h : Phase wpm s) (ms : Nat) : Phase wpm { s with now := s.now + ms } := by
  cases h with
  | rests past => exact .rests past
  | calling calls call marks m past hcalls hmarks hpc hduration hrise hfall =>
      exact .calling calls call marks m past hcalls hmarks hpc hduration hrise hfall
  | playing calls call elements e marks m past hcalls helements hmarks hpc hduration htracks =>
      refine .playing calls call elements e marks m past hcalls helements hmarks hpc hduration
        ⟨htracks.1, ?_⟩
      cases he : e.pc with
      | toSet | holding | done => simpa [he] using htracks.2
      | elapsed =>
          obtain ⟨r, hr, hslept⟩ : ∃ r, m.rise = some r ∧ r + e.duration.toNat ≤ s.now := by
            simpa [he] using htracks.2
          exact ⟨r, hr, hslept.trans (Nat.le_add_right ..)⟩

/-- A paddle event, or the end of an element for the keyer. -/
theorem markInv_paddle (h : MarkInv wpm fd lateness s) {a : KeyerAct} {keyer : KeyerRun}
    (hkeyer : paddleKeyer.step s.keyer a = some keyer) (hstarted : keyer.started = s.keyer.started)
    (hrested : keyer.playing = none → s.calling = false ∧ s.wake ≤ s.now) :
    MarkInv wpm fd lateness { s with keyer := keyer } := by
  refine ⟨elementInv_step h.elements hkeyer, (spaceTime_step hkeyer).trans h.space, h.line,
    h.level, ?_, h.times, h.items.trans hstarted.symm, hrested⟩
  cases h.phase with
  | rests past => exact .rests past
  | calling calls call marks m past hcalls hmarks hpc hduration hrise hfall =>
      exact .calling calls call marks m past hcalls hmarks hpc hduration hrise hfall
  | playing calls call elements e marks m past hcalls helements hmarks hpc hduration htracks =>
      exact .playing calls call elements e marks m past hcalls helements hmarks hpc hduration
        htracks

theorem markInv_step {a : ClockAct} (h : MarkInv wpm fd lateness s)
    (hlate : lateness < (calculateDuration .interElementSpace wpm).toNat)
    (hprompt : s.Prompt wpm lateness) (hstep : linuxKeyer.step s a = some s') :
    MarkInv wpm fd lateness s' := by
  cases a with
  | work i => exact markInv_work h hprompt hstep
  | call i =>
      obtain ⟨serial, hserial, rfl⟩ := Option.map_eq_some_iff.mp hstep
      exact markInv_call h hserial
  | pass ms =>
      obtain rfl := Option.some.inj hstep
      refine ⟨h.elements, h.space, h.line, h.level, h.phase.pass ms, h.times.pass, h.items,
        fun hfree => ?_⟩
      exact ⟨(h.rested hfree).1, (h.rested hfree).2.trans (Nat.le_add_right ..)⟩
  | paddle a =>
      cases a with
      | start => exact markInv_start h hlate hprompt hstep
      | onDit pressed =>
          obtain rfl := Option.some.inj hstep
          exact markInv_paddle (a := .onDit pressed) h rfl rfl h.rested
      | onDah pressed =>
          obtain rfl := Option.some.inj hstep
          exact markInv_paddle (a := .onDah pressed) h rfl rfl h.rested
      | finish =>
          obtain ⟨hguard, hstep⟩ := Option.ite_none_left_eq_some.mp hstep
          obtain ⟨keyer, hkeyer, rfl⟩ := Option.map_eq_some_iff.mp hstep
          obtain ⟨item, squeeze, -, rfl⟩ := paddleKeyer_finish hkeyer
          refine markInv_paddle h hkeyer rfl fun _ => ?_
          simpa using hguard

/-! ## Runs -/

/-- The keyer has just been set up, and the port opened. -/
def started (lastPressed lastQueued : KeyerItem) (wpm : Int) (mode : Mode) (serial : LinuxSerial) :
    LinuxKeyer where
  keyer := .init lastPressed lastQueued wpm mode
  serial := serial

theorem markInv_started {lastPressed lastQueued : KeyerItem} {mode : Mode} {level : Bool}
    {serial : LinuxSerial}
    (hport : (linuxSerial false).run {} [.start (some fd) level, .main true] = some serial) :
    MarkInv wpm fd lateness (started lastPressed lastQueued wpm mode serial) := by
  have hline := (LinuxSerial.started_of_start hport).lineInv
  obtain rfl := Option.some.inj hport
  have hnone {α : Type} (p : α → Prop) : ∀ a ∈ ([] : List α), p a :=
    fun _ hmem => absurd hmem List.not_mem_nil
  refine ⟨elementInv_init .., rfl, hline, ?_, .rests ⟨hnone _, hnone _, hnone _, rfl, rfl⟩, ?_, rfl,
    ?_⟩
  · exact Lines.level_drive (by simp [SerialComm.openPort])
  · exact ⟨hnone _, hnone _, .nil⟩
  · exact fun _ => ⟨rfl, le_rfl⟩

end LinuxKeyer

open LinuxKeyer in
/-- **Separate marks.** The elements that the keyer has started are on the
line, each with its length and at most `lateness` more, and between two of
them DTR is low for a space, less `lateness` at most. -/
theorem marks_keep_apart {lastPressed lastQueued : KeyerItem} {wpm : Int} {mode : Mode}
    {fd lateness : Nat} {level : Bool} {serial : LinuxSerial}
    (hport : (linuxSerial false).run {} [.start (some fd) level, .main true] = some serial)
    (hlate : lateness < (calculateDuration .interElementSpace wpm).toNat) {as : List ClockAct}
    {t : LinuxKeyer}
    (hprompt : linuxKeyer.Along (fun s _ _ => s.Prompt wpm lateness)
      (started lastPressed lastQueued wpm mode serial) as)
    (hrun : linuxKeyer.run (started lastPressed lastQueued wpm mode serial) as = some t) :
    t.marks.map Mark.item = t.keyer.started
      ∧ t.serial.comm.dtr = some (t.marks.any Mark.sounds)
      ∧ (∀ m ∈ t.marks, ∀ r ∈ m.rise, ∀ f ∈ m.fall,
          r + m.length wpm ≤ f ∧ f ≤ r + m.length wpm + lateness)
      ∧ t.marks.Pairwise fun m m' => ∀ r ∈ m'.rise,
          ∃ f ∈ m.fall, f + (calculateDuration .interElementSpace wpm).toNat ≤ r + lateness := by
  have hinv : MarkInv wpm fd lateness t :=
    Machine.run_invariant (fun s a s' h hprompt hstep => markInv_step h hlate hprompt hstep)
      (markInv_started hport) hprompt hrun
  refine ⟨hinv.items, hinv.level, ?_, ?_⟩
  · intro m hm r hr f hf
    obtain ⟨hcalled, hfall⟩ := hinv.times.punctual m hm r hr
    obtain ⟨hlong, hshort⟩ := hfall f hf
    exact ⟨hlong, by omega⟩
  · refine hinv.times.apart.imp_of_mem fun {m m'} _ hm' ⟨f, hf, hgap⟩ r hr => ⟨f, hf, ?_⟩
    have hcalled := (hinv.times.punctual m' hm' r hr).1
    omega

/-- A paddle is held for two dits at 20 words per minute. The first mark ends
5 ms late, the second starts 2 ms late. -/
theorem marks_keep_apart_twoDits :
    ∃ t, linuxKeyer.run (LinuxKeyer.started .dit .dit 20 .iambicB
          { comm := { hSerial := some 3, running := true, ports := [(3, false)] } })
        [.paddle (.onDit true), .paddle .start, .call 0, .call 0, .work 0, .pass 60, .work 0,
          .pass 5, .work 0, .pass 55, .paddle .finish, .paddle .start, .call 1, .call 1, .pass 2,
          .work 1, .pass 60, .work 1, .work 1] = some t
      ∧ t.keyer.started = [.dit, .dit]
      ∧ t.marks.Pairwise fun m m' => ∀ r ∈ m'.rise, ∃ f ∈ m.fall, f + 60 ≤ r + 10 := by
  obtain ⟨t, hrun⟩ : ∃ t, linuxKeyer.run (LinuxKeyer.started .dit .dit 20 .iambicB
          { comm := { hSerial := some 3, running := true, ports := [(3, false)] } })
        [.paddle (.onDit true), .paddle .start, .call 0, .call 0, .work 0, .pass 60, .work 0,
          .pass 5, .work 0, .pass 55, .paddle .finish, .paddle .start, .call 1, .call 1, .pass 2,
          .work 1, .pass 60, .work 1, .work 1] = some t := ⟨_, rfl⟩
  have hport : (linuxSerial false).run {} [.start (some 3) false, .main true] =
      some { comm := { hSerial := some 3, running := true, ports := [(3, false)] } } := rfl
  have hlate : 10 < (calculateDuration .interElementSpace 20).toNat := by decide
  have hapart := (marks_keep_apart hport hlate (by decide) hrun).2.2.2
  refine ⟨t, hrun, ?_, hapart⟩
  obtain rfl := Option.some.inj hrun
  rfl

end CwKeyer
