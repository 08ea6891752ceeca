import CwKeyer.Serial.DtrLine
import CwKeyer.Serial.Requests

/-!
# DTR at rest

Every thread that sets DTR clears it again, and so does `start`. So an open
port has DTR low when the straight key is up and no element has it set, over
any number of sessions and whatever other descriptors the process opens and
closes (`dtr_low_at_rest`). On Linux an element that a former session has
left may hold the new port's number: it counts as one that has DTR set.
-/

namespace CwKeyer

variable {fd i : Nat}

theorem SerialComm.level_setDtr {c : SerialComm} (hserial : c.hSerial = some fd)
    (hopen : fd ∈ c.ports.numbers) : (c.setDtr false).ports.level fd = some false := by
  show (c.ports.drive c.hSerial false).level fd = some false
  rw [hserial]
  exact Lines.level_drive hopen

/-! ## Linux -/

/-- The element has set the line of `fd`, and has not cleared it yet. -/
def ElementThread.Sets (e : ElementThread) (fd : Nat) : Prop :=
  e.fd = some fd ∧ (e.pc = .holding ∨ e.pc = .elapsed)

/-- In these states of `start` and `stop` the port, if there is one, is open. -/
def SerialMain.holdsPort : SerialMain → Bool
  | .idle | .clear | .close => true
  | _ => false

namespace LinuxSerial

variable {s s' : LinuxSerial}

def Keyed (s : LinuxSerial) (fd : Nat) : Prop :=
  s.straight = true ∨ ∃ e ∈ s.elements, e.Sets fd

structure RestInv (s : LinuxSerial) : Prop where
  port : s.main.holdsPort = true → ∀ fd ∈ s.comm.hSerial,
    s.comm.Ready fd ∧ (¬s.Keyed fd → s.comm.ports.level fd = some false)
  opening : s.main = .configure → ∀ fd ∈ s.comm.hSerial, fd ∈ s.comm.ports.numbers
  halted : s.main = .halt → s.comm.hSerial = none

theorem restInv_init : RestInv {} := ⟨fun _ _ h => (nomatch h), nofun, nofun⟩

/-- Steps that leave the port's line and what keys it alone. -/
theorem RestInv.of_same (h : RestInv s) (hserial : s'.comm.hSerial = s.comm.hSerial)
    (hrunning : s'.comm.running = s.comm.running) (hmain : s'.main = s.main)
    (hnumbers : ∀ fd ∈ s.comm.hSerial, fd ∈ s.comm.ports.numbers → fd ∈ s'.comm.ports.numbers)
    (hlevel : ∀ fd ∈ s.comm.hSerial, s.comm.Ready fd → ¬s'.Keyed fd →
      s'.comm.ports.level fd = some false ∨
        ¬s.Keyed fd ∧ s'.comm.ports.level fd = s.comm.ports.level fd) : RestInv s' := by
  refine ⟨?_, ?_, ?_⟩
  · rw [hmain, hserial]
    intro hopen fd hfd
    obtain ⟨hready, hlow⟩ := h.port hopen fd hfd
    refine ⟨⟨hserial.trans hready.serial, hrunning.trans hready.running,
      hnumbers fd hfd hready.opened⟩, fun hkeyed => ?_⟩
    rcases hlevel fd hfd hready hkeyed with hcleared | ⟨hbefore, hsame⟩
    · exact hcleared
    · exact hsame.trans (hlow hbefore)
  · rw [hmain, hserial]
    exact fun hopening fd hfd => hnumbers fd hfd (h.opening hopening fd hfd)
  · rw [hmain, hserial]
    exact h.halted

/-- An element of another line does not key this one. -/
theorem keyed_of_set {e : ElementThread} {pc : ElementPc} (hi : s.elements[i]? = some e)
    (hnot : ¬e.Sets fd)
    (h : ¬(s.straight = true ∨ ∃ e' ∈ s.elements.set i { e with pc := pc }, e'.Sets fd)) :
    ¬s.Keyed fd := by
  rintro (hstraight | ⟨e', he', hsets⟩)
  · exact h (.inl hstraight)
  · obtain ⟨j, hj⟩ := List.mem_iff_getElem?.mp he'
    have hne : i ≠ j := by
      rintro rfl
      obtain rfl := Option.some.inj (hi.symm.trans hj)
      exact hnot hsets
    refine h (.inr ⟨e', List.mem_of_getElem? (i := j) ?_, hsets⟩)
    rw [List.getElem?_set_ne hne, hj]

theorem RestInv.element_step (h : RestInv s) (hstep : s.elementStep i = some s') : RestInv s' := by
  unfold elementStep at hstep
  cases hi : s.elements[i]? with
  | none => rw [hi] at hstep; cases hstep
  | some e =>
      rw [hi] at hstep
      dsimp only at hstep
      have hmem (pc : ElementPc) : { e with pc := pc } ∈ s.elements.set i { e with pc := pc } :=
        List.mem_set (List.getElem?_eq_some_iff.mp hi).1 _
      cases hpc : e.pc with
      | done => rw [hpc] at hstep; cases hstep
      | toSet =>
          rw [hpc] at hstep
          obtain rfl := Option.some.inj hstep
          refine h.of_same rfl rfl rfl (fun fd _ hopen => by simpa using hopen) ?_
          intro fd hfd hready hkeyed
          have hne : e.fd ≠ some fd := fun heq => hkeyed (.inr ⟨_, hmem .holding, heq, .inl rfl⟩)
          exact .inr ⟨keyed_of_set hi (fun hsets => hne hsets.1) hkeyed,
            Lines.level_drive_of_ne hne⟩
      | holding =>
          rw [hpc] at hstep
          obtain rfl := Option.some.inj hstep
          refine h.of_same rfl rfl rfl (fun fd _ hopen => hopen) ?_
          intro fd hfd hready hkeyed
          have hne : e.fd ≠ some fd := fun heq => hkeyed (.inr ⟨_, hmem .elapsed, heq, .inr rfl⟩)
          exact .inr ⟨keyed_of_set hi (fun hsets => hne hsets.1) hkeyed, rfl⟩
      | elapsed =>
          rw [hpc] at hstep
          obtain rfl := Option.some.inj hstep
          refine h.of_same rfl rfl rfl (fun fd _ hopen => by simpa using hopen) ?_
          intro fd hfd hready hkeyed
          by_cases heq : e.fd = some fd
          · left
            rw [heq]
            exact Lines.level_drive hready.opened
          · exact .inr ⟨keyed_of_set hi (fun hsets => heq hsets.1) hkeyed,
              Lines.level_drive_of_ne heq⟩

theorem RestInv.main_step {ok : Bool} (h : RestInv s) (hstep : s.mainStep false ok = some s') :
    RestInv s' := by
  unfold mainStep at hstep
  cases hmain : s.main with
  | idle | join => rw [hmain] at hstep; cases hstep
  | configure =>
      rw [hmain] at hstep
      cases ok with
      | true =>
          obtain rfl := Option.some.inj hstep
          refine ⟨fun _ fd hfd => ?_, nofun, nofun⟩
          have hopen := h.opening hmain fd hfd
          have hserial : s.comm.hSerial = some fd := hfd
          exact ⟨⟨hserial, rfl, by simpa using hopen⟩, fun _ =>
            SerialComm.level_setDtr hserial hopen⟩
      | false =>
          obtain rfl := Option.some.inj hstep
          exact ⟨fun _ fd hfd => (nomatch hfd), nofun, nofun⟩
  | clear =>
      rw [hmain] at hstep
      obtain rfl := Option.some.inj hstep
      refine ⟨fun _ fd hfd => ?_, nofun, nofun⟩
      have hready := (h.port (by rw [hmain]; rfl) fd hfd).1
      exact ⟨hready.setDtr, fun _ => SerialComm.level_setDtr hready.serial hready.opened⟩
  | close =>
      rw [hmain] at hstep
      obtain rfl := Option.some.inj hstep
      exact ⟨nofun, nofun, nofun⟩
  | invalidate =>
      rw [hmain] at hstep
      obtain rfl := Option.some.inj hstep
      exact ⟨nofun, nofun, fun _ => rfl⟩
  | halt =>
      rw [hmain] at hstep
      obtain rfl := Option.some.inj hstep
      refine ⟨fun _ fd hfd => ?_, nofun, nofun⟩
      have hnone : s.comm.hSerial = none := h.halted hmain
      rw [show fd ∈ s.comm.hSerial from hfd] at hnone
      cases hnone

theorem RestInv.step {a : SerialAct} (h : RestInv s)
    (hstep : (linuxSerial false).step s a = some s') : RestInv s' := by
  cases a with
  | work i => exact h.element_step hstep
  | main ok => exact h.main_step hstep
  | call i =>
      obtain ⟨call, hi, ⟨hpc, rfl⟩ | ⟨hpc, rfl⟩⟩ := callStep_cases hstep
      · exact h.of_same rfl rfl rfl (fun _ _ hopen => hopen) fun _ _ _ hkeyed => .inr ⟨hkeyed, rfl⟩
      · refine h.of_same rfl rfl rfl (fun _ _ hopen => hopen) ?_
        intro fd hfd hready hkeyed
        refine .inr ⟨?_, rfl⟩
        rintro (hstraight | ⟨e, he, hsets⟩)
        · exact hkeyed (.inl hstraight)
        · exact hkeyed (.inr ⟨e, List.mem_append_left _ he, hsets⟩)
  | runCW item duration =>
      obtain rfl := Option.some.inj hstep
      split <;> exact h.of_same rfl rfl rfl (fun _ _ hopen => hopen) fun _ _ _ hkeyed => .inr ⟨hkeyed, rfl⟩
  | startRunCw =>
      obtain rfl := Option.some.inj hstep
      obtain ⟨hserial, hrunning, hnumbers⟩ := s.comm.startRunCw_port
      refine h.of_same hserial hrunning rfl (fun fd _ hopen => hnumbers ▸ hopen) ?_
      · exact fun fd _ _ hkeyed => absurd (.inl rfl) hkeyed
  | stopRunCw =>
      obtain rfl := Option.some.inj hstep
      obtain ⟨hserial, hrunning, hnumbers⟩ := s.comm.stopRunCw_port
      refine h.of_same hserial hrunning rfl (fun fd _ hopen => hnumbers ▸ hopen) ?_
      · intro fd _ hready _
        left
        show s.comm.stopRunCw.ports.level fd = some false
        rw [hready.stopRunCw]
        exact SerialComm.level_setDtr hready.serial hready.opened
  | start fd level =>
      obtain ⟨⟨hmain, -⟩, hstep⟩ := Option.ite_none_right_eq_some.mp hstep
      split at hstep
      case isTrue =>
        obtain rfl := Option.some.inj hstep
        exact h
      case isFalse hrunning =>
        obtain rfl := Option.some.inj hstep
        cases fd with
        | none => exact ⟨fun _ fd hfd => (nomatch hfd), nofun, nofun⟩
        | some n =>
            refine ⟨nofun, fun _ fd hfd => ?_, nofun⟩
            obtain rfl : n = fd := Option.some.inj hfd
            exact Lines.mem_numbers_opened.mpr (.inr rfl)
  | stop =>
      obtain ⟨hmain, hstep⟩ := Option.ite_none_right_eq_some.mp hstep
      split at hstep
      · obtain rfl := Option.some.inj hstep
        refine ⟨fun _ fd hfd => ?_, nofun, nofun⟩
        exact h.port (by rw [hmain]; rfl) fd hfd
      · obtain rfl := Option.some.inj hstep
        exact ⟨h.port, h.opening, h.halted⟩
  | openOther other level =>
      obtain ⟨hfree, hstep⟩ := Option.ite_none_right_eq_some.mp hstep
      obtain rfl := Option.some.inj hstep
      refine h.of_same rfl rfl rfl (fun fd _ hopen => Lines.mem_numbers_opened.mpr (.inl hopen)) ?_
      intro fd _ hready hkeyed
      have hne : other ≠ fd := fun heq => hfree (heq ▸ hready.opened)
      exact .inr ⟨hkeyed, Lines.level_opened_of_ne hne⟩
  | closeOther other =>
      obtain ⟨hother, hstep⟩ := Option.ite_none_right_eq_some.mp hstep
      obtain rfl := Option.some.inj hstep
      have hne {fd : Nat} (hfd : fd ∈ s.comm.hSerial) : some fd ≠ some other := fun heq =>
        hother ((show s.comm.hSerial = some fd from hfd).trans heq)
      refine h.of_same rfl rfl rfl (fun fd hfd hopen =>
        Lines.mem_numbers_closed.mpr ⟨hopen, hne hfd⟩) ?_
      exact fun fd hfd _ hkeyed => .inr ⟨hkeyed, Lines.level_closed_of_ne (hne hfd).symm⟩

end LinuxSerial

/-! ## Windows -/

namespace WindowsSerial

variable {s s' : WindowsSerial}

structure RestInv (s : WindowsSerial) : Prop where
  session : s.Session
  port : s.main = .idle → ∀ fd ∈ s.comm.hSerial,
    s.comm.Ready fd ∧ (s.straight = false → s.sets = [] → s.comm.ports.level fd = some false)

theorem restInv_init : RestInv {} :=
  ⟨session_init, fun _ _ h => (nomatch h)⟩

/-- Steps that leave the port's line, the straight key and what the worker
has set alone. -/
theorem RestInv.of_same (h : RestInv s) (hsession : s'.Session)
    (hserial : s'.comm.hSerial = s.comm.hSerial) (hrunning : s'.comm.running = s.comm.running)
    (hmain : s'.main = s.main)
    (hnumbers : ∀ fd ∈ s.comm.hSerial, fd ∈ s.comm.ports.numbers → fd ∈ s'.comm.ports.numbers)
    (hlevel : ∀ fd ∈ s.comm.hSerial, s.comm.Ready fd → s'.straight = false → s'.sets = [] →
      s'.comm.ports.level fd = some false ∨ s.straight = false ∧ s.sets = []
        ∧ s'.comm.ports.level fd = s.comm.ports.level fd) : RestInv s' := by
  refine ⟨hsession, ?_⟩
  rw [hmain, hserial]
  intro hidle fd hfd
  obtain ⟨hready, hlow⟩ := h.port hidle fd hfd
  refine ⟨⟨hserial.trans hready.serial, hrunning.trans hready.running,
    hnumbers fd hfd hready.opened⟩, fun hup hclear => ?_⟩
  rcases hlevel fd hfd hready hup hclear with hcleared | ⟨hup', hclear', hsame⟩
  · exact hcleared
  · exact hsame.trans (hlow hup' hclear')

theorem RestInv.worker_step (h : RestInv s) (hstep : s.workerStep = some s') : RestInv s' := by
  have hsession := h.session.worker_step hstep
  unfold workerStep at hstep
  cases hworker : s.worker with
  | none => rw [hworker] at hstep; cases hstep
  | some pc =>
      rw [hworker] at hstep
      cases pc with
      | exited => cases hstep
      | head =>
          obtain rfl := Option.some.inj hstep
          obtain ⟨-, hsets⟩ := idle_of_worker (.inr (.inl rfl)) hworker
          exact h.of_same hsession rfl rfl rfl (fun _ _ hopen => hopen)
            fun _ _ _ hup _ => .inr ⟨hup, hsets, rfl⟩
      | waiting =>
          obtain ⟨-, hsets⟩ := idle_of_worker (.inr (.inr (.inl rfl))) hworker
          cases hqueue : s.queue <;>
          · rw [hqueue] at hstep
            obtain rfl := Option.some.inj hstep
            exact h.of_same hsession rfl rfl rfl (fun _ _ hopen => hopen)
              fun _ _ _ hup _ => .inr ⟨hup, hsets, rfl⟩
      | toSet request =>
          obtain rfl := Option.some.inj hstep
          exact h.of_same hsession rfl rfl rfl (fun _ _ hopen => by simpa using hopen)
            fun _ _ _ _ hclear => (nomatch hclear)
      | holding request =>
          obtain rfl := Option.some.inj hstep
          exact h.of_same hsession rfl rfl rfl (fun _ _ hopen => hopen)
            fun _ _ _ _ hclear => (nomatch hclear)
      | elapsed request =>
          obtain rfl := Option.some.inj hstep
          exact h.of_same hsession rfl rfl rfl (fun _ _ hopen => by simpa using hopen)
            fun _ _ hready _ _ => .inl (SerialComm.level_setDtr hready.serial hready.opened)

theorem RestInv.main_step {ok : Bool} (h : RestInv s) (hstep : s.mainStep ok = some s') :
    RestInv s' := by
  have hsession := h.session.main_step hstep
  unfold mainStep at hstep
  cases hmain : s.main with
  | idle | halt => rw [hmain] at hstep; cases hstep
  | configure =>
      rw [hmain] at hstep
      cases ok with
      | true =>
          obtain rfl := Option.some.inj hstep
          refine ⟨hsession, fun _ fd hfd => ?_⟩
          have hserial : s.comm.hSerial = some fd := hfd
          have hopen := (h.session.opening hmain).mem_numbers hserial
          exact ⟨⟨hserial, rfl, by simpa using hopen⟩, fun _ _ =>
            SerialComm.level_setDtr hserial hopen⟩
      | false =>
          obtain rfl := Option.some.inj hstep
          exact ⟨hsession, fun _ fd hfd => (nomatch hfd)⟩
  | join =>
      rw [hmain] at hstep
      cases hworker : s.worker with
      | none =>
          rw [hworker] at hstep
          obtain rfl := Option.some.inj hstep
          exact ⟨hsession, nofun⟩
      | some pc =>
          rw [hworker] at hstep
          cases pc with
          | exited =>
              obtain rfl := Option.some.inj hstep
              exact ⟨hsession, nofun⟩
          | head | waiting | toSet | holding | elapsed => cases hstep
  | clear =>
      rw [hmain] at hstep
      dsimp only at hstep
      split_ifs at hstep with hserial
      · obtain rfl := Option.some.inj hstep
        exact ⟨hsession, nofun⟩
      · obtain rfl := Option.some.inj hstep
        refine ⟨hsession, fun _ fd hfd => ?_⟩
        exact absurd (Option.isSome_iff_exists.mpr ⟨fd, hfd⟩) hserial
  | close =>
      rw [hmain] at hstep
      obtain rfl := Option.some.inj hstep
      exact ⟨hsession, nofun⟩
  | invalidate =>
      rw [hmain] at hstep
      obtain rfl := Option.some.inj hstep
      exact ⟨hsession, fun _ fd hfd => (nomatch hfd)⟩

theorem RestInv.step {a : SerialAct} (h : RestInv s) (hstep : windowsSerial.step s a = some s') :
    RestInv s' := by
  have hsession := h.session.step hstep
  cases a with
  | work i => exact h.worker_step hstep
  | main ok => exact h.main_step hstep
  | call i =>
      obtain ⟨call, hi, ⟨hpc, rfl⟩ | ⟨hpc, -, rfl⟩⟩ := callStep_cases hstep <;>
        exact h.of_same hsession rfl rfl rfl (fun _ _ hopen => hopen)
          fun _ _ _ hup hclear => .inr ⟨hup, hclear, rfl⟩
  | runCW item duration =>
      obtain rfl := Option.some.inj hstep
      refine h.of_same hsession ?_ ?_ ?_ ?_ ?_ <;> split <;>
        first | rfl | exact fun _ _ hopen => hopen |
          exact fun _ _ _ hup hclear => .inr ⟨hup, hclear, rfl⟩
  | startRunCw =>
      obtain rfl := Option.some.inj hstep
      obtain ⟨hserial, hrunning, hnumbers⟩ := s.comm.startRunCw_port
      refine h.of_same hsession hserial hrunning rfl (fun fd _ hopen => hnumbers ▸ hopen) ?_
      · exact fun _ _ _ hup _ => (nomatch hup)
  | stopRunCw =>
      obtain rfl := Option.some.inj hstep
      obtain ⟨hserial, hrunning, hnumbers⟩ := s.comm.stopRunCw_port
      refine h.of_same hsession hserial hrunning rfl (fun fd _ hopen => hnumbers ▸ hopen) ?_
      · intro fd _ hready _ _
        left
        show s.comm.stopRunCw.ports.level fd = some false
        rw [hready.stopRunCw]
        exact SerialComm.level_setDtr hready.serial hready.opened
  | start fd level =>
      obtain ⟨⟨hmain, -⟩, hstep⟩ := Option.ite_none_right_eq_some.mp hstep
      split at hstep
      case isTrue =>
        obtain rfl := Option.some.inj hstep
        exact h
      case isFalse hrunning =>
        obtain rfl := Option.some.inj hstep
        cases fd with
        | none => exact ⟨hsession, fun _ fd hfd => (nomatch hfd)⟩
        | some n => exact ⟨hsession, nofun⟩
  | stop =>
      obtain ⟨hmain, hstep⟩ := Option.ite_none_right_eq_some.mp hstep
      split at hstep <;>
      · obtain rfl := Option.some.inj hstep
        exact ⟨hsession, nofun⟩
  | openOther other level =>
      obtain ⟨hfree, hstep⟩ := Option.ite_none_right_eq_some.mp hstep
      obtain rfl := Option.some.inj hstep
      refine h.of_same hsession rfl rfl rfl
        (fun fd _ hopen => Lines.mem_numbers_opened.mpr (.inl hopen)) ?_
      intro fd _ hready hup hclear
      have hne : other ≠ fd := fun heq => hfree (heq ▸ hready.opened)
      exact .inr ⟨hup, hclear, Lines.level_opened_of_ne hne⟩
  | closeOther other =>
      obtain ⟨hother, hstep⟩ := Option.ite_none_right_eq_some.mp hstep
      obtain rfl := Option.some.inj hstep
      have hne {fd : Nat} (hfd : fd ∈ s.comm.hSerial) : some fd ≠ some other := fun heq =>
        hother ((show s.comm.hSerial = some fd from hfd).trans heq)
      refine h.of_same hsession rfl rfl rfl (fun fd hfd hopen =>
        Lines.mem_numbers_closed.mpr ⟨hopen, hne hfd⟩) ?_
      exact fun fd hfd _ hup hclear =>
        .inr ⟨hup, hclear, Lines.level_closed_of_ne (hne hfd).symm⟩

end WindowsSerial

/-! ## Runs -/

/-- **At rest DTR is low.** Between the calls of `start` and `stop`, in any
session of any run, an open port has DTR low unless the straight key is down
or an element has set it. -/
theorem dtr_low_at_rest (as : List SerialAct) (fd : Nat) :
    (∀ s, (linuxSerial false).run {} as = some s → s.main = .idle → s.comm.hSerial = some fd →
      ¬s.Keyed fd → s.comm.dtr = some false)
      ∧ ∀ s, windowsSerial.run {} as = some s → s.main = .idle → s.comm.hSerial = some fd →
        s.straight = false → s.sets = [] → s.comm.dtr = some false := by
  constructor
  · intro s hrun hmain hserial hkeyed
    have h : LinuxSerial.RestInv s := Machine.Reachable.invariant ⟨as, hrun⟩
      LinuxSerial.restInv_init fun _ _ _ h hstep => h.step hstep
    rw [SerialComm.dtr, hserial]
    exact (h.port (by rw [hmain]; rfl) fd hserial).2 hkeyed
  · intro s hrun hmain hserial hup hclear
    have h : WindowsSerial.RestInv s := Machine.Reachable.invariant ⟨as, hrun⟩
      WindowsSerial.restInv_init fun _ _ _ h hstep => h.step hstep
    rw [SerialComm.dtr, hserial]
    exact (h.port hmain fd hserial).2 hup hclear

theorem dtr_low_at_rest_released :
    (∃ s, (linuxSerial false).run {} [.start (some 3) true, .main true, .startRunCw, .runCW .dit 60,
        .stopRunCw] = some s ∧ s.comm.dtr = some false)
      ∧ ∃ s, windowsSerial.run {} [.start (some 3) true, .main true, .startRunCw, .runCW .dit 60,
        .stopRunCw] = some s ∧ s.comm.dtr = some false := by
  obtain ⟨hlinux, hwindows⟩ := dtr_low_at_rest
    [.start (some 3) true, .main true, .startRunCw, .runCW .dit 60, .stopRunCw] 3
  constructor
  · obtain ⟨s, hrun, hmain, hserial, hup, hnone⟩ : ∃ s, (linuxSerial false).run {}
        [.start (some 3) true, .main true, .startRunCw, .runCW .dit 60, .stopRunCw] = some s
          ∧ s.main = .idle ∧ s.comm.hSerial = some 3 ∧ s.straight = false ∧ s.elements = [] :=
      ⟨_, rfl, rfl, rfl, rfl, rfl⟩
    refine ⟨s, hrun, hlinux s hrun hmain hserial ?_⟩
    simp [LinuxSerial.Keyed, hup, hnone]
  · obtain ⟨s, hrun, hmain, hserial, hup, hclear⟩ : ∃ s, windowsSerial.run {}
        [.start (some 3) true, .main true, .startRunCw, .runCW .dit 60, .stopRunCw] = some s
          ∧ s.main = .idle ∧ s.comm.hSerial = some 3 ∧ s.straight = false ∧ s.sets = [] :=
      ⟨_, rfl, rfl, rfl, rfl, rfl⟩
    exact ⟨s, hrun, hwindows s hrun hmain hserial hup hclear⟩

end CwKeyer
