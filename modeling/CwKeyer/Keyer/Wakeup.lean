import CwKeyer.Keyer.Steady
import CwKeyer.Keyer.Threads

/-!
# One keyer thread

The keyer between two calls of `initKeyer` and `stopKeyer`, with the one
thread that the first has started. Its steps are those of `paddleKeyer`
with stutters in between (`runningKeyer_refines`), so what holds of the
elements there holds of the thread.

`enqueue` takes no mutex, so its `notify_one` can run between the false
wait predicate and the wait itself and be lost: then the thread sleeps on
a queued element (`sleeps_on_pending`). `never_sleeps_on_pending` shows
that this is the only way.
-/

namespace CwKeyer

/-- The one thread of a started keyer is at `pc`. -/
structure Solo (s : KeyerSystem) (pc : CallPc) : Prop where
  threads : s.threads = [pc]
  started : s.started = true

theorem solo_launched (lastPressed lastQueued : KeyerItem) (wpm : Int) (mode : Mode) :
    Solo (.launched lastPressed lastQueued wpm mode) .test := ⟨rfl, rfl⟩

theorem Solo.getElem? {s : KeyerSystem} {pc pc' : CallPc} {i : Nat} (h : Solo s pc)
    (hi : s.threads[i]? = some pc') : i = 0 ∧ pc' = pc := by
  rw [h.threads] at hi
  cases i with
  | zero => exact ⟨rfl, (Option.some.inj hi).symm⟩
  | succ i => cases hi

theorem Solo.wakeOne {s : KeyerSystem} {pc : CallPc} {who : Option Nat} {threads : List CallPc}
    (h : Solo s pc) (hwake : coditionVar.wakeOne s.threads who = some threads) :
    (pc ≠ .waiting ∧ threads = [pc]) ∨ (pc = .waiting ∧ threads = [.woken]) := by
  rcases WaitSet.wakeOne_cases hwake with ⟨hnone, rfl⟩ | ⟨i, hi, rfl⟩
  · rw [h.threads] at hnone
    exact Or.inl ⟨fun heq => hnone (List.mem_singleton.mpr heq.symm), h.threads⟩
  · obtain ⟨rfl, heq⟩ := h.getElem? hi
    exact Or.inr ⟨heq.symm, by rw [h.threads]; rfl⟩

/-- What the one thread can do from `pc`, and where it is then. -/
inductive SoloStep (s : KeyerSystem) : CallPc → CallPc → Keyer → List (Nat × KeyerItem) → Prop
  | enter : SoloStep s .test .lock s.keyer s.played
  | lock {pc : CallPc} (hpc : pc = .lock ∨ pc = .woken) : SoloStep s pc .evaluate s.keyer s.played
  | found (hqueue : s.keyer.queue ≠ []) : SoloStep s .evaluate .pop s.keyer s.played
  | block (hqueue : s.keyer.queue = []) : SoloStep s .evaluate .blocking s.keyer s.played
  | wait : SoloStep s .blocking .waiting s.keyer s.played
  | pop {item : KeyerItem} {rest : List KeyerItem} (hqueue : s.keyer.queue = item :: rest) :
      SoloStep s .pop (.playing item s.keyer.squeeze) { s.keyer with queue := rest }
        (s.played ++ [(0, item)])
  | pushed {item : KeyerItem} {squeeze : Bool} :
      SoloStep s (.playing item squeeze) .notify (s.keyer.processMode squeeze) s.played
  | processed {item : KeyerItem} {squeeze : Bool} :
      SoloStep s (.playing item squeeze) .test (s.keyer.processMode squeeze) s.played
  | notified : SoloStep s .notify .test s.keyer s.played

theorem soloStep {s s' : KeyerSystem} {pc : CallPc} {i : Nat} {who : Option Nat}
    (h : Solo s pc) (hstep : keyerThreads.step s (.thread i who) = some s') :
    ∃ pc', Solo s' pc' ∧ SoloStep s pc pc' s'.keyer s'.played ∧ s'.notifying = s.notifying := by
  obtain ⟨pc₀, hi, houtcome⟩ := keyerThreads_thread hstep
  obtain ⟨rfl, rfl⟩ := h.getElem? hi
  have hset : ∀ pc', s.threads.set 0 pc' = [pc'] := fun pc' => by rw [h.threads]; rfl
  cases houtcome with
  | enter => exact ⟨_, ⟨hset _, h.started⟩, .enter, rfl⟩
  | leave hstarted => rw [h.started] at hstarted; cases hstarted
  | lock hpc => exact ⟨_, ⟨hset _, h.started⟩, .lock hpc, rfl⟩
  | found hqueue => exact ⟨_, ⟨hset _, h.started⟩, .found hqueue, rfl⟩
  | again _ hstarted => rw [h.started] at hstarted; cases hstarted
  | block hqueue => exact ⟨_, ⟨hset _, h.started⟩, .block hqueue, rfl⟩
  | wait => exact ⟨_, ⟨hset _, h.started⟩, .wait, rfl⟩
  | pop hqueue => exact ⟨_, ⟨hset _, h.started⟩, .pop hqueue, rfl⟩
  | pushed => exact ⟨_, ⟨hset _, h.started⟩, .pushed, rfl⟩
  | processed => exact ⟨_, ⟨hset _, h.started⟩, .processed, rfl⟩
  | notified hwake =>
      rcases h.wakeOne hwake with ⟨-, rfl⟩ | ⟨heq, -⟩
      · exact ⟨_, ⟨rfl, h.started⟩, .notified, rfl⟩
      · cases heq

/-! ## The thread plays what `paddleKeyer` plays -/

/-- The element a thread is playing. -/
def CallPc.element : CallPc → Option (KeyerItem × Bool)
  | .playing item squeeze => some (item, squeeze)
  | _ => none

/-- The keyer as `paddleKeyer` sees it. -/
def KeyerSystem.elements (s : KeyerSystem) : KeyerRun where
  keyer := s.keyer
  playing := s.threads.head?.bind CallPc.element
  started := s.played.map Prod.snd
  calls := s.played.filterMap fun e => s.keyer.playDitDah e.2

theorem Keyer.playDitDah_congr {k k' : Keyer} (hdit : k'.ditTime = k.ditTime)
    (hdah : k'.dahTime = k.dahTime) : k'.playDitDah = k.playDitDah := by
  funext item
  cases item <;> simp [playDitDah, hdit, hdah]

theorem Keyer.playDitDah_onDit (k : Keyer) (pressed : Bool) :
    (k.onDit pressed).playDitDah = k.playDitDah := by
  obtain ⟨last, queue, heq, -⟩ := onDit_frame k pressed
  rw [heq]
  exact playDitDah_congr rfl rfl

theorem Keyer.playDitDah_onDah (k : Keyer) (pressed : Bool) :
    (k.onDah pressed).playDitDah = k.playDitDah := by
  obtain ⟨last, queue, heq, -⟩ := onDah_frame k pressed
  rw [heq]
  exact playDitDah_congr rfl rfl

theorem Keyer.playDitDah_processMode (k : Keyer) (squeeze : Bool) :
    (k.processMode squeeze).playDitDah = k.playDitDah := by
  obtain ⟨last, queue, heq, -⟩ := processMode_frame k squeeze
  rw [heq]
  exact playDitDah_congr rfl rfl

theorem Solo.elements {s : KeyerSystem} {pc : CallPc} (h : Solo s pc) :
    s.elements = {
      keyer := s.keyer
      playing := pc.element
      started := s.played.map Prod.snd
      calls := s.played.filterMap fun e => s.keyer.playDitDah e.2 } := by
  simp [KeyerSystem.elements, h.threads]

/-- A paddle moves the keyer and neither the thread nor what has been played. -/
theorem Solo.elements_paddle {s s' : KeyerSystem} {pc : CallPc} (h : Solo s pc) (h' : Solo s' pc)
    (hplayed : s'.played = s.played)
    (hsame : s'.keyer.playDitDah = s.keyer.playDitDah) :
    s'.elements = { s.elements with keyer := s'.keyer } := by
  rw [h.elements, h'.elements, hplayed, hsame]

theorem elements_thread {s s' : KeyerSystem} {pc : CallPc} {i : Nat} {who : Option Nat}
    (h : Solo s pc) (hstep : keyerThreads.step s (.thread i who) = some s') :
    (∃ pc', Solo s' pc') ∧ paddleKeyer.Reachable s.elements s'.elements := by
  obtain ⟨pc', h', hmove, -⟩ := soloStep h hstep
  refine ⟨⟨pc', h'⟩, ?_⟩
  rw [h.elements, h'.elements]
  generalize s'.keyer = keyer at hmove ⊢
  generalize s'.played = played at hmove ⊢
  cases hmove with
  | enter => exact .refl _
  | lock hpc => rcases hpc with rfl | rfl <;> exact .refl _
  | found => exact .refl _
  | block => exact .refl _
  | wait => exact .refl _
  | @pop item rest hqueue =>
      have hsame : { s.keyer with queue := rest }.playDitDah = s.keyer.playDitDah :=
        Keyer.playDitDah_congr rfl rfl
      refine ⟨[.start], ?_⟩
      cases hcall : s.keyer.playDitDah item <;>
        simp [paddleKeyer, KeyerRun.step, CallPc.element, hqueue, hsame, hcall]
  | pushed =>
      refine ⟨[.finish], ?_⟩
      simp [paddleKeyer, KeyerRun.step, CallPc.element, Keyer.playDitDah_processMode]
  | processed =>
      refine ⟨[.finish], ?_⟩
      simp [paddleKeyer, KeyerRun.step, CallPc.element, Keyer.playDitDah_processMode]
  | notified => exact .refl _

/-- **The thread refines the four-step keyer**: whatever the paddles, the
scheduling, the notifications and the spurious wake-ups. -/
theorem runningKeyer_refines :
    runningKeyer.Refines paddleKeyer (fun s => ∃ pc, Solo s pc) KeyerSystem.elements := by
  rintro s a s' ⟨pc, h⟩ hstep
  obtain ⟨ha, hstep⟩ := Machine.restrict_step.mp hstep
  cases a with
  | onDit pressed =>
      obtain ⟨hkeyer, hthreads, hstarted, hplayed⟩ := keyerThreads_onDit hstep
      have h' : Solo s' pc := ⟨hthreads.trans h.threads, hstarted.trans h.started⟩
      have hsame : s'.keyer.playDitDah = s.keyer.playDitDah := by
        rw [hkeyer, Keyer.playDitDah_onDit]
      refine ⟨⟨pc, h'⟩, [.onDit pressed], ?_⟩
      rw [h.elements_paddle h' hplayed hsame, hkeyer]
      rfl
  | onDah pressed =>
      obtain ⟨hkeyer, hthreads, hstarted, hplayed⟩ := keyerThreads_onDah hstep
      have h' : Solo s' pc := ⟨hthreads.trans h.threads, hstarted.trans h.started⟩
      have hsame : s'.keyer.playDitDah = s.keyer.playDitDah := by
        rw [hkeyer, Keyer.playDitDah_onDah]
      refine ⟨⟨pc, h'⟩, [.onDah pressed], ?_⟩
      rw [h.elements_paddle h' hplayed hsame, hkeyer]
      rfl
  | notify who =>
      obtain ⟨threads, -, hwake, rfl⟩ := keyerThreads_notify hstep
      rcases h.wakeOne hwake with ⟨-, rfl⟩ | ⟨rfl, rfl⟩
      · have h' : Solo { s with threads := [pc], notifying := s.notifying - 1 } pc :=
          ⟨rfl, h.started⟩
        refine ⟨⟨pc, h'⟩, ?_⟩
        rw [h.elements, h'.elements]
        exact .refl _
      · have h' : Solo { s with threads := [.woken], notifying := s.notifying - 1 } .woken :=
          ⟨rfl, h.started⟩
        refine ⟨⟨.woken, h'⟩, ?_⟩
        rw [h.elements, h'.elements]
        exact .refl _
  | thread i who => exact elements_thread h hstep
  | spuriousWakeup i =>
      obtain ⟨hi, rfl⟩ := keyerThreads_spuriousWakeup hstep
      obtain ⟨rfl, rfl⟩ := h.getElem? hi
      have h' : Solo { s with threads := s.threads.set 0 .woken } .woken :=
        ⟨by rw [h.threads]; rfl, h.started⟩
      refine ⟨⟨.woken, h'⟩, ?_⟩
      rw [h.elements, h'.elements]
      exact .refl _
  | stopKeyer => cases ha
  | initKeyer wpm mode => cases ha
  | control => cases ha

/-- So every state of the started keyer looks like a reachable state of
`paddleKeyer`. -/
theorem elements_reachable {lastPressed lastQueued : KeyerItem} {wpm : Int} {mode : Mode}
    {s : KeyerSystem}
    (h : runningKeyer.Reachable (.launched lastPressed lastQueued wpm mode) s) :
    paddleKeyer.Reachable (.init lastPressed lastQueued wpm mode) s.elements :=
  (runningKeyer_refines.reachable ⟨.test, solo_launched ..⟩ h).2

/-! ## Lost notifications -/

/-- The last notification under way is not lost between the false wait
predicate and the wait while an element is queued. -/
def notifiesInTime (s : KeyerSystem) : KeyerSystemAct → Bool
  | .notify _ => !(.blocking ∈ s.threads && !s.keyer.queue.isEmpty && s.notifying = 1)
  | _ => true

/-- The thread is in the wait set with an element queued, although the
keyer is started and no `enqueue` is under way. -/
def SleepsOnPending (s : KeyerSystem) : Prop :=
  .waiting ∈ s.threads ∧ s.keyer.queue ≠ [] ∧ s.started = true ∧ s.notifying = 0
    ∧ .notify ∉ s.threads

/-- A thread that waits or is about to has nothing to play, or will be
notified. -/
structure WakeInv (s : KeyerSystem) (pc : CallPc) : Prop extends Solo s pc where
  pending : pc = .blocking ∨ pc = .waiting → s.keyer.queue = [] ∨ 0 < s.notifying

theorem WakeInv.of_awake {s : KeyerSystem} {pc : CallPc} (h : Solo s pc)
    (hpc : pc ≠ .blocking ∧ pc ≠ .waiting) : WakeInv s pc :=
  ⟨h, fun hsleep => absurd hsleep (not_or.mpr hpc)⟩

/-- A press that pushes has its notification to come. -/
theorem WakeInv.press {s : KeyerSystem} {pc : CallPc} (h : WakeInv s pc) (keyer : Keyer) :
    WakeInv (s.press keyer) pc := by
  refine ⟨⟨h.threads, h.started⟩, fun hsleep => Or.inr ?_⟩
  rcases h.pending hsleep with hempty | hpending
  · simp [KeyerSystem.press, hempty]
  · simp only [KeyerSystem.press]
    split <;> omega

theorem wakeInv_thread {s s' : KeyerSystem} {pc : CallPc} {i : Nat} {who : Option Nat}
    (h : WakeInv s pc) (hstep : keyerThreads.step s (.thread i who) = some s') :
    ∃ pc', WakeInv s' pc' := by
  obtain ⟨pc', h', hmove, hnotifying⟩ := soloStep h.toSolo hstep
  refine ⟨pc', h', ?_⟩
  rw [hnotifying]
  generalize s'.keyer = keyer at hmove ⊢
  generalize s'.played = played at hmove
  cases hmove with
  | block hqueue => exact fun _ => Or.inl hqueue
  | wait => exact fun _ => h.pending (Or.inl rfl)
  | enter => exact fun hsleep => by simp at hsleep
  | lock => exact fun hsleep => by simp at hsleep
  | found => exact fun hsleep => by simp at hsleep
  | pop => exact fun hsleep => by simp at hsleep
  | pushed => exact fun hsleep => by simp at hsleep
  | processed => exact fun hsleep => by simp at hsleep
  | notified => exact fun hsleep => by simp at hsleep

/-- A notification wakes the thread if it waits; if it is about to, the
assumption leaves another one under way. -/
theorem wakeInv_notify {s s' : KeyerSystem} {pc : CallPc} {who : Option Nat}
    (h : WakeInv s pc) (hnotify : notifiesInTime s (.notify who) = true)
    (hstep : keyerThreads.step s (.notify who) = some s') : ∃ pc', WakeInv s' pc' := by
  obtain ⟨threads, hpending, hwake, rfl⟩ := keyerThreads_notify hstep
  rcases h.toSolo.wakeOne hwake with ⟨hawake, rfl⟩ | ⟨-, rfl⟩
  · refine ⟨pc, ⟨rfl, h.started⟩, ?_⟩
    intro hsleep
    obtain rfl : pc = .blocking := hsleep.resolve_right hawake
    by_cases hempty : s.keyer.queue = []
    · exact Or.inl hempty
    · have hlast : s.notifying ≠ 1 := by
        simpa [notifiesInTime, h.threads, hempty] using hnotify
      exact Or.inr (by simp only; omega)
  · exact ⟨.woken, .of_awake ⟨rfl, h.started⟩ (by simp)⟩

theorem wakeInv_step {s s' : KeyerSystem} {a : KeyerSystemAct}
    (h : ∃ pc, WakeInv s pc) (hnotify : notifiesInTime s a = true)
    (hstep : runningKeyer.step s a = some s') : ∃ pc', WakeInv s' pc' := by
  obtain ⟨pc, h⟩ := h
  obtain ⟨ha, hstep⟩ := Machine.restrict_step.mp hstep
  cases a with
  | onDit pressed =>
      obtain rfl := Option.some.inj hstep
      cases pressed with
      | true => exact ⟨pc, h.press _⟩
      | false => exact ⟨pc, ⟨h.threads, h.started⟩, h.pending⟩
  | onDah pressed =>
      obtain rfl := Option.some.inj hstep
      cases pressed with
      | true => exact ⟨pc, h.press _⟩
      | false => exact ⟨pc, ⟨h.threads, h.started⟩, h.pending⟩
  | notify who => exact wakeInv_notify h hnotify hstep
  | thread i who => exact wakeInv_thread h hstep
  | spuriousWakeup i =>
      obtain ⟨hi, rfl⟩ := keyerThreads_spuriousWakeup hstep
      obtain ⟨rfl, -⟩ := h.toSolo.getElem? hi
      exact ⟨.woken, .of_awake ⟨by rw [h.threads]; rfl, h.started⟩ (by simp)⟩
  | stopKeyer => cases ha
  | initKeyer wpm mode => cases ha
  | control => cases ha

/-- **The keyer does not sleep on a pending element** in any run in which
no notification is lost between the wait predicate and the wait. -/
theorem never_sleeps_on_pending {lastPressed lastQueued : KeyerItem} {wpm : Int} {mode : Mode}
    {as : List KeyerSystemAct} {s : KeyerSystem}
    (hnotify : runningKeyer.Along (fun s a _ => notifiesInTime s a)
      (.launched lastPressed lastQueued wpm mode) as)
    (hrun : runningKeyer.run (.launched lastPressed lastQueued wpm mode) as = some s) :
    ¬SleepsOnPending s := by
  have hinit : ∃ pc, WakeInv (.launched lastPressed lastQueued wpm mode) pc :=
    ⟨.test, .of_awake (solo_launched ..) (by simp)⟩
  obtain ⟨pc, h⟩ := Machine.run_invariant (I := fun s => ∃ pc, WakeInv s pc)
    (fun _ _ _ => wakeInv_step) hinit hnotify hrun
  rintro ⟨hwaiting, hqueue, -, hnone, -⟩
  rw [h.threads, List.mem_singleton] at hwaiting
  rcases h.pending (Or.inr hwaiting.symm) with hempty | hpending
  · exact hqueue hempty
  · omega

/-- A press while the thread waits. -/
def wokenPress : List KeyerSystemAct :=
  List.replicate 4 (.thread 0 none) ++ [.onDit true, .notify (some 0)]

theorem never_sleeps_on_pending_wokenPress :
    ∃ s, runningKeyer.run (.launched .dit .dit 20 .iambicB) wokenPress = some s
      ∧ s.threads = [.woken] ∧ s.keyer.queue = [.dit] ∧ ¬SleepsOnPending s :=
  ⟨_, rfl, rfl, rfl, @never_sleeps_on_pending .dit .dit 20 .iambicB wokenPress _ (by decide) rfl⟩

/-- A press just after the thread has found the wait predicate false. -/
def lostNotification : List KeyerSystemAct :=
  List.replicate 3 (.thread 0 none) ++ [.onDit true, .notify none, .thread 0 none]

/-- The keyer can sleep on a queued element. -/
theorem sleeps_on_pending :
    ¬ ∀ as s, runningKeyer.run (.launched .dit .dit 20 .iambicB) as = some s →
      ¬SleepsOnPending s := by
  intro h
  exact h lostNotification _ rfl (by unfold SleepsOnPending; decide)

end CwKeyer
