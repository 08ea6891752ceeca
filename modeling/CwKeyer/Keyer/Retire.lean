import CwKeyer.Keyer.Threads

/-!
# Restarting the keyer

`stopKeyer` clears `m_started` and notifies, but the thread it stops is
detached and not waited for. If the thread does not get to test `m_started`
before the next `initKeyer` sets it again, it lives on beside the new one
(`restart_keeps_thread`); and if `stopKeyer` returns, or a paddle is pressed,
while the thread is on its way to the queue, it plays an element although
`stopKeyer` has returned. `one_keyer_thread`: as long as the scheduling keeps
to this, the stopped thread retires, so there is one keyer thread at a time
and a stopped one starts nothing.
-/

namespace CwKeyer

namespace CallPc

/-- The thread has not left `keyerCall`. -/
def isLive (pc : CallPc) : Bool := pc ≠ .left

/-- Between the test of `m_started` and the end of the wait. -/
def inWait : CallPc → Bool
  | .lock => true
  | .evaluate => true
  | .blocking => true
  | .waiting => true
  | .woken => true
  | .test => false
  | .pop => false
  | .playing _ _ => false
  | .notify => false
  | .left => false

theorem eq_left {pc : CallPc} (h : pc.isLive = false) : pc = .left := by
  simpa [isLive] using h

end CallPc

def liveThreads (s : KeyerSystem) : Nat := s.threads.countP CallPc.isLive

/-- A `stopKeyer` has returned since the last thread was created. -/
def KeyerSystem.isStopped (s : KeyerSystem) : Bool := s.stale = s.threads.length

/-- The scheduling lets a stopped thread retire: the last thread created has
tested `m_started` since it was cleared when `initKeyer` sets it again; when
`stopKeyer` returns, no thread is about to pop, or in its wait with an element
queued; and no paddle is pressed while a stopped thread is in its wait. -/
def threadsRetire (s : KeyerSystem) : KeyerSystemAct → Bool
  | .control =>
      match s.control with
      | .setStarted => s.threads = [] || s.threads.length - 1 ∈ s.tested
      | .discard _ => s.threads.all fun pc =>
          pc ≠ .pop && (!pc.inWait || s.keyer.queue.isEmpty)
      | _ => true
  | .onDit true => !(s.isStopped && s.threads.any CallPc.inWait)
  | .onDah true => !(s.isStopped && s.threads.any CallPc.inWait)
  | _ => true

/-- At most one thread is in `keyerCall` after the step, and the element
the step starts, if any, is not started by a thread created before a
`stopKeyer` that has returned. -/
def OneKeyer (s : KeyerSystem) (_ : KeyerSystemAct) (s' : KeyerSystem) : Prop :=
  liveThreads s' ≤ 1 ∧ ∀ e ∈ s'.played.drop s.played.length, s.stale ≤ e.1

instance (s : KeyerSystem) (a : KeyerSystemAct) (s' : KeyerSystem) :
    Decidable (OneKeyer s a s') :=
  inferInstanceAs (Decidable (_ ∧ _))

/-! ## The invariant -/

/-- From `m_started = false` to `m_started = true`. -/
def ControlPc.betweenStarts : ControlPc → Bool
  | .notifyAll _ => true
  | .join _ => true
  | .discard _ => true
  | .configure _ _ => true
  | .setStarted => true
  | _ => false

/-- `stopKeyer` has cleared `m_started` and not returned yet. -/
def ControlPc.stopping : ControlPc → Bool
  | .notifyAll _ => true
  | .join _ => true
  | .discard _ => true
  | _ => false

structure RetireInv (s : KeyerSystem) : Prop where
  /-- No thread but the last one created is in `keyerCall`. -/
  newest : ∀ i pc, s.threads[i]? = some pc → pc.isLive = true → i + 1 = s.threads.length
  stale : s.stale ≤ s.threads.length
  /-- A thread that tests `m_started` once it is cleared leaves. -/
  tested : s.started = false → ∀ i ∈ s.tested, s.threads[i]? = some .left
  between : s.control.betweenStarts = true → s.started = false
  fresh : s.control = .spawn → s.started = true ∧ ∀ pc ∈ s.threads, pc = .left
  started : s.started = true → s.control ≠ .spawn → s.stale < s.threads.length
  stopped : s.started = false → s.control.stopping = false → s.stale = s.threads.length
  /-- A stopped thread finds nothing to play. -/
  retired : s.stale = s.threads.length →
    ∀ pc ∈ s.threads, pc ≠ .pop ∧ (pc.inWait = true → s.keyer.queue = [])

theorem retireInv_init (lastPressed lastQueued : KeyerItem) :
    RetireInv (.init lastPressed lastQueued) := by
  constructor <;> simp [KeyerSystem.init]

/-- Woken threads are where they were, in their wait. -/
theorem RetireInv.wakes {s : KeyerSystem} {threads : List CallPc} (hI : RetireInv s)
    (h : coditionVar.Wakes s.threads threads) (n : Nat) (control : ControlPc)
    (hbetween : control.betweenStarts = true → s.started = false)
    (hspawn : control = .spawn ↔ s.control = .spawn)
    (hstopping : control.stopping = s.control.stopping) :
    RetireInv { s with threads := threads, notifying := n, control := control } := by
  refine ⟨?_, h.length ▸ hI.stale, ?_, hbetween, ?_, ?_, ?_, ?_⟩
  · intro i pc hi hlive
    show i + 1 = threads.length
    rw [h.length]
    rcases h.moved i pc hi with hsame | ⟨hwaiting, -⟩
    · exact hI.newest i pc hsame hlive
    · exact hI.newest i .waiting hwaiting rfl
  · exact fun hstarted i hi => h.stays (hI.tested hstarted i hi) nofun
  · intro hcontrol
    obtain ⟨hstarted, hleft⟩ := hI.fresh (hspawn.mp hcontrol)
    refine ⟨hstarted, fun pc hmem => ?_⟩
    obtain ⟨i, hi⟩ := List.mem_iff_getElem?.mp hmem
    rcases h.moved i pc hi with hsame | ⟨hwaiting, -⟩
    · exact hleft pc (List.mem_of_getElem? hsame)
    · cases hleft _ (List.mem_of_getElem? hwaiting)
  · exact fun hstarted hcontrol => h.length ▸ hI.started hstarted (mt hspawn.mpr hcontrol)
  · exact fun hstarted hcontrol => h.length ▸ hI.stopped hstarted (hstopping ▸ hcontrol)
  · intro hstale pc hmem
    have hretired := hI.retired (h.length ▸ hstale)
    obtain ⟨i, hi⟩ := List.mem_iff_getElem?.mp hmem
    rcases h.moved i pc hi with hsame | ⟨hwaiting, rfl⟩
    · exact hretired pc (List.mem_of_getElem? hsame)
    · exact ⟨nofun, fun _ => (hretired _ (List.mem_of_getElem? hwaiting)).2 rfl⟩

/-- The one thread in `keyerCall` moves. Stopped, it does not get to `pop`,
nor into its wait with an element queued. -/
theorem RetireInv.set {s s' : KeyerSystem} {i : Nat} {pc pc' : CallPc} (hI : RetireInv s)
    (hi : s.threads[i]? = some pc) (hlive : pc.isLive = true)
    (hthreads : s'.threads = s.threads.set i pc') (hstarted : s'.started = s.started)
    (hcontrol : s'.control = s.control) (hstale : s'.stale = s.stale)
    (htested : s.started = false → ∀ j ∈ s'.tested, j ∈ s.tested ∨ j = i ∧ pc' = .left)
    (hretired : s.stale = s.threads.length →
      pc' ≠ .pop ∧ (pc'.inWait = true → s'.keyer.queue = [])) : RetireInv s' := by
  have hlength : s'.threads.length = s.threads.length := by rw [hthreads, List.length_set]
  have hlt : i < s.threads.length := (List.getElem?_eq_some_iff.mp hi).1
  have hself : s'.threads[i]? = some pc' := by rw [hthreads, List.getElem?_set_self hlt]
  have hother (j : Nat) (hj : j ≠ i) : s'.threads[j]? = s.threads[j]? := by
    rw [hthreads, List.getElem?_set_ne (Ne.symm hj)]
  refine ⟨?_, ?_, ?_, ?_, ?_, ?_, ?_, ?_⟩
  · intro j pc'' hj hlive'
    rw [hlength]
    by_cases heq : j = i
    · exact heq ▸ hI.newest i pc hi hlive
    · exact hI.newest j pc'' (hother j heq ▸ hj) hlive'
  · rw [hstale, hlength]
    exact hI.stale
  · intro hclear j hj
    rw [hstarted] at hclear
    rcases htested hclear j hj with hbefore | ⟨rfl, rfl⟩
    · have hleft := hI.tested hclear j hbefore
      have hne : j ≠ i := by
        rintro rfl
        obtain rfl := Option.some.inj (hi.symm.trans hleft)
        cases hlive
      rw [hother j hne]
      exact hleft
    · exact hself
  · rw [hcontrol, hstarted]
    exact hI.between
  · intro hspawn
    rw [(hI.fresh (hcontrol ▸ hspawn)).2 pc (List.mem_of_getElem? hi)] at hlive
    cases hlive
  · rw [hstarted, hcontrol, hstale, hlength]
    exact hI.started
  · rw [hstarted, hcontrol, hstale, hlength]
    exact hI.stopped
  · intro hstopped pc'' hmem
    rw [hstale, hlength] at hstopped
    obtain ⟨j, hj⟩ := List.mem_iff_getElem?.mp hmem
    by_cases heq : j = i
    · obtain rfl := Option.some.inj (hself.symm.trans (heq ▸ hj))
      exact hretired hstopped
    · have hnone : pc''.isLive = false := by
        by_contra hsome
        have hlast := hI.newest j pc'' (hother j heq ▸ hj) (by simpa using hsome)
        have := hI.newest i pc hi hlive
        omega
      rw [CallPc.eq_left hnone]
      exact ⟨nofun, nofun⟩

/-- A thread in `keyerCall` is stopped only with `m_started` cleared. -/
theorem RetireInv.not_stopped {s : KeyerSystem} {i : Nat} {pc : CallPc} (hI : RetireInv s)
    (hi : s.threads[i]? = some pc) (hlive : pc.isLive = true) (hstarted : s.started = true) :
    s.stale ≠ s.threads.length := by
  refine Nat.ne_of_lt (hI.started hstarted fun hspawn => ?_)
  rw [(hI.fresh hspawn).2 pc (List.mem_of_getElem? hi)] at hlive
  cases hlive

theorem retireInv_thread {s s' : KeyerSystem} {i : Nat} {pc : CallPc} (hI : RetireInv s)
    (hi : s.threads[i]? = some pc) (h : CallOutcome s i pc s') : RetireInv s' := by
  have hmem : pc ∈ s.threads := List.mem_of_getElem? hi
  have hwait : pc.inWait = true → s.stale = s.threads.length → s.keyer.queue = [] :=
    fun hin hstale => (hI.retired hstale pc hmem).2 hin
  cases h with
  | enter hstarted =>
      refine hI.set hi rfl rfl rfl rfl rfl ?_ fun hstale => ?_
      · intro hclear
        rw [hstarted] at hclear
        cases hclear
      · exact absurd hstale (hI.not_stopped hi rfl hstarted)
  | leave =>
      refine hI.set hi rfl rfl rfl rfl rfl (fun _ j hj => ?_) fun _ => ⟨nofun, nofun⟩
      rcases List.mem_append.mp hj with hbefore | hself
      · exact .inl hbefore
      · exact .inr ⟨List.mem_singleton.mp hself, rfl⟩
  | lock hpc =>
      have hin : pc.isLive = true ∧ pc.inWait = true := by
        rcases hpc with rfl | rfl
        · exact ⟨rfl, rfl⟩
        · exact ⟨rfl, rfl⟩
      exact hI.set hi hin.1 rfl rfl rfl rfl (fun _ _ => .inl) fun hstale =>
        ⟨nofun, fun _ => hwait hin.2 hstale⟩
  | found hqueue =>
      exact hI.set hi rfl rfl rfl rfl rfl (fun _ _ => .inl) fun hstale =>
        absurd (hwait rfl hstale) hqueue
  | again => exact hI.set hi rfl rfl rfl rfl rfl (fun _ _ => .inl) fun _ => ⟨nofun, nofun⟩
  | block hqueue =>
      exact hI.set hi rfl rfl rfl rfl rfl (fun _ _ => .inl) fun _ => ⟨nofun, fun _ => hqueue⟩
  | wait =>
      exact hI.set hi rfl rfl rfl rfl rfl (fun _ _ => .inl) fun hstale =>
        ⟨nofun, fun _ => hwait rfl hstale⟩
  | pop => exact hI.set hi rfl rfl rfl rfl rfl (fun _ _ => .inl) fun _ => ⟨nofun, nofun⟩
  | pushed => exact hI.set hi rfl rfl rfl rfl rfl (fun _ _ => .inl) fun _ => ⟨nofun, nofun⟩
  | processed => exact hI.set hi rfl rfl rfl rfl rfl (fun _ _ => .inl) fun _ => ⟨nofun, nofun⟩
  | @notified who threads hwake =>
      have hwakes := WaitSet.wakes_wakeOne hwake
      have hI' := hI.wakes hwakes s.notifying s.control hI.between Iff.rfl rfl
      exact hI'.set (hwakes.stays hi nofun) rfl rfl rfl rfl rfl (fun _ _ => .inl)
        fun _ => ⟨nofun, nofun⟩

/-- A press reaches a stopped thread only out of its wait. -/
theorem RetireInv.press {s s' : KeyerSystem} (hI : RetireInv s)
    (hthreads : s'.threads = s.threads) (hstarted : s'.started = s.started)
    (hcontrol : s'.control = s.control) (htested : s'.tested = s.tested)
    (hstale : s'.stale = s.stale)
    (hpress : s'.keyer.queue = s.keyer.queue
      ∨ (s.isStopped && s.threads.any CallPc.inWait) = false) : RetireInv s' := by
  refine ⟨?_, ?_, ?_, ?_, ?_, ?_, ?_, ?_⟩
  · rw [hthreads]
    exact hI.newest
  · rw [hthreads, hstale]
    exact hI.stale
  · rw [hthreads, hstarted, htested]
    exact hI.tested
  · rw [hcontrol, hstarted]
    exact hI.between
  · rw [hcontrol, hstarted, hthreads]
    exact hI.fresh
  · rw [hcontrol, hstarted, hthreads, hstale]
    exact hI.started
  · rw [hcontrol, hstarted, hthreads, hstale]
    exact hI.stopped
  · rw [hthreads, hstale]
    intro hstopped pc hmem
    obtain ⟨hpop, hqueue⟩ := hI.retired hstopped pc hmem
    refine ⟨hpop, fun hin => ?_⟩
    rcases hpress with hsame | hout
    · rw [hsame]
      exact hqueue hin
    · have hany : s.threads.any CallPc.inWait = true := List.any_eq_true.mpr ⟨pc, hmem, hin⟩
      simp [KeyerSystem.isStopped, hstopped, hany] at hout

/-- `stopKeyer` returns when no thread is on its way to an element. -/
theorem RetireInv.returns {s : KeyerSystem} (hI : RetireInv s) (hstarted : s.started = false)
    (caller : Option (Int × Mode))
    (hretired : ∀ pc ∈ s.threads, pc ≠ .pop ∧ (pc.inWait = true → s.keyer.queue = [])) :
    RetireInv (s.stopped caller) := by
  refine ⟨hI.newest, Nat.le_refl _, hI.tested, fun _ => hstarted, ?_, ?_, fun _ _ => rfl,
    fun _ => hretired⟩
  · rcases caller with _ | ⟨wpm, mode⟩ <;> exact nofun
  · intro h
    rw [show s.started = true from h] at hstarted
    cases hstarted

/-- `initKeyer` or `stopKeyer` goes on, and neither sets `m_started` nor
creates a thread nor returns from `stopKeyer`. -/
theorem RetireInv.goesOn {s : KeyerSystem} (hI : RetireInv s) (keyer : Keyer)
    (threadKeyer : Option Bool) (control : ControlPc) (hqueue : keyer.queue = s.keyer.queue)
    (hfrom : s.control ≠ .spawn) (hto : control ≠ .spawn)
    (hbetween : control.betweenStarts = true → s.control.betweenStarts = true)
    (hstopping : control.stopping = false → s.control.stopping = false) :
    RetireInv { s with keyer := keyer, threadKeyer := threadKeyer, control := control } :=
  ⟨hI.newest, hI.stale, hI.tested, fun h => hI.between (hbetween h), fun h => absurd h hto,
    fun hstarted _ => hI.started hstarted hfrom,
    fun hstarted h => hI.stopped hstarted (hstopping h),
    fun hstale pc hmem => ⟨(hI.retired hstale pc hmem).1, fun hin =>
      hqueue.trans ((hI.retired hstale pc hmem).2 hin)⟩⟩

/-- Between `m_started = false` and `m_started = true` the last thread has
tested `m_started`, so they have all left. -/
theorem RetireInv.all_left {s : KeyerSystem} (hI : RetireInv s) (hstarted : s.started = false)
    (htested : s.threads = [] ∨ s.threads.length - 1 ∈ s.tested) :
    ∀ pc ∈ s.threads, pc = .left := by
  intro pc hmem
  obtain ⟨i, hi⟩ := List.mem_iff_getElem?.mp hmem
  refine CallPc.eq_left ?_
  by_contra hlive
  have hlast := hI.newest i pc hi (by simpa using hlive)
  rcases htested with hnil | htested
  · rw [hnil] at hmem
    cases hmem
  · have hleft := hI.tested hstarted _ htested
    rw [show s.threads.length - 1 = i by omega, hi] at hleft
    obtain rfl := Option.some.inj hleft
    exact hlive rfl

theorem retireInv_control {s s' : KeyerSystem} (hI : RetireInv s)
    (hretire : threadsRetire s .control = true) (h : s.controlStep = some s') :
    RetireInv s' := by
  simp only [KeyerSystem.controlStep] at h
  split at h
  case h_1 => cases h
  case h_2 caller hcontrol =>
      obtain rfl := Option.some.inj h
      cases hstarted : s.started with
      | true =>
          have hstale := hI.started hstarted (by simp [hcontrol])
          refine ⟨hI.newest, hI.stale, fun _ _ => nofun, fun _ => rfl, nofun, nofun, nofun, ?_⟩
          exact fun hstopped => absurd hstopped (Nat.ne_of_lt hstale)
      | false =>
          have hstale := hI.stopped hstarted (by simp [hcontrol, ControlPc.stopping])
          exact hI.returns hstarted caller (hI.retired hstale)
  case h_3 caller hcontrol =>
      obtain rfl := Option.some.inj h
      have hstarted := hI.between (by rw [hcontrol]; rfl)
      exact hI.wakes (WaitSet.wakes_wakeAll _) s.notifying (.join caller) (fun _ => hstarted)
        (by simp [hcontrol]) (by rw [hcontrol]; rfl)
  case h_4 caller hcontrol =>
      split at h
      · cases h
      · obtain rfl := Option.some.inj h
        exact hI.goesOn s.keyer s.threadKeyer (.discard caller) rfl (by simp [hcontrol])
          (by simp) (fun _ => by rw [hcontrol]; rfl) nofun
  case h_5 caller hcontrol =>
      obtain rfl := Option.some.inj h
      have hstarted := hI.between (by rw [hcontrol]; rfl)
      have hgone : RetireInv { s with threadKeyer := none } :=
        ⟨hI.newest, hI.stale, hI.tested, hI.between, hI.fresh, hI.started, hI.stopped, hI.retired⟩
      refine hgone.returns hstarted caller fun pc hmem => ?_
      have hall := List.all_eq_true.mp (by simpa only [threadsRetire, hcontrol] using hretire) pc
        hmem
      simpa [or_iff_not_imp_left] using hall
  case h_6 wpm mode hcontrol =>
      obtain rfl := Option.some.inj h
      exact hI.goesOn (s.keyer.configure wpm mode) s.threadKeyer .setStarted rfl
        (by simp [hcontrol]) (by simp)
        (fun _ => by rw [hcontrol]; rfl) (fun _ => by rw [hcontrol]; rfl)
  case h_7 hcontrol =>
      obtain rfl := Option.some.inj h
      have hstarted := hI.between (by rw [hcontrol]; rfl)
      have hleft := hI.all_left hstarted (by simpa [threadsRetire, hcontrol] using hretire)
      have hstale := hI.stopped hstarted (by rw [hcontrol]; rfl)
      exact ⟨hI.newest, hI.stale, nofun, nofun, fun _ => ⟨rfl, hleft⟩, fun _ h => absurd rfl h,
        nofun, hI.retired⟩
  case h_8 hcontrol =>
      obtain rfl := Option.some.inj h
      obtain ⟨hstarted, hleft⟩ := hI.fresh hcontrol
      have hlength : (s.threads ++ [CallPc.test]).length = s.threads.length + 1 :=
        List.length_append
      have hstale : s.stale < (s.threads ++ [CallPc.test]).length :=
        hlength ▸ Nat.lt_succ_of_le hI.stale
      refine ⟨?_, Nat.le_of_lt hstale, ?_, nofun, nofun, fun _ _ => hstale, ?_,
        fun h => absurd h (Nat.ne_of_lt hstale)⟩
      · intro i pc hi hlive
        show i + 1 = (s.threads ++ [CallPc.test]).length
        rw [hlength]
        by_cases hlt : i < s.threads.length
        · rw [List.getElem?_append_left hlt] at hi
          rw [hleft pc (List.mem_of_getElem? hi)] at hlive
          cases hlive
        · have hlt' : i < (s.threads ++ [CallPc.test]).length := (List.getElem?_eq_some_iff.mp hi).1
          omega
      · intro hclear
        rw [show s.started = false from hclear] at hstarted
        cases hstarted
      · intro hclear
        rw [show s.started = false from hclear] at hstarted
        cases hstarted
  case h_9 hcontrol =>
      obtain rfl := Option.some.inj h
      exact hI.goesOn s.keyer (some false) .idle rfl (by simp [hcontrol]) (by simp) nofun
        (fun _ => by rw [hcontrol]; rfl)

theorem retireInv_step {s s' : KeyerSystem} {a : KeyerSystemAct} (hI : RetireInv s)
    (hretire : threadsRetire s a = true) (hstep : keyerThreads.step s a = some s') :
    RetireInv s' := by
  cases a with
  | onDit pressed =>
      obtain rfl := Option.some.inj hstep
      cases pressed with
      | true =>
          have hout : (s.isStopped && s.threads.any CallPc.inWait) = false := by
            simpa only [threadsRetire, Bool.not_eq_true'] using hretire
          exact hI.press rfl rfl rfl rfl rfl (.inr hout)
      | false => exact hI.press rfl rfl rfl rfl rfl (.inl rfl)
  | onDah pressed =>
      obtain rfl := Option.some.inj hstep
      cases pressed with
      | true =>
          have hout : (s.isStopped && s.threads.any CallPc.inWait) = false := by
            simpa only [threadsRetire, Bool.not_eq_true'] using hretire
          exact hI.press rfl rfl rfl rfl rfl (.inr hout)
      | false => exact hI.press rfl rfl rfl rfl rfl (.inl rfl)
  | notify who =>
      obtain ⟨threads, -, hwake, rfl⟩ := keyerThreads_notify hstep
      exact hI.wakes (WaitSet.wakes_wakeOne hwake) _ s.control hI.between Iff.rfl rfl
  | thread i who =>
      obtain ⟨pc, hi, h⟩ := keyerThreads_thread hstep
      exact retireInv_thread hI hi h
  | spuriousWakeup i =>
      obtain ⟨hi, rfl⟩ := keyerThreads_spuriousWakeup hstep
      exact hI.wakes (WaitSet.wakes_set hi) s.notifying s.control hI.between Iff.rfl rfl
  | stopKeyer =>
      obtain ⟨hidle, rfl⟩ := keyerThreads_stopKeyer hstep
      exact hI.goesOn s.keyer s.threadKeyer (.clear none) rfl (by simp [hidle]) (by simp) nofun
        (fun _ => by rw [hidle]; rfl)
  | initKeyer wpm mode =>
      obtain ⟨hidle, rfl⟩ := keyerThreads_initKeyer hstep
      exact hI.goesOn s.keyer s.threadKeyer (.clear (some (wpm, mode))) rfl (by simp [hidle])
        (by simp) nofun (fun _ => by rw [hidle]; rfl)
  | control => exact retireInv_control hI hretire hstep

/-- A thread about to pop has been created since the last `stopKeyer`. -/
theorem RetireInv.stale_le_of_pop {s : KeyerSystem} {i : Nat} (hI : RetireInv s)
    (hi : s.threads[i]? = some .pop) : s.stale ≤ i := by
  by_contra hlt
  have hlast := hI.newest i .pop hi rfl
  have hstale := hI.stale
  exact (hI.retired (by omega) .pop (List.mem_of_getElem? hi)).1 rfl

/-- Elements are started by a thread at `pop` only. -/
theorem played_step {s s' : KeyerSystem} {a : KeyerSystemAct}
    (hstep : keyerThreads.step s a = some s') :
    s'.played = s.played
      ∨ ∃ i item, s.threads[i]? = some .pop ∧ s'.played = s.played ++ [(i, item)] := by
  cases a with
  | onDit pressed =>
      obtain rfl := Option.some.inj hstep
      cases pressed <;> exact Or.inl rfl
  | onDah pressed =>
      obtain rfl := Option.some.inj hstep
      cases pressed <;> exact Or.inl rfl
  | notify who =>
      obtain ⟨threads, -, -, rfl⟩ := keyerThreads_notify hstep
      exact Or.inl rfl
  | thread i who =>
      obtain ⟨pc, hi, h⟩ := keyerThreads_thread hstep
      cases h with
      | @pop item rest => exact Or.inr ⟨i, item, hi, rfl⟩
      | enter => exact Or.inl rfl
      | leave => exact Or.inl rfl
      | lock => exact Or.inl rfl
      | found => exact Or.inl rfl
      | again => exact Or.inl rfl
      | block => exact Or.inl rfl
      | wait => exact Or.inl rfl
      | pushed => exact Or.inl rfl
      | processed => exact Or.inl rfl
      | notified => exact Or.inl rfl
  | spuriousWakeup i =>
      obtain ⟨-, rfl⟩ := keyerThreads_spuriousWakeup hstep
      exact Or.inl rfl
  | stopKeyer =>
      obtain ⟨-, rfl⟩ := keyerThreads_stopKeyer hstep
      exact Or.inl rfl
  | initKeyer wpm mode =>
      obtain ⟨-, rfl⟩ := keyerThreads_initKeyer hstep
      exact Or.inl rfl
  | control =>
      have h : s.controlStep = some s' := hstep
      simp only [KeyerSystem.controlStep] at h
      split at h
      case h_1 => cases h
      case h_2 =>
          obtain rfl := Option.some.inj h
          cases s.started <;> exact Or.inl rfl
      case h_4 =>
          split at h
          · cases h
          · exact Or.inl (Option.some.inj h ▸ rfl)
      all_goals exact Or.inl (Option.some.inj h ▸ rfl)

/-- **One keyer thread.** In every run, whatever the calls of `initKeyer`
and `stopKeyer`, the paddle events and the steps of the threads: as long as
the scheduling lets stopped threads retire, there is at most one thread in
`keyerCall`, and no thread created before a `stopKeyer` that has returned
starts an element. -/
theorem one_keyer_thread {lastPressed lastQueued : KeyerItem} {as : List KeyerSystemAct}
    (hretire : keyerThreads.Along (fun s a _ => threadsRetire s a)
      (.init lastPressed lastQueued) as) :
    keyerThreads.Along OneKeyer (.init lastPressed lastQueued) as := by
  refine Machine.along_of_invariant (I := RetireInv) ?_ (retireInv_init ..) hretire
  intro s a s' hI hretire hstep
  have hI' := retireInv_step hI hretire hstep
  refine ⟨hI', countP_le_one_of_last hI'.newest, ?_⟩
  rcases played_step hstep with heq | ⟨i, item, hpop, heq⟩
  · simp [heq]
  · simpa [heq] using hI.stale_le_of_pop hpop

/-- The thread of a first `initKeyer` is about to wait when a second one
stops and restarts the keyer; it leaves before `m_started` is set again. -/
def cleanRestart : List KeyerSystemAct :=
  initKeyerActs 20 .iambicB ++ List.replicate 4 (.thread 0 none)
    ++ [.initKeyer 25 .iambicB, .control, .control, .thread 0 none, .thread 0 none, .thread 0 none]
    ++ List.replicate 6 .control

theorem one_keyer_thread_cleanRestart :
    (∃ s, keyerThreads.run (.init .dit .dit) cleanRestart = some s
      ∧ s.threads = [.left, .test] ∧ s.started = true)
      ∧ keyerThreads.Along OneKeyer (.init .dit .dit) cleanRestart :=
  ⟨⟨_, rfl, rfl, rfl⟩, one_keyer_thread (by decide)⟩

/-- The same, but the thread is not scheduled between `notify_all` and
`m_started = true`; then a paddle is pressed. -/
def lateRestart : List KeyerSystemAct :=
  initKeyerActs 20 .iambicB ++ List.replicate 4 (.thread 0 none)
    ++ .initKeyer 25 .iambicB :: List.replicate 8 .control
    ++ .onDit true :: List.replicate 3 (.thread 0 none)

/-- Restarting the keyer can leave two threads in `keyerCall`, and the
stopped one plays: at the end of `lateRestart` it starts a dit. -/
theorem restart_keeps_thread :
    ¬ ∀ as, keyerThreads.Along OneKeyer (.init .dit .dit) as := by
  intro h
  have hone := h lateRestart
  revert hone
  decide

end CwKeyer
