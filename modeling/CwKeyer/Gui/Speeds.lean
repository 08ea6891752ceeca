import CwKeyer.Gui.CurrentSettings
import CwKeyer.Gui.Simulation

/-!
# The Farnsworth speed is not above the wpm

`setWpm` and `setFarnsWorth` keep the two speeds in order by dragging the
other one along (`Book.InOrder.setWpm`). `loadConfiguration` reads one after
the other and does not compare them, so that everything depends on what the
settings file holds at the start (`speeds_in_order_iff`): a file that is out
of order, or that has a wpm below the default Farnsworth speed and no
Farnsworth speed, starts a session out of order.
-/

namespace CwKeyer

/-- A setter of a speed is called with a positive speed. -/
def GuiCall.setsSpeed : GuiCall → Bool
  | .setWpm value => 0 < value
  | .setFarnsWorth value => 0 < value
  | _ => false

/-! ## In the book -/

namespace Book

variable {b : Book} {value : Int}

def InOrder (b : Book) : Prop := 0 < b.farnsWorth ∧ b.farnsWorth ≤ b.wpm

theorem InOrder.setWpm (h : b.InOrder) (hpos : 0 < value) : (b.setWpm value).InOrder := by
  unfold Book.setWpm
  split
  case isTrue => exact h
  case isFalse =>
    split
    case isTrue => exact ⟨hpos, Int.le_refl value⟩
    case isFalse hle => exact ⟨h.1, Int.not_lt.mp hle⟩

theorem InOrder.setFarnsWorth (h : b.InOrder) (hpos : 0 < value) :
    (b.setFarnsWorth value).InOrder := by
  unfold Book.setFarnsWorth
  split
  case isTrue => exact h
  case isFalse =>
    split
    case isTrue => exact ⟨hpos, Int.le_refl value⟩
    case isFalse hle => exact ⟨hpos, Int.not_lt.mp hle⟩

/-- The speeds that have been loaded are as sorted as they were stored. -/
theorem load_sorted_iff {commPorts : Nat} : (b.load commPorts).farnsWorth ≤ (b.load commPorts).wpm ↔
    SpeedsSorted b.store :=
  Iff.rfl

end Book

/-! ## In the program -/

namespace GuiConnector

variable {ok : Prop} {g : GuiConnector} {b : Book}

def SpeedsInOrder (g : GuiConnector) : Prop := 0 < g.farnsWorth ∧ g.farnsWorth ≤ g.wpm

instance (g : GuiConnector) : Decidable g.SpeedsInOrder := inferInstanceAs (Decidable (_ ∧ _))

theorem Shows.inOrder_iff (h : Shows ok g b) : g.SpeedsInOrder ↔ b.InOrder := by
  unfold SpeedsInOrder Book.InOrder
  rw [h.wpm_eq, h.farnsWorth_eq]

/-- Only the speeds are set. -/
def speedStep (fuel : Nat) (g : GuiConnector) : GuiAct → Option GuiConnector
  | .call c env => if c.setsSpeed then (perform fuel { g with env := env } c).toOption else none
  | .connectionLost => none

end GuiConnector

def speedSetters (fuel : Nat) : Machine GuiConnector GuiAct := ⟨GuiConnector.speedStep fuel⟩

namespace GuiConnector

open CwKeyer.Configuration

variable {fuel : Nat} {g g' : GuiConnector}

/-- The specification: the calls are done with the fuel, and the speeds are
in order now and after every call. -/
structure SpeedsStayInOrder (fuel : Nat) (g : GuiConnector) : Prop where
  returns : ∀ t c env, (speedSetters fuel).Reachable g t → c.setsSpeed = true →
    perform fuel { t with env := env } c ≠ .error .outOfFuel
  now : g.SpeedsInOrder
  along : ∀ as, (speedSetters fuel).Along (fun _ _ g' => g'.SpeedsInOrder) g as

/-- Whatever the file system does. -/
theorem perform_inOrder (fuel : Nat) (g : GuiConnector) {c : GuiCall} (hsets : c.setsSpeed = true) :
    Meets (Excused False) (fun g' => g.SpeedsInOrder → g'.SpeedsInOrder)
      (perform (fuel + 2) g c) := by
  have hshows : Shows False g g.book := shows_book nofun
  cases c with
  | setWpm value =>
      have hpos : 0 < value := of_decide_eq_true hsets
      refine (hshows.setWpm fuel value).mono fun g' h' horder => ?_
      exact h'.inOrder_iff.mpr ((hshows.inOrder_iff.mp horder).setWpm hpos)
  | setFarnsWorth value =>
      have hpos : 0 < value := of_decide_eq_true hsets
      refine (hshows.setFarnsWorth fuel value).mono fun g' h' horder => ?_
      exact h'.inOrder_iff.mpr ((hshows.inOrder_iff.mp horder).setFarnsWorth hpos)
  | _ => cases hsets

theorem speedStep_inOrder (hfuel : 2 ≤ fuel) {a : GuiAct} (h : g.SpeedsInOrder)
    (hstep : speedStep fuel g a = some g') : g'.SpeedsInOrder := by
  cases a with
  | connectionLost => cases hstep
  | call c env =>
      obtain ⟨hsets, hstep⟩ := Option.ite_none_right_eq_some.mp hstep
      obtain ⟨n, rfl⟩ := Nat.exists_eq_add_of_le' hfuel
      have hspec := perform_inOrder n { g with env := env } hsets
      cases hcall : perform (n + 2) { g with env := env } c with
      | error e =>
          rw [hcall] at hstep
          cases hstep
      | ok g₁ =>
          rw [hcall] at hstep
          obtain rfl := Option.some.inj hstep
          exact hspec.ok hcall h

theorem speedsStayInOrder_iff (hfuel : 2 ≤ fuel) : SpeedsStayInOrder fuel g ↔ g.SpeedsInOrder := by
  constructor
  · exact SpeedsStayInOrder.now
  · intro h
    refine ⟨?_, h, ?_⟩
    · intro t c env _ hsets
      obtain ⟨n, rfl⟩ := Nat.exists_eq_add_of_le' hfuel
      exact fun hcall => (perform_inOrder n { t with env := env } hsets).excused hcall
    · intro as
      refine Machine.along_of_invariant (P := fun _ _ _ => True) (I := SpeedsInOrder) ?_ h ?_
      · intro s a s' hs _ hstep
        exact ⟨speedStep_inOrder hfuel hs hstep, speedStep_inOrder hfuel hs hstep⟩
      · exact Machine.Along.of_forall fun _ _ => trivial

/-- The speeds stay in order from a file from which they are loaded in
order, and, unless the file system loses them while the other settings are
loaded, from no other. -/
theorem speeds_in_order_iff (hfuel : 2 ≤ fuel) {audioDevices commPorts : Nat} {keyer : Keyer}
    {file : ConfigFile} {env : Environment}
    (hboot : boot audioDevices commPorts keyer file env = .ok g) :
    (SpeedsSorted (stored file) → SpeedsStayInOrder fuel g) ∧
      (env.filesOk = true → (SpeedsStayInOrder fuel g ↔ SpeedsSorted (stored file))) := by
  obtain ⟨b, hshows, hpos, hsorted, hloaded⟩ :=
    (boot_shows fun hok : env.filesOk = true => hok).ok hboot
  have henough (h : SpeedsSorted (stored file)) : SpeedsStayInOrder fuel g :=
    (speedsStayInOrder_iff hfuel).mpr (hshows.inOrder_iff.mpr ⟨hpos, hsorted h⟩)
  refine ⟨henough, fun hok => ⟨fun horder => ?_, henough⟩⟩
  have hbook := hshows.inOrder_iff.mp horder.now
  rw [hloaded hok] at hbook
  exact Book.load_sorted_iff.mp hbook.2

theorem speeds_in_order_firstStart :
    SpeedsSorted (stored none) ∧ SpeedsStayInOrder 2 firstStart := by
  have hsorted : SpeedsSorted (stored none) := by decide
  exact ⟨hsorted, ((speeds_in_order_iff (by decide) boot_firstStart).2 rfl).mpr hsorted⟩

/-- A file with a low wpm and no Farnsworth speed. -/
theorem slow_wpm_out_of_order : ∃ g, boot 0 0 { lastPressed := .dit, lastQueued := .dit }
    (some [(cfgWpm, .number 10)]) {} = .ok g ∧ ¬ SpeedsStayInOrder 2 g := by
  refine ⟨_, rfl, ?_⟩
  intro h
  exact absurd h.now (by decide)

end GuiConnector

end CwKeyer
