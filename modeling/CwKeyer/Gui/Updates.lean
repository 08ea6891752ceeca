import CwKeyer.Gui.Configuration
import Mathlib.Logic.Function.Basic

/-!
# What a failed update leaves

The `put` functions and `removeValue` of `configuration/Configuration.cpp`
read the whole file, change one key and rewrite the whole file. Over what is
stored under each key, the change is a `Function.update` (`value_change`).

A step of an update can fail. Only a file that cannot be opened for writing
makes the call throw, and then nothing has happened. A file that cannot be
read counts as an empty one, and a write that fails comes after the
truncation (`stored_fileAfter`). So an update with a failure is harmless
exactly if it throws, or if it leaves what was there by coincidence
(`update_destroys_nothing_iff`).
-/

namespace CwKeyer

namespace Configuration

/-! ## The six updates -/

def putObject (key : String) (text : String) :
    ConfigFile → FileOutcome → Except String ConfigFile :=
  putValue key (.object text)

def removeValue (key : String) (file : ConfigFile) (io : FileOutcome) : Except String ConfigFile :=
  writeFullJson ((readFullJson file io).remove key) io

/-- A call that changes one key. -/
inductive Update where
  | putObject (text : String)
  | putValueInt (value : Int)
  | putValueDouble (value : Rat)
  | putValueBool (value : Bool)
  | putValueString (value : String)
  | removeValue
deriving Repr, DecidableEq

/-- The steps inside a call, and whether each succeeds when it is tried.
`existing` is what `exists` answers for the file, which is there. -/
structure UpdateSteps where
  existing : Bool := true
  openRead : Bool := true
  openWrite : Bool := true
  write : Bool := true
deriving Repr, DecidableEq

namespace UpdateSteps

/-- The file is read if it is found and opened. -/
def outcome (s : UpdateSteps) : FileOutcome := ⟨s.existing && s.openRead, s.openWrite, s.write⟩

def succeed (s : UpdateSteps) : Bool := s.outcome.ok

end UpdateSteps

namespace Update

def call (key : String) : Update → ConfigFile → FileOutcome → Except String ConfigFile
  | .putObject text => Configuration.putObject key text
  | .putValueInt value => Configuration.putValueInt key value
  | .putValueDouble value => Configuration.putValueDouble key value
  | .putValueBool value => Configuration.putValueBool key value
  | .putValueString value => Configuration.putValueString key value
  | .removeValue => Configuration.removeValue key

/-- The file when the call has returned or thrown. -/
def fileAfter (u : Update) (key : String) (file : ConfigFile) (s : UpdateSteps) : ConfigFile :=
  match u.call key file s.outcome with
  | .ok file' => file'
  | .error _ => file

/-- What the key is to hold. -/
def value : Update → Option JsonValue
  | .putObject text => some (.object text)
  | .putValueInt value => some (.number value)
  | .putValueDouble value => some (.number value)
  | .putValueBool value => some (.bool value)
  | .putValueString value => some (.string (cStr value))
  | .removeValue => none

/-- The change to the object in the file. -/
def change (u : Update) (key : String) (root : JsonObject) : JsonObject :=
  match u.value with
  | some v => root.insert key v
  | none => root.remove key

variable {u : Update} {key : String} {root : JsonObject} {s : UpdateSteps}

/-- All six are the same read and rewrite around their change. -/
theorem call_eq {file : ConfigFile} {io : FileOutcome} :
    u.call key file io = writeFullJson (u.change key (readFullJson file io)) io := by
  cases u <;> rfl

theorem value_change : (u.change key root).value = Function.update root.value key u.value := by
  funext other
  by_cases hkey : other = key
  · subst hkey
    rw [Function.update_self]
    unfold change
    cases u.value with
    | some v => exact JsonObject.value_insert_self
    | none => exact JsonObject.value_remove_self
  · rw [Function.update_of_ne hkey]
    unfold change
    cases u.value with
    | some v => exact JsonObject.value_insert_ne hkey
    | none => exact JsonObject.value_remove hkey

/-! ## The file afterwards -/

/-- What a reader finds afterwards, for every failure. -/
theorem stored_fileAfter : stored (u.fileAfter key (some root) s) =
    if s.openWrite then
      if s.write then
        Function.update (if s.existing && s.openRead then root.value else fun _ => none) key u.value
      else fun _ => none
    else root.value := by
  unfold fileAfter
  rw [call_eq, writeFullJson]
  cases hopen : s.openWrite with
  | false =>
      simp only [UpdateSteps.outcome, hopen, Bool.false_eq_true, if_false]
      rfl
  | true =>
      cases hwrite : s.write with
      | false =>
          simp only [UpdateSteps.outcome, hopen, hwrite, Bool.false_eq_true, if_false, if_true]
          rfl
      | true =>
          simp only [UpdateSteps.outcome, hopen, hwrite, if_true]
          show (u.change key _).value = _
          rw [value_change]
          cases hread : s.existing && s.openRead with
          | false => rfl
          | true => rfl

/-- The keys other than `key` keep their values, and after a failure `key`
does, too. -/
structure DestroysNothing (u : Update) (key : String) (root : JsonObject) (s : UpdateSteps) :
    Prop where
  others : ∀ other, other ≠ key → stored (u.fileAfter key (some root) s) other = root.value other
  failed : s.succeed = false → stored (u.fileAfter key (some root) s) key = root.value key

/-- The file held only what it holds after a failure: the new value of
`key` when it was not read, and nothing when it was not written. -/
def Coincides (u : Update) (key : String) (root : JsonObject) (s : UpdateSteps) : Prop :=
  (∀ other, other ≠ key → root.value other = none) ∧
    root.value key = if s.write then u.value else none

/-- A file that is written after a failure is what `Coincides` compares
with. -/
theorem stored_failed (hfailed : s.succeed = false) (hopen : s.openWrite = true) :
    stored (u.fileAfter key (some root) s) =
      Function.update (fun _ => none) key (if s.write then u.value else none) := by
  rw [stored_fileAfter, if_pos hopen]
  cases hwrite : s.write with
  | false =>
      funext other
      simp [Function.update_apply]
  | true =>
      have hread : (s.existing && s.openRead) = false := by
        simpa [UpdateSteps.succeed, UpdateSteps.outcome, FileOutcome.ok, hopen, hwrite]
          using hfailed
      simp [hread]

/-- An update destroys something exactly if a step fails other than the
opening for writing, unless the file happened to hold what is left. -/
theorem update_destroys_nothing_iff (u : Update) (key : String) (root : JsonObject)
    (s : UpdateSteps) : u.DestroysNothing key root s ↔
      s.succeed = true ∨ s.openWrite = false ∨ u.Coincides key root s := by
  by_cases hsucceed : s.succeed = true
  · refine iff_of_true ⟨fun other hne => ?_, fun hfailed => ?_⟩ (.inl hsucceed)
    · obtain ⟨⟨hread, hopen⟩, hwrite⟩ :
          ((s.existing && s.openRead) = true ∧ s.openWrite = true) ∧ s.write = true := by
        simpa [UpdateSteps.succeed, UpdateSteps.outcome, FileOutcome.ok] using hsucceed
      rw [stored_fileAfter, if_pos hopen, if_pos hwrite, if_pos hread, Function.update_of_ne hne]
    · exact absurd hsucceed (by simp [hfailed])
  by_cases hopen : s.openWrite = true
  · have hfailed : s.succeed = false := by simpa using hsucceed
    have hleft := @stored_failed u key root s hfailed hopen
    constructor
    · rintro ⟨hothers, hkey⟩
      refine .inr (.inr ⟨fun other hne => ?_, ?_⟩)
      · rw [← hothers other hne, hleft, Function.update_of_ne hne]
      · rw [← hkey hfailed, hleft, Function.update_self]
    · rintro (h | h | ⟨hothers, hkey⟩)
      · exact absurd h hsucceed
      · exact absurd hopen (by simp [h])
      · refine ⟨?_, ?_⟩
        · intro other hne
          rw [hleft, Function.update_of_ne hne, hothers other hne]
        · intro _
          rw [hleft, Function.update_self, hkey]
  · have hthrows : s.openWrite = false := by simpa using hopen
    have hsame : stored (u.fileAfter key (some root) s) = root.value := by
      rw [stored_fileAfter, if_neg hopen]
    exact iff_of_true ⟨fun other _ => congrFun hsame other, fun _ => congrFun hsame key⟩
      (.inr (.inl hthrows))

/-- The file cannot be opened for reading while the wpm is stored: the mode
is lost. -/
theorem unread_update_destroys :
    ¬ (putValueInt 30).DestroysNothing "wpm" [("wpm", .number 20), ("mode", .number 1)]
      ⟨true, false, true, true⟩ := by
  rintro ⟨hothers, -⟩
  have hmode := hothers "mode" (by decide)
  revert hmode
  decide

end Update

end Configuration

end CwKeyer
