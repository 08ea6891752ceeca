import Mathlib.Algebra.Order.Ring.Int
import Mathlib.Data.List.TakeWhile

/-!
# `Configuration`

The settings file of `configuration/Configuration.cpp`. A file that does
not hold a JSON object reads like one that holds an empty object, so the
file is its object, or `none` when there is no file. Every function opens
the file anew: what the file system does in one call is in a
`FileOutcome`, and the text of an exception is the error.

`stored` is what a reader finds under a key. A call of `putValue` that
succeeds stores its value and leaves the other keys alone (`stored_put`).
-/

namespace CwKeyer

/-! ## JSON -/

/-- A `QJsonValue`. A number is the rational that its double stands for;
arrays and nested objects are kept as text. -/
inductive JsonValue where
  | null
  | bool (b : Bool)
  | number (x : Rat)
  | string (s : String)
  | array (text : String)
  | object (text : String)
deriving Repr, DecidableEq

namespace JsonValue

/-- `toInt()`: 0 unless the value is a whole number in the range of int. -/
def toInt : JsonValue → Int
  | .number x => if x.den = 1 ∧ -2 ^ 31 ≤ x.num ∧ x.num < 2 ^ 31 then x.num else 0
  | _ => 0

def toDouble : JsonValue → Rat
  | .number x => x
  | _ => 0

def toBool : JsonValue → Bool
  | .bool b => b
  | _ => false

def toString : JsonValue → String
  | .string s => s
  | _ => ""

theorem toInt_number {n : Int} (hlow : -2 ^ 31 ≤ n) (hhigh : n < 2 ^ 31) :
    toInt (.number n) = n := by
  have hden : ((n : Int) : Rat).den = 1 := rfl
  exact if_pos ⟨hden, hlow, hhigh⟩

end JsonValue

/-- A `QJsonObject`; the first entry of a key counts. -/
abbrev JsonObject := List (String × JsonValue)

namespace JsonObject

def value (root : JsonObject) (key : String) : Option JsonValue := root.lookup key

def remove (root : JsonObject) (key : String) : JsonObject := root.filter fun e => e.1 ≠ key

/-- `root[key] = value`. -/
def insert (root : JsonObject) (key : String) (value : JsonValue) : JsonObject :=
  (key, value) :: root.remove key

variable {root : JsonObject} {key other : String} {v : JsonValue}

theorem value_remove (h : other ≠ key) : (root.remove key).value other = root.value other := by
  induction root with
  | nil => rfl
  | cons e root ih =>
      by_cases hkey : e.1 = key
      · have hne : (other == e.1) = false := beq_false_of_ne (hkey ▸ h)
        have hdrop : remove (e :: root) key = remove root key := by simp [remove, hkey]
        rw [hdrop, ih, value, value, List.lookup_cons, hne]
      · have hkeep : remove (e :: root) key = e :: remove root key := by simp [remove, hkey]
        rw [hkeep]
        show List.lookup other (e :: remove root key) = List.lookup other (e :: root)
        rw [List.lookup_cons, List.lookup_cons]
        split
        · rfl
        · exact ih

theorem value_remove_self : (root.remove key).value key = none := by
  refine List.lookup_eq_none_iff.mpr fun e he => ?_
  obtain ⟨-, hne⟩ := List.mem_filter.mp he
  have hne := of_decide_eq_true hne
  simpa using Ne.symm hne

@[simp] theorem value_insert_self : (root.insert key v).value key = some v := by
  simp [insert, value]

theorem value_insert_ne (h : other ≠ key) : (root.insert key v).value other = root.value other := by
  have hne : (other == key) = false := beq_false_of_ne h
  show List.lookup other ((key, v) :: root.remove key) = List.lookup other root
  rw [List.lookup_cons, hne]
  exact value_remove h

end JsonObject

/-! ## The file -/

abbrev ConfigFile := Option JsonObject

/-- Whether the file can be opened for reading and for writing, and
whether all of the new content is written. -/
structure FileOutcome where
  openRead : Bool := true
  openWrite : Bool := true
  write : Bool := true
deriving Repr, DecidableEq

def FileOutcome.ok (io : FileOutcome) : Bool := io.openRead && io.openWrite && io.write

namespace Configuration

def readFullJson (file : ConfigFile) (io : FileOutcome) : JsonObject :=
  match file with
  | none => []
  | some root => if io.openRead then root else []

/-- Opening for writing truncates the file, so that a write that fails
leaves a file without an object in it. -/
def writeFullJson (root : JsonObject) (io : FileOutcome) : Except String ConfigFile :=
  if io.openWrite then .ok (some (if io.write then root else []))
  else .error "Could not open file for writing"

/-! ### Writing -/

def putValue (key : String) (value : JsonValue) (file : ConfigFile) (io : FileOutcome) :
    Except String ConfigFile :=
  writeFullJson ((readFullJson file io).insert key value) io

def putValueInt (key : String) (value : Int) : ConfigFile → FileOutcome → Except String ConfigFile :=
  putValue key (.number value)

def putValueDouble (key : String) (value : Rat) :
    ConfigFile → FileOutcome → Except String ConfigFile :=
  putValue key (.number value)

def putValueBool (key : String) (value : Bool) :
    ConfigFile → FileOutcome → Except String ConfigFile :=
  putValue key (.bool value)

/-- What is left of a string that is passed on by its `c_str()`. -/
def cStr (s : String) : String := String.ofList (s.toList.takeWhile (· ≠ '\x00'))

def putValueString (key : String) (value : String) :
    ConfigFile → FileOutcome → Except String ConfigFile :=
  putValue key (.string (cStr value))

/-! ### Reading -/

/-- What a reader finds under a key. -/
def stored (file : ConfigFile) (key : String) : Option JsonValue := file.bind (·.value key)

/-- The body that the readers share: without a file or without the key the
result is `absent`. -/
def readValue {α : Type} (absent : Except String α) (convert : JsonValue → α) (key : String)
    (file : ConfigFile) (io : FileOutcome) : Except String α :=
  match file with
  | none => absent
  | some root =>
      if io.openRead then
        match root.value key with
        | none => absent
        | some value => .ok (convert value)
      else .error "Could not open file"

def hasValue (key : String) : ConfigFile → FileOutcome → Except String Bool :=
  readValue (.ok false) (fun _ => true) key

def getValueInt (key : String) : ConfigFile → FileOutcome → Except String Int :=
  readValue (.ok 0) JsonValue.toInt key

def getValueDouble (key : String) : ConfigFile → FileOutcome → Except String Rat :=
  readValue (.ok 0) JsonValue.toDouble key

def getValueBool (key : String) : ConfigFile → FileOutcome → Except String Bool :=
  readValue (.ok false) JsonValue.toBool key

/-- Without a value it constructs a `std::string` from `nullptr`. -/
def getValueString (key : String) : ConfigFile → FileOutcome → Except String String :=
  readValue (.error "basic_string: construction from null is not valid") JsonValue.toString key

variable {α : Type} {absent : Except String α} {convert : JsonValue → α}
variable {key other : String} {v : JsonValue} {file file' : ConfigFile} {io : FileOutcome}

theorem readValue_eq (h : io.openRead = true) : readValue absent convert key file io =
    match stored file key with
    | none => absent
    | some value => .ok (convert value) := by
  cases file with
  | none => rfl
  | some root => simp [readValue, stored, h]

theorem readValue_default {dflt : α} :
    ∃ value, readValue (.ok dflt) convert key file {} = .ok value := by
  rw [readValue_eq rfl]
  cases stored file key with
  | none => exact ⟨dflt, rfl⟩
  | some value => exact ⟨convert value, rfl⟩

/-- When the file can be opened a reader sees what is stored. -/
theorem readValue_congr (h : io.openRead = true) (hstored : stored file' key = stored file key) :
    readValue absent convert key file io = readValue absent convert key file' {} := by
  rw [readValue_eq h, readValue_eq rfl, hstored]

/-- A write that succeeds. -/
theorem putValue_ok (key : String) (v : JsonValue) (file : ConfigFile) (h : io.ok = true) :
    ∃ file', putValue key v file io = .ok file' ∧ stored file' key = some v ∧
      ∀ other, other ≠ key → stored file' other = stored file other := by
  obtain ⟨⟨hread, hopen⟩, hwrite⟩ : (io.openRead = true ∧ io.openWrite = true) ∧ io.write = true := by
    simpa [FileOutcome.ok] using h
  refine ⟨some ((readFullJson file io).insert key v), ?_, ?_, ?_⟩
  · simp [putValue, writeFullJson, hopen, hwrite]
  · simp [stored]
  · intro other hne
    show ((readFullJson file io).insert key v).value other = stored file other
    rw [JsonObject.value_insert_ne hne]
    cases file with
    | none => rfl
    | some root => simp [readFullJson, stored, hread]

/-- The strings that `c_str()` passes on whole. -/
theorem cStr_eq_iff {s : String} : cStr s = s ↔ '\x00' ∉ s.toList := by
  have hlist : cStr s = s ↔ s.toList.takeWhile (· ≠ '\x00') = s.toList := by
    rw [cStr]
    constructor
    · intro h
      simpa using congrArg String.toList h
    · intro h
      rw [h]
      exact String.ofList_toList
  rw [hlist, List.takeWhile_eq_self_iff]
  constructor
  · intro h hmem
    exact absurd rfl (of_decide_eq_true (h _ hmem))
  · intro h c hc
    exact decide_eq_true fun heq => h (heq ▸ hc)

end Configuration

end CwKeyer
