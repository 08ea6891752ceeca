import Mathlib.Data.List.Sort
import Mathlib.Data.String.Basic
import CwKeyer.Ranks

/-!
# `SerialPorts`

The list of serial ports that `serial/SerialPorts_linux.cpp` makes of `/dev`.
It is sorted, so it does not depend on the order in which the directory is
read, and a port stands where as many ports sort before it as its index says
(`getElem?_listPorts`).
-/

namespace CwKeyer

/-- An entry of `/dev`: its name, and whether it is a character device. -/
structure DevEntry where
  name : String
  charDevice : Bool
deriving Repr, DecidableEq

/-- The entries of `/dev` in the order of `readdir`. -/
structure DevDir where
  entries : List DevEntry
  distinct : (entries.map DevEntry.name).Nodup

namespace SerialPorts

def isSerialDevice (name : String) : Bool :=
  "ttyS".toList.isPrefixOf name.toList || "ttyUSB".toList.isPrefixOf name.toList
    || "ttyACM".toList.isPrefixOf name.toList || "ttyAMA".toList.isPrefixOf name.toList

def fullPath (e : DevEntry) : String := "/dev/" ++ e.name

/-- The ports before they are sorted. -/
def found (dir : DevDir) : List String :=
  (dir.entries.filter fun e => isSerialDevice e.name && e.charDevice).map fullPath

/-- Without a directory there are no ports. The order of strings is total, so
every way to sort gives this list. -/
def listPorts : Option DevDir → List String
  | none => []
  | some dir => (found dir).insertionSort (· ≤ ·)

variable {dir dir' : DevDir} {dev : Option DevDir} {p : String}

theorem fullPath_injective : Function.Injective ("/dev/" ++ ·) := by
  intro name name' h
  exact String.append_right_inj _ |>.mp h

theorem nodup_found (dir : DevDir) : (found dir).Nodup := by
  have hnames : (found dir).Nodup ↔ (((dir.entries.filter fun e =>
      isSerialDevice e.name && e.charDevice).map DevEntry.name).map ("/dev/" ++ ·)).Nodup := by
    rw [List.map_map]
    exact Iff.rfl
  rw [hnames, List.nodup_map_iff fullPath_injective]
  exact dir.distinct.sublist (List.filter_sublist.map _)

theorem mem_listPorts : p ∈ listPorts (some dir) ↔
    ∃ e ∈ dir.entries, (isSerialDevice e.name = true ∧ e.charDevice = true) ∧ fullPath e = p := by
  rw [listPorts, List.mem_insertionSort, found, List.mem_map]
  simp only [List.mem_filter, Bool.and_eq_true, and_assoc]

theorem sorted_listPorts (dev : Option DevDir) : (listPorts dev).Pairwise (· < ·) := by
  cases dev with
  | none => exact .nil
  | some dir =>
      have hsorted := List.pairwise_insertionSort (· ≤ ·) (found dir)
      have hnodup : ((found dir).insertionSort (· ≤ ·)).Nodup :=
        (List.perm_insertionSort (· ≤ ·) (found dir)).nodup_iff.mpr (nodup_found dir)
      exact (hsorted.and hnodup).imp fun ⟨hle, hne⟩ => lt_of_le_of_ne hle hne

/-- The order of the directory does not matter. -/
theorem listPorts_perm (h : dir.entries.Perm dir'.entries) :
    listPorts (some dir) = listPorts (some dir') := by
  have hfound : (found dir).Perm (found dir') := (h.filter _).map _
  refine List.Perm.eq_of_pairwise (fun _ _ _ _ hlt hgt => absurd hlt hgt.asymm)
    (sorted_listPorts _) (sorted_listPorts _) ?_
  exact (List.perm_insertionSort _ _).trans (hfound.trans (List.perm_insertionSort _ _).symm)

theorem getElem?_listPorts {i : Nat} :
    (listPorts dev)[i]? = some p ↔ p ∈ listPorts dev ∧ Ranks.rank (listPorts dev) p = i :=
  Ranks.getElem?_eq_some_iff (sorted_listPorts dev)

end SerialPorts

end CwKeyer
