import Mathlib.Data.List.DropRight
import CwKeyer.Remote.Handshake

/-!
# What is taken for an upgrade

`isWebSocketUpgradeResponse` looks for a text where the grammar of headers
has lines, field names without case and white space. On a block of headers
(`HeaderBlock`) it finds the text exactly if some line contains it
(`isWebSocketUpgradeResponse_iff`), and a line that contains the text is an
upgrade field only if it is nothing but the text (`asWritten_iff`). So the
two agree unless a field is spelled otherwise or the text stands elsewhere,
and then they agree only where the one makes up for the other
(`upgrade_recognised_iff`).
-/

namespace CwKeyer

open RemoteClient

/-! ## The grammar -/

/-- Without case. -/
def lower (b : UInt8) : UInt8 := if 65 ≤ b ∧ b ≤ 90 then b + 32 else b

/-- A space or a tab. -/
def isOws (b : UInt8) : Bool := b == 32 || b == 9

def trimOws (value : List UInt8) : List UInt8 := (value.dropWhile isOws).rdropWhile isOws

/-- What stands before the colon. -/
def fieldName (line : List UInt8) : List UInt8 := line.takeWhile (· != 58)

def fieldValue (line : List UInt8) : List UInt8 := trimOws ((line.dropWhile (· != 58)).drop 1)

/-- `Upgrade` with the value `websocket`. -/
def IsUpgradeField (line : List UInt8) : Prop :=
  (fieldName line).map lower = bytes "upgrade" ∧ (fieldValue line).map lower = bytes "websocket"

instance (line : List UInt8) : Decidable (IsUpgradeField line) :=
  inferInstanceAs (Decidable (_ ∧ _))

/-- HTTP/1.1 with status code 101; a reason may follow. -/
def IsSwitching (statusLine : List UInt8) : Prop :=
  statusLine = bytes "HTTP/1.1 101" ∨ bytes "HTTP/1.1 101" ++ [32] <+: statusLine

instance (line : List UInt8) : Decidable (IsSwitching line) := inferInstanceAs (Decidable (_ ∨ _))

/-- The status line and the field lines of a response. -/
structure HeaderBlock where
  statusLine : List UInt8
  fields : List (List UInt8)
  oneLine : ∀ line ∈ statusLine :: fields, 13 ∉ line ∧ 10 ∉ line
  notLast : ∀ line ∈ fields, line ≠ []

namespace HeaderBlock

def lines (block : HeaderBlock) : List (List UInt8) := block.statusLine :: block.fields

/-- The block as it is received. -/
def received (block : HeaderBlock) : List UInt8 :=
  (block.lines.flatMap fun line => line ++ [13, 10]) ++ [13, 10]

/-- The server switches to WebSocket. -/
def Switches (block : HeaderBlock) : Prop :=
  IsSwitching block.statusLine ∧ ∃ line ∈ block.fields, IsUpgradeField line

end HeaderBlock

/-! ## The text -/

/-- The text is somewhere in the line. -/
def HasText (line : List UInt8) : Prop :=
  bytes "Upgrade: websocket" <:+: line ∨ bytes "upgrade: websocket" <:+: line

/-- The line is the text, with white space after it at most. -/
def AsWritten (line : List UInt8) : Prop :=
  line.rdropWhile isOws = bytes "Upgrade: websocket"
    ∨ line.rdropWhile isOws = bytes "upgrade: websocket"

namespace HeaderBlock

/-- An upgrade field is spelled otherwise. -/
def SpelledOtherwise (block : HeaderBlock) : Prop :=
  ∃ line ∈ block.fields, IsUpgradeField line ∧ ¬AsWritten line

/-- The text stands in another line than a field that is nothing but it. -/
def TextElsewhere (block : HeaderBlock) : Prop :=
  ∃ line ∈ block.lines, HasText line ∧ ¬AsWritten line

/-- A field is written as expected; or none is spelled otherwise and the text
stands nowhere else. After a status code that only begins with 101 the text
stands nowhere. -/
def WrittenAsExpected (block : HeaderBlock) : Prop :=
  bytes "HTTP/1.1 101" <+: block.statusLine →
    if IsSwitching block.statusLine then
      (∃ line ∈ block.fields, AsWritten line) ∨ (¬block.SpelledOtherwise ∧ ¬block.TextElsewhere)
    else ∀ line ∈ block.lines, ¬HasText line

end HeaderBlock

/-! ## What the search finds -/

variable {line : List UInt8}

theorem rdropWhile_append (p : UInt8 → Bool) (line : List UInt8) :
    ∃ rest, (∀ b ∈ rest, p b = true) ∧ line = line.rdropWhile p ++ rest := by
  refine ⟨(line.reverse.takeWhile p).reverse, ?_, ?_⟩
  · intro b hb
    exact List.mem_takeWhile_imp (List.mem_reverse.mp hb)
  · rw [List.rdropWhile, ← List.reverse_append, List.takeWhile_append_dropWhile,
      List.reverse_reverse]

/-- A needle without line breaks is in the block if it is in a line. -/
theorem infix_received {block : HeaderBlock} {needle : List UInt8} (hcr : 13 ∉ needle)
    (hlf : 10 ∉ needle) (hne : needle ≠ []) :
    needle <:+: block.received ↔ ∃ line ∈ block.lines, needle <:+: line := by
  have hnil : ¬needle <:+: [] := fun h => hne (List.infix_nil.mp h)
  have hfirst {a : UInt8} (ha : a ∉ needle) (rest : List UInt8) :
      needle <:+: a :: rest ↔ needle <:+: rest := by
    have hcut : needle <:+: [] ++ a :: rest ↔ needle <:+: [] ∨ needle <:+: rest :=
      infix_append_cons_iff ha
    exact hcut.trans (or_iff_right hnil)
  have hlines (lines : List (List UInt8)) :
      needle <:+: (lines.flatMap fun line => line ++ [13, 10]) ++ [13, 10]
        ↔ ∃ line ∈ lines, needle <:+: line := by
    induction lines with
    | nil => simpa [hnil] using (hfirst hcr [10]).trans (hfirst hlf [])
    | cons line lines ih =>
        rw [List.exists_mem_cons_iff, ← ih, List.flatMap_cons, List.append_assoc,
          List.append_assoc]
        exact (infix_append_cons_iff hcr).trans (or_congr_right (hfirst hlf _))
  exact hlines block.lines

theorem isWebSocketUpgradeResponse_iff {block : HeaderBlock} :
    isWebSocketUpgradeResponse block.received = true ↔
      bytes "HTTP/1.1 101" <+: block.statusLine ∧ ∃ line ∈ block.lines, HasText line := by
  have hstart : find (bytes "HTTP/1.1 101") block.received = some 0
      ↔ bytes "HTTP/1.1 101" <+: block.statusLine := by
    rw [find_eq_zero_iff, HeaderBlock.received, HeaderBlock.lines, List.flatMap_cons,
      List.append_assoc, List.append_assoc]
    exact prefix_append_cons_iff (by decide +kernel)
  have htext (needle : List UInt8) (hcr : 13 ∉ needle) (hlf : 10 ∉ needle) (hne : needle ≠ []) :
      (find needle block.received).isSome = true ↔ ∃ line ∈ block.lines, needle <:+: line := by
    rw [find_isSome_iff, infix_received hcr hlf hne]
  rw [isWebSocketUpgradeResponse, ← hstart]
  by_cases hfound : find (bytes "HTTP/1.1 101") block.received = some 0
  · rw [if_neg (not_not.mpr hfound), Bool.or_eq_true,
      htext _ (by decide +kernel) (by decide +kernel) (by decide +kernel),
      htext _ (by decide +kernel) (by decide +kernel) (by decide +kernel), and_iff_right hfound]
    simp only [HasText, and_or_left, exists_or]
  · rw [if_pos hfound]
    exact iff_of_false Bool.false_ne_true fun h => hfound h.1

/-! ## Fields and the text -/

theorem rdropWhile_append_of_all {p : UInt8 → Bool} {rest : List UInt8}
    (h : ∀ b ∈ rest, p b = true) : (line ++ rest).rdropWhile p = line.rdropWhile p := by
  rw [List.rdropWhile, List.reverse_append,
    List.dropWhile_append_of_pos fun b hb => h b (List.mem_reverse.mp hb), List.rdropWhile]

theorem takeWhile_colon {name : List UInt8} (value : List UInt8) (h : 58 ∉ name) :
    fieldName (name ++ 58 :: value) = name ∧ fieldValue (name ++ 58 :: value) = trimOws value := by
  have hname : ∀ b ∈ name, (b != 58) = true := fun b hb => by
    rw [bne_iff_ne]
    rintro rfl
    exact h hb
  rw [fieldName, fieldValue, List.takeWhile_append_of_pos hname, List.dropWhile_append_of_pos hname]
  exact ⟨List.append_nil name, rfl⟩

/-- The name and the value of an upgrade field. -/
theorem exists_field (h : IsUpgradeField line) :
    ∃ name value, line = name ++ 58 :: value ∧ 58 ∉ name ∧ name.map lower = bytes "upgrade"
      ∧ (trimOws value).map lower = bytes "websocket" := by
  obtain ⟨hname, hvalue⟩ := h
  have hsplit : fieldName line ++ line.dropWhile (· != 58) = line := List.takeWhile_append_dropWhile
  cases htail : line.dropWhile (· != 58) with
  | nil =>
      rw [fieldValue, htail] at hvalue
      exact absurd hvalue (by decide +kernel)
  | cons colon value =>
      have hcolon := List.head?_dropWhile_not (· != 58) line
      rw [htail, List.head?_cons] at hcolon
      obtain rfl : colon = 58 := by simpa using hcolon
      rw [fieldValue, htail] at hvalue
      rw [htail] at hsplit
      refine ⟨fieldName line, value, hsplit.symm, ?_, hname, hvalue⟩
      intro hmem
      simpa using List.mem_takeWhile_imp hmem

theorem colon_notMem_of_lower {xs : List UInt8} {text : String} (hlower : xs.map lower = bytes text)
    (htext : 58 ∉ bytes text) : 58 ∉ xs := by
  intro hmem
  have hcolon : lower 58 ∈ xs.map lower := List.mem_map_of_mem hmem
  rw [hlower] at hcolon
  exact htext hcolon

theorem colon_notMem_of_ows {ows : List UInt8} (h : ∀ b ∈ ows, isOws b = true) : 58 ∉ ows :=
  fun hmem => absurd (h 58 hmem) (by decide)

theorem colon_notMem_value {value : List UInt8}
    (h : (trimOws value).map lower = bytes "websocket") : 58 ∉ value := by
  obtain ⟨rest, hrest, hback⟩ := rdropWhile_append isOws (value.dropWhile isOws)
  have hfront : ∀ b ∈ value.takeWhile isOws, isOws b = true := fun b hb => List.mem_takeWhile_imp hb
  rw [← List.takeWhile_append_dropWhile (p := isOws) (l := value), hback, List.mem_append,
    List.mem_append, not_or, not_or]
  exact ⟨colon_notMem_of_ows hfront, colon_notMem_of_lower h (by decide +kernel),
    colon_notMem_of_ows hrest⟩

/-- The two spellings of the text. -/
structure Spelling (name text : List UInt8) : Prop where
  text_eq : text = name ++ 58 :: 32 :: bytes "websocket"
  name_lower : name.map lower = bytes "upgrade"
  trimmed : text.rdropWhile isOws = text

theorem spelling_upgrade : Spelling (bytes "Upgrade") (bytes "Upgrade: websocket") :=
  ⟨by decide +kernel, by decide +kernel, by decide +kernel⟩

theorem spelling_lower : Spelling (bytes "upgrade") (bytes "upgrade: websocket") :=
  ⟨by decide +kernel, by decide +kernel, by decide +kernel⟩

/-- The value begins with no white space but the one after the colon. -/
theorem trimOws_websocket (rest : List UInt8) :
    trimOws (32 :: (bytes "websocket" ++ rest)) = (bytes "websocket" ++ rest).rdropWhile isOws := by
  have hhead : bytes "websocket" = 119 :: bytes "ebsocket" := by decide +kernel
  rw [trimOws, List.dropWhile_cons_of_pos (by decide), hhead, List.cons_append,
    List.dropWhile_cons_of_neg (by decide)]

/-- What follows the text in a value is white space. -/
theorem ows_of_value {rest : List UInt8}
    (h : ((bytes "websocket" ++ rest).rdropWhile isOws).map lower = bytes "websocket") :
    ∀ b ∈ rest, isOws b = true := by
  have hwebsocket : (bytes "websocket").map lower = bytes "websocket" := by decide +kernel
  obtain ⟨back, hback, heq⟩ := rdropWhile_append isOws (bytes "websocket" ++ rest)
  have hlength := congrArg List.length (h.trans hwebsocket.symm)
  rw [List.length_map, List.length_map] at hlength
  obtain ⟨-, rfl⟩ := List.append_inj heq hlength.symm
  exact hback

section

variable {name text : List UInt8} (h : Spelling name text)

include h

theorem Spelling.text_append (rest : List UInt8) :
    text ++ rest = name ++ 58 :: 32 :: (bytes "websocket" ++ rest) := by
  rw [h.text_eq, List.append_assoc]
  rfl

theorem Spelling.isUpgradeField {rest : List UInt8} (hrest : ∀ b ∈ rest, isOws b = true) :
    IsUpgradeField (text ++ rest) := by
  have hcolon : 58 ∉ name := colon_notMem_of_lower h.name_lower (by decide +kernel)
  obtain ⟨hname, hvalue⟩ := takeWhile_colon (32 :: (bytes "websocket" ++ rest)) hcolon
  rw [h.text_append]
  refine ⟨?_, ?_⟩
  · rw [hname, h.name_lower]
  · rw [hvalue, trimOws_websocket, rdropWhile_append_of_all hrest]
    decide +kernel

/-- The only colon of an upgrade field is that of the text. -/
theorem Spelling.eq_append (hfield : IsUpgradeField line) (htext : text <:+: line) :
    ∃ rest, line = text ++ rest ∧ ∀ b ∈ rest, isOws b = true := by
  obtain ⟨before, rest, hinfix⟩ := htext
  obtain ⟨name', value, rfl, hcolon, hname, hvalue⟩ := exists_field hfield
  rw [List.append_assoc, h.text_append, ← List.append_assoc before] at hinfix
  obtain ⟨hbefore, -, hrest⟩ := (List.append_cons_inj_of_notMem hcolon
    (colon_notMem_value hvalue)).mp hinfix.symm
  have hlength : name'.length = name.length := by
    have hmap := congrArg List.length (hname.trans h.name_lower.symm)
    rwa [List.length_map, List.length_map] at hmap
  obtain rfl : before = [] := by
    rw [hbefore, List.length_append] at hlength
    exact List.length_eq_zero_iff.mp (by omega)
  obtain rfl : value = 32 :: (bytes "websocket" ++ rest) := hrest
  rw [trimOws_websocket] at hvalue
  refine ⟨rest, ?_, ows_of_value hvalue⟩
  rw [h.text_append, hbefore, List.nil_append]

theorem Spelling.rdropWhile_iff :
    line.rdropWhile isOws = text ↔ IsUpgradeField line ∧ text <:+: line := by
  constructor
  · intro hline
    obtain ⟨rest, hrest, heq⟩ := rdropWhile_append isOws line
    rw [hline] at heq
    rw [heq]
    exact ⟨h.isUpgradeField hrest, (List.prefix_append ..).isInfix⟩
  · rintro ⟨hfield, hinfix⟩
    obtain ⟨rest, rfl, hrest⟩ := h.eq_append hfield hinfix
    rw [rdropWhile_append_of_all hrest, h.trimmed]

end

theorem asWritten_iff : AsWritten line ↔ IsUpgradeField line ∧ HasText line := by
  rw [AsWritten, spelling_upgrade.rdropWhile_iff, spelling_lower.rdropWhile_iff, HasText,
    and_or_left]

theorem not_asWritten_of_status (h : bytes "HTTP/1.1 101" <+: line) : ¬AsWritten line := by
  obtain ⟨rest, rfl⟩ := h
  have hstatus : bytes "HTTP/1.1 101" = 72 :: bytes "TTP/1.1 101" := by decide +kernel
  have hupgrade : bytes "Upgrade: websocket" = 85 :: bytes "pgrade: websocket" := by decide +kernel
  have hlower : bytes "upgrade: websocket" = 117 :: bytes "pgrade: websocket" := by decide +kernel
  rw [hstatus, List.cons_append]
  have hle := List.rdropWhile_prefix isOws (l := 72 :: (bytes "TTP/1.1 101" ++ rest))
  rintro (h | h)
  · rw [h, hupgrade] at hle
    exact absurd (List.cons_prefix_cons.mp hle).1 (by decide)
  · rw [h, hlower] at hle
    exact absurd (List.cons_prefix_cons.mp hle).1 (by decide)

/-- What the text finds beside the grammar, and the grammar beside the text. -/
theorem exists_hasText_iff {block : HeaderBlock} (hstatus : ¬AsWritten block.statusLine) :
    ((∃ line ∈ block.lines, HasText line) ↔ ∃ line ∈ block.fields, IsUpgradeField line) ↔
      (∃ line ∈ block.fields, AsWritten line)
        ∨ (block.SpelledOtherwise ↔ block.TextElsewhere) := by
  by_cases hwritten : ∃ line ∈ block.fields, AsWritten line
  · obtain ⟨line, hmem, hline⟩ := hwritten
    obtain ⟨hfield, htext⟩ := asWritten_iff.mp hline
    have hmem' : line ∈ block.lines := List.mem_cons_of_mem _ hmem
    exact iff_of_true (iff_of_true ⟨line, hmem', htext⟩ ⟨line, hmem, hfield⟩)
      (.inl ⟨line, hmem, hline⟩)
  · have hnot : ∀ line ∈ block.lines, ¬AsWritten line := by
      intro line hmem hline
      rcases List.mem_cons.mp hmem with rfl | hfield
      · exact hstatus hline
      · exact hwritten ⟨line, hfield, hline⟩
    have htext : block.TextElsewhere ↔ ∃ line ∈ block.lines, HasText line :=
      exists_congr fun line => and_congr_right fun hmem => and_iff_left (hnot line hmem)
    have hfield : block.SpelledOtherwise ↔ ∃ line ∈ block.fields, IsUpgradeField line :=
      exists_congr fun line => and_congr_right fun hmem =>
        and_iff_left (hnot line (List.mem_cons_of_mem _ hmem))
    rw [or_iff_right hwritten, htext, hfield]
    exact Iff.comm

theorem IsSwitching.status (h : IsSwitching line) : bytes "HTTP/1.1 101" <+: line := by
  rcases h with heq | hle
  · exact heq ▸ List.prefix_rfl
  · exact (List.prefix_append ..).trans hle

/-- With the status code 101 a field as written decides, and without one the
two agree if nothing is misspelled or misplaced, or both are. -/
theorem recognised_iff_of_switching {block : HeaderBlock} (h : IsSwitching block.statusLine) :
    (isWebSocketUpgradeResponse block.received = true ↔ block.Switches) ↔
      (∃ line ∈ block.fields, AsWritten line)
        ∨ (block.SpelledOtherwise ↔ block.TextElsewhere) := by
  rw [isWebSocketUpgradeResponse_iff, HeaderBlock.Switches, and_iff_right h.status,
    and_iff_right h, exists_hasText_iff (not_asWritten_of_status h.status)]

theorem recognised_iff_of_not_switching {block : HeaderBlock} (h : ¬IsSwitching block.statusLine) :
    (isWebSocketUpgradeResponse block.received = true ↔ block.Switches) ↔
      (bytes "HTTP/1.1 101" <+: block.statusLine → ∀ line ∈ block.lines, ¬HasText line) := by
  have hnot : ¬block.Switches := fun hswitches => h hswitches.1
  rw [isWebSocketUpgradeResponse_iff, iff_false_right hnot, not_and]
  refine imp_congr_right fun _ => ?_
  rw [not_exists]
  exact forall_congr' fun line => not_and

/-- **Upgrades are recognised by their text.** The response is taken for an
upgrade exactly if it is one, whenever a field is written as expected, or
none is spelled otherwise and the text stands nowhere else. Beside these
there are only the blocks with a field that is spelled otherwise and the
text in another place, where one error makes up for the other. -/
theorem upgrade_recognised_iff (block : HeaderBlock) :
    (block.WrittenAsExpected →
      (isWebSocketUpgradeResponse block.received = true ↔ block.Switches))
    ∧ (¬(block.SpelledOtherwise ∧ block.TextElsewhere) →
      (isWebSocketUpgradeResponse block.received = true ↔ block.Switches) →
        block.WrittenAsExpected) := by
  rw [HeaderBlock.WrittenAsExpected]
  split
  case isTrue hswitching =>
    rw [recognised_iff_of_switching hswitching]
    refine ⟨fun hexpected => ?_, fun hboth hagree _ => hagree.imp_right fun hiff => ?_⟩
    · exact (hexpected hswitching.status).imp_right fun ⟨hspelled, htext⟩ =>
        iff_of_false hspelled htext
    · have hspelled : ¬block.SpelledOtherwise := fun h => hboth ⟨h, hiff.mp h⟩
      exact ⟨hspelled, fun h => hspelled (hiff.mpr h)⟩
  case isFalse hlonger =>
    rw [recognised_iff_of_not_switching hlonger]
    exact ⟨id, fun _ => id⟩

/-- A response as most servers write it. -/
def lowerCase : HeaderBlock where
  statusLine := bytes "HTTP/1.1 101 Switching Protocols"
  fields := [bytes "upgrade: websocket ", bytes "connection: Upgrade"]
  oneLine := by decide +kernel
  notLast := by decide +kernel

theorem upgrade_recognised_lowerCase : isWebSocketUpgradeResponse lowerCase.received = true := by
  have hwritten : AsWritten (bytes "upgrade: websocket ") := .inr (by decide +kernel)
  have hexpected : lowerCase.WrittenAsExpected := by
    intro _
    rw [if_pos (by decide +kernel)]
    exact .inl ⟨_, List.mem_cons_self, hwritten⟩
  refine ((upgrade_recognised_iff lowerCase).1 hexpected).mpr ?_
  exact ⟨by decide +kernel, _, List.mem_cons_self, (asWritten_iff.mp hwritten).1⟩

/-- The response of a server that writes `UPGRADE`. -/
def upperCase : HeaderBlock where
  statusLine := bytes "HTTP/1.1 101 Switching Protocols"
  fields := [bytes "UPGRADE: websocket", bytes "CONNECTION: Upgrade"]
  oneLine := by decide +kernel
  notLast := by decide +kernel

theorem upperCase_rejected :
    ¬∀ block : HeaderBlock, block.received.length ≤ 8192 →
      (isWebSocketUpgradeResponse block.received = true ↔ block.Switches) := by
  intro h
  have hswitches : upperCase.Switches :=
    ⟨by decide +kernel, bytes "UPGRADE: websocket", List.mem_cons_self, by decide +kernel⟩
  have hrejected : isWebSocketUpgradeResponse upperCase.received = false := by decide +kernel
  have haccepted := (h upperCase (by decide +kernel)).mpr hswitches
  rw [hrejected] at haccepted
  cases haccepted

end CwKeyer
