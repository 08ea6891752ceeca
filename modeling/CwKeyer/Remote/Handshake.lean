import CwKeyer.Find
import CwKeyer.Remote.Stream

/-!
# The WebSocket handshake

`performWebSocketHandshake` collects what `recvRaw` returns until it has
seen the end of the headers, and judges all of it, with whatever came in
the same chunk after the headers. How much that is depends on the lengths
of the chunks alone (`stopAt`, `receiveResponse_eq`), and every length from
the end of the headers on, up to 511 bytes more, is possible
(`exists_stopAt`). So the result is the same for all ways of cutting the
stream exactly if the longest and the shortest of these responses get the
same verdict (`handshake_uncut_iff`).
-/

namespace CwKeyer

namespace RemoteClient

/-! ## The request -/

def base64Table : List Char :=
  "ABCDEFGHIJKLMNOPQRSTUVWXYZabcdefghijklmnopqrstuvwxyz0123456789+/".toList

def triple (octetA octetB octetC : UInt8) : Nat :=
  (octetA.toNat <<< 16) ||| (octetB.toNat <<< 8) ||| octetC.toNat

def sextet (triple shift : Nat) : Char := base64Table.getD ((triple >>> shift) &&& 0x3F) '='

def base64Encode : List UInt8 → List Char
  | [] => []
  | [a] => [sextet (triple a 0 0) 18, sextet (triple a 0 0) 12, '=', '=']
  | [a, b] => [sextet (triple a b 0) 18, sextet (triple a b 0) 12, sextet (triple a b 0) 6, '=']
  | a :: b :: c :: data =>
      sextet (triple a b c) 18 :: sextet (triple a b c) 12 :: sextet (triple a b c) 6 ::
        sextet (triple a b c) 0 :: base64Encode data

/-- The bytes of a text. -/
def bytes (text : String) : List UInt8 := text.toUTF8.toList

/-- The request, for the 16 bytes that `rand` gave. -/
def handshakeRequest (serverIp : String) (port : Int) (randomBytes : Vector UInt8 16) :
    List UInt8 :=
  bytes ("GET / HTTP/1.1\r\n" ++ "Host: " ++ serverIp ++ ":" ++ toString port ++ "\r\n"
    ++ "Upgrade: websocket\r\n" ++ "Connection: Upgrade\r\n"
    ++ "Sec-WebSocket-Key: " ++ String.ofList (base64Encode randomBytes.toList) ++ "\r\n"
    ++ "Sec-WebSocket-Version: 13\r\n\r\n")

/-! ## The response -/

def isWebSocketUpgradeResponse (headers : List UInt8) : Bool :=
  if find (bytes "HTTP/1.1 101") headers ≠ some 0 then false
  else (find (bytes "Upgrade: websocket") headers).isSome
    || (find (bytes "upgrade: websocket") headers).isSome

def headerEnd : List UInt8 := bytes "\r\n\r\n"

/-- The loop over the chunks that `recvRaw` returns; after the last one it
returns 0. -/
def receiveResponse (response : List UInt8) (chunks : List (List UInt8)) : Option (List UInt8) :=
  if (find headerEnd response).isSome then some response
  else match chunks with
    | [] => none
    | chunk :: rest =>
        if (response ++ chunk).length > 8192 then none
        else receiveResponse (response ++ chunk) rest
termination_by structural chunks

def performWebSocketHandshake (platform : Platform) (serverIp : String) (port : Int)
    (randomBytes : Vector UInt8 16) (sends : List Int) (chunks : List (List UInt8)) : Bool :=
  if !(sendRaw platform (handshakeRequest serverIp port randomBytes) sends).2 then false
  else match receiveResponse [] chunks with
    | none => false
    | some response => isWebSocketUpgradeResponse response

end RemoteClient

open RemoteClient

/-! ## Cuts -/

/-- `recvRaw` returns the stream in these chunks. -/
structure Cut (stream : List UInt8) (chunks : List (List UInt8)) : Prop where
  whole : chunks.flatten = stream
  sizes : ∀ chunk ∈ chunks, 1 ≤ chunk.length ∧ chunk.length ≤ 512

/-- How much has been received, from `n` bytes on, when there are at least
`enough`. -/
def stopAt (enough : Nat) (n : Nat) : List (List UInt8) → Nat
  | [] => n
  | chunk :: rest => if enough ≤ n then n else stopAt enough (n + chunk.length) rest

theorem stopAt_of_le {enough n : Nat} {chunks : List (List UInt8)} (h : enough ≤ n) :
    stopAt enough n chunks = n := by
  cases chunks with
  | nil => rfl
  | cons chunk rest => rw [stopAt, if_pos h]

theorem stopAt_of_lt {enough n : Nat} {chunk : List UInt8} {rest : List (List UInt8)}
    (h : n < enough) : stopAt enough n (chunk :: rest) = stopAt enough (n + chunk.length) rest := by
  rw [stopAt, if_neg (Nat.not_le.mpr h)]

theorem le_stopAt (enough n : Nat) (chunks : List (List UInt8)) : n ≤ stopAt enough n chunks := by
  induction chunks generalizing n with
  | nil => exact Nat.le_refl n
  | cons chunk rest ih =>
      rcases Nat.lt_or_ge n enough with hlt | hle
      · rw [stopAt_of_lt hlt]
        exact (Nat.le_add_right n _).trans (ih _)
      · rw [stopAt_of_le hle]

/-- The loop stops with the first chunk that reaches `enough`. -/
theorem stopAt_bounds {enough n : Nat} {chunks : List (List UInt8)} (hn : n < enough)
    (hsizes : ∀ chunk ∈ chunks, chunk.length ≤ 512)
    (henough : enough ≤ n + chunks.flatten.length) :
    enough ≤ stopAt enough n chunks ∧ stopAt enough n chunks ≤ enough + 511
      ∧ stopAt enough n chunks ≤ n + chunks.flatten.length := by
  induction chunks generalizing n with
  | nil => simp at henough; omega
  | cons chunk rest ih =>
      have hchunk := hsizes chunk List.mem_cons_self
      rw [stopAt_of_lt hn]
      rw [List.flatten_cons, List.length_append] at henough ⊢
      rcases Nat.lt_or_ge (n + chunk.length) enough with hlt | hle
      · have hrest := ih hlt (fun c hc => hsizes c (List.mem_cons_of_mem _ hc)) (by omega)
        omega
      · rw [stopAt_of_le hle]
        omega

/-- The bytes one by one. -/
def singles (bytes : List UInt8) : List (List UInt8) := bytes.map fun byte => [byte]

theorem cut_singles (bytes : List UInt8) : Cut bytes (singles bytes) :=
  ⟨by simp [singles, ← List.flatMap_def], by simp [singles]⟩

theorem Cut.append {s t : List UInt8} {c d : List (List UInt8)} (hs : Cut s c) (ht : Cut t d) :
    Cut (s ++ t) (c ++ d) := by
  refine ⟨by rw [List.flatten_append, hs.whole, ht.whole], ?_⟩
  intro chunk hchunk
  rcases List.mem_append.mp hchunk with hc | hd
  · exact hs.sizes chunk hc
  · exact ht.sizes chunk hd

theorem stopAt_singles {enough n : Nat} {bytes : List UInt8} {rest : List (List UInt8)}
    (h : n + bytes.length ≤ enough) :
    stopAt enough n (singles bytes ++ rest) = stopAt enough (n + bytes.length) rest := by
  induction bytes generalizing n with
  | nil => rfl
  | cons byte bytes ih =>
      rw [List.length_cons] at h
      have hlt : n < enough := by omega
      rw [show singles (byte :: bytes) ++ rest = [byte] :: (singles bytes ++ rest) from rfl,
        stopAt_of_lt hlt, ih (by simp only [List.length_singleton]; omega)]
      congr 1
      simp only [List.length_cons, List.length_nil]
      omega

/-- Any end from `enough` on, by at most a chunk, comes from some cut. -/
theorem exists_stopAt {stream : List UInt8} {enough last : Nat} (hpos : 0 < enough)
    (hlow : enough ≤ last) (hhigh : last ≤ enough + 511) (hlast : last ≤ stream.length) :
    ∃ chunks, Cut stream chunks ∧ stopAt enough 0 chunks = last := by
  -- one chunk from the byte before `enough` to `last`, everything else byte by byte
  let head := stream.take (enough - 1)
  let chunk := (stream.drop (enough - 1)).take (last - (enough - 1))
  let tail := stream.drop last
  have hhead : head.length = enough - 1 := by
    simp only [head, List.length_take]
    omega
  have hchunk : chunk.length = last - (enough - 1) := by
    simp only [chunk, List.length_take, List.length_drop]
    omega
  have hwhole : stream = head ++ ([chunk].flatten ++ tail) := by
    have hdrop : chunk ++ tail = stream.drop (enough - 1) := by
      have hsplit := List.take_append_drop (last - (enough - 1)) (stream.drop (enough - 1))
      rwa [List.drop_drop, Nat.add_sub_cancel' (by omega)] at hsplit
    simp only [List.flatten_cons, List.flatten_nil, List.append_nil, hdrop, head,
      List.take_append_drop]
  refine ⟨singles head ++ ([chunk] ++ singles tail), ?_, ?_⟩
  · rw [hwhole]
    refine (cut_singles head).append (Cut.append ⟨rfl, fun c hc => ?_⟩ (cut_singles tail))
    obtain rfl := List.mem_singleton.mp hc
    omega
  · rw [stopAt_singles (by omega), List.singleton_append, stopAt_of_lt (by omega),
      stopAt_of_le (by omega)]
    omega

/-! ## The response -/

theorem length_headerEnd : headerEnd.length = 4 := by decide +kernel

/-- The headers are complete once their end has been received. -/
theorem headerEnd_received {response rest : List UInt8} :
    (find headerEnd response).isSome = true
      ↔ ∃ h, find headerEnd (response ++ rest) = some h ∧ h + 4 ≤ response.length := by
  have htake : (response ++ rest).take response.length = response := List.take_left
  have hinfix := @infix_take_iff _ _ headerEnd (response ++ rest) response.length
  rwa [htake, length_headerEnd, ← find_isSome_iff] at hinfix

theorem receiveResponse_of_done {response : List UInt8} (chunks : List (List UInt8))
    (h : (find headerEnd response).isSome = true) :
    receiveResponse response chunks = some response := by
  cases chunks <;> rw [receiveResponse, if_pos h]

theorem receiveResponse_nil {response : List UInt8} (h : ¬(find headerEnd response).isSome = true) :
    receiveResponse response [] = none := by
  rw [receiveResponse, if_neg h]

theorem receiveResponse_cons {response chunk : List UInt8} {rest : List (List UInt8)}
    (h : ¬(find headerEnd response).isSome = true) :
    receiveResponse response (chunk :: rest)
      = if (response ++ chunk).length > 8192 then none
        else receiveResponse (response ++ chunk) rest := by
  rw [receiveResponse, if_neg h]

/-- The response is what the stream begins with, up to the chunk in which
the headers end. -/
theorem receiveResponse_eq {stream response : List UInt8} {chunks : List (List UInt8)} {h : Nat}
    (hend : find headerEnd stream = some h) (hwhole : response ++ chunks.flatten = stream)
    (hlimit : response.length ≤ 8192) (hlong : h + 4 ≤ stream.length) :
    receiveResponse response chunks
      = if stopAt (h + 4) response.length chunks ≤ 8192
        then some (stream.take (stopAt (h + 4) response.length chunks)) else none := by
  have hdone : ∀ r rest, r ++ rest = stream →
      ((find headerEnd r).isSome = true ↔ h + 4 ≤ r.length) := by
    rintro r rest rfl
    rw [headerEnd_received, hend]
    simp
  induction chunks generalizing response with
  | nil =>
      obtain rfl : response = stream := by simpa using hwhole
      rw [stopAt, if_pos hlimit, List.take_length]
      exact receiveResponse_of_done [] ((hdone response [] hwhole).mpr hlong)
  | cons chunk rest ih =>
      rcases Nat.lt_or_ge response.length (h + 4) with hlt | hle
      · have hopen : ¬(find headerEnd response).isSome = true := by
          rw [hdone response _ hwhole]
          omega
        have hwhole' : response ++ chunk ++ rest.flatten = stream := by
          rw [List.append_assoc, ← List.flatten_cons, hwhole]
        rw [receiveResponse_cons hopen, stopAt_of_lt hlt, ← List.length_append]
        by_cases hover : (response ++ chunk).length > 8192
        · have hstop := le_stopAt (h + 4) (response ++ chunk).length rest
          rw [if_pos hover, if_neg (by omega)]
        · rw [if_neg hover, ih hwhole' (by omega)]
      · rw [stopAt_of_le hle, if_pos hlimit, ← hwhole, List.take_left]
        exact receiveResponse_of_done _ ((hdone response _ hwhole).mpr hle)

/-- Without their end the headers are never complete. -/
theorem receiveResponse_eq_none {stream response : List UInt8} {chunks : List (List UInt8)}
    (hend : find headerEnd stream = none) (hwhole : response ++ chunks.flatten = stream) :
    receiveResponse response chunks = none := by
  have hopen : ∀ r rest, r ++ rest = stream → ¬(find headerEnd r).isSome = true := by
    rintro r rest rfl
    rw [headerEnd_received, hend]
    simp
  induction chunks generalizing response with
  | nil => exact receiveResponse_nil (hopen response _ hwhole)
  | cons chunk rest ih =>
      rw [receiveResponse_cons (hopen response _ hwhole)]
      split
      · rfl
      · exact ih (by rw [List.append_assoc, ← List.flatten_cons, hwhole])

/-! ## The verdict -/

/-- What has been accepted is accepted with more after it. -/
theorem upgrade_mono {stream : List UInt8} {n m : Nat} (h : n ≤ m)
    (hn : isWebSocketUpgradeResponse (stream.take n) = true) :
    isWebSocketUpgradeResponse (stream.take m) = true := by
  have htake : stream.take n <+: stream.take m := List.take_prefix_take_left h
  simp only [isWebSocketUpgradeResponse, ne_eq, ite_not, Bool.if_false_right, Bool.and_eq_true,
    decide_eq_true_eq, find_eq_zero_iff, Bool.or_eq_true, find_isSome_iff] at hn ⊢
  exact ⟨hn.1.trans htake, hn.2.imp (fun h => h.trans htake.isInfix)
    fun h => h.trans htake.isInfix⟩

/-- What the handshake makes of the first `n` bytes of the stream. -/
def verdict (stream : List UInt8) (n : Nat) : Bool :=
  decide (n ≤ 8192) && isWebSocketUpgradeResponse (stream.take n)

/-- The longest response that a cut can lead to, for headers that end at
`n`. -/
def longest (stream : List UInt8) (n : Nat) : Nat := min (n + 511) stream.length

/-- The headers end after 8192 bytes, or never; or they are accepted and
the longest response is within 8192 bytes; or not even the longest one
within 8192 bytes is accepted. -/
def VerdictFixed (stream : List UInt8) : Prop :=
  ∀ h, find headerEnd stream = some h → 8192 < h + 4
    ∨ isWebSocketUpgradeResponse (stream.take (h + 4)) = true ∧ longest stream (h + 4) ≤ 8192
    ∨ isWebSocketUpgradeResponse (stream.take (min (longest stream (h + 4)) 8192)) = false

/-- The result of a cut is the verdict on some response from the end of the
headers up to the longest. -/
theorem handshake_of_cut {stream : List UInt8} {chunks : List (List UInt8)} {h : Nat}
    (hcut : Cut stream chunks) (hend : find headerEnd stream = some h) :
    h + 4 ≤ stopAt (h + 4) 0 chunks ∧ stopAt (h + 4) 0 chunks ≤ longest stream (h + 4)
      ∧ (receiveResponse [] chunks).any isWebSocketUpgradeResponse
        = verdict stream (stopAt (h + 4) 0 chunks) := by
  have hlong : h + 4 ≤ stream.length := by
    obtain ⟨i, hi, hle⟩ := (@headerEnd_received stream []).mp
      (show (find headerEnd stream).isSome = true by rw [hend]; rfl)
    rw [List.append_nil, hend] at hi
    obtain rfl := Option.some.inj hi
    exact hle
  have hflat : stream.length = chunks.flatten.length := by rw [hcut.whole]
  obtain ⟨hlow, hhigh, hlast⟩ := stopAt_bounds (show 0 < h + 4 by omega)
    (fun c hc => (hcut.sizes c hc).2) (by omega)
  refine ⟨hlow, Nat.le_min.mpr ⟨hhigh, by omega⟩, ?_⟩
  rw [receiveResponse_eq hend hcut.whole (Nat.zero_le _) hlong, List.length_nil, verdict]
  split_ifs with hlimit <;> simp [hlimit]

/-- All responses between the two get the same verdict exactly if the
shortest and the longest do. -/
theorem verdict_fixed_iff {stream : List UInt8} {low high : Nat} (hle : low ≤ high) :
    (∀ n m, low ≤ n → n ≤ high → low ≤ m → m ≤ high → verdict stream n = verdict stream m)
      ↔ 8192 < low
        ∨ isWebSocketUpgradeResponse (stream.take low) = true ∧ high ≤ 8192
        ∨ isWebSocketUpgradeResponse (stream.take (min high 8192)) = false := by
  constructor
  · intro hsame
    rcases Nat.lt_or_ge 8192 low with hover | hlimit
    · exact .inl hover
    · by_cases haccepts : isWebSocketUpgradeResponse (stream.take (min high 8192)) = true
      · have hbest : verdict stream (min high 8192) = true := by
          simp [verdict, haccepts]
        have hshort := hsame low (min high 8192) (Nat.le_refl _) hle (by omega) (by omega)
        have hfull := hsame high (min high 8192) hle (Nat.le_refl _) (by omega) (by omega)
        rw [hbest] at hshort hfull
        simp only [verdict, Bool.and_eq_true, decide_eq_true_eq] at hshort hfull
        exact .inr (.inl ⟨hshort.2, hfull.1⟩)
      · exact .inr (.inr (by simpa using haccepts))
  · intro hfixed
    have hconst : ∃ b, ∀ n, low ≤ n → n ≤ high → verdict stream n = b := by
      rcases hfixed with hover | ⟨haccepts, hlimit⟩ | hrejects
      · exact ⟨false, fun n hn _ => by simp [verdict, show ¬n ≤ 8192 by omega]⟩
      · refine ⟨true, ?_⟩
        intro n hn hm
        simp [verdict, upgrade_mono hn haccepts, show n ≤ 8192 by omega]
      · refine ⟨false, ?_⟩
        intro n _ hm
        by_contra hne
        obtain ⟨hsmall, haccepts⟩ : n ≤ 8192
            ∧ isWebSocketUpgradeResponse (stream.take n) = true := by
          simpa [verdict] using hne
        have := upgrade_mono (show n ≤ min high 8192 by omega) haccepts
        simp [hrejects] at this
    obtain ⟨b, hb⟩ := hconst
    exact fun n m hn hn' hm hm' => (hb n hn hn').trans (hb m hm hm').symm

section

variable (platform : Platform) (serverIp : String) (port : Int) (randomBytes : Vector UInt8 16)
  (sends : List Int)

theorem performWebSocketHandshake_eq (chunks : List (List UInt8)) :
    performWebSocketHandshake platform serverIp port randomBytes sends chunks
      = ((sendRaw platform (handshakeRequest serverIp port randomBytes) sends).2
        && (receiveResponse [] chunks).any isWebSocketUpgradeResponse) := by
  unfold performWebSocketHandshake
  cases (sendRaw platform (handshakeRequest serverIp port randomBytes) sends).2 with
  | false => rfl
  | true => cases receiveResponse [] chunks <;> rfl

/-- **The handshake and TCP segmentation.** The handshake returns the same
for any two ways of cutting a stream exactly if the request could not be
sent or the verdict on the stream is fixed. -/
theorem handshake_uncut_iff (stream : List UInt8) :
    (∀ c₁ c₂, Cut stream c₁ → Cut stream c₂ →
      performWebSocketHandshake platform serverIp port randomBytes sends c₁
        = performWebSocketHandshake platform serverIp port randomBytes sends c₂)
      ↔ (sendRaw platform (handshakeRequest serverIp port randomBytes) sends).2 = false
        ∨ VerdictFixed stream := by
  cases hsent : (sendRaw platform (handshakeRequest serverIp port randomBytes) sends).2 with
  | false => exact iff_of_true (by simp [performWebSocketHandshake_eq, hsent]) (.inl rfl)
  | true =>
      simp only [performWebSocketHandshake_eq, hsent, Bool.true_and, Bool.true_eq_false, false_or]
      cases hend : find headerEnd stream with
      | none =>
          refine iff_of_true (fun c₁ c₂ h₁ h₂ => ?_) (by simp [VerdictFixed, hend])
          rw [receiveResponse_eq_none hend h₁.whole, receiveResponse_eq_none hend h₂.whole]
      | some h =>
          have hlong := (handshake_of_cut (cut_singles stream) hend)
          have hle : h + 4 ≤ longest stream (h + 4) := hlong.1.trans hlong.2.1
          have hfixed := @verdict_fixed_iff stream _ _ hle
          simp only [VerdictFixed, hend, Option.some.injEq, forall_eq']
          rw [← hfixed]
          constructor
          · intro hsame n m hn hn' hm hm'
            obtain ⟨hn₁, hn₂⟩ := Nat.le_min.mp hn'
            obtain ⟨hm₁, hm₂⟩ := Nat.le_min.mp hm'
            obtain ⟨c₁, hc₁, rfl⟩ := exists_stopAt (show 0 < h + 4 by omega) hn hn₁ hn₂
            obtain ⟨c₂, hc₂, rfl⟩ := exists_stopAt (show 0 < h + 4 by omega) hm hm₁ hm₂
            rw [← (handshake_of_cut hc₁ hend).2.2, ← (handshake_of_cut hc₂ hend).2.2]
            exact hsame c₁ c₂ hc₁ hc₂
          · intro hsame c₁ c₂ hc₁ hc₂
            obtain ⟨hlow₁, hhigh₁, heq₁⟩ := handshake_of_cut hc₁ hend
            obtain ⟨hlow₂, hhigh₂, heq₂⟩ := handshake_of_cut hc₂ hend
            rw [heq₁, heq₂]
            exact hsame _ _ hlow₁ hhigh₁ hlow₂ hhigh₂

end

/-- A status line, the end of the headers, and the upgrade after it. -/
def upgradeInBody : List (List UInt8) :=
  [bytes "HTTP/1.1 101 OK\r\n\r\n", bytes "Upgrade: websocket"]

/-- The upgrade is not seen in a chunk of its own, and is in the chunk of
the headers. -/
theorem handshake_depends_on_cut :
    ¬ ∀ (platform : Platform) (serverIp : String) (port : Int) (randomBytes : Vector UInt8 16)
      (sends : List Int) (stream : List UInt8) (c₁ c₂ : List (List UInt8)),
      Cut stream c₁ → Cut stream c₂ →
      performWebSocketHandshake platform serverIp port randomBytes sends c₁
        = performWebSocketHandshake platform serverIp port randomBytes sends c₂ := by
  intro h
  have hsame := h .linux "127.0.0.1" 8080 (Vector.replicate 16 0) [1000] upgradeInBody.flatten
    upgradeInBody [upgradeInBody.flatten] ⟨rfl, by decide +kernel⟩ ⟨by simp, by decide +kernel⟩
  revert hsame
  decide +kernel

end CwKeyer
