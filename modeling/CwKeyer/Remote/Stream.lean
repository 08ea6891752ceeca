import CwKeyer.Remote.Client
import CwKeyer.Remote.Frame
import CwKeyer.Platform

/-!
# The byte stream of a connection

`sendLine` at the level of bytes: `sendRaw` repeats `send` until the frame
is out, whatever the socket takes each time, and gives up at the first
error. A failed send clears `m_running`, and only a `start`, which opens
another connection, sets it again. So the stream of a connection is a
sequence of complete frames, with at most one cut frame at its end
(`stream_is_lines`).

`Carries` ties the stream to the lines of `RemoteClient`: what is on its
`wire` is what the server reads.
-/

namespace CwKeyer

open WebSocket

/-! ## Sending bytes -/

/-- What `send` returns when it is asked for `requested` bytes: an error,
or how many of them it has taken. -/
def socketSend (requested outcome : Int) : Int :=
  if requested < 0 ∨ outcome < 0 then -1 else min outcome requested

namespace RemoteClient

/-- The length that `sendRaw` passes to `send`; an int on Windows. -/
def requestedBytes (platform : Platform) (remaining : Nat) : Int :=
  match platform with
  | .linux => remaining
  | .windows => toInt remaining

/-- The results of `send` that `sendRaw` takes for an error. -/
def sendFailed (platform : Platform) (sent : Int) : Bool :=
  match platform with
  | .linux => sent ≤ 0
  | .windows => sent = -1 || sent = 0

/-- The loop of `sendRaw` over the outcomes of its sends; past the end of
the list the connection is lost. Returns the bytes written. -/
def sendRaw (platform : Platform) : List UInt8 → List Int → List UInt8 × Bool
  | [], _ => ([], true)
  | _ :: _, [] => ([], false)
  | byte :: bytes, outcome :: outcomes =>
      let sent := socketSend (requestedBytes platform (byte :: bytes).length) outcome
      if sendFailed platform sent then ([], false)
      else
        let (written, ok) := sendRaw platform ((byte :: bytes).drop sent.toNat) outcomes
        ((byte :: bytes).take sent.toNat ++ written, ok)

theorem sendRaw_prefix (platform : Platform) (bytes : List UInt8) (outcomes : List Int) :
    (sendRaw platform bytes outcomes).1 <+: bytes := by
  induction outcomes generalizing bytes with
  | nil => cases bytes <;> simp [sendRaw]
  | cons outcome outcomes ih =>
      cases bytes with
      | nil => simp [sendRaw]
      | cons byte bytes =>
          rw [sendRaw]
          split
          case isTrue => exact List.nil_prefix
          case isFalse =>
            obtain ⟨more, hmore⟩ := ih ((byte :: bytes).drop _)
            refine ⟨more, ?_⟩
            rw [List.append_assoc, hmore, List.take_append_drop]

/-- The loop succeeds exactly if it has written everything. -/
theorem sendRaw_ok (platform : Platform) (bytes : List UInt8) (outcomes : List Int) :
    (sendRaw platform bytes outcomes).2 = true ↔ (sendRaw platform bytes outcomes).1 = bytes := by
  induction outcomes generalizing bytes with
  | nil => cases bytes <;> simp [sendRaw]
  | cons outcome outcomes ih =>
      cases bytes with
      | nil => simp [sendRaw]
      | cons byte bytes =>
          rw [sendRaw]
          split
          case isTrue => simp
          case isFalse =>
            rw [ih]
            dsimp only
            constructor
            · intro hrest
              rw [hrest, List.take_append_drop]
            · intro hall
              refine List.append_cancel_left (hall.trans ?_)
              exact (List.take_append_drop _ _).symm

end RemoteClient

/-! ## A connection -/

/-- A call of `sendLine`: its line, the mask key drawn and the outcomes of
its sends. -/
structure Send where
  line : List UInt8
  maskKey : Vector UInt8 4
  outcomes : List Int
deriving DecidableEq

namespace Send

def frame (s : Send) : List UInt8 := RemoteClient.frame s.line s.maskKey

/-- The bytes that reach the socket, and whether no send failed. -/
def written (platform : Platform) (s : Send) : List UInt8 × Bool :=
  RemoteClient.sendRaw platform s.frame s.outcomes

end Send

/-- What `sendLine` reads and writes: `m_socketFd`, `m_running`, the bytes
written on the connection since its handshake, and those of the
connections before it. -/
structure Connection where
  socketFd : Option Nat := none
  running : Bool := false
  stream : List UInt8 := []
  past : List (List UInt8) := []
deriving DecidableEq

namespace Connection

def sendLine (platform : Platform) (c : Connection) (s : Send) : Connection × Bool :=
  if !c.running || c.socketFd.isNone then (c, false)
  else
    let (written, ok) := s.written platform
    let c := { c with stream := c.stream ++ written }
    if !ok then ({ c with running := false }, false) else (c, true)

/-- `stop`, after what it sends itself. -/
def stop (c : Connection) : Connection := { c with running := false, socketFd := none }

/-- `start`, with the descriptor of a connection that accepts the
handshake. -/
def start (c : Connection) (connected : Option Nat) : Connection :=
  match connected with
  | none => c.stop
  | some fd => { socketFd := some fd, running := true, past := c.past ++ [c.stream] }

/-- The bytes written on the connection with the given number. -/
def streamOf (c : Connection) (n : Nat) : Option (List UInt8) := (c.past ++ [c.stream])[n]?

end Connection

inductive ConnectionAct where
  | sendLine (s : Send)
  | stop
  | start (connected : Option Nat)
deriving DecidableEq

def Connection.step (platform : Platform) (c : Connection) : ConnectionAct → Option Connection
  | .sendLine s => some (c.sendLine platform s).1
  | .stop => some c.stop
  | .start connected => some (c.start connected)

/-- The senders of a client and the thread that starts and stops it. A
`sendLine` holds `m_sendMutex` throughout, so it is one step. -/
def connection (platform : Platform) : Machine Connection ConnectionAct :=
  ⟨Connection.step platform⟩

namespace Connection

variable {platform : Platform} {c t : Connection}

/-- A running connection that has carried the given sends completely. -/
structure Delivered (sends : List Send) (c : Connection) : Prop where
  running : c.running = true
  socketFd : c.socketFd.isSome = true
  stream : c.stream = (sends.map Send.frame).flatten

theorem delivered_start (c : Connection) (fd : Nat) : Delivered [] (c.start (some fd)) :=
  ⟨rfl, rfl, rfl⟩

theorem sendLine_of_running (hrunning : c.running = true) (hfd : c.socketFd.isSome = true)
    (s : Send) : c.sendLine platform s =
      ({ c with
        stream := c.stream ++ (s.written platform).1
        running := (s.written platform).2 }, (s.written platform).2) := by
  have hnone : c.socketFd.isNone = false := by simpa using hfd
  rw [sendLine, hrunning, hnone]
  cases h : (s.written platform).2 <;> simp [h]

/-- A send that does not fail adds its frame. -/
theorem Delivered.sendLine {sends : List Send} (h : Delivered sends c) {s : Send}
    (hok : (s.written platform).2 = true) :
    Delivered (sends ++ [s]) (c.sendLine platform s).1 ∧
      (c.sendLine platform s).1.past = c.past := by
  rw [sendLine_of_running h.running h.socketFd]
  refine ⟨⟨hok, h.socketFd, ?_⟩, rfl⟩
  have hall : (s.written platform).1 = s.frame := (RemoteClient.sendRaw_ok _ _ _).mp hok
  simp [h.stream, hall]

/-- The connection after sends that do not fail. -/
theorem Delivered.run {earlier sends : List Send} (h : Delivered earlier c)
    (hok : ∀ s ∈ sends, (s.written platform).2 = true)
    (hrun : (connection platform).run c (sends.map .sendLine) = some t) :
    Delivered (earlier ++ sends) t ∧ t.past = c.past := by
  induction sends generalizing earlier c with
  | nil =>
      obtain rfl := Option.some.inj hrun
      exact ⟨by simpa using h, rfl⟩
  | cons s sends ih =>
      obtain ⟨c', hstep, hrest⟩ := Machine.run_cons.mp hrun
      obtain rfl := Option.some.inj hstep
      obtain ⟨hsent, hpast⟩ := h.sendLine (hok s (by simp))
      obtain ⟨hall, hpast'⟩ := ih hsent (fun s hs => hok s (by simp [hs])) hrest
      exact ⟨by simpa using hall, hpast'.trans hpast⟩

/-- The connection with number `n` will not be written to: it has been
replaced, or its client does not run. -/
structure Silent (n : Nat) (stream : List UInt8) (c : Connection) : Prop where
  streamOf : c.streamOf n = some stream
  ended : c.running = true → n < c.past.length

/-- The latch: only another connection sets `m_running` again. -/
theorem Silent.step {n : Nat} {stream : List UInt8} {a : ConnectionAct} (h : Silent n stream c)
    (hstep : (connection platform).step c a = some t) : Silent n stream t := by
  cases a with
  | stop =>
      obtain rfl := Option.some.inj hstep
      exact ⟨h.streamOf, fun hrunning => by cases hrunning⟩
  | start connected =>
      obtain rfl := Option.some.inj hstep
      cases connected with
      | none => exact ⟨h.streamOf, fun hrunning => by cases hrunning⟩
      | some fd =>
          have hlt : n < (c.past ++ [c.stream]).length :=
            (List.getElem?_eq_some_iff.mp h.streamOf).1
          refine ⟨?_, fun _ => hlt⟩
          show (c.past ++ [c.stream] ++ [[]])[n]? = some stream
          rw [List.getElem?_append_left hlt]
          exact h.streamOf
  | sendLine s =>
      obtain rfl := Option.some.inj hstep
      by_cases hrunning : c.running = true ∧ c.socketFd.isSome = true
      · have hlt := h.ended hrunning.1
        have hpast : c.past[n]? = some stream := by
          have := h.streamOf
          rwa [Connection.streamOf, List.getElem?_append_left hlt] at this
        rw [sendLine_of_running hrunning.1 hrunning.2]
        refine ⟨?_, fun _ => hlt⟩
        rw [Connection.streamOf, List.getElem?_append_left hlt]
        exact hpast
      · have hrefused : c.sendLine platform s = (c, false) := by
          rw [Connection.sendLine, if_pos]
          cases hr : c.running <;> simp_all
        rw [hrefused]
        exact h

/-- A send that fails cuts its frame and ends the connection. -/
theorem Delivered.cut {sends : List Send} (h : Delivered sends c) {s : Send}
    (hfail : (s.written platform).2 = false) :
    Silent c.past.length ((sends.map Send.frame).flatten ++ (s.written platform).1)
      (c.sendLine platform s).1 := by
  rw [sendLine_of_running h.running h.socketFd]
  refine ⟨?_, ?_⟩
  · simp [streamOf, h.stream]
  · intro hrunning
    simp [hfail] at hrunning

theorem Silent.run {n : Nat} {stream : List UInt8} {acts : List ConnectionAct}
    (h : Silent n stream c) (hrun : (connection platform).run c acts = some t) :
    Silent n stream t := by
  have hreach : (connection platform).Reachable c t := ⟨acts, hrun⟩
  exact hreach.invariant h fun _ _ _ hsilent hstep => hsilent.step hstep

/-- What the server makes of delivered lines and the bytes after them. -/
theorem parse_delivered {sends : List Send} (hsize : ∀ s ∈ sends, s.line.length < 2 ^ 63)
    {cut : List UInt8} (hcut : parseFrame cut = none) :
    parse ((sends.map Send.frame).flatten ++ cut) = (sends.map Send.line, cut) := by
  have hframes : ∀ fl ∈ sends.map (fun s => (s.frame, s.line)), Frames fl.1 fl.2 := by
    intro fl hfl
    obtain ⟨s, hs, rfl⟩ := List.mem_map.mp hfl
    exact frames_frame (hsize s hs) s.maskKey
  simpa [List.map_map, Function.comp_def] using parse_frames hframes hcut

end Connection

/-- The stream of a connection. While no send fails, the server reads the
lines sent, in order, and nothing is left over. After a send that fails it
reads the lines before that one; the bytes left over are a cut of its
frame, and whatever the senders and `start` and `stop` do then, no byte is
added to this connection. -/
theorem stream_is_lines (platform : Platform) (c : Connection) (fd : Nat) (sends : List Send)
    (hsize : ∀ s ∈ sends, s.line.length < 2 ^ 63)
    (hok : ∀ s ∈ sends, (s.written platform).2 = true) :
    (∀ t, (connection platform).run (c.start (some fd)) (sends.map .sendLine) = some t →
      parse t.stream = (sends.map Send.line, [])) ∧
    ∀ failing : Send, (failing.written platform).2 = false → failing.line.length < 2 ^ 63 →
      ∃ cut, cut <+: failing.frame ∧ cut ≠ failing.frame ∧
        parse ((sends.map Send.frame).flatten ++ cut) = (sends.map Send.line, cut) ∧
        ∀ after t, (connection platform).run (c.start (some fd))
            (sends.map .sendLine ++ .sendLine failing :: after) = some t →
          t.streamOf (c.past.length + 1) = some ((sends.map Send.frame).flatten ++ cut) := by
  have hstart := c.delivered_start fd
  have hpast : (c.start (some fd)).past.length = c.past.length + 1 := by
    simp [Connection.start]
  refine ⟨?_, ?_⟩
  · intro t hrun
    have hstream := (hstart.run hok hrun).1.stream
    have hparse := Connection.parse_delivered hsize (show parseFrame [] = none from rfl)
    simpa [hstream] using hparse
  · intro failing hfail hfailing
    have hne : (failing.written platform).1 ≠ failing.frame := by
      intro hall
      have := (RemoteClient.sendRaw_ok platform _ failing.outcomes).mpr hall
      exact absurd (this.symm.trans hfail) (by decide)
    have hcut := RemoteClient.sendRaw_prefix platform failing.frame failing.outcomes
    refine ⟨_, hcut, hne, ?_, ?_⟩
    · exact Connection.parse_delivered hsize
        (parseFrame_cut (frames_frame hfailing failing.maskKey) hcut hne)
    · intro after t hrun
      obtain ⟨u, hsent, hrest⟩ := Machine.run_append.mp hrun
      obtain ⟨v, hstep, hafter⟩ := Machine.run_cons.mp hrest
      obtain rfl := Option.some.inj hstep
      obtain ⟨hdelivered, hu⟩ := hstart.run hok hsent
      have hsilent := (hdelivered.cut hfail).run hafter
      rw [hu, hpast] at hsilent
      exact hsilent.streamOf

/-- A line of one byte that the socket takes in two parts. -/
def shortWrites : Send := ⟨[0x61], #v[1, 2, 3, 4], [3, 4]⟩

def oneWrite : Send := ⟨[0x62, 0x63], #v[5, 6, 7, 8], [8]⟩

/-- Five bytes of the frame are out when the connection breaks. -/
def brokenOff : Send := ⟨[0x64], #v[9, 9, 9, 9], [2, 3, -1]⟩

theorem stream_is_lines_shortWrites :
    (∃ t, (connection .linux).run (({} : Connection).start (some 3))
        [.sendLine shortWrites, .sendLine oneWrite] = some t
      ∧ parse t.stream = ([shortWrites.line, oneWrite.line], []))
      ∧ ∃ (cut : List UInt8) (t : Connection), cut ≠ brokenOff.frame
        ∧ (connection .linux).run (({} : Connection).start (some 3))
          [.sendLine shortWrites, .sendLine oneWrite, .sendLine brokenOff, .sendLine oneWrite]
            = some t
        ∧ t.streamOf 1 = some (shortWrites.frame ++ oneWrite.frame ++ cut)
        ∧ parse (shortWrites.frame ++ oneWrite.frame ++ cut)
          = ([shortWrites.line, oneWrite.line], cut) := by
  obtain ⟨hlines, hcut⟩ := stream_is_lines .linux {} 3 [shortWrites, oneWrite] (by decide)
    (by decide)
  obtain ⟨cut, -, hne, hparse, hafter⟩ := hcut brokenOff (by decide) (by decide)
  refine ⟨⟨_, rfl, hlines _ rfl⟩, cut, _, hne, rfl, ?_, by simpa using hparse⟩
  simpa using hafter [.sendLine oneWrite] _ rfl

/-! ## The lines of `RemoteClient` -/

def Line.bytes (line : Line) : List UInt8 := line.text.toUTF8.toList

/-- The connection of a client: its complete frames are those of the lines
on the client's wire, and while it runs there is nothing else. -/
structure Carries (c : RemoteClient) (x : Connection) : Prop where
  running : x.running = c.running
  socketFd : x.socketFd = c.socketFd
  stream : ∃ (sends : List Send) (cut : List UInt8), sends.map Send.line = c.wire.map Line.bytes ∧
    x.stream = (sends.map Send.frame).flatten ++ cut ∧ (x.running = true → cut = [])

/-- `sendLine` on lines is `sendLine` on bytes, with the outcome of the
whole frame. -/
theorem Carries.sendLine {c : RemoteClient} {x : Connection} (h : Carries c x)
    (platform : Platform) {s : Send} {line : Line} (hline : s.line = line.bytes) :
    Carries (c.sendLine line (s.written platform).2).1 (x.sendLine platform s).1 ∧
      (c.sendLine line (s.written platform).2).2 = (x.sendLine platform s).2 := by
  by_cases hrunning : x.running = true ∧ x.socketFd.isSome = true
  · obtain ⟨sends, cut, hsends, hstream, hcut⟩ := h.stream
    obtain rfl := hcut hrunning.1
    have hguard : (!c.running || c.socketFd.isNone) = false := by
      rw [← h.running, ← h.socketFd]
      simp [hrunning]
    rw [Connection.sendLine_of_running hrunning.1 hrunning.2, RemoteClient.sendLine, hguard]
    cases hok : (s.written platform).2 with
    | true =>
        have hall : (s.written platform).1 = s.frame := (RemoteClient.sendRaw_ok _ _ _).mp hok
        refine ⟨⟨?_, h.socketFd, sends ++ [s], [], ?_, ?_, fun _ => rfl⟩, rfl⟩
        · exact (hrunning.1.symm.trans h.running)
        · simp [hsends, hline]
        · simp [hstream, hall]
    | false =>
        refine ⟨⟨rfl, h.socketFd, sends, (s.written platform).1, hsends, ?_, ?_⟩, rfl⟩
        · simp [hstream]
        · intro hfalse
          cases hfalse
  · have hrefused : x.sendLine platform s = (x, false) := by
      rw [Connection.sendLine, if_pos]
      cases hr : x.running <;> simp_all
    have hguard : (!c.running || c.socketFd.isNone) = true := by
      rw [← h.running, ← h.socketFd]
      cases hr : x.running <;> simp_all
    rw [hrefused, RemoteClient.sendLine, hguard]
    exact ⟨h, rfl⟩

end CwKeyer
