import DebugHost.Frame

/-! # Reading frames from a stream

The octets of a stream arrive in chunks. A reader keeps what it has read of the frame at hand, so
that it can go on when further chunks arrive; `Reader.next` gives the next message or fault, the
clean end of the stream, or nothing as long as the frame is not complete. After a fault the next
frame starts behind what was read. A chunk is taken over in pieces of at most `capacity` octets. -/

namespace DebugHost.Frame

/-- Most octets that are taken over from a chunk at once. -/
def capacity : Nat := 8 * 1024

/-- What has arrived of a stream and has not been read. -/
structure Source where
  /-- Octets that have been taken over. -/
  buffered : List UInt8 := []
  /-- Chunks that have not. -/
  chunks : List (List UInt8) := []
  /-- Whether nothing more will arrive. -/
  ended : Bool := false

namespace Source

/-- Adds a chunk. -/
def push (s : Source) (chunk : List UInt8) : Source :=
  if chunk.isEmpty then s else { s with chunks := s.chunks ++ [chunk] }

/-- Marks the end of the stream. -/
def finish (s : Source) : Source := { s with ended := true }

/-- A stream that has arrived as a whole. -/
def ofChunks (chunks : List (List UInt8)) : Source :=
  { chunks := chunks.filter fun c => !c.isEmpty, ended := true }

/-- Number of octets that have not been read. -/
def size (s : Source) : Nat := s.chunks.foldl (fun n c => n + c.length) s.buffered.length

/-- Takes over the next piece, of at most `most` octets, if all earlier ones have been read. -/
def fill (s : Source) (most : Nat) : Source :=
  match s.buffered, s.chunks with
  | [], c :: rest =>
    if most < c.length then { s with buffered := c.take most, chunks := c.drop most :: rest }
    else { s with buffered := c, chunks := rest }
  | _, _ => s

end Source

/-- What has been read of a frame. -/
inductive Progress where
  /-- Header lines: whether there was one, the length they told, and the octets of the line at hand,
  last first, with their number. -/
  | header (started : Bool) (length : Option Nat) (line : List UInt8) (count : Nat)
  /-- The body: how many octets are missing, and those that were read, last first. -/
  | body (missing : Nat) (octets : List UInt8)
deriving DecidableEq, Repr

/-- Nothing of a frame has been read. -/
def Progress.start : Progress := .header false none [] 0

/-- A reader of frames. -/
structure Reader where
  source : Source := {}
  progress : Progress := .start

/-- What a reader gives. -/
inductive Outcome where
  | message (m : Message)
  | fault (f : Fault)
  /-- The stream has ended between two frames. -/
  | ended

namespace Reader

/-- The octets up to the first line feed, which is included, and what stands behind; `none` without
a line feed. -/
def splitLine : List UInt8 → Option (List UInt8 × List UInt8)
  | [] => none
  | b :: bs => if b = 10 then some ([b], bs) else (splitLine bs).map fun (a, r) => (b :: a, r)

/-- A reader that starts a new frame with what is left. -/
def restart (s : Source) : Reader := { source := s }

/-- What a complete header line does: it starts the body, adds to the header, or is faulty. -/
def lineDone (s : Source) (length : Option Nat) (line : List UInt8) : Except Fault Reader :=
  match lineText line with
  | .error f => .error f
  | .ok "" =>
    match length with
    | none => .error .lengthMissing
    | some n => .ok { source := s, progress := .body n [] }
  | .ok text =>
    match headerLine text with
    | .error f => .error f
    | .ok told => .ok { source := s, progress := .header true (told.or length) [] 0 }

/-- One step: what the reader gives, if anything, and the reader afterwards; `none` if it has to
wait for a further chunk. -/
def step (r : Reader) : Option (Option Outcome × Reader) :=
  match r.progress with
  | .header started length line count =>
    let s := r.source.fill capacity
    match s.buffered with
    | [] =>
      if s.ended then
        if count = 0 then
          if started then some (some (.fault .endInHeader), restart s)
          else some (some .ended, restart s)
        else
          match lineDone s length line.reverse with
          | .error f => some (some (.fault f), restart s)
          | .ok r => some (none, r)
      else none
    | octets =>
      let (piece, rest, complete) := match splitLine octets with
        | some (a, rest) => (a, rest, true)
        | none => (octets, [], false)
      if maxLine < count + piece.length then some (some (.fault .lineTooLong), restart s)
      else
        let s := { s with buffered := rest }
        let line := piece.reverse ++ line
        if complete then
          match lineDone s length line.reverse with
          | .error f => some (some (.fault f), restart s)
          | .ok r => some (none, r)
        else
          some (none, { source := s, progress := .header started length line (count + piece.length) })
  | .body missing octets =>
    if missing = 0 then
      match decodeBody octets.reverse with
      | .ok m => some (some (.message m), restart r.source)
      | .error f => some (some (.fault f), restart r.source)
    else
      let s := r.source.fill (max capacity missing)
      match s.buffered with
      | [] => if s.ended then some (some (.fault .endInBody), restart s) else none
      | bs =>
        let s := { s with buffered := bs.drop missing }
        let piece := bs.take missing
        some (none, { source := s,
                      progress := .body (missing - piece.length) (piece.reverse ++ octets) })

/-- Steps until the reader gives something or has to wait. -/
def run : Nat → Reader → Option Outcome × Reader
  | 0, r => (none, r)
  | fuel + 1, r =>
    match r.step with
    | none => (none, r)
    | some (some o, r) => (some o, r)
    | some (none, r) => run fuel r

/-- The next message, fault or end, if it has arrived. Every step reads an octet, ends a line or
starts a body, so that the number of steps is bounded by what has arrived. -/
def next (r : Reader) : Option Outcome × Reader := run (2 * r.source.size + 4) r

/-- Adds a chunk to the stream. -/
def push (r : Reader) (chunk : List UInt8) : Reader := { r with source := r.source.push chunk }

/-- Marks the end of the stream. -/
def finish (r : Reader) : Reader := { r with source := r.source.finish }

/-- What successive readings give, up to the first that is no message. -/
def upToFault : Nat → Reader → List Outcome
  | 0, _ => []
  | fuel + 1, r =>
    match r.next with
    | (some (.message m), r) => .message m :: upToFault fuel r
    | (some o, _) => [o]
    | (none, _) => []

/-- What successive readings give when they go on after faults, at most `fuel` of them. -/
def toEnd : Nat → Reader → List Outcome
  | 0, _ => []
  | fuel + 1, r =>
    match r.next with
    | (some .ended, _) => [.ended]
    | (some o, r) => o :: toEnd fuel r
    | (none, _) => []

end Reader
end DebugHost.Frame
