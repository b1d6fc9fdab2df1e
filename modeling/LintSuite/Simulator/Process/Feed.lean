/-!
# What is printed and what is read

What processes print arrives as *chunks*, each at a time and on behalf of a job.  A channel keeps
the chunks that went to it; its content is what they hold in the order of their times, and what came
at one time stays in the order in which it was printed (`joined`).

A *feed* is the other end: chunks that wait to be read, and the time when it is known that no more
will come.  Whoever reads a feed waits until what he reads has come.  A feed is endless if more
would follow than anything can read.
-/

namespace LintSuite

/-- Bytes that arrive together. -/
structure Chunk where
  /-- When they arrive, in microseconds. -/
  time : Nat
  /-- The job on whose behalf they were printed, or zero. -/
  job : Nat
  /-- The bytes. -/
  bytes : List UInt8
  deriving DecidableEq, Repr

namespace Chunk

/-- Chunks in the order of their times, from chunks with the latest printed first. -/
def inOrder (chunks : List Chunk) : List Chunk :=
  chunks.reverse.mergeSort fun a b => a.time ≤ b.time

/-- **What some chunks hold**, the latest printed first. -/
def joined (chunks : List Chunk) : List UInt8 :=
  (inOrder chunks).flatMap (·.bytes)

@[simp] theorem joined_nil : joined [] = [] := by simp [joined, inOrder]

/-- The time of the latest of some chunks, or another time if that is later. -/
def latest (time : Nat) (chunks : List Chunk) : Nat :=
  chunks.foldl (fun t c => max t c.time) time

end Chunk

/-- **What there is to read.** -/
structure Feed where
  /-- What arrives, in order. -/
  chunks : List Chunk := []
  /-- When it is known that no more arrives. -/
  closed : Nat := 0
  /-- Whether more follows than anything can read. -/
  endless : Bool := false
  /-- Whether it lies still, so that a program takes from it just what it needs.  From any other
  feed a program takes all that has come by the time when it has enough. -/
  still : Bool := false

namespace Feed

/-- A feed of bytes that are there from the start. -/
def ofBytes (bytes : List UInt8) (still : Bool) : Feed :=
  { chunks := if bytes.isEmpty then [] else [⟨0, 0, bytes⟩], still }

/-- All bytes of a feed. -/
def bytes (f : Feed) : List UInt8 := f.chunks.flatMap (·.bytes)

@[simp] theorem bytes_ofBytes (bytes : List UInt8) (still : Bool) :
    (ofBytes bytes still).bytes = bytes := by
  cases bytes <;> simp [ofBytes, Feed.bytes]

/-- What a look at a feed gives. -/
structure Portion where
  /-- The bytes that are read. -/
  bytes : List UInt8
  /-- Whether the end of the feed was met. -/
  ended : Bool
  /-- When the last of them has come. -/
  time : Nat
  /-- The chunks that are left. -/
  rest : List Chunk

/-- A chunk in front of others, unless it holds nothing. -/
def behind (c : Chunk) (bytes : List UInt8) (rest : List Chunk) : List Chunk :=
  if bytes.isEmpty then rest else { c with bytes } :: rest

/-- A number of bytes from some chunks, and those that were read before, the latest first. -/
def takeBytesFrom (before : List UInt8) (time : Nat) : Nat → List Chunk → Portion
  | 0, chunks => ⟨before.reverse, false, time, chunks⟩
  | _ + 1, [] => ⟨before.reverse, true, time, []⟩
  | n + 1, c :: rest =>
    let taken := c.bytes.take (n + 1)
    if taken.length < n + 1 then
      takeBytesFrom (taken.reverse ++ before) (max time c.time) (n + 1 - taken.length) rest
    else
      ⟨(taken.reverse ++ before).reverse, false, max time c.time,
        behind c (c.bytes.drop (n + 1)) rest⟩

/-- Some bytes up to a number of line feeds, the latest first, behind those that were taken before;
how many line feeds lack; and the bytes behind. -/
def countLines : Nat → List UInt8 → List UInt8 → List UInt8 × Nat × List UInt8
  | 0, before, bytes => (before, 0, bytes)
  | n + 1, before, [] => (before, n + 1, [])
  | n + 1, before, b :: bytes => countLines (if b = 10 then n else n + 1) (b :: before) bytes

/-- A number of lines from some chunks, with their line feeds, and those that were read before, the
latest byte first. -/
def takeLinesFrom (before : List UInt8) (time : Nat) : Nat → List Chunk → Portion
  | 0, chunks => ⟨before.reverse, false, time, chunks⟩
  | _ + 1, [] => ⟨before.reverse, true, time, []⟩
  | n + 1, c :: rest =>
    match countLines (n + 1) before c.bytes with
    | (before, 0, left) => ⟨before.reverse, false, max time c.time, behind c left rest⟩
    | (before, lacking, _) => takeLinesFrom before (max time c.time) lacking rest

/-- A line from some chunks, without its line feed, and what was read before, the latest first. -/
def takeLineFrom (before : List UInt8) (time : Nat) : List Chunk → Portion
  | [] => ⟨before.reverse, true, time, []⟩
  | c :: rest =>
    let line := c.bytes.takeWhile (· != 10)
    match c.bytes.drop line.length with
    | [] => takeLineFrom (line.reverse ++ before) (max time c.time) rest
    | _ :: more => ⟨(line.reverse ++ before).reverse, false, max time c.time, behind c more rest⟩

/-- All the bytes of a feed, for which its end must have come. -/
def takeAll (f : Feed) : Portion := ⟨f.bytes, true, f.closed, []⟩

/-- A portion as a program takes it from a feed. -/
def asProgram (f : Feed) (portion : Portion) : Portion :=
  if f.still then portion
  else { portion with rest := portion.rest.filter (portion.time < ·.time) }

/-- A number of bytes of a feed. -/
def takeBytes (n : Nat) (f : Feed) : Portion := f.asProgram (takeBytesFrom [] 0 n f.chunks)

/-- A number of bytes of a feed, of which nothing else is taken. -/
def takeOnly (n : Nat) (f : Feed) : Portion := takeBytesFrom [] 0 n f.chunks

/-- A number of lines of a feed, with their line feeds. -/
def takeLines (n : Nat) (f : Feed) : Portion := f.asProgram (takeLinesFrom [] 0 n f.chunks)

/-- A line of a feed, without its line feed. -/
def takeLine (f : Feed) : Portion := takeLineFrom [] 0 f.chunks

end Feed

end LintSuite
