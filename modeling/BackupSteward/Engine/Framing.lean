import BackupSteward.Failure.Basic
import BackupSteward.Text.Utf8

/-!
# Lines of a pipe

Cutting the bytes of a pipe into lines.  A line ends at a line feed; what follows the last one
is a line too, unless it is empty.  Lines longer than a limit are dropped: one that is complete
as a whole, and of one that is not complete all that has arrived, so that its rest counts as a
line of its own.
-/

namespace BackupSteward.Engine

open BackupSteward.Text (Bytes)

/-- The longest line that is read, in bytes. -/
def lineLimit : Nat := 4 * 1024 * 1024

/-- What comes out of a pipe. -/
inductive Frame where
  | line (text : String)
  /-- A line beyond the limit was dropped. -/
  | tooLong
  /-- Reading failed. -/
  | failed (error : SystemError)
  /-- Nothing follows. -/
  | finished

namespace Framing

/-- The end of a line. -/
def newline : UInt8 := 10

/-- The characters that may end a line. -/
def isLineEnd (c : Char) : Bool := c = '\r' || c = '\n'

/-- The text of a line: its bytes read with replacement, without line ends behind it. -/
def lineText (bytes : Bytes) : String :=
  String.ofList (((Text.decodeLossy bytes).toList.reverse.dropWhile isLineEnd).reverse)

/-- A complete line. -/
def complete (limit : Nat) (bytes : Bytes) : Frame :=
  if limit < bytes.length then .tooLong else .line (lineText bytes)

/-- Cuts bytes into complete lines and the bytes behind the last one; `line` holds the bytes
of the current line, last first.  Beyond the limit those behind the last line are dropped. -/
def cutFrom (limit : Nat) (line : Bytes) : Bytes → List Frame × Bytes
  | [] => if limit < line.length then ([.tooLong], []) else ([], line.reverse)
  | b :: bs =>
    if b = newline then
      let (frames, rest) := cutFrom limit [] bs
      (complete limit line.reverse :: frames, rest)
    else cutFrom limit (b :: line) bs

/-- The complete lines in some bytes, and the bytes behind them. -/
def cut (limit : Nat) (bytes : Bytes) : List Frame × Bytes := cutFrom limit [] bytes

end Framing

/-- The reading end of a pipe. -/
structure LineReader where
  /-- The bytes behind the last complete line. -/
  rest : Bytes
  /-- Whether more may come. -/
  isOpen : Bool

namespace LineReader

/-- Nothing has arrived. -/
def start : LineReader := ⟨[], true⟩

/-- Bytes arrive. -/
def feed (limit : Nat) (r : LineReader) (chunk : Bytes) : LineReader × List Frame :=
  if r.isOpen then
    let (frames, rest) := Framing.cut limit (r.rest ++ chunk)
    (⟨rest, true⟩, frames)
  else (r, [])

/-- The pipe ends. -/
def close (r : LineReader) : LineReader × List Frame :=
  if r.isOpen then
    (⟨[], false⟩,
      if r.rest.isEmpty then [.finished] else [.line (Framing.lineText r.rest), .finished])
  else (r, [])

/-- Reading fails.  What has arrived behind the last line is lost. -/
def fail (r : LineReader) (error : SystemError) : LineReader × List Frame :=
  if r.isOpen then (⟨[], false⟩, [.failed error, .finished]) else (r, [])

end LineReader

end BackupSteward.Engine
