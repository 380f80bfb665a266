/-
# Text that is read piece by piece

A large file is not read at once: its bytes are fetched in chunks, and the text is handed out in
pieces of a fixed number of characters. A fault in the bytes shows only when the chunk that holds it
is fetched, and its position is counted from the start of that chunk, or from the start of the
character that the chunk before it cut off.
-/

import SourceAtlas.Text.Basic
import SourceAtlas.Text.Utf8

namespace SourceAtlas.Text

/-- The least number of bytes in a chunk, but for the last one. -/
def chunkSize : Nat := 8192

/-- The number of characters in a piece, but for the last one. -/
def pieceSize : Nat := 4096

/-- Where the reading of a file is. -/
structure PieceReader where
  /-- The bytes that are not fetched yet. -/
  bytes : List UInt8
  /-- The bytes of a character that the last chunk cut off. -/
  held : List UInt8 := []
  /-- Whether the last chunk ended in a carriage return, which a line feed may follow. -/
  afterReturn : Bool := false
  /-- The characters that are fetched and not handed out yet. -/
  ready : List Char := []
  /-- How many bytes and characters the last chunk had. -/
  density : Nat × Nat := (0, 0)
  /-- Whether the end of the file is reached. -/
  ended : Bool := false

namespace PieceReader

/-- How many bytes to fetch for a number of characters that are wanted. A text with long characters
needs more of them. -/
def fetchSize (r : PieceReader) (wanted : Nat) : Nat :=
  max chunkSize (r.density.1 * wanted / r.density.2)

/-- The characters of a chunk with the line ends made uniform, and whether a carriage return at its
end is left for the next chunk. -/
def settleLines (r : PieceReader) (chars : List Char) (last : Bool) : List Char × Bool :=
  let all := if r.afterReturn && (last || !chars.isEmpty) then '\r' :: chars else chars
  let waits := r.afterReturn && !last && chars.isEmpty
  if !last && all.getLast? == some '\r' then (uniformLines all.dropLast, true)
  else (uniformLines all, waits)

/-- Fetches the next chunk. -/
def fetch (r : PieceReader) (wanted : Nat) : Except Utf8Fault PieceReader := do
  let chunk := r.bytes.take (r.fetchSize wanted)
  let last := chunk.isEmpty
  let (chars, held) ←
    if last then do pure (← decodeUtf8 r.held, []) else decodeUtf8Start (r.held ++ chunk)
  let (chars, afterReturn) := r.settleLines chars last
  return {
    bytes := r.bytes.drop chunk.length
    held
    afterReturn
    ready := r.ready ++ chars
    density := (if chars.isEmpty then (0, 0) else (chunk.length, chars.length))
    ended := last && chars.isEmpty }

/-- Fetches chunks until a piece is ready or the file ends. -/
def fill : Nat → PieceReader → Except Utf8Fault PieceReader
  | 0, r => .ok r
  | fuel + 1, r =>
    if r.ready.length < pieceSize && !r.ended then do
      let next ← r.fetch (pieceSize - r.ready.length)
      fill fuel next
    else .ok r

/-- The pieces of a file from here on; the fault, if there is one, comes after the last of them. -/
def pieces : Nat → PieceReader → List (List Char) × Option Utf8Fault
  | 0, _ => ([], none)
  | fuel + 1, r =>
    match r.fill (r.bytes.length + 3) with
    | .error fault => ([], some fault)
    | .ok r =>
      if r.ready.isEmpty then ([], none)
      else
        let (more, fault) := pieces fuel
          { r with ready := r.ready.drop pieceSize, ended := false }
        (r.ready.take pieceSize :: more, fault)

end PieceReader

/-- The pieces of the text of a file, and the fault that stands after them. -/
def textPieces (bytes : List UInt8) : List (List Char) × Option Utf8Fault :=
  PieceReader.pieces (bytes.length + 2) { bytes }

end SourceAtlas.Text
