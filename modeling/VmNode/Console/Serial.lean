import VmNode.Console.Hub
import VmNode.Text.Utf8

/-!
# Serial output

What a machine writes on its serial console comes in chunk by chunk. It is cut
into pieces: a piece ends behind a line feed, after `maxPiece` bytes, or with the
output. Every piece is a line of the console, without the line feeds and carriage
returns at its end.

* Reading a piece loses nothing (`flatten_readPiece`): the piece and what is left
  are what was there.
-/

namespace VmNode.Console.Serial

/-- The most bytes of a piece. -/
def maxPiece : Nat := 64 * 1024

/-- The byte that ends a line. -/
def lineFeed : UInt8 := 0x0a

/-- The byte that may stand before a line feed. -/
def carriageReturn : UInt8 := 0x0d

/-- The start of a chunk up to and with a line feed, at most so many bytes, and
    what is left of the chunk. -/
def cutChunk : Nat → List UInt8 → List UInt8 × List UInt8
  | _, [] => ([], [])
  | 0, chunk => ([], chunk)
  | limit + 1, b :: chunk =>
    if b = lineFeed then ([b], chunk)
    else
      let (piece, left) := cutChunk limit chunk
      (b :: piece, left)

/-- Reads a piece of at most so many bytes from the chunks: the piece and what is
    left. A piece goes on in the next chunk if it has not ended. -/
def readPiece : Nat → List (List UInt8) → List UInt8 × List (List UInt8)
  | _, [] => ([], [])
  | limit, chunk :: chunks =>
    let (piece, left) := cutChunk limit chunk
    if piece.getLast? = some lineFeed ∨ limit ≤ piece.length then (piece, left :: chunks)
    else
      -- the chunk is used up, and the line goes on
      let (more, rest) := readPiece (limit - piece.length) chunks
      (piece ++ more, left :: rest)

theorem append_cutChunk (limit : Nat) (chunk : List UInt8) :
    (cutChunk limit chunk).1 ++ (cutChunk limit chunk).2 = chunk := by
  fun_induction cutChunk limit chunk with
  | case1 => rfl
  | case2 => rfl
  | case3 => simp
  | case4 limit b chunk h piece left heq ih => simpa [heq] using ih

/-- A chunk in which no piece ended is used up. -/
theorem cutChunk_left_eq_nil {limit : Nat} {chunk : List UInt8}
    (hfeed : (cutChunk limit chunk).1.getLast? ≠ some lineFeed)
    (hlen : (cutChunk limit chunk).1.length < limit) : (cutChunk limit chunk).2 = [] := by
  fun_induction cutChunk limit chunk with
  | case1 => rfl
  | case2 => simp at hlen
  | case3 limit chunk => simp at hfeed
  | case4 limit b chunk h piece left heq ih =>
    rw [heq] at ih
    refine ih ?_ (by simpa using hlen)
    intro hl
    apply hfeed
    cases piece with
    | nil => simp at hl
    | cons c piece => simpa [List.getLast?_cons_cons] using hl

theorem flatten_readPiece (limit : Nat) (chunks : List (List UInt8)) :
    (readPiece limit chunks).1 ++ (readPiece limit chunks).2.flatten = chunks.flatten := by
  fun_induction readPiece limit chunks with
  | case1 => rfl
  | case2 limit chunk chunks piece left heq h =>
    have := append_cutChunk limit chunk
    rw [heq] at this
    simp [← this, List.append_assoc]
  | case3 limit chunk chunks piece left heq h more rest hrest ih =>
    have := append_cutChunk limit chunk
    have hleft := @cutChunk_left_eq_nil limit chunk
    rw [heq] at this hleft
    rw [hrest] at ih
    simp only [not_or, Nat.not_le] at h
    obtain rfl : left = [] := hleft h.1 h.2
    simp [← this, ← ih]

/-- The pieces of all chunks, in order. -/
def pieces (chunks : List (List UInt8)) : List (List UInt8) :=
  match _h : readPiece maxPiece chunks with
  | ([], _) => []
  | (b :: piece, rest) => (b :: piece) :: pieces rest
termination_by chunks.flatten.length
decreasing_by
  have := congrArg List.length (flatten_readPiece maxPiece chunks)
  rw [_h] at this
  simp only [List.length_append, List.length_cons] at this
  omega

/-- The line of a piece. Bytes that are no text are replaced. -/
def lineOf (piece : List UInt8) : String :=
  Text.Utf8.lossy (piece.reverse.dropWhile fun b => b = lineFeed || b = carriageReturn).reverse

/-- The lines of all chunks. -/
def lines (chunks : List (List UInt8)) : List String := (pieces chunks).map lineOf

/-- Writes all that comes in to a console, each piece at the time `now`. -/
def pump (now : Int64) (h : Hub) (w : Writer) (chunks : List (List UInt8)) : Hub :=
  (lines chunks).foldl (fun h line => h.pushLine now w line) h

end VmNode.Console.Serial
