import Mathlib.Data.List.Basic
import Mathlib.Data.List.DropRight
import VmNode.Console.Serial
import VmNode.Proofs.Text.Lossy

/-!
# Lines of the serial console

The serial output of a guest comes in chunks, and each piece of it, up to a line feed or of the
greatest length, is read as a line.

* It makes no difference how the output comes in: a piece is what is cut from all of it
  (`readPiece_eq`), and so the pieces are the same for all chunks that make up the same stream
  (`pieces_congr`).
* A line gives a record for each piece that it fills and one for the rest of it, whatever follows
  (`records_line`); a line that the stream breaks off in gives one for each piece that it begins
  (`records_last`).
* What comes behind a line feed begins a line of its own (`records_append`).

`linewise` puts this together: the stream is written to the console line by line
(`Linewise.stream`), and the pieces of a line are all of it (`Linewise.covered`).
-/

namespace VmNode.Console.Serial

variable {limit : Nat} {chunk line a b : List UInt8} {chunks : List (List UInt8)}

/-! ### Pieces -/

/-- Bytes without a line feed that fit into a piece are the start of one. -/
theorem cutChunk_append (hfeed : lineFeed ∉ line) (hlimit : line.length ≤ limit)
    (rest : List UInt8) : cutChunk limit (line ++ rest) =
      (line ++ (cutChunk (limit - line.length) rest).1,
        (cutChunk (limit - line.length) rest).2) := by
  induction line generalizing limit with
  | nil => rfl
  | cons b line ih =>
    obtain ⟨hb, hline⟩ := not_or.1 (List.mem_cons.not.1 hfeed)
    obtain ⟨limit, rfl⟩ : ∃ n, limit = n + 1 := Nat.exists_eq_add_one.2 (by
      rw [List.length_cons] at hlimit
      omega)
    rw [List.cons_append, cutChunk, if_neg (Ne.symm hb),
      ih hline (by simpa using hlimit), List.length_cons, Nat.add_sub_add_right]
    rfl

@[simp] theorem cutChunk_nil (limit : Nat) : cutChunk limit [] = ([], []) := by
  cases limit <;> rfl

/-- A chunk without a line feed that is short enough is taken as a whole. -/
theorem cutChunk_of_notMem (hfeed : lineFeed ∉ line) (hlimit : line.length ≤ limit) :
    cutChunk limit line = (line, []) := by
  simpa using cutChunk_append hfeed hlimit []

/-- A piece that has not ended is all of its chunk. -/
theorem notMem_of_cutChunk (hfeed : (cutChunk limit chunk).1.getLast? ≠ some lineFeed)
    (hlen : (cutChunk limit chunk).1.length < limit) :
    lineFeed ∉ chunk ∧ chunk.length < limit := by
  fun_induction cutChunk limit chunk with
  | case1 => exact ⟨List.not_mem_nil, by simpa using hlen⟩
  | case2 => simp at hlen
  | case3 => simp at hfeed
  | case4 limit b chunk hb piece left heq ih =>
    rw [heq] at ih
    obtain ⟨hchunk, hshort⟩ := ih (fun hlast => hfeed (by simp [List.getLast?_cons, hlast]))
      (by simpa using hlen)
    exact ⟨List.not_mem_cons_of_ne_of_not_mem (Ne.symm hb) hchunk, by simpa using hshort⟩

/-- A piece that has ended is the same whatever comes behind its chunk. -/
theorem cutChunk_append_of_ended (more : List UInt8)
    (h : (cutChunk limit chunk).1.getLast? = some lineFeed ∨
      limit ≤ (cutChunk limit chunk).1.length) :
    cutChunk limit (chunk ++ more) =
      ((cutChunk limit chunk).1, (cutChunk limit chunk).2 ++ more) := by
  fun_induction cutChunk limit chunk with
  | case1 limit =>
    obtain rfl : limit = 0 := by simpa using h
    cases more <;> rfl
  | case2 chunk hchunk =>
    cases chunk with
    | nil => exact absurd rfl hchunk
    | cons b chunk => rfl
  | case3 => rw [List.cons_append, cutChunk, if_pos rfl]
  | case4 limit b chunk hb piece left heq ih =>
    rw [heq] at ih
    have hended : piece.getLast? = some lineFeed ∨ limit ≤ piece.length := by
      refine h.imp (fun hlast => ?_) (by simp)
      cases piece with
      | nil => exact absurd (Option.some.inj hlast) hb
      | cons c piece => simpa [List.getLast?_cons_cons] using hlast
    rw [List.cons_append, cutChunk, if_neg hb, ih hended]

/-- However a stream comes in, the piece read from it is the same, and so is what is left. -/
theorem readPiece_eq (limit : Nat) (chunks : List (List UInt8)) :
    (readPiece limit chunks).1 = (cutChunk limit chunks.flatten).1 ∧
      (readPiece limit chunks).2.flatten = (cutChunk limit chunks.flatten).2 := by
  fun_induction readPiece limit chunks with
  | case1 limit => cases limit <;> exact ⟨rfl, rfl⟩
  | case2 limit chunk chunks piece left heq h =>
    have hended : (cutChunk limit chunk).1.getLast? = some lineFeed ∨
        limit ≤ (cutChunk limit chunk).1.length := heq ▸ h
    rw [List.flatten_cons, cutChunk_append_of_ended _ hended, heq]
    exact ⟨rfl, List.flatten_cons⟩
  | case3 limit chunk chunks piece left heq h more rest hrest ih =>
    obtain ⟨hlast, hlen⟩ := not_or.1 h
    obtain ⟨hfeed, hshort⟩ : lineFeed ∉ chunk ∧ chunk.length < limit :=
      notMem_of_cutChunk (by rw [heq]; exact hlast) (by rw [heq]; exact Nat.not_le.1 hlen)
    rw [cutChunk_of_notMem hfeed hshort.le, Prod.mk.injEq] at heq
    obtain ⟨rfl, rfl⟩ := heq
    rw [hrest] at ih
    rw [List.flatten_cons, cutChunk_append hfeed hshort.le, ← ih.1, ← ih.2]
    exact ⟨rfl, List.flatten_cons⟩

/-! ### Streams -/

/-- Nothing is left to read, so there are no more pieces. -/
theorem pieces_eq_nil (h : (readPiece maxPiece chunks).1 = []) : pieces chunks = [] := by
  rw [pieces]
  split
  · rfl
  · rename_i b piece rest heq
    rw [heq] at h
    cases h

/-- A piece that was read is the first, and reading goes on with the rest. -/
theorem pieces_eq_cons (h : (readPiece maxPiece chunks).1 ≠ []) :
    pieces chunks = (readPiece maxPiece chunks).1 :: pieces (readPiece maxPiece chunks).2 := by
  conv => lhs; rw [pieces]
  split
  · rename_i heq
    rw [heq] at h
    exact absurd rfl h
  · rename_i b piece rest heq
    rw [heq]

/-- However a stream comes in, its pieces are the same. -/
theorem pieces_congr {chunks chunks' : List (List UInt8)} (h : chunks.flatten = chunks'.flatten) :
    pieces chunks = pieces chunks' := by
  have hpiece : (readPiece maxPiece chunks).1 = (readPiece maxPiece chunks').1 := by
    rw [(readPiece_eq maxPiece chunks).1, (readPiece_eq maxPiece chunks').1, h]
  have hleft : (readPiece maxPiece chunks).2.flatten = (readPiece maxPiece chunks').2.flatten := by
    rw [(readPiece_eq maxPiece chunks).2, (readPiece_eq maxPiece chunks').2, h]
  by_cases hnil : (readPiece maxPiece chunks).1 = []
  · rw [pieces_eq_nil hnil, pieces_eq_nil (hpiece ▸ hnil)]
  · have hne : (readPiece maxPiece chunks').1 ≠ [] := hpiece ▸ hnil
    rw [pieces_eq_cons hnil, pieces_eq_cons hne, hpiece, pieces_congr hleft]
termination_by chunks.flatten.length
decreasing_by
  have := congrArg List.length (flatten_readPiece maxPiece chunks)
  have := List.length_pos_iff.2 hnil
  rw [List.length_append] at *
  omega

theorem maxPiece_pos : 0 < maxPiece := by decide

theorem pieces_nil : pieces [[]] = [] := pieces_eq_nil (by rw [(readPiece_eq ..).1]; rfl)

/-- A stream goes on behind its first piece. -/
theorem pieces_stream {stream : List UInt8} (h : stream ≠ []) :
    pieces [stream] =
      (cutChunk maxPiece stream).1 :: pieces [(cutChunk maxPiece stream).2] := by
  obtain ⟨hpiece, hleft⟩ := readPiece_eq maxPiece [stream]
  rw [List.flatten_singleton] at hpiece hleft
  have hne : (cutChunk maxPiece stream).1 ≠ [] := by
    obtain ⟨n, hn⟩ := Nat.exists_eq_add_one.2 maxPiece_pos
    cases stream with
    | nil => exact absurd rfl h
    | cons b stream =>
      rw [hn, cutChunk]
      split <;> exact List.cons_ne_nil _ _
  rw [pieces_eq_cons (hpiece ▸ hne), hpiece, pieces_congr (hleft.trans List.flatten_singleton.symm)]

/-- A line that fits into a piece is one. -/
theorem pieces_line (hfeed : lineFeed ∉ line) (hlen : line.length < maxPiece)
    (rest : List UInt8) :
    pieces [line ++ lineFeed :: rest] = (line ++ [lineFeed]) :: pieces [rest] := by
  obtain ⟨n, hn⟩ := Nat.exists_eq_add_one.2 (Nat.sub_pos_of_lt hlen)
  rw [pieces_stream (by simp), cutChunk_append hfeed hlen.le, hn, cutChunk, if_pos rfl]

/-- A line that does not fit fills a piece, and goes on in the next. -/
theorem pieces_full (hfeed : lineFeed ∉ line) (hlen : line.length = maxPiece)
    (rest : List UInt8) : pieces [line ++ rest] = line :: pieces [rest] := by
  have hne : line ≠ [] := List.ne_nil_of_length_pos (hlen ▸ maxPiece_pos)
  rw [pieces_stream (by simp [hne]), cutChunk_append hfeed hlen.le, hlen, Nat.sub_self]
  cases rest <;> simp [cutChunk]

/-- A line that the stream breaks off in is a piece as it stands. -/
theorem pieces_last (hfeed : lineFeed ∉ line) (hne : line ≠ []) (hlen : line.length ≤ maxPiece) :
    pieces [line] = [line] := by
  rw [pieces_stream hne, cutChunk_of_notMem hfeed hlen, pieces_nil]

/-! ### Records -/

/-- The record of a piece. -/
def recordOf (now : Int64) (piece : List UInt8) : LogRecord := GuestLine.parse now (lineOf piece)

/-- The records of all chunks. -/
def records (now : Int64) (chunks : List (List UInt8)) : List LogRecord :=
  (pieces chunks).map (recordOf now)

/-- As many blocks of a line, each as long as a piece, the last as long as is left. -/
def blocks (line : List UInt8) (n : Nat) : List (List UInt8) :=
  (List.range n).map fun i => (line.drop (i * maxPiece)).take maxPiece

/-- One more block is cut off the front. -/
theorem blocks_succ (line : List UInt8) (n : Nat) :
    blocks line (n + 1) = line.take maxPiece :: blocks (line.drop maxPiece) n := by
  simp [blocks, List.range_succ_eq_map, Function.comp_def, Nat.succ_mul, Nat.add_comm]

/-- There are as many blocks as were asked for. -/
theorem length_blocks (line : List UInt8) (n : Nat) : (blocks line n).length = n := by
  rw [blocks, List.length_map, List.length_range]

/-- Enough blocks of a line are all of it. -/
theorem flatten_blocks {line : List UInt8} {n : Nat} (h : line.length ≤ n * maxPiece) :
    (blocks line n).flatten = line := by
  induction n generalizing line with
  | zero =>
    rw [Nat.zero_mul, Nat.le_zero, List.length_eq_zero_iff] at h
    rw [h]
    rfl
  | succ n ih =>
    have hdrop : (line.drop maxPiece).length ≤ n * maxPiece := by
      rw [List.length_drop]
      rw [Nat.succ_mul] at h
      omega
    rw [blocks_succ, List.flatten_cons, ih hdrop, List.take_append_drop]

/-- The line feed that ends a piece makes no difference to its line. -/
theorem lineOf_concat (piece : List UInt8) : lineOf (piece ++ [lineFeed]) = lineOf piece := by
  simp [lineOf]

variable {now : Int64}

theorem records_nil : records now [[]] = [] := by rw [records, pieces_nil, List.map_nil]

/-- A line that is ended gives a record for each piece that it fills, and one for the rest. -/
theorem records_line {line : List UInt8} (hfeed : lineFeed ∉ line) (rest : List UInt8) :
    records now [line ++ lineFeed :: rest] =
      (blocks line (line.length / maxPiece + 1)).map (recordOf now) ++ records now [rest] := by
  rcases Nat.lt_or_ge line.length maxPiece with hshort | hlong
  · rw [records, pieces_line hfeed hshort, Nat.div_eq_of_lt hshort, blocks_succ,
      List.take_of_length_le hshort.le, List.map_cons, recordOf, lineOf_concat]
    rfl
  · obtain ⟨htake, hdrop⟩ := not_or.1 (List.mem_append.not.1
      ((List.take_append_drop maxPiece line).symm ▸ hfeed))
    have hfull : (line.take maxPiece).length = maxPiece := List.length_take_of_le hlong
    have hcount : line.length / maxPiece = (line.drop maxPiece).length / maxPiece + 1 := by
      rw [List.length_drop]
      exact Nat.div_eq_sub_div maxPiece_pos hlong
    have hsplit : line ++ lineFeed :: rest =
        line.take maxPiece ++ (line.drop maxPiece ++ lineFeed :: rest) := by
      rw [← List.append_assoc, List.take_append_drop]
    have hrest := records_line hdrop rest
    rw [records] at hrest
    rw [hcount, blocks_succ, List.map_cons, List.cons_append, hsplit, records,
      pieces_full htake hfull, List.map_cons, hrest]
termination_by line.length
decreasing_by
  have := maxPiece_pos
  rw [List.length_drop]
  omega

/-- A line that does not fit into one piece takes one more than what is left of it. -/
theorem ceil_of_lt {n m : Nat} (hm : 0 < m) (h : m < n) :
    (n + m - 1) / m = (n - m + m - 1) / m + 1 := by
  rw [Nat.div_eq_sub_div hm (by omega), show n + m - 1 - m = n - m + m - 1 by omega]

/-- A line that fits takes one piece. -/
theorem ceil_of_le {n m : Nat} (hn : 0 < n) (h : n ≤ m) : (n + m - 1) / m = 1 := by
  rw [Nat.div_eq_sub_div (by omega) (by omega), Nat.div_eq_of_lt (by omega)]

/-- The pieces have room for the whole line. -/
theorem le_ceil_mul (n : Nat) {m : Nat} (hm : 0 < m) : n ≤ (n + m - 1) / m * m := by
  have hdiv := Nat.div_add_mod (n + m - 1) m
  have hmod := Nat.mod_lt (n + m - 1) hm
  rw [Nat.mul_comm]
  omega

/-- A line that the stream breaks off in gives a record for each piece that it begins. -/
theorem records_last {line : List UInt8} (hfeed : lineFeed ∉ line) :
    records now [line] =
      (blocks line ((line.length + maxPiece - 1) / maxPiece)).map (recordOf now) := by
  by_cases hnil : line = []
  · rw [hnil, records_nil, List.length_nil, Nat.zero_add,
      Nat.div_eq_of_lt (Nat.sub_one_lt_of_lt maxPiece_pos)]
    rfl
  rcases Nat.lt_or_ge maxPiece line.length with hlong | hshort
  · obtain ⟨htake, hdrop⟩ := not_or.1 (List.mem_append.not.1
      ((List.take_append_drop maxPiece line).symm ▸ hfeed))
    have hfull : (line.take maxPiece).length = maxPiece := List.length_take_of_le hlong.le
    have hrest := records_last hdrop
    rw [records, List.length_drop] at hrest
    rw [ceil_of_lt maxPiece_pos hlong, blocks_succ, List.map_cons]
    conv => lhs; rw [← List.take_append_drop maxPiece line]
    rw [records, pieces_full htake hfull, List.map_cons, hrest]
  · rw [records, pieces_last hfeed hnil hshort, ceil_of_le (List.length_pos_iff.2 hnil) hshort,
      blocks_succ, List.take_of_length_le hshort]
    rfl
termination_by line.length
decreasing_by
  have := maxPiece_pos
  rw [List.length_drop]
  omega

/-- What comes behind a line feed begins a line of its own. -/
theorem records_append {a : List UInt8} (ha : a = [] ∨ a.getLast? = some lineFeed)
    (b : List UInt8) : records now [a ++ b] = records now [a] ++ records now [b] := by
  by_cases hnil : a = []
  · rw [hnil, records_nil]
    rfl
  have hlast := ha.resolve_left hnil
  obtain ⟨line, rest, heq, hline⟩ := List.eq_append_cons_of_mem (List.mem_of_getLast? hlast)
  have hrest : rest = [] ∨ rest.getLast? = some lineFeed := by
    rw [heq] at hlast
    cases rest with
    | nil => exact .inl rfl
    | cons c rest =>
      refine .inr ?_
      rwa [List.getLast?_append_of_ne_nil _ (List.cons_ne_nil _ _),
        List.getLast?_cons_cons] at hlast
  rw [heq, List.append_assoc, List.cons_append, records_line hline, records_line hline,
    records_append hrest, List.append_assoc]
termination_by a.length
decreasing_by
  rw [heq, List.length_append, List.length_cons]
  omega

/-- All records of a stream, line by line. -/
theorem records_lines {lines : List (List UInt8)} (hlines : ∀ line ∈ lines, lineFeed ∉ line)
    {last : List UInt8} (hlast : lineFeed ∉ last) :
    records now [(lines.map (· ++ [lineFeed])).flatten ++ last] =
      (lines.flatMap fun line => (blocks line (line.length / maxPiece + 1)).map (recordOf now)) ++
        (blocks last ((last.length + maxPiece - 1) / maxPiece)).map (recordOf now) := by
  induction lines with
  | nil =>
    rw [List.map_nil, List.flatten_nil, List.nil_append, List.flatMap_nil, List.nil_append,
      records_last hlast]
  | cons line rest ih =>
    rw [List.map_cons, List.flatten_cons, List.append_assoc, List.append_assoc,
      List.singleton_append, records_line (hlines line (List.mem_cons_self ..)),
      ih fun l hl => hlines l (List.mem_cons_of_mem _ hl), List.flatMap_cons, List.append_assoc]

/-! ### The console -/

/-- What is dropped from the end depends on the bytes that are there only. -/
theorem rdropWhile_congr {p q : UInt8 → Bool} {bytes : List UInt8} (h : ∀ b ∈ bytes, p b = q b) :
    bytes.rdropWhile p = bytes.rdropWhile q := by
  induction bytes using List.reverseRecOn with
  | nil => rfl
  | append_singleton bytes b ih =>
    rw [List.rdropWhile_concat, List.rdropWhile_concat, h b (by simp),
      ih fun c hc => h c (List.mem_append_left _ hc)]

/-- Without a line feed, the line of a piece is what it is read as, less the carriage returns at
    its end. -/
theorem lineOf_of_notMem {piece : List UInt8} (hfeed : lineFeed ∉ piece) :
    lineOf piece =
      String.ofList ((Text.Utf8.lossy piece).toList.rdropWhile (· = '\r')) := by
  have hdrop : piece.rdropWhile (fun b => b = lineFeed || b = carriageReturn) =
      piece.rdropWhile (· = 0x0d) := rdropWhile_congr fun b hb => by
    have hne : b ≠ lineFeed := fun heq => hfeed (heq ▸ hb)
    rw [decide_eq_false hne, Bool.false_or]
    rfl
  rw [Text.Utf8.lossy, String.toList_ofList, ← Text.Utf8.decodeLossy_rdropWhile, ← hdrop, lineOf,
    Text.Utf8.lossy, List.rdropWhile]

/-- What is written to the console of a stream. -/
structure Linewise (now : Int64) : Prop where
  /-- It makes no difference how the stream comes in. -/
  whole : ∀ chunks, records now chunks = records now [chunks.flatten]
  /-- A line is not joined with the next one. -/
  append : ∀ a b, a = [] ∨ a.getLast? = some lineFeed →
    records now [a ++ b] = records now [a] ++ records now [b]
  /-- A line that fits into a piece, with its line feed, is a record. -/
  short : ∀ line, lineFeed ∉ line → line.length < maxPiece →
    records now [line ++ [lineFeed]] = [GuestLine.parse now
      (String.ofList ((Text.Utf8.lossy line).toList.rdropWhile (· = '\r')))]
  /-- A longer line is a record for each piece that it fills, and one for the rest. -/
  long : ∀ line, lineFeed ∉ line →
    (records now [line ++ [lineFeed]]).length = line.length / maxPiece + 1 ∧
      records now [line ++ [lineFeed]] =
        (blocks line (line.length / maxPiece + 1)).map (recordOf now)
  /-- So is a line that the stream breaks off in, but that nothing left is no record. -/
  last : ∀ line, lineFeed ∉ line → records now [line] =
    (blocks line ((line.length + maxPiece - 1) / maxPiece)).map (recordOf now)
  /-- Nothing of a line is left out. -/
  covered : ∀ line, (blocks line (line.length / maxPiece + 1)).flatten = line ∧
    (blocks line ((line.length + maxPiece - 1) / maxPiece)).flatten = line
  /-- So a stream is written line by line. -/
  stream : ∀ (lines : List (List UInt8)) (last : List UInt8),
    (∀ line ∈ lines, lineFeed ∉ line) → lineFeed ∉ last →
    records now [(lines.map (· ++ [lineFeed])).flatten ++ last] =
      (lines.flatMap fun line => (blocks line (line.length / maxPiece + 1)).map (recordOf now)) ++
        (blocks last ((last.length + maxPiece - 1) / maxPiece)).map (recordOf now)
  /-- All records are written to the console, in order. -/
  pumped : ∀ chunks h w,
    pump now h w chunks = (records now chunks).foldl (fun h r => h.push w r) h

/-- The serial output is written to the console line by line, and none is lost. -/
theorem linewise (now : Int64) : Linewise now where
  whole chunks := by rw [records, records, pieces_congr List.flatten_singleton.symm]
  append a b ha := records_append ha b
  short line hfeed hshort := by
    rw [records_line hfeed, Nat.div_eq_of_lt hshort, blocks_succ, List.take_of_length_le hshort.le,
      records_nil, List.map_cons, recordOf, lineOf_of_notMem hfeed]
    rfl
  long line hfeed := by
    have hline : records now [line ++ [lineFeed]] =
        (blocks line (line.length / maxPiece + 1)).map (recordOf now) := by
      rw [records_line hfeed, records_nil, List.append_nil]
    refine ⟨?_, hline⟩
    rw [hline, List.length_map, length_blocks]
  last line hfeed := records_last hfeed
  covered line := by
    refine ⟨flatten_blocks ?_, flatten_blocks (le_ceil_mul _ maxPiece_pos)⟩
    rw [Nat.mul_comm]
    exact (Nat.lt_mul_div_succ _ maxPiece_pos).le
  stream lines last hlines hlast := records_lines hlines hlast
  pumped chunks h w := by
    rw [pump, lines, records, List.foldl_map, List.foldl_map]
    rfl

end VmNode.Console.Serial
