import Mathlib.Data.List.ReduceOption
import VmNode.Http.Handler
import VmNode.Proofs.Instance.RoundTrip

/-!
# Reading event streams

A frame is made of lines, and the data of an event is one of them. It is the text of a record in
JSON, where a line break between quotes is escaped, so whatever the record says, the line goes on
to the end of the data (`Json.unbroken_compactChars`). Hence a client finds the lines of each
frame, one after the other (`EventStream.lines_frame`), and makes one event of them.

Main statement: what a stream has sent is read as the records that its subscription got, whatever
they say and wherever the connection was kept alive in between (`LogStream.faithful`).
-/

namespace VmNode

/-- There is no line break in a text. -/
def Unbroken (l : List Char) : Prop := ∀ c ∈ l, c ≠ '\n' ∧ c ≠ '\r'

instance (l : List Char) : Decidable (Unbroken l) := List.decidableBAll _ l

@[simp] theorem unbroken_nil : Unbroken [] := List.forall_mem_nil _

@[simp] theorem unbroken_cons {c : Char} {l : List Char} :
    Unbroken (c :: l) ↔ (c ≠ '\n' ∧ c ≠ '\r') ∧ Unbroken l :=
  List.forall_mem_cons

@[simp] theorem unbroken_append {l m : List Char} :
    Unbroken (l ++ m) ↔ Unbroken l ∧ Unbroken m :=
  List.forall_mem_append

/-! ### Lines of JSON -/

namespace Json

theorem hexDigit_ne : ∀ n < 16, hexDigit n ≠ '\n' ∧ hexDigit n ≠ '\r' := by decide

/-- Line breaks are escaped, and nothing is escaped with one. -/
theorem unbroken_escape (c : Char) : Unbroken (escape c) := by
  rw [escape]
  split_ifs with hquote hslash hblank
  · simp
  · simp
  · have hhigh := hexDigit_ne (c.toNat / 16) (by omega)
    have hlow := hexDigit_ne (c.toNat % 16) (Nat.mod_lt _ (by decide))
    split <;> simp [hhigh, hlow]
  · refine unbroken_cons.2 ⟨⟨?_, ?_⟩, unbroken_nil⟩
    · rintro rfl
      exact hblank (by decide)
    · rintro rfl
      exact hblank (by decide)

/-- A string in JSON has no line breaks, which are escaped. -/
theorem unbroken_quote (s : String) : Unbroken (quote s) := by
  have hinner : Unbroken (s.toList.flatMap escape) := fun c hc => by
    obtain ⟨d, -, hd⟩ := List.mem_flatMap.1 hc
    exact unbroken_escape d c hd
  simp [quote, hinner]

theorem digitChar_ne : ∀ d < 10,
    Text.Decimal.digitChar d ≠ '\n' ∧ Text.Decimal.digitChar d ≠ '\r' := by
  decide

theorem unbroken_digits (n : Nat) : Unbroken (Text.Decimal.digits n) := by
  fun_induction Text.Decimal.digits n with
  | case1 n h => simp [digitChar_ne n h]
  | case2 n h ih => simp [ih, digitChar_ne (n % 10) (Nat.mod_lt _ (by decide))]

theorem unbroken_writeInt : ∀ n : Int, Unbroken (writeInt n)
  | .ofNat n => unbroken_digits n
  | .negSucc n => by simp [writeInt, unbroken_digits (n + 1)]

mutual

/-- The compact text of a value is one line, whatever its texts are. -/
theorem unbroken_compactChars : ∀ v : Json, Unbroken v.compactChars
  | .null | .bool true | .bool false | .arr [] | .obj [] => by simp [compactChars]
  | .int n => unbroken_writeInt n
  | .str s => unbroken_quote s
  | .arr (v :: rest) => by
    simp [compactChars, unbroken_compactChars v, unbroken_compactItems rest]
  | .obj ((k, v) :: rest) => by
    simp [compactChars, unbroken_quote k, unbroken_compactChars v, unbroken_compactMembers rest]

/-- Items written on one line have no line breaks. -/
theorem unbroken_compactItems : ∀ l : List Json, Unbroken (compactItems l)
  | [] => by simp [compactItems]
  | v :: rest => by
    simp [compactItems, unbroken_compactChars v, unbroken_compactItems rest]

/-- Neither have members. -/
theorem unbroken_compactMembers : ∀ l : List (String × Json), Unbroken (compactMembers l)
  | [] => by simp [compactMembers]
  | (k, v) :: rest => by
    simp [compactMembers, unbroken_quote k, unbroken_compactChars v, unbroken_compactMembers rest]

end

end Json

/-- What stands before the first separator is cut off. -/
theorem Text.cut_append {separator : Char} {l : List Char} (h : separator ∉ l)
    (rest : List Char) : Text.cut separator (l ++ separator :: rest) = (l, some rest) := by
  induction l with
  | nil => simp [Text.cut]
  | cons c l ih =>
    obtain ⟨hc, hl⟩ := not_or.1 fun hmem => h (List.mem_cons.2 hmem)
    rw [List.cons_append, Text.cut, if_neg (Ne.symm hc), ih hl]

namespace Http

namespace EventStream

variable {l rest : List Char} {others : List (List Char)} {name value : String}

/-! ### Lines -/

theorem lines_newline (rest : List Char) : lines ('\n' :: rest) = [] :: lines rest := by
  rw [lines]
  · exact if_pos (.inl rfl)
  · exact fun _ heq => absurd heq (by decide)

theorem lines_cons {c : Char} (h : c ≠ '\n' ∧ c ≠ '\r') (hrest : lines rest = l :: others) :
    lines (c :: rest) = (c :: l) :: others := by
  rw [lines]
  · rw [if_neg (not_or.2 h), hrest]
  · exact fun _ heq _ => h.2 heq

/-- A line goes on to the next line feed. -/
theorem lines_append (h : Unbroken l) : lines (l ++ '\n' :: rest) = l :: lines rest := by
  induction l with
  | nil => exact lines_newline rest
  | cons c l ih =>
    obtain ⟨hc, hl⟩ := unbroken_cons.1 h
    exact lines_cons hc (ih hl)

/-- The line of a field, without its end. -/
def line (name value : String) : List Char := name.toList ++ ':' :: ' ' :: value.toList

/-- A line of a field is read as that line. -/
theorem lines_fieldLine (hname : Unbroken name.toList) (hvalue : Unbroken value.toList)
    (rest : List Char) : lines ((fieldLine name value).toList ++ rest) =
      line name value :: lines rest := by
  have htext : (fieldLine name value).toList ++ rest = line name value ++ '\n' :: rest := by
    simp [fieldLine, line]
  rw [htext]
  exact lines_append (by simp [line, hname, hvalue])

/-- A field is read from its line. -/
theorem fieldOf_line (h : ':' ∉ name.toList) (value : String) :
    fieldOf (line name value) = (name, value) := by
  simp [fieldOf, line, Text.cut_append h]

/-- The lines of a frame are found whatever follows it. -/
theorem lines_frame (r : LogRecord) (rest : List Char) : lines ((frame r).toList ++ rest) =
    line "event" "log" :: line "data" r.toJson.compact :: [] :: lines rest := by
  have hdata : Unbroken r.toJson.compact.toList := by
    rw [Json.compact, String.toList_ofList]
    exact Json.unbroken_compactChars r.toJson
  rw [frame, String.toList_append, String.toList_append, List.append_assoc, List.append_assoc,
    lines_fieldLine (by decide) (by decide), lines_fieldLine (by decide) hdata]
  exact congrArg (line "event" "log" :: line "data" r.toJson.compact :: ·) (lines_newline rest)

/-- A comment that keeps the connection alive is a line of its own, and an empty line follows it. -/
theorem lines_keepAlive (rest : List Char) :
    lines (keepAlive.toList ++ rest) = [':'] :: [] :: lines rest := by
  have hend : lines ('\n' :: '\n' :: rest) = [] :: [] :: lines rest := by
    rw [lines_newline, lines_newline]
  exact lines_cons (by decide) hend

/-! ### Events -/

/-- A line that is not empty adds to the event at hand. -/
theorem eventsFrom_line (h : l ≠ []) (before : String) (data : List String) :
    eventsFrom before data (l :: others) =
      match fieldOf l with
      | ("event", value) => eventsFrom value data others
      | ("data", value) => eventsFrom before (data ++ [value]) others
      | _ => eventsFrom before data others := by
  cases l with
  | nil => exact absurd rfl h
  | cons c rest => rfl

theorem line_ne_nil (name value : String) : line name value ≠ [] := by
  simp [line]

/-- The event of a record. -/
def eventOf (r : LogRecord) : Event := ⟨"log", r.toJson.compact⟩

/-- The lines of a frame make one event, and nothing of them is left for the next. -/
theorem eventsFrom_frame (r : LogRecord) (others : List (List Char)) :
    eventsFrom "" [] (line "event" "log" :: line "data" r.toJson.compact :: [] :: others) =
      eventOf r :: eventsFrom "" [] others := by
  have hname : fieldOf (line "event" "log") = ("event", "log") := fieldOf_line (by decide) _
  have hdata : fieldOf (line "data" r.toJson.compact) = ("data", r.toJson.compact) :=
    fieldOf_line (by decide) _
  have hread : eventsFrom "" [] (line "event" "log" :: line "data" r.toJson.compact ::
      [] :: others) = eventsFrom "log" [r.toJson.compact] ([] :: others) := by
    rw [eventsFrom_line (line_ne_nil _ _), hname]
    show eventsFrom "log" [] (_ :: _) = _
    rw [eventsFrom_line (line_ne_nil _ _), hdata]
    rfl
  rw [hread, eventsFrom, eventOf]
  simp

/-- A comment that keeps the connection alive is no event. -/
theorem eventsFrom_keepAlive (others : List (List Char)) :
    eventsFrom "" [] ([':'] :: [] :: others) = eventsFrom "" [] others := by
  have hcomment : fieldOf [':'] = ("", "") := by decide
  rw [eventsFrom_line (List.cons_ne_nil _ _), hcomment]
  show eventsFrom "" [] ([] :: others) = _
  rw [eventsFrom]
  rfl

/-- What is sent for a record, or to keep the connection alive. -/
def piece : Option LogRecord → String
  | some r => frame r
  | none => keepAlive

/-- Each record that was sent is an event, and nothing else is. -/
theorem events_join (sent : List (Option LogRecord)) :
    events (String.join (sent.map piece)) = sent.reduceOption.map eventOf := by
  rw [events, String.toList_join, List.flatMap_map]
  induction sent with
  | nil => rfl
  | cons x sent ih =>
    rw [List.flatMap_cons]
    cases x with
    | none =>
      rw [piece, lines_keepAlive, eventsFrom_keepAlive]
      exact ih
    | some r =>
      rw [piece, lines_frame, eventsFrom_frame, ih]
      rfl

/-- A body is read as some records: each is an event of its own with the name of console records,
    and the data of the event is decoded as the record. -/
def ReadsAs (body : String) (records : List LogRecord) : Prop :=
  (events body).map (fun e => (e.name, Doc.decodeText LogRecord.decode e.data)) =
    records.map fun r => ("log", .ok r)

/-- What is sent piece by piece is read as the records, in order, and comments are left out. -/
theorem readsAs_join (sent : List (Option LogRecord)) :
    ReadsAs (String.join (sent.map piece)) sent.reduceOption := by
  have hdecode (r : LogRecord) : Doc.decodeText LogRecord.decode r.toJson.compact = .ok r :=
    (roundTrips_of_decode LogRecord.isReadable_toJson LogRecord.decode_toJson).compact r
  rw [ReadsAs, events_join, List.map_map]
  exact List.map_congr_left fun r _ => congrArg (Prod.mk "log") (hdecode r)

end EventStream

/-! ### Streams -/

namespace LogStream

open Console (Subscription)

/-- The text that is sent, if any is. -/
def Next.text? : Next → Option String
  | .frame text => some text
  | .pending | .ended => none

/-- What a stream sends that is asked again and again for what is next, with the node as it is
    each time. -/
def sent (s : LogStream) : List Node → List String
  | [] => []
  | n :: later => (s.next n).1.text?.toList ++ (s.next n).2.sent later

/-- The records that a subscription gets in the meantime. -/
def got (sub : Subscription) : List Node → List LogRecord
  | [] => []
  | n :: later =>
    match n.hub.next sub with
    | (.record r, sub) => r :: got sub later
    | (.lagged lost, sub) => Console.lagNotice n.now lost :: got sub later
    | (_, sub) => got sub later

/-- Asked for what is next, a stream sends the frame of the record that its subscription gets,
    a frame that keeps the connection alive, or nothing. -/
theorem exists_piece (n : Node) (s : LogStream) : ∃ sent : List (Option LogRecord),
    (s.next n).1.text?.toList = sent.map EventStream.piece ∧
      ∀ later, got s.sub (n :: later) = sent.reduceOption ++ got (s.next n).2.sub later := by
  simp only [next, got]
  obtain ⟨delivery, sub⟩ := n.hub.next s.sub
  cases delivery with
  | record r => exact ⟨[some r], rfl, fun _ => rfl⟩
  | lagged lost => exact ⟨[some (Console.lagNotice n.now lost)], rfl, fun _ => rfl⟩
  | ended => exact ⟨[], rfl, fun _ => rfl⟩
  | pending =>
    by_cases halarm : s.alarm ≤ n.clock
    · simp only [if_pos halarm]
      exact ⟨[none], rfl, fun _ => rfl⟩
    · simp only [if_neg halarm]
      exact ⟨[], rfl, fun _ => rfl⟩

/-- A stream sends pieces: one for each record that its subscription got, and comments between them.
    -/
theorem exists_sent (nodes : List Node) : ∀ s : LogStream, ∃ sent : List (Option LogRecord),
    s.sent nodes = sent.map EventStream.piece ∧ got s.sub nodes = sent.reduceOption := by
  induction nodes with
  | nil => exact fun _ => ⟨[], rfl, rfl⟩
  | cons n later ih =>
    intro s
    obtain ⟨first, htext, hfirst⟩ := exists_piece n s
    obtain ⟨rest, hsent, hrest⟩ := ih (s.next n).2
    refine ⟨first ++ rest, ?_, ?_⟩
    · rw [sent, htext, hsent, List.map_append]
    · rw [hfirst, hrest, List.reduceOption_append]

/-- What a client reads of an event stream. -/
structure Faithful : Prop where
  /-- Any records, with the connection kept alive anywhere in between, are read as they are. -/
  frames : ∀ sent : List (Option LogRecord),
    EventStream.ReadsAs (String.join (sent.map EventStream.piece)) sent.reduceOption
  /-- What a stream has sent is read as what its subscription got. -/
  streams : ∀ (s : LogStream) (nodes : List Node),
    EventStream.ReadsAs (String.join (s.sent nodes)) (got s.sub nodes)

/-- A reader gets what the subscription got: by induction on the pieces, each of which is read
    without regard to what follows. -/
theorem faithful : Faithful where
  frames := EventStream.readsAs_join
  streams s nodes := by
    obtain ⟨sent, hsent, hgot⟩ := exists_sent nodes s
    rw [hsent, hgot]
    exact EventStream.readsAs_join sent

/-- A message does not end its event, and begins no other. -/
example : EventStream.events (EventStream.frame (.stdout 0 "a\n\nevent: x\r\ndata: y\n\n")) =
    [EventStream.eventOf (.stdout 0 "a\n\nevent: x\r\ndata: y\n\n")] := by decide +kernel

end LogStream

end Http

end VmNode
