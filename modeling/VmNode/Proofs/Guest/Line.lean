import Mathlib.Data.List.Basic
import Mathlib.Data.List.TakeDrop
import Mathlib.Data.List.TakeWhile
import VmNode.Guest.Line
import VmNode.Proofs.Text.Blank

/-!
# Lines and the records that they are read as

Reading a line of the guest undoes writing it, and gives nothing else:

* a text of any kind but a report is read back from its directive, whatever characters it has
  (`GuestLine.parse_text`);
* a report is read back if it can be told from a line at all (`GuestLine.Reportable`,
  `GuestLine.parse_state`);
* a line that is no directive is output (`GuestLine.IsOutput`, `GuestLine.parse_output`);
* every line is read as a text or as such a report (`GuestLine.said_parse`).

So the records that lines are read as are exactly those that come back from the line that is
written for them (`GuestLine.inverts`).
-/

namespace VmNode

namespace GuestLine

open Text

variable {now later : Int64} {s p body : List Char} {kind : LogKind} {line name : String}
variable {detail : Option String} {r : LogRecord}

/-! ### The carriage return -/

theorem dropReturn_concat (s : List Char) : dropReturn (s ++ ['\r']) = s := by
  rw [dropReturn, if_pos (by simp), List.dropLast_concat]

theorem dropReturn_of_ne (h : s.getLast? ≠ some '\r') : dropReturn s = s := if_neg h

theorem dropReturn_isPrefix (s : List Char) : dropReturn s <+: s := by
  rw [dropReturn]
  split
  · exact List.dropLast_prefix s
  · exact List.prefix_refl s

/-- A carriage return is blank, so a trimmed text does not end with one. -/
theorem dropReturn_of_isTrimmed (h : IsTrimmed s) : dropReturn s = s :=
  dropReturn_of_ne fun hlast => absurd (h.2 _ hlast) (by decide)

/-- The carriage return is looked for at the end only. -/
theorem dropReturn_append (hp : p.getLast? ≠ some '\r') (s : List Char) :
    dropReturn (p ++ s) = p ++ dropReturn s := by
  obtain rfl | ⟨init, last, rfl⟩ := List.eq_nil_or_concat' s
  · rw [List.append_nil, dropReturn_of_ne hp]
    exact (List.append_nil p).symm
  · by_cases hlast : last = '\r'
    · rw [hlast, ← List.append_assoc, dropReturn_concat, dropReturn_concat]
    · rw [dropReturn_of_ne (by simpa using hlast), dropReturn_of_ne (by simpa using hlast)]

/-! ### Directives -/

/-- The word that begins a directive of this kind. -/
def word (kind : LogKind) : List Char := (kind.name ++ ":").toList

/-- What follows a start is the rest of the text. -/
theorem after?_eq_some_iff {p s r : List Char} : after? p s = some r ↔ s = p ++ r := by
  induction p generalizing s with
  | nil => simp [after?]
  | cons a p ih =>
    cases s with
    | nil => simp [after?]
    | cons c s =>
      rw [after?]
      split
      · rename_i h; simp [ih, h]
      · rename_i h; simp [Ne.symm h]

@[simp] theorem after?_append (p r : List Char) : after? p (p ++ r) = some r :=
  after?_eq_some_iff.2 rfl

theorem after?_eq_none (h : ¬ p <+: s) : after? p s = none := by
  cases hs : after? p s with
  | none => rfl
  | some rest => exact absurd ⟨rest, (after?_eq_some_iff.1 hs).symm⟩ h

/-- A text of any kind but a report is all that follows the word. -/
theorem directive?_text (hkind : kind ≠ .state) (text : List Char) :
    directive? now (word kind ++ text) = some ⟨kind, now, some (String.ofList text), none⟩ := by
  cases kind with
  | state => exact absurd rfl hkind
  | stdout => rfl
  | stderr => rfl
  | system => rfl

/-- A report is what follows the word, without blanks around it. -/
theorem directive?_state (s : List Char) :
    directive? now (word .state ++ s) = report? now (trimChars s) := by
  rw [directive?, show "state:".toList = word .state from rfl, after?_append]

/-- What begins with none of the words is no directive. -/
theorem directive?_eq_none (h : ∀ kind, ¬ word kind <+: body) : directive? now body = none := by
  rw [directive?, show "state:".toList = word .state from rfl, after?_eq_none (h .state),
    show "stderr:".toList = word .stderr from rfl, after?_eq_none (h .stderr),
    show "stdout:".toList = word .stdout from rfl, after?_eq_none (h .stdout),
    show "system:".toList = word .system from rfl, after?_eq_none (h .system)]
  rfl

/-! ### Reports -/

/-- A report that can be told from its line: the name is one word, and it and the detail are not
    lost or cut when blanks are. -/
structure Reportable (name : String) (detail : Option String) : Prop where
  /-- There is a name. -/
  ne_nil : name.toList ≠ []
  /-- The first space of the line ends the name. -/
  notMem : ' ' ∉ name.toList
  /-- The name does not start with a blank, which would be cut. -/
  head : ∀ c, name.toList.head? = some c → isBlank c = false
  /-- A name may end with blanks other than spaces if a detail follows. -/
  last : detail = none → ∀ c, name.toList.getLast? = some c → isBlank c = false
  /-- The detail is not empty, and does not start or end with blanks. -/
  detail : ∀ text, detail = some text → text.toList ≠ [] ∧ IsTrimmed text.toList

theorem report?_of_ne_nil (h : s ≠ []) : report? now s =
    some (.report now (String.ofList (s.takeWhile (· != ' ')))
      (if (trimChars ((s.dropWhile (· != ' ')).drop 1)).isEmpty then none
        else some (String.ofList (trimChars ((s.dropWhile (· != ' ')).drop 1))))) := by
  cases s with
  | nil => exact absurd rfl h
  | cons c s => rw [report?, List.span_eq_takeWhile_dropWhile]

theorem bne_of_notMem (h : ' ' ∉ s) : ∀ c ∈ s, (c != ' ') = true :=
  fun _ hc => bne_iff_ne.2 fun heq => h (heq ▸ hc)

/-- A text without a space is a name. -/
theorem report?_name (hne : s ≠ []) (hspace : ' ' ∉ s) :
    report? now s = some (.report now (String.ofList s) none) := by
  have hall := bne_of_notMem hspace
  rw [report?_of_ne_nil hne, List.takeWhile_eq_self_iff.2 hall, List.dropWhile_eq_nil_iff.2 hall]
  rfl

/-- The name ends before the first space. -/
theorem report?_detail (hspace : ' ' ∉ s) (text : List Char) : report? now (s ++ ' ' :: text) =
    some (.report now (String.ofList s)
      (if (trimChars text).isEmpty then none else some (String.ofList (trimChars text)))) := by
  have hall := bne_of_notMem hspace
  rw [report?_of_ne_nil (by simp), List.takeWhile_append_of_pos hall,
    List.dropWhile_append_of_pos hall]
  simp

/-- What a trimmed text reports can be told from its line. -/
theorem reportable_of_report? (hs : IsTrimmed s) (h : report? now s = some r) :
    ∃ name detail, r = .report now name detail ∧ Reportable name detail := by
  have hne : s ≠ [] := by
    rintro rfl
    cases h
  by_cases hspace : ' ' ∈ s
  · obtain ⟨front, text, rfl, hfront⟩ := List.eq_append_cons_of_mem hspace
    rw [report?_detail hfront, Option.some.injEq] at h
    have hfrontNe : front ≠ [] := by
      rintro rfl
      exact absurd (hs.1 ' ' rfl) (by decide)
    -- the last character is not blank, so there is something after the space
    have htext : trimChars text ≠ [] := by
      rw [Ne, trimChars_eq_nil_iff]
      intro hblank
      obtain rfl | ⟨init, last, rfl⟩ := List.eq_nil_or_concat' text
      · exact absurd (hs.2 ' ' (by simp)) (by decide)
      · have hlast := hs.2 last (by
          rw [← List.cons_append, ← List.append_assoc, List.getLast?_concat])
        rw [hblank last (by simp)] at hlast
        cases hlast
    refine ⟨_, _, h.symm, by simpa using hfrontNe, by simpa using hfront, fun c hc => ?_, ?_, ?_⟩
    · refine hs.1 c ?_
      rw [String.toList_ofList] at hc
      rw [List.head?_append, hc]
      rfl
    · simp [htext]
    · intro t ht
      rw [if_neg (by simpa using htext), Option.some.injEq] at ht
      subst ht
      rw [String.toList_ofList]
      exact ⟨htext, isTrimmed_trimChars text⟩
  · rw [report?_name hne hspace, Option.some.injEq] at h
    refine ⟨_, _, h.symm, by simpa using hne, by simpa using hspace, ?_, fun _ => ?_, nofun⟩
    · simpa using hs.1
    · simpa using hs.2

/-- The text of a report that can be told from its line: the name, and a detail after a space. -/
def reportText (name : String) (detail : Option String) : List Char :=
  name.toList ++ (detail.map fun text => ' ' :: text.toList).getD []

/-- The text of such a report has no blanks around it to lose. -/
theorem Reportable.isTrimmed (h : Reportable name detail) : IsTrimmed (reportText name detail) := by
  constructor
  · intro c hc
    refine h.head c ?_
    rwa [reportText, List.head?_append_of_ne_nil _ h.ne_nil] at hc
  · cases detail with
    | none =>
      intro c hc
      exact h.last rfl c (by simpa [reportText] using hc)
    | some text =>
      obtain ⟨hne, -, hlast⟩ := h.detail text rfl
      intro c hc
      refine hlast c ?_
      rwa [reportText, Option.map_some, Option.getD_some, List.append_cons,
        List.getLast?_append_of_ne_nil _ hne] at hc

/-- The text of such a report is read as the report: the first space ends the name. -/
theorem Reportable.report?_reportText (h : Reportable name detail) :
    report? now (reportText name detail) = some (.report now name detail) := by
  cases detail with
  | none => simp [reportText, report?_name h.ne_nil h.notMem]
  | some text =>
    obtain ⟨hne, htrimmed⟩ := h.detail text rfl
    rw [reportText, Option.map_some, Option.getD_some, report?_detail h.notMem,
      trimChars_of_isTrimmed htrimmed]
    simp [hne]

/-! ### Lines -/

/-- A line that is no directive: it does not begin with the marker, or with no word after that, or
    it reports a state of blanks. -/
inductive IsOutput : List Char → Prop
  /-- A line without the marker. -/
  | unmarked {line : List Char} : ¬ marker.toList <+: line → IsOutput line
  /-- A directive of no known kind. -/
  | unknown {body : List Char} : (∀ kind, ¬ word kind <+: body) → IsOutput (marker.toList ++ body)
  /-- A report without a state. -/
  | blank {s : List Char} : (∀ c ∈ s, isBlank c = true) →
    IsOutput (marker.toList ++ (word .state ++ s))

theorem dropReturn_marker (body : List Char) :
    dropReturn (marker.toList ++ body) = marker.toList ++ dropReturn body :=
  dropReturn_append (by decide) body

theorem dropReturn_word (kind : LogKind) (s : List Char) :
    dropReturn (word kind ++ s) = word kind ++ dropReturn s :=
  dropReturn_append (by cases kind <;> decide) s

/-- A line with the marker is a directive, or else it was printed as it is. -/
theorem parse_of_marker (h : line.toList = marker.toList ++ body) :
    parse now line = (directive? now (dropReturn body)).getD
      (.stdout now (String.ofList (dropReturn line.toList))) := by
  rw [parse, h, dropReturn_marker]
  simp only [after?_append, Option.bind_some]

/-- A text of any kind but a report comes back from its directive. -/
theorem parse_text (hkind : kind ≠ .state) (s : List Char)
    (h : line.toList = marker.toList ++ (word kind ++ s)) :
    parse now line = ⟨kind, now, some (String.ofList (dropReturn s)), none⟩ := by
  rw [parse_of_marker h, dropReturn_word, directive?_text hkind]
  rfl

/-- A report comes back from its directive, with a carriage return or without one. -/
theorem parse_state (h : Reportable name detail) {tail : List Char}
    (htail : tail = [] ∨ tail = ['\r'])
    (hline : line.toList = marker.toList ++ (word .state ++ (reportText name detail ++ tail))) :
    parse now line = .report now name detail := by
  have hdrop : dropReturn (reportText name detail ++ tail) = reportText name detail := by
    rcases htail with rfl | rfl
    · rw [List.append_nil, dropReturn_of_isTrimmed h.isTrimmed]
    · exact dropReturn_concat _
  rw [parse_of_marker hline, dropReturn_word, hdrop, directive?_state,
    trimChars_of_isTrimmed h.isTrimmed, h.report?_reportText]
  rfl

/-- Any other line is output as it stands. -/
theorem parse_output (h : IsOutput line.toList) :
    parse now line = .stdout now (String.ofList (dropReturn line.toList)) := by
  generalize hs : line.toList = s at h ⊢
  cases h with
  | unmarked hmarker =>
    have hnone : after? marker.toList (dropReturn s) = none :=
      after?_eq_none fun hstart => hmarker (hstart.trans (dropReturn_isPrefix s))
    rw [parse, hs]
    simp only [hnone, Option.bind_none, Option.getD_none]
  | @unknown body hbody =>
    have hnone : directive? now (dropReturn body) = none :=
      directive?_eq_none fun kind hstart => hbody kind (hstart.trans (dropReturn_isPrefix body))
    rw [parse_of_marker hs, hnone, hs]
    rfl
  | @blank t ht =>
    have hblank : trimChars (dropReturn t) = [] :=
      trimChars_eq_nil_iff.2 fun c hc => ht c ((dropReturn_isPrefix t).subset hc)
    rw [parse_of_marker hs, dropReturn_word, directive?_state, hblank, hs]
    rfl

/-! ### Records -/

/-- The records that lines are read as: texts of the other kinds, and reports. -/
inductive Said (now : Int64) : LogRecord → Prop
  /-- A text, whatever characters it has. -/
  | text {kind : LogKind} {message : String} : kind ≠ .state →
    Said now ⟨kind, now, some message, none⟩
  /-- A report that can be told from its line. -/
  | report {name : String} {detail : Option String} : Reportable name detail →
    Said now (.report now name detail)

/-- A directive tells what the guest has said. -/
theorem said_of_directive? (h : directive? now body = some r) : Said now r := by
  rw [directive?] at h
  split at h
  · obtain ⟨name, detail, rfl, hreportable⟩ := reportable_of_report? (isTrimmed_trimChars _) h
    exact .report hreportable
  · split at h
    · cases h
      exact .text (by decide)
    · split at h
      · cases h
        exact .text (by decide)
      · obtain ⟨text, -, rfl⟩ := Option.map_eq_some_iff.1 h
        exact .text (by decide)

/-- Whatever the line, the record is made up of it. -/
theorem said_parse (now : Int64) (line : String) : Said now (parse now line) := by
  simp only [parse]
  cases hbody : (after? marker.toList (dropReturn line.toList)).bind (directive? now) with
  | none => exact .text (by decide)
  | some r =>
    obtain ⟨body, -, hr⟩ := Option.bind_eq_some_iff.1 hbody
    exact said_of_directive? hr

/-- A record comes back from the line that is written for it, but for the time. -/
theorem parse_encode (later : Int64) (h : Said now r) :
    parse later (encode r) = { r with timestampMs := later } := by
  cases h with
  | @text kind message hkind =>
    have hline : (encode ⟨kind, now, some message, none⟩).toList =
        marker.toList ++ (word kind ++ (message.toList ++ ['\r'])) := by
      cases kind with
      | state => exact absurd rfl hkind
      | stdout | stderr | system => simp [encode, word]
    rw [parse_text hkind _ hline, dropReturn_concat, String.ofList_toList]
  | @report name detail hreportable =>
    refine parse_state hreportable (.inr rfl) ?_
    cases detail <;> simp [encode, word, reportText, LogRecord.report, LogKind.name]

/-- Reading a line undoes writing it, and gives nothing else. -/
structure Inverts (now : Int64) : Prop where
  /-- Any text of a kind that is no report, with a carriage return behind it. -/
  text : ∀ kind, kind ≠ .state → ∀ message,
    parse now (marker ++ kind.name ++ ":" ++ message ++ "\r") = ⟨kind, now, some message, none⟩
  /-- Any report that can be told from its line. -/
  state : ∀ name detail, Reportable name detail →
    parse now (marker ++ "state:" ++ name ++ (detail.map (" " ++ ·)).getD "") =
      .report now name detail
  /-- There are no other reports. -/
  reportable : ∀ line, (parse now line).kind = .state →
    ∃ name detail, parse now line = .report now name detail ∧ Reportable name detail
  /-- Any line that is no directive, less a carriage return at its end. -/
  output : ∀ line, IsOutput line.toList →
    parse now line = .stdout now (String.ofList (dropReturn line.toList))
  /-- There are no other records. -/
  said : ∀ r, (∃ line, parse now line = r) ↔ Said now r
  /-- So every record comes back from the line that is written for it, at whatever time. -/
  again : ∀ line later,
    parse later (encode (parse now line)) = { parse now line with timestampMs := later }

/-- The reader of lines inverts the writer. -/
theorem inverts (now : Int64) : Inverts now := by
  refine ⟨fun kind hkind message => ?_, fun name detail h => ?_, fun line hline => ?_,
    fun line h => parse_output h, fun r => ⟨?_, fun h => ⟨encode r, ?_⟩⟩,
    fun line later => parse_encode later (said_parse now line)⟩
  · rw [parse_text hkind (message.toList ++ ['\r']) (by simp [word]), dropReturn_concat,
      String.ofList_toList]
  · refine parse_state h (.inl rfl) ?_
    cases detail <;> simp [word, reportText, LogKind.name]
  · generalize hr : parse now line = r at hline ⊢
    cases hr ▸ said_parse now line with
    | text hkind => exact absurd hline hkind
    | report h => exact ⟨_, _, rfl, h⟩
  · rintro ⟨line, rfl⟩
    exact said_parse now line
  · rw [parse_encode now h]
    cases h <;> rfl

end GuestLine

end VmNode
