import Mathlib.Data.List.Basic
import Mathlib.Data.List.Induction
import VmNode.Proofs.Console.Broadcast
import VmNode.Proofs.Console.Truncate
import VmNode.Proofs.Guest.Line

/-!
# What a line takes up

A writer cuts the message of a record that is too long, and puts the record into the buffer and
the queue of its channel.

* `GuestLine.payloadLen_parse_le`: a record takes up no more than its line.
* `Broadcast.holds_of_play`: in every run, the records of a channel were put into it by an event,
  cut if a writer did so. What an event can make of a channel is said once
  (`Channel.Turns`, `Broadcast.turns_of_step`).

The name of a state is not cut. So a line of output takes up no more than a message may, and a
report more than that by its name at most, but never more than the line itself
(`restrained_of_validate`). A report with a long name does take up more than a message may
(`unrestrained_wordy`).
-/

namespace VmNode

/-! ### Records of lines -/

namespace GuestLine

open Console Text

variable {now : Int64} {s body : List Char} {r : LogRecord}

/-- What is no report names no state. -/
theorem Said.state_eq_none (h : Said now r) (hkind : r.kind ≠ .state) : r.state = none := by
  cases h with
  | text => rfl
  | report => exact absurd rfl hkind

/-- Trimming only takes characters away. -/
theorem trimChars_sublist (s : List Char) : (trimChars s).Sublist s :=
  (trimEndChars_isPrefix _).sublist.trans (List.dropWhile_sublist _)

/-- The payload of a text is its length in bytes. -/
theorem payloadLen_text (kind : LogKind) (now : Int64) (s : List Char) :
    (LogRecord.mk kind now (some (String.ofList s)) none).payloadLen = byteLength s :=
  byteLength_ofList s

/-- A report takes up no more than the line that it was read from: the blank between name and detail
    is not counted. -/
theorem payloadLen_report?_le (h : report? now s = some r) : r.payloadLen ≤ byteLength s := by
  have hne : s ≠ [] := by
    rintro rfl
    cases h
  rw [report?_of_ne_nil hne] at h
  cases h
  -- the name is the start of the text, and the detail is found in the rest
  have hdetail := byteLength_le_of_sublist
    ((trimChars_sublist ((s.dropWhile (· != ' ')).drop 1)).trans (List.drop_sublist ..))
  have hsplit := congrArg byteLength (List.takeWhile_append_dropWhile (p := (· != ' ')) (l := s))
  rw [byteLength_append] at hsplit
  simp only [LogRecord.payloadLen, LogRecord.report, Option.map_some, Option.getD_some,
    byteLength_ofList]
  split
  · simp only [Option.map_none, Option.getD_none]
    omega
  · simp only [Option.map_some, Option.getD_some, byteLength_ofList]
    omega

/-- Nor does any other directive, whose prefix is not counted. -/
theorem payloadLen_directive?_le (h : directive? now body = some r) :
    r.payloadLen ≤ byteLength body := by
  have hbehind : ∀ {p text : List Char}, after? p body = some text →
      byteLength text ≤ byteLength body := fun hafter => by
    rw [after?_eq_some_iff.1 hafter, byteLength_append]
    exact Nat.le_add_left ..
  rw [directive?] at h
  split at h
  · rename_i text hafter
    exact (payloadLen_report?_le h).trans
      ((byteLength_le_of_sublist (trimChars_sublist text)).trans (hbehind hafter))
  · split at h
    · rename_i hafter
      cases h
      exact (payloadLen_text ..).le.trans (hbehind hafter)
    · split at h
      · rename_i hafter
        cases h
        exact (payloadLen_text ..).le.trans (hbehind hafter)
      · obtain ⟨text, hafter, rfl⟩ := Option.map_eq_some_iff.1 h
        exact (payloadLen_text ..).le.trans (hbehind hafter)

/-- A record takes up no more than its line. -/
theorem payloadLen_parse_le (now : Int64) (line : String) :
    (parse now line).payloadLen ≤ line.utf8ByteSize := by
  have hreturn : byteLength (dropReturn line.toList) ≤ line.utf8ByteSize :=
    byteLength_toList line ▸ byteLength_le_of_sublist (dropReturn_isPrefix _).sublist
  refine Nat.le_trans ?_ hreturn
  simp only [parse]
  cases hbody : (after? marker.toList (dropReturn line.toList)).bind (directive? now) with
  | none => exact (payloadLen_text ..).le
  | some r =>
    obtain ⟨body, hafter, hr⟩ := Option.bind_eq_some_iff.1 hbody
    rw [after?_eq_some_iff.1 hafter, byteLength_append]
    exact (payloadLen_directive?_le hr).trans (Nat.le_add_left ..)

end GuestLine

namespace Console

variable {max : Nat}

/-- A record whose message is cut. -/
def cut (max : Nat) (r : LogRecord) : LogRecord :=
  { r with message := r.message.map (truncate max) }

/-- A record takes up no more than its line, and no more than a message may but for the name of
    a state. -/
structure Moderate (max : Nat) (line : String) (r : LogRecord) : Prop where
  /-- Its message is no longer than it may be. -/
  message : ∀ text, r.message = some text → text.utf8ByteSize ≤ max
  /-- It takes up no more than the line. -/
  line : r.payloadLen ≤ line.utf8ByteSize
  /-- What is no report is as long as a message at most. -/
  text : r.kind ≠ .state → r.payloadLen ≤ max
  /-- A report is longer by its name at most. -/
  report : ∀ name, r.state = some name → r.payloadLen ≤ name.utf8ByteSize + max

/-- A message that was cut is no longer than it may be. -/
theorem utf8ByteSize_of_cut (hmark : truncationMark.utf8ByteSize ≤ max) {r : LogRecord}
    {text : String} (h : (cut max r).message = some text) : text.utf8ByteSize ≤ max := by
  obtain ⟨message, -, rfl⟩ := Option.map_eq_some_iff.1 h
  exact utf8ByteSize_truncate_le hmark message

/-- Cutting makes no record longer. -/
theorem payloadLen_cut_le (hmark : truncationMark.utf8ByteSize ≤ max) (r : LogRecord) :
    (cut max r).payloadLen ≤ r.payloadLen := by
  cases hmessage : r.message with
  | none => simp [cut, LogRecord.payloadLen, hmessage]
  | some text =>
    simpa [cut, LogRecord.payloadLen, hmessage] using utf8ByteSize_truncate_le_self hmark text

/-- A record that is cut is longer than a message by the name of its state at most. -/
theorem payloadLen_cut_le_add (hmark : truncationMark.utf8ByteSize ≤ max) (r : LogRecord) :
    (cut max r).payloadLen ≤ (r.state.map String.utf8ByteSize).getD 0 + max := by
  rw [LogRecord.payloadLen, Nat.add_comm, show (cut max r).state = r.state from rfl]
  refine Nat.add_le_add_left ?_ _
  cases hmessage : (cut max r).message with
  | none => exact Nat.zero_le max
  | some text => exact utf8ByteSize_of_cut hmark hmessage

/-- A line is read as a record and cut: both bounds hold. -/
theorem moderate_cut (hmark : truncationMark.utf8ByteSize ≤ max) (now : Int64) (line : String) :
    Moderate max line (cut max (GuestLine.parse now line)) := by
  have hadd := payloadLen_cut_le_add hmark (GuestLine.parse now line)
  refine ⟨fun _ => utf8ByteSize_of_cut hmark,
    (payloadLen_cut_le hmark _).trans (GuestLine.payloadLen_parse_le now line),
    fun hkind => ?_, fun name hname => ?_⟩
  · rw [(GuestLine.said_parse now line).state_eq_none hkind] at hadd
    simpa using hadd
  · rw [show (GuestLine.parse now line).state = some name from hname] at hadd
    exact hadd

/-! ### Channels -/

namespace Channel

variable {b : Bounds} {c c' : Channel} {put : Option LogRecord} {P Q : LogRecord → Prop}

/-- What an event can make of a channel into which it puts a record or none. -/
inductive Turns (b : Bounds) (put : Option LogRecord) (c : Channel) : Channel → Prop
  /-- It stays as it is. -/
  | stay : Turns b put c c
  /-- The record is put into it. -/
  | push {r : LogRecord} : put = some r → Turns b put c (c.push b r)
  /-- It is closed. -/
  | close : Turns b put c c.close
  /-- Somebody begins to follow it. -/
  | follow : Turns b put c c.follow.2
  /-- A follower has gone. -/
  | leave : Turns b put c c.leave

/-- There is room in the queue, and the queue and the buffer have records of some kind only. -/
structure Holds (P : LogRecord → Prop) (c : Channel) : Prop where
  /-- There is room in the queue. -/
  capacity : 0 < c.capacity
  /-- The records of the buffer have the property. -/
  buffer : ∀ r ∈ c.buffer, P r
  /-- Those of the queue have it. -/
  queue : ∀ r ∈ c.queue, P r

/-- What is left in a buffer was in it before. -/
theorem evict_isSuffix (b : Bounds) (bytes : Nat) (l : List LogRecord) :
    (evict b bytes l).2 <:+ l := by
  fun_induction evict b bytes l with
  | case1 | case2 | case4 => exact List.suffix_rfl
  | case3 bytes r s rest hout ih => exact ih.trans (List.suffix_cons ..)

theorem lastOf_isSuffix (n : Nat) (l : List LogRecord) : lastOf n l <:+ l := List.drop_suffix ..

/-- The last record is never left out of the buffer. -/
theorem getLast?_evict (b : Bounds) (bytes : Nat) (l : List LogRecord) :
    (evict b bytes l).2.getLast? = l.getLast? := by
  fun_induction evict b bytes l with
  | case1 | case2 | case4 => rfl
  | case3 bytes r s rest hout ih => rw [ih, List.getLast?_cons_cons]

/-- Nor is it left out of a queue that there is. -/
theorem getLast?_lastOf {n : Nat} (hn : 0 < n) (l : List LogRecord) :
    (lastOf n l).getLast? = l.getLast? := by
  obtain rfl | ⟨init, last, rfl⟩ := List.eq_nil_or_concat' l
  · simp [lastOf]
  · rw [lastOf, List.drop_append_of_le_length (by simp; omega), List.getLast?_concat,
      List.getLast?_concat]

/-- A property of all records holds after one more that has it. -/
theorem mem_concat {l : List LogRecord} {r s : LogRecord} (hl : ∀ r ∈ l, P r) (hr : P r)
    (hs : s ∈ l ++ [r]) : P s := by
  rcases List.mem_append.1 hs with h | h
  · exact hl s h
  · exact List.mem_singleton.1 h ▸ hr

namespace Holds

theorem new {capacity : Nat} (h : 0 < capacity) : (Channel.new capacity).Holds P :=
  ⟨h, nofun, nofun⟩

/-- A weaker property holds too. -/
theorem mono (h : c.Holds P) (hPQ : ∀ r, P r → Q r) : c.Holds Q :=
  ⟨h.capacity, fun r hr => hPQ r (h.buffer r hr), fun r hr => hPQ r (h.queue r hr)⟩

/-- A record with the property is put in. -/
theorem push (h : c.Holds P) {r : LogRecord} (hr : P r) : (c.push b r).Holds P := by
  have hbuffer : ∀ s ∈ (evict b (c.bytes + r.payloadLen) (c.buffer ++ [r])).2, P s :=
    fun s hs => mem_concat h.buffer hr ((evict_isSuffix ..).subset hs)
  cases hopen : c.isOpen with
  | true =>
    rw [push_of_open hopen]
    exact ⟨h.capacity, hbuffer,
      fun s hs => mem_concat h.queue hr ((lastOf_isSuffix ..).subset hs)⟩
  | false =>
    rw [push_of_closed hopen]
    exact ⟨h.capacity, hbuffer, h.queue⟩

/-- A channel goes on holding such records only, if such a record is put into it. -/
theorem turns (h : c.Holds P) (ht : c.Turns b put c') (hput : ∀ r, put = some r → P r) :
    c'.Holds P := by
  cases ht with
  | stay => exact h
  | push hr => exact h.push (hput _ hr)
  | close | leave => exact ⟨h.capacity, h.buffer, h.queue⟩
  | follow =>
    rw [Channel.follow]
    split
    · exact ⟨h.capacity, h.buffer, h.queue⟩
    · exact h

/-- A record that is put into a channel is the newest one in its buffer, and in its queue while
    the channel is open. -/
theorem getLast?_push (h : c.Holds P) (b : Bounds) (r : LogRecord) :
    (c.push b r).buffer.getLast? = some r ∧
      (c.isOpen = true → (c.push b r).queue.getLast? = some r) := by
  have hbuffer := getLast?_evict b (c.bytes + r.payloadLen) (c.buffer ++ [r])
  have hqueue := getLast?_lastOf h.capacity (c.queue ++ [r])
  rw [List.getLast?_concat] at hbuffer hqueue
  cases hopen : c.isOpen with
  | true =>
    rw [push_of_open hopen]
    exact ⟨hbuffer, fun _ => hqueue⟩
  | false =>
    rw [push_of_closed hopen]
    exact ⟨hbuffer, nofun⟩

end Holds

end Channel

/-! ### All channels -/

namespace Broadcast

variable {b : Broadcast} {e : Event} {events : List Event} {n : Nat} {c' : Channel}

/-- The record that an event puts into a channel. -/
def Event.put? (max n : Nat) : Event → Option LogRecord
  | .push w r => if w.channel = n then some (cut max r) else none
  | .note k now message => if k = n then some (.system now message) else none
  | _ => none

/-- Events open and change channels, and nothing else of the consoles. -/
theorem hub_step (b : Broadcast) (e : Event) :
    ∃ channels current, (b.step e).hub = { b.hub with channels, current } := by
  cases e with
  | openFor id =>
    rw [show (b.step (.openFor id)).hub = (b.hub.openFor id).2 from rfl, Hub.openFor]
    split <;> exact ⟨_, _, rfl⟩
  | push | note | close => exact ⟨_, _, rfl⟩
  | remove id =>
    simp only [step, Hub.remove]
    split <;> exact ⟨_, _, rfl⟩
  | subscribe | next =>
    rw [step]
    repeat' split
    all_goals exact ⟨_, _, rfl⟩
  | leave k =>
    simp only [step, Hub.unsubscribe]
    repeat' split
    all_goals exact ⟨_, _, rfl⟩

/-- The settings of the consoles never change. -/
theorem hub_play (config : ConsoleConfig) (events : List Event) :
    ∃ channels current,
      ((start config).play events).hub = { Hub.new config with channels, current } :=
  play_induct (P := fun b => ∃ channels current, b.hub = { Hub.new config with channels, current })
    (fun b e hb => by
      obtain ⟨channels, current, hhub⟩ := hub_step b e
      obtain ⟨_, _, hb⟩ := hb
      exact ⟨channels, current, by rw [hhub, hb]⟩)
    ⟨_, _, rfl⟩ events

/-- A channel that is changed turns, and others stay. -/
theorem turns_modify {channels : Table Nat Channel} {bounds : Bounds} {put : Option LogRecord}
    {f : Channel → Channel} {k : Nat} (hf : ∀ c : Channel, k = n → c.Turns bounds put (f c))
    (hc' : (channels.modify k f).find? n = some c') :
    ∃ c, channels.find? n = some c ∧ c.Turns bounds put c' := by
  by_cases hk : n = k
  · subst hk
    rw [Table.find?_modify_self] at hc'
    obtain ⟨c, hc, rfl⟩ := Option.map_eq_some_iff.1 hc'
    exact ⟨c, hc, hf c rfl⟩
  · rw [Table.find?_modify_of_ne _ _ hk] at hc'
    exact ⟨c', hc', .stay⟩

/-- A channel is new after an event, or it was there and has turned. -/
theorem turns_of_step (hc' : (b.step e).hub.channels.find? n = some c') :
    c' = .new b.hub.capacity ∨ ∃ c, b.hub.channels.find? n = some c ∧
      c.Turns b.hub.bounds (e.put? b.hub.maxMessage n) c' := by
  cases e with
  | openFor id =>
    rw [show (b.step (.openFor id)).hub = (b.hub.openFor id).2 from rfl, Hub.openFor] at hc'
    split at hc'
    · exact .inr ⟨c', hc', .stay⟩
    · by_cases hn : n = b.hub.channels.size
      · subst hn
        rw [Table.find?_insert_self] at hc'
        exact .inl (Option.some.inj hc').symm
      · rw [Table.find?_insert_of_ne _ _ hn] at hc'
        exact .inr ⟨c', hc', .stay⟩
  | push w r => exact .inr (turns_modify (fun _ hw => .push (if_pos hw)) hc')
  | note k now message => exact .inr (turns_modify (fun _ hk => .push (if_pos hk)) hc')
  | close k => exact .inr (turns_modify (fun _ _ => .close) hc')
  | remove id =>
    simp only [step, Hub.remove] at hc'
    split at hc'
    · exact .inr (turns_modify (fun _ _ => .close) hc')
    · exact .inr ⟨c', hc', .stay⟩
  | subscribe k j =>
    simp only [step] at hc'
    split at hc'
    · exact .inr ⟨c', hc', .stay⟩
    · split at hc'
      · exact .inr ⟨c', hc', .stay⟩
      · rename_i c hc
        by_cases hn : n = j
        · subst hn
          rw [Table.find?_insert_self] at hc'
          exact .inr ⟨c, hc, Option.some.inj hc' ▸ .follow⟩
        · rw [Table.find?_insert_of_ne _ _ hn] at hc'
          exact .inr ⟨c', hc', .stay⟩
  | next k =>
    rw [step] at hc'
    refine .inr ⟨c', ?_, .stay⟩
    repeat' split at hc'
    all_goals exact hc'
  | leave k =>
    simp only [step, Hub.unsubscribe] at hc'
    split at hc'
    · exact .inr ⟨c', hc', .stay⟩
    · split at hc'
      · exact .inr ⟨c', hc', .stay⟩
      · exact .inr (turns_modify (fun _ _ => .leave) hc')

/-- A queue has room for one record at least. -/
theorem queueCapacity_pos (n : Nat) : 0 < queueCapacity n := by
  rw [queueCapacity]
  split
  · exact Nat.one_pos
  · rw [Nat.one_shiftLeft]
    exact Nat.two_pow_pos _

/-- In every run, what a channel holds was put into it by one of the events. -/
theorem holds_of_play (config : ConsoleConfig) (events : List Event) {c : Channel}
    (hc : ((start config).play events).hub.channels.find? n = some c) :
    c.Holds fun r => ∃ e ∈ events, e.put? config.maxLineLength.toNat n = some r := by
  induction events using List.reverseRecOn generalizing c with
  | nil => cases hc
  | append_singleton events e ih =>
    obtain ⟨_, _, hhub⟩ := hub_play config events
    rw [play, List.foldl_append] at hc
    rcases turns_of_step hc with rfl | ⟨d, hd, hturns⟩
    · rw [show (events.foldl step (start config)).hub = _ from hhub]
      exact .new (queueCapacity_pos _)
    · rw [show (events.foldl step (start config)).hub = _ from hhub] at hturns
      refine ((ih hd).mono fun r hr => ?_).turns hturns fun r hr => ?_
      · obtain ⟨e', he', hr⟩ := hr
        exact ⟨e', List.mem_append_left _ he', hr⟩
      · exact ⟨e, List.mem_append_right _ (List.mem_singleton_self e), hr⟩

end Broadcast

/-! ### Settings -/

/-- A message of a configuration that is not refused has room for the mark. -/
theorem mark_le_of_validate {config : NodeConfig} (h : config.validate = .ok ()) :
    truncationMark.utf8ByteSize ≤ config.console.maxLineLength.toNat := by
  have hflaw : config.flaw? = none := by
    rw [NodeConfig.validate] at h
    cases hf : config.flaw? with
    | none => rfl
    | some flaw =>
      rw [hf] at h
      cases h
  have hlength : ¬ config.console.maxLineLength < minLineLength := fun hshort => by
    simp only [NodeConfig.flaw?, if_pos hshort] at hflaw
    repeat' split at hflaw
    all_goals cases hflaw
  have hmin : truncationMark.utf8ByteSize ≤ minLineLength.toNat := by decide
  exact hmin.trans (UInt64.le_iff_toNat_le.1 (UInt64.not_lt.1 hlength))

/-- What lines take up on the consoles of a node with these settings. -/
structure Restrained (config : ConsoleConfig) : Prop where
  /-- The record of a line is moderate once its message is cut. -/
  moderate : ∀ now line, Moderate config.maxLineLength.toNat line
    (cut config.maxLineLength.toNat (GuestLine.parse now line))
  /-- This is the record that a writer puts into its channel, whatever was done before. -/
  pushed : ∀ events n c, ((Broadcast.start config).play events).hub.channels.find? n = some c →
    ∀ (w : Writer) (now : Int64) (line : String), w.channel = n →
      ∃ c', (((Broadcast.start config).play events).hub.pushLine now w line).channels.find? n =
          some c' ∧
        c'.buffer.getLast? = some (cut config.maxLineLength.toNat (GuestLine.parse now line)) ∧
        (c.isOpen = true → c'.queue.getLast? =
          some (cut config.maxLineLength.toNat (GuestLine.parse now line)))
  /-- No channel has other records than those that were cut and the notes of the node. -/
  kept : ∀ events n c, ((Broadcast.start config).play events).hub.channels.find? n = some c →
    ∀ r, r ∈ c.buffer ∨ r ∈ c.queue →
      ∃ e ∈ events, e.put? config.maxLineLength.toNat n = some r

/-- With settings that are not refused, a line takes up no more than a message may, unless it is
    a report that is longer itself. -/
theorem restrained_of_validate (config : NodeConfig) (h : config.validate = .ok ()) :
    Restrained config.console where
  moderate := moderate_cut (mark_le_of_validate h)
  pushed events n c hc w now line hw := by
    subst hw
    obtain ⟨_, _, hhub⟩ := Broadcast.hub_play config.console events
    have hlast := (Broadcast.holds_of_play config.console events hc).getLast?_push
      ((Broadcast.start config.console).play events).hub.bounds
      (cut config.console.maxLineLength.toNat (GuestLine.parse now line))
    refine ⟨_, ?_, hlast⟩
    rw [Hub.pushLine, Hub.push, Hub.update, Table.find?_modify_self, hc,
      show ((Broadcast.start config.console).play events).hub.maxMessage =
        config.console.maxLineLength.toNat by rw [hhub]; rfl]
    rfl
  kept events n c hc r hr := by
    have hholds := Broadcast.holds_of_play config.console events hc
    exact hr.elim (hholds.buffer r) (hholds.queue r)

/-- Messages are no longer than they have to be allowed to be. -/
def tight : NodeConfig := { console := { maxLineLength := minLineLength } }

/-- A line of output that is longer by one byte is cut. -/
theorem restrained_tight : tight.validate = .ok () ∧ Restrained tight.console ∧
    (cut 64 (GuestLine.parse 1 (String.ofList (List.replicate 65 'x')))).payloadLen ≤ 64 := by
  have hvalid : tight.validate = .ok () := by decide +kernel
  have hrestrained := restrained_of_validate tight hvalid
  exact ⟨hvalid, hrestrained, (hrestrained.moderate 1 _).text (by decide +kernel)⟩

/-- A report whose name is longer by one byte. -/
def wordy : String := "##fcnode:state:" ++ String.ofList (List.replicate 65 'x')

/-- The name is not cut: all of it is in the buffer, and all of it is sent. -/
theorem unrestrained_wordy : tight.validate = .ok () ∧ ∃ c r,
    (((Broadcast.start tight.console).play [.openFor "i-1", .subscribe 0 0]).hub.pushLine 1
      ⟨"i-1", 0⟩ wordy).channels.find? 0 = some c ∧ c.buffer = [r] ∧ c.queue = [r] ∧
      tight.console.maxLineLength.toNat < r.payloadLen := by
  let c := ((((Broadcast.start tight.console).play [.openFor "i-1", .subscribe 0 0]).hub.pushLine 1
    ⟨"i-1", 0⟩ wordy).channels.find? 0).get (by decide +kernel)
  exact ⟨by decide +kernel, c, GuestLine.parse 1 wordy, (Option.some_get _).symm,
    by decide +kernel, by decide +kernel, by decide +kernel⟩

end Console

end VmNode
