import VmNode.Console.Broadcast
import VmNode.Proofs.Console.Window
import VmNode.Proofs.Tally

/-!
# Channels and what was put into them

Whatever is done to the consoles of a node, each channel shows what was put into it
(`Chronicle.Shows`): its buffer has the newest of all records, its counter is that of the
buffer, and its queue has the last of the records that came before the channel was closed.
One lemma for each operation on a channel says that it goes on doing so, and
`Broadcast.Sound.step` says so of all channels of a node and of every event.

Main statement: in every run the snapshot of a console is the most of the last records that
the bounds admit (`Broadcast.newest_of_play`).
-/

namespace VmNode

/-! ### Tables that agree -/

/-- Two tables have the same keys, with values that belong together. -/
def Table.Agree {κ α β : Type} [Ord κ] (R : α → β → Prop) (u : Table κ α) (v : Table κ β) : Prop :=
  ∀ k, Option.Rel R (u.find? k) (v.find? k)

namespace Table.Agree

variable {κ α β : Type} [Ord κ] [Std.TransOrd κ] [Std.LawfulEqOrd κ]
variable {R : α → β → Prop} {u : Table κ α} {v : Table κ β} {k : κ} {a : α} {b : β}

omit [Std.TransOrd κ] [Std.LawfulEqOrd κ] in
/-- What the left table has, the right one has too, with a value that belongs to it. -/
theorem find? (h : u.Agree R v) (ha : u.find? k = some a) : ∃ b, v.find? k = some b ∧ R a b := by
  have hk := h k
  rw [ha] at hk
  cases hv : v.find? k with
  | none =>
    rw [hv] at hk
    cases hk
  | some b =>
    rw [hv] at hk
    cases hk with
    | some hab => exact ⟨b, rfl, hab⟩

omit [Std.TransOrd κ] [Std.LawfulEqOrd κ] in
/-- And the other way round. -/
theorem find?_right (h : u.Agree R v) (hb : v.find? k = some b) :
    ∃ a, u.find? k = some a ∧ R a b := by
  have hk := h k
  rw [hb] at hk
  cases hu : u.find? k with
  | none =>
    rw [hu] at hk
    cases hk
  | some a =>
    rw [hu] at hk
    cases hk with
    | some hab => exact ⟨a, rfl, hab⟩

omit [Std.TransOrd κ] [Std.LawfulEqOrd κ] in
/-- Either both tables have the key or neither has. -/
theorem both_or_neither (h : u.Agree R v) (k : κ) :
    (u.find? k = none ∧ v.find? k = none) ∨
      ∃ a b, u.find? k = some a ∧ v.find? k = some b ∧ R a b := by
  cases hu : u.find? k with
  | none =>
    cases hv : v.find? k with
    | none => exact .inl ⟨rfl, rfl⟩
    | some b =>
      obtain ⟨a, ha, -⟩ := h.find?_right hv
      rw [hu] at ha
      cases ha
  | some a =>
    obtain ⟨b, hb, hab⟩ := h.find? hu
    exact .inr ⟨a, b, rfl, hb, hab⟩

/-- Values that belong together go into both tables at once. -/
theorem insert (h : u.Agree R v) (hab : R a b) (k : κ) : (u.insert k a).Agree R (v.insert k b) :=
  fun j => by
    by_cases hj : j = k
    · rw [hj, Table.find?_insert_self, Table.find?_insert_self]
      exact .some hab
    · rw [Table.find?_insert_of_ne _ _ hj, Table.find?_insert_of_ne _ _ hj]
      exact h j

/-- Both tables are changed at a key in ways that go together. -/
theorem modify (h : u.Agree R v) {f : α → α} {g : β → β} (hfg : ∀ a b, R a b → R (f a) (g b))
    (k : κ) : (u.modify k f).Agree R (v.modify k g) := fun j => by
  by_cases hj : j = k
  · rw [hj, Table.find?_modify_self, Table.find?_modify_self]
    have hk := h k
    generalize u.find? k = x at hk ⊢
    generalize v.find? k = y at hk ⊢
    cases hk with
    | some hab => exact .some (hfg _ _ hab)
    | none => exact .none
  · rw [Table.find?_modify_of_ne _ _ hj, Table.find?_modify_of_ne _ _ hj]
    exact h j

end Table.Agree

namespace Console

/-! ### One channel -/

namespace Channel

variable {b : Bounds} {c : Channel}

/-- A record goes to the buffer and to the queue of an open channel. -/
theorem push_of_open (h : c.isOpen = true) (r : LogRecord) :
    c.push b r = { c with
      bytes := (evict b (c.bytes + r.payloadLen) (c.buffer ++ [r])).1
      buffer := (evict b (c.bytes + r.payloadLen) (c.buffer ++ [r])).2
      sent := c.sent + 1
      queue := lastOf c.capacity (c.queue ++ [r]) } := by
  rw [push]
  exact if_pos h

/-- It goes to the buffer of one that is closed. -/
theorem push_of_closed (h : c.isOpen = false) (r : LogRecord) :
    c.push b r = { c with
      bytes := (evict b (c.bytes + r.payloadLen) (c.buffer ++ [r])).1
      buffer := (evict b (c.bytes + r.payloadLen) (c.buffer ++ [r])).2 } := by
  rw [push]
  exact if_neg (by rw [h]; exact Bool.false_ne_true)

end Channel

namespace Chronicle

variable {b : Bounds} {h : Chronicle} {c : Channel} {r : LogRecord}

/-- The channel shows what was put into it. -/
structure Shows (b : Bounds) (h : Chronicle) (c : Channel) : Prop where
  /-- The buffer has the newest of all records. -/
  newest : b.Newest h.records c.buffer
  /-- The counter is that of the buffer. -/
  bytes : c.bytes = payload c.buffer
  /-- As many records were sent as came in before the channel was closed. -/
  sent : c.sent = h.aired.length
  /-- The queue has the last of them. -/
  queue : c.queue <:+ h.aired
  /-- It is open as long as nobody has closed it. -/
  isOpen : c.isOpen = h.closedAt.isNone
  /-- It was closed when some of the records were there. -/
  closedAt : ∀ n, h.closedAt = some n → n ≤ h.records.length

/-- As long as a channel is open, whatever is put into it is sent. -/
theorem aired_of_open (ho : h.closedAt = none) : h.aired = h.records := by
  rw [aired, ho, Option.getD_none, List.take_length]

/-- One more record of an open channel is sent. -/
theorem aired_add_of_open (ho : h.closedAt = none) : (h.add r).aired = h.aired ++ [r] := by
  rw [aired_of_open ho, aired_of_open (show (h.add r).closedAt = none from ho)]
  rfl

/-- One more record of a closed channel is not. -/
theorem aired_add_of_closed {n : Nat} (hc : h.closedAt = some n) (hn : n ≤ h.records.length) :
    (h.add r).aired = h.aired := by
  rw [aired, aired, show (h.add r).closedAt = some n from hc, hc]
  exact List.take_append_of_le_length hn

/-- Closing a channel takes nothing of what was sent away. -/
theorem aired_close : h.close.aired = h.aired := by
  rw [aired, aired, close]
  cases h.closedAt <;> rfl

namespace Shows

/-- A new channel shows that nothing was put into it. -/
theorem new (b : Bounds) (capacity : Nat) : Shows b .empty (.new capacity) :=
  ⟨.of_admits ⟨Nat.zero_le _, Nat.zero_le _⟩, rfl, rfl, List.suffix_rfl, rfl, nofun⟩

/-- A record is put into the channel: the buffer is cut down to the newest again, and the queue
    moves on if the channel is open. -/
theorem push (hs : h.Shows b c) (r : LogRecord) : (h.add r).Shows b (c.push b r) := by
  have hcount : c.bytes + r.payloadLen = payload (c.buffer ++ [r]) := by
    rw [payload_append, hs.bytes]
    rfl
  -- the counter is right before the cut, so it is right after it
  obtain ⟨hnewest, hbytes⟩ := Channel.newest_evict (b := b) hcount
  have hnewest := hs.newest.concat hnewest
  have hlength : ∀ n, (h.add r).closedAt = some n → n ≤ (h.add r).records.length := fun n hn =>
    (hs.closedAt n hn).trans (by simp [add])
  have hopen := hs.isOpen
  cases hclosed : h.closedAt with
  | none =>
    rw [hclosed] at hopen
    rw [Channel.push_of_open hopen]
    refine ⟨hnewest, hbytes, ?_, ?_, hs.isOpen, hlength⟩
    · rw [aired_add_of_open hclosed, List.length_append, ← hs.sent]
      rfl
    · -- the queue has the last of what it had and the new record
      rw [aired_add_of_open hclosed]
      obtain ⟨older, hqueue⟩ := hs.queue
      refine (List.drop_suffix ..).trans ⟨older, ?_⟩
      rw [← List.append_assoc, hqueue]
  | some n =>
    -- nothing more is sent, so only the buffer has changed
    rw [hclosed] at hopen
    rw [Channel.push_of_closed hopen]
    have haired : (h.add r).aired = h.aired := aired_add_of_closed hclosed (hs.closedAt n hclosed)
    exact ⟨hnewest, hbytes, haired ▸ hs.sent, haired ▸ hs.queue, hs.isOpen, hlength⟩

theorem close (hs : h.Shows b c) : h.close.Shows b c.close := by
  refine ⟨hs.newest, hs.bytes, hs.sent.trans (congrArg List.length aired_close.symm),
    hs.queue.trans (aired_close ▸ List.suffix_rfl), ?_, fun n hn => ?_⟩
  · rw [Chronicle.close]
    cases h.closedAt <;> rfl
  · rw [Chronicle.close] at hn
    cases hclosed : h.closedAt with
    | none =>
      rw [hclosed] at hn
      exact (Option.some.inj hn) ▸ Nat.le_refl _
    -- a channel that is closed once more was closed when it was first
    | some k => exact hs.closedAt n (by rw [← hn, hclosed]; rfl)

/-- Who follows a channel makes no difference to what it shows. -/
theorem follow (hs : h.Shows b c) : h.Shows b c.follow.2 := by
  rw [Channel.follow]
  split
  · exact ⟨hs.newest, hs.bytes, hs.sent, hs.queue, hs.isOpen, hs.closedAt⟩
  · exact hs

theorem leave (hs : h.Shows b c) : h.Shows b c.leave :=
  ⟨hs.newest, hs.bytes, hs.sent, hs.queue, hs.isOpen, hs.closedAt⟩

end Shows

end Chronicle

/-! ### All channels -/

namespace Hub

variable (h : Hub)

theorem bounds_openFor (id : InstanceId) : (h.openFor id).2.bounds = h.bounds := by
  rw [openFor]
  split <;> rfl

theorem bounds_remove (id : InstanceId) : (h.remove id).bounds = h.bounds := by
  rw [remove]
  split <;> rfl

theorem bounds_unsubscribe (s : Subscription) : (h.unsubscribe s).bounds = h.bounds := by
  rw [unsubscribe]
  split <;> rfl

end Hub

namespace Broadcast

variable {b : Broadcast} {e : Event} {n : Nat}

/-- What every event keeps, all events that follow each other keep. -/
theorem play_induct {P : Broadcast → Prop} (hstep : ∀ b e, P b → P (b.step e)) (hb : P b)
    (events : List Event) : P (b.play events) := by
  induction events generalizing b with
  | nil => exact hb
  | cons e rest ih => exact ih (hstep b e hb)

/-- The bounds stay what they are. -/
theorem bounds_step (b : Broadcast) (e : Event) : (b.step e).hub.bounds = b.hub.bounds := by
  cases e with
  | openFor id => exact Hub.bounds_openFor b.hub id
  | push | note | close => rfl
  | remove id => exact Hub.bounds_remove b.hub id
  | subscribe | next =>
    rw [step]
    repeat' split
    all_goals rfl
  | leave k =>
    rw [step]
    split
    · rfl
    · exact Hub.bounds_unsubscribe ..

/-- Nor do any number of events change the bounds. -/
theorem bounds_play (c : ConsoleConfig) (events : List Event) :
    ((start c).play events).hub.bounds = ⟨c.bufferLines.toNat, c.bufferBytes.toNat⟩ :=
  play_induct (P := fun b => b.hub.bounds = _) (fun b e hb => (bounds_step b e).trans hb) rfl events

/-- All channels show what was put into them. -/
structure Sound (b : Broadcast) : Prop where
  /-- Channels are numbered in the order in which they were opened. -/
  numbered : b.hub.channels.IsNumbered
  /-- A console has one of them. -/
  current : ∀ id n, b.hub.current.find? id = some n → (b.hub.channels.find? n).isSome = true
  /-- Each shows what was put into it. -/
  agree : b.hub.channels.Agree (fun c h => h.Shows b.hub.bounds c) b.chronicles

theorem sound_start (c : ConsoleConfig) : (start c).Sound :=
  ⟨Table.isNumbered_empty, nofun, fun _ => .none⟩

namespace Sound

/-- Something is done to a channel, and to its chronicle. -/
theorem modify (hb : b.Sound) {f : Channel → Channel} {g : Chronicle → Chronicle}
    (hfg : ∀ c h, h.Shows b.hub.bounds c → (g h).Shows b.hub.bounds (f c)) (n : Nat)
    {current : Table InstanceId Nat}
    (hcurrent : ∀ id m, current.find? id = some m → b.hub.current.find? id = some m)
    (listeners : Table Nat Listener) :
    Sound ⟨{ b.hub.update n f with current }, b.chronicles.modify n g, listeners⟩ := by
  refine ⟨hb.numbered.modify n f, fun id m hm => ?_, hb.agree.modify hfg n⟩
  have hsome := hb.current id m (hcurrent id m hm)
  by_cases hmn : m = n
  · subst hmn
    simpa only [Hub.update, Table.find?_modify_self, Option.isSome_map] using hsome
  · simpa only [Hub.update, Table.find?_modify_of_ne _ _ hmn] using hsome

/-- Something is done to a channel that makes no difference to what it shows. -/
theorem replace (hb : b.Sound) {c c' : Channel} (hc : b.hub.channels.find? n = some c)
    (hc' : ∀ h : Chronicle, h.Shows b.hub.bounds c → h.Shows b.hub.bounds c')
    (listeners : Table Nat Listener) :
    Sound ⟨{ b.hub with channels := b.hub.channels.insert n c' }, b.chronicles, listeners⟩ := by
  refine ⟨hb.numbered.insert (by rw [hc]; rfl) c', fun id m hm => ?_, fun m => ?_⟩
  · by_cases hmn : m = n
    · subst hmn
      simp
    · rw [Table.find?_insert_of_ne _ _ hmn]
      exact hb.current id m hm
  · by_cases hmn : m = n
    · obtain ⟨h, hh, hshows⟩ := hb.agree.find? hc
      rw [hmn, Table.find?_insert_self, hh]
      exact .some (hc' h hshows)
    · rw [Table.find?_insert_of_ne _ _ hmn]
      exact hb.agree m

theorem put (hb : b.Sound) (n : Nat) (r : LogRecord) : (b.put n r).Sound :=
  hb.modify (fun _ _ hs => hs.push r) n (fun _ _ h => h) _

/-- A console that is opened has the next channel. -/
theorem openFor (hb : b.Sound) (id : InstanceId) : (b.step (.openFor id)).Sound := by
  rw [step, Hub.openFor]
  cases hid : b.hub.current.find? id with
  | some n =>
    -- the console is there already, and so is the chronicle of its channel
    obtain ⟨c, hc⟩ := Option.isSome_iff_exists.1 (hb.current id n hid)
    obtain ⟨h, hh, -⟩ := hb.agree.find? hc
    have hcontains : b.chronicles.contains n = true := by
      rw [Table.contains, hh]
      rfl
    simp only [hcontains, if_true]
    exact hb
  | none =>
    -- the new channel has a number that nobody has had
    have hnew := hb.numbered.find?_size
    have hcontains : b.chronicles.contains b.hub.channels.size = false := by
      have hk := hb.agree b.hub.channels.size
      rw [hnew] at hk
      rw [Table.contains]
      generalize b.chronicles.find? b.hub.channels.size = x at hk ⊢
      cases hk
      rfl
    simp only [hcontains, Bool.false_eq_true, if_false]
    refine ⟨hb.numbered.insert_size _, fun j m hm => ?_, hb.agree.insert (.new _ _) _⟩
    by_cases hms : m = b.hub.channels.size
    · subst hms
      simp
    · rw [Table.find?_insert_of_ne _ _ hms]
      by_cases hj : j = id
      · rw [hj, Table.find?_insert_self, Option.some.injEq] at hm
        exact absurd hm.symm hms
      · rw [Table.find?_insert_of_ne _ _ hj] at hm
        exact hb.current j m hm

/-- A console that is given up loses its name, and its channel is closed. -/
theorem remove (hb : b.Sound) (id : InstanceId) : (b.step (.remove id)).Sound := by
  rw [step, Hub.remove]
  cases hid : b.hub.current.find? id with
  | none => exact hb
  | some n =>
    refine hb.modify (fun _ _ hs => hs.close) n (fun j m hm => ?_) _
    by_cases hj : j = id
    · rw [hj, Table.find?_erase_self] at hm
      cases hm
    · rwa [Table.find?_erase_of_ne _ hj] at hm

/-- A follower that leaves makes no difference, whether its channel is still there or not. -/
theorem leave (hb : b.Sound) (k : Nat) : (b.step (.leave k)).Sound := by
  rw [step]
  cases hl : b.listeners.find? k with
  | none => exact hb
  | some l =>
    simp only [Hub.unsubscribe]
    split
    · exact ⟨hb.numbered, hb.current, hb.agree⟩
    · rw [Hub.update, Table.modify]
      split
      · exact ⟨hb.numbered, hb.current, hb.agree⟩
      · rename_i c hc
        exact hb.replace hc (fun _ hs => hs.leave) _

/-- Every event leaves all channels as what was put into them says. -/
theorem step (hb : b.Sound) (e : Event) : (b.step e).Sound := by
  cases e with
  | openFor id => exact hb.openFor id
  | push w r => exact hb.put w.channel _
  | note n now message => exact hb.put n _
  | close n => exact hb.modify (fun _ _ hs => hs.close) n (fun _ _ h => h) _
  | remove id => exact hb.remove id
  | subscribe k n =>
    rw [Broadcast.step]
    split
    · exact hb
    · split
      · exact hb
      · rename_i c hc
        exact hb.replace hc (fun _ hs => hs.follow) _
  | next k =>
    rw [Broadcast.step]
    split
    · exact hb
    · split
      · exact hb
      · exact ⟨hb.numbered, hb.current, hb.agree⟩
  | leave k => exact hb.leave k

/-- Hence so does every run. -/
theorem play (hb : b.Sound) (events : List Event) : (b.play events).Sound :=
  play_induct (P := Sound) (fun _ e hb => hb.step e) hb events

end Sound

/-- Whatever is done to the consoles of a node and in whatever order, the buffer of a channel has
    the newest of all records that were ever put into it, and that is what those see who ask for
    it. Its counter is that of the buffer, and remains one however long the next record is. -/
theorem newest_of_play (config : ConsoleConfig) (events : List Event) {n : Nat} {c : Channel}
    (hc : ((start config).play events).hub.channels.find? n = some c) :
    Bounds.Newest ⟨config.bufferLines.toNat, config.bufferBytes.toNat⟩
        (((start config).play events).chronicle n).records c.buffer ∧
      (∀ id, ((start config).play events).hub.current.find? id = some n →
        ((start config).play events).hub.snapshot id = .ok c.buffer) ∧
      c.bytes = payload c.buffer ∧
      ∀ b r, Channel.evict? b (c.bytes + r.payloadLen) (c.buffer ++ [r]) =
        some (Channel.evict b (c.bytes + r.payloadLen) (c.buffer ++ [r])) := by
  have hsound := (sound_start config).play events
  obtain ⟨h, hh, hshows⟩ := hsound.agree.find? hc
  rw [bounds_play] at hshows
  refine ⟨?_, fun id hid => ?_, hshows.bytes, fun b r => Channel.evict?_eq_some ?_⟩
  · rw [chronicle, hh]
    exact hshows.newest
  · simp only [Hub.snapshot, Hub.lookUp, Hub.channel?, hid, hc, Option.bind_some, Option.map_some]
    rfl
  · rw [payload_append, hshows.bytes]
    rfl

/-- A guest prints more than a small buffer holds, the node notes that it has stopped, and one
    more line, longer than the buffer, comes in after that. -/
def chatter : List Event :=
  [.openFor "i-1", .push ⟨"i-1", 0⟩ (.stdout 1 "boot"), .push ⟨"i-1", 0⟩ (.report 2 "up" none),
    .push ⟨"i-1", 0⟩ (.stdout 3 ""), .note 0 4 "stopped", .close 0,
    .push ⟨"i-1", 0⟩ (.stderr 5 "out of memory")]

/-- The line is kept, and nothing else. -/
theorem newest_chatter : ∃ c, ((start ⟨3, 10, 2, 64⟩).play chatter).hub.channels.find? 0 = some c ∧
    c.buffer = [.stderr 5 "out of memory"] ∧ c.bytes = 13 ∧
    Bounds.Newest ⟨3, 10⟩ (((start ⟨3, 10, 2, 64⟩).play chatter).chronicle 0).records c.buffer := by
  let c := (((start ⟨3, 10, 2, 64⟩).play chatter).hub.channels.find? 0).get (by decide +kernel)
  have hc : ((start ⟨3, 10, 2, 64⟩).play chatter).hub.channels.find? 0 = some c :=
    (Option.some_get _).symm
  exact ⟨c, hc, by decide +kernel, by decide +kernel, (newest_of_play ⟨3, 10, 2, 64⟩ chatter hc).1⟩

end Broadcast

end Console

end VmNode
