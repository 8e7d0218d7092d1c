import VmNode.Proofs.Console.Broadcast

/-!
# Consoles and those who follow them

Who follows a console makes no difference to what it shows, nor to what others get who follow it.

Two runs are compared through what someone sees of them (`Event.seenBy`): all that is done to
the consoles, and of what followers do only what the one does who looks, if it is one. Consoles
are alike if they have all in common but the number of their followers (`Hub.Alike`), and
everything that is done to both leaves them so. An event of another follower is done to one side
only, and that leaves them so too.

Main statement: to leave out of a run what someone does not see changes nothing that is seen
(`Broadcast.Alike.play`).
-/

namespace VmNode.Console

/-! ### Channels that differ in their followers -/

/-- The channels have all in common but the number of those who follow them. -/
def Channel.Alike (c d : Channel) : Prop := ∃ n, d = { c with followers := n }

namespace Channel.Alike

variable {b : Bounds} {c d e : Channel}

theorem refl (c : Channel) : c.Alike c := ⟨c.followers, rfl⟩

/-- Which of the two comes first makes no difference. -/
theorem symm (h : c.Alike d) : d.Alike c := by
  obtain ⟨n, rfl⟩ := h
  exact ⟨c.followers, rfl⟩

theorem trans (h : c.Alike d) (h' : d.Alike e) : c.Alike e := by
  obtain ⟨n, rfl⟩ := h
  obtain ⟨m, rfl⟩ := h'
  exact ⟨m, rfl⟩

/-- They have the same records. -/
theorem buffer_eq (h : c.Alike d) : d.buffer = c.buffer := by
  obtain ⟨n, rfl⟩ := h
  rfl

/-- A record that is put into both leaves them alike. -/
theorem push (h : c.Alike d) (r : LogRecord) : (c.push b r).Alike (d.push b r) := by
  obtain ⟨n, rfl⟩ := h
  rw [Channel.push, Channel.push]
  cases c.isOpen with
  | true => exact ⟨n, rfl⟩
  | false => exact ⟨n, rfl⟩

theorem close (h : c.Alike d) : c.close.Alike d.close := by
  obtain ⟨n, rfl⟩ := h
  exact ⟨n, rfl⟩

/-- A follower of either begins at the same place. -/
theorem cursor_follow (h : c.Alike d) : d.follow.1 = c.follow.1 := by
  obtain ⟨n, rfl⟩ := h
  rw [Channel.follow, Channel.follow]
  split <;> rfl

/-- One more follower leaves a channel alike. -/
theorem follow (c : Channel) : c.Alike c.follow.2 := by
  rw [Channel.follow]
  split
  · exact ⟨_, rfl⟩
  · exact refl c

theorem leave (c : Channel) : c.Alike c.leave := ⟨_, rfl⟩

/-- What is next is the same on both. -/
theorem next_eq (h : c.Alike d) (cursor : Cursor) : d.next cursor = c.next cursor := by
  obtain ⟨n, rfl⟩ := h
  rfl

end Channel.Alike

/-! ### Consoles that differ in the followers -/

/-- The consoles have all in common but the followers of the channels. -/
structure Hub.Alike (h g : Hub) : Prop where
  /-- The bounds of the buffers. -/
  bounds : g.bounds = h.bounds
  /-- The length of the queues. -/
  capacity : g.capacity = h.capacity
  /-- How long a line may be. -/
  maxMessage : g.maxMessage = h.maxMessage
  /-- Which console has which channel. -/
  current : g.current = h.current
  /-- The channels, but for the followers. -/
  channels : h.channels.Agree Channel.Alike g.channels

namespace Hub.Alike

variable {h g k : Hub} {n : Nat} {c d : Channel}

theorem refl (h : Hub) : h.Alike h :=
  ⟨rfl, rfl, rfl, rfl, fun n => by
    cases h.channels.find? n with
    | none => exact .none
    | some c => exact .some (.refl c)⟩

theorem symm (hg : h.Alike g) : g.Alike h := by
  refine ⟨hg.bounds.symm, hg.capacity.symm, hg.maxMessage.symm, hg.current.symm, fun n => ?_⟩
  rcases hg.channels.both_or_neither n with ⟨hx, hy⟩ | ⟨c, d, hx, hy, hcd⟩
  · rw [hx, hy]
    exact .none
  · rw [hx, hy]
    exact .some hcd.symm

theorem trans (hg : h.Alike g) (hk : g.Alike k) : h.Alike k := by
  refine ⟨hk.bounds.trans hg.bounds, hk.capacity.trans hg.capacity,
    hk.maxMessage.trans hg.maxMessage, hk.current.trans hg.current, fun n => ?_⟩
  have hgk := hk.channels n
  -- the channel is on all three or on none
  rcases hg.channels.both_or_neither n with ⟨hx, hy⟩ | ⟨c, d, hx, hy, hcd⟩
  · rw [hy] at hgk
    rwa [hx]
  · obtain ⟨e, he, hde⟩ := hk.channels.find? hy
    rw [hx, he]
    exact .some (hcd.trans hde)

/-- There are as many channels on both. -/
theorem size_eq (hg : h.Alike g) (hh : h.channels.IsNumbered) (hn : g.channels.IsNumbered) :
    g.channels.size = h.channels.size := by
  have hlt : ∀ n, n < g.channels.size ↔ n < h.channels.size := fun n => by
    rw [← hh n, ← hn n]
    rcases hg.channels.both_or_neither n with ⟨hx, hy⟩ | ⟨c, d, hx, hy, -⟩
    · rw [hx, hy]
    · rw [hx, hy]
      exact Iff.rfl
  have hle := (hlt h.channels.size).1
  have hge := (hlt g.channels.size).2
  omega

/-- What goes on with alike channels may be done on both sides. -/
theorem update (hg : h.Alike g) {f : Channel → Channel}
    (hf : ∀ c d : Channel, c.Alike d → (f c).Alike (f d)) (n : Nat) :
    (h.update n f).Alike (g.update n f) :=
  ⟨hg.bounds, hg.capacity, hg.maxMessage, hg.current, hg.channels.modify hf n⟩

/-- The same console is opened on both. -/
theorem openFor (hg : h.Alike g) (hsize : g.channels.size = h.channels.size) (id : InstanceId) :
    (g.openFor id).1 = (h.openFor id).1 ∧ (h.openFor id).2.Alike (g.openFor id).2 := by
  rw [Hub.openFor, Hub.openFor, hg.current, hg.capacity, hsize]
  cases h.current.find? id with
  | some n => exact ⟨rfl, hg⟩
  | none =>
    exact ⟨rfl, hg.bounds, rfl, hg.maxMessage, rfl, hg.channels.insert (.refl _) _⟩

/-- A console is given up on both sides. -/
theorem remove (hg : h.Alike g) (id : InstanceId) : (h.remove id).Alike (g.remove id) := by
  rw [Hub.remove, Hub.remove, hg.current]
  cases h.current.find? id with
  | none => exact hg
  | some n =>
    have hclose := hg.update (fun _ _ hc => hc.close) n
    exact ⟨hclose.bounds, hclose.capacity, hclose.maxMessage, rfl, hclose.channels⟩

/-- Only who follows a channel is changed. -/
theorem replace (hc : h.channels.find? n = some c) (hd : c.Alike d) :
    h.Alike { h with channels := h.channels.insert n d } := by
  refine ⟨rfl, rfl, rfl, rfl, fun m => ?_⟩
  by_cases hm : m = n
  · rw [hm, Table.find?_insert_self, hc]
    exact .some hd
  · rw [Table.find?_insert_of_ne _ _ hm]
    exact (refl h).channels m

/-- A follower that leaves makes no difference to the consoles. -/
theorem unsubscribe (h : Hub) (s : Subscription) : h.Alike (h.unsubscribe s) := by
  rw [Hub.unsubscribe]
  split
  · exact refl h
  · rw [Hub.update, Table.modify]
    split
    · exact refl h
    · rename_i c hc
      exact replace hc (.leave c)

/-- What is next for a subscription is the same on both. -/
theorem next_eq (hg : h.Alike g) (s : Subscription) : g.next s = h.next s := by
  rw [Hub.next, Hub.next]
  rcases hg.channels.both_or_neither s.channel with ⟨hx, hy⟩ | ⟨c, d, hx, hy, hcd⟩
  · rw [hx, hy]
  · simp only [hx, hy, hcd.next_eq]

/-- What a console shows is the same on both sides. -/
theorem snapshot_eq (hg : h.Alike g) (id : InstanceId) : g.snapshot id = h.snapshot id := by
  rw [Hub.snapshot, Hub.snapshot, Hub.lookUp, Hub.lookUp, Hub.channel?, Hub.channel?, hg.current]
  cases h.current.find? id with
  | none => rfl
  | some n =>
    simp only [Option.bind_some]
    rcases hg.channels.both_or_neither n with ⟨hx, hy⟩ | ⟨c, d, hx, hy, hcd⟩
    · rw [hx, hy]
    · rw [hx, hy]
      exact congrArg Except.ok hcd.buffer_eq

end Hub.Alike

namespace Broadcast

/-! ### What someone sees of a run -/

/-- What someone sees of an event who has the subscription `who`, or none: all that is done to
    the consoles, and what is done to that subscription, which goes by the number 0 here. -/
def Event.seenBy (who : Option Nat) : Event → Option Event
  | .subscribe k n => if who = some k then some (.subscribe 0 n) else none
  | .next k => if who = some k then some (.next 0) else none
  | .leave k => if who = some k then some (.leave 0) else none
  | e => some e

/-- What someone sees of some events. -/
def seenBy (who : Option Nat) (events : List Event) : List Event :=
  events.filterMap (Event.seenBy who)

/-- The consoles have all in common that someone sees who has a subscription on the one side,
    which goes by the number 0 on the other. -/
structure Alike (who : Option Nat) (b p : Broadcast) : Prop where
  /-- The consoles, but for the followers. -/
  hub : b.hub.Alike p.hub
  /-- What was put into them. -/
  chronicles : p.chronicles = b.chronicles
  /-- The subscription of the one who looks. -/
  listener : ∀ k, who = some k → p.listeners.find? 0 = b.listeners.find? k

namespace Alike

variable {who : Option Nat} {b p : Broadcast} {k n : Nat} {e : Event}

theorem start (who : Option Nat) (c : ConsoleConfig) : Alike who (start c) (start c) :=
  ⟨.refl _, rfl, fun _ _ => rfl⟩

/-- A record is put into both. -/
theorem put (h : Alike who b p) (n : Nat) (r : LogRecord) : Alike who (b.put n r) (p.put n r) := by
  rw [Broadcast.put, Broadcast.put, h.hub.bounds, h.chronicles]
  exact ⟨h.hub.update (fun _ _ hc => hc.push r) n, rfl, h.listener⟩

theorem close (h : Alike who b p) (n : Nat) :
    Alike who (b.step (.close n)) (p.step (.close n)) := by
  rw [step, step, h.chronicles]
  exact ⟨h.hub.update (fun _ _ hc => hc.close) n, rfl, h.listener⟩

/-- A console is opened on both: the next number is free on either side. -/
theorem openFor (h : Alike who b p) (hb : b.Sound) (hp : p.Sound) (id : InstanceId) :
    Alike who (b.step (.openFor id)) (p.step (.openFor id)) := by
  obtain ⟨hw, hhub⟩ := h.hub.openFor (h.hub.size_eq hb.numbered hp.numbered) id
  exact ⟨hhub, by simp only [step, hw, h.chronicles], h.listener⟩

/-- A console is given up on both. -/
theorem remove (h : Alike who b p) (id : InstanceId) :
    Alike who (b.step (.remove id)) (p.step (.remove id)) :=
  ⟨h.hub.remove id, by simp only [step, h.chronicles, h.hub.current], h.listener⟩

/-- The subscription of the one who looks becomes another one, on both sides. -/
theorem insert {h g : Hub} (hg : h.Alike g) {t u : Table Nat Chronicle} (hu : u = t)
    {v w : Table Nat Listener} (l : Listener) :
    Alike (some k) ⟨h, t, v.insert k l⟩ ⟨g, u, w.insert 0 l⟩ :=
  ⟨hg, hu, fun j hj => by
    obtain rfl := Option.some.inj hj
    rw [Table.find?_insert_self, Table.find?_insert_self]⟩

/-- The one who looks subscribes. -/
theorem subscribe (h : Alike (some k) b p) (n : Nat) :
    Alike (some k) (b.step (.subscribe k n)) (p.step (.subscribe 0 n)) := by
  rw [step, step, Table.contains, Table.contains, h.listener k rfl, Broadcast.chronicle,
    Broadcast.chronicle, h.chronicles]
  split
  · exact h
  · rcases h.hub.channels.both_or_neither n with ⟨hx, hy⟩ | ⟨c, d, hx, hy, hcd⟩
    · rw [hx, hy]
      exact h
    · simp only [hx, hy, hcd.cursor_follow, hcd.buffer_eq]
      refine insert ?_ rfl _
      exact ((Hub.Alike.replace hx (.follow c)).symm.trans h.hub).trans (.replace hy (.follow d))

/-- The one who looks asks for what is next. -/
theorem next (h : Alike (some k) b p) :
    Alike (some k) (b.step (.next k)) (p.step (.next 0)) := by
  rw [step, step, h.listener k rfl]
  split
  · exact h
  · rename_i l hl
    rw [h.hub.next_eq]
    split
    · exact h
    · exact insert h.hub h.chronicles _

/-- The subscription of the one who looks is ended. -/
theorem leave (h : Alike (some k) b p) :
    Alike (some k) (b.step (.leave k)) (p.step (.leave 0)) := by
  rw [step, step, h.listener k rfl]
  split
  · exact h
  · rename_i l hl
    refine ⟨((Hub.Alike.unsubscribe b.hub l.sub).symm.trans h.hub).trans (.unsubscribe p.hub l.sub),
      h.chronicles, fun j hj => ?_⟩
    obtain rfl := Option.some.inj hj
    rw [Table.find?_erase_self, Table.find?_erase_self]

/-- What is seen of an event is done on both sides. -/
theorem step_of_seen (h : Alike who b p) (hb : b.Sound) (hp : p.Sound) {e' : Event}
    (he : e.seenBy who = some e') : Alike who (b.step e) (p.step e') := by
  cases e with
  | openFor id =>
    obtain rfl := Option.some.inj he
    exact h.openFor hb hp id
  | push w r =>
    obtain rfl := Option.some.inj he
    rw [step, step, h.hub.maxMessage]
    exact h.put w.channel _
  | note n now message =>
    obtain rfl := Option.some.inj he
    exact h.put n _
  | close n =>
    obtain rfl := Option.some.inj he
    exact h.close n
  | remove id =>
    obtain rfl := Option.some.inj he
    exact h.remove id
  | subscribe k n =>
    obtain ⟨rfl, rfl⟩ : who = some k ∧ Event.subscribe 0 n = e' := by simpa [Event.seenBy] using he
    exact h.subscribe n
  | next k =>
    obtain ⟨rfl, rfl⟩ : who = some k ∧ Event.next 0 = e' := by simpa [Event.seenBy] using he
    exact h.next
  | leave k =>
    obtain ⟨rfl, rfl⟩ : who = some k ∧ Event.leave 0 = e' := by simpa [Event.seenBy] using he
    exact h.leave

/-- Something is done on one side by or to another follower. -/
theorem beside (h : Alike who b p) {hub : Hub} (hhub : b.hub.Alike hub)
    {listeners : Table Nat Listener}
    (hlisteners : ∀ j, who = some j → listeners.find? j = b.listeners.find? j) :
    Alike who { b with hub, listeners } p :=
  ⟨hhub.symm.trans h.hub, h.chronicles, fun j hj => (h.listener j hj).trans (hlisteners j hj).symm⟩

/-- Of an event of another follower nothing is seen. -/
theorem step_of_unseen (h : Alike who b p) (he : e.seenBy who = none) : Alike who (b.step e) p := by
  cases e with
  | openFor | push | note | close | remove => cases he
  | subscribe k n =>
    -- the channel has one more follower, and the list another subscription
    have hk : who ≠ some k := by simpa [Event.seenBy] using he
    rw [step]
    split
    · exact h
    · split
      · exact h
      · rename_i c hc
        exact h.beside (.replace hc (.follow c)) fun j hj =>
          Table.find?_insert_of_ne _ _ fun hjk => hk (hjk ▸ hj)
  | next k =>
    have hk : who ≠ some k := by simpa [Event.seenBy] using he
    rw [step]
    split
    · exact h
    · split
      · exact h
      · exact h.beside (.refl _) fun j hj =>
          Table.find?_insert_of_ne _ _ fun hjk => hk (hjk ▸ hj)
  | leave k =>
    have hk : who ≠ some k := by simpa [Event.seenBy] using he
    rw [step]
    split
    · exact h
    · exact h.beside (.unsubscribe _ _) fun j hj => Table.find?_erase_of_ne _ fun hjk => hk (hjk ▸ hj)

/-- To leave out what is not seen changes nothing that is seen. -/
theorem play (h : Alike who b p) (hb : b.Sound) (hp : p.Sound) (events : List Event) :
    Alike who (b.play events) (p.play (seenBy who events)) := by
  induction events generalizing b p with
  | nil => exact h
  | cons e rest ih =>
    rw [seenBy, List.filterMap_cons]
    cases he : e.seenBy who with
    | none => exact ih (h.step_of_unseen he) (hb.step e) hp
    | some e' => exact ih (h.step_of_seen hb hp he) (hb.step e) (hp.step e')

end Alike

end Broadcast

end VmNode.Console
