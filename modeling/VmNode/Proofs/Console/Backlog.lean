import VmNode.Proofs.Console.Listener

/-!
# Records that are still to come

A record that was sent comes to a follower who has not got that far, unless so many others have
been sent after it that the queue has lost it. The follower goes on by at least one record each
time that it is asked for (`Chronicle.Shows.next_of_le`), so it comes to the record by as many
steps as it is records behind.

Whatever is done to the consoles of a node keeps what they show of the past and what their
queues have (`Hub.Airs`), and only adds to it. That is `Hub.Outgrows`, with one lemma for each
operation.
-/

namespace VmNode.Console

/-! ### Queues -/

namespace Channel

variable {b : Bounds} {c : Channel} {p : Nat}

/-- The queue has all the last records that it has room for. -/
def Ample (c : Channel) : Prop := min c.sent c.capacity ≤ c.queue.length

/-- A queue that has had nothing lacks nothing. -/
theorem ample_new (capacity : Nat) : (new capacity).Ample := Nat.min_le_left ..

/-- A record takes the place of the oldest only if there is no room. -/
theorem Ample.push (h : c.Ample) (r : LogRecord) : (c.push b r).Ample := by
  cases hopen : c.isOpen with
  | true =>
    rw [push_of_open hopen]
    simp only [Ample, lastOf, List.length_drop, List.length_append, List.length_singleton] at h ⊢
    omega
  | false =>
    rw [push_of_closed hopen]
    exact h

theorem Ample.follow (h : c.Ample) : c.follow.2.Ample := by
  rw [Channel.follow]
  split
  · exact h
  · exact h

/-- A record is in the queue as long as not too many others have followed it. -/
theorem Ample.oldest_le (h : c.Ample) (hp : c.sent ≤ p + c.capacity) : c.oldest ≤ p := by
  rw [Ample] at h
  rw [oldest]
  omega

end Channel

/-! ### Followers -/

namespace Chronicle

variable {b : Bounds} {h h' h'' : Chronicle} {c : Channel} {r : LogRecord} {p q : Nat}

/-- Chronicles that grow twice have grown. -/
theorem Grows.trans (hg : h.Grows h') (hg' : h'.Grows h'') : h.Grows h'' := by
  refine ⟨hg.records.trans hg'.records, hg.aired.trans hg'.aired, fun hc => ?_⟩
  obtain ⟨hc', haired⟩ := hg.closed hc
  obtain ⟨hc'', haired'⟩ := hg'.closed hc'
  exact ⟨hc'', haired'.trans haired⟩

/-- What was sent stays what it is. -/
theorem Grows.getElem? (hg : h.Grows h') (hr : h.aired[p]? = some r) :
    h'.aired[p]? = some r := by
  obtain ⟨rest, hrest⟩ := hg.aired
  rw [← hrest, List.getElem?_append_left (List.getElem?_eq_some_iff.1 hr).1, hr]

/-- A channel that is open was open before. -/
theorem Grows.open_of_open (hg : h.Grows h') (ho : h'.closedAt = none) : h.closedAt = none := by
  cases hc : h.closedAt with
  | none => rfl
  | some n =>
    have hclosed := (hg.closed (by rw [hc]; rfl)).1
    rw [ho] at hclosed
    cases hclosed

/-- A record that is put into an open channel is the next one that is sent. -/
theorem getElem?_add_of_open (hs : h.Shows b c) (ho : c.isOpen = true) :
    (h.add r).aired[c.sent]? = some r := by
  have hclosed : h.closedAt = none := Option.isNone_iff_eq_none.1 (hs.isOpen.symm.trans ho)
  rw [aired_add_of_open hclosed, hs.sent]
  exact List.getElem?_concat_length

/-- A follower that has not come to record `p`, which is still in the queue, gets the record that
    it stands before, or goes on to another one that is not behind `p`. -/
theorem Shows.next_of_le (hs : h.Shows b c) (hample : c.Ample) (hr : h.aired[p]? = some r)
    (hq : q ≤ p) (hkept : c.sent ≤ p + c.capacity) :
    (∃ s, h.aired[q]? = some s ∧ c.next (.before q) = (.record s, .before (q + 1))) ∨
      ∃ lost q', c.next (.before q) = (.lagged lost, .before q') ∧ q < q' ∧ q' ≤ p := by
  have hlt : p < h.aired.length := (List.getElem?_eq_some_iff.1 hr).1
  -- either the queue has lost what the follower stands before, and it is sent on to the oldest
  -- record there is, which is not behind `p`, or it gets the next record
  by_cases hlost : q < c.oldest
  · refine .inr ⟨c.oldest - q, c.oldest, ?_, hlost, hample.oldest_le hkept⟩
    rw [Channel.next, if_pos hlost]
  · have htells := hs.tells (hq.trans hlt.le)
    cases hnext : c.next (.before q) with
    | mk d cursor =>
      rw [hnext] at htells
      cases htells with
      | @record s hs' => exact .inl ⟨s, hs', rfl⟩
      | lagged =>
        rw [Channel.next, if_neg hlost] at hnext
        repeat' split at hnext
        all_goals cases hnext
      | pending hend | ended hend => omega

end Chronicle

/-! ### Hubs -/

namespace Broadcast

variable {t t' t'' : Table Nat Chronicle}

/-- Chronicles that grow twice have grown. -/
theorem Grown.trans (hg : Grown t t') (hg' : Grown t' t'') : Grown t t'' := fun n h hh => by
  obtain ⟨h', hh', hgrows⟩ := hg n h hh
  obtain ⟨h'', hh'', hgrows'⟩ := hg' n h' hh'
  exact ⟨h'', hh'', hgrows.trans hgrows'⟩

end Broadcast

namespace Hub

variable {h h' h'' : Hub} {t : Table Nat Chronicle} {c : Channel} {n : Nat}

/-- The channels show what was put into them, and their queues are as full as they can be. -/
structure Airs (h : Hub) (t : Table Nat Chronicle) : Prop where
  /-- The channels show what the chronicles say. -/
  sound : Broadcast.Sound ⟨h, t, .empty⟩
  /-- Their queues are as full as they can be. -/
  ample : ∀ n c, h.channels.find? n = some c → c.Ample

/-- New consoles have no past. -/
theorem airs_new (config : ConsoleConfig) : (new config).Airs .empty :=
  ⟨Broadcast.sound_start config, nofun⟩

/-- Each channel shows what its chronicle says. -/
theorem Airs.shows (ha : h.Airs t) (hc : h.channels.find? n = some c) :
    ∃ g, t.find? n = some g ∧ g.Shows h.bounds c :=
  ha.sound.agree.find? hc

/-- Something is done to a channel, and an instance may lose it. -/
theorem Airs.update (ha : h.Airs t) {f : Channel → Channel} {g : Chronicle → Chronicle} (n : Nat)
    {current : Table InstanceId Nat}
    (hcurrent : ∀ id m, current.find? id = some m → h.current.find? id = some m)
    (hshows : ∀ c (a : Chronicle), a.Shows h.bounds c → (g a).Shows h.bounds (f c))
    (hample : ∀ c, c.Ample → (f c).Ample) :
    Airs { h.update n f with current } (t.modify n g) := by
  refine ⟨ha.sound.modify hshows n hcurrent .empty, fun m c hc => ?_⟩
  by_cases hm : m = n
  · subst hm
    rw [Hub.update, Table.find?_modify_self] at hc
    obtain ⟨c', hc', rfl⟩ := Option.map_eq_some_iff.1 hc
    exact hample c' (ha.ample m c' hc')
  · rw [Hub.update, Table.find?_modify_of_ne _ _ hm] at hc
    exact ha.ample m c hc

/-- A record is put into a channel. -/
theorem Airs.put (ha : h.Airs t) (n : Nat) (r : LogRecord) :
    (h.update n fun c => c.push h.bounds r).Airs (t.modify n fun g => g.add r) :=
  ha.update n (fun _ _ hm => hm) (fun _ _ hs => hs.push r) fun _ hc => hc.push r

/-- What `h` has shown, `h'` shows too, and perhaps more. -/
structure Outgrows (h h' : Hub) : Prop where
  /-- Whatever chronicles the console had, it has them still, grown. -/
  airs : ∀ t, h.Airs t → ∃ t', h'.Airs t' ∧ Broadcast.Grown t t'

namespace Outgrows

theorem refl (h : Hub) : h.Outgrows h := ⟨fun t ha => ⟨t, ha, .refl t⟩⟩

theorem trans (hg : h.Outgrows h') (hg' : h'.Outgrows h'') : h.Outgrows h'' := by
  refine ⟨fun t ha => ?_⟩
  obtain ⟨t', ha', hgrown⟩ := hg.airs t ha
  obtain ⟨t'', ha'', hgrown'⟩ := hg'.airs t' ha'
  exact ⟨t'', ha'', hgrown.trans hgrown'⟩

/-- Something is done to a channel, and an instance may lose it. -/
theorem update {f : Channel → Channel} {g : Chronicle → Chronicle} (n : Nat)
    {current : Table InstanceId Nat}
    (hcurrent : ∀ id m, current.find? id = some m → h.current.find? id = some m)
    (hshows : ∀ c (a : Chronicle), a.Shows h.bounds c → (g a).Shows h.bounds (f c))
    (hgrows : ∀ c (a : Chronicle), a.Shows h.bounds c → a.Grows (g a))
    (hample : ∀ c, c.Ample → (f c).Ample) :
    h.Outgrows { h.update n f with current } := by
  refine ⟨fun t ha => ⟨t.modify n g, ha.update n hcurrent hshows hample, .modify fun a ht => ?_⟩⟩
  obtain ⟨c, -, hs⟩ := ha.sound.agree.find?_right ht
  exact hgrows c a hs

/-- A record is put into a channel. -/
theorem put (h : Hub) (n : Nat) (r : LogRecord) :
    h.Outgrows (h.update n fun c => c.push h.bounds r) :=
  update n (fun _ _ hm => hm) (fun _ _ hs => hs.push r) (fun _ _ hs => .add hs r)
    fun _ hc => hc.push r

theorem push (h : Hub) (w : Writer) (r : LogRecord) : h.Outgrows (h.push w r) := put h _ _

theorem note (h : Hub) (now : Int64) (id : InstanceId) (message : String) :
    h.Outgrows (h.note now id message) := by
  rw [Hub.note]
  split
  · exact put h _ _
  · exact refl h

theorem close (h : Hub) (id : InstanceId) : h.Outgrows (h.close id) := by
  rw [Hub.close]
  split
  · exact update _ (fun _ _ hm => hm) (fun _ _ hs => hs.close) (fun _ a _ => .close a)
      fun _ hc => hc
  · exact refl h

theorem remove (h : Hub) (id : InstanceId) : h.Outgrows (h.remove id) := by
  rw [Hub.remove]
  split
  · refine update _ (fun j m hm => ?_) (fun _ _ hs => hs.close) (fun _ a _ => .close a)
      fun _ hc => hc
    by_cases hj : j = id
    · rw [hj, Table.find?_erase_self] at hm
      cases hm
    · rwa [Table.find?_erase_of_ne _ hj] at hm
  · exact refl h

theorem unsubscribe (h : Hub) (s : Subscription) : h.Outgrows (h.unsubscribe s) := by
  rw [Hub.unsubscribe]
  split
  · exact refl h
  · exact update (g := fun a => a) _ (fun _ _ hm => hm) (fun _ _ hs => hs.leave)
      (fun _ a _ => .refl a) fun _ hc => hc

theorem openFor (h : Hub) (id : InstanceId) : h.Outgrows (h.openFor id).2 := by
  refine ⟨fun t ha => ?_⟩
  let b : Broadcast := ⟨h, t, .empty⟩
  refine ⟨(b.step (.openFor id)).chronicles,
    ⟨ha.sound.step (.openFor id), fun m c hc => ?_⟩, ha.sound.grown (.openFor id)⟩
  rw [Hub.openFor] at hc
  split at hc
  · exact ha.ample m c hc
  · rcases Table.find?_insert_eq_some hc with ⟨-, rfl⟩ | ⟨-, hc⟩
    · exact Channel.ample_new _
    · exact ha.ample m c hc

end Outgrows

/-! ### Looking a console up -/

/-- A console is found if it has a channel that is there. -/
theorem lookUp_eq_ok {id : InstanceId} :
    h.lookUp id = .ok (n, c) ↔ h.current.find? id = some n ∧ h.channels.find? n = some c := by
  have hfound : h.channel? id = some (n, c) ↔
      h.current.find? id = some n ∧ h.channels.find? n = some c := by
    simp only [channel?, Option.bind_eq_some_iff, Option.map_eq_some_iff, Prod.mk.injEq]
    constructor
    · rintro ⟨m, hm, d, hd, rfl, rfl⟩
      exact ⟨hm, hd⟩
    · rintro ⟨hn, hc⟩
      exact ⟨n, hn, c, hc, rfl, rfl⟩
  rw [← hfound, lookUp]
  cases h.channel? id <;> simp

/-- A snapshot is the buffer of the channel that the console has. -/
theorem snapshot_eq_ok {id : InstanceId} {buffer : List LogRecord}
    (hs : h.snapshot id = .ok buffer) : ∃ n c, h.current.find? id = some n ∧
      h.channels.find? n = some c ∧ c.buffer = buffer := by
  rw [snapshot] at hs
  cases hlook : h.lookUp id with
  | error e =>
    rw [hlook] at hs
    cases hs
  | ok found =>
    rw [hlook] at hs
    obtain ⟨hn, hc⟩ := lookUp_eq_ok.1 hlook
    exact ⟨found.1, found.2, hn, hc, Except.ok.inj hs⟩

/-- Who follows a console gets its buffer, and stands right behind it. -/
theorem subscribe_of_find? {id : InstanceId} (hn : h.current.find? id = some n)
    (hc : h.channels.find? n = some c) :
    h.subscribe id = .ok (c.buffer, ⟨n, c.follow.1⟩, h.update n fun c => c.follow.2) := by
  rw [subscribe, lookUp_eq_ok.2 ⟨hn, hc⟩, update, Table.modify, hc]
  rfl

/-- Subscribing adds nothing and takes nothing away. -/
theorem Outgrows.subscribe {id : InstanceId} {buffer : List LogRecord} {sub : Subscription}
    (hsub : h.subscribe id = .ok (buffer, sub, h')) : h.Outgrows h' := by
  cases hlook : h.lookUp id with
  | error e =>
    rw [Hub.subscribe, hlook] at hsub
    cases hsub
  | ok found =>
    obtain ⟨hn, hc⟩ := lookUp_eq_ok.1 hlook
    rw [subscribe_of_find? hn hc] at hsub
    cases hsub
    exact update (g := fun a => a) _ (fun _ _ hm => hm) (fun _ _ hs => hs.follow)
      (fun _ a _ => .refl a) fun _ hc => hc.follow

/-! ### Records that were sent -/

/-- The number of records that a channel has sent. -/
def sent (h : Hub) (k : Nat) : Nat := (h.channels.find? k).elim 0 Channel.sent

/-- There is a channel, and it sends the records that come in. -/
def isOpen (h : Hub) (k : Nat) : Bool := (h.channels.find? k).any Channel.isOpen

/-- A channel has sent the record, under this number. -/
def HasSent (h : Hub) (k p : Nat) (r : LogRecord) : Prop :=
  ∃ t g, h.Airs t ∧ t.find? k = some g ∧ g.aired[p]? = some r

variable {k p q : Nat} {r : LogRecord}

/-- What was sent on a channel that is there. -/
theorem sent_eq (hc : h.channels.find? k = some c) : h.sent k = c.sent := by
  rw [sent, hc]
  rfl

/-- A channel is open if it is there and nobody has closed it. -/
theorem isOpen_iff :
    h.isOpen k = true ↔ ∃ c, h.channels.find? k = some c ∧ c.isOpen = true := by
  rw [isOpen]
  cases h.channels.find? k <;> simp

/-- What was sent stays sent. -/
theorem Outgrows.hasSent (hg : h.Outgrows h') (hr : h.HasSent k p r) : h'.HasSent k p r := by
  obtain ⟨t, g, ha, hk, hget⟩ := hr
  obtain ⟨t', ha', hgrown⟩ := hg.airs t ha
  obtain ⟨g', hk', hgrows⟩ := hgrown k g hk
  exact ⟨t', g', ha', hk', hgrows.getElem? hget⟩

/-- A record was sent on a channel that there is. -/
theorem HasSent.channel (hr : h.HasSent k p r) : ∃ c, h.channels.find? k = some c := by
  obtain ⟨t, g, ha, hk, -⟩ := hr
  obtain ⟨c, hc, -⟩ := ha.sound.agree.find?_right hk
  exact ⟨c, hc⟩

/-- A channel is still there later, has sent no fewer records, and was open before if it is. -/
theorem Outgrows.channel (hg : h.Outgrows h') (ha : h.Airs t)
    (hc : h.channels.find? k = some c) : ∃ c', h'.channels.find? k = some c' ∧
      c.sent ≤ c'.sent ∧ (c'.isOpen = true → c.isOpen = true) := by
  obtain ⟨g, hk, hs⟩ := ha.shows hc
  obtain ⟨t', ha', hgrown⟩ := hg.airs t ha
  obtain ⟨g', hk', hgrows⟩ := hgrown k g hk
  obtain ⟨c', hc', hs'⟩ := ha'.sound.agree.find?_right hk'
  refine ⟨c', hc', ?_, fun ho => ?_⟩
  · rw [hs.sent, hs'.sent]
    exact hgrows.aired.length_le
  · rw [hs'.isOpen, Option.isNone_iff_eq_none] at ho
    rw [hs.isOpen, hgrows.open_of_open ho]
    rfl

/-- No fewer records have been sent later on. -/
theorem Outgrows.sent_le (hg : h.Outgrows h') (ha : h.Airs t)
    (hc : h.channels.find? k = some c) : c.sent ≤ h'.sent k := by
  obtain ⟨c', hc', hle, -⟩ := hg.channel ha hc
  exact hle.trans_eq (sent_eq hc').symm

/-- A channel that is open was open before. -/
theorem Outgrows.isOpen (hg : h.Outgrows h') (ha : h.Airs t)
    (hc : h.channels.find? k = some c) (ho : h'.isOpen k = true) : c.isOpen = true := by
  obtain ⟨c', hc', -, hwas⟩ := hg.channel ha hc
  obtain ⟨c'', hc'', hopen⟩ := isOpen_iff.1 ho
  obtain rfl := Option.some.inj (hc'.symm.trans hc'')
  exact hwas hopen

/-- The next record that an open channel sends is the one that is put into it. -/
theorem Airs.hasSent_put (ha : h.Airs t) (ho : h.isOpen k = true) (r : LogRecord) :
    (h.update k fun c => c.push h.bounds r).HasSent k (h.sent k) r := by
  obtain ⟨c, hc, hopen⟩ := isOpen_iff.1 ho
  obtain ⟨g, hk, hs⟩ := ha.shows hc
  refine ⟨_, g.add r, ha.put k r, ?_, ?_⟩
  · rw [Table.find?_modify_self, hk]
    rfl
  · rw [sent_eq hc]
    exact Chronicle.getElem?_add_of_open hs hopen

/-- A follower that stands before a record that it may get, or before the next one that comes in,
    goes on to such a place, or waits at the end, or hears that the channel is closed. -/
theorem Airs.next (ha : h.Airs t) (hc : h.channels.find? k = some c) (hq : q ≤ c.sent) :
    (∃ r q', c.next (.before q) = (.record r, .before q') ∧ q ≤ q' ∧ q' ≤ c.sent) ∨
      (∃ lost q', c.next (.before q) = (.lagged lost, .before q') ∧ q ≤ q' ∧ q' ≤ c.sent) ∨
      c.next (.before q) = (.pending, .before q) ∨
      c.next (.before q) = (.ended, .ended) ∧ c.isOpen = false := by
  obtain ⟨g, -, hs⟩ := ha.shows hc
  rw [hs.sent] at hq ⊢
  have htells := hs.tells hq
  cases hnext : c.next (.before q) with
  | mk d cursor =>
    rw [hnext] at htells
    cases htells with
    | record hr =>
      have hlt := (List.getElem?_eq_some_iff.1 hr).1
      exact .inl ⟨_, _, rfl, Nat.le_succ q, hlt⟩
    | lagged hle => exact .inr (.inl ⟨_, _, rfl, Nat.le_add_right .., hle⟩)
    | pending => exact .inr (.inr (.inl rfl))
    | ended _ hclosed =>
      refine .inr (.inr (.inr ⟨rfl, ?_⟩))
      rw [hs.isOpen, ← Option.not_isSome, hclosed]
      rfl

/-- A follower that has not come to a record that was sent, which the queue still has, gets the
    record that it stands before, or goes on to another one that is not behind that record. -/
theorem HasSent.next (hr : h.HasSent k p r) (hc : h.channels.find? k = some c) (hq : q ≤ p)
    (hkept : c.sent ≤ p + c.capacity) :
    (∃ s, c.next (.before q) = (.record s, .before (q + 1)) ∧ (q = p → s = r)) ∨
      ∃ lost q', c.next (.before q) = (.lagged lost, .before q') ∧ q < q' ∧ q' ≤ p := by
  obtain ⟨t, g, ha, hk, hget⟩ := hr
  obtain ⟨g', hk', hs⟩ := ha.shows hc
  obtain rfl := Option.some.inj (hk'.symm.trans hk)
  refine (hs.next_of_le (ha.ample k c hc) hget hq hkept).imp_left fun ⟨s, hs', hnext⟩ => ?_
  refine ⟨s, hnext, ?_⟩
  rintro rfl
  exact Option.some.inj (hs'.symm.trans hget)

end Hub

end VmNode.Console
