import Mathlib.Data.List.Infix
import VmNode.Proofs.Console.Broadcast

/-!
# What subscriptions get

A subscription is told each record that comes into its channel, or that it lost some. With as
many of the records to come in place of each notice of a loss (`spellOut`), what it was told is
the beginning of what came in after it was made and before the channel was closed.

A follower stands right behind the last record that it was told of (`Listener.Hears`). From
there `Channel.next` goes on in one of four ways (`Chronicle.Tells`), and each of them leaves
it at such a place. Whatever else is done to the channel only adds to what is to come
(`Chronicle.Grows`).

Main statement: in every run, what a subscription got makes one piece of the past of its channel
with the snapshot that it began with, and it ends with the last record before the channel was
closed (`Broadcast.contiguous_of_play`).
-/

namespace VmNode.Console

/-! ### Deliveries -/

/-- The number of records that a delivery accounts for. -/
def Delivery.span : Delivery → Nat
  | .record _ => 1
  | .lagged lost => lost
  | .pending => 0
  | .ended => 0

/-- What a delivery tells of the records that are to come. -/
def Delivery.tell (toCome : List LogRecord) : Delivery → List LogRecord
  | .record r => [r]
  | .lagged lost => toCome.take lost
  | .pending => []
  | .ended => []

/-- The number of records that some deliveries account for. -/
def reach : List Delivery → Nat
  | [] => 0
  | d :: ds => d.span + reach ds

/-- What some deliveries tell of the records that are to come, with the next of these in place
    of each notice of a loss. -/
def spellOut : List Delivery → List LogRecord → List LogRecord
  | [], _ => []
  | d :: ds, toCome => d.tell toCome ++ spellOut ds (toCome.drop d.span)

section Deliveries

variable {d : Delivery} {ds es : List Delivery} {l m : List LogRecord} {r : LogRecord} {k : Nat}

@[simp] theorem reach_nil : reach [] = 0 := rfl

@[simp] theorem reach_cons : reach (d :: ds) = d.span + reach ds := rfl

@[simp] theorem reach_append : reach (ds ++ es) = reach ds + reach es := by
  induction ds with
  | nil => exact (Nat.zero_add _).symm
  | cons d ds ih => rw [List.cons_append, reach_cons, reach_cons, ih, Nat.add_assoc]

@[simp] theorem reach_singleton : reach [d] = d.span := rfl

/-- Later deliveries tell of the records behind those that earlier ones account for. -/
theorem spellOut_append :
    spellOut (ds ++ es) l = spellOut ds l ++ spellOut es (l.drop (reach ds)) := by
  induction ds generalizing l with
  | nil => rfl
  | cons d ds ih =>
    rw [List.cons_append, spellOut, spellOut, ih, List.append_assoc, List.drop_drop, reach_cons]

/-- A delivery tells of no more records than it accounts for. -/
theorem Delivery.tell_append (h : d.span ≤ l.length) : d.tell (l ++ m) = d.tell l := by
  cases d with
  | lagged lost => exact List.take_append_of_le_length h
  | record | pending | ended => rfl

/-- Of what comes later nothing is told. -/
theorem spellOut_append_right (h : reach ds ≤ l.length) :
    spellOut ds (l ++ m) = spellOut ds l := by
  induction ds generalizing l with
  | nil => rfl
  | cons d ds ih =>
    rw [reach_cons] at h
    have hspan : d.span ≤ l.length := by omega
    rw [spellOut, spellOut, Delivery.tell_append hspan, List.drop_append_of_le_length hspan,
      ih (by rw [List.length_drop]; omega)]

/-- The deliveries tell of the first of the records that are to come, in order. -/
structure Recounts (ds : List Delivery) (l : List LogRecord) : Prop where
  /-- What they tell is the first records. -/
  eq_take : spellOut ds l = l.take (reach ds)
  /-- There are as many records as they account for. -/
  le_length : reach ds ≤ l.length

namespace Recounts

theorem nil (l : List LogRecord) : Recounts [] l := ⟨rfl, Nat.zero_le _⟩

/-- More records may come. -/
theorem mono (h : Recounts ds l) (hlm : l <+: m) : Recounts ds m := by
  obtain ⟨rest, rfl⟩ := hlm
  refine ⟨?_, h.le_length.trans (by simp)⟩
  rw [spellOut_append_right h.le_length, List.take_append_of_le_length h.le_length, h.eq_take]

/-- One more delivery that tells of the next records. -/
theorem concat (h : Recounts ds l) (htell : d.tell (l.drop (reach ds)) =
    (l.drop (reach ds)).take d.span) (hle : reach ds + d.span ≤ l.length) :
    Recounts (ds ++ [d]) l := by
  refine ⟨?_, by rwa [reach_append, reach_singleton]⟩
  rw [spellOut_append, spellOut, spellOut, List.append_nil, htell, h.eq_take, reach_append,
    reach_singleton, List.take_add]

/-- A record is told that is next. -/
theorem record (h : Recounts ds l) (hr : l[reach ds]? = some r) :
    Recounts (ds ++ [.record r]) l := by
  obtain ⟨hlt, hget⟩ := List.getElem?_eq_some_iff.1 hr
  refine h.concat ?_ hlt
  rw [Delivery.tell, Delivery.span, List.take_one, List.head?_drop, hr]
  rfl

/-- A notice stands for the records that were lost, as many as there are. -/
theorem lagged (h : Recounts ds l) (hk : reach ds + k ≤ l.length) :
    Recounts (ds ++ [.lagged k]) l :=
  h.concat rfl hk

/-- That there is no more tells of nothing. -/
theorem ended (h : Recounts ds l) : Recounts (ds ++ [.ended]) l :=
  h.concat rfl h.le_length

/-- What was told is the beginning of what came. -/
theorem isPrefix (h : Recounts ds l) : spellOut ds l <+: l := h.eq_take ▸ List.take_prefix ..

/-- If all is accounted for, all was told. -/
theorem eq_of_length_le (h : Recounts ds l) (hle : l.length ≤ reach ds) : spellOut ds l = l := by
  rw [h.eq_take, List.take_of_length_le hle]

end Recounts

end Deliveries

/-! ### What comes into a channel -/

namespace Chronicle

variable {b : Bounds} {h h' : Chronicle} {c : Channel} {n p : Nat} {r : LogRecord}

/-- The records that came after the first `n` and before the channel was closed. -/
def after (h : Chronicle) (n : Nat) : List LogRecord := h.aired.drop n

theorem aired_isPrefix (h : Chronicle) : h.aired <+: h.records := List.take_prefix ..

/-- More came into the channel, but nothing that is sent if it was closed. -/
structure Grows (h h' : Chronicle) : Prop where
  /-- More records may have come. -/
  records : h.records <+: h'.records
  /-- More may have been sent. -/
  aired : h.aired <+: h'.aired
  /-- But not on a channel that is closed, and it stays closed. -/
  closed : h.closedAt.isSome = true → h'.closedAt.isSome = true ∧ h'.aired = h.aired

namespace Grows

theorem refl (h : Chronicle) : h.Grows h :=
  ⟨List.prefix_rfl, List.prefix_rfl, fun hc => ⟨hc, rfl⟩⟩

/-- A record that is put in comes after all others. -/
theorem add (hs : h.Shows b c) (r : LogRecord) : h.Grows (h.add r) := by
  refine ⟨List.prefix_append .., ?_, fun hc => ?_⟩
  · -- whether it is sent depends on whether the channel is open
    cases hclosed : h.closedAt with
    | none => exact aired_add_of_open hclosed ▸ List.prefix_append ..
    | some n => exact aired_add_of_closed hclosed (hs.closedAt n hclosed) ▸ List.prefix_rfl
  · obtain ⟨n, hclosed⟩ := Option.isSome_iff_exists.1 hc
    exact ⟨hc, aired_add_of_closed hclosed (hs.closedAt n hclosed)⟩

/-- Closing sends nothing. -/
theorem close (h : Chronicle) : h.Grows h.close := by
  refine ⟨List.prefix_rfl, aired_close ▸ List.prefix_rfl, fun _ => ⟨?_, aired_close⟩⟩
  rw [Chronicle.close]
  cases h.closedAt <;> rfl

theorem after (hg : h.Grows h') (n : Nat) : h.after n <+: h'.after n :=
  List.IsPrefix.drop hg.aired n

end Grows

/-- What a follower gets who was told of the first `p` records, and where it stands then. -/
inductive Tells (h : Chronicle) (p : Nat) : Delivery → Cursor → Prop
  /-- The next record. -/
  | record {r : LogRecord} : h.aired[p]? = some r → Tells h p (.record r) (.before (p + 1))
  /-- How many records were lost. -/
  | lagged {lost : Nat} : p + lost ≤ h.aired.length → Tells h p (.lagged lost) (.before (p + lost))
  /-- There is nothing to tell yet. -/
  | pending : p = h.aired.length → h.closedAt = none → Tells h p .pending (.before p)
  /-- There will be nothing more to tell. -/
  | ended : p = h.aired.length → h.closedAt.isSome = true → Tells h p .ended .ended

/-- A follower gets the next record or hears how many it lost, until there are no more. -/
theorem Shows.tells (hs : h.Shows b c) (hp : p ≤ h.aired.length) :
    h.Tells p (c.next (.before p)).1 (c.next (.before p)).2 := by
  obtain ⟨older, hqueue⟩ := hs.queue
  have haired : h.aired.length = older.length + c.queue.length := by
    rw [← hqueue, List.length_append]
  -- the queue begins where the records end that are out of it
  have holdest : c.oldest = older.length := by
    rw [Channel.oldest, hs.sent, haired, Nat.add_sub_cancel]
  rw [Channel.next, holdest]
  split
  · -- the follower stands before the queue: it lost what lies between
    rename_i hlost
    have hsum : p + (older.length - p) = older.length := by omega
    have htells : h.Tells p (.lagged (older.length - p)) (.before (p + (older.length - p))) :=
      .lagged (by omega)
    rwa [hsum] at htells
  · -- it stands in the queue or at its end
    rename_i hkept
    have hget : h.aired[p]? = c.queue[p - older.length]? := by
      rw [← hqueue, List.getElem?_append_right (Nat.le_of_not_lt hkept)]
    rw [← hget]
    split
    · rename_i r hr
      exact .record hr
    · rename_i hnone
      have hend : p = h.aired.length := Nat.le_antisymm hp (List.getElem?_eq_none_iff.1 hnone)
      rw [hs.isOpen]
      split
      · rename_i hopen
        exact .pending hend (Option.isNone_iff_eq_none.1 hopen)
      · rename_i hclosed
        exact .ended hend (Option.isSome_iff_ne_none.2 fun h => hclosed (by rw [h]; rfl))

end Chronicle

/-! ### One subscription -/

namespace Listener

variable {b : Bounds} {h h' : Chronicle} {c : Channel} {l : Listener} {d : Delivery}
variable {cursor : Cursor} {n : Nat}

/-- A subscription stands right behind what it was told of. -/
structure Hears (b : Bounds) (h : Chronicle) (l : Listener) : Prop where
  /-- It was made when some of the records were there. -/
  since : l.since ≤ h.records.length
  /-- It began with what the buffer held then. -/
  snapshot : b.Newest (h.records.take l.since) l.snapshot
  /-- It was told of the first of those that came since. -/
  recounts : Recounts l.got (h.after l.since)
  /-- As long as it goes on, it stands right behind them. -/
  before : ∀ p, l.sub.cursor = .before p →
    p = l.since + reach l.got ∧ p ≤ h.aired.length ∧ .ended ∉ l.got
  /-- At its end it was told of all. -/
  ended : l.sub.cursor = .ended →
    h.closedAt.isSome = true ∧ (h.after l.since).length ≤ reach l.got

namespace Hears

/-- A new subscription has the snapshot and was told nothing. -/
theorem follow (hs : h.Shows b c) (n : Nat) :
    Hears b h ⟨⟨n, c.follow.1⟩, c.buffer, h.records.length, []⟩ := by
  have hafter : h.after h.records.length = [] :=
    List.drop_eq_nil_iff.2 h.aired_isPrefix.length_le
  refine ⟨Nat.le_refl _, ?_, .nil _, fun p hp => ?_, fun hp => ?_⟩
  · rw [List.take_length]
    exact hs.newest
  · -- on an open channel it stands behind everything that was sent
    rw [Channel.follow, hs.isOpen] at hp
    -- on an open channel it stands behind everything that was sent
    split at hp
    · rename_i hopen
      have haired := Chronicle.aired_of_open (Option.isNone_iff_eq_none.1 hopen)
      rw [Cursor.before.injEq, hs.sent, haired] at hp
      rw [haired, ← hp]
      exact ⟨rfl, Nat.le_refl _, List.not_mem_nil⟩
    · cases hp
  · rw [Channel.follow, hs.isOpen] at hp
    -- on a closed one it is at its end at once, with nothing to come
    split at hp
    · cases hp
    · rename_i hclosed
      refine ⟨Option.isSome_iff_ne_none.2 fun h => hclosed (by rw [h]; rfl), ?_⟩
      rw [hafter]
      exact Nat.zero_le _

/-- What comes into the channel is still to come to the subscription. -/
theorem grow (hl : l.Hears b h) (hg : h.Grows h') : l.Hears b h' := by
  have htake : h'.records.take l.since = h.records.take l.since := by
    obtain ⟨rest, hrest⟩ := hg.records
    rw [← hrest, List.take_append_of_le_length hl.since]
  refine ⟨hl.since.trans hg.records.length_le, htake ▸ hl.snapshot,
    hl.recounts.mono (hg.after l.since), fun p hp => ?_, fun hp => ?_⟩
  · obtain ⟨heq, hle, hnot⟩ := hl.before p hp
    exact ⟨heq, hle.trans hg.aired.length_le, hnot⟩
  · obtain ⟨hclosed, hle⟩ := hl.ended hp
    obtain ⟨hclosed, haired⟩ := hg.closed hclosed
    rw [Chronicle.after, haired]
    exact ⟨hclosed, hle⟩

/-- The subscription is told what is next. -/
theorem tell (hl : l.Hears b h) {p : Nat} (hp : l.sub.cursor = .before p)
    (ht : h.Tells p d cursor) (hd : d ≠ .pending) :
    Hears b h { l with sub := { l.sub with cursor }, got := l.got ++ [d] } := by
  obtain ⟨heq, hle, hnot⟩ := hl.before p hp
  have hlength : (h.after l.since).length = h.aired.length - l.since := List.length_drop
  cases ht with
  | @record r hr =>
    -- the record is the next of those since it was made
    have hget : (h.after l.since)[reach l.got]? = some r := by
      rw [Chronicle.after, List.getElem?_drop, ← heq, hr]
    refine ⟨hl.since, hl.snapshot, hl.recounts.record hget, fun q hq => ?_, nofun⟩
    obtain ⟨hlt, -⟩ := List.getElem?_eq_some_iff.1 hr
    obtain rfl := Cursor.before.inj hq
    simp only [reach_append, reach_singleton, Delivery.span]
    exact ⟨by omega, hlt, by simp [hnot]⟩
  | lagged hlost =>
    -- as many as were lost are there to be passed over
    refine ⟨hl.since, hl.snapshot, hl.recounts.lagged (by omega), fun q hq => ?_, nofun⟩
    obtain rfl := Cursor.before.inj hq
    simp only [reach_append, reach_singleton, Delivery.span]
    exact ⟨by omega, hlost, by simp [hnot]⟩
  | pending => exact absurd rfl hd
  | ended hend hclosed =>
    refine ⟨hl.since, hl.snapshot, hl.recounts.ended, nofun, fun _ => ⟨hclosed, ?_⟩⟩
    simp only [reach_append]
    omega

/-- Asked again, a subscription that is at its end is told so again. -/
theorem tellEnded (hl : l.Hears b h) (hp : l.sub.cursor = .ended) :
    Hears b h { l with sub := { l.sub with cursor := .ended }, got := l.got ++ [.ended] } := by
  obtain ⟨hclosed, hle⟩ := hl.ended hp
  refine ⟨hl.since, hl.snapshot, hl.recounts.ended, nofun, fun _ => ⟨hclosed, ?_⟩⟩
  simp only [reach_append]
  omega

end Hears

/-- What a subscription got, with the snapshot it began with, is one piece of what was ever put
    into its channel. -/
structure Contiguous (h : Chronicle) (l : Listener) : Prop where
  /-- What it was told is the first of what came in since then, in order. -/
  told : spellOut l.got (h.after l.since) <+: h.after l.since
  /-- Each notice of a loss stands for as many records as it says. -/
  reach : (spellOut l.got (h.after l.since)).length = reach l.got
  /-- The snapshot goes up to the last record before, and what it was told on from there. -/
  piece : ∃ older newer,
    h.records = older ++ (l.snapshot ++ spellOut l.got (h.after l.since)) ++ newer ∧
      older.length + l.snapshot.length = l.since
  /-- When it ends, it was told of everything that came in before the channel was closed. -/
  ended : .ended ∈ l.got →
    h.closedAt.isSome = true ∧ spellOut l.got (h.after l.since) = h.after l.since

/-- A subscription that stands right behind what it was told of has one piece of the past. -/
theorem Hears.contiguous (hl : l.Hears b h) : l.Contiguous h := by
  refine ⟨hl.recounts.isPrefix, ?_, ?_, fun hended => ?_⟩
  · rw [hl.recounts.eq_take, List.length_take_of_le hl.recounts.le_length]
  · -- the records up to the snapshot, those that were told, and the rest
    obtain ⟨older, holder⟩ := hl.snapshot.isSuffix
    have hafter : h.after l.since <+: h.records.drop l.since :=
      List.IsPrefix.drop h.aired_isPrefix l.since
    obtain ⟨newer, hnewer⟩ := hl.recounts.isPrefix.trans hafter
    refine ⟨older, newer, ?_, ?_⟩
    · calc h.records
        _ = h.records.take l.since ++ h.records.drop l.since := (List.take_append_drop ..).symm
        _ = older ++ l.snapshot ++ (spellOut l.got (h.after l.since) ++ newer) := by
          rw [holder, hnewer]
        _ = older ++ (l.snapshot ++ spellOut l.got (h.after l.since)) ++ newer := by
          simp only [List.append_assoc]
    · rw [← List.length_append, holder, List.length_take_of_le hl.since]
  · -- only one that stands at its end was told so
    have hcursor : l.sub.cursor = .ended := by
      cases hcursor : l.sub.cursor with
      | before p => exact absurd hended (hl.before p hcursor).2.2
      | ended => rfl
    obtain ⟨hclosed, hle⟩ := hl.ended hcursor
    exact ⟨hclosed, hl.recounts.eq_of_length_le hle⟩

end Listener

/-! ### All subscriptions -/

namespace Broadcast

variable {b : Broadcast} {l : Listener} {k n : Nat}

/-- All channels show what was put into them, and all subscriptions hear of it. -/
structure Heard (b : Broadcast) : Prop where
  /-- All channels show what was put into them. -/
  sound : b.Sound
  /-- Each subscription hears of its channel. -/
  hears : ∀ k l, b.listeners.find? k = some l →
    ∃ h, b.chronicles.find? l.sub.channel = some h ∧ l.Hears b.hub.bounds h

theorem heard_start (c : ConsoleConfig) : (start c).Heard := ⟨sound_start c, nofun⟩

/-- The chronicles of all channels are still there and may have grown. -/
def Grown (t t' : Table Nat Chronicle) : Prop :=
  ∀ n h, t.find? n = some h → ∃ h', t'.find? n = some h' ∧ h.Grows h'

theorem Grown.refl (t : Table Nat Chronicle) : Grown t t := fun _ h hh => ⟨h, hh, .refl h⟩

/-- One chronicle grows, and the others stay. -/
theorem Grown.modify {t : Table Nat Chronicle} {f : Chronicle → Chronicle}
    (hf : ∀ h, t.find? n = some h → h.Grows (f h)) : Grown t (t.modify n f) := fun m h hh => by
  by_cases hm : m = n
  · subst hm
    exact ⟨f h, by rw [Table.find?_modify_self, hh]; rfl, hf h hh⟩
  · exact ⟨h, by rw [Table.find?_modify_of_ne _ _ hm, hh], .refl h⟩

/-- A chronicle is begun that there was not before. -/
theorem Grown.insert_of_none {t : Table Nat Chronicle} (hn : t.find? n = none) (h : Chronicle) :
    Grown t (t.insert n h) := fun m h' hh => by
  have hm : m ≠ n := fun heq => by
    rw [heq, hn] at hh
    cases hh
  exact ⟨h', by rw [Table.find?_insert_of_ne _ _ hm, hh], .refl h'⟩

/-- Chronicles only grow, whatever happens. -/
theorem Sound.grown (hb : b.Sound) (e : Event) : Grown b.chronicles (b.step e).chronicles := by
  have hadd : ∀ n r h, b.chronicles.find? n = some h → h.Grows (h.add r) := fun n r h hh => by
    obtain ⟨c, -, hs⟩ := hb.agree.find?_right hh
    exact .add hs r
  cases e with
  | openFor id =>
    -- a console that is opened has a chronicle already or begins one
    simp only [Broadcast.step]
    split
    · exact .refl _
    · rename_i hnew
      exact .insert_of_none (Option.not_isSome_iff_eq_none.1 hnew) _
  | push w r => exact .modify (hadd _ _)
  | note n now message => exact .modify (hadd _ _)
  | close n => exact .modify fun h _ => .close h
  | remove id =>
    simp only [Broadcast.step]
    split
    · exact .refl _
    · exact .modify fun h _ => .close h
  | subscribe | next | leave =>
    simp only [Broadcast.step]
    repeat' split
    all_goals exact .refl _

/-- Only what is done to a subscription changes what it was told. -/
def Event.IsAbout (k : Nat) : Event → Prop
  | .subscribe j _ => j = k
  | .next j => j = k
  | .leave j => j = k
  | _ => False

/-- An event that is about another subscription leaves this one as it is. -/
theorem find?_listeners_step {e : Event} (h : ¬ e.IsAbout k) :
    (b.step e).listeners.find? k = b.listeners.find? k := by
  cases e with
  | openFor | push | note | close | remove => rfl
  | subscribe j n =>
    simp only [Broadcast.step]
    repeat' split
    all_goals first | rfl | exact Table.find?_insert_of_ne _ _ (Ne.symm h)
  | next j =>
    simp only [Broadcast.step]
    repeat' split
    all_goals first | rfl | exact Table.find?_insert_of_ne _ _ (Ne.symm h)
  | leave j =>
    simp only [Broadcast.step]
    split
    · rfl
    · exact Table.find?_erase_of_ne _ (Ne.symm h)

namespace Heard

/-- What is next for a subscription that stands before record `p`. -/
theorem tells (hb : b.Heard) (hl : b.listeners.find? k = some l) {p : Nat}
    (hp : l.sub.cursor = .before p) : ∃ h d cursor, b.chronicles.find? l.sub.channel = some h ∧
      b.hub.next l.sub = (d, { l.sub with cursor }) ∧ h.Tells p d cursor := by
  obtain ⟨h, hh, hhears⟩ := hb.hears k l hl
  obtain ⟨c, hc, hs⟩ := hb.sound.agree.find?_right hh
  refine ⟨h, _, _, hh, ?_, hs.tells (hhears.before p hp).2.1⟩
  rw [Hub.next, hc, hp]

/-- A subscription that is made hears of its channel, and one that there is goes on. -/
theorem hears_subscribe (hb : b.Heard) (n : Nat)
    (hl : (b.step (.subscribe k n)).listeners.find? k = some l) :
    ∃ h, b.chronicles.find? l.sub.channel = some h ∧ l.Hears b.hub.bounds h := by
  rw [Broadcast.step] at hl
  split at hl
  · exact hb.hears k l hl
  · split at hl
    · exact hb.hears k l hl
    · rename_i c hc
      obtain ⟨h, hh, hs⟩ := hb.sound.agree.find? hc
      rw [Table.find?_insert_self, Option.some.injEq] at hl
      subst hl
      have hchronicle : b.chronicle n = h := by
        rw [chronicle, hh]
        rfl
      exact ⟨h, hh, hchronicle ▸ .follow hs n⟩

/-- A subscription that is asked goes on to hear of its channel. -/
theorem hears_next (hb : b.Heard) (hl : (b.step (.next k)).listeners.find? k = some l) :
    ∃ h, b.chronicles.find? l.sub.channel = some h ∧ l.Hears b.hub.bounds h := by
  rw [Broadcast.step] at hl
  split at hl
  · exact hb.hears k l hl
  · rename_i l₀ hl₀
    obtain ⟨h, hh, hhears⟩ := hb.hears k l₀ hl₀
    split at hl
    · exact hb.hears k l hl
    · rename_i d sub hwait hnext
      rw [Table.find?_insert_self, Option.some.injEq] at hl
      subst hl
      cases hcursor : l₀.sub.cursor with
      | before p =>
        -- it stands somewhere, and the channel tells what is next there
        obtain ⟨h', d', cursor, hh', hnext', htells⟩ := hb.tells hl₀ hcursor
        obtain rfl := Option.some.inj (hh.symm.trans hh')
        rw [hnext', Prod.mk.injEq] at hnext
        obtain ⟨rfl, rfl⟩ := hnext
        exact ⟨h, hh, hhears.tell hcursor htells fun hd => hwait (hd ▸ rfl)⟩
      | ended =>
        -- it is at its end and hears so again
        obtain ⟨c, hc, -⟩ := hb.sound.agree.find?_right hh
        rw [Hub.next, hc, hcursor] at hnext
        obtain ⟨rfl, rfl⟩ := Prod.mk.inj hnext
        exact ⟨h, hh, hhears.tellEnded hcursor⟩

/-- A subscription hears of its channel as it was before an event. -/
theorem hears_step (hb : b.Heard) (e : Event) (hl : (b.step e).listeners.find? k = some l) :
    ∃ h, b.chronicles.find? l.sub.channel = some h ∧ l.Hears b.hub.bounds h := by
  by_cases he : e.IsAbout k
  · cases e with
    | openFor | push | note | close | remove => exact he.elim
    | subscribe j n =>
      obtain rfl : j = k := he
      exact hb.hears_subscribe n hl
    | next j =>
      obtain rfl : j = k := he
      exact hb.hears_next hl
    | leave j =>
      obtain rfl : j = k := he
      rw [Broadcast.step] at hl
      split at hl
      · exact hb.hears j l hl
      · rw [Table.find?_erase_self] at hl
        cases hl
  · rw [find?_listeners_step he] at hl
    exact hb.hears k l hl

/-- Every event leaves all subscriptions right behind what they were told of: an event is about one
    of them, and for the others the chronicles only grow. -/
theorem step (hb : b.Heard) (e : Event) : (b.step e).Heard := by
  refine ⟨hb.sound.step e, fun k l hl => ?_⟩
  obtain ⟨h, hh, hhears⟩ := hb.hears_step e hl
  obtain ⟨h', hh', hgrows⟩ := hb.sound.grown e _ h hh
  rw [bounds_step]
  exact ⟨h', hh', hhears.grow hgrows⟩

/-- Hence so does every run. -/
theorem play (hb : b.Heard) (events : List Event) : (b.play events).Heard :=
  play_induct (P := Heard) (fun _ e hb => hb.step e) hb events

end Heard

/-- Whatever is done to the consoles of a node and in whatever order, what a subscription was
    told is the beginning of what came into its channel since it was made and before the channel
    was closed. It makes one piece of the past of the channel with the snapshot. When it is told
    that there is no more, it was told of everything, and when it has to wait, it was told of
    everything so far and the channel is open. -/
theorem contiguous_of_play (config : ConsoleConfig) (events : List Event) {k : Nat} {l : Listener}
    (hl : ((start config).play events).listeners.find? k = some l) :
    l.Contiguous (((start config).play events).chronicle l.sub.channel) ∧
      ((((start config).play events).hub.next l.sub).1 = .pending →
        (((start config).play events).chronicle l.sub.channel).closedAt = none ∧
          spellOut l.got ((((start config).play events).chronicle l.sub.channel).after l.since) =
            (((start config).play events).chronicle l.sub.channel).after l.since) := by
  have hheard := (heard_start config).play events
  obtain ⟨h, hh, hhears⟩ := hheard.hears k l hl
  rw [chronicle, hh, Option.getD_some]
  refine ⟨hhears.contiguous, fun hwait => ?_⟩
  cases hcursor : l.sub.cursor with
  | before p =>
    obtain ⟨h', d, cursor, hh', hnext, htells⟩ := hheard.tells hl hcursor
    obtain rfl := Option.some.inj (hh.symm.trans hh')
    rw [hnext] at hwait
    -- it stands before a record and waits, so it stands at the end
    subst hwait
    cases htells with
    | pending hend hopen =>
      refine ⟨hopen, hhears.recounts.eq_of_length_le ?_⟩
      have hp := (hhears.before p hcursor).1
      rw [Chronicle.after, List.length_drop]
      omega
  | ended =>
    obtain ⟨c, hc, -⟩ := hheard.sound.agree.find?_right hh
    rw [Hub.next, hc, hcursor] at hwait
    cases hwait

/-- A line of a guest. -/
def lineAt (now : Int64) : Event := .push ⟨"i-1", 0⟩ (.stdout now "line")

/-- A subscription whose queue is short falls behind, twice in a row, and goes on until the
    console is given up. A line comes in after that. -/
def outrun : List Event :=
  [.openFor "i-1", lineAt 1, lineAt 2, .subscribe 7 0, lineAt 3, lineAt 4, lineAt 5, lineAt 6, .next 7,
    lineAt 7, .note 0 8 "stopped", .next 7, .next 7, .remove "i-1", lineAt 9, .next 7, .next 7]

/-- It is told of two lines and of the loss of the others, and that there is no more. -/
theorem contiguous_outrun : ∃ l, ((start ⟨1000, 1000, 2, 64⟩).play outrun).listeners.find? 7 =
      some l ∧
    l.got = [.lagged 2, .lagged 2, .record (.stdout 7 "line"), .record (.system 8 "stopped"),
      .ended] ∧
    l.Contiguous (((start ⟨1000, 1000, 2, 64⟩).play outrun).chronicle l.sub.channel) := by
  let l := (((start ⟨1000, 1000, 2, 64⟩).play outrun).listeners.find? 7).get (by decide +kernel)
  have hl : ((start ⟨1000, 1000, 2, 64⟩).play outrun).listeners.find? 7 = some l :=
    (Option.some_get _).symm
  exact ⟨l, hl, by decide +kernel, (contiguous_of_play ⟨1000, 1000, 2, 64⟩ outrun hl).1⟩

end Broadcast

end VmNode.Console
