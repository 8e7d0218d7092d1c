import VmNode.Proofs.Console.Followers
import VmNode.Proofs.Console.Hub
import VmNode.Proofs.Console.Listener

/-!
# Consoles that do not disturb each other

What a console shows depends on what is put into it, and on nothing else: not on who follows it,
how many do and how far they are behind, and not on the consoles of other instances or on the
ones that the instance had before.

Channels are kept apart by their numbers. A number that was given to a channel is given to none
that is opened later (`Sound.current_of_step`), so a channel that a call or a writer found under
another name, or before the console was given up, is not the one that the instance has now
(`Foreign.channel_ne`). What is done to it leaves the other as it is (`Undisturbed`).

Main statement: `Broadcast.independent_of_play`.
-/

namespace VmNode.Console

namespace Broadcast

variable {config : ConsoleConfig} {events : List Event} {b b' b'' : Broadcast} {e : Event}
variable {id other : InstanceId} {n m k : Nat} {l : Listener}

/-! ### The numbers of channels -/

/-- There is a chronicle for each channel. -/
theorem Sound.isSome_chronicles (hb : b.Sound) (n : Nat) :
    (b.chronicles.find? n).isSome = (b.hub.channels.find? n).isSome := by
  rcases hb.agree.both_or_neither n with ⟨hx, hy⟩ | ⟨c, h, hx, hy, -⟩
  · rw [hx, hy]
    rfl
  · rw [hx, hy]
    rfl

/-- A channel that there is remains. -/
theorem Sound.isSome_channels_step (hb : b.Sound) (hn : (b.hub.channels.find? n).isSome = true)
    (e : Event) : ((b.step e).hub.channels.find? n).isSome = true := by
  rw [← hb.isSome_chronicles, Option.isSome_iff_exists] at hn
  obtain ⟨h, hh⟩ := hn
  obtain ⟨h', hh', -⟩ := hb.grown e n h hh
  rw [← (hb.step e).isSome_chronicles, hh']
  rfl

/-- A console that an instance has, it had before, unless it was opened just now and its channel
    was not there before. -/
theorem Sound.current_of_step (hb : b.Sound) (hn : (b.step e).hub.current.find? id = some n) :
    b.hub.current.find? id = some n ∨
      (e = .openFor id ∧ b.hub.channels.find? n = none) := by
  cases e with
  | push | note | close => exact .inl hn
  | openFor j =>
    -- a console that is there is found, and otherwise one with a new number is opened
    simp only [Broadcast.step, Hub.openFor] at hn
    cases hj : b.hub.current.find? j with
    | some i =>
      rw [hj] at hn
      exact .inl hn
    | none =>
      rw [hj] at hn
      by_cases hid : id = j
      · subst hid
        simp only [Table.find?_insert_self, Option.some.injEq] at hn
        exact .inr ⟨rfl, hn ▸ hb.numbered.find?_size⟩
      · simp only [Table.find?_insert_of_ne _ _ hid] at hn
        exact .inl hn
  | remove j =>
    -- the instance gives its own console up, or another one does
    by_cases hid : id = j
    · subst hid
      simp only [Broadcast.step, Hub.find?_remove_self] at hn
      cases hn
    · simp only [Broadcast.step, Hub.find?_remove_of_ne _ _ hid] at hn
      exact .inl hn
  | subscribe | next =>
    refine .inl ?_
    rw [Broadcast.step] at hn
    repeat' split at hn
    all_goals exact hn
  | leave k =>
    refine .inl ?_
    rw [Broadcast.step] at hn
    split at hn
    · exact hn
    · rwa [Hub.current_unsubscribe] at hn

/-- An instance that has a channel that was there before had it then. -/
theorem Sound.current_of_play (hb : b.Sound) (hn : (b.hub.channels.find? n).isSome = true)
    (h : (b.play events).hub.current.find? id = some n) : b.hub.current.find? id = some n := by
  induction events generalizing b with
  | nil => exact h
  | cons e rest ih =>
    have hnext := ih (hb.step e) (hb.isSome_channels_step hn e) h
    rcases hb.current_of_step hnext with hold | ⟨-, hnew⟩
    · exact hold
    · rw [hnew] at hn
      cases hn

/-- A run goes on where another has ended. -/
theorem play_append (b : Broadcast) (before after : List Event) :
    b.play (before ++ after) = (b.play before).play after :=
  List.foldl_append

/-- No two instances have the same channel. -/
theorem current_inj (hid : ((start config).play events).hub.current.find? id = some n)
    (hother : ((start config).play events).hub.current.find? other = some n) : id = other := by
  have hinv : ((start config).play events).Sound ∧ ∀ id other n,
      ((start config).play events).hub.current.find? id = some n →
        ((start config).play events).hub.current.find? other = some n → id = other := by
    refine play_induct (P := fun b => b.Sound ∧ ∀ id other n, b.hub.current.find? id = some n →
      b.hub.current.find? other = some n → id = other) (fun b e hb => ⟨hb.1.step e, ?_⟩)
      ⟨sound_start config, nofun⟩ events
    intro id other n hid hother
    -- a channel that one of them had is not the new one of the other
    have hold : ∀ id, b.hub.current.find? id = some n → b.hub.channels.find? n ≠ none :=
      fun id hid hnone => by
        have hsome := hb.1.current id n hid
        rw [hnone] at hsome
        cases hsome
    rcases hb.1.current_of_step hid with hid | ⟨hid, hnew⟩
    · rcases hb.1.current_of_step hother with hother | ⟨-, hnew⟩
      · exact hb.2 id other n hid hother
      · exact absurd hnew (hold id hid)
    · rcases hb.1.current_of_step hother with hother | ⟨hother, -⟩
      · exact absurd hnew (hold other hother)
      · rw [hid] at hother
        exact Event.openFor.inj hother
  exact hinv.2 id other n hid hother

/-! ### What is done elsewhere -/

/-- In the course of the events the instance had the channel: calls that name the instance may
    have found it, and writers may have been made for it. -/
def Found (config : ConsoleConfig) (events : List Event) (id : InstanceId) (n : Nat) : Prop :=
  ∃ before, before <+: events ∧ ((start config).play before).hub.current.find? id = some n

/-- The channel that an event works on, if it has found one. -/
def Event.channel? (b : Broadcast) : Event → Option Nat
  | .openFor _ | .remove _ => none
  | .push w _ => some w.channel
  | .note n _ _ | .close n | .subscribe _ n => some n
  | .next k | .leave k => (b.listeners.find? k).map fun l => l.sub.channel

/-- What is not done to the console that the instance has after the events, but to another
    instance, or to a channel that was found before the console was given up. -/
inductive Foreign (config : ConsoleConfig) (events : List Event) (id : InstanceId) : Event → Prop
  /-- A console is opened for another instance. -/
  | openFor {other : InstanceId} : other ≠ id → Foreign config events id (.openFor other)
  /-- Another instance gives its console up. -/
  | remove {other : InstanceId} : other ≠ id → Foreign config events id (.remove other)
  /-- It is done to a channel that was found for another instance. -/
  | elsewhere {e : Event} {other : InstanceId} {n : Nat} : other ≠ id →
    Found config events other n → e.channel? ((start config).play events) = some n →
    Foreign config events id e
  /-- It is done to a channel that was found before the console was given up. -/
  | late {e : Event} {before after : List Event} {n : Nat} :
    events = before ++ .remove id :: after → Found config before id n →
    e.channel? ((start config).play events) = some n → Foreign config events id e

/-- A writer that was made for an instance has the channel that the instance had then. -/
theorem Found.of_openFor (config : ConsoleConfig) (before after : List Event) (id : InstanceId) :
    Found config (before ++ .openFor id :: after) id
      (((start config).play before).hub.openFor id).1.channel := by
  refine ⟨before ++ [.openFor id], ⟨after, by simp⟩, ?_⟩
  rw [play_append]
  show (Hub.openFor _ id).2.current.find? id = _
  rw [Hub.openFor]
  split
  · assumption
  · exact Table.find?_insert_self ..

/-- A channel that was found is there. -/
theorem Found.isSome_channels (h : Found config events id n) :
    (((start config).play events).hub.channels.find? n).isSome = true := by
  obtain ⟨before, ⟨after, rfl⟩, hn⟩ := h
  have hsound := (sound_start config).play before
  rw [play_append]
  exact (play_induct (P := fun b => b.Sound ∧ (b.hub.channels.find? n).isSome = true)
    (fun b e hb => ⟨hb.1.step e, hb.1.isSome_channels_step hb.2 e⟩)
    ⟨hsound, hsound.current id n hn⟩ after).2

/-- The channel of another instance is another one. -/
theorem Found.ne (h : Found config events other m) (hother : other ≠ id)
    (hn : ((start config).play events).hub.current.find? id = some n) : m ≠ n := by
  rintro rfl
  obtain ⟨before, ⟨after, rfl⟩, hm⟩ := h
  have hsound := (sound_start config).play before
  rw [play_append] at hn
  exact hother (current_inj hm (hsound.current_of_play (hsound.current other m hm) hn))

/-- A channel that was found before the console was given up is another one than it has later. -/
theorem Found.ne_of_remove {before after : List Event} (h : Found config before id m)
    (hn : ((start config).play (before ++ .remove id :: after)).hub.current.find? id = some n) :
    m ≠ n := by
  rintro rfl
  have hsound := ((sound_start config).play before).step (.remove id)
  have hm := ((sound_start config).play before).isSome_channels_step h.isSome_channels (.remove id)
  rw [play_append] at hn
  have hid := hsound.current_of_play hm hn
  rw [step, Hub.find?_remove_self] at hid
  cases hid

/-- What is done elsewhere is done to another channel, if it is done to a channel. -/
theorem Foreign.channel_ne (h : Foreign config events id e)
    (hn : ((start config).play events).hub.current.find? id = some n)
    (hm : e.channel? ((start config).play events) = some m) : m ≠ n := by
  cases h with
  | openFor | remove => cases hm
  | elsewhere hother hfound hchannel =>
    obtain rfl := Option.some.inj (hchannel.symm.trans hm)
    exact hfound.ne hother hn
  | late hevents hfound hchannel =>
    obtain rfl := Option.some.inj (hchannel.symm.trans hm)
    subst hevents
    exact hfound.ne_of_remove hn

/-! ### What is left as it is -/

/-- The console of an instance, which is the channel `n`, and all who follow it are as they
    were. -/
structure Undisturbed (id : InstanceId) (n : Nat) (b b' : Broadcast) : Prop where
  /-- The console has the channel that it had. -/
  current : b'.hub.current.find? id = b.hub.current.find? id
  /-- The channel is as it was. -/
  channel : b'.hub.channels.find? n = b.hub.channels.find? n
  /-- Followers have been told what they had been told. -/
  listeners : ∀ k l, l.sub.channel = n →
    (b'.listeners.find? k = some l ↔ b.listeners.find? k = some l)

namespace Undisturbed

theorem refl (id : InstanceId) (n : Nat) (b : Broadcast) : Undisturbed id n b b :=
  ⟨rfl, rfl, fun _ _ _ => Iff.rfl⟩

theorem trans (h : Undisturbed id n b b') (h' : Undisturbed id n b' b'') :
    Undisturbed id n b b'' :=
  ⟨h'.current.trans h.current, h'.channel.trans h.channel,
    fun k l hl => (h'.listeners k l hl).trans (h.listeners k l hl)⟩

/-- A subscription of that channel gets what it would have got. -/
theorem next_eq (h : Undisturbed id n b b') {s : Subscription} (hs : s.channel = n) :
    b'.hub.next s = b.hub.next s := by
  rw [Hub.next, Hub.next, hs, h.channel]

/-- The console shows what it would have shown. -/
theorem snapshot_eq (h : Undisturbed id n b b') (hn : b.hub.current.find? id = some n) :
    b'.hub.snapshot id = b.hub.snapshot id := by
  rw [Hub.snapshot, Hub.snapshot, Hub.lookUp, Hub.lookUp, Hub.channel?, Hub.channel?, h.current, hn]
  simp only [Option.bind_some, h.channel]

/-- Another subscription takes the place of one that follows another channel, or of none. -/
theorem listeners_insert {listeners : Table Nat Listener} {l : Listener}
    (hl : l.sub.channel ≠ n) (hk : ∀ l, listeners.find? k = some l → l.sub.channel ≠ n) (j : Nat)
    (l' : Listener) (hl' : l'.sub.channel = n) :
    (listeners.insert k l).find? j = some l' ↔ listeners.find? j = some l' := by
  by_cases hj : j = k
  · rw [hj, Table.find?_insert_self]
    constructor
    · intro h
      exact absurd hl' (Option.some.inj h ▸ hl)
    · intro h
      exact absurd hl' (hk l' h)
  · rw [Table.find?_insert_of_ne _ _ hj]

/-- Only another channel and its followers are changed by what is done to it. -/
theorem of_channel_ne (hm : e.channel? b = some m) (hne : m ≠ n) :
    Undisturbed id n b (b.step e) := by
  cases e with
  -- these are done to a console and not to a channel
  | openFor | remove => cases hm
  | push | note | close =>
    -- the channel is changed in its place
    obtain rfl := Option.some.inj hm
    exact ⟨rfl, Table.find?_modify_of_ne _ _ hne.symm, fun _ _ _ => Iff.rfl⟩
  | subscribe k i =>
    obtain rfl := Option.some.inj hm
    rw [step]
    split
    · exact refl ..
    · rename_i hk
      split
      · exact refl ..
      · -- a new follower has a number that no other one has
        refine ⟨rfl, Table.find?_insert_of_ne _ _ hne.symm, fun j l' hl' => ?_⟩
        refine listeners_insert hne (fun l hl => absurd ?_ hk) j l' hl'
        rw [Table.contains, hl]
        rfl
  | next k =>
    -- a follower moves on in the channel that it follows
    obtain ⟨l, hl, rfl⟩ := Option.map_eq_some_iff.1 hm
    simp only [step, hl]
    split
    · exact refl ..
    · rename_i d sub _ hnext
      have hsub : sub.channel = l.sub.channel := by
        rw [← Hub.channel_next b.hub l.sub, hnext]
      refine ⟨rfl, rfl, listeners_insert (hsub ▸ hne) fun l₀ hl₀ => ?_⟩
      rw [hl] at hl₀
      exact Option.some.inj hl₀ ▸ hne
  | leave k =>
    -- a follower leaves, who did not follow the other channel
    obtain ⟨l, hl, rfl⟩ := Option.map_eq_some_iff.1 hm
    rw [step, hl]
    refine ⟨congrArg (·.find? id) (Hub.current_unsubscribe ..), ?_, fun j l' hl' => ?_⟩
    · simp only [Hub.unsubscribe]
      split
      · rfl
      · exact Table.find?_modify_of_ne _ _ hne.symm
    · by_cases hj : j = k
      · rw [hj, Table.find?_erase_self, hl]
        constructor
        · intro h
          cases h
        · intro h
          exact absurd hl' (Option.some.inj h ▸ hne)
      · rw [Table.find?_erase_of_ne _ hj]

/-- The console of another instance is opened. -/
theorem of_openFor (hb : b.Sound) (hn : b.hub.current.find? id = some n) (hother : other ≠ id) :
    Undisturbed id n b (b.step (.openFor other)) := by
  refine ⟨Hub.find?_openFor_of_ne _ _ hother.symm, ?_, fun _ _ _ => Iff.rfl⟩
  show (Hub.openFor _ other).2.channels.find? n = _
  rw [Hub.openFor]
  split
  · rfl
  · refine Table.find?_insert_of_ne _ _ fun hsize => ?_
    -- the channel that is opened has a new number
    have hsome := hb.current id n hn
    rw [hsize, hb.numbered.find?_size] at hsome
    cases hsome

/-- The console of another instance is given up. -/
theorem of_remove (hn : b.hub.current.find? other ≠ some n) (hother : other ≠ id) :
    Undisturbed id n b (b.step (.remove other)) := by
  refine ⟨Hub.find?_remove_of_ne _ _ hother.symm, ?_, fun _ _ _ => Iff.rfl⟩
  show (Hub.remove _ other).channels.find? n = _
  rw [Hub.remove]
  split
  · rename_i m hm
    refine Table.find?_modify_of_ne _ _ fun hnm => hn ?_
    rw [hm, hnm]
  · rfl

end Undisturbed

/-- What is done elsewhere, or by a writer from before, leaves the console as it is. -/
theorem Foreign.undisturbed (h : Foreign config events id e)
    (hn : ((start config).play events).hub.current.find? id = some n) :
    Undisturbed id n ((start config).play events) (((start config).play events).step e) := by
  cases hm : e.channel? ((start config).play events) with
  | some m => exact .of_channel_ne hm (h.channel_ne hn hm)
  | none =>
    cases h with
    | openFor hother => exact .of_openFor ((sound_start config).play events) hn hother
    | remove hother => exact .of_remove (fun h => hother (current_inj h hn)) hother
    | elsewhere _ _ hchannel | late _ _ hchannel =>
      rw [hm] at hchannel
      cases hchannel

/-- All that is done after the events is done elsewhere, as it comes. -/
def AllForeign (config : ConsoleConfig) (events : List Event) (id : InstanceId) :
    List Event → Prop
  | [] => True
  | e :: rest => Foreign config events id e ∧ AllForeign config (events ++ [e]) id rest

/-- So do any number of such events, each of which is foreign to what was done before it. -/
theorem AllForeign.undisturbed {more : List Event} (h : AllForeign config events id more)
    (hn : ((start config).play events).hub.current.find? id = some n) :
    Undisturbed id n ((start config).play events) ((start config).play (events ++ more)) := by
  induction more generalizing events with
  | nil =>
    rw [List.append_nil]
    exact .refl ..
  | cons e rest ih =>
    obtain ⟨he, hrest⟩ := h
    have hlast : (start config).play (events ++ [e]) = ((start config).play events).step e :=
      play_append ..
    have hfirst := he.undisturbed hn
    rw [← hlast] at hfirst
    rw [List.append_cons]
    exact hfirst.trans (ih hrest (hfirst.current.trans hn))

/-- What a console shows depends on what is put into it and on nothing else.

    * Runs in which the same is done to the consoles show the same, whoever follows them.
    * A subscription gets the same in runs in which the same is done to the consoles and to it,
      and what is next for it is the same, whoever else follows them and however far behind.
    * What is done to the consoles of other instances, or to a channel that was found before the
      console was given up, by a writer or by a call that comes late, leaves the console that the
      instance has now as it is, with all who follow it and what is next for them. -/
theorem independent_of_play (config : ConsoleConfig) :
    (∀ events events', seenBy none events = seenBy none events' → ∀ id,
      ((start config).play events).hub.snapshot id =
        ((start config).play events').hub.snapshot id) ∧
    (∀ k k' events events', seenBy (some k) events = seenBy (some k') events' →
      ((start config).play events).listeners.find? k =
          ((start config).play events').listeners.find? k' ∧
        ∀ s, ((start config).play events).hub.next s = ((start config).play events').hub.next s) ∧
    ∀ events more id n, ((start config).play events).hub.current.find? id = some n →
      AllForeign config events id more →
      ((start config).play (events ++ more)).hub.current.find? id = some n ∧
        ((start config).play (events ++ more)).hub.snapshot id =
          ((start config).play events).hub.snapshot id ∧
        ∀ k l, l.sub.channel = n →
          (((start config).play (events ++ more)).listeners.find? k = some l ↔
            ((start config).play events).listeners.find? k = some l) ∧
          ((start config).play (events ++ more)).hub.next l.sub =
            ((start config).play events).hub.next l.sub := by
  have hseen := fun who events =>
    (Alike.start who config).play (sound_start config) (sound_start config) events
  refine ⟨fun events events' heq id => ?_, fun k k' events events' heq => ⟨?_, fun s => ?_⟩,
    fun events more id n hn hmore => ?_⟩
  · have hsnapshot := (hseen none events).hub.snapshot_eq id
    rw [heq, (hseen none events').hub.snapshot_eq id] at hsnapshot
    exact hsnapshot.symm
  · have hlistener := (hseen (some k) events).listener k rfl
    rw [heq, (hseen (some k') events').listener k' rfl] at hlistener
    exact hlistener.symm
  · have hnext := (hseen (some k) events).hub.next_eq s
    rw [heq, (hseen (some k') events').hub.next_eq s] at hnext
    exact hnext.symm
  · have hun := hmore.undisturbed hn
    exact ⟨hun.current.trans hn, hun.snapshot_eq hn,
      fun k l hl => ⟨hun.listeners k l hl, hun.next_eq hl⟩⟩

/-- The node has three lines of a guest to pass on while two follow its console. One of them
    falls behind, and the other leaves. -/
def crowded : List Event :=
  [.openFor "i-1", .subscribe 8 0, lineAt 1, .subscribe 7 0, lineAt 2, .next 8, lineAt 3, .next 8,
    .leave 8, lineAt 4, .next 7, .next 7]

/-- The same with one that follows it. -/
def quiet : List Event :=
  [.openFor "i-1", lineAt 1, .subscribe 3 0, lineAt 2, lineAt 3, lineAt 4, .next 3, .next 3]

/-- The console of an instance was given up and is opened again, and one follows it. -/
def reopened : List Event :=
  [.openFor "i-1", lineAt 1, .openFor "i-2", .remove "i-1", .openFor "i-1", .subscribe 9 2,
    .push ⟨"i-1", 2⟩ (.stdout 2 "again")]

/-- A line comes late, the console of another instance gets a note, and that is given up. -/
def elsewhere : List Event := [lineAt 3, .note 1 4 "stopped", .remove "i-2"]

theorem independent_crowded :
    (seenBy none crowded = seenBy none quiet ∧
      ((start ⟨1000, 1000, 2, 64⟩).play crowded).hub.snapshot "i-1" =
        ((start ⟨1000, 1000, 2, 64⟩).play quiet).hub.snapshot "i-1") ∧
    (seenBy (some 7) crowded = seenBy (some 3) quiet ∧
      ∃ l, ((start ⟨1000, 1000, 2, 64⟩).play quiet).listeners.find? 3 = some l ∧
        l.got = [.lagged 1, .record (.stdout 3 "line")] ∧
        ((start ⟨1000, 1000, 2, 64⟩).play crowded).listeners.find? 7 = some l) ∧
    (((start ⟨1000, 1000, 2, 64⟩).play reopened).hub.current.find? "i-1" = some 2 ∧
      AllForeign ⟨1000, 1000, 2, 64⟩ reopened "i-1" elsewhere ∧
      ((start ⟨1000, 1000, 2, 64⟩).play (reopened ++ elsewhere)).hub.snapshot "i-1" =
        ((start ⟨1000, 1000, 2, 64⟩).play reopened).hub.snapshot "i-1") := by
  have hseen : seenBy none crowded = seenBy none quiet := rfl
  have hseen' : seenBy (some 7) crowded = seenBy (some 3) quiet := rfl
  have hopened : ((start ⟨1000, 1000, 2, 64⟩).play reopened).hub.current.find? "i-1" = some 2 := by
    decide +kernel
  have hlate := Found.of_openFor ⟨1000, 1000, 2, 64⟩ [] [lineAt 1, .openFor "i-2"] "i-1"
  have hother := Found.of_openFor ⟨1000, 1000, 2, 64⟩ [.openFor "i-1", lineAt 1]
    (reopened.drop 3 ++ [lineAt 3]) "i-2"
  have hforeign : AllForeign ⟨1000, 1000, 2, 64⟩ reopened "i-1" elsewhere :=
    ⟨.late rfl hlate rfl, Foreign.elsewhere (by decide : "i-2" ≠ "i-1") hother rfl,
      .remove (by decide), trivial⟩
  let l := (((start ⟨1000, 1000, 2, 64⟩).play quiet).listeners.find? 3).get (by decide +kernel)
  have hl : ((start ⟨1000, 1000, 2, 64⟩).play quiet).listeners.find? 3 = some l :=
    (Option.some_get _).symm
  obtain ⟨hshow, hget, hleave⟩ := independent_of_play ⟨1000, 1000, 2, 64⟩
  exact ⟨⟨hseen, hshow _ _ hseen "i-1"⟩,
    ⟨hseen', l, hl, by decide +kernel, (hget 7 3 _ _ hseen').1.trans hl⟩,
    hopened, hforeign, (hleave _ _ _ _ hopened hforeign).2.1⟩

end Broadcast

end VmNode.Console
