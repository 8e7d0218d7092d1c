import Mathlib.Data.List.Infix
import VmNode.Proofs.Node.Happening

/-!
# Calls that wait for a report

A call that waits for a guest to report a state searches the buffer of the console and then
takes whatever comes in, until its deadline. It hears of a report that is in the buffer, and of
one that comes in later if it is asked to go on before too many other records come in
(`Node.heard_of_reported`): until it has come to the report, the queue of the console must not
have lost it (`Node.isOvertaken`). A call that is overtaken is not told which records it has
missed, and does not search the buffer again, so that it ends as if there had been no report
(`Node.unheard_burst`).

The call stands before a record that is not behind the report, and goes on by one record at
least each time (`Console.Hub.HasSent.next`), so that it is there by as many steps as records
have come in since it began to wait (`Node.answered_of_polls`).
-/

namespace VmNode

namespace Node

open Console (Hub Channel truncate)

/-- The channel and the record that somebody puts into it. -/
def Happening.written? (n : Node) : Happening → Option (Nat × LogRecord)
  | .push w r => some (w.channel, r)
  | .move (.print w line) => some (w.channel, GuestLine.parse n.now line)
  | _ => none

/-- A task is asked to go on. -/
def Happening.isPoll (t : Nat) : Happening → Bool
  | .move (.run u) => t == u
  | _ => false

/-- How often a task is asked to go on. -/
def polls (t : Nat) (happenings : List Happening) : Nat := happenings.countP (Happening.isPoll t)

/-- A task that follows a console has not come to record `p`, and the queue has lost it: too many
    others have been sent after it. -/
def isOvertaken (n : Node) (t p : Nat) : Bool :=
  match n.work? t with
  | some (.report _ _ _ (.follow ⟨k, .before q⟩ _)) =>
    (n.hub.channels.find? k).any fun c => q ≤ p && p + c.capacity < c.sent
  | _ => false

/-- A report of `state` is there for task `t`, which waits for one and searches the console now
    before anything else happens. -/
inductive Reported (n : Node) (t : Nat) (id : InstanceId) (state : String) (timeout : Nat) :
    List Happening → Prop
  /-- It is in the buffer. -/
  | buffered {buffer : List LogRecord} {r : LogRecord} {later : List Happening} :
    n.hub.snapshot id = .ok buffer → r ∈ buffer → r.isReport state = true →
    Reported n t id state timeout later
  /-- It comes in before the deadline and before the console is closed, and the task, which is
      asked to go on as often as records have come in by then, is not overtaken. -/
  | live {k : Nat} {r : LogRecord} {before later : List Happening} {h : Happening} {m : Node} :
    n.hub.current.find? id = some k → n.playFreely (.move (.run t) :: before) = m →
    h.written? m = some (k, r) → r.isReport state = true →
    m.clock < n.clock + timeout → m.hub.isOpen k = true →
    m.hub.sent k + 1 ≤ n.hub.sent k + polls t later →
    (∀ seen ∈ later.inits, (m.playFreely (h :: seen)).isOvertaken t (m.hub.sent k) = false) →
    Reported n t id state timeout (before ++ h :: later)

/-- The call has ended with a report of the state, unless its caller has gone away. -/
def Answered (n : Node) (t : Nat) (id : InstanceId) (state : String) (timeout : Nat) : Prop :=
  n.work? t = some .gone ∨ ∃ r, n.work? t = some (.report id state timeout (.ended (.ok r))) ∧
    r.isReport state = true

/-- The call follows a channel, and stands before record `q`. -/
def Follows (n : Node) (t : Nat) (id : InstanceId) (state : String) (timeout k deadline q : Nat) :
    Prop :=
  n.work? t = some (.report id state timeout (.follow ⟨k, .before q⟩ deadline))

/-- The call has its answer, or follows a channel and stands before a record from number `q` on
    that is sent next at the latest. -/
def Awaits (n : Node) (t : Nat) (id : InstanceId) (state : String) (timeout k deadline q : Nat) :
    Prop :=
  n.Answered t id state timeout ∨
    ∃ q', n.Follows t id state timeout k deadline q' ∧ q ≤ q' ∧ q' ≤ n.hub.sent k

variable {n m : Node} {t k p q timeout deadline : Nat} {id : InstanceId} {state : String}
variable {phase : ReportPhase} {c : Channel} {r : LogRecord}

/-! ### Steps of the call -/

/-- The call takes its next step, or waits on. -/
theorem work?_poll (hn : n.tasks.IsNumbered)
    (ht : n.work? t = some (.report id state timeout phase)) :
    (n.stepFreely (.move (.run t))).work? t = some (.report id state timeout
      ((n.stepReport id state timeout phase).elim phase Prod.snd)) := by
  obtain ⟨task, hfind, hwork⟩ := Option.map_eq_some_iff.1 ht
  rw [stepFreely, Node.move, run]
  simp only [hfind, hwork, Work.errand?, stepWork]
  cases hstep : n.stepReport id state timeout phase with
  | none => exact ht
  | some found => exact work?_setWork_self ((extends_stepReport hstep).work? hn t _ ht) _

namespace Follows

variable {q' lost : Nat}

/-- The call gets a record, which is a report of the state, or goes on behind it. -/
theorem poll_record (ht : n.Follows t id state timeout k deadline q) (hn : n.tasks.IsNumbered)
    (hc : n.hub.channels.find? k = some c)
    (hnext : c.next (.before q) = (.record r, .before q')) :
    (n.stepFreely (.move (.run t))).Answered t id state timeout ∨ r.isReport state = false ∧
      (n.stepFreely (.move (.run t))).Follows t id state timeout k deadline q' := by
  have hwork := work?_poll hn ht
  simp only [stepReport, Hub.next, hc, hnext] at hwork
  cases hr : r.isReport state with
  | true =>
    simp only [hr, if_true] at hwork
    exact .inl (.inr ⟨r, hwork, hr⟩)
  | false =>
    simp only [hr, Bool.false_eq_true, if_false] at hwork
    exact .inr ⟨rfl, hwork⟩

/-- The call has lost records, and goes on behind them. -/
theorem poll_lagged (ht : n.Follows t id state timeout k deadline q) (hn : n.tasks.IsNumbered)
    (hc : n.hub.channels.find? k = some c)
    (hnext : c.next (.before q) = (.lagged lost, .before q')) :
    (n.stepFreely (.move (.run t))).Follows t id state timeout k deadline q' := by
  have hwork := work?_poll hn ht
  simp only [stepReport, Hub.next, hc, hnext] at hwork
  exact hwork

/-- The call waits on, as long as it has time. -/
theorem poll_pending (ht : n.Follows t id state timeout k deadline q) (hn : n.tasks.IsNumbered)
    (hc : n.hub.channels.find? k = some c) (hnext : c.next (.before q) = (.pending, .before q))
    (hclock : n.clock < deadline) :
    (n.stepFreely (.move (.run t))).Follows t id state timeout k deadline q := by
  have hwork := work?_poll hn ht
  simp only [stepReport, Hub.next, hc, hnext, if_neg (Nat.not_le.2 hclock)] at hwork
  exact hwork

/-- A call that is not overtaken has a record in front of it that is still in the queue. -/
theorem sent_le (ht : n.Follows t id state timeout k deadline q)
    (hc : n.hub.channels.find? k = some c) (hq : q ≤ p) (hkept : n.isOvertaken t p = false) :
    c.sent ≤ p + c.capacity := by
  rw [Follows] at ht
  simp only [isOvertaken, ht, hc, Option.any_some, decide_eq_true hq, Bool.true_and,
    decide_eq_false_iff_not, Nat.not_lt] at hkept
  exact hkept

end Follows

/-! ### Answers -/

/-- A call that has its answer keeps it. -/
theorem Answered.stepFreely (ha : n.Answered t id state timeout) (hn : n.tasks.IsNumbered)
    (h : Happening) : (n.stepFreely h).Answered t id state timeout := by
  rcases ha with hgone | ⟨r, ht, hr⟩
  · exact .inl (gone_playFreely [h] hn hgone)
  · rcases work?_stepFreely hn ht rfl h with rfl | hm | hm
    · exact .inr ⟨r, work?_poll hn ht, hr⟩
    · exact .inr ⟨r, hm, hr⟩
    · exact .inl hm

theorem Answered.playFreely (happenings : List Happening) : ∀ {n : Node},
    n.Answered t id state timeout → n.tasks.IsNumbered →
    (n.playFreely happenings).Answered t id state timeout := by
  induction happenings with
  | nil => exact fun ha _ => ha
  | cons h rest ih =>
    exact fun ha hn => ih (ha.stepFreely hn h) ((sequel_stepFreely _ h).numbered hn)

/-- What happens besides the steps of the call leaves it where it stands, or its caller goes
    away. -/
theorem Follows.stepFreely (ht : n.Follows t id state timeout k deadline q)
    (hn : n.tasks.IsNumbered) {h : Happening} (hh : h ≠ .move (.run t)) :
    (n.stepFreely h).Answered t id state timeout ∨
      (n.stepFreely h).Follows t id state timeout k deadline q := by
  rcases work?_stepFreely hn ht rfl h with heq | hm | hm
  · exact absurd heq hh
  · exact .inr hm
  · exact .inl (.inl hm)

theorem polls_run (t : Nat) (rest : List Happening) :
    polls t (.move (.run t) :: rest) = polls t rest + 1 := by
  simp [polls, Happening.isPoll]

theorem polls_cons_of_ne {h : Happening} (hh : h ≠ .move (.run t)) (rest : List Happening) :
    polls t (h :: rest) = polls t rest := by
  have hnot : h.isPoll t = false := by
    cases h with
    | move a =>
      cases a with
      | run u =>
        refine beq_eq_false_iff_ne.2 ?_
        rintro rfl
        exact hh rfl
      | _ => rfl
    | _ => rfl
  rw [polls, List.countP_cons_of_neg (by rw [hnot]; exact Bool.false_ne_true)]
  rfl

/-- A call that stands before a report which was sent, or before an earlier record, comes to the
    report if it is asked to go on often enough, and is not overtaken by then. -/
theorem answered_of_polls (hr : r.isReport state = true) (later : List Happening) :
    ∀ {n : Node} {q : Nat}, n.tasks.IsNumbered → n.hub.HasSent k p r →
      n.Follows t id state timeout k deadline q → q ≤ p → p + 1 ≤ q + polls t later →
      (∀ seen ∈ later.inits, (n.playFreely seen).isOvertaken t p = false) →
      (n.playFreely later).Answered t id state timeout := by
  induction later with
  | nil =>
    intro n q _ _ _ hq hpolls
    simp only [polls, List.countP_nil] at hpolls
    omega
  | cons h rest ih =>
    intro n q hn hsent ht hq hpolls hkept
    have hsequel := sequel_stepFreely n h
    have hrest : ∀ seen ∈ rest.inits, ((n.stepFreely h).playFreely seen).isOvertaken t p = false :=
      fun seen hseen => hkept (h :: seen) (by
        rw [List.mem_inits] at hseen ⊢
        exact List.prefix_cons_inj h |>.2 hseen)
    have hgo : ∀ {q'}, (n.stepFreely h).Follows t id state timeout k deadline q' → q' ≤ p →
        p + 1 ≤ q' + polls t rest →
        ((n.stepFreely h).playFreely rest).Answered t id state timeout := fun ht' hq' hpolls' =>
      ih (hsequel.numbered hn) (hsequel.hub.hasSent hsent) ht' hq' hpolls' hrest
    rw [playFreely_cons]
    by_cases hh : h = .move (.run t)
    · -- the call takes a step, and by that at least one record less is to come
      subst hh
      rw [polls_run] at hpolls
      obtain ⟨c, hc⟩ := hsent.channel
      have hlost := ht.sent_le hc hq (hkept [] (by simp))
      rcases hsent.next hc hq hlost with ⟨s, hnext, hs⟩ | ⟨lost, q', hnext, hlt, hle⟩
      · rcases ht.poll_record hn hc hnext with ha | ⟨hnot, ht'⟩
        · exact ha.playFreely rest (hsequel.numbered hn)
        · have hne : q ≠ p := fun heq => by
            rw [hs heq, hr] at hnot
            cases hnot
          exact hgo ht' (by omega) (by omega)
      · exact hgo (ht.poll_lagged hn hc hnext) hle (by omega)
    · rw [polls_cons_of_ne hh] at hpolls
      rcases ht.stepFreely hn hh with ha | ht'
      · exact ha.playFreely rest (hsequel.numbered hn)
      · exact hgo ht' hq hpolls

/-! ### Before the report -/

/-- A call that has time left, and whose channel is open, waits on. -/
theorem Awaits.stepFreely (ha : n.Awaits t id state timeout k deadline q) (hn : n.Sane)
    (hclock : n.clock < deadline) (hc : n.hub.channels.find? k = some c) (hopen : c.isOpen = true)
    (h : Happening) : (n.stepFreely h).Awaits t id state timeout k deadline q := by
  rcases ha with ha | ⟨q', ht, hle, hsent⟩
  · exact .inl (ha.stepFreely hn.numbered h)
  obtain ⟨chronicles, hairs⟩ := hn.airs
  rw [Hub.sent_eq hc] at hsent
  have hgo : ∀ {p}, (n.stepFreely h).Follows t id state timeout k deadline p → q' ≤ p →
      p ≤ c.sent → (n.stepFreely h).Awaits t id state timeout k deadline q := fun ht' hq' hp =>
    .inr ⟨_, ht', hle.trans hq', hp.trans ((sequel_stepFreely n h).hub.sent_le hairs hc)⟩
  -- the call takes a step, or something else happens
  by_cases hh : h = .move (.run t)
  · subst hh
    -- it is told of a record or of a loss, or there is nothing yet; the channel is open, so it does
    -- not end
    rcases hairs.next hc hsent with ⟨r, p, hnext, hq', hp⟩ | ⟨lost, p, hnext, hq', hp⟩ | hnext |
      ⟨-, hclosed⟩
    · rcases ht.poll_record hn.numbered hc hnext with ha | ⟨-, ht'⟩
      · exact .inl ha
      · exact hgo ht' hq' hp
    · exact hgo (ht.poll_lagged hn.numbered hc hnext) hq' hp
    · exact hgo (ht.poll_pending hn.numbered hc hnext hclock) (Nat.le_refl q') hsent
    · rw [hopen] at hclosed
      cases hclosed
  · rcases ht.stepFreely hn.numbered hh with ha | ht'
    · exact .inl ha
    · exact hgo ht' (Nat.le_refl q') hsent

/-- It does so for as long as it has time and the channel is open. -/
theorem Awaits.playFreely (before : List Happening) : ∀ {n : Node} {c : Channel}, n.Sane →
    n.hub.channels.find? k = some c → n.Awaits t id state timeout k deadline q →
    (n.playFreely before).clock < deadline → (n.playFreely before).hub.isOpen k = true →
    (n.playFreely before).Awaits t id state timeout k deadline q := by
  induction before with
  | nil => exact fun _ _ ha _ _ => ha
  | cons h rest ih =>
    intro n c hn hc ha hclock hopen
    have hstep := sequel_stepFreely n h
    have hall := sequel_playFreely (h :: rest) n
    obtain ⟨chronicles, hairs⟩ := hn.airs
    obtain ⟨c', hc', -⟩ := hstep.hub.channel hairs hc
    -- there is time now, and the channel is open now, because it is so at the end
    have ha' := ha.stepFreely hn (hall.clock.trans_lt hclock) hc (hall.hub.isOpen hairs hc hopen) h
    exact ih (hstep.sane hn) hc' ha' hclock hopen

/-- A call that searches the console has its answer if there is a report in the buffer, and
    follows the console otherwise. -/
theorem subscribe_poll (hn : n.tasks.IsNumbered)
    (ht : n.work? t = some (.report id state timeout .subscribe))
    (hk : n.hub.current.find? id = some k) (hc : n.hub.channels.find? k = some c) :
    (n.stepFreely (.move (.run t))).Answered t id state timeout ∨
      (∀ r ∈ c.buffer, r.isReport state = false) ∧ (n.stepFreely (.move (.run t))).work? t =
        some (.report id state timeout (.follow ⟨k, c.follow.1⟩ (n.clock + timeout))) := by
  have hwork := work?_poll hn ht
  rw [stepReport, Hub.subscribe_of_find? hk hc] at hwork
  cases hfind : c.buffer.find? fun r => r.isReport state with
  | some r =>
    simp only [hfind] at hwork
    have hr := List.find?_some (p := fun r : LogRecord => r.isReport state) hfind
    exact .inl (.inr ⟨r, hwork, hr⟩)
  | none =>
    simp only [hfind] at hwork
    exact .inr ⟨by simpa using hfind, hwork⟩

/-- What somebody puts into a channel is put there, and is a report or not. -/
theorem stepFreely_of_written {h : Happening} (hw : h.written? n = some (k, r)) :
    ∃ r' : LogRecord, (∀ state, r'.isReport state = r.isReport state) ∧
      n.stepFreely h = { n with hub := n.hub.update k fun c => c.push n.hub.bounds r' } := by
  cases h with
  | push w r =>
    cases hw
    exact ⟨{ r with message := r.message.map (truncate n.hub.maxMessage) }, fun _ => rfl, rfl⟩
  | move a =>
    cases a with
    | print w line =>
      cases hw
      let r := GuestLine.parse n.now line
      exact ⟨{ r with message := r.message.map (truncate n.hub.maxMessage) }, fun _ => rfl, rfl⟩
    | _ => cases hw
  | _ => cases hw

/-! ### The answer of the call -/

theorem answered_of_buffered (hn : n.Sane)
    (hcall : n.work? t = some (.report id state timeout .subscribe)) {buffer : List LogRecord}
    (hbuffer : n.hub.snapshot id = .ok buffer) (hr : r ∈ buffer) (hreport : r.isReport state = true)
    (later : List Happening) :
    (n.playFreely (.move (.run t) :: later)).Answered t id state timeout := by
  obtain ⟨k, c, hk, hc, rfl⟩ := Hub.snapshot_eq_ok hbuffer
  rcases subscribe_poll hn.numbered hcall hk hc with ha | ⟨hnone, -⟩
  · exact ha.playFreely later ((sequel_stepFreely n _).numbered hn.numbered)
  · rw [hnone r hr] at hreport
    cases hreport

theorem answered_of_live (hn : n.Sane)
    (hcall : n.work? t = some (.report id state timeout .subscribe))
    (hk : n.hub.current.find? id = some k) {before later : List Happening} {h : Happening}
    (hm : n.playFreely (.move (.run t) :: before) = m) (hw : h.written? m = some (k, r))
    (hreport : r.isReport state = true) (hclock : m.clock < n.clock + timeout)
    (hopen : m.hub.isOpen k = true) (hpolls : m.hub.sent k + 1 ≤ n.hub.sent k + polls t later)
    (hkept : ∀ seen ∈ later.inits,
      (m.playFreely (h :: seen)).isOvertaken t (m.hub.sent k) = false) :
    (m.playFreely (h :: later)).Answered t id state timeout := by
  obtain ⟨c, hc⟩ := hn.channel hk
  obtain ⟨chronicles, hairs⟩ := hn.airs
  have hsequel := sequel_stepFreely n (.move (.run t))
  have hlater := sequel_playFreely before (n.stepFreely (.move (.run t)))
  obtain ⟨c', hc', -⟩ := hsequel.hub.channel hairs hc
  rw [playFreely_cons] at hm
  subst hm
  have hsane := hlater.sane (hsequel.sane hn)
  -- the channel was open when the call began to follow it
  have hcursor : c.follow.1 = .before c.sent := by
    rw [Channel.follow, if_pos ((hsequel.trans hlater).hub.isOpen hairs hc hopen)]
  have hwaits : (n.stepFreely (.move (.run t))).Awaits t id state timeout k (n.clock + timeout)
      (n.hub.sent k) := by
    rcases subscribe_poll hn.numbered hcall hk hc with ha | ⟨-, ht⟩
    · exact .inl ha
    · rw [hcursor] at ht
      rw [Hub.sent_eq hc]
      exact .inr ⟨c.sent, ht, Nat.le_refl _, hsequel.hub.sent_le hairs hc⟩
  have hwaits := hwaits.playFreely before (hsequel.sane hn) hc' hclock hopen
  rcases hwaits with ha | ⟨q, ht, hle, hle'⟩
  · exact ha.playFreely _ hsane.numbered
  · obtain ⟨r', hsame, hstep⟩ := stepFreely_of_written hw
    obtain ⟨chronicles', hairs'⟩ := hsane.airs
    rw [playFreely_cons, hstep]
    refine answered_of_polls ((hsame state).trans hreport) later hsane.numbered
      (hairs'.hasSent_put hopen r') ht hle' (by omega) fun seen hseen => ?_
    rw [← hstep]
    exact hkept seen hseen

/-- A call that waits for a guest to report a state returns a report of that state, if there is
    one in the buffer when it searches the console, or one comes in before the deadline and
    before the console is closed, unless the call is overtaken by other records: whatever else
    happens to the node, and as soon as the call was asked to go on as often as records came in. -/
theorem heard_of_reported {config : NodeConfig} {ownerBase : Option Nat} {start : Node}
    {past later : List Happening} (hstart : Node.start config ownerBase = .ok start)
    (hpast : start.playFreely past = n)
    (hcall : n.work? t = some (.report id state timeout .subscribe))
    (hreported : n.Reported t id state timeout later)
    (hcaller : (n.playFreely (.move (.run t) :: later)).work? t ≠ some .gone) :
    ∃ r, (n.playFreely (.move (.run t) :: later)).work? t =
        some (.report id state timeout (.ended (.ok r))) ∧ r.isReport state = true := by
  subst hpast
  have hn := (sane_start hstart).playFreely past
  have ha : ((start.playFreely past).playFreely (.move (.run t) :: later)).Answered t id state
      timeout := by
    cases hreported with
    | buffered hbuffer hr hreport => exact answered_of_buffered hn hcall hbuffer hr hreport later
    | @live k r before later h m hk hm hw hreport hclock hopen hpolls hkept =>
      rw [← List.cons_append, playFreely_append, hm]
      exact answered_of_live hn hcall hk hm hw hreport hclock hopen hpolls hkept
  exact ha.resolve_left hcaller

/-- Subscribers may be two records behind. -/
def narrow : NodeConfig := { console := { subscriberQueue := 2 } }

/-- A node that was started with this configuration. -/
def narrowNode : Node := ⟨narrow, none, 0, .empty, .empty, .new narrow.console, .empty, .empty⟩

theorem start_narrow : Node.start narrow none = .ok narrowNode := by
  have hvalidate : narrow.validate = .ok () := by decide +kernel
  rw [start, hvalidate]
  rfl

/-- An instance is provisioned up to its launch, and a call begins to wait for its guest. -/
def asked : List Happening :=
  let ok : Move := .host 0 (.ok ())
  [.begin (.provision "i-1" (.ofImage "app")), .run 0, ok, ok, ok, ok, .run 0, .run 0, .run 0,
    .begin (.awaitReport "i-1" "booted" 5000), .run 1].map .move

/-- The guest prints a line. -/
def printed (line : String) : Happening := .move (.print ⟨"i-1", 0⟩ line)

/-- The guest prints a line more than the queue has room for, reports the state, and prints
    another line while the call is on the way. -/
def babble : List Happening :=
  [printed "a", printed "b"] ++ printed "##fcnode:state:booted" ::
    [.move (.run 1), printed "c", .move (.run 1), .move (.run 1)]

/-- The call loses a line, and returns the report. -/
theorem heard_babble : ∃ start n, Node.start narrow none = .ok start ∧
    start.playFreely asked = n ∧
    n.work? 1 = some (.report "i-1" "booted" 5000 .subscribe) ∧
    n.Reported 1 "i-1" "booted" 5000 babble ∧
    ∃ r, (n.playFreely (.move (.run 1) :: babble)).work? 1 =
      some (.report "i-1" "booted" 5000 (.ended (.ok r))) ∧ r.isReport "booted" = true := by
  let n := narrowNode.playFreely asked
  let m := n.playFreely [.move (.run 1), printed "a", printed "b"]
  have hcall : n.work? 1 = some (.report "i-1" "booted" 5000 .subscribe) := by decide +kernel
  have hreported : n.Reported 1 "i-1" "booted" 5000 babble := by
    refine .live (k := 0) (r := .report 0 "booted" none) (m := m) ?_ rfl ?_ ?_ ?_ ?_ ?_ ?_
    all_goals decide +kernel
  exact ⟨narrowNode, n, start_narrow, rfl, hcall, hreported,
    heard_of_reported start_narrow rfl hcall hreported (by decide +kernel)⟩

/-- The guest reports the state and prints two lines before the call is asked to go on. Then the
    deadline passes. -/
def burst : List Happening :=
  printed "##fcnode:state:booted" :: [printed "a", printed "b", .move (.run 1), .move (.run 1),
    .move (.run 1), .move (.pass 5000), .move (.run 1)]

/-- The report has come in at once and is still in the buffer, but the call takes too long. -/
theorem unheard_burst : ∃ start n m r, Node.start narrow none = .ok start ∧
    start.playFreely asked = n ∧
    n.work? 1 = some (.report "i-1" "booted" 5000 .subscribe) ∧
    n.hub.current.find? "i-1" = some 0 ∧ n.playFreely [.move (.run 1)] = m ∧
    (printed "##fcnode:state:booted").written? m = some (0, r) ∧ r.isReport "booted" = true ∧
    m.clock < n.clock + 5000 ∧ m.hub.isOpen 0 = true ∧
    m.hub.sent 0 + 1 ≤ n.hub.sent 0 + polls 1 burst ∧
    (n.playFreely (.move (.run 1) :: burst)).work? 1 =
      some (.report "i-1" "booted" 5000 (.ended (.error (reportTimedOut "booted" 5000)))) ∧
    (n.playFreely (.move (.run 1) :: burst)).hub.isOpen 0 = true ∧
    ((n.playFreely (.move (.run 1) :: burst)).hub.channels.find? 0).map Channel.buffer =
      some [r, .stdout 0 "a", .stdout 0 "b"] := by
  let n := narrowNode.playFreely asked
  let m := n.playFreely [.move (.run 1)]
  refine ⟨narrowNode, n, m, .report 0 "booted" none, start_narrow, rfl, ?_, ?_, rfl, ?_⟩
  all_goals decide +kernel

end Node

end VmNode
