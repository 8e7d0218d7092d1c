import Mathlib.Algebra.BigOperators.Group.List.Basic
import VmNode.Proofs.Process.Course
import VmNode.Proofs.Process.Schedule
import VmNode.Proofs.Tally

/-!
# How long it takes to stop a process

A call stops a process that nobody else sends a request to, while other calls may wait for
its exit. Whatever goes on next at each moment, the call ends, with the reason and at the
time that its plan says, and the process is killed at the time that the plan says or not at
all (`World.outcome_of_play`).

Every move keeps to the course of the call (`Underway.move`), and as long as the call has
not ended takes off what is left to do (`World.toDo`).
-/

namespace VmNode.StopRehearsal

/-- The time at which the process is killed, if it is, between two moments. -/
def World.killed (w u : World) : List Nat := if u.deeds = .killed :: w.deeds then [w.now] else []

theorem World.killed_of_eq {w u : World} (h : u.deeds = w.deeds) : w.killed u = [] :=
  if_neg fun heq => List.cons_ne_self _ _ (heq.symm.trans h)

/-- Whether a time is set that is still to come, as a number. -/
def ahead (now : Nat) (time? : Option Nat) : Nat := if time?.any (now < ·) then 1 else 0

theorem ahead_le (now : Nat) (time? : Option Nat) : ahead now time? ≤ 1 := by
  rw [ahead]
  split <;> omega

/-- A time that is still to come was so before. -/
theorem ahead_anti {now later : Nat} (h : now ≤ later) (time? : Option Nat) :
    ahead later time? ≤ ahead now time? := by
  cases time? with
  | none => exact le_rfl
  | some time =>
    simp only [ahead, Option.any_some, decide_eq_true_eq]
    split <;> split <;> omega

/-- The time has come that was still to come. -/
theorem ahead_lt {now time : Nat} (h : now < time) :
    ahead time (some time) < ahead now (some time) := by
  simp [ahead, h]

/-- Whether a call only waits for the exit, as a number. -/
def Call.waits (c : Call) : Nat := if c.work = some .wait then 1 else 0

theorem Call.waits_of_eq {c : Call} (h : c.work = some .wait) : c.waits = 1 := if_pos h

theorem Call.waits_of_ne {c : Call} (h : c.work ≠ some .wait) : c.waits = 0 := if_neg h

/-- The calls that only wait for the exit. -/
def World.waits (w : World) : Nat := w.calls.tally fun _ => Call.waits

/-- The time that is set for the call. -/
def stageTimer? (stage : Option Stop) : Option Nat := stage.bind Stop.timer?

/-- A bound on what is left to do while a call has come so far. -/
def World.toDo (w : World) (stage : Option Stop) : Nat :=
  3 * (phasesLeft w.supervisor + stagesLeft stage) + w.waits +
    ahead w.now ((w.guest.nextEvent? w.now w.supervisor).map (·.1)) + ahead w.now (stageTimer? stage)

/-- A call keeps to its plan, and no other call sends a request. -/
structure Underway (p : Plan) (n : Nat) (w : World) (stage : Option Stop) (kills : List Nat) :
    Prop where
  /-- The call has come so far. -/
  mine : ∃ ended reason,
    w.calls.find? n = some ⟨stage.map (.stop p.timeout), p.began, ended, reason⟩ ∧
      (stage = none → ended = p.finished ∧ reason = some p.reason)
  /-- All others wait, or have ended. -/
  others : ∀ m c, m ≠ n → w.calls.find? m = some c → c.work = none ∨ c.work = some .wait
  /-- The process follows the script. -/
  script : w.guest.script = p.script
  /-- Supervisor and process are on the course. -/
  course : Course p w.now w.supervisor w.guest stage kills

namespace Underway

variable {p : Plan} {n : Nat} {w u : World} {stage : Option Stop} {kills : List Nat}

/-- As long as the call has not ended, it has a handle. -/
theorem isHeld {stage : Stop} (h : Underway p n w (some stage) kills) : w.isHeld = true := by
  obtain ⟨ended, reason, hcall, -⟩ := h.mine
  rw [World.isHeld, Bool.or_eq_true, List.any_eq_true]
  exact .inr ⟨_, List.mem_map.2 ⟨_, (Table.mem_entries_iff _).2 hcall, rfl⟩, rfl⟩

/-- Another call has seen the exit and ends. -/
theorem other (h : Underway p n w stage kills) {m : Nat} {call : Call} (hm : m ≠ n)
    (hcall : w.calls.find? m = some call) (hstep : w.callStep m call = some u) :
    Underway p n u stage kills ∧ u.toDo stage < w.toDo stage ∧ u.deeds = w.deeds := by
  obtain ⟨work, s, left, reason, hwork, hwork', rfl⟩ := World.callStep_eq_some hstep
  obtain rfl : work = .wait := by
    rcases h.others m call hm hcall with hnone | hwait
    · rw [hnone] at hwork
      cases hwork
    · exact Option.some.inj (hwork.symm.trans hwait)
  obtain ⟨r, -, heq⟩ := Option.map_eq_some_iff.1 hwork'
  cases heq
  refine ⟨⟨?_, fun k c hk hfind => ?_, h.script, h.course⟩, ?_, rfl⟩
  · rw [Table.find?_insert_of_ne _ _ hm.symm]
    exact h.mine
  · rcases Table.find?_insert_eq_some hfind with ⟨-, rfl⟩ | ⟨-, hold⟩
    · exact .inl rfl
    · exact h.others k c hk hold
  · have hwaits := Table.tally_insert_of_some hcall
      ⟨none, call.began, if (none : Option Work).isNone then w.now else call.ended, some r⟩
      fun _ => Call.waits
    rw [Call.waits_of_eq hwork, Call.waits_of_ne (by simp)] at hwaits
    simp only [World.toDo, World.waits]
    omega

/-- The call takes a step. -/
theorem call (h : Underway p n w stage kills) {call : Call} (hcall : w.calls.find? n = some call)
    (hstep : w.callStep n call = some u) :
    stage ≠ none ∧ ∃ stage', Underway p n u stage' kills ∧ u.toDo stage' < w.toDo stage ∧
      u.deeds = w.deeds := by
  obtain ⟨ended, reason, hmine, -⟩ := h.mine
  obtain rfl := Option.some.inj (hcall.symm.trans hmine)
  obtain ⟨work, s, left, reason', hwork, hwork', rfl⟩ := World.callStep_eq_some hstep
  have hothers : ∀ c' m c, m ≠ n → (w.calls.insert n c').find? m = some c →
      c.work = none ∨ c.work = some .wait := fun c' m c hm hfind =>
    h.others m c hm (by rwa [Table.find?_insert_of_ne _ _ hm] at hfind)
  cases stage with
  | none => cases hwork
  | some stage =>
    obtain rfl : Work.stop p.timeout stage = work := Option.some.inj hwork
    refine ⟨by simp, ?_⟩
    -- the call is none of those that only wait, before and after
    have hwaits : ∀ c', Call.work c' ≠ some .wait →
        ((w.calls.insert n c').tally fun _ => Call.waits) = w.waits := fun c' hc' => by
      have hwaits := Table.tally_insert_of_some hmine c' fun _ => Call.waits
      rwa [Call.waits_of_ne hc', Call.waits_of_ne (by simp), add_zero, add_zero] at hwaits
    rw [World.workStep] at hwork'
    split at hwork'
    · rename_i stage' hstage
      cases hwork'
      obtain ⟨hcourse, hphases, hstages⟩ := h.course.call hstage
      refine ⟨some stage', ⟨⟨_, _, Table.find?_insert_self .., by simp⟩, hothers _, h.script,
        hcourse⟩, ?_, rfl⟩
      have hahead := ahead_le w.now ((w.guest.nextEvent? w.now s).map (·.1))
      have hahead' := ahead_le w.now (stageTimer? (some stage'))
      rw [World.toDo, World.waits, hwaits _ (by simp), World.toDo]
      dsimp only
      omega
    · rename_i hstage
      cases hwork'
      obtain ⟨rfl, hcourse, hfinished, hreason⟩ := h.course.call_done hstage
      refine ⟨none, ⟨⟨_, _, Table.find?_insert_self .., fun _ => ⟨hfinished, by rw [hreason]⟩⟩,
        hothers _, h.script, hcourse⟩, ?_, rfl⟩
      have hpos := stagesLeft_pos stage
      have hnone : ahead w.now (stageTimer? none) = 0 := rfl
      rw [World.toDo, World.waits, hwaits _ (by simp), World.toDo, hnone, stagesLeft]
      dsimp only
      omega
    · cases hwork'

/-- The supervisor takes a step. -/
theorem supervisor (hp : p.Fair) (h : Underway p n w stage kills)
    (hstep : w.supervisorStep = some u) :
    Underway p n u stage (kills ++ w.killed u) ∧ (stage ≠ none → u.toDo stage < w.toDo stage) := by
  rcases World.supervisorStep_eq_some hstep with ⟨hfree, rfl⟩ |
    ⟨time, e, s, act, hnext, hle, hs, rfl⟩
  · -- the last handle is gone, so the call has ended
    cases stage with
    | some stage =>
      rw [h.isHeld] at hfree
      cases hfree
    | none =>
      have hkilled :
          w.killed { w with supervisor := { w.supervisor with isForsaken := true } } = [] :=
        World.killed_of_eq rfl
      rw [hkilled, List.append_nil]
      obtain ⟨mine, others, script, course⟩ := h
      cases course with
      | done hphase => exact ⟨⟨mine, others, script, .done hphase⟩, fun hnone => absurd rfl hnone⟩
  · cases stage with
    | none =>
      cases h.course with
      | done hphase =>
        rw [ScriptedGuest.nextEvent?, hphase] at hnext
        cases hnext
    | some stage =>
      obtain ⟨hcourse, hphases⟩ := h.course.supervisor hp h.script hnext hle hs
      have hkilled : w.killed { w with
          supervisor := s
          guest := (w.guest.after w.now e act).1
          deeds := (w.guest.after w.now e act).2.toList ++ w.deeds } =
          if (w.guest.after w.now e act).2 = some .killed then [w.now] else [] := by
        rw [World.killed]
        cases (w.guest.after w.now e act).2 <;> simp
      rw [hkilled]
      refine ⟨⟨h.mine, h.others, by rw [script_after, h.script], hcourse⟩, fun _ => ?_⟩
      have hahead := ahead_le w.now (((w.guest.after w.now e act).1.nextEvent? w.now s).map (·.1))
      simp only [World.toDo, World.waits]
      omega

/-- The clock moves. -/
theorem clock (h : Underway p n w stage kills) (hmove : w.move .clock = some u) :
    Underway p n u stage kills ∧ (stage ≠ none → u.toDo stage < w.toDo stage) ∧
      u.deeds = w.deeds := by
  obtain ⟨hstuck, time, htimer, rfl⟩ := World.move_clock_eq_some hmove
  obtain ⟨⟨hset, hlt⟩, hfirst⟩ := World.timer?_eq_some htimer
  cases stage with
  | none =>
    obtain ⟨mine, others, script, course⟩ := h
    cases course with
    | done hphase =>
      exact ⟨⟨mine, others, script, .done hphase⟩, fun hnone => absurd rfl hnone, rfl⟩
  | some stage =>
    obtain ⟨ended, reason, hmine, -⟩ := h.mine
    have hstage := World.step_of_callStep_eq_none (World.callStep_eq_none hstuck hmine)
    have hnext : ∀ t e, w.guest.nextEvent? w.now w.supervisor = some (t, e) → w.now < t :=
      fun t e he => World.lt_of_nextEvent? hstuck h.isHeld he
    obtain ⟨hcourse, hevent⟩ := (h.course.clock h.script hstage hnext).1 time hlt.le
      (fun t e he => hfirst t (.inl ⟨e, he⟩) (hnext t e he))
      fun t ht => hfirst t (.inr ⟨n, _, _, stage, hmine, rfl, ht⟩) (lt_of_timer? hstage ht)
    refine ⟨⟨⟨_, _, hmine, fun hnone => by cases hnone⟩, h.others, h.script, hcourse⟩,
      fun _ => ?_, rfl⟩
    have hle := ahead_anti hlt.le ((w.guest.nextEvent? w.now w.supervisor).map (·.1))
    have hle' := ahead_anti hlt.le (stageTimer? (some stage))
    have hless := ahead_lt hlt
    -- the time that has come is that of the supervisor, or that of the call
    simp only [World.toDo, World.waits, hevent]
    rcases hset with ⟨e, he⟩ | ⟨m, c, timeout, other, hc, hwork, htime⟩
    · simp only [he, Option.map_some] at hle ⊢
      omega
    · by_cases hm : m = n
      · subst hm
        obtain rfl := Option.some.inj (hc.symm.trans hmine)
        cases hwork
        have htimer : stageTimer? (some stage) = some time := htime
        rw [htimer] at hle' ⊢
        omega
      · rcases h.others m c hm hc with hnone | hwait
        · rw [hnone] at hwork
          cases hwork
        · rw [hwait] at hwork
          cases hwork

/-- A move keeps to the course, and as long as the call has not ended it takes off what is
    left to do. -/
theorem move (hp : p.Fair) (h : Underway p n w stage kills) {m : Move}
    (hmove : w.move m = some u) :
    ∃ stage', Underway p n u stage' (kills ++ w.killed u) ∧ (stage = none → stage' = none) ∧
      (stage ≠ none → u.toDo stage' < w.toDo stage) := by
  have hquiet : u.deeds = w.deeds → kills ++ w.killed u = kills := fun hdeeds => by
    rw [World.killed_of_eq hdeeds, List.append_nil]
  cases m with
  | call k =>
    obtain ⟨call, hcall, hstep⟩ := Option.bind_eq_some_iff.1 hmove
    by_cases hk : k = n
    · subst hk
      obtain ⟨hgoing, stage', hunderway, hless, hdeeds⟩ := h.call hcall hstep
      exact ⟨stage', (hquiet hdeeds).symm ▸ hunderway, fun hnone => absurd hnone hgoing,
        fun _ => hless⟩
    · obtain ⟨hunderway, hless, hdeeds⟩ := h.other hk hcall hstep
      exact ⟨stage, (hquiet hdeeds).symm ▸ hunderway, id, fun _ => hless⟩
  | supervisor =>
    obtain ⟨hunderway, hless⟩ := h.supervisor hp hmove
    exact ⟨stage, hunderway, id, hless⟩
  | clock =>
    obtain ⟨hunderway, hless, hdeeds⟩ := h.clock hmove
    exact ⟨stage, (hquiet hdeeds).symm ▸ hunderway, id, hless⟩

/-- A schedule keeps to the course, and cannot be longer than what was left to do unless the
    call has ended. -/
theorem play (hp : p.Fair) (h : Underway p n w stage kills) {moves : List Move}
    (hplay : w.play moves = some u) :
    ∃ stage', Underway p n u stage' (kills ++ w.kills moves) ∧ (stage = none → stage' = none) ∧
      (stage' ≠ none → u.toDo stage' + moves.length ≤ w.toDo stage) := by
  induction moves generalizing w stage kills with
  | nil =>
    cases hplay
    exact ⟨stage, by rwa [World.kills, List.append_nil], id, fun _ => le_rfl⟩
  | cons m rest ih =>
    obtain ⟨v, hmove, hrest⟩ := Option.bind_eq_some_iff.1 hplay
    obtain ⟨stage₁, h₁, hstays₁, hless⟩ := h.move hp hmove
    obtain ⟨stage₂, h₂, hstays₂, hbound⟩ := ih h₁ hrest
    have hkills : kills ++ w.kills (m :: rest) = kills ++ w.killed v ++ v.kills rest := by
      rw [World.kills, hmove, List.append_assoc]
      rfl
    refine ⟨stage₂, hkills ▸ h₂, hstays₂ ∘ hstays₁, fun hgoing => ?_⟩
    have hgoing₁ : stage₁ ≠ none := fun hnone => hgoing (hstays₂ hnone)
    have hgoing₀ : stage ≠ none := fun hnone => hgoing₁ (hstays₁ hnone)
    have hlater := hbound hgoing
    have hnow := hless hgoing₀
    rw [List.length_cons]
    omega

/-- As long as the call has not ended, something can go on. -/
theorem exists_move {stage : Stop} (h : Underway p n w (some stage) kills) :
    ∃ m, (w.move m).isSome := World.exists_move fun hstuck => by
  obtain ⟨ended, reason, hmine, -⟩ := h.mine
  have hstage := World.step_of_callStep_eq_none (World.callStep_eq_none hstuck hmine)
  have hnext : ∀ t e, w.guest.nextEvent? w.now w.supervisor = some (t, e) → w.now < t :=
    fun t e he => World.lt_of_nextEvent? hstuck h.isHeld he
  rcases (h.course.clock h.script hstage hnext).2 with ⟨t, e, he⟩ | ⟨t, ht⟩
  · exact ⟨t, .inl ⟨e, he⟩, hnext t e he⟩
  · exact ⟨t, .inr ⟨n, _, _, stage, hmine, rfl, ht⟩, lt_of_timer? hstage ht⟩

end Underway

/-! ### From the beginning of the call -/

/-- The process is killed as its plan says, or not yet. -/
theorem Course.kills_prefix {p : Plan} {now : Nat} {s : Supervisor} {g : ScriptedGuest}
    {stage : Option Stop} {kills : List Nat} (h : Course p now s g stage kills) :
    kills <+: p.kills := by
  cases h with
  | asking | asked | sending | waiting => exact List.nil_prefix
  | killing hclean | reaping hclean =>
    have hkills : p.kills = [p.killed] := if_neg hclean
    exact hkills ▸ List.prefix_rfl
  | cleaning | ended | done => exact List.prefix_rfl

theorem Course.kills_eq {p : Plan} {now : Nat} {s : Supervisor} {g : ScriptedGuest}
    {kills : List Nat} (h : Course p now s g none kills) : kills = p.kills := by
  cases h with
  | done => rfl

namespace World

variable (w : World) (timeout : Nat)

/-- A call that stops a process begins on its course. -/
theorem underway_begin (hsupervisor : w.supervisor = .start) (hexits : w.guest.exits = [])
    (hothers : ∀ m c, w.calls.find? m = some c → c.work = none ∨ c.work = some .wait) :
    Underway ⟨w.guest.script, timeout, w.now⟩ w.nextNumber (w.begin (.stop timeout .ask)).2
      (some .ask) [] where
  mine := ⟨w.now, none, Table.find?_insert_self .., fun hnone => by cases hnone⟩
  others := fun m c hm hfind =>
    hothers m c (by rwa [begin, Table.find?_insert_of_ne _ _ hm] at hfind)
  script := rfl
  course := .asking rfl hsupervisor hexits

/-- A call begins to stop a running process whose supervisor has nothing to do, and no other
    call sends a request. Whatever goes on next at each moment, the process is killed at no
    other time than its plan says, and when the call has ended it was killed as the plan
    says: not at all if the guest takes the request in time and is gone before the call's
    time is up, and otherwise once, when the time is up and the request is no longer being
    passed on. The call ends with the reason that the plan says, as long after that as
    cleaning up takes. And it ends: something can go on until then, but not for ever. -/
theorem outcome_of_play (hsupervisor : w.supervisor = .start) (hexits : w.guest.exits = [])
    (hothers : ∀ m c, w.calls.find? m = some c → c.work = none ∨ c.work = some .wait)
    (hp : Plan.Fair ⟨w.guest.script, timeout, w.now⟩) :
    let p : Plan := ⟨w.guest.script, timeout, w.now⟩
    let start := (w.begin (.stop timeout .ask)).2
    (∀ moves u, start.play moves = some u →
      start.kills moves <+: p.kills ∧
      ∀ call, u.ended? w.nextNumber = some call →
        start.kills moves = p.kills ∧ call.ended = p.finished ∧ call.reason = some p.reason) ∧
    ∃ bound, ∀ moves u, start.play moves = some u → u.ended? w.nextNumber = none →
      moves.length ≤ bound ∧ ∃ m, (u.move m).isSome := by
  intro p start
  have hbegin : Underway p w.nextNumber start (some .ask) [] :=
    underway_begin w timeout hsupervisor hexits hothers
  refine ⟨fun moves u hplay => ?_, start.toDo (some .ask), fun moves u hplay hopen => ?_⟩
  · obtain ⟨stage, hunderway, -, -⟩ := hbegin.play hp hplay
    refine ⟨hunderway.course.kills_prefix, fun call hended => ?_⟩
    obtain ⟨hcall, hnone⟩ := Option.filter_eq_some_iff.1 hended
    obtain ⟨ended, reason, hmine, hfinished⟩ := hunderway.mine
    obtain rfl := Option.some.inj (hcall.symm.trans hmine)
    cases stage with
    | some stage => cases hnone
    | none => exact ⟨hunderway.course.kills_eq, hfinished rfl⟩
  · obtain ⟨stage, hunderway, -, hbound⟩ := hbegin.play hp hplay
    cases stage with
    | some stage =>
      exact ⟨(Nat.le_add_left _ _).trans (hbound (by simp)), hunderway.exists_move⟩
    | none =>
      obtain ⟨ended, reason, hmine, -⟩ := hunderway.mine
      rw [ended?, hmine] at hopen
      cases hopen

/-- A process that would be gone thirty milliseconds after it has taken a request, which lasts
    twenty. -/
def slowToGo : World := .start ⟨true, 30, 20, false, false, false, 10⟩ "h"

/-- A schedule of a call that waits for forty milliseconds. -/
def impatient : List Move :=
  [.call 0, .supervisor, .clock, .supervisor, .clock, .call 0, .call 0, .supervisor, .supervisor,
    .supervisor, .clock, .supervisor, .call 0]

/-- The process is killed after forty milliseconds, and cleaned up after ten more. -/
theorem outcome_impatient : ∃ u call,
    (slowToGo.begin (.stop 40 .ask)).2.play impatient = some u ∧ u.ended? 0 = some call ∧
      (slowToGo.begin (.stop 40 .ask)).2.kills impatient = [40] ∧ call.ended = 50 ∧
      call.reason = some .forced := by
  let u := ((slowToGo.begin (.stop 40 .ask)).2.play impatient).get (by decide +kernel)
  have hplay : (slowToGo.begin (.stop 40 .ask)).2.play impatient = some u :=
    (Option.some_get _).symm
  let call := (u.ended? 0).get (by decide +kernel)
  have hended : u.ended? 0 = some call := (Option.some_get _).symm
  have hp : Plan.Fair ⟨slowToGo.guest.script, 40, slowToGo.now⟩ :=
    ⟨⟨rfl, rfl⟩, by decide, by decide, by decide⟩
  have houtcome := (outcome_of_play slowToGo 40 rfl rfl
    (fun m c hc => by cases hc) hp).1 impatient u hplay
  obtain ⟨hkills, hfinished, hreason⟩ := houtcome.2 call hended
  exact ⟨u, call, hplay, hended, hkills.trans (by decide), hfinished.trans (by decide),
    hreason.trans (by decide)⟩

end World

end VmNode.StopRehearsal
