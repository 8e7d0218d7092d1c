import VmNode.Process.Rehearsal
import VmNode.Proofs.Table

/-!
# Schedules of a rehearsal

A rehearsal makes the steps of one moment in an order of its own (`World.step`). Under a
schedule anything that can go on may go on next, a call on a handle or the supervisor
(`World.move`). Only when nothing can go on at this time does the clock move, to the next
time for which something is set.
-/

namespace VmNode.StopRehearsal

/-- What goes on next. -/
inductive Move where
  /-- A call. -/
  | call (n : Nat)
  /-- The supervisor. -/
  | supervisor
  /-- The clock. -/
  | clock
  deriving DecidableEq

namespace World

/-- What becomes of a rehearsal in which that goes on, if it can. -/
def move (w : World) : Move → Option World
  | .call n => (w.calls.find? n).bind (w.callStep n)
  | .supervisor => w.supervisorStep
  | .clock => if w.step.isSome then none else w.timer?.map fun time => { w with now := time }

/-- What becomes of a rehearsal along a schedule. -/
def play (w : World) : List Move → Option World
  | [] => some w
  | m :: rest => (w.move m).bind fun u => u.play rest

/-- The times at which the process is killed along a schedule. -/
def kills (w : World) : List Move → List Nat
  | [] => []
  | m :: rest => (w.move m).elim [] fun u =>
    (if u.deeds = .killed :: w.deeds then [w.now] else []) ++ u.kills rest

variable {w u : World}

/-! ### What can go on -/

/-- When a step can be made, it can be made under a schedule. -/
theorem exists_move_of_step (h : w.step.isSome) : ∃ m, (w.move m).isSome := by
  rw [step, Option.isSome_or, Bool.or_eq_true] at h
  rcases h with h | h
  · obtain ⟨e, he, hstep⟩ := List.findSome?_isSome_iff.1 h
    refine ⟨.call e.1, ?_⟩
    rw [move, (Table.mem_entries_iff _).1 he]
    exact hstep
  · exact ⟨.supervisor, h⟩

/-- When no step can be made, no call can go on. -/
theorem callStep_eq_none (h : w.step = none) {n : Nat} {call : Call}
    (hcall : w.calls.find? n = some call) : w.callStep n call = none := by
  rw [step, Option.or_eq_none_iff] at h
  exact List.findSome?_eq_none_iff.1 h.1 _ ((Table.mem_entries_iff _).2 hcall)

theorem supervisorStep_eq_none (h : w.step = none) : w.supervisorStep = none := by
  rw [step, Option.or_eq_none_iff] at h
  exact h.2

/-- A time is set for what happens to the supervisor next, or for a call that stops the
    process. -/
def IsSet (w : World) (time : Nat) : Prop :=
  (∃ e, w.guest.nextEvent? w.now w.supervisor = some (time, e)) ∨
    ∃ n call timeout stage, w.calls.find? n = some call ∧
      call.work = some (.stop timeout stage) ∧ stage.timer? = some time

theorem mem_timers {time : Nat} :
    time ∈ ((w.guest.nextEvent? w.now w.supervisor).map (·.1)).toList ++
      w.calls.values.filterMap (fun c =>
        match c.work with
        | some (.stop _ stage) => stage.timer?
        | _ => none) ↔ w.IsSet time := by
  rw [List.mem_append, Option.mem_toList, Option.map_eq_some_iff, List.mem_filterMap, IsSet]
  refine or_congr ⟨?_, ?_⟩ ⟨?_, ?_⟩
  · rintro ⟨⟨_, e⟩, he, rfl⟩
    exact ⟨e, he⟩
  · rintro ⟨e, he⟩
    exact ⟨_, he, rfl⟩
  · rintro ⟨call, hmem, htimer⟩
    obtain ⟨⟨n, _⟩, he, rfl⟩ := List.mem_map.1 hmem
    split at htimer
    · rename_i timeout stage hwork
      exact ⟨n, _, timeout, stage, (Table.mem_entries_iff _).1 he, hwork, htimer⟩
    · cases htimer
  · rintro ⟨n, call, timeout, stage, hcall, hwork, htimer⟩
    refine ⟨call, List.mem_map.2 ⟨_, (Table.mem_entries_iff _).2 hcall, rfl⟩, ?_⟩
    rw [hwork]
    exact htimer

/-- The clock moves to the first time, after now, for which something is set. -/
theorem timer?_eq_some {time : Nat} (h : w.timer? = some time) :
    (w.IsSet time ∧ w.now < time) ∧ ∀ later, w.IsSet later → w.now < later → time ≤ later := by
  obtain ⟨hmem, hmin⟩ := List.min?_eq_some_iff.1 h
  obtain ⟨hset, hlt⟩ := List.mem_filter.1 hmem
  exact ⟨⟨mem_timers.1 hset, of_decide_eq_true hlt⟩, fun later hlater hafter =>
    hmin later (List.mem_filter.2 ⟨mem_timers.2 hlater, decide_eq_true hafter⟩)⟩

theorem isSome_timer? {time : Nat} (hset : w.IsSet time) (hlt : w.now < time) :
    w.timer?.isSome := by
  rw [timer?, List.isSome_min?_iff]
  exact List.ne_nil_of_mem (List.mem_filter.2 ⟨mem_timers.2 hset, decide_eq_true hlt⟩)

/-- When something can go on, or a time to come is set, a schedule can go on. -/
theorem exists_move (h : w.step = none → ∃ time, w.IsSet time ∧ w.now < time) :
    ∃ m, (w.move m).isSome := by
  cases hstep : w.step with
  | some u => exact exists_move_of_step (by rw [hstep]; rfl)
  | none =>
    obtain ⟨time, hset, hlt⟩ := h hstep
    refine ⟨.clock, ?_⟩
    rw [move, hstep]
    simpa using isSome_timer? hset hlt

/-! ### What each move does -/

/-- What happens next to a supervisor can happen. -/
theorem isSome_step_of_nextEvent? {now time : Nat} {s : Supervisor} {g : ScriptedGuest}
    {e : Supervisor.Event} (h : g.nextEvent? now s = some (time, e)) : (s.step e).isSome := by
  cases hphase : s.phase with
  | watching =>
    rw [ScriptedGuest.nextEvent?, hphase] at h
    dsimp only at h
    split at h
    · split at h
      · rename_i hnews
        cases h
        simp [Supervisor.step, hphase, (Bool.and_eq_true _ _ ▸ hnews).1]
      · cases h
        simp [Supervisor.step, hphase]
    · split at h <;> cases h
      rename_i hnews
      simp [Supervisor.step, hphase, hnews]
  | delivering | killing | cleaning =>
    rw [ScriptedGuest.nextEvent?, hphase] at h
    cases h
    simp [Supervisor.step, hphase]
  | ended =>
    rw [ScriptedGuest.nextEvent?, hphase] at h
    cases h

/-- When no step can be made and a handle is left, what happens to the supervisor next is
    still to come. -/
theorem lt_of_nextEvent? (h : w.step = none) (hheld : w.isHeld = true) {time : Nat}
    {e : Supervisor.Event} (hnext : w.guest.nextEvent? w.now w.supervisor = some (time, e)) :
    w.now < time := by
  refine Nat.lt_of_not_le fun hle => ?_
  have hnone := supervisorStep_eq_none h
  rw [supervisorStep, hheld, hnext] at hnone
  simp only [Bool.not_true, Bool.false_and, Bool.false_eq_true, if_false,
    if_pos hle, Option.map_eq_none_iff] at hnone
  have hsome := isSome_step_of_nextEvent? hnext
  rw [hnone] at hsome
  cases hsome

/-- A step of a call changes what it does, and perhaps the supervisor. -/
theorem callStep_eq_some {n : Nat} {call : Call} (h : w.callStep n call = some u) :
    ∃ work s left reason, call.work = some work ∧ w.workStep work = some (s, left, reason) ∧
      u = { w with
        supervisor := s
        calls := w.calls.insert n
          ⟨left, call.began, if left.isNone then w.now else call.ended, reason⟩ } := by
  rw [callStep] at h
  split at h
  · cases h
  · rename_i work hwork
    split at h
    · cases h
    · rename_i s left reason hstep
      cases h
      exact ⟨work, s, left, reason, hwork, hstep, rfl⟩

/-- A call that stops the process and cannot go on has no step. -/
theorem step_of_callStep_eq_none {n timeout began ended : Nat} {stage : Stop}
    {reason : Option ExitReason}
    (h : w.callStep n ⟨some (.stop timeout stage), began, ended, reason⟩ = none) :
    stage.step w.now timeout w.supervisor = none := by
  cases hstep : stage.step w.now timeout w.supervisor with
  | none => rfl
  | some next =>
    obtain ⟨s, stage' | reason⟩ := next <;> simp [callStep, workStep, hstep] at h

/-- A step of the supervisor is that the last handle is gone, or what happens to it next. -/
theorem supervisorStep_eq_some (h : w.supervisorStep = some u) :
    (w.isHeld = false ∧ u = { w with supervisor := { w.supervisor with isForsaken := true } }) ∨
      ∃ time e s act, w.guest.nextEvent? w.now w.supervisor = some (time, e) ∧ time ≤ w.now ∧
        w.supervisor.step e = some (s, act) ∧
        u = { w with
          supervisor := s
          guest := (w.guest.after w.now e act).1
          deeds := (w.guest.after w.now e act).2.toList ++ w.deeds } := by
  rw [supervisorStep] at h
  split at h
  · rename_i hheld
    cases h
    rw [Bool.and_eq_true, Bool.not_eq_true'] at hheld
    exact .inl ⟨hheld.1, rfl⟩
  · split at h
    · cases h
    · rename_i time e hnext
      split at h
      · rename_i hle
        obtain ⟨⟨s, act⟩, hstep, rfl⟩ := Option.map_eq_some_iff.1 h
        exact .inr ⟨time, e, s, act, hnext, hle, hstep, rfl⟩
      · cases h

theorem move_clock_eq_some (h : w.move .clock = some u) :
    w.step = none ∧ ∃ time, w.timer? = some time ∧ u = { w with now := time } := by
  rw [move] at h
  split at h
  · cases h
  · rename_i hstep
    obtain ⟨time, htime, rfl⟩ := Option.map_eq_some_iff.1 h
    exact ⟨Option.not_isSome_iff_eq_none.1 hstep, time, htime, rfl⟩

end World

end VmNode.StopRehearsal
