import Mathlib.Order.Lattice
import VmNode.Process.Rehearsal

/-!
# The course of stopping a process

A call stops a process that nobody else sends a request to. The request is passed on for as
long as the guest takes, but no longer than the limit, and the supervisor does not listen
meanwhile. If the guest has taken the request and is gone before the time of the call is up,
it is not killed (`Plan.IsClean`), even if cleaning up outlasts the call's patience. In all
other cases it is killed once, when the time is up and the supervisor listens again
(`Plan.killed`). The call ends when cleaning up is over.

`Course` says how far the call and the supervisor have come: what the supervisor is at, what
waits in its queue, and which exits are set, all for a given time. Neither a step of the call
(`Course.call`, `Course.call_done`) nor one of the supervisor (`Course.supervisor`) nor the
clock (`Course.clock`) leaves it.
-/

namespace VmNode.StopRehearsal

/-- A call that stops a process which follows a script. -/
structure Plan where
  /-- The script of the process. -/
  script : GuestScript
  /-- For how long the exit is awaited. -/
  timeout : Nat
  /-- When the call began. -/
  began : Nat

namespace Plan

variable (p : Plan)

/-- The guest takes the request, in time, and is gone before the time of the call is up. -/
def IsClean : Prop :=
  p.script.honorsShutdown = true ∧ p.script.sendFails = false ∧
    p.script.sendDelay < Supervisor.deliveryLimit ∧
    p.script.sendDelay + p.script.exitDelay < p.timeout

instance : Decidable p.IsClean := inferInstanceAs (Decidable (_ ∧ _))

/-- When passing the request on is over. -/
def sent : Nat := p.began + min p.script.sendDelay Supervisor.deliveryLimit

/-- When the guest is gone that has taken the request. -/
def answered : Nat := p.began + p.script.sendDelay + p.script.exitDelay

/-- The exit of a guest that has taken the request. -/
def exits : List (Nat × WaitResult) :=
  if p.script.honorsShutdown = true ∧ p.script.sendFails = false ∧
      p.script.sendDelay ≤ Supervisor.deliveryLimit then
    [(p.answered, .exited (some 0))]
  else []

/-- When a process is killed that is not gone before. -/
def killed : Nat := p.began + max p.timeout (min p.script.sendDelay Supervisor.deliveryLimit)

/-- When the process is killed. -/
def kills : List Nat := if p.IsClean then [] else [p.killed]

/-- When the process is gone. -/
def gone : Nat := if p.IsClean then p.answered else p.killed

/-- Why the process is gone. -/
def reason : ExitReason := if p.IsClean then .clean else .forced

/-- When the call ends. -/
def finished : Nat := p.gone + p.script.cleanupDelay

/-- A process that is gone as soon as it is killed, and takes some time to go when it is
    asked; and no two things that decide its end fall on the same time. -/
structure Fair : Prop where
  /-- A kill works. -/
  obeys : p.script.killFails = false ∧ p.script.ignoresKill = false
  /-- The process takes some time to go. -/
  delay : 0 < p.script.exitDelay
  /-- The request does not arrive at the very time at which it is given up. -/
  send : p.script.sendDelay ≠ Supervisor.deliveryLimit
  /-- The process does not go at the very time at which it is to be killed. -/
  exit : p.script.sendDelay + p.script.exitDelay ≠ p.timeout

/-- A call that waits in that stage does so at a time that fits. -/
def Due (now : Nat) : Stop → Prop
  | .ask => False
  | .await deadline => deadline = p.began + p.timeout ∧ now ≤ deadline
  | .escalate => now = p.began + p.timeout
  | .reap => p.began + p.timeout ≤ now

end Plan

/-- The request to kill that a call has put into the queue. -/
def pending : Stop → List StopRequest
  | .reap => [.kill]
  | .ask | .await _ | .escalate => []

/-- How far the supervisor, the process and the call have come at the time `now`, and when
    the process was killed. The call has ended if it has no stage. -/
inductive Course (p : Plan) (now : Nat) (s : Supervisor) (g : ScriptedGuest) :
    Option Stop → List Nat → Prop
  /-- The request is to be put into the queue. -/
  | asking : now = p.began → s = .start → g.exits = [] → Course p now s g (some .ask) []
  /-- The request is in the queue. -/
  | asked {stage : Stop} : now = p.began →
      s = ⟨.watching, false, false, .shutdown :: pending stage, false, true⟩ → g.exits = [] →
      p.Due now stage → Course p now s g (some stage) []
  /-- The request is passed on. -/
  | sending {stage : Stop} : now ≤ p.sent →
      s = ⟨.delivering, true, false, pending stage, false, true⟩ → g.exits = [] →
      g.since = p.began → p.Due now stage → Course p now s g (some stage) []
  /-- The request was passed on, and the process is still there. -/
  | waiting {stage : Stop} : p.sent ≤ now → (p.IsClean → now ≤ p.answered) →
      s = ⟨.watching, true, false, pending stage, false, true⟩ → g.exits = p.exits →
      p.Due now stage → (stage = .reap → now = p.killed) → Course p now s g (some stage) []
  /-- The process is killed. -/
  | killing : ¬ p.IsClean → now = p.killed → s = ⟨.killing, true, true, [], false, true⟩ →
      g.exits = (p.killed, .exited none) :: p.exits → Course p now s g (some .reap) [p.killed]
  /-- The process was killed. -/
  | reaping : ¬ p.IsClean → now = p.killed → s = ⟨.watching, true, true, [], false, true⟩ →
      g.exits = (p.killed, .exited none) :: p.exits → Course p now s g (some .reap) [p.killed]
  /-- The process is gone. -/
  | cleaning {stage : Stop} : now ≤ p.finished → s.phase = .cleaning p.reason →
      s.queue.length ≤ (pending stage).length → g.since = p.gone → stage ≠ .ask →
      Course p now s g (some stage) p.kills
  /-- The exit reason is published. -/
  | ended {stage : Stop} : now = p.finished → s.phase = .ended p.reason → stage ≠ .ask →
      Course p now s g (some stage) p.kills
  /-- The call has ended. -/
  | done : s.phase = .ended p.reason → Course p now s g none p.kills

/-! ### What is left to do -/

/-- A bound on the phases that a supervisor has left. -/
def phasesLeft (s : Supervisor) : Nat :=
  match s.phase with
  | .watching => if s.isKilled then 2 else if s.isAsked then 4 else 6
  | .delivering => 5
  | .killing => 3
  | .cleaning _ => 1
  | .ended _ => 0

/-- A bound on the stages that a call has left. -/
def stagesLeft : Option Stop → Nat
  | some .ask => 4
  | some (.await _) => 3
  | some .escalate => 2
  | some .reap => 1
  | none => 0

theorem stagesLeft_pos (stage : Stop) : 0 < stagesLeft (some stage) := by
  cases stage <;> simp [stagesLeft]

/-! ### Steps of the call -/

section Call

variable {p : Plan} {now timeout : Nat} {s s' : Supervisor} {g : ScriptedGuest}
variable {stage stage' : Stop} {kills : List Nat}

/-- A call that goes on has put a request into the queue, or its time is up. -/
theorem step_eq_some (hexit : s.exit? = none)
    (h : stage.step now timeout s = some (s', .inl stage')) :
    (stage = .ask ∧ s' = { s with queue := s.queue ++ [.shutdown] } ∧
        stage' = .await (now + timeout)) ∨
      (∃ deadline, stage = .await deadline ∧ deadline ≤ now ∧ s' = s ∧ stage' = .escalate) ∨
      (stage = .escalate ∧ s' = { s with queue := s.queue ++ [.kill] } ∧ stage' = .reap) := by
  have hput : ∀ {r}, s.put r = some s' → s' = { s with queue := s.queue ++ [r] } := fun hput => by
    rw [Supervisor.put, Supervisor.step, hexit] at hput
    dsimp only [Option.isSome_none] at hput
    rw [if_neg Bool.false_ne_true] at hput
    split at hput <;> cases hput
    rfl
  cases stage with
  | ask =>
    rw [Stop.step, hexit] at h
    obtain ⟨_, hs, heq⟩ := Option.map_eq_some_iff.1 h
    cases heq
    exact .inl ⟨rfl, hput hs, rfl⟩
  | await deadline =>
    rw [Stop.step, hexit] at h
    dsimp only at h
    split at h <;> cases h
    exact .inr (.inl ⟨deadline, rfl, ‹_›, rfl, rfl⟩)
  | escalate =>
    obtain ⟨_, hs, heq⟩ := Option.map_eq_some_iff.1 h
    cases heq
    exact .inr (.inr ⟨rfl, hput hs, rfl⟩)
  | reap =>
    rw [Stop.step, hexit] at h
    cases h

/-- A call that has asked goes on when its time is up, and then the request to kill is in
    the queue. -/
theorem step_of_due (queue : List StopRequest) (hexit : s.exit? = none)
    (hqueue : s.queue = queue ++ pending stage) (hdue : p.Due now stage)
    (h : stage.step now timeout s = some (s', .inl stage')) :
    s' = { s with queue := queue ++ pending stage' } ∧ p.Due now stage' ∧
      stagesLeft (some stage') < stagesLeft (some stage) ∧
      (stage' = .reap → now = p.began + p.timeout) := by
  rcases step_eq_some hexit h with ⟨rfl, -, -⟩ | ⟨deadline, rfl, hup, rfl, rfl⟩ | ⟨rfl, rfl, rfl⟩
  · cases hdue
  · obtain ⟨hdeadline, hle⟩ := hdue
    refine ⟨?_, by simp only [Plan.Due]; omega, by simp [stagesLeft], fun heq => by cases heq⟩
    rw [show queue ++ pending .escalate = s'.queue from hqueue.symm]
  · refine ⟨?_, Nat.le_of_eq hdue.symm, by simp [stagesLeft], fun _ => hdue⟩
    rw [hqueue, pending, pending, List.append_nil]

/-- A step of the call. -/
theorem Course.call (h : Course p now s g (some stage) kills)
    (hstep : stage.step now p.timeout s = some (s', .inl stage')) :
    Course p now s' g (some stage') kills ∧ phasesLeft s' = phasesLeft s ∧
      stagesLeft (some stage') < stagesLeft (some stage) := by
  cases h with
  | asking hnow hs hexits =>
    -- the request is put into the queue, and the timeout begins
    subst hs
    cases hstep
    exact ⟨.asked hnow rfl hexits ⟨by rw [hnow], by omega⟩, rfl, by simp [stagesLeft]⟩
  | asked hnow hs hexits hdue =>
    -- the supervisor has the request before it, so nothing but the call can have moved
    subst hs
    obtain ⟨rfl, hdue', hless, -⟩ := step_of_due [.shutdown] rfl rfl hdue hstep
    exact ⟨.asked hnow rfl hexits hdue', rfl, hless⟩
  | sending hnow hs hexits hsince hdue =>
    subst hs
    obtain ⟨rfl, hdue', hless, -⟩ := step_of_due [] rfl rfl hdue hstep
    exact ⟨.sending hnow rfl hexits hsince hdue', rfl, hless⟩
  | waiting hsent hclean hs hexits hdue hkilled =>
    -- the call escalates at its deadline, at which the process is to be killed
    subst hs
    obtain ⟨rfl, hdue', hless, hup⟩ := step_of_due [] rfl rfl hdue hstep
    refine ⟨.waiting hsent hclean rfl hexits hdue' fun hreap => ?_, rfl, hless⟩
    have hnow := hup hreap
    rw [Plan.sent] at hsent
    rw [Plan.killed]
    omega
  | killing hclean hnow hs hexits | reaping hclean hnow hs hexits =>
    -- the call waits for the exit reason
    subst hs
    cases hstep
  | cleaning hnow hphase hqueue hsince hstage =>
    have hexit : s.exit? = none := by rw [Supervisor.exit?, hphase]
    rcases step_eq_some hexit hstep with ⟨rfl, -, -⟩ | ⟨deadline, rfl, -, rfl, rfl⟩ |
      ⟨rfl, rfl, rfl⟩
    · -- the request was put into the queue before
      exact absurd rfl hstage
    · exact ⟨.cleaning hnow hphase hqueue hsince (by simp), rfl, by simp [stagesLeft]⟩
    · have hempty : s.queue = [] := List.eq_nil_of_length_eq_zero (Nat.le_zero.1 hqueue)
      refine ⟨.cleaning hnow hphase ?_ hsince (by simp), rfl, by simp [stagesLeft]⟩
      simp [hempty, pending]
  | ended hnow hphase hstage =>
    -- with the exit reason before it, the call goes no further than to look at it
    have hexit : s.exit? = some p.reason := by rw [Supervisor.exit?, hphase]
    cases stage with
    | ask => exact absurd rfl hstage
    | await deadline =>
      rw [Stop.step, hexit] at hstep
      cases hstep
    | escalate =>
      rw [Stop.step, Supervisor.put, Supervisor.step, hexit] at hstep
      cases hstep
      exact ⟨.ended hnow hphase (by simp), rfl, by simp [stagesLeft]⟩
    | reap =>
      rw [Stop.step, hexit] at hstep
      cases hstep

/-- The call ends when cleaning up is over, with the reason for which the process is gone. -/
theorem Course.call_done {reason : ExitReason} (h : Course p now s g (some stage) kills)
    (hstep : stage.step now p.timeout s = some (s', .inr reason)) :
    s' = s ∧ Course p now s g none kills ∧ now = p.finished ∧ reason = p.reason := by
  -- a call ends only with a reason that is published
  have hexit : s.exit? = some reason ∧ s' = s := by
    cases stage with
    | ask =>
      rw [Stop.step] at hstep
      split at hstep
      · cases hstep
        exact ⟨‹_›, rfl⟩
      · obtain ⟨_, _, heq⟩ := Option.map_eq_some_iff.1 hstep
        cases heq
    | await deadline =>
      rw [Stop.step] at hstep
      split at hstep
      · cases hstep
        exact ⟨‹_›, rfl⟩
      · split at hstep <;> cases hstep
    | escalate =>
      obtain ⟨_, _, heq⟩ := Option.map_eq_some_iff.1 hstep
      cases heq
    | reap =>
      obtain ⟨_, hexit, heq⟩ := Option.map_eq_some_iff.1 hstep
      cases heq
      exact ⟨hexit, rfl⟩
  obtain ⟨hexit, rfl⟩ := hexit
  cases h with
  | ended hnow hphase hstage =>
    rw [Supervisor.exit?, hphase] at hexit
    cases hexit
    exact ⟨rfl, .done hphase, hnow, rfl⟩
  | asking _ hs | asked _ hs | sending _ hs | waiting _ _ hs | killing _ _ hs | reaping _ _ hs =>
    subst hs
    cases hexit
  | cleaning _ hphase =>
    rw [Supervisor.exit?, hphase] at hexit
    cases hexit

end Call

/-! ### Steps of the supervisor -/

section Supervisor

variable {p : Plan} {now time : Nat} {s s' : Supervisor} {g : ScriptedGuest} {stage : Stop}
variable {kills : List Nat} {e : Supervisor.Event} {act : Option Supervisor.Act}

namespace Plan

theorem gone_of_isClean (h : p.IsClean) : p.gone = p.answered := if_pos h

theorem gone_of_not_isClean (h : ¬ p.IsClean) : p.gone = p.killed := if_neg h

theorem exits_of_isClean (h : p.IsClean) : p.exits = [(p.answered, .exited (some 0))] :=
  if_pos ⟨h.1, h.2.1, Nat.le_of_lt h.2.2.1⟩

/-- The exit of the guest is the only one, if there is one. -/
theorem exits_eq (p : Plan) : p.exits = [] ∨ p.exits = [(p.answered, .exited (some 0))] := by
  rw [exits]
  split
  · exact .inr rfl
  · exact .inl rfl

/-- A guest that goes in time is gone before the call's time is up. -/
theorem answered_lt (h : p.IsClean) : p.answered < p.began + p.timeout := by
  have := h.2.2.2
  rw [answered]
  omega

/-- A process that is killed is killed before it would be gone by itself. -/
theorem lt_answered (hp : p.Fair) (hclean : ¬ p.IsClean) {now : Nat} (hexits : p.exits ≠ [])
    (hnow : now ≤ p.killed) : now < p.answered := by
  have hsome : p.script.honorsShutdown = true ∧ p.script.sendFails = false ∧
      p.script.sendDelay ≤ Supervisor.deliveryLimit := by
    by_contra hnone
    exact hexits (if_neg hnone)
  have hlate : ¬ p.script.sendDelay + p.script.exitDelay < p.timeout := fun hlt =>
    hclean ⟨hsome.1, hsome.2.1, lt_of_le_of_ne hsome.2.2 hp.send, hlt⟩
  have hdelay := hp.delay
  have htie := hp.exit
  have hsend := hsome.2.2
  rw [killed] at hnow
  rw [answered]
  omega

end Plan

/-- While the process is still there, the time to kill it has not passed. -/
theorem le_killed (hdue : p.Due now stage) (hkilled : stage = .reap → now = p.killed) :
    now ≤ p.killed := by
  cases stage with
  | ask => cases hdue
  | await deadline =>
    obtain ⟨rfl, hle⟩ := hdue
    rw [Plan.killed]
    omega
  | escalate =>
    have hnow : now = p.began + p.timeout := hdue
    rw [Plan.killed]
    omega
  | reap => exact (hkilled rfl).le

/-- Once the request was passed on, the only news is that to kill. -/
theorem hasNews_pending {isAsked isKilled : Bool} :
    Supervisor.hasNews ⟨.watching, isAsked, isKilled, pending stage, false, true⟩ = true ↔
      stage = .reap := by
  cases stage <;> simp [Supervisor.hasNews, pending]

/-- When passing the request on is over, the exit of the guest is set, if it has taken it. -/
theorem after_delivery (hscript : g.script = p.script) (hexits : g.exits = [])
    (hsince : g.since = p.began) :
    g.deliveryEnd.1 = p.sent ∧ g.after p.sent (.delivery g.deliveryEnd.2) none =
      ({ g with exits := p.exits }, none) := by
  obtain ⟨script, exits, since⟩ := g
  subst hscript hexits hsince
  rw [ScriptedGuest.deliveryEnd, Plan.sent, Plan.exits]
  by_cases hdelay : p.script.sendDelay ≤ Supervisor.deliveryLimit
  · rw [if_pos hdelay, min_eq_left hdelay]
    refine ⟨rfl, ?_⟩
    cases hfails : p.script.sendFails with
    | true => simp [ScriptedGuest.after]
    | false =>
      cases hhonors : p.script.honorsShutdown with
      | true =>
        simp [ScriptedGuest.after, ScriptedGuest.exitAt, ScriptedGuest.insertExit, hhonors, hdelay,
          Plan.answered]
      | false => simp [ScriptedGuest.after, hhonors]
  · rw [if_neg hdelay, min_eq_right (Nat.le_of_not_le hdelay)]
    refine ⟨rfl, ?_⟩
    simp [ScriptedGuest.after, hdelay]

/-- What happens to a process does not change its script. -/
theorem script_after : (g.after now e act).1.script = g.script := by
  rw [ScriptedGuest.after.eq_def]
  split
  · rfl
  · split <;> rfl
  · rfl
  · rfl
  · split <;> rfl
  · rfl

/-- A process that is killed is gone. -/
theorem after_startKill (hp : p.Fair) (hscript : g.script = p.script) :
    g.after now e (some .startKill) = (g.exitAt now (.exited none), some .killed) := by
  rw [ScriptedGuest.after, hscript, hp.obeys.1, hp.obeys.2]
  rfl

/-- The process is killed when the supervisor listens and the request to kill has come. -/
theorem Course.kill (hp : p.Fair) (hscript : g.script = p.script)
    (hearly : p.IsClean → now ≤ p.answered) (hnow : now = p.killed) (hexits : g.exits = p.exits) :
    Course p now ⟨.killing, true, true, [], false, true⟩
      (g.after now .take (some .startKill)).1 (some .reap)
      ([] ++ if (g.after now .take (some .startKill)).2 = some .killed then [now] else []) := by
  have hclean : ¬ p.IsClean := fun h => by
    have hle := hearly h
    have hlt := Plan.answered_lt h
    rw [hnow, Plan.killed] at hle
    omega
  rw [after_startKill hp hscript, if_pos rfl, List.nil_append, hnow]
  refine .killing hclean rfl rfl ?_
  rw [ScriptedGuest.exitAt, hexits]
  rcases p.exits_eq with hnone | hone
  · rw [hnone]
    rfl
  · have hlt := Plan.lt_answered hp hclean (by simp [hone]) le_rfl
    rw [hone, ScriptedGuest.insertExit, if_neg (Nat.not_le.2 hlt)]

/-- The process is gone, and the supervisor cleans up. -/
theorem Course.clean {result : WaitResult} (hgone : now = p.gone)
    (hreason : s.reasonFor result = p.reason)
    (hqueue : s.queue.length ≤ (pending stage).length) (hstage : stage ≠ .ask)
    (hkills : kills = p.kills) :
    Course p now { s with phase := .cleaning (s.reasonFor result) }
      (g.after now (.exit result) (some .cleanUp)).1 (some stage)
      (kills ++ if (g.after now (.exit result) (some .cleanUp)).2 = some .killed then [now]
        else []) := by
  have hnow : now ≤ p.finished := by
    rw [hgone, Plan.finished]
    exact Nat.le_add_right _ _
  rw [hkills, hreason, show (g.after now (.exit result) (some .cleanUp)).2 = none from rfl,
    if_neg (by simp), List.append_nil]
  exact .cleaning hnow rfl hqueue hgone hstage

/-- The request to kill has come while the process was still there, and is taken. -/
theorem Course.take (hp : p.Fair) (hscript : g.script = p.script)
    (hearly : p.IsClean → now ≤ p.answered)
    (hs : s = ⟨.watching, true, false, pending stage, false, true⟩) (hexits : g.exits = p.exits)
    (hreap : stage = .reap) (hkilled : stage = .reap → now = p.killed)
    (hstep : s.step .take = some (s', act)) :
    Course p now s' (g.after now .take act).1 (some stage)
        ([] ++ if (g.after now .take act).2 = some .killed then [now] else []) ∧
      phasesLeft s' < phasesLeft s := by
  subst hs hreap
  cases hstep
  exact ⟨.kill hp hscript hearly (hkilled rfl) hexits, by simp [phasesLeft]⟩

/-- The process is gone by itself, which is in time. -/
theorem Course.exit (hp : p.Fair) (hearly : p.IsClean → now ≤ p.answered)
    (hs : s = ⟨.watching, true, false, pending stage, false, true⟩)
    (hone : p.exits = [(p.answered, .exited (some 0))]) (hdue : p.Due now stage)
    (hnow : now ≤ p.killed) (hle : p.answered ≤ now)
    (hstep : s.step (.exit (.exited (some 0))) = some (s', act)) :
    Course p now s' (g.after now (.exit (.exited (some 0))) act).1 (some stage)
        ([] ++ if (g.after now (.exit (.exited (some 0))) act).2 = some .killed then [now]
          else []) ∧
      phasesLeft s' < phasesLeft s := by
  subst hs
  cases hstep
  have hclean : p.IsClean := by
    by_contra hforced
    have hlt := Plan.lt_answered hp hforced (by simp [hone]) hnow
    omega
  have hgone : now = p.gone := by
    rw [Plan.gone_of_isClean hclean]
    exact le_antisymm (hearly hclean) hle
  refine ⟨.clean hgone (if_pos hclean).symm le_rfl (fun hask => ?_) (if_pos hclean).symm,
    by simp [phasesLeft]⟩
  subst hask
  cases hdue

/-- A step of the supervisor. -/
theorem Course.supervisor (hp : p.Fair) (h : Course p now s g (some stage) kills)
    (hscript : g.script = p.script) (hnext : g.nextEvent? now s = some (time, e))
    (hle : time ≤ now) (hstep : s.step e = some (s', act)) :
    Course p now s' (g.after now e act).1 (some stage)
        (kills ++ if (g.after now e act).2 = some .killed then [now] else []) ∧
      phasesLeft s' < phasesLeft s := by
  cases h with
  | asking hnow hs hexits =>
    subst hs
    rw [ScriptedGuest.nextEvent?, hexits] at hnext
    cases hnext
  | asked hnow hs hexits hdue =>
    -- the request is taken
    subst hs
    rw [ScriptedGuest.nextEvent?, hexits] at hnext
    cases hnext
    cases hstep
    exact ⟨.sending (by rw [hnow, Plan.sent]; omega) rfl hexits hnow hdue, by simp [phasesLeft]⟩
  | sending hnow hs hexits hsince hdue =>
    -- passing the request on is over
    subst hs
    obtain ⟨htime, hafter⟩ := after_delivery hscript hexits hsince
    cases hnext
    cases hstep
    obtain rfl : now = p.sent := le_antisymm hnow (htime ▸ hle)
    rw [hafter]
    refine ⟨.waiting le_rfl (fun _ => ?_) rfl rfl hdue fun hreap => ?_, by simp [phasesLeft]⟩
    · rw [Plan.sent, Plan.answered]
      omega
    · subst hreap
      have hup : p.began + p.timeout ≤ p.sent := hdue
      rw [Plan.sent] at hup ⊢
      rw [Plan.killed]
      omega
  | waiting hsent hearly hs hexits hdue hkilled =>
    have hnews : s.hasNews = true ↔ stage = .reap := by rw [hs, hasNews_pending]
    -- the request to kill is taken, or else the process is gone by itself
    rw [ScriptedGuest.nextEvent?, show s.phase = .watching by rw [hs], hexits] at hnext
    rcases p.exits_eq with hnone | hone
    · rw [hnone] at hnext
      dsimp only at hnext
      split at hnext <;> cases hnext
      exact Course.take hp hscript hearly hs hexits (hnews.1 ‹_›) hkilled hstep
    · rw [hone] at hnext
      dsimp only at hnext
      split at hnext
      · rename_i htake
        cases hnext
        have hreap := hnews.1 (Bool.and_eq_true _ _ ▸ htake).1
        exact Course.take hp hscript hearly hs hexits hreap hkilled hstep
      · cases hnext
        exact Course.exit hp hearly hs hone hdue (le_killed hdue hkilled) hle hstep
  | killing hclean hnow hs hexits =>
    subst hs
    cases hnext
    cases hstep
    exact ⟨.reaping hclean hnow rfl hexits, by simp [phasesLeft]⟩
  | reaping hclean hnow hs hexits =>
    subst hs
    rw [ScriptedGuest.nextEvent?, hexits] at hnext
    cases hnext
    cases hstep
    exact ⟨.clean (hnow.trans (Plan.gone_of_not_isClean hclean).symm) (if_neg hclean).symm
      (Nat.zero_le _) (by simp) (if_neg hclean).symm, by simp [phasesLeft]⟩
  | cleaning hnow hphase hqueue hsince hstage =>
    rw [ScriptedGuest.nextEvent?, hphase, hscript, hsince] at hnext
    cases hnext
    rw [Supervisor.step, hphase] at hstep
    cases hstep
    refine ⟨?_, by simp [phasesLeft, hphase]⟩
    rw [show (g.after now .cleaned (some (.publish p.reason))).2 = some .cleaned from rfl,
      if_neg (by simp), List.append_nil]
    exact .ended (le_antisymm hnow hle) rfl hstage
  | ended hnow hphase hstage =>
    rw [ScriptedGuest.nextEvent?, hphase] at hnext
    cases hnext

end Supervisor

/-! ### Steps of the clock -/

section Clock

variable {p : Plan} {now timeout time : Nat} {s s' : Supervisor} {g : ScriptedGuest}
variable {stage : Stop} {kills : List Nat}

/-- A call that waits for its time has still to wait. -/
theorem lt_of_timer? (hstep : stage.step now timeout s = none) (htimer : stage.timer? = some time) :
    now < time := by
  cases stage with
  | await deadline =>
    cases htimer
    refine Nat.lt_of_not_le fun hup => ?_
    rw [Stop.step] at hstep
    split at hstep
    · cases hstep
    · rw [if_pos hup] at hstep
      cases hstep
  | ask | escalate | reap => cases htimer

/-- What fits at a time fits until the time that is set. -/
theorem Plan.Due.later {later : Nat} (hdue : p.Due now stage) (hstage : stage ≠ .escalate)
    (hle : now ≤ later) (htimer : ∀ t, stage.timer? = some t → later ≤ t) : p.Due later stage := by
  cases stage with
  | ask => exact hdue
  | await deadline => exact ⟨hdue.1, htimer deadline rfl⟩
  | escalate => exact absurd rfl hstage
  | reap => exact Nat.le_trans hdue hle

/-- A supervisor with news does not wait. -/
theorem exists_nextEvent?_le (now : Nat) (g : ScriptedGuest) (hphase : s.phase = .watching)
    (hnews : s.hasNews = true) :
    ∃ t e, g.nextEvent? now s = some (t, e) ∧ t ≤ now := by
  rw [ScriptedGuest.nextEvent?, hphase, hnews]
  rcases g.exits with _ | ⟨⟨t, result⟩, rest⟩
  · exact ⟨now, .take, rfl, le_rfl⟩
  · by_cases hlt : now < t
    · exact ⟨now, .take, by simp [hlt], le_rfl⟩
    · exact ⟨t, .exit result, by simp [hlt], Nat.le_of_not_lt hlt⟩

/-- A supervisor without news waits for the process to go. -/
theorem nextEvent?_of_watching (now : Nat) (g : ScriptedGuest) (hphase : s.phase = .watching)
    (hnews : s.hasNews = false) :
    g.nextEvent? now s = g.exits.head?.map fun exit => (exit.1, .exit exit.2) := by
  rw [ScriptedGuest.nextEvent?, hphase, hnews]
  cases g.exits <;> rfl

/-- The process is still there, and the call awaits its exit. -/
theorem Course.wait (hs : s = ⟨.watching, true, false, pending stage, false, true⟩)
    (hsent : p.sent ≤ now) (hexits : g.exits = p.exits) (hdue : p.Due now stage)
    (hstep : stage.step now timeout s = none)
    (hnext : ∀ t e, g.nextEvent? now s = some (t, e) → now < t) :
    (∀ later, now ≤ later → (∀ t e, g.nextEvent? now s = some (t, e) → later ≤ t) →
      (∀ t, stage.timer? = some t → later ≤ t) →
      Course p later s g (some stage) [] ∧ g.nextEvent? later s = g.nextEvent? now s) ∧
    ((∃ t e, g.nextEvent? now s = some (t, e)) ∨ ∃ t, stage.timer? = some t) := by
  subst hs
  have hstage : stage ≠ .escalate := fun heq => by
    subst heq
    cases hstep
  -- the request to kill would be taken at once
  have hnews : Supervisor.hasNews ⟨.watching, true, false, pending stage, false, true⟩ = false := by
    by_contra hnews
    obtain ⟨t, e, heq, hle⟩ := exists_nextEvent?_le now g rfl (Bool.not_eq_false _ ▸ hnews)
    exact absurd (hnext t e heq) (Nat.not_lt.2 hle)
  have hevent := fun now => nextEvent?_of_watching now g rfl hnews
  cases stage with
  | ask => cases hdue
  | escalate => exact absurd rfl hstage
  | reap => cases hnews
  | await deadline =>
    refine ⟨fun later hle hset htimer => ⟨?_, by rw [hevent, hevent]⟩, .inr ⟨deadline, rfl⟩⟩
    refine .waiting (hsent.trans hle) (fun hclean => ?_) rfl hexits
      (hdue.later hstage hle htimer) fun heq => by cases heq
    refine hset _ (.exit (.exited (some 0))) ?_
    rw [hevent, hexits, Plan.exits_of_isClean hclean]
    rfl

/-- Nothing can go on now: the request is being passed on, or the process or its cleaning up
    is awaited. This remains so until the first time that is set, and one is. -/
theorem Course.clock (h : Course p now s g (some stage) kills) (hscript : g.script = p.script)
    (hstep : stage.step now p.timeout s = none)
    (hnext : ∀ t e, g.nextEvent? now s = some (t, e) → now < t) :
    (∀ later, now ≤ later → (∀ t e, g.nextEvent? now s = some (t, e) → later ≤ t) →
      (∀ t, stage.timer? = some t → later ≤ t) →
      Course p later s g (some stage) kills ∧ g.nextEvent? later s = g.nextEvent? now s) ∧
    ((∃ t e, g.nextEvent? now s = some (t, e)) ∨ ∃ t, stage.timer? = some t) := by
  cases h with
  | asking hnow hs hexits =>
    subst hs
    cases hstep
  | asked hnow hs hexits hdue =>
    -- the supervisor takes the request at once
    subst hs
    have htake : g.nextEvent? now
        ⟨.watching, false, false, .shutdown :: pending stage, false, true⟩ = some (now, .take) := by
      rw [ScriptedGuest.nextEvent?, hexits]
      rfl
    exact absurd (hnext _ _ htake) (lt_irrefl _)
  | sending hnow hs hexits hsince hdue =>
    subst hs
    have hstage : stage ≠ .escalate := fun heq => by
      subst heq
      cases hstep
    refine ⟨fun later hle hset htimer => ⟨?_, rfl⟩, .inl ⟨_, _, rfl⟩⟩
    have hsent : later ≤ p.sent := (after_delivery hscript hexits hsince).1 ▸ hset _ _ rfl
    exact .sending hsent rfl hexits hsince (hdue.later hstage hle htimer)
  | waiting hsent hearly hs hexits hdue hkilled =>
    exact Course.wait hs hsent hexits hdue hstep hnext
  | killing hclean hnow hs hexits =>
    -- the supervisor takes the request to kill at once
    subst hs
    exact absurd (hnext _ _ rfl) (lt_irrefl _)
  | reaping hclean hnow hs hexits =>
    -- the process that was killed is gone at once
    subst hs
    have hexit : g.nextEvent? now ⟨.watching, true, true, [], false, true⟩ =
        some (now, .exit (.exited none)) := by
      rw [ScriptedGuest.nextEvent?, hexits, hnow]
      rfl
    exact absurd (hnext _ _ hexit) (lt_irrefl _)
  | cleaning hnow hphase hqueue hsince hstage =>
    -- the end of cleaning up is the next event whatever the time is
    have hevent : ∀ now, g.nextEvent? now s = some (p.finished, .cleaned) := fun now => by
      rw [ScriptedGuest.nextEvent?, hphase, hsince, hscript]
      rfl
    refine ⟨fun later _ hset _ => ⟨?_, by rw [hevent, hevent]⟩, .inl ⟨_, _, hevent now⟩⟩
    exact .cleaning (hset _ _ (hevent now)) hphase hqueue hsince hstage
  | ended hnow hphase hstage =>
    -- the call can look at the exit reason at once
    have hexit : s.exit? = some p.reason := by rw [Supervisor.exit?, hphase]
    cases stage with
    | ask => exact absurd rfl hstage
    | await | reap =>
      rw [Stop.step, hexit] at hstep
      cases hstep
    | escalate =>
      rw [Stop.step, Supervisor.put, Supervisor.step, hexit] at hstep
      cases hstep

end Clock

end VmNode.StopRehearsal
