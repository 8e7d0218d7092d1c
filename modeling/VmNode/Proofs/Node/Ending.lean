import Mathlib.Data.Prod.Lex
import Mathlib.Order.WithBot
import VmNode.Proofs.Node.Endless

/-!
# Calls come to an end

In virtual time a call that has a part in the life of its instance has less left to do with each
step (`DeprovisionPhase.left`), and is never stuck, so it ends, and the instance is gone
(`Node.Course.InTime.ends_of_role`). Whoever waits for such a call ends when it has ended
(`Node.Course.InTime.ends_of_waiting`), and so does whoever has the state of the instance yet to
read (`Node.Course.InTime.ends_of_looking`). A call of a drain that lets its instance settle does
so for no longer than a launch may take (`Node.Course.InTime.ends_of_settling`).
-/

namespace VmNode

/-! ### What is left to do -/

/-- A bound on the steps that an errand has left, once the call is made. -/
def Errand.left : Errand → WithTop Nat
  | .toBegin _ => ⊤
  | .going job => WithTop.some job.stepsLeft

/-- The place of a phase, from the end, of a call that has a part in the life of its instance. -/
def DeprovisionPhase.place : DeprovisionPhase → Nat
  | .find => 12
  | .stop _ .ask => 11
  | .stop _ (.await _) => 10
  | .stop _ .escalate => 9
  | .stop _ .reap => 8
  | .note _ => 7
  | .takeLease _ => 6
  | .giveBack .. => 5
  | .enterStopped _ => 4
  | .tell _ | .reap _ => 3
  | .closeConsole _ | .giveBackReaped .. => 2
  | .withdraw _ | .closeReaped _ => 1
  | .settle _ | .rest .. | .look | .enter | .listen | .await _ | .ended _ => 0

/-- The next step of the call may not be there yet. -/
def DeprovisionPhase.mayWait : DeprovisionPhase → Bool
  | .rest .. | .await _ | .stop .. | .giveBack .. | .giveBackReaped .. | .ended _ => true
  | _ => false

/-- What such a call has left to do. -/
def DeprovisionPhase.left (phase : DeprovisionPhase) : Nat ×ₗ WithTop Nat :=
  toLex (phase.place, phase.errand?.elim ⊤ Errand.left)

theorem DeprovisionPhase.left_lt_of_place {phase phase' : DeprovisionPhase}
    (h : phase'.place < phase.place) : phase'.left < phase.left :=
  Prod.Lex.toLex_lt_toLex.2 (.inl h)

theorem Errand.Steps.left_lt {c : NetworkConfig} {ownerBase : Option Nat} {p p' : Pool}
    {e e' : Errand} (h : e.Steps c ownerBase p p' (.going e')) : e'.left < e.left := by
  generalize hprogress : Errand.Progress.going e' = progress at h
  cases h with
  | @begin call _ progress =>
    cases progress with
    | going job =>
      cases hprogress
      exact WithTop.coe_lt_top _
    | done => cases hprogress
  | @settle job _ progress hsettles =>
    cases progress with
    | done => cases hprogress
    | going next =>
      cases hprogress
      refine WithTop.coe_lt_coe.2 ?_
      generalize hgoing : VmNode.Progress.going next = progress at hsettles
      cases hsettles with
      | orphaned hnone =>
        exact Job.stepsLeft_settle rfl (by rw [Job.settle, hnone, hgoing])
      | _ => cases hgoing

theorem Errand.left_lt_of_answer {c : NetworkConfig} {result : Except Error Unit} {e e' : Errand}
    (h : e.answer c result = some (.going e')) : e'.left < e.left := by
  obtain ⟨job, rfl, hhost, hprogress⟩ := answer_eq_some h
  cases hanswer : job.answer c result with
  | done => rw [hanswer] at hprogress; cases hprogress
  | going next =>
    rw [hanswer] at hprogress
    cases hprogress
    exact WithTop.coe_lt_coe.2 (Job.stepsLeft_answer hhost hanswer)

/-- The step of an errand leaves less to do. -/
theorem DeprovisionPhase.left_resume {phase : DeprovisionPhase} {e : Errand}
    {progress : Errand.Progress} (h : phase.errand? = some e)
    (hleft : ∀ e', progress = .going e' → e'.left < e.left) :
    (phase.resume progress).role?.isSome = true ∧ (phase.resume progress).left < phase.left := by
  cases phase with
  | giveBackReaped | giveBack =>
    cases h
    cases progress with
    | going e' => exact ⟨rfl, Prod.Lex.toLex_lt_toLex.2 (.inr ⟨rfl, hleft e' rfl⟩)⟩
    | done => exact ⟨rfl, left_lt_of_place (by simp [resume, place])⟩
  | _ => cases h

/-- Whoever shuts an instance down, or is about to take the record of one that has stopped out,
    deprovisions it. -/
theorem Work.deprovisions_of_role? {work : Work} {id : InstanceId} {q : Role}
    (hrole : work.role? id = some q) (hq : q.isFelling = true ∨ q.isStopped = true) :
    ∃ timeout phase, work = .deprovision id timeout phase ∧ phase.role? = some q := by
  cases work with
  | deprovision i timeout phase =>
    rw [role?] at hrole
    split at hrole
    · rename_i hid
      exact ⟨timeout, phase, hid ▸ rfl, hrole⟩
    · cases hrole
  | provision i spec phase =>
    rw [role?] at hrole
    split at hrole
    · cases phase with
      | lease e => cases e <;> cases hrole <;> rcases hq with hq | hq <;> cases hq
      | _ => cases hrole <;> rcases hq with hq | hq <;> cases hq
    · cases hrole
  | monitor | forward | drain | report | gone => cases hrole

namespace Node

variable {n m k : Node} {id : InstanceId} {t timeout : Nat} {phase phase' : DeprovisionPhase}

/-- A call that has a part in the life of its instance has less to do with each step, or ends
    well. -/
theorem Deprovisions.left_lt (h : n.Deprovisions id timeout phase k phase')
    (hrole : phase.role?.isSome = true) :
    (phase'.role?.isSome = true ∧ phase'.left < phase.left) ∨
      ∃ reason, phase' = .ended (.ok reason) := by
  cases h with
  | missing | rest | settled | wake | giveUp | unknown | early | see | follow | late | enter
  | retry | lost | listen | unheard | heard => cases hrole
  | pass | closeReaped | gone | withdraw => exact .inr ⟨_, rfl⟩
  | @stop p stage stage' s s' hs hstep =>
    refine .inl ⟨rfl, ?_⟩
    cases Stop.steps_of_step hstep <;>
      exact DeprovisionPhase.left_lt_of_place (by simp [DeprovisionPhase.place])
  | @stopped p stage | @strange p stage =>
    refine .inl ⟨rfl, ?_⟩
    cases stage <;> exact DeprovisionPhase.left_lt_of_place (by simp [DeprovisionPhase.place])
  | _ => exact .inl ⟨rfl, DeprovisionPhase.left_lt_of_place (by simp [DeprovisionPhase.place])⟩

/-! ### Calls that can go on -/

theorem isSome_stepDeprovision (n : Node) (id : InstanceId) (timeout : Nat)
    (h : phase.mayWait = false) : (n.stepDeprovision id timeout phase).isSome = true := by
  cases phase with
  | rest | await | stop | giveBack | giveBackReaped | ended => cases h
  | _ =>
    simp only [stepDeprovision]
    repeat' split
    all_goals rfl

/-- An errand that does not wait for the host can go on. -/
theorem run_ne_none_of_errand {work : Work} {e : Errand} (ht : n.work? t = some work)
    (herrand : work.errand? = some e) (hhost : e.hostCall? = none) : n.run t ≠ none := by
  obtain ⟨task, hfind, rfl⟩ := Option.map_eq_some_iff.1 ht
  cases e with
  | toBegin call => simp [run, hfind, herrand, stepErrand]
  | going job =>
    have hjob : job.hostCall? = none := hhost
    simp [run, hfind, herrand, stepErrand, hjob]

/-- A call that stops a process can go on if it finds what it waits for. -/
theorem run_ne_none_of_stop {p : Nat} {stage : Stop}
    (ht : n.work? t = some (.deprovision id timeout (.stop p stage)))
    (hstep : ∀ s, n.supervisor? p = some s → (stage.step n.clock timeout s).isSome = true) :
    n.run t ≠ none := by
  refine run_ne_none ht rfl fun _ => ?_
  rw [stepWork, Option.isSome_map, stepDeprovision]
  cases hs : n.supervisor? p with
  | none => rfl
  | some s =>
    obtain ⟨⟨s', next⟩, hnext⟩ := Option.isSome_iff_exists.1 (hstep s hs)
    cases next <;> simp [hnext]

/-- How a call goes on that is on an errand. -/
theorem Course.Goes.resumes {c : Course} {i : Nat} {w' : Work}
    (h : c.Goes i t (.deprovision id timeout phase) k w') {e : Errand}
    (herrand : phase.errand? = some e) : ∃ progress,
      w' = .deprovision id timeout (phase.resume progress) ∧
        ∀ e', progress = .going e' → e'.left < e.left := by
  obtain ⟨-, -, hadvance, -, -⟩ := h
  generalize c.move i = a at hadvance
  cases hadvance with
  | errand hsome hsteps heq =>
    obtain rfl := Option.some.inj (herrand.symm.trans hsome)
    exact ⟨_, heq, fun e' he' => by subst he'; exact hsteps.left_lt⟩
  | answer hsome hanswer heq =>
    obtain rfl := Option.some.inj (herrand.symm.trans hsome)
    exact ⟨_, heq, fun e' he' => by subst he'; exact Errand.left_lt_of_answer hanswer⟩
  | deprovision hsteps =>
    cases hsteps <;> cases herrand

/-- In the course a call that deprovisions an instance ends. -/
def Course.Ends (c : Course) (i t : Nat) (id : InstanceId) (timeout : Nat) : Prop :=
  ∃ j outcome, i ≤ j ∧ (c.node j).work? t = some (.deprovision id timeout (.ended outcome))

theorem Course.Ends.mono {c : Course} {i j : Nat} (h : c.Ends j t id timeout) (hij : i ≤ j) :
    c.Ends i t id timeout := by
  obtain ⟨k, outcome, hjk, hend⟩ := h
  exact ⟨k, outcome, hij.trans hjk, hend⟩

/-- From a time on, the instance is not being provisioned. -/
def Course.SettledBy (c : Course) (i : Nat) (id : InstanceId) (time : Nat) : Prop :=
  ∀ j, i ≤ j → time ≤ (c.node j).clock →
    ∀ r, (c.node j).registry.records.find? id = some r → r.state ≠ .provisioning

theorem Course.SettledBy.mono {c : Course} {i j time : Nat} (h : c.SettledBy i id time)
    (hij : i ≤ j) : c.SettledBy j id time := fun k hjk => h k (hij.trans hjk)

namespace Course.InTime

variable {c : Course} {config : NodeConfig} {ownerBase : Option Nat} {i j : Nat} {w : Work}
variable (h : c.InTime config ownerBase)
include h

theorem not_stuck_of_ready (hphase : phase.mayWait = false) :
    ¬ c.Stuck i t (.deprovision id timeout phase) := by
  have herrand : (Work.deprovision id timeout phase).errand? = none := by
    cases phase <;> first | rfl | cases hphase
  refine h.not_stuck 0 fun j _ _ hj => run_ne_none hj herrand fun _ => ?_
  rw [stepWork, Option.isSome_map]
  exact isSome_stepDeprovision _ id timeout hphase

/-- Errands get on, as the host answers. -/
theorem not_stuck_of_errand (hobliging : c.Obliging) {e : Errand} (herrand : w.errand? = some e) :
    ¬ c.Stuck i t w := fun hstuck => by
  cases hhost : e.hostCall? with
  | none =>
    exact h.not_stuck 0 (fun j _ _ hj => run_ne_none_of_errand hj herrand hhost) hstuck
  | some call =>
    have hcall : ((c.node i).hostCall? t).isSome = true := by
      obtain ⟨task, hfind, rfl⟩ := Option.map_eq_some_iff.1 (hstuck i (Nat.le_refl i)).1
      simp [hostCall?, hfind, herrand, hhost]
    obtain ⟨j, result, hij, hmove⟩ := hobliging.host i t hcall
    exact (hstuck j hij).2 (congrArg Move.task? hmove)

/-- A call that stops a process is not left waiting: there is room for its requests, the time that
    it waits for comes, and a process that will be killed is gone in the end. -/
theorem not_stuck_of_stop (hobliging : c.Obliging) {p : Nat} {stage : Stop}
    (ht : (c.node i).work? t = some (.deprovision id timeout (.stop p stage))) :
    ¬ c.Stuck i t (.deprovision id timeout (.stop p stage)) := by
  cases stage with
  | ask =>
    -- there is room in the queue
    refine h.not_stuck 0 fun j _ _ hj => run_ne_none_of_stop hj fun s hs => ?_
    rw [Stop.step]
    split
    · rfl
    · rw [Option.isSome_map]
      exact (h.run j).isSome_put hj hs _
  | await deadline =>
    -- the deadline comes
    refine h.not_stuck deadline fun j _ hlate hj => run_ne_none_of_stop hj fun s hs => ?_
    rw [Stop.step]
    split
    · rfl
    · rw [if_pos hlate]
      rfl
  | escalate =>
    -- there is still room in the queue
    refine h.not_stuck 0 fun j _ _ hj => run_ne_none_of_stop hj fun s hs => ?_
    rw [Stop.step, Option.isSome_map]
    exact (h.run j).isSome_put hj hs _
  | reap =>
    -- the process is doomed, and its exit reason is published in the end
    obtain ⟨s, hs, hdoomed⟩ := (h.run i).doomed ht
    obtain ⟨k, reason, hik, hexit⟩ := h.exits_of_doomed hobliging hs hdoomed
    intro hstuck
    obtain ⟨j, hkj, -, hrest⟩ := h.rests k 0
    refine run_ne_none_of_stop (hstuck j (hik.trans hkj)).1 (fun s hs => ?_) (hrest t)
    have hlater := h.exit?_later hexit hkj
    rw [exit?, hs] at hlater
    rw [Stop.step, Option.isSome_map, show s.exit? = some reason from hlater]
    rfl

/-- A call that has a part in the life of its instance is never stuck. -/
theorem not_stuck_of_role (hobliging : c.Obliging)
    (ht : (c.node i).work? t = some (.deprovision id timeout phase))
    (hrole : phase.role?.isSome = true) : ¬ c.Stuck i t (.deprovision id timeout phase) := by
  cases phase with
  | settle | rest | look | enter | listen | await | ended => cases hrole
  | giveBack e | giveBackReaped e => exact h.not_stuck_of_errand hobliging rfl
  | stop => exact h.not_stuck_of_stop hobliging ht
  | _ => exact h.not_stuck_of_ready rfl

/-! ### The end -/

/-- A call that has a part in the life of its instance ends, and the instance is gone. -/
theorem ends_of_role (hobliging : c.Obliging)
    (ht : (c.node i).work? t = some (.deprovision id timeout phase))
    (hrole : phase.role?.isSome = true) : ∃ j reason, i ≤ j ∧
      (c.node j).work? t = some (.deprovision id timeout (.ended (.ok reason))) ∧
        Since 4 (c.ids j) (c.node j) id := by
  induction hleft : phase.left using WellFoundedLT.induction generalizing i phase with
  | ind left ih =>
    -- nobody can abandon a call that has a part in the life of an instance
    have hbound : (Work.deprovision id timeout phase).isBound = true := by
      cases phase <;> first | rfl | cases hrole
    obtain ⟨j, k, w', hij, hgoes⟩ :=
      h.goes ht (.inl hbound) (h.not_stuck_of_role hobliging ht hrole)
    have hlater : ∀ {phase' : DeprovisionPhase}, w' = .deprovision id timeout phase' →
        phase'.role?.isSome = true ∧ phase'.left < phase.left → ∃ j reason, i ≤ j ∧
          (c.node j).work? t = some (.deprovision id timeout (.ended (.ok reason))) ∧
            Since 4 (c.ids j) (c.node j) id := fun heq hless => by
      subst heq
      obtain ⟨l, reason, hjl, hend⟩ := ih _ (hleft ▸ hless.2) hgoes.after hless.1 rfl
      exact ⟨l, reason, hij.trans ((Nat.le_succ j).trans hjl), hend⟩
    cases herrand : phase.errand? with
    | none =>
      -- the next step brings the call closer to its end, or is the last one
      obtain ⟨hmove, phase', rfl, hsteps⟩ := hgoes.deprovisions herrand
      rcases hsteps.left_lt hrole with hless | ⟨reason, rfl⟩
      · exact hlater rfl hless
      · have hlegal : Legal (c.ids j) (c.node j) (.run t) (c.node (j + 1)) := hmove ▸ h.legal j
        have hsince := hlegal.since_of_ended (h.run j).thorough hgoes.before hgoes.after
        rw [← hmove, ← c.ids_succ] at hsince
        exact ⟨j + 1, reason, hij.trans (Nat.le_succ j), hgoes.after, hsince⟩
    | some e =>
      -- so does a step of its errand
      obtain ⟨progress, rfl, hprogress⟩ := hgoes.resumes herrand
      exact hlater rfl (DeprovisionPhase.left_resume herrand hprogress)

/-! ### Calls that wait for another one -/

/-- A call ends with the signal that it awaits: the call that takes care of the record ends, and
    then the record is gone. -/
theorem not_stuck_of_await (hobliging : c.Obliging) {signal : Nat} :
    ¬ c.Stuck i t (.deprovision id timeout (.await signal)) := fun hstuck => by
  have hcare : ∀ j, i ≤ j → (∀ t, (c.node j).run t = none) →
      ∃ r, (c.node j).registry.records.find? id = some r ∧ ∃ u q,
        (c.node j).role? u id = some q ∧ (q.isFelling = true ∨ q.isStopped = true) :=
    fun j hij hrest => by
      have hwork := (hstuck j hij).1
      rcases (h.run j).awake hwork with ⟨r, hfind, -, u, q, -, hu, hq⟩ | ⟨-, hraised⟩
      · exact ⟨r, hfind, u, q, hu, hq⟩
      · obtain ⟨m, hm, -⟩ := run_of_raised hwork hraised
        cases (hrest t).symm.trans hm
  obtain ⟨j, hij, -, hrest⟩ := h.rests i 0
  obtain ⟨-, -, u, q, hu, hq⟩ := hcare j hij hrest
  obtain ⟨work, hwork, hrole⟩ := Option.bind_eq_some_iff.1 hu
  obtain ⟨_, phase, rfl, hphase⟩ := Work.deprovisions_of_role? hrole hq
  obtain ⟨k, -, hjk, -, hsince⟩ := h.ends_of_role hobliging hwork (by rw [hphase]; rfl)
  obtain ⟨l, hkl, -, hrest'⟩ := h.rests k 0
  obtain ⟨r, hfind, -⟩ := hcare l (hij.trans (hjk.trans hkl)) hrest'
  cases (h.since_later hsince hkl).find?_eq_none.symm.trans hfind

/-- A call that waits for another one ends. -/
theorem ends_of_waiting (hobliging : c.Obliging)
    (ht : (c.node i).work? t = some (.deprovision id timeout phase))
    (hwaiting : phase.isWaiting = true) : c.Ends i t id timeout := by
  have hawait : ∀ {i signal},
      (c.node i).work? t = some (.deprovision id timeout (.await signal)) →
      c.Ends i t id timeout := fun ht => by
    obtain ⟨j, k, w', hij, hgoes⟩ := h.goes ht (.inl rfl) (h.not_stuck_of_await hobliging)
    obtain ⟨-, phase', rfl, hsteps⟩ := hgoes.deprovisions rfl
    cases hsteps with
    | heard => exact ⟨j + 1, _, hij.trans (Nat.le_succ j), hgoes.after⟩
  cases phase with
  | await => exact hawait ht
  | listen =>
    obtain ⟨j, k, w', hij, hgoes⟩ := h.goes ht (.inl rfl) (h.not_stuck_of_ready rfl)
    obtain ⟨-, phase', rfl, hsteps⟩ := hgoes.deprovisions rfl
    cases hsteps with
    | listen => exact (hawait hgoes.after).mono (hij.trans (Nat.le_succ j))
    | unheard => exact ⟨j + 1, _, hij.trans (Nat.le_succ j), hgoes.after⟩
  | _ => cases hwaiting

/-! ### Calls that read the state -/

/-- A call that reads the state of an instance which is not being provisioned ends, if it does when
    it finds the instance running. -/
theorem ends_of_look (hobliging : c.Obliging)
    (ht : (c.node i).work? t = some (.deprovision id timeout .look))
    (hsince : Since 1 (c.ids i) (c.node i) id)
    (hsee : ∀ j, i ≤ j → (c.node j).Runs id →
      (c.node (j + 1)).work? t = some (.deprovision id timeout .enter) →
      c.Ends (j + 1) t id timeout) : c.Ends i t id timeout := by
  obtain ⟨j, k, w', hij, hgoes⟩ := h.goes ht (.inl rfl) (h.not_stuck_of_ready rfl)
  have hlater := hij.trans (Nat.le_succ j)
  obtain ⟨-, phase', rfl, hsteps⟩ := hgoes.deprovisions rfl
  cases hsteps with
  | unknown => exact ⟨j + 1, _, hlater, hgoes.after⟩
  | early hfind hstate =>
    have hrank := (h.since_later hsince hij).2 _ hfind
    rw [hstate] at hrank
    exact absurd hrank (by decide)
  | see hfind hstate => exact (hsee j hij ⟨_, hfind, hstate⟩ hgoes.after).mono hlater
  | follow => exact (h.ends_of_waiting hobliging hgoes.after rfl).mono hlater
  | late =>
    obtain ⟨l, reason, hjl, hend, -⟩ := h.ends_of_role hobliging hgoes.after rfl
    exact ⟨l, _, hlater.trans hjl, hend⟩

/-- A call that is to move an instance out of `running` ends. It looks again if somebody else was
    faster, and then finds the instance further on. -/
theorem ends_of_enter (hobliging : c.Obliging)
    (ht : (c.node i).work? t = some (.deprovision id timeout .enter))
    (hsince : Since 1 (c.ids i) (c.node i) id) : c.Ends i t id timeout := by
  obtain ⟨j, k, w', hij, hgoes⟩ := h.goes ht (.inl rfl) (h.not_stuck_of_ready rfl)
  have hlater := hij.trans (Nat.le_succ j)
  obtain ⟨-, phase', rfl, hsteps⟩ := hgoes.deprovisions rfl
  cases hsteps with
  | lost => exact ⟨j + 1, _, hlater, hgoes.after⟩
  | enter =>
    obtain ⟨l, reason, hjl, hend, -⟩ := h.ends_of_role hobliging hgoes.after rfl
    exact ⟨l, _, hlater.trans hjl, hend⟩
  | retry hfind hne =>
    have hrank := InstanceState.two_le_rank ((h.since_later hsince hij).2 _ hfind) hne
    have hfar : Since 2 (c.ids (j + 1)) (c.node (j + 1)) id :=
      h.since_later ((h.run j).tidy.since_of_find? hfind hrank) (Nat.le_succ j)
    refine (h.ends_of_look hobliging hgoes.after ⟨hfar.1, fun r hr => ?_⟩
      fun l hjl hruns _ => ?_).mono hlater
    · exact Nat.le_of_succ_le (hfar.2 r hr)
    · exact absurd hruns (h.since_later hfar hjl).not_runs

/-- A call that reads the state of an instance ends, if the instance is not being provisioned. -/
theorem ends_of_looking (hobliging : c.Obliging)
    (ht : (c.node i).work? t = some (.deprovision id timeout .look))
    (hsince : Since 1 (c.ids i) (c.node i) id) : c.Ends i t id timeout :=
  h.ends_of_look hobliging ht hsince fun _ hij _ hj =>
    h.ends_of_enter hobliging hj (h.since_later hsince (hij.trans (Nat.le_succ _)))

/-! ### Calls that let an instance settle -/

/-- From some time on an instance whose record was inserted is not being provisioned. -/
theorem exists_settledBy {s : Step} (hs : s ∈ c.made i) (hinserts : s.Inserts id) :
    ∃ time, c.SettledBy i id time := by
  refine ⟨s.after.clock + (c.node i).config.launchTimeout + 1, fun j hij htime r hfind hstate => ?_⟩
  have hsub : s ∈ c.made j := by
    obtain ⟨k, hk, rfl⟩ := List.mem_map.1 hs
    exact List.mem_map_of_mem (List.mem_range.2 ((List.mem_range.1 hk).trans_le hij))
  have hclock := (h.run j).clock_le_of_provisioning (fun _ => h.timely_of_mem) hsub hinserts hfind
    hstate
  rw [h.config_eq hij] at hclock
  omega

/-- A call that finds its instance settled ends. -/
theorem ends_of_settled (hobliging : c.Obliging) {limit : Nat} {k : Node}
    (hgoes : c.Goes i t (.deprovision id timeout (.settle limit)) k
      (.deprovision id timeout .look)) : c.Ends i t id timeout := by
  obtain ⟨-, phase', heq, hsteps⟩ := hgoes.deprovisions rfl
  cases heq
  cases hsteps with
  | @settled _ r hfind hstate =>
    have hrank : 1 ≤ r.state.rank := by
      revert hstate
      cases r.state <;> decide
    exact (h.ends_of_looking hobliging hgoes.after (h.since_later
      ((h.run i).tidy.since_of_find? hfind hrank) (Nat.le_succ i))).mono (Nat.le_succ i)

/-- What becomes of a call that lets its instance settle, with one step. -/
theorem ends_or_settling (hobliging : c.Obliging) {k : Node} {w' : Work}
    (hgoes : c.Goes i t (.deprovision id timeout phase) k w')
    (hsettling : phase.isSettling = true) :
    c.Ends i t id timeout ∨ ∃ phase', w' = .deprovision id timeout phase' ∧
      phase'.isSettling = true ∧
        ((∃ limit wake, phase = .rest limit wake ∧ phase' = .settle limit) ∨
          ∃ r, (c.node i).registry.records.find? id = some r ∧ r.state = .provisioning) := by
  have herrand : phase.errand? = none := by
    cases phase <;> first | rfl | cases hsettling
  obtain ⟨-, phase', rfl, hsteps⟩ := hgoes.deprovisions herrand
  cases hsteps with
  | missing | giveUp => exact .inl ⟨i + 1, _, Nat.le_succ i, hgoes.after⟩
  | rest hfind hstate => exact .inr ⟨_, rfl, rfl, .inr ⟨_, hfind, hstate⟩⟩
  | settled => exact .inl (h.ends_of_settled hobliging hgoes)
  | wake => exact .inr ⟨_, rfl, rfl, .inl ⟨_, _, rfl, rfl⟩⟩
  | _ => cases hsettling

section

variable (hobliging : c.Obliging) (hkept : ∀ j, i ≤ j → (c.node (j + 1)).work? t ≠ some .gone)
include hobliging hkept

/-- A call that looks whether its instance has settled does so for the last time. -/
theorem ends_of_settle {time limit : Nat} (hsettled : c.SettledBy i id time)
    (hlate : time ≤ (c.node i).clock)
    (ht : (c.node i).work? t = some (.deprovision id timeout (.settle limit))) :
    c.Ends i t id timeout := by
  obtain ⟨j, k, w', hij, hgoes⟩ := h.goes ht (.inr hkept) (h.not_stuck_of_ready rfl)
  rcases h.ends_or_settling hobliging hgoes rfl with hends | ⟨_, -, -, hcase⟩
  · exact hends.mono hij
  · rcases hcase with ⟨_, _, hrest, -⟩ | ⟨r, hfind, hstate⟩
    · cases hrest
    · exact absurd hstate (hsettled j hij (hlate.trans (h.clock_le hij)) r hfind)

/-- A call that is to look again does so when its time has come. -/
theorem ends_of_rest {time limit wake : Nat} (hsettled : c.SettledBy i id time)
    (hlate : time ≤ (c.node i).clock)
    (ht : (c.node i).work? t = some (.deprovision id timeout (.rest limit wake))) :
    c.Ends i t id timeout := by
  have hstuck : ¬ c.Stuck i t (.deprovision id timeout (.rest limit wake)) := by
    refine h.not_stuck wake fun j _ hwake hj => run_ne_none hj rfl fun _ => ?_
    rw [stepWork, stepDeprovision, if_pos hwake]
    rfl
  obtain ⟨j, k, w', hij, hgoes⟩ := h.goes ht (.inr hkept) hstuck
  have hlater := hij.trans (Nat.le_succ j)
  rcases h.ends_or_settling hobliging hgoes rfl with hends | ⟨_, rfl, -, hcase⟩
  · exact hends.mono hij
  · rcases hcase with ⟨_, _, -, rfl⟩ | ⟨r, hfind, hstate⟩
    · exact (h.ends_of_settle hobliging (fun l hl => hkept l (hlater.trans hl))
        (hsettled.mono hlater) (hlate.trans (h.clock_le hlater)) hgoes.after).mono hlater
    · exact absurd hstate (hsettled j hij (hlate.trans (h.clock_le hij)) r hfind)

/-- Until it ends, the call goes on to let its instance settle. -/
theorem settling_or_ends (ht : (c.node i).work? t = some (.deprovision id timeout phase))
    (hsettling : phase.isSettling = true) (hij : i ≤ j) : c.Ends i t id timeout ∨ ∃ phase,
      (c.node j).work? t = some (.deprovision id timeout phase) ∧ phase.isSettling = true := by
  induction j, hij using Nat.le_induction with
  | base => exact .inr ⟨phase, ht, hsettling⟩
  | succ j hij ih =>
    rcases ih with hends | ⟨phase, hj, hphase⟩
    · exact .inl hends
    cases (h.legal j).onTask t with
    | idle heq => exact .inr ⟨phase, heq.trans hj, hphase⟩
    | begun hnone => cases hnone.symm.trans hj
    | dropped _ _ hgone => exact absurd hgone (hkept j hij)
    | goes ha hold hadvance hk hm =>
      obtain rfl := Option.some.inj (hold.symm.trans hj)
      rcases h.ends_or_settling hobliging ⟨ha, hj, hadvance, hk, hm⟩ hphase with
        hends | ⟨phase', rfl, hphase', -⟩
      · exact .inl (hends.mono hij)
      · exact .inr ⟨phase', hm, hphase'⟩

/-- A call that lets its instance settle, and whose caller does not go away, ends. -/
theorem ends_of_settling (ht : (c.node i).work? t = some (.deprovision id timeout phase))
    (hsettling : phase.isSettling = true) : c.Ends i t id timeout := by
  obtain ⟨s, hs, hinserts, -⟩ := (h.run i).patient (fun _ => h.timely_of_mem) ht hsettling
  obtain ⟨time, hsettled⟩ := h.exists_settledBy hs hinserts
  obtain ⟨j, hij, hlate, -⟩ := h.rests i time
  rcases h.settling_or_ends hobliging hkept ht hsettling hij with hends | ⟨phase, hj, hphase⟩
  · exact hends
  have hkept' : ∀ l, j ≤ l → (c.node (l + 1)).work? t ≠ some .gone := fun l hl =>
    hkept l (hij.trans hl)
  cases phase with
  | settle => exact (h.ends_of_settle hobliging hkept' (hsettled.mono hij) hlate hj).mono hij
  | rest => exact (h.ends_of_rest hobliging hkept' (hsettled.mono hij) hlate hj).mono hij
  | _ => cases hphase

end

end Course.InTime

end Node

end VmNode
