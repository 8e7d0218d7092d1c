import VmNode.Proofs.Node.Ending

/-!
# Drains in virtual time

Whatever the launchers do, no record is `provisioning` for longer than a launch may take, no call
of a drain gives up waiting, and a drain ends without failures: those that have ended have none
(`Node.Prompt`), and in a course without end a drain ends if nobody who waits for it goes away
(`Node.prompt_of_start`).
-/

namespace VmNode.Node

variable {ids : List InstanceId} {n m k : Node} {a : Move} {id : InstanceId} {t u d : Nat}
variable {made : List Step} {w w' : Work}

/-! ### Callers that go away -/

theorem work?_abandonTask_of_ne (hne : t ≠ u) : (n.abandonTask u).work? t = n.work? t := by
  rw [abandonTask]
  cases n.tasks.find? u with
  | none => rfl
  | some task =>
    obtain ⟨b, hfst, -⟩ := leaveWork_fst n task.work
    simp only
    split
    · rfl
    · rw [hfst, work?, Table.find?_insert_of_ne _ _ hne]
      rfl

/-- When the caller of a task goes away, only that task and those it waits for are dropped. -/
theorem work?_of_leave (h : n.leave u = some m) (hne : t ≠ u)
    (hmem : ∀ w, n.work? u = some w → t ∉ members w) : m.work? t = n.work? t := by
  obtain ⟨task, hfind, rfl⟩ := Option.map_eq_some_iff.1 h
  have hmembers : ∀ (l : List Nat) (n : Node), t ∉ l →
      (l.foldl abandonTask n).work? t = n.work? t := by
    intro l
    induction l with
    | nil => exact fun _ _ => rfl
    | cons s rest ih =>
      intro n hnot
      rw [List.foldl_cons, ih _ fun hmem => hnot (List.mem_cons_of_mem _ hmem)]
      exact work?_abandonTask_of_ne fun heq => hnot (heq ▸ List.mem_cons_self)
  rw [work?_abandonTask_of_ne hne]
  exact hmembers _ n (hmem task.work (congrArg (Option.map Task.work) hfind))

theorem Advance.ne_gone (h : n.Advance a w k w') : w' ≠ .gone := by
  cases h with
  | errand herrand _ heq | answer herrand _ heq =>
    rintro rfl
    cases w <;> cases heq
    cases herrand
  | _ => nofun

/-- A task is not dropped while its caller is there, and that of a drain which waits for it. -/
theorem Legal.not_gone (h : Legal ids n a m) (ht : n.work? t = some w) (hw : w ≠ .gone)
    (hleave : ∀ u, a = .leave u → t ≠ u ∧ ∀ w, n.work? u = some w → t ∉ members w) :
    ∃ w', m.work? t = some w' ∧ w' ≠ .gone := by
  have hstill : m.work? t = n.work? t → ∃ w', m.work? t = some w' ∧ w' ≠ .gone := fun heq =>
    ⟨w, heq.trans ht, hw⟩
  cases h.onTask t with
  | idle heq => exact hstill heq
  | begun hnone => cases hnone.symm.trans ht
  | goes _ _ hadvance _ hm => exact ⟨_, hm, hadvance.ne_gone⟩
  | dropped _ _ hgone =>
    -- a task is dropped by a move of its caller, or of a drain that waits for it, and of nobody
    -- else
    cases h.pass with
    | @task _ u work work' k ha hu hadvance =>
      by_cases htu : t = u
      · subst htu
        obtain ⟨work, k', work', -, hadvance, -, hm⟩ := h.advance ha
        exact ⟨work', hm, hadvance.ne_gone⟩
      · rcases hadvance.work? h.tidy hu ha t with hk | ⟨hnone, -⟩
        · exact hstill ((work?_setWork_of_ne htu work').trans hk)
        · cases hnone.symm.trans ht
    | begin =>
      rcases work?_spawn_cases h.tidy.numbered t with heq | ⟨hnone, -⟩
      · exact hstill heq
      · cases hnone.symm.trans ht
    | leave =>
      obtain ⟨hne, hmem⟩ := hleave _ rfl
      exact hstill (work?_of_leave h.move hne hmem)
    | process | print | pass => exact hstill rfl

/-! ### Drains that wait -/

theorem Legal.of_list (h : Legal ids n (.run d) m) (ht : n.work? d = some (.drain .list)) :
    ∃ members, m.work? d = some (.drain (.await members)) ∧
      ∀ e ∈ members, n.work? e.2 = none ∧ ∃ timeout limit,
        m.work? e.2 = some (.deprovision e.1 timeout (.settle limit)) := by
  obtain ⟨work, k, work', hold, hadvance, hk, hm⟩ := h.advance rfl
  obtain rfl := Option.some.inj (ht.symm.trans hold)
  cases hadvance with
  | errand herrand => cases herrand
  | list =>
    refine ⟨_, hm, fun e he => ?_⟩
    obtain ⟨hnone, timeout, limit, he'⟩ :=
      (mem_spawnMembers n.instanceIds h.tidy.numbered).2 e he
    have hne : e.2 ≠ d := fun heq => by cases (heq ▸ hnone).symm.trans ht
    exact ⟨hnone, timeout, limit, hk ▸ (work?_setWork_of_ne hne _).trans he'⟩

/-- Two drains wait for calls of their own. -/
theorem Run.members_apart (h : Run made ids n) : ∀ {d d' members members' e e'},
    n.work? d = some (.drain (.await members)) → n.work? d' = some (.drain (.await members')) →
    d ≠ d' → e ∈ members → e' ∈ members' → e.2 ≠ e'.2 := by
  induction h with
  | start hstart =>
    obtain rfl := start_eq_ok hstart
    exact fun hd => by cases hd
  | @move made ids n m a hrun hlegal ih =>
    intro d d' members members' e e' hd hd' hne he he'
    -- a call that is begun was not there, and one that is waited for was
    have hnew : ∀ {d members}, m.work? d = some (.drain (.await members)) →
        n.work? d = some (.drain (.await members)) ∨
          a = .run d ∧ ∀ e ∈ members, n.work? e.2 = none := fun {d members} hd => by
      rcases (hlegal.onTask d).of_drain hd with hold | hlist | ⟨phase, k, rfl, ht, hadvance, -⟩
      · exact .inl hold
      · cases hlist
      · cases hadvance with
        | errand herrand => cases herrand
        | list =>
          obtain ⟨members', hm, hmembers⟩ := hlegal.of_list ht
          cases hm.symm.trans hd
          exact .inr ⟨rfl, fun e he => (hmembers e he).1⟩
    have hold : ∀ {d members e}, n.work? d = some (.drain (.await members)) → e ∈ members →
        n.work? e.2 ≠ none := fun hd he hnone => by
      rcases ((hrun.attends hd).2 _ he).2 with hgone | ⟨_, _, _, hwork, -⟩
      · cases hnone.symm.trans hgone
      · cases hnone.symm.trans hwork
    rcases hnew hd with hd | ⟨rfl, hnone⟩ <;> rcases hnew hd' with hd' | ⟨ha, hnone'⟩
    · exact ih hd hd' hne he he'
    · exact fun heq => hold hd he (heq ▸ hnone' e' he')
    · exact fun heq => hold hd' he' (heq ▸ hnone e he)
    · cases ha
      exact absurd rfl hne

/-- A drain goes on to be one unless it is dropped. -/
theorem Legal.drain_stays (h : Legal ids n a m) {phase : DrainPhase}
    (hd : n.work? d = some (.drain phase)) (hgone : m.work? d ≠ some .gone) :
    ∃ phase', m.work? d = some (.drain phase') := by
  cases h.onTask d with
  | idle heq => exact ⟨phase, heq.trans hd⟩
  | begun hnone => cases hnone.symm.trans hd
  | dropped _ _ hm => exact absurd hm hgone
  | goes _ hold hadvance _ hm =>
    obtain rfl := Option.some.inj (hold.symm.trans hd)
    cases hadvance with
    | errand herrand | answer herrand => cases herrand
    | list | gather => exact ⟨_, hm⟩

theorem deprovisioned?_of_ended {timeout : Nat} {outcome : Except Error (Option ExitReason)}
    (ht : n.work? t = some (.deprovision id timeout (.ended outcome))) :
    n.deprovisioned? t = some outcome := by
  obtain ⟨⟨work, hasCaller⟩, hfind, rfl⟩ := Option.map_eq_some_iff.1 ht
  rw [deprovisioned?, hfind]

/-- A drain goes on when all calls that it waits for have ended. -/
theorem run_ne_none_of_await {members : List (InstanceId × Nat)}
    (hd : n.work? d = some (.drain (.await members)))
    (hends : ∀ e ∈ members, (n.deprovisioned? e.2).isSome = true) : n.run d ≠ none := by
  refine run_ne_none hd rfl fun _ => ?_
  rw [stepWork, Option.isSome_map, stepDrain, Option.isSome_map]
  clear hd
  induction members with
  | nil => rfl
  | cons e rest ih =>
    obtain ⟨outcome, houtcome⟩ := Option.isSome_iff_exists.1 (hends e List.mem_cons_self)
    obtain ⟨outcomes, houtcomes⟩ := Option.isSome_iff_exists.1
      (ih fun e he => hends e (List.mem_cons_of_mem _ he))
    rw [List.mapM_cons, houtcome, houtcomes]
    rfl

namespace Course

/-- Neither who waits for a drain goes away nor who waits for one of its calls. -/
def Attended (c : Course) (i d : Nat) : Prop :=
  ∀ j, i ≤ j → ∀ t, c.move j = .leave t → d ≠ t ∧ ∀ members,
    (c.node j).work? d = some (.drain (.await members)) → t ∉ members.map (·.2)

theorem Attended.mono {c : Course} {i j : Nat} (h : c.Attended i d) (hij : i ≤ j) :
    c.Attended j d := fun k hjk => h k (hij.trans hjk)

namespace InTime

variable {c : Course} {config : NodeConfig} {ownerBase : Option Nat} {i j : Nat}
variable (h : c.InTime config ownerBase)
include h

/-- In the course a call that deprovisions an instance has ended from some time on. -/
theorem ended_later {timeout : Nat} {outcome : Except Error (Option ExitReason)}
    (ht : (c.node i).work? t = some (.deprovision id timeout (.ended outcome))) (hij : i ≤ j) :
    (c.node j).work? t = some (.deprovision id timeout (.ended outcome)) := by
  induction j, hij using Nat.le_induction with
  | base => exact ht
  | succ j _ ih =>
    have hlegal := h.legal j
    generalize c.move j = a at hlegal
    cases hlegal.onTask t with
    | idle heq => exact heq.trans ih
    | begun hnone => cases hnone.symm.trans ih
    | dropped hold hbound =>
      obtain rfl := Option.some.inj (hold.symm.trans ih)
      cases hbound
    | goes _ hold hadvance =>
      obtain rfl := Option.some.inj (hold.symm.trans ih)
      cases hadvance with
      | errand herrand | answer herrand => cases herrand
      | deprovision hsteps => cases hsteps

/-- A drain that is attended stays. -/
theorem drain_later (hattended : c.Attended i d) {phase : DrainPhase}
    (hd : (c.node i).work? d = some (.drain phase)) (hij : i ≤ j) :
    ∃ phase', (c.node j).work? d = some (.drain phase') := by
  induction j, hij using Nat.le_induction with
  | base => exact ⟨phase, hd⟩
  | succ j hij ih =>
    obtain ⟨phase', hd'⟩ := ih
    obtain ⟨w, hw, hne⟩ := (h.legal j).not_gone hd' nofun fun u hu => by
      refine ⟨(hattended j hij u hu).1, fun w hw hmem => ?_⟩
      -- a drain waits for calls that deprovision instances
      cases w with
      | drain phase =>
        cases phase with
        | await members =>
          obtain ⟨e, he, rfl⟩ := List.mem_map.1 hmem
          rcases (((h.run j).attends hw).2 e he).2 with hgone | ⟨_, _, _, hwork, -⟩
          · cases hgone.symm.trans hd'
          · cases hwork.symm.trans hd'
        | list | ended => cases hmem
      | _ => cases hmem
    exact (h.legal j).drain_stays hd' fun hgone => hne (Option.some.inj (hw.symm.trans hgone))

theorem not_gone_of_drain (hattended : c.Attended i d) {phase : DrainPhase}
    (hd : (c.node i).work? d = some (.drain phase)) :
    ∀ j, i ≤ j → (c.node (j + 1)).work? d ≠ some .gone := fun j hij hgone => by
  obtain ⟨phase', hd'⟩ := h.drain_later hattended hd (hij.trans (Nat.le_succ j))
  cases hgone.symm.trans hd'

/-- While a drain waits, the calls that it waits for are not dropped. -/
theorem member_later (hattended : c.Attended i d) {members : List (InstanceId × Nat)}
    (hd : c.Stuck i d (.drain (.await members))) {e : InstanceId × Nat} (he : e ∈ members)
    (ht : (c.node i).work? e.2 = some w) (hw : w ≠ .gone) (hij : i ≤ j) :
    ∃ w', (c.node j).work? e.2 = some w' ∧ w' ≠ .gone := by
  induction j, hij using Nat.le_induction with
  | base => exact ⟨w, ht, hw⟩
  | succ j hij ih =>
    obtain ⟨w', ht', hw'⟩ := ih
    refine (h.legal j).not_gone ht' hw' fun u hu => ?_
    obtain ⟨hne, hmem⟩ := hattended j hij u hu
    have hd' := (hd j hij).1
    refine ⟨fun heq => hmem members hd' (heq ▸ List.mem_map_of_mem he), fun w hw hother => ?_⟩
    cases w with
    | drain phase =>
      cases phase with
      | await others =>
        obtain ⟨e', he', heq⟩ := List.mem_map.1 hother
        exact (h.run j).members_apart hd' hw hne he he' heq.symm
      | list | ended => cases hother
    | _ => cases hother

/-- A drain does not wait for ever. -/
theorem not_stuck_of_drain (hobliging : c.Obliging) (hattended : c.Attended i d)
    {members : List (InstanceId × Nat)} (hsettling : ∀ e ∈ members, ∃ timeout limit,
      (c.node i).work? e.2 = some (.deprovision e.1 timeout (.settle limit))) :
    ¬ c.Stuck i d (.drain (.await members)) := fun hstuck => by
  -- by induction on the members, all of them have ended from some time on
  have hends : ∀ l, l ⊆ members → ∃ k, i ≤ k ∧ ∀ j, k ≤ j → ∀ e ∈ l,
      ((c.node j).deprovisioned? e.2).isSome = true := fun l hl => by
    induction l with
    | nil => exact ⟨i, Nat.le_refl i, fun _ _ _ he => by cases he⟩
    | cons e rest ih =>
      obtain ⟨k, hik, hrest⟩ := ih fun e he => hl (List.mem_cons_of_mem _ he)
      have he := hl List.mem_cons_self
      obtain ⟨timeout, limit, ht⟩ := hsettling e he
      -- the drain is there and waits, so its calls are not abandoned
      have hkept : ∀ j, i ≤ j → (c.node (j + 1)).work? e.2 ≠ some .gone := fun j hij hgone => by
        obtain ⟨w, hw, hne⟩ := h.member_later hattended hstuck he ht nofun
          (hij.trans (Nat.le_succ j))
        exact hne (Option.some.inj (hw.symm.trans hgone))
      obtain ⟨l, outcome, -, hend⟩ := h.ends_of_settling hobliging hkept ht rfl
      refine ⟨max k l, hik.trans (Nat.le_max_left ..), fun j hj e' he' => ?_⟩
      rcases List.mem_cons.1 he' with rfl | he'
      · rw [deprovisioned?_of_ended (h.ended_later hend ((Nat.le_max_right ..).trans hj))]
        rfl
      · exact hrest j ((Nat.le_max_left ..).trans hj) e' he'
  obtain ⟨k, hik, hall⟩ := hends members (List.Subset.refl _)
  obtain ⟨j, hkj, -, hrest⟩ := h.rests k 0
  exact run_ne_none_of_await (hstuck j (hik.trans hkj)).1 (hall j hkj) (hrest d)

/-- A drain that is attended ends. -/
theorem drain_ends (hobliging : c.Obliging) (hattended : c.Attended i d)
    (hd : (c.node i).work? d = some (.drain .list)) :
    ∃ j summary, i ≤ j ∧ (c.node j).work? d = some (.drain (.ended summary)) := by
  have hlist : ¬ c.Stuck i d (.drain .list) :=
    h.not_stuck 0 fun j _ _ hj => run_ne_none hj rfl fun _ => rfl
  obtain ⟨j, k, w, hij, hgoes⟩ := h.goes hd (.inr (h.not_gone_of_drain hattended hd)) hlist
  have hlater := hij.trans (Nat.le_succ j)
  obtain ⟨htask, hbefore, hadvance, -, hafter⟩ := hgoes
  have hlegal := h.legal j
  generalize c.move j = a at htask hadvance hlegal
  cases hadvance with
  | errand herrand | answer herrand => cases herrand
  | list =>
    cases htask
    obtain ⟨members, hm, hmembers⟩ := hlegal.of_list hbefore
    obtain ⟨l, k, w, hjl, hgoes⟩ := h.goes hm
      (.inr (h.not_gone_of_drain (hattended.mono hlater) hm))
      (h.not_stuck_of_drain hobliging (hattended.mono hlater) fun e he => (hmembers e he).2)
    obtain ⟨-, -, hadvance, -, hafter⟩ := hgoes
    generalize c.move l = a at hadvance
    cases hadvance with
    | errand herrand | answer herrand => cases herrand
    | gather => exact ⟨l + 1, _, hlater.trans (hjl.trans (Nat.le_succ l)), hafter⟩

end InTime

end Course

theorem attended_ofMoves {moves : List Move} {i : Nat} (hstay : ∀ a ∈ moves, ∀ t, a ≠ .leave t) :
    (Course.ofMoves n moves).Attended i d := fun j _ t hleave => by
  rcases Nat.lt_or_ge j moves.length with hlt | hge
  · rw [move_ofMoves_of_lt hlt] at hleave
    exact absurd hleave (hstay _ (List.getElem_mem hlt) t)
  · rw [move_ofMoves_of_le hge] at hleave
    cases hleave

/-! ### All drains -/

/-- What a run has come to in virtual time. -/
structure Prompt (made : List Step) (n : Node) : Prop where
  /-- No record is `provisioning` for longer than a launch may take. -/
  launched : ∀ s ∈ made, ∀ id r, s.Inserts id → n.registry.records.find? id = some r →
    r.state = .provisioning → n.clock ≤ s.after.clock + n.config.launchTimeout
  /-- No call has given up waiting for an instance to be provisioned. -/
  patient : ∀ t id timeout why,
    n.work? t ≠ some (.deprovision id timeout (.ended (.error (.timeout why))))
  /-- No drain that has ended has failures. -/
  drained : ∀ d summary, n.work? d = some (.drain (.ended summary)) → summary.failures = []

/-- In virtual time, whatever calls are made and whatever becomes of launches, as long as no two
    instances get one identifier, no record stays `provisioning` for too long, no call of a drain
    gives up, and a drain has no failures. A drain that is begun at any moment ends, if nobody who
    waits for it goes away and processes exit once they were killed. -/
theorem prompt_of_start {config : NodeConfig} {ownerBase : Option Nat} {start : Node}
    (hstart : Node.start config ownerBase = .ok start) :
    (∀ moves n, (provisioned moves).Nodup → start.play moves = some n →
      (∀ s ∈ start.steps moves, s.Timely) → Prompt (start.steps moves) n) ∧
    ∀ c : Course, c.InTime config ownerBase → c.Obliging → ∀ i, c.move i = .begin .drain →
      c.Attended (i + 1) (c.node i).tasks.size → ∃ j summary, i < j ∧
        (c.node j).work? (c.node i).tasks.size = some (.drain (.ended summary)) ∧
          summary.failures = [] := by
  refine ⟨fun moves n hids hplay htimely => ?_, fun c h hobliging i hmove hattended => ?_⟩
  · have hrun := run_of_play hstart hids hplay
    exact ⟨fun s hs id r hinserts hfind hstate =>
        hrun.clock_le_of_provisioning htimely hs hinserts hfind hstate,
      hrun.not_timeout htimely, fun d summary hd => hrun.failures_eq_nil htimely hd⟩
  · have hbegun : (c.node (i + 1)).work? (c.node i).tasks.size = some (.drain .list) := by
      have hnext := h.next i
      rw [hmove] at hnext
      rw [← Option.some.inj hnext, work?]
      exact congrArg (Option.map Task.work) (Table.find?_insert_self ..)
    obtain ⟨j, summary, hij, hended⟩ := h.drain_ends hobliging hattended hbegun
    exact ⟨j, summary, hij, hended, (h.run j).failures_eq_nil (fun _ => h.timely_of_mem) hended⟩

/-- A launch hangs, and a drain begins just before it is due. Another instance is launched, and a
    drain begins; its process does not react until it is killed. -/
def twiceDrained : List Move :=
  let ok (t : Nat) : Move := .host t (.ok ())
  [.begin (.provision "i-1" (.ofImage "app")), .run 0, ok 0, ok 0, ok 0, ok 0, .run 0, .run 0,
    .run 0, .pass 29990,
    .begin .drain, .run 1, .run 2, .pass 10, .run 0, .run 0, .run 0, .run 0, ok 0, ok 0, ok 0,
    ok 0, .run 0, .run 0, .pass 10, .run 2, .run 2, .run 1,
    .begin (.provision "i-2" (.ofImage "app")), .run 3, ok 3, ok 3, ok 3, ok 3, .run 3, .run 3,
    .run 3, .launched 3 (.ok ()), .run 3, .run 3,
    .begin .drain, .run 5, .run 6, .run 6, .run 6, .run 6, .run 6, .process 0 .take,
    .process 0 (.delivery .delivered), .pass 3000, .run 6, .run 6, .process 0 .take,
    .process 0 (.kill true), .process 0 (.exit (.exited none)), .process 0 .cleaned, .run 4,
    .run 4, .run 6, .run 6, .run 6, .run 6, ok 6, ok 6, ok 6, ok 6, .run 6, .run 6, .run 6, .run 6,
    .run 6, .run 5]

/-- Both drains end, and have no failures. -/
theorem prompt_twiceDrained : ∃ start n, Node.start {} none = .ok start ∧
    start.play twiceDrained = some n ∧ Prompt (start.steps twiceDrained) n ∧
    ∃ c : Course, c.InTime {} none ∧ c.Obliging ∧
      (c.move 10 = .begin .drain ∧ ∃ j summary, 10 < j ∧
        (c.node j).work? 1 = some (.drain (.ended summary)) ∧ summary.failures = []) ∧
      (c.move 40 = .begin .drain ∧ ∃ j summary, 40 < j ∧
        (c.node j).work? 5 = some (.drain (.ended summary)) ∧ summary.failures = []) := by
  let n := (blank.play twiceDrained).get (by decide +kernel)
  let c := Course.ofMoves blank twiceDrained
  have hplay : blank.play twiceDrained = some n := (Option.some_get _).symm
  have hids : (provisioned twiceDrained).Nodup := by decide +kernel
  have htimely : ∀ s ∈ blank.steps twiceDrained, s.before.OnTime s.move := by decide +kernel
  have hfares : blank.Fares twiceDrained := by decide +kernel
  have hattended : ∀ i d, c.Attended i d := fun i d =>
    attended_ofMoves fun a ha t heq => by simp [twiceDrained, heq] at ha
  have hfirst : (c.node 10).tasks.size = 1 := by decide +kernel
  have hsecond : (c.node 40).tasks.size = 5 := by decide +kernel
  obtain ⟨hprompt, hends⟩ := prompt_of_start start_blank
  have hintime : c.InTime {} none := hfares.inTime start_blank hids
  exact ⟨blank, n, start_blank, hplay, hprompt _ n hids hplay fun s hs => (htimely s hs).timely,
    c, hintime, hfares.obliging,
    ⟨rfl, hfirst ▸ hends c hintime hfares.obliging 10 rfl (hattended _ _)⟩,
    ⟨rfl, hsecond ▸ hends c hintime hfares.obliging 40 rfl (hattended _ _)⟩⟩

end VmNode.Node
