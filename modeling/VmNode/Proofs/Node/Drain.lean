import VmNode.Proofs.Node.Gone
import VmNode.Proofs.Node.Run

/-!
# Draining a node

A drain lists the instances and begins a task for each of them, which first lets the instance
finish being provisioned. From the time it is listed an instance was provisioned, from the time
its task reads its state in earnest it is not being provisioned any more, and when the task has
ended well or has found nothing, the record is gone for good (`Node.Attends`). So a task can only
end with an error if the instance took too long to be provisioned.

Main statement: when a drain returns, each instance that it has listed is gone or among its
failures, once, and nothing else is (`Node.drained_of_play`).
-/

namespace VmNode

/-! ### What a drain came to -/

namespace DrainSummary

variable {s : DrainSummary} {id : InstanceId} {f : InstanceId × String}
variable {l : List (InstanceId × Except Error (Option ExitReason))}

/-- What is reported of an outcome, unless the instance is gone. -/
def complaint? : Except Error (Option ExitReason) → Option String
  | .ok _ | .error (.instanceNotFound _) => none
  | .error e => some e.message

theorem failures_add (s : DrainSummary) (id : InstanceId)
    (outcome : Except Error (Option ExitReason)) : (s.add id outcome).failures =
      s.failures ++ ((complaint? outcome).map fun text => (id, text)).toList := by
  cases outcome with
  | ok reason =>
    rcases reason with _ | reason
    · exact (List.append_nil _).symm
    · cases reason <;> exact (List.append_nil _).symm
  | error e => cases e <;> first | rfl | exact (List.append_nil _).symm

/-- Each outcome counts once. -/
theorem total_add (s : DrainSummary) (id : InstanceId)
    (outcome : Except Error (Option ExitReason)) :
    (s.add id outcome).drained + (s.add id outcome).failures.length =
      s.drained + s.failures.length + 1 := by
  cases outcome with
  | ok reason =>
    rcases reason with _ | reason
    · exact Nat.succ_add ..
    · cases reason <;> exact Nat.succ_add ..
  | error e => cases e <;> first | exact Nat.succ_add .. | simp [add, Nat.add_assoc]

theorem clean_add_forced_add_le (h : s.clean + s.forced ≤ s.drained)
    (outcome : Except Error (Option ExitReason)) :
    (s.add id outcome).clean + (s.add id outcome).forced ≤ (s.add id outcome).drained := by
  cases outcome with
  | ok reason =>
    rcases reason with _ | reason
    · exact Nat.le_succ_of_le h
    · cases reason <;> simp only [add] <;> omega
  | error e => cases e <;> first | exact h | exact Nat.le_succ_of_le h

theorem ofOutcomes_concat (l : List (InstanceId × Except Error (Option ExitReason)))
    (o : InstanceId × Except Error (Option ExitReason)) :
    ofOutcomes (l ++ [o]) = (ofOutcomes l).add o.1 o.2 := List.foldl_append ..

/-- The failures are those of the outcomes, in order. -/
theorem failures_ofOutcomes (l : List (InstanceId × Except Error (Option ExitReason))) :
    (ofOutcomes l).failures =
      l.filterMap fun o => (complaint? o.2).map fun text => (o.1, text) := by
  induction l using List.reverseRecOn with
  | nil => rfl
  | append_singleton l o ih =>
    rw [ofOutcomes_concat, failures_add, ih, List.filterMap_append]
    cases h : complaint? o.2 <;> simp [h]

/-- Every outcome is counted once. -/
theorem total_ofOutcomes (l : List (InstanceId × Except Error (Option ExitReason))) :
    (ofOutcomes l).drained + (ofOutcomes l).failures.length = l.length := by
  induction l using List.reverseRecOn with
  | nil => rfl
  | append_singleton l o ih => rw [ofOutcomes_concat, total_add, ih, List.length_append]; rfl

/-- Only what is drained counts as clean or forced. -/
theorem clean_add_forced_le (l : List (InstanceId × Except Error (Option ExitReason))) :
    (ofOutcomes l).clean + (ofOutcomes l).forced ≤ (ofOutcomes l).drained := by
  induction l using List.reverseRecOn with
  | nil => exact Nat.le_refl _
  | append_singleton l o ih =>
    rw [ofOutcomes_concat]
    exact clean_add_forced_add_le ih o.2

theorem mem_failures :
    f ∈ (ofOutcomes l).failures ↔ ∃ outcome, (f.1, outcome) ∈ l ∧ complaint? outcome = some f.2 := by
  rw [failures_ofOutcomes, List.mem_filterMap]
  constructor
  · rintro ⟨⟨i, outcome⟩, hmem, hf⟩
    obtain ⟨text, htext, rfl⟩ := Option.map_eq_some_iff.1 hf
    exact ⟨outcome, hmem, htext⟩
  · rintro ⟨outcome, hmem, htext⟩
    exact ⟨(f.1, outcome), hmem, by rw [htext]; rfl⟩

/-- The failures come in the order of the outcomes. -/
theorem failures_sublist (l : List (InstanceId × Except Error (Option ExitReason))) :
    ((ofOutcomes l).failures.map (·.1)).Sublist (l.map (·.1)) := by
  rw [failures_ofOutcomes]
  induction l with
  | nil => exact .slnil
  | cons o rest ih =>
    cases h : complaint? o.2 with
    | none =>
      rw [List.filterMap_cons_none (by rw [h]; rfl), List.map_cons]
      exact ih.cons _
    | some text =>
      rw [List.filterMap_cons_some (by rw [h]; rfl), List.map_cons, List.map_cons]
      exact ih.cons_cons _

end DrainSummary

/-- How far an instance has come that a call relies on which deprovisions it for a drain, if the
    call has gone well. No state has come so far that the record is gone. -/
def DeprovisionPhase.reliesOn : DeprovisionPhase → Option Nat
  | .settle _ | .rest .. | .ended (.error (.timeout _)) => some 0
  | .ended (.ok _) | .ended (.error (.instanceNotFound _)) => some 4
  | .ended (.error _) => none
  | _ => some 1

namespace Node

variable {ids : List InstanceId} {n m k : Node} {a : Move} {id : InstanceId} {t d : Nat}
variable {made : List Step} {rank timeout : Nat}

/-! ### Instances that are gone -/

/-- An instance that is gone has no record. -/
theorem Since.find?_eq_none (h : Since 4 ids n id) : n.registry.records.find? id = none := by
  cases hfind : n.registry.records.find? id with
  | none => rfl
  | some r =>
    have hrank := h.2 r hfind
    cases hstate : r.state <;> rw [hstate] at hrank <;> exact absurd hrank (by decide)

theorem Past.since_of_none (h : Past ids n id) (hnone : n.registry.records.find? id = none) :
    Since rank ids n id :=
  ⟨h, fun r hr => by cases hnone.symm.trans hr⟩

/-- When a call to deprovision an instance ends well, the instance is gone for good. -/
theorem Legal.since_of_ended (h : Legal ids n (.run t) m) (hall : n.Thorough ids)
    {phase : DeprovisionPhase} {reason : Option ExitReason}
    (ht : n.work? t = some (.deprovision id timeout phase))
    (hm : m.work? t = some (.deprovision id timeout (.ended (.ok reason)))) :
    Since 4 (ids ++ (Move.run t).provision?.toList) m id := by
  obtain ⟨k, hstep, -, hregistry⟩ := stepDeprovision_of_run h.tidy ht h.move hm
  obtain ⟨hnone, hpast, -⟩ := hall.ended h.tidy ht hstep
  exact (h.past hpast).since_of_none (hregistry ▸ hnone)

/-! ### The calls of a drain -/

/-- A call deprovisions the instance for a drain, and what it relies on is so; or the drain was
    given up. -/
def Attends (ids : List InstanceId) (n : Node) (id : InstanceId) (t : Nat) : Prop :=
  Past ids n id ∧ (n.work? t = some .gone ∨ ∃ timeout phase rank,
    n.work? t = some (.deprovision id timeout phase) ∧ phase.reliesOn = some rank ∧
      Since rank ids n id)

/-- What the next step of the call relies on. -/
theorem Since.deprovisions (hlegal : Legal ids n (.run t) m) (hall : n.Thorough ids)
    {phase phase' : DeprovisionPhase} (hrank : phase.reliesOn = some rank)
    (hsince : Since rank ids n id) (ht : n.work? t = some (.deprovision id timeout phase))
    (hsteps : n.Deprovisions id timeout phase k phase')
    (hk : m = k.setWork t (.deprovision id timeout phase'))
    (hm : m.work? t = some (.deprovision id timeout phase')) :
    ∃ rank', phase'.reliesOn = some rank' ∧
      Since rank' (ids ++ (Move.run t).provision?.toList) m id := by
  have hpast := hlegal.past hsince.1
  have hgone : m.registry = n.registry → n.registry.records.find? id = none →
      Since 4 (ids ++ (Move.run t).provision?.toList) m id := fun hregistry hnone =>
    hpast.since_of_none (hregistry ▸ hnone)
  have hgoes := hsince.legal hlegal
  cases hsteps with
  -- the instance is gone
  | missing hnone | unknown hnone | lost hnone => exact ⟨4, rfl, hgone (hk ▸ rfl) hnone⟩
  | unheard | heard | pass | closeReaped | gone | withdraw =>
    exact ⟨4, rfl, hlegal.since_of_ended hall ht hm⟩
  -- it is still being provisioned
  | rest | wake | giveUp => exact ⟨0, rfl, hpast, fun _ _ => Nat.zero_le _⟩
  | settled hfind hstate =>
    refine ⟨1, rfl, (hlegal.tidy.since_of_find? hfind ?_).legal hlegal⟩
    rename_i r
    revert hstate
    cases r.state <;> decide
  | early hfind hstate =>
    -- it is not, for the call has let it settle
    cases hrank
    have hle := hsince.2 _ hfind
    rw [hstate] at hle
    exact absurd hle (by decide)
  -- the call goes on
  | _ =>
    cases hrank
    exact ⟨1, rfl, hgoes⟩

/-- A call of a drain attends to its instance until it has ended. -/
theorem Attends.legal (h : Attends ids n id t) (hlegal : Legal ids n a m)
    (hall : n.Thorough ids) : Attends (ids ++ a.provision?.toList) m id t := by
  obtain ⟨hpast, hwork⟩ := h
  refine ⟨hlegal.past hpast, ?_⟩
  cases hlegal.onTask t with
  | idle heq =>
    rw [heq]
    exact hwork.imp_right fun ⟨timeout, phase, rank, ht, hrank, hsince⟩ =>
      ⟨timeout, phase, rank, ht, hrank, hsince.legal hlegal⟩
  | begun hnone =>
    rcases hwork with ht | ⟨_, _, _, ht, -⟩ <;> cases hnone.symm.trans ht
  | dropped _ _ hgone => exact .inl hgone
  | @goes w w' k ha hw hadvance hk hm =>
    rcases hwork with ht | ⟨timeout, phase, rank, ht, hrank, hsince⟩
    · obtain rfl := Option.some.inj (ht.symm.trans hw)
      cases hadvance with
      | errand herrand | answer herrand => cases herrand
    · obtain rfl := Option.some.inj (ht.symm.trans hw)
      refine .inr ?_
      cases hadvance with
      | @errand _ _ _ e progress _ herrand _ heq | @answer _ _ _ _ e progress herrand _ heq =>
        -- the lease is being given back, and then the call goes on
        subst heq
        refine ⟨timeout, phase.resume progress, 1, hm, ?_, ?_⟩
        · cases phase with
          | giveBackReaped | giveBack => cases progress <;> rfl
          | _ => cases herrand
        · cases phase with
          | giveBackReaped | giveBack =>
            cases hrank
            exact hsince.legal hlegal
          | _ => cases herrand
      | deprovision hsteps =>
        obtain rfl := Option.some.inj ha
        obtain ⟨rank', hrank', hsince'⟩ :=
          hsince.deprovisions hlegal hall hrank ht hsteps hk hm
        exact ⟨timeout, _, rank', hm, hrank', hsince'⟩

/-- A drain begins a call for each of the instances, and gives it a number of its own. -/
theorem mem_spawnMembers (l : List InstanceId) : ∀ {n : Node}, n.tasks.IsNumbered →
    (n.spawnMembers l).2.map (·.1) = l ∧ ∀ e ∈ (n.spawnMembers l).2, n.work? e.2 = none ∧
      ∃ timeout limit,
        (n.spawnMembers l).1.work? e.2 = some (.deprovision e.1 timeout (.settle limit)) := by
  induction l with
  | nil => exact fun _ => ⟨rfl, nofun⟩
  | cons id rest ih =>
    intro n hnumbered
    let settle : Work :=
      .deprovision id n.config.shutdownTimeout (.settle (n.clock + n.settleLimit))
    have hk : (n.spawn settle true).2.tasks.IsNumbered := hnumbered.insert_size _
    obtain ⟨hids, hmembers⟩ := ih hk
    refine ⟨congrArg (id :: ·) hids, fun e he => ?_⟩
    rcases List.mem_cons.1 he with rfl | he
    · -- the call for the first is there after the others are begun
      have hfirst : (n.spawn settle true).2.work? n.tasks.size = some settle := by
        rw [work?, Node.spawn, Table.find?_insert_self]
        rfl
      refine ⟨congrArg (Option.map Task.work) hnumbered.find?_size, ?_⟩
      rcases (spawnMembers_cases rest hk).2 n.tasks.size with heq | ⟨hnone, -⟩
      · exact ⟨_, _, heq.trans hfirst⟩
      · cases hnone.symm.trans hfirst
    · obtain ⟨hnone, hsettle⟩ := hmembers e he
      refine ⟨?_, hsettle⟩
      have hspawn : (n.spawn settle true).2.work? e.2 = n.work? e.2 ∨
          n.work? e.2 = none ∧ (n.spawn settle true).2.work? e.2 = some settle :=
        work?_spawn_cases hnumbered e.2
      exact hspawn.elim (fun heq => heq.symm.trans hnone) (·.1)

/-- A drain lists the instances in a step. -/
def Step.Lists (d : Nat) (s : Step) : Prop :=
  s.move = .run d ∧ s.before.work? d = some (.drain .list)

/-- Those that are listed are the instances that there are. -/
theorem Tidy.instanceIds (hn : n.Tidy ids) : n.instanceIds.Nodup ∧
    ∀ id, id ∈ n.instanceIds ↔ (n.registry.records.find? id).isSome = true := by
  have hperm := Registry.Keyed.perm_list hn.keyed
  exact ⟨hperm.nodup_iff.2 (Table.nodup_keys _), fun id => hperm.mem_iff.trans (Table.mem_keys_iff _)⟩

/-- The instances that a drain has listed are attended to. -/
theorem Legal.attends_of_lists (h : Legal ids n (.run d) m)
    (ht : n.work? d = some (.drain .list)) {members : List (InstanceId × Nat)}
    (hm : m.work? d = some (.drain (.await members))) :
    members.map (·.1) = n.instanceIds ∧
      ∀ e ∈ members, Attends (ids ++ (Move.run d).provision?.toList) m e.1 e.2 := by
  obtain ⟨work, k, work', hold, hadvance, hk, hnew⟩ := h.advance rfl
  obtain rfl := Option.some.inj (ht.symm.trans hold)
  cases hadvance with
  | errand herrand => cases herrand
  | list =>
    cases hnew.symm.trans hm
    obtain ⟨hids, hmembers⟩ := mem_spawnMembers n.instanceIds h.tidy.numbered
    refine ⟨hids, fun e he => ?_⟩
    obtain ⟨hnew, timeout, limit, he'⟩ := hmembers e he
    have hne : e.2 ≠ d := fun heq => by cases (heq ▸ hnew).symm.trans ht
    have hlisted : e.1 ∈ n.instanceIds := hids ▸ List.mem_map_of_mem he
    obtain ⟨r, hfind⟩ := Option.isSome_iff_exists.1 ((h.tidy.instanceIds.2 e.1).1 hlisted)
    have hpast := h.past (h.tidy.past_of_find? hfind)
    refine ⟨hpast, .inr ⟨timeout, .settle limit, 0, ?_, rfl, hpast, fun _ _ => Nat.zero_le _⟩⟩
    rw [hk, work?_setWork_of_ne hne]
    exact he'

/-- While a drain waits, each instance that it has listed is attended to. -/
theorem Run.attends (h : Run made ids n) : ∀ {members : List (InstanceId × Nat)},
    n.work? d = some (.drain (.await members)) →
    (∃ s ∈ made, s.Lists d ∧ members.map (·.1) = s.before.instanceIds) ∧
      ∀ e ∈ members, Attends ids n e.1 e.2 := by
  induction h with
  | start hstart =>
    obtain rfl := start_eq_ok hstart
    exact fun hd => by cases hd
  | @move made ids n m a hrun hlegal ih =>
    intro members hd
    have hkeep : n.work? d = some (.drain (.await members)) →
        (∃ s ∈ made ++ [(⟨n, a, m⟩ : Step)], s.Lists d ∧
          members.map (·.1) = s.before.instanceIds) ∧
          ∀ e ∈ members, Attends (ids ++ a.provision?.toList) m e.1 e.2 := fun hold => by
      obtain ⟨⟨s, hs, hlists⟩, hattends⟩ := ih hold
      exact ⟨⟨s, List.mem_append_left _ hs, hlists⟩,
        fun e he => (hattends e he).legal hlegal hrun.thorough⟩
    rcases (hlegal.onTask d).of_drain hd with hold | hlist | ⟨phase, k, rfl, ht, hadvance, -⟩
    · exact hkeep hold
    · cases hlist
    · cases hadvance with
      | errand herrand => cases herrand
      | list =>
        -- from now on each instance that was listed has a call of its own
        obtain ⟨hids, hattends⟩ := hlegal.attends_of_lists ht hd
        exact ⟨⟨⟨n, .run d, m⟩, List.mem_append_right _ (List.mem_singleton_self _),
          ⟨rfl, ht⟩, hids⟩, hattends⟩

/-! ### The end of a drain -/

/-- Each of the calls that a drain waits for has an outcome. -/
theorem outcomes_of_mapM {members : List (InstanceId × Nat)}
    {outcomes : List (InstanceId × Except Error (Option ExitReason))}
    (h : (members.mapM fun e => (n.deprovisioned? e.2).map fun outcome => (e.1, outcome)) =
      some outcomes) :
    outcomes.map (·.1) = members.map (·.1) ∧
      ∀ o ∈ outcomes, ∃ t, (o.1, t) ∈ members ∧ n.deprovisioned? t = some o.2 := by
  induction members generalizing outcomes with
  | nil =>
    cases h
    exact ⟨rfl, nofun⟩
  | cons e rest ih =>
    rw [List.mapM_cons] at h
    obtain ⟨o, ho, h⟩ := Option.bind_eq_some_iff.1 h
    obtain ⟨os, hos, h⟩ := Option.bind_eq_some_iff.1 h
    obtain ⟨outcome, houtcome, rfl⟩ := Option.map_eq_some_iff.1 ho
    cases h
    obtain ⟨hids, hcalls⟩ := ih hos
    refine ⟨congrArg (e.1 :: ·) hids, fun o ho => ?_⟩
    rcases List.mem_cons.1 ho with rfl | ho
    · exact ⟨e.2, List.mem_cons_self, houtcome⟩
    · obtain ⟨t, ht, htask⟩ := hcalls o ho
      exact ⟨t, List.mem_cons_of_mem _ ht, htask⟩

theorem deprovisioned?_eq_some {outcome : Except Error (Option ExitReason)}
    (h : n.deprovisioned? t = some outcome) :
    ∃ id timeout, n.work? t = some (.deprovision id timeout (.ended outcome)) := by
  rw [deprovisioned?] at h
  split at h
  · rename_i id timeout outcome' hasCaller hfind
    cases h
    exact ⟨id, timeout, congrArg (Option.map Task.work) hfind⟩
  · cases h

/-- The last step of a drain puts the outcomes of its calls together. -/
theorem Legal.gathers (h : Legal ids n (.run d) m) {summary : DrainSummary}
    (hended : m.work? d = some (.drain (.ended summary))) : ∃ members outcomes,
      n.work? d = some (.drain (.await members)) ∧
      outcomes.map (·.1) = members.map (·.1) ∧
      (∀ o ∈ outcomes, ∃ t, (o.1, t) ∈ members ∧ n.deprovisioned? t = some o.2) ∧
      summary = .ofOutcomes outcomes ∧ m = n.setWork d (.drain (.ended summary)) := by
  obtain ⟨work, k, work', ht, hadvance, hk, hm⟩ := h.advance rfl
  obtain rfl := Option.some.inj (hm.symm.trans hended)
  cases hadvance with
  | errand herrand _ heq =>
    cases work <;> cases heq
    cases herrand
  | @gather _ members =>
    -- the drain goes on when each of its calls has an outcome
    obtain ⟨work, ht', ⟨_, _, _, herrand, -⟩ | ⟨_, k, work', -, hstep, hk'⟩⟩ :=
      run_eq_some h.move
    · cases ht.symm.trans ht'
      cases herrand
    · cases ht.symm.trans ht'
      obtain ⟨⟨_, phase⟩, hphase, heq⟩ := Option.map_eq_some_iff.1 hstep
      obtain ⟨outcomes, houtcomes, heq'⟩ := Option.map_eq_some_iff.1 hphase
      cases heq'
      cases heq
      rw [hk', work?_setWork_self ht] at hended
      cases hended
      obtain ⟨hids, hcalls⟩ := outcomes_of_mapM houtcomes
      exact ⟨members, outcomes, ht, hids, hcalls, rfl, hk'⟩

/-- When a drain that has listed the instances of `before` returns, it accounts for each. -/
structure Drained (before after : Node)
    (outcomes : List (InstanceId × Except Error (Option ExitReason)))
    (summary : DrainSummary) : Prop where
  /-- It has listed the instances that there were, each once. -/
  listed : before.instanceIds.Nodup ∧ ∀ id, id ∈ before.instanceIds ↔
    (before.registry.records.find? id).isSome = true
  /-- There is one outcome for each of them. -/
  each : outcomes.map (·.1) = before.instanceIds
  /-- It is that of a call that has deprovisioned the instance. -/
  calls : ∀ o ∈ outcomes, ∃ t timeout,
    after.work? t = some (.deprovision o.1 timeout (.ended o.2))
  /-- The summary is made up of these outcomes. -/
  gathered : summary = .ofOutcomes outcomes
  /-- An instance that was listed is among the failures once, or not at all and is gone. -/
  gone : ∀ id ∈ before.instanceIds, (summary.failures.map (·.1)).count id = 1 ∨
    (summary.failures.map (·.1)).count id = 0 ∧ after.registry.records.find? id = none
  /-- No other instance is among them. -/
  failed : ∀ f ∈ summary.failures, f.1 ∈ before.instanceIds
  /-- Every instance is drained or a failure. -/
  total : summary.drained + summary.failures.length = before.instanceIds.length
  /-- An instance that was stopped by request or by force was drained. -/
  stopped : summary.clean + summary.forced ≤ summary.drained
  /-- A call finds nothing or gives up waiting, and runs into no other error. -/
  errors : ∀ id e, (id, .error e) ∈ outcomes →
    (∃ i, e = .instanceNotFound i) ∨ ∃ why, e = .timeout why
  /-- What is reported as a failure is that the instance took too long to be provisioned. -/
  late : ∀ f ∈ summary.failures, ∃ why, (f.1, .error (.timeout why)) ∈ outcomes ∧
    f.2 = (Error.timeout why).message

/-- The outcome of a call of a drain, with what is left of the instance. -/
theorem Attends.ended (h : Attends ids n id t) {outcome : Except Error (Option ExitReason)}
    (ht : n.deprovisioned? t = some outcome) :
    (∃ timeout, n.work? t = some (.deprovision id timeout (.ended outcome))) ∧
      ((∃ why, outcome = .error (.timeout why)) ∨
        DrainSummary.complaint? outcome = none ∧ n.registry.records.find? id = none) := by
  obtain ⟨i, timeout, hwork⟩ := deprovisioned?_eq_some ht
  rcases h.2 with hgone | ⟨timeout', phase, rank, hwork', hrank, hsince⟩
  · cases hgone.symm.trans hwork
  · cases hwork.symm.trans hwork'
    refine ⟨⟨timeout, hwork⟩, ?_⟩
    cases outcome with
    | ok reason =>
      cases hrank
      exact .inr ⟨rfl, hsince.find?_eq_none⟩
    | error e =>
      cases e with
      | timeout why => exact .inl ⟨why, rfl⟩
      | instanceNotFound i =>
        cases hrank
        exact .inr ⟨rfl, hsince.find?_eq_none⟩
      | _ => cases hrank

/-- The summary of a drain accounts for the outcomes of its calls. -/
theorem drained_ofOutcomes {before after : Node}
    {outcomes : List (InstanceId × Except Error (Option ExitReason))}
    (hlisted : before.instanceIds.Nodup ∧ ∀ id, id ∈ before.instanceIds ↔
      (before.registry.records.find? id).isSome = true)
    (heach : outcomes.map (·.1) = before.instanceIds)
    (hcalls : ∀ o ∈ outcomes, ∃ t timeout,
      after.work? t = some (.deprovision o.1 timeout (.ended o.2)))
    (hends : ∀ o ∈ outcomes, (∃ why, o.2 = .error (.timeout why)) ∨
      DrainSummary.complaint? o.2 = none ∧ after.registry.records.find? o.1 = none) :
    Drained before after outcomes (.ofOutcomes outcomes) := by
  have hids : ∀ {o}, o ∈ outcomes → o.1 ∈ before.instanceIds := fun ho =>
    heach ▸ List.mem_map_of_mem ho
  have hnodup : ((DrainSummary.ofOutcomes outcomes).failures.map (·.1)).Nodup :=
    (heach ▸ hlisted.1).sublist (DrainSummary.failures_sublist outcomes)
  refine ⟨hlisted, heach, hcalls, rfl, fun id hid => ?_, fun f hf => ?_, ?_,
    DrainSummary.clean_add_forced_le outcomes, fun id e he => ?_, fun f hf => ?_⟩
  · rw [← heach] at hid
    obtain ⟨o, ho, rfl⟩ := List.mem_map.1 hid
    rcases hends o ho with ⟨why, hwhy⟩ | ⟨hnone, hgone⟩
    · -- the failure is reported
      refine .inl (List.count_eq_one_of_mem hnodup ?_)
      refine List.mem_map.2 ⟨(o.1, (Error.timeout why).message), ?_, rfl⟩
      exact DrainSummary.mem_failures.2 ⟨o.2, ho, by rw [hwhy]; rfl⟩
    · by_cases hmem : o.1 ∈ (DrainSummary.ofOutcomes outcomes).failures.map (·.1)
      · exact .inl (List.count_eq_one_of_mem hnodup hmem)
      · exact .inr ⟨List.count_eq_zero_of_not_mem hmem, hgone⟩
  · obtain ⟨outcome, hmem, -⟩ := DrainSummary.mem_failures.1 hf
    exact hids hmem
  · rw [DrainSummary.total_ofOutcomes, ← heach, List.length_map]
  · rcases hends _ he with ⟨why, hwhy⟩ | ⟨hnone, -⟩
    · exact .inr ⟨why, Except.error.inj hwhy⟩
    · cases e with
      | instanceNotFound i => exact .inl ⟨i, rfl⟩
      | _ => cases hnone
  · obtain ⟨outcome, hmem, hcomplaint⟩ := DrainSummary.mem_failures.1 hf
    rcases hends _ hmem with ⟨why, rfl⟩ | ⟨hnone, -⟩
    · exact ⟨why, hmem, (Option.some.inj hcomplaint).symm⟩
    · cases hnone.symm.trans hcomplaint

/-- Whatever happens to a node, when a drain returns, each of the instances that it has listed in
    some step before is gone or among its failures, once; the others are not. Those that are gone
    and the failures are as many as were listed, and no call of the drain has found an instance
    in a state that it cannot deal with. -/
theorem drained_of_play {config : NodeConfig} {ownerBase : Option Nat} {start : Node}
    {moves : List Move} {summary : DrainSummary}
    (hstart : Node.start config ownerBase = .ok start) (hids : (provisioned moves).Nodup)
    (hplay : start.play moves = some n) (hrun : n.run d = some m)
    (hended : m.work? d = some (.drain (.ended summary))) :
    ∃ s ∈ start.steps moves, s.Lists d ∧ ∃ outcomes, Drained s.before m outcomes summary := by
  have hmade := run_of_play hstart hids hplay
  have hlegal : Legal (provisioned moves) n (.run d) m := ⟨hmade.tidy, hmade.numbered, nofun, hrun⟩
  obtain ⟨members, outcomes, ht, heach, hcalls, rfl, rfl⟩ := hlegal.gathers hended
  obtain ⟨⟨s, hs, hlists, hmembers⟩, hattends⟩ := hmade.attends ht
  obtain ⟨_, _, -, hlisting⟩ := hmade.of_mem hs
  have hends : ∀ o ∈ outcomes, ∃ t, (∃ timeout,
      n.work? t = some (.deprovision o.1 timeout (.ended o.2))) ∧
      ((∃ why, o.2 = .error (.timeout why)) ∨
        DrainSummary.complaint? o.2 = none ∧ n.registry.records.find? o.1 = none) := fun o ho => by
    obtain ⟨t, hmember, htask⟩ := hcalls o ho
    exact ⟨t, (hattends _ hmember).ended htask⟩
  refine ⟨s, hs, hlists, outcomes, drained_ofOutcomes hlisting.tidy.instanceIds
    (heach.trans hmembers) (fun o ho => ?_) fun o ho => ?_⟩
  · obtain ⟨t, ⟨timeout, hwork⟩, -⟩ := hends o ho
    have hne : t ≠ d := fun heq => by cases (heq ▸ hwork).symm.trans ht
    exact ⟨t, timeout, (work?_setWork_of_ne hne _).trans hwork⟩
  · obtain ⟨t, -, hend⟩ := hends o ho
    exact hend

/-- A node is drained while an instance is launched, which takes so long that the drain gives it
    up. Then it runs after all. -/
def slowRaised : List Move :=
  raised.take 9 ++ [.begin .drain, .run 1, .run 2, .pass 34999, .run 2, .run 2, .pass 1, .run 2,
    .launched 0 (.ok ()), .run 0, .run 0]

/-- The instance is still there, and the only failure of the drain. -/
theorem drained_slowRaised : ∃ start n m summary, Node.start {} none = .ok start ∧
    start.play slowRaised = some n ∧ n.run 1 = some m ∧
    m.work? 1 = some (.drain (.ended summary)) ∧
    summary.failures = [("i-1", "Timed out: instance i-1 still provisioning after 35000ms")] ∧
    (m.registry.records.find? "i-1").isSome = true ∧
    ∃ s ∈ start.steps slowRaised, s.Lists 1 ∧ ∃ outcomes, Drained s.before m outcomes summary := by
  let n := (blank.play slowRaised).get (by decide +kernel)
  let m := (n.run 1).get (by decide +kernel)
  let summary : DrainSummary :=
    ⟨0, 0, 0, [("i-1", "Timed out: instance i-1 still provisioning after 35000ms")]⟩
  have hplay : blank.play slowRaised = some n := (Option.some_get _).symm
  have hrun : n.run 1 = some m := (Option.some_get _).symm
  have hids : (provisioned slowRaised).Nodup := by decide +kernel
  have hended : m.work? 1 = some (.drain (.ended summary)) := by decide +kernel
  have hdrained := drained_of_play start_blank hids hplay hrun hended
  exact ⟨blank, n, m, summary, start_blank, hplay, hrun, hended, rfl, by decide +kernel, hdrained⟩

end Node

end VmNode
