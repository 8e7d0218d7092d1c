import VmNode.Proofs.Node.Move

/-!
# Leases are given back once

Moves take steps of errands (`Node.errandSteps`). Those that begin a call to give a lease
back are the releases of a run (`Node.releases`), and what such calls end with are their
outcomes (`Node.releaseOutcomes`).

An instance whose lease was asked back is spent (`Node.Spent`): every hold that it still has
is on its way out, and it does not get another one. So no lease is given back twice
(`Node.nodup_releases`), and whoever gives one back has it, and is not refused
(`Node.releaseOutcomes_eq`).
-/

namespace VmNode.Node

/-- The errand that goes on with a move, and what becomes of it. -/
def errandStep? (n : Node) : Move → Option (Errand × Errand.Progress)
  | .run t => ((n.work? t).bind Work.errand?).bind fun e =>
    (n.stepErrand e).map fun step => (e, step.2)
  | .host t result => ((n.work? t).bind Work.errand?).bind fun e =>
    (e.answer n.config.network result).map fun progress => (e, progress)
  | _ => none

/-- The errands that go on with moves one after the other. -/
def errandSteps (n : Node) : List Move → List (Errand × Errand.Progress)
  | [] => []
  | a :: rest => (n.errandStep? a).toList ++ (n.move a).elim [] fun m => m.errandSteps rest

/-- The lease that a call is asked to give back, when it begins with a step of an errand. -/
def released? : Errand × Errand.Progress → Option Lease
  | (.toBegin (.release l), _) => some l
  | _ => none

/-- What a call to give a lease back has ended with, when it ends with a step of an errand. -/
def releaseOutcome? : Errand × Errand.Progress → Option (Except Error Reply)
  | (e, .done outcome) =>
    match e.call with
    | .release _ => some outcome
    | _ => none
  | _ => none

theorem eq_of_released? {e : Errand} {progress : Errand.Progress} {l : Lease}
    (h : released? (e, progress) = some l) : e = .toBegin (.release l) := by
  cases e with
  | going => cases h
  | toBegin call => cases call <;> cases h; rfl

/-- The leases that the allocator is asked to take back, one after the other. -/
def releases (n : Node) (moves : List Move) : List Lease :=
  (n.errandSteps moves).filterMap released?

/-- What the allocator answers to those who give leases back. -/
def releaseOutcomes (n : Node) (moves : List Move) : List (Except Error Reply) :=
  (n.errandSteps moves).filterMap releaseOutcome?

variable {ids ids' : List InstanceId} {n m : Node} {moves : List Move} {a : Move}

/-! ### Instances that are spent -/

/-- These instances were provisioned, and their leases were asked back. -/
def Spent (done ids : List InstanceId) (n : Node) : Prop :=
  ∀ id ∈ done, Asked id ids n ∧ ∀ x ∈ n.pool.holds, x.holder = id → x.isLeaving = true

/-- An instance that is spent remains so. -/
theorem Spent.change {done : List InstanceId} (hn : n.Tidy ids) (h : Spent done ids n)
    (hchange : Change ids n ids' m) : Spent done ids' m := by
  intro id hid
  obtain ⟨hasked, hleaving⟩ := h id hid
  refine ⟨hasked.change hchange, fun x hx hholder => ?_⟩
  rcases hchange.of_mem_holds hn hx with ⟨y, hy, hsame, hstill⟩ | hr
  · exact hstill (hleaving y hy (hsame.trans hholder))
  · exact absurd (hholder ▸ hr) hasked.2

theorem Spent.changes {done : List InstanceId} (hn : n.Tidy ids) (h : Spent done ids n)
    (hchanges : Changes ids n ids' m) : Spent done ids' m :=
  (hchanges.induct (P := Spent done) (fun hn h hchange => h.change hn hchange) hn h).2

/-! ### Steps -/

/-- A step of an errand in a run is one of `Errand.Steps`, or an answer of the host. -/
theorem errandStep?_eq_some {e : Errand} {progress : Errand.Progress}
    (h : n.errandStep? a = some (e, progress)) :
    ∃ t work, n.work? t = some work ∧ work.errand? = some e ∧
      ((∃ p, e.Steps n.config.network n.ownerBase n.pool p progress ∧
        n.move a = some ({ n with pool := p }.setWork t (work.resume progress))) ∨
      ∃ result, e.answer n.config.network result = some progress) := by
  cases a with
  | run t =>
    obtain ⟨e', herrand, hstep⟩ := Option.bind_eq_some_iff.1 h
    obtain ⟨work, ht, herrand⟩ := Option.bind_eq_some_iff.1 herrand
    obtain ⟨⟨k, progress'⟩, herrandStep, heq⟩ := Option.map_eq_some_iff.1 hstep
    cases heq
    obtain ⟨p, rfl, hsteps⟩ := stepErrand_eq_some herrandStep
    refine ⟨t, work, ht, herrand, .inl ⟨p, hsteps, ?_⟩⟩
    obtain ⟨task, hfind, rfl⟩ := Option.map_eq_some_iff.1 ht
    simp only [move, run, hfind, herrand, herrandStep, Option.map_some]
  | host t result =>
    obtain ⟨e', herrand, hstep⟩ := Option.bind_eq_some_iff.1 h
    obtain ⟨work, ht, herrand⟩ := Option.bind_eq_some_iff.1 herrand
    obtain ⟨progress', hstep, heq⟩ := Option.map_eq_some_iff.1 hstep
    cases heq
    exact ⟨t, work, ht, herrand, .inr ⟨result, hstep⟩⟩
  | begin | launched | leave | process | print | pass => cases h

/-- Whoever is asked to take a lease back finds the hold of the lease, and afterwards the
    instance has none but on their way out. -/
theorem spent_of_release {l : Lease} {progress : Errand.Progress} (hn : n.Tidy ids)
    (hmove : n.move a = some m) (h : n.errandStep? a = some (.toBegin (.release l), progress)) :
    ⟨l.slot, l.holder, false⟩ ∈ n.pool.holds ∧
      ∀ x ∈ m.pool.holds, x.holder = l.holder → x.isLeaving = true := by
  obtain ⟨t, work, ht, herrand, ⟨p, hsteps, hmove'⟩ | ⟨result, hanswer⟩⟩ := errandStep?_eq_some h
  · have hmine : l.holds ≤ n.pool.holds := hn.errand_holds_le ht herrand
    have hhold : (⟨l.slot, l.holder, false⟩ : Hold) ∈ n.pool.holds := Multiset.singleton_le.1 hmine
    obtain rfl := Option.some.inj (hmove.symm.trans hmove')
    refine ⟨hhold, fun x hx hholder => ?_⟩
    cases hsteps with
    | begin hbegins =>
      by_contra hstays
      have hfree : x.isLeaving = false := by simpa using hstays
      have hx : x ∈ p.holds := hx
      have hmem : x ∈ p.holds + (Call.release l).holds := Multiset.mem_add.2 (.inl hx)
      rw [hbegins.holds hmine, Multiset.mem_add] at hmem
      rcases hmem with hold | hnew
      · -- it would be the hold of the lease
        obtain rfl := hn.single x hold _ hhold hholder
        exact hbegins.not_holds_le (Multiset.singleton_le.2 hx)
      · cases hbegins.eq_lease_of_mem_holds hnew hfree
  · cases hanswer

/-- Who gives a lease back is not refused. -/
theorem outcome_of_release {e : Errand} {l : Lease} {outcome : Except Error Reply} (hn : n.Tidy ids)
    (hcall : e.call = .release l) (h : n.errandStep? a = some (e, .done outcome)) :
    outcome = .ok .released := by
  obtain ⟨t, work, ht, herrand, ⟨p, hsteps, -⟩ | ⟨result, hanswer⟩⟩ := errandStep?_eq_some h
  · exact hsteps.released (hn.errand_holds_le ht herrand) hcall rfl
  · exact absurd hanswer (Errand.not_done_of_answer hcall)

/-! ### Runs -/

theorem releases_cons (hmove : n.move a = some m) :
    n.releases (a :: moves) = ((n.errandStep? a).bind released?).toList ++ m.releases moves := by
  rw [releases, errandSteps, hmove, List.filterMap_append]
  cases n.errandStep? a with
  | none => rfl
  | some step => cases h : released? step <;> simp [releases, h]

/-- No instance gives a lease back that is among those which did. -/
theorem nodup_releases : ∀ {done ids : List InstanceId} {n : Node}, n.Tidy ids → Spent done ids n →
    done.Nodup → (ids ++ provisioned moves).Nodup → n.play moves = some m →
      (done ++ (n.releases moves).map Lease.holder).Nodup := by
  -- `done` are the instances that have asked for their leases to be taken back
  induction moves with
  | nil =>
    intro done ids n _ _ hdone _ _
    simpa [releases, errandSteps] using hdone
  | cons a rest ih =>
    intro done ids n hn hspent hdone hnodup hplay
    obtain ⟨k, hmove, hrest⟩ := Option.bind_eq_some_iff.1 hplay
    have hnew := notMem_of_nodup hnodup
    rw [append_provisioned_cons] at hnodup
    have hchanges := Changes.of_move hn hnew hmove
    have hk := hn.changes hchanges
    have hspent' := hspent.changes hn hchanges
    rw [releases_cons hmove, List.map_append]
    cases hstep : n.errandStep? a with
    | none => exact ih hk hspent' hdone hnodup hrest
    | some step =>
      cases hreleased : released? step with
      | none =>
        rw [Option.bind_some, hreleased]
        exact ih hk hspent' hdone hnodup hrest
      | some l =>
        obtain ⟨e, progress⟩ := step
        obtain rfl := eq_of_released? hreleased
        obtain ⟨hhold, hleaving⟩ := spent_of_release hn hmove hstep
        -- the lease is not among those that were given back, for those are on their way out
        have hfresh : l.holder ∉ done := fun hmem => by
          have := (hspent _ hmem).2 _ hhold rfl
          cases this
        have hasked : Asked l.holder (ids ++ a.provision?.toList) k :=
          (hchanges.induct (P := Asked l.holder) (fun _ h hchange => h.change hchange) hn
            (hn.asked_of_mem_holds hhold)).2
        have hspent'' : Spent (done ++ [l.holder]) (ids ++ a.provision?.toList) k := by
          intro id hid
          rcases List.mem_append.1 hid with hid | hid
          · exact hspent' id hid
          · obtain rfl := List.mem_singleton.1 hid
            exact ⟨hasked, hleaving⟩
        have hdone' : (done ++ [l.holder]).Nodup := List.nodup_append.2 ⟨hdone, by simp,
          fun i hi j hj heq => hfresh (List.mem_singleton.1 hj ▸ heq ▸ hi)⟩
        rw [Option.bind_some, hreleased, ← List.append_assoc]
        exact ih hk hspent'' hdone' hnodup hrest

/-- Every call to give a lease back ends well. -/
theorem releaseOutcomes_eq : ∀ {ids : List InstanceId} {n : Node}, n.Tidy ids →
    (ids ++ provisioned moves).Nodup → n.play moves = some m →
      ∀ outcome ∈ n.releaseOutcomes moves, outcome = .ok .released := by
  induction moves with
  | nil =>
    intro ids n _ _ _ outcome hmem
    cases hmem
  | cons a rest ih =>
    intro ids n hn hnodup hplay outcome hmem
    obtain ⟨k, hmove, hrest⟩ := Option.bind_eq_some_iff.1 hplay
    have hk := hn.changes (Changes.of_move hn (notMem_of_nodup hnodup) hmove)
    rw [append_provisioned_cons] at hnodup
    obtain ⟨⟨e, progress⟩, hstep, houtcome⟩ := List.mem_filterMap.1 hmem
    rw [errandSteps, hmove, List.mem_append, Option.mem_toList] at hstep
    rcases hstep with hstep | hstep
    · cases progress with
      | going => cases houtcome
      | done outcome' =>
        cases hcall : e.call with
        | release l =>
          simp only [releaseOutcome?, hcall, Option.some.injEq] at houtcome
          exact houtcome ▸ outcome_of_release hn hcall hstep
        | lease | publish =>
          simp only [releaseOutcome?, hcall] at houtcome
          cases houtcome
    · exact ih hk hnodup hrest outcome (List.mem_filterMap.2 ⟨_, hstep, houtcome⟩)

end VmNode.Node
