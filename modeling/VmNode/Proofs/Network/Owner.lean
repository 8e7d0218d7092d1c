import VmNode.Proofs.Network.Traffic

/-!
# Leases of the traffic

A slot that is held is in somebody's hands (`Traffic.InHands`): a call in progress sets it
up or gives it back, or it was leased and whoever has the lease did not give it back yet.
So once no call is in progress and all leases were given back, no slot is held
(`Traffic.Manned.slots_eq_empty`).
-/

namespace VmNode

/-- The hold that a call in progress has is one of the pool. -/
theorem Job.Fits.holds_le {p : Pool} {job : Job} (h : job.Fits p) : job.holds ≤ p.holds := by
  cases job with
  | lease id slot link phase =>
    exact Multiset.singleton_le.2 (Pool.mem_holds.2 ⟨_, h, rfl, rfl⟩)
  | release l link phase =>
    obtain ⟨g, hfind, hholder, -, hleaving⟩ := h
    exact Multiset.singleton_le.2 (Pool.mem_holds.2 ⟨g, hfind, hholder, hleaving⟩)
  | publish => exact Multiset.zero_le _

namespace Traffic

/-- Somebody has that hold: a call in progress, or whoever was granted the lease. -/
def InHands (t : Traffic) (x : Hold) : Prop :=
  (∃ n job, t.jobs.find? n = some job ∧ x ∈ job.holds) ∨ ∃ l ∈ t.granted, x ∈ l.holds

section InHands

variable {t : Traffic} {n : Nat} {progress : Progress} {x : Hold}

/-- A hold stays in somebody's hands if the call that takes a step keeps it or hands it
    over. -/
theorem InHands.setProgress (hopen : t.outcomes.find? n = none)
    (h : t.InHands x ∨ x ∈ progress.holds)
    (hkept : ∀ job, t.jobs.find? n = some job → x ∈ job.holds → x ∈ progress.holds) :
    (t.setProgress n progress).InHands x := by
  have hnew : x ∈ progress.holds → (t.setProgress n progress).InHands x := fun hx => by
    cases progress with
    | going job => exact .inl ⟨n, job, find?_jobs_setProgress_self .., hx⟩
    | done outcome =>
      cases outcome with
      | error => simp [Progress.holds] at hx
      | ok reply =>
        cases reply with
        | leased l =>
          exact .inr ⟨l, mem_granted.2 ⟨n, find?_outcomes_setProgress_self _ _ hopen⟩, hx⟩
        | released | published => simp [Progress.holds] at hx
  rcases h with (⟨m, job, hjob, hx⟩ | ⟨l, hl, hx⟩) | hx
  · by_cases hm : m = n
    · subst hm
      exact hnew (hkept job hjob hx)
    · exact .inl ⟨m, job, by rw [find?_jobs_setProgress_of_ne _ _ hm]; exact hjob, hx⟩
  · exact .inr ⟨l, mem_granted_setProgress hopen hl, hx⟩
  · exact hnew hx

end InHands

/-- Every slot that is held is in somebody's hands, and a lease that is given back is no
    longer held. -/
structure Manned (t : Traffic) : Prop where
  /-- Every hold of the pool is somebody's. -/
  inHands : ∀ x ∈ t.pool.holds, t.InHands x
  /-- A lease that was given back is held no more. -/
  returned : ∀ n l, t.calls.find? n = some (.release l) → ¬ l.holds ≤ t.pool.holds

namespace Manned

variable {t u : Traffic}

/-- At first no slot is held. -/
theorem start (c : NetworkConfig) (ownerBase : Option Nat) : (start c ownerBase).Manned where
  inHands := fun x hx => by simp [Traffic.start, Pool.holds, Pool.empty] at hx
  returned := fun n l h => by simp [Traffic.start] at h

/-- Every step leaves each hold with somebody: what the pool gets, the call gets, and what the call
    gives up, the pool loses. -/
theorem turn (ht : t.Manned) (hord : t.Orderly) (h : t.Turn u) : u.Manned := by
  cases h with
  | @begin call p progress hadmits hbegins =>
    -- a hold that is new is that of the call
    have hmem : ∀ x ∈ p.holds, x ∈ t.pool.holds ∨ x ∈ progress.holds := fun x hx => by
      by_cases hmine : call.holds ≤ t.pool.holds
      · rw [← Multiset.mem_add, ← hbegins.holds hmine]
        exact Multiset.mem_add.2 (.inl hx)
      · exact .inl ((hbegins.eq_of_not_le hmine).1 ▸ hx)
    constructor
    case inHands =>
      intro x hx
      rw [pool_setProgress] at hx
      -- the number of the call is new, so it had no job that could lose a hold
      refine InHands.setProgress (hord.sound.find?_outcomes_size)
        ((hmem x hx).imp_left (ht.inHands x)) fun job hjob => ?_
      have hnone : t.jobs.find? t.calls.size = none := hord.sound.find?_jobs_size
      rw [show t.jobs.find? t.calls.size = some job from hjob] at hnone
      cases hnone
    case returned =>
      intro n l hn hle
      rw [calls_setProgress] at hn
      rw [pool_setProgress] at hle
      by_cases hsize : n = t.calls.size
      · subst hsize
        rw [Table.find?_insert_self, Option.some.injEq] at hn
        subst hn
        exact hbegins.not_holds_le hle
      · rw [Table.find?_insert_of_ne _ _ hsize] at hn
        rcases hmem _ (Multiset.singleton_le.1 hle) with hold | hnew
        · exact ht.returned n l hn (Multiset.singleton_le.2 hold)
        · -- the instance was granted a lease, so it does not ask for one again
          have hcall := hbegins.eq_lease_of_mem_holds hnew rfl
          obtain ⟨l', hgranted, hholder⟩ := hord.sound.about n _ hn rfl
          obtain ⟨m, hm, -⟩ := hord.sound.exists_call_of_granted hgranted
          rw [hholder] at hm
          exact find?_calls_ne_lease (hcall ▸ hadmits) m hm
  | @settle n job p progress hjob hsettles =>
    have hmine := (hord.fits n job hjob).holds_le
    have hlaw := hsettles.holds hord.regular.within hmine
    constructor
    case inHands =>
      intro x hx
      rw [pool_setProgress] at hx
      have hsum : x ∈ t.pool.holds + progress.holds := hlaw ▸ Multiset.mem_add.2 (.inl hx)
      refine InHands.setProgress (hord.sound.pending n job hjob)
        ((Multiset.mem_add.1 hsum).imp_left (ht.inHands x)) fun job' hjob' hx' => ?_
      -- the pool has the hold once, so the call that leaves it there has it still
      obtain rfl : job = job' := Option.some.inj (hjob.symm.trans hjob')
      have hcount := congrArg (Multiset.count x) hlaw
      rw [Multiset.count_add, Multiset.count_add] at hcount
      have hone := Multiset.nodup_iff_count_le_one.1 (Pool.nodup_holds t.pool) x
      have hleft : 0 < p.holds.count x := Multiset.count_pos.2 hx
      have hmine' : 0 < job.holds.count x := Multiset.count_pos.2 hx'
      exact Multiset.count_pos.1 (by omega)
    case returned =>
      intro m l hm hle
      rw [calls_setProgress] at hm
      rw [pool_setProgress] at hle
      exact ht.returned m l hm (hle.trans (hsettles.holds_le hord.regular.within hmine))
  | @answer n job host result hjob hhost =>
    constructor
    case inHands =>
      intro x hx
      rw [pool_setProgress] at hx
      refine InHands.setProgress (hord.sound.pending n job hjob) (.inl (ht.inHands x hx))
        fun job' hjob' hx' => ?_
      obtain rfl : job = job' := Option.some.inj (hjob.symm.trans hjob')
      rwa [Job.holds_answer]
    case returned =>
      intro m l hm
      rw [calls_setProgress] at hm
      rw [pool_setProgress]
      exact ht.returned m l hm

/-- When no call is in progress, no slot is being given back. -/
theorem releasing_eq_false (ht : t.Manned) (hidle : ∀ n, t.jobs.find? n = none) {s : Nat}
    {g : Holding} (hfind : t.pool.slots.find? s = some g) : g.releasing = false := by
  rcases ht.inHands ⟨s, g.holder, g.releasing⟩ (Pool.mem_holds.2 ⟨g, hfind, rfl, rfl⟩) with
    ⟨n, job, hjob, -⟩ | ⟨l, -, hx⟩
  · rw [hidle n] at hjob
    cases hjob
  · have := Multiset.mem_singleton.1 hx
    simp_all

/-- When no call is in progress and all leases were given back, no slot is held. -/
theorem find?_slots_eq_none (ht : t.Manned) (hidle : ∀ n, t.jobs.find? n = none)
    (hreturned : ∀ l ∈ t.granted, ∃ n, t.calls.find? n = some (.release l)) (s : Nat) :
    t.pool.slots.find? s = none := Option.eq_none_iff_forall_ne_some.2 fun g hfind => by
  have hx : ⟨s, g.holder, g.releasing⟩ ∈ t.pool.holds := Pool.mem_holds.2 ⟨g, hfind, rfl, rfl⟩
  rcases ht.inHands _ hx with ⟨n, job, hjob, -⟩ | ⟨l, hl, hmine⟩
  · rw [hidle n] at hjob
    cases hjob
  · obtain ⟨n, hn⟩ := hreturned l hl
    rw [Multiset.mem_singleton.1 hmine] at hx
    exact ht.returned n l hn (Multiset.singleton_le.2 hx)

end Manned

/-- So it is in every run. -/
theorem Reachable.manned {c : NetworkConfig} {ownerBase : Option Nat} {t : Traffic}
    (h : Reachable c ownerBase t) : t.Manned := by
  induction h with
  | start => exact .start c ownerBase
  | step h hstep ih => exact ih.turn h.orderly (turn_of_step hstep)

end Traffic

end VmNode
