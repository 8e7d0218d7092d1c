import VmNode.Network.Traffic
import VmNode.Proofs.Network.Apart

/-!
# Calls side by side

What holds of an allocator at any moment, whatever calls are in progress and however
their steps fall between each other.

* `Traffic.Turn`: everything that an event can do.
* `Traffic.Sound`: the calls are numbered, an instance has one lease, and the other calls
  are about leases that were granted.
* `Traffic.Orderly`: the pool is in order, each call in progress finds in it what it
  relies on, and no two calls rely on the same thing.

Both hold of the traffic that events can lead to (`Traffic.Reachable.orderly`).
-/

namespace VmNode

/-- The job with which a call goes on. -/
def Progress.job? : Progress → Option Job
  | .going job => some job
  | .done _ => none

/-- What a call has ended with. -/
def Progress.outcome? : Progress → Option (Except Error Reply)
  | .going _ => none
  | .done outcome => some outcome

/-- A call has a job as long as it goes on. -/
theorem Progress.job?_eq_some {progress : Progress} {job : Job} :
    progress.job? = some job ↔ progress = .going job := by
  cases progress <;> simp [job?]

/-- It has an outcome once it is over. -/
theorem Progress.outcome?_eq_some {progress : Progress} {outcome : Except Error Reply} :
    progress.outcome? = some outcome ↔ progress = .done outcome := by
  cases progress <;> simp [outcome?]

namespace Traffic

/-! ### What an event does -/

section Progress

variable (t : Traffic) (n : Nat) (progress : Progress)

@[simp] theorem config_setProgress : (t.setProgress n progress).config = t.config := by
  cases progress <;> rfl

@[simp] theorem ownerBase_setProgress :
    (t.setProgress n progress).ownerBase = t.ownerBase := by
  cases progress <;> rfl

@[simp] theorem pool_setProgress : (t.setProgress n progress).pool = t.pool := by
  cases progress <;> rfl

@[simp] theorem calls_setProgress : (t.setProgress n progress).calls = t.calls := by
  cases progress <;> rfl

@[simp] theorem log_setProgress : (t.setProgress n progress).log = t.log := by
  cases progress <;> rfl

/-- The call that takes a step goes on with its job, or has none. -/
theorem find?_jobs_setProgress_self : (t.setProgress n progress).jobs.find? n = progress.job? := by
  cases progress <;> simp [setProgress, Progress.job?]

variable {n} {m : Nat}

/-- The jobs of the others are as they were. -/
theorem find?_jobs_setProgress_of_ne (h : m ≠ n) :
    (t.setProgress n progress).jobs.find? m = t.jobs.find? m := by
  cases progress with
  | going job => exact Table.find?_insert_of_ne _ _ h
  | done outcome => exact Table.find?_erase_of_ne _ h

/-- So are their outcomes. -/
theorem find?_outcomes_setProgress_of_ne (h : m ≠ n) :
    (t.setProgress n progress).outcomes.find? m = t.outcomes.find? m := by
  cases progress with
  | going job => rfl
  | done outcome => exact Table.find?_insert_of_ne _ _ h

/-- A call that has no outcome yet gets one when it ends. -/
theorem find?_outcomes_setProgress_self (h : t.outcomes.find? n = none) :
    (t.setProgress n progress).outcomes.find? n = progress.outcome? := by
  cases progress with
  | going job => exact h
  | done outcome => exact Table.find?_insert_self ..

variable {t progress}

/-- A call in progress is the one that took the step, or was in progress before. -/
theorem find?_jobs_setProgress_eq_some {job : Job}
    (h : (t.setProgress n progress).jobs.find? m = some job) :
    m = n ∧ progress = .going job ∨ m ≠ n ∧ t.jobs.find? m = some job := by
  by_cases hm : m = n
  · subst hm
    rw [find?_jobs_setProgress_self, Progress.job?_eq_some] at h
    exact .inl ⟨rfl, h⟩
  · rw [find?_jobs_setProgress_of_ne _ _ hm] at h
    exact .inr ⟨hm, h⟩

/-- An outcome is that of the call that took the step, or was there before. -/
theorem find?_outcomes_setProgress_eq_some {outcome : Except Error Reply}
    (h : (t.setProgress n progress).outcomes.find? m = some outcome)
    (hopen : t.outcomes.find? n = none) :
    m = n ∧ progress = .done outcome ∨ t.outcomes.find? m = some outcome := by
  by_cases hm : m = n
  · subst hm
    rw [find?_outcomes_setProgress_self _ _ hopen, Progress.outcome?_eq_some] at h
    exact .inl ⟨rfl, h⟩
  · rw [find?_outcomes_setProgress_of_ne _ _ hm] at h
    exact .inr h

/-- What any two calls in progress are to each other they are after a step of one of them,
    if it is so to the others. -/
theorem pairwise_jobs_setProgress {R : Job → Job → Prop} (hsymm : ∀ a b, R a b → R b a)
    (hnew : ∀ job, progress = .going job → ∀ m j, m ≠ n → t.jobs.find? m = some j → R job j)
    (hold : ∀ m k a b, m ≠ k → t.jobs.find? m = some a → t.jobs.find? k = some b → R a b) :
    ∀ m k a b, m ≠ k → (t.setProgress n progress).jobs.find? m = some a →
      (t.setProgress n progress).jobs.find? k = some b → R a b := fun m k a b hne ha hb => by
  rcases find?_jobs_setProgress_eq_some ha with ⟨rfl, hprog⟩ | ⟨hm, ha'⟩ <;>
    rcases find?_jobs_setProgress_eq_some hb with ⟨rfl, hprog'⟩ | ⟨hk, hb'⟩
  · -- both are the call that took the step, one of them is, or neither
    exact absurd rfl hne
  · exact hnew a hprog k b hk hb'
  · exact hsymm b a (hnew b hprog' m a hm ha')
  · exact hold m k a b hne ha' hb'

end Progress

/-- An event makes this of the traffic. -/
inductive Turn (t : Traffic) : Traffic → Prop
  /-- A call begins. -/
  | begin {call : Call} {p : Pool} {progress : Progress} :
      t.admits call → call.Begins t.config t.ownerBase t.pool p progress →
      Turn t ({ t with pool := p, calls := t.calls.insert t.calls.size call }.setProgress
        t.calls.size progress)
  /-- A call takes a step on the pool. -/
  | settle {n : Nat} {job : Job} {p : Pool} {progress : Progress} :
      t.jobs.find? n = some job → job.Settles t.pool p progress →
      Turn t ({ t with pool := p }.setProgress n progress)
  /-- The host makes a step for a call. -/
  | answer {n : Nat} {job : Job} {host : HostCall} {result : Except Error Unit} :
      t.jobs.find? n = some job → job.hostCall? = some host →
      Turn t ({ t with log := (host, result) :: t.log }.setProgress n
        (job.answer t.config result))

/-- What events make of the traffic, one after the other. -/
def play (t : Traffic) : List Event → Option Traffic
  | [] => some t
  | e :: rest => (t.step e).bind fun u => u.play rest

/-- What events make of a traffic that can arise can arise. -/
theorem Reachable.play {c : NetworkConfig} {ownerBase : Option Nat} {t u : Traffic}
    {events : List Event} (h : Reachable c ownerBase t) (hplay : t.play events = some u) :
    Reachable c ownerBase u := by
  induction events generalizing t with
  | nil => exact Option.some.inj hplay ▸ h
  | cons e rest ih =>
    obtain ⟨v, hstep, hrest⟩ := Option.bind_eq_some_iff.1 hplay
    exact ih (h.step hstep) hrest

/-- The cases are all. -/
theorem turn_of_step {t u : Traffic} {e : Event} (h : t.step e = some u) : t.Turn u := by
  cases e with
  | begin call =>
    rw [step] at h
    split at h
    · rename_i hadmits
      cases h
      exact .begin hadmits (call.begins ..)
    · cases h
  | settle n =>
    rw [step] at h
    split at h
    · cases h
    · rename_i job hjob
      split at h
      · cases h
      · rename_i hhost
        cases h
        exact .settle hjob (job.settles t.pool hhost)
  | answer n result =>
    rw [step] at h
    split at h
    · cases h
    · rename_i job hjob
      split at h
      · cases h
      · rename_i host hhost
        cases h
        exact .answer hjob hhost

/-- The configuration stays what it is. -/
theorem Turn.config {t u : Traffic} (h : t.Turn u) :
    u.config = t.config ∧ u.ownerBase = t.ownerBase := by
  cases h <;> simp

/-- So it is the one that the allocator was started with. -/
theorem Reachable.config {c : NetworkConfig} {ownerBase : Option Nat} {t : Traffic}
    (h : Reachable c ownerBase t) : t.config = c ∧ t.ownerBase = ownerBase := by
  induction h with
  | start => exact ⟨rfl, rfl⟩
  | step _ hstep ih =>
    obtain ⟨hconfig, howner⟩ := (turn_of_step hstep).config
    exact ⟨hconfig.trans ih.1, howner.trans ih.2⟩

/-! ### Calls and what they are about -/

/-- A lease was granted if a call has ended with it. -/
theorem mem_granted {t : Traffic} {l : Lease} :
    l ∈ t.granted ↔ ∃ n, t.outcomes.find? n = some (.ok (.leased l)) := by
  rw [granted, List.mem_filterMap]
  constructor
  · rintro ⟨outcome, hmem, hl⟩
    obtain ⟨⟨n, _⟩, he, rfl⟩ := List.mem_map.1 hmem
    refine ⟨n, (Table.mem_entries_iff _).1 ?_⟩
    split at hl
    · cases hl
      rename_i heq
      rwa [← heq]
    · cases hl
  · rintro ⟨n, h⟩
    exact ⟨_, List.mem_map.2 ⟨_, (Table.mem_entries_iff _).2 h, rfl⟩, rfl⟩

/-- A lease that was granted stays on the list: the call that takes a step has not ended before. -/
theorem mem_granted_setProgress {t : Traffic} {n : Nat} {progress : Progress} {l : Lease}
    (hopen : t.outcomes.find? n = none) (hl : l ∈ t.granted) :
    l ∈ (t.setProgress n progress).granted := by
  obtain ⟨m, hm⟩ := mem_granted.1 hl
  have hne : m ≠ n := fun h => by rw [h, hopen] at hm; cases hm
  exact mem_granted.2 ⟨m, by rw [find?_outcomes_setProgress_of_ne _ _ hne]; exact hm⟩

/-- An instance that asks for a lease has not asked before. -/
theorem find?_calls_ne_lease {t : Traffic} {id : InstanceId} (h : t.admits (.lease id)) (n : Nat) :
    t.calls.find? n ≠ some (.lease id) := fun hn => by
  have hmem : Call.lease id ∈ t.calls.values :=
    List.mem_map.2 ⟨_, (Table.mem_entries_iff _).2 hn, rfl⟩
  simp [admits, hmem] at h

/-- All other calls are for an instance that was granted a lease. -/
theorem exists_granted_of_admits {t : Traffic} {call : Call} (h : t.admits call)
    (hlease : call.isLease = false) : ∃ l ∈ t.granted, l.holder = call.holder := by
  cases call with
  | lease => cases hlease
  | release l => exact ⟨l, by simpa [admits] using h, rfl⟩
  | publish id n m => exact ⟨_, by simpa [admits] using h, rfl⟩

/-- The books of an allocator are in order. -/
structure Sound (t : Traffic) : Prop where
  /-- The calls are numbered. -/
  numbered : t.calls.IsNumbered
  /-- A job is part of the call of its number. -/
  current : ∀ n job, t.jobs.find? n = some job → t.calls.find? n = some job.call
  /-- Only a call has an outcome. -/
  called : ∀ n outcome, t.outcomes.find? n = some outcome → (t.calls.find? n).isSome
  /-- A call in progress has no outcome. -/
  pending : ∀ n job, t.jobs.find? n = some job → t.outcomes.find? n = none
  /-- An instance has one lease. -/
  once : ∀ m n id, t.calls.find? m = some (.lease id) → t.calls.find? n = some (.lease id) →
    m = n
  /-- A lease is granted to the instance that asked for it. -/
  lent : ∀ n l, t.outcomes.find? n = some (.ok (.leased l)) →
    t.calls.find? n = some (.lease l.holder)
  /-- All other calls are for an instance that was granted a lease. -/
  about : ∀ n call, t.calls.find? n = some call → call.isLease = false →
    ∃ l ∈ t.granted, l.holder = call.holder

namespace Sound

variable {t u : Traffic} {call : Call}

/-- At first there are no calls. -/
theorem start (c : NetworkConfig) (ownerBase : Option Nat) : (start c ownerBase).Sound where
  numbered := Table.isNumbered_empty
  current := fun n job h => by simp [Traffic.start] at h
  called := fun n outcome h => by simp [Traffic.start] at h
  pending := fun n job h => by simp [Traffic.start] at h
  once := fun m n id h => by simp [Traffic.start] at h
  lent := fun n l h => by simp [Traffic.start] at h
  about := fun n call h => by simp [Traffic.start] at h

/-- The books do not show the pool and the host. -/
theorem congr (ht : t.Sound) (pool : Pool) (log : List (HostCall × Except Error Unit)) :
    Sound { t with pool, log } :=
  ⟨ht.numbered, ht.current, ht.called, ht.pending, ht.once, ht.lent, ht.about⟩

/-- The number of the next call is new. -/
theorem find?_outcomes_size (ht : t.Sound) : t.outcomes.find? t.calls.size = none :=
  Option.eq_none_iff_forall_ne_some.2 fun outcome hout => by
    have := ht.called _ _ hout
    rw [ht.numbered.find?_size] at this
    cases this

/-- So no call in progress has it. -/
theorem find?_jobs_size (ht : t.Sound) : t.jobs.find? t.calls.size = none :=
  Option.eq_none_iff_forall_ne_some.2 fun job hjob => by
    have := ht.current _ _ hjob
    rw [ht.numbered.find?_size] at this
    cases this

/-- An instance that was granted a lease has asked for it, in a call that is over. -/
theorem exists_call_of_granted (ht : t.Sound) {l : Lease} (hl : l ∈ t.granted) :
    ∃ n, t.calls.find? n = some (.lease l.holder) ∧ t.jobs.find? n = none := by
  obtain ⟨n, hn⟩ := mem_granted.1 hl
  refine ⟨n, ht.lent n l hn, Option.eq_none_iff_forall_ne_some.2 fun job hjob => ?_⟩
  rw [ht.pending n job hjob] at hn
  cases hn

/-- A call that callers make is beside every call in progress. -/
theorem beside (ht : t.Sound) (hadmits : t.admits call) {n : Nat} {job : Job}
    (hjob : t.jobs.find? n = some job) : job.call.Beside call := by
  have hcall := ht.current n job hjob
  rintro hlease hholder
  cases hnew : call.isLease with
  | true =>
    -- an instance that asks for a lease has made no call before
    obtain ⟨id, rfl⟩ : ∃ id, call = .lease id := by cases call <;> simp_all [Call.isLease]
    cases hold : job.call.isLease with
    | true =>
      obtain ⟨id', hid'⟩ : ∃ id', job.call = .lease id' := by
        cases hc : job.call <;> simp_all [Call.isLease]
      rw [hid'] at hcall hholder
      obtain rfl : id' = id := hholder
      exact find?_calls_ne_lease hadmits n hcall
    | false =>
      obtain ⟨l, hl, hl'⟩ := ht.about n _ hcall hold
      obtain ⟨m, hm, -⟩ := ht.exists_call_of_granted hl
      rw [hl', hholder] at hm
      exact find?_calls_ne_lease hadmits m hm
  | false =>
    -- the lease of the instance is granted, so it is not in the making
    obtain ⟨id, hid⟩ : ∃ id, job.call = .lease id := by
      cases hc : job.call <;> simp_all [Call.isLease]
    obtain ⟨l, hl, hl'⟩ := exists_granted_of_admits hadmits hnew
    obtain ⟨m, hm, hover⟩ := ht.exists_call_of_granted hl
    rw [hid] at hcall hholder
    rw [hl', ← hholder] at hm
    rw [ht.once m n id hm hcall, hjob] at hover
    cases hover

/-- What has become of a call is written down. -/
theorem setProgress (ht : t.Sound) {n : Nat} {progress : Progress}
    (hcall : t.calls.find? n = some call) (hopen : t.outcomes.find? n = none)
    (hof : progress.Of call) : (t.setProgress n progress).Sound := by
  constructor
  case numbered => simpa using ht.numbered
  case once => simpa using ht.once
  case current =>
    -- a job that is new is that of the call
    intro m job h
    rw [calls_setProgress]
    rcases find?_jobs_setProgress_eq_some h with ⟨rfl, rfl⟩ | ⟨-, hold⟩
    · rw [hcall, show job.call = call from hof]
    · exact ht.current m job hold
  case called =>
    intro m outcome h
    rw [calls_setProgress]
    rcases find?_outcomes_setProgress_eq_some h hopen with ⟨rfl, -⟩ | hold
    · simp [hcall]
    · exact ht.called m outcome hold
  case pending =>
    intro m job h
    rcases find?_jobs_setProgress_eq_some h with ⟨rfl, hprog⟩ | ⟨hne, hold⟩
    · rw [find?_outcomes_setProgress_self _ _ hopen, hprog]
      rfl
    · rw [find?_outcomes_setProgress_of_ne _ _ hne]
      exact ht.pending m job hold
  case lent =>
    -- a lease that is new is granted to the instance that the call is for
    intro m l h
    rw [calls_setProgress]
    rcases find?_outcomes_setProgress_eq_some h hopen with ⟨rfl, rfl⟩ | hold
    · rw [hcall, show call = .lease l.holder from hof]
    · exact ht.lent m l hold
  case about =>
    intro m call' h hlease
    rw [calls_setProgress] at h
    obtain ⟨l, hl, hholder⟩ := ht.about m call' h hlease
    exact ⟨l, mem_granted_setProgress hopen hl, hholder⟩

/-- A call that callers make is entered under the next number. -/
theorem enter (ht : t.Sound) (hadmits : t.admits call) :
    Sound { t with calls := t.calls.insert t.calls.size call } := by
  have hfresh := ht.numbered.find?_size
  -- what was entered before is still found
  have hold : ∀ n call', t.calls.find? n = some call' →
      (t.calls.insert t.calls.size call).find? n = some call' := fun n call' h => by
    have hne : n ≠ t.calls.size := fun heq => by rw [heq, hfresh] at h; cases h
    rwa [Table.find?_insert_of_ne _ _ hne]
  -- what is found is the new call or was entered before
  have hcases : ∀ n call', (t.calls.insert t.calls.size call).find? n = some call' →
      n = t.calls.size ∧ call = call' ∨ t.calls.find? n = some call' := fun n call' h => by
    by_cases hn : n = t.calls.size
    · subst hn
      rw [Table.find?_insert_self, Option.some.injEq] at h
      exact .inl ⟨rfl, h⟩
    · rw [Table.find?_insert_of_ne _ _ hn] at h
      exact .inr h
  constructor
  case numbered => exact ht.numbered.insert_size call
  case current => exact fun n job h => hold n _ (ht.current n job h)
  case called =>
    intro n outcome h
    obtain ⟨call', hcall'⟩ := Option.isSome_iff_exists.1 (ht.called n outcome h)
    simp [hold n call' hcall']
  case pending => exact ht.pending
  case once =>
    -- a call that asks for a lease is admitted only if none like it was made
    intro m n id hm hn
    rcases hcases m _ hm with ⟨rfl, hcm⟩ | hm' <;> rcases hcases n _ hn with ⟨rfl, hcn⟩ | hn'
    · rfl
    · exact absurd hn' (find?_calls_ne_lease (hcm ▸ hadmits) n)
    · exact absurd hm' (find?_calls_ne_lease (hcn ▸ hadmits) m)
    · exact ht.once m n id hm' hn'
  case lent => exact fun n l h => hold n _ (ht.lent n l h)
  case about =>
    intro n call' h hlease
    rcases hcases n _ h with ⟨rfl, rfl⟩ | h'
    · exact exists_granted_of_admits (t := t) hadmits hlease
    · exact ht.about n call' h' hlease

/-- Every event keeps the books in order. -/
theorem turn (ht : t.Sound) (h : t.Turn u) : u.Sound := by
  cases h with
  | @begin call p progress hadmits hbegins =>
    exact ((ht.enter hadmits).congr p t.log).setProgress (Table.find?_insert_self ..)
      ht.find?_outcomes_size hbegins.of
  | @settle n job p progress hjob hsettles =>
    exact (ht.congr p t.log).setProgress (ht.current n job hjob) (ht.pending n job hjob)
      hsettles.of
  | @answer n job host result hjob hhost =>
    exact (ht.congr t.pool _).setProgress (ht.current n job hjob) (ht.pending n job hjob)
      (job.of_answer t.config result)

end Sound

/-! ### Calls and the pool -/

/-- The calls in progress find in the pool what they rely on, and no two of them rely on
    the same thing. -/
structure Orderly (t : Traffic) : Prop where
  /-- The books are in order. -/
  sound : t.Sound
  /-- So is the pool. -/
  regular : t.pool.Regular t.config t.ownerBase
  /-- Each call in progress finds what it relies on. -/
  fits : ∀ n job, t.jobs.find? n = some job → job.Fits t.pool
  /-- No two of them rely on the same thing. -/
  apart : ∀ m n a b, m ≠ n → t.jobs.find? m = some a → t.jobs.find? n = some b → a.Apart b

namespace Orderly

variable {t u : Traffic}

/-- At first the pool is empty and nobody relies on anything. -/
theorem start (c : NetworkConfig) (ownerBase : Option Nat) : (start c ownerBase).Orderly where
  sound := .start c ownerBase
  regular := .empty c ownerBase
  fits := fun n job h => by simp [Traffic.start] at h
  apart := fun m n a b _ h => by simp [Traffic.start] at h

/-- One call takes a step, and the others find what they rely on. -/
theorem setProgress {n : Nat} {progress : Progress} (hsound : (t.setProgress n progress).Sound)
    (hregular : t.pool.Regular t.config t.ownerBase)
    (hmine : ∀ job, progress = .going job → job.Fits t.pool)
    (hothers : ∀ m j, m ≠ n → t.jobs.find? m = some j → j.Fits t.pool)
    (hapart : ∀ job, progress = .going job → ∀ m j, m ≠ n → t.jobs.find? m = some j → job.Apart j)
    (hbefore : ∀ m k a b, m ≠ k → t.jobs.find? m = some a → t.jobs.find? k = some b →
      a.Apart b) : (t.setProgress n progress).Orderly := by
  refine ⟨hsound, by simpa using hregular, fun m job h => ?_,
    pairwise_jobs_setProgress (fun _ _ => Job.Apart.symm) hapart hbefore⟩
  rw [pool_setProgress]
  rcases find?_jobs_setProgress_eq_some h with ⟨-, hprog⟩ | ⟨hm, hold⟩
  · exact hmine job hprog
  · exact hothers m job hm hold

/-- Every event keeps the calls apart from each other, and leaves each with what it relies on. -/
theorem turn (ht : t.Orderly) (h : t.Turn u) : u.Orderly := by
  have hsound := ht.sound.turn h
  cases h with
  | @begin call p progress hadmits hbegins =>
    -- the new call is apart from those in progress, for it is made beside them
    refine setProgress hsound (hbegins.regular ht.regular) (fun job hprog => ?_)
      (fun m j _ hj => ?_) (fun job hprog m j _ hj => ?_)
      ht.apart
    · subst hprog
      exact hbegins.fits_job
    · exact hbegins.fits ht.regular (ht.fits m j hj) (ht.sound.beside hadmits hj)
    · subst hprog
      exact hbegins.apart ht.regular (ht.fits m j hj) (ht.sound.beside hadmits hj)
  | @settle n job p progress hjob hsettles =>
    have hfits := ht.fits n job hjob
    -- the call changes the pool only if it ends
    refine setProgress hsound (hsettles.regular hfits ht.regular) (fun next hprog => ?_)
      (fun m j hm hj => ?_) (fun next hprog m j hm hj => ?_)
      ht.apart
    · subst hprog
      obtain ⟨rfl, hfollows⟩ := hsettles.follows
      exact hfollows.fits hfits
    · exact hsettles.fits hfits (ht.fits m j hj) (ht.apart n m job j hm.symm hjob hj)
    · subst hprog
      exact hsettles.follows.2.apart (ht.apart n m job j hm.symm hjob hj)
  | @answer n job host result hjob hhost =>
    -- the host changes nothing in the pool
    refine setProgress hsound ht.regular (fun next hprog => ?_)
      (fun m j _ hj => ht.fits m j hj) (fun next hprog m j hm hj => ?_)
      ht.apart
    · exact (Job.follows_answer hprog).fits (ht.fits n job hjob)
    · exact (Job.follows_answer hprog).apart (ht.apart n m job j hm.symm hjob hj)

end Orderly

/-- Hence it is so at every moment. -/
theorem Reachable.orderly {c : NetworkConfig} {ownerBase : Option Nat} {t : Traffic}
    (h : Reachable c ownerBase t) : t.Orderly := by
  induction h with
  | start => exact .start c ownerBase
  | step _ hstep ih => exact ih.turn (turn_of_step hstep)

end Traffic

end VmNode
