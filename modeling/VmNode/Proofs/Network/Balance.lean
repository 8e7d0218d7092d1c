import Mathlib.Algebra.BigOperators.Group.Multiset.Basic
import Mathlib.Tactic.Abel
import VmNode.Proofs.Network.Stock

/-!
# The balance of an allocator

What was built on the host, less what was taken down, is what is on the books of the pool
and of the calls in progress (`Traffic.Balanced`). When no call is in progress the books of
the pool say all (`Traffic.builds_sub_deletions`): a rule was installed as many times more
than it was deleted as it is recorded in the pool, and a link was built once more than it
was deleted if a slot has it. Once all leases were given back, each rule and each link that
was built was deleted once.
-/

namespace VmNode

/-- The rules that are recorded in the pool: those that go with the links, and those of the
    published ports. -/
def Pool.recordedRules (p : Pool) : List FirewallRule :=
  p.slots.values.flatMap fun g => g.rules ++ Pool.portRules g

/-- Whether a slot has that link. -/
def Pool.hasLink (p : Pool) (link : GuestLink) : Bool := p.slots.values.any (·.link = link)

namespace Traffic

/-- How often that step on the host was asked for and succeeded. -/
def successes (t : Traffic) (host : HostCall) : Nat :=
  t.log.countP fun e => e.1 = host && e.2.isOk

/-- How often that step on the host was asked for. -/
def requests (t : Traffic) (host : HostCall) : Nat := t.log.countP fun e => e.1 = host

/-- What was built on the host. -/
def built (t : Traffic) : Multiset HostCall :=
  (t.log.map fun e => if e.2.isOk then e.1.built else 0).sum

/-- What was taken down. -/
def removed (t : Traffic) : Multiset HostCall := (t.log.map fun e => e.1.removed).sum

/-- What stands on the host for the calls in progress. -/
def loose (t : Traffic) : Multiset HostCall := t.jobs.tally fun _ => Job.loose

/-- The links of the pool that calls in progress have not built yet, or taken down again. -/
def missing (t : Traffic) : Multiset HostCall := t.jobs.tally fun _ => Job.missing

/-- What was built, less what was taken down, is on the books. -/
def Balanced (t : Traffic) : Prop := t.built + t.missing = t.removed + t.pool.stock + t.loose

/-! ### The balance at every moment -/

/-- When a call takes a step, what its job counts for in a tally changes. -/
theorem tally_setProgress {M : Type} [AddCommMonoid M] (f : Job → M) (t : Traffic) (n : Nat)
    (progress : Progress) :
    ((t.setProgress n progress).jobs.tally fun _ => f) + (t.jobs.find? n).elim 0 f =
      (t.jobs.tally fun _ => f) + progress.job?.elim 0 f := by
  have h := Table.tally_add_of_agree (k := n)
    (fun m hm => (find?_jobs_setProgress_of_ne t progress hm).symm) fun _ => f
  rwa [find?_jobs_setProgress_self] at h

namespace Balanced

variable {t u : Traffic}

/-- At first nothing stands there and nothing is on any books. -/
theorem start (c : NetworkConfig) (ownerBase : Option Nat) : (start c ownerBase).Balanced := rfl

/-- A step that changes the books of the pool, of the host and of the call alike keeps the
    balance. -/
theorem setProgress {before : Option Job} {progress : Progress} {n : Nat} {t' : Traffic}
    {b r : Multiset HostCall} (ht : t.Balanced) (hbefore : t.jobs.find? n = before)
    (hjobs : t'.jobs = t.jobs) (hbuilt : t'.built = b + t.built)
    (hremoved : t'.removed = r + t.removed)
    (hstep : b + progress.missing + before.elim 0 Job.loose + t.pool.stock =
      r + progress.loose + before.elim 0 Job.missing + t'.pool.stock) :
    (t'.setProgress n progress).Balanced := by
  have hloose := tally_setProgress Job.loose t' n progress
  have hmissing := tally_setProgress Job.missing t' n progress
  rw [hjobs, hbefore] at hloose hmissing
  rw [Balanced, built, removed, log_setProgress, pool_setProgress]
  -- both sides are compared thing by thing
  refine Multiset.ext.2 fun x => ?_
  have hcount := fun {a b : Multiset HostCall} (h : a = b) => congrArg (Multiset.count x) h
  have h₁ := hcount ht
  have h₂ := hcount hstep
  have h₃ := hcount hloose
  have h₄ := hcount hmissing
  have h₅ := hcount hbuilt
  have h₆ := hcount hremoved
  simp only [Multiset.count_add, built, removed, missing, loose, Progress.loose,
    Progress.missing] at h₁ h₂ h₃ h₄ h₅ h₆ ⊢
  omega

/-- Every event keeps the balance: begins and steps on the pool move things from one book to the
    other, and an answer of the host adds to both sides what was built and what was taken down. -/
theorem turn (ht : t.Balanced) (hord : t.Orderly) (h : t.Turn u) : u.Balanced := by
  cases h with
  | @begin call p progress hadmits hbegins =>
    -- nothing is built yet
    refine ht.setProgress (b := 0) (r := 0) hord.sound.find?_jobs_size rfl (zero_add _).symm
      (zero_add _).symm ?_
    calc 0 + progress.missing + 0 + t.pool.stock
      _ = t.pool.stock + progress.missing := by abel
      _ = p.stock + progress.loose := (hbegins.stock hord.regular).symm
      _ = 0 + progress.loose + 0 + p.stock := by abel
  | @settle n job p progress hjob hsettles =>
    -- nor is anything built by a step on the pool
    refine ht.setProgress (b := 0) (r := 0) hjob rfl (zero_add _).symm (zero_add _).symm ?_
    calc 0 + progress.missing + job.loose + t.pool.stock
      _ = t.pool.stock + job.loose + progress.missing := by abel
      _ = p.stock + progress.loose + job.missing := (hsettles.stock (hord.fits n job hjob)).symm
      _ = 0 + progress.loose + job.missing + p.stock := by abel
  | @answer n job host result hjob hhost =>
    exact ht.setProgress hjob rfl (List.sum_cons ..) (List.sum_cons ..)
      (congrArg (· + t.pool.stock) (job.stock_answer t.config result hhost))

end Balanced

/-- Hence the books balance at every moment. -/
theorem Reachable.balanced {c : NetworkConfig} {ownerBase : Option Nat} {t : Traffic}
    (h : Reachable c ownerBase t) : t.Balanced := by
  induction h with
  | start => exact .start c ownerBase
  | step h hstep ih => exact ih.turn h.orderly (turn_of_step hstep)

/-! ### Counting steps -/

section Count

variable {b d : HostCall}

/-- A step builds a thing if it is the step that builds it. -/
theorem count_built_of {host : HostCall} (hb : b.built = {b}) :
    host.built.count b = if host = b then 1 else 0 := by
  cases host with
  | createLink | appendRule =>
    rw [HostCall.built, Multiset.count_singleton]
    exact if_congr eq_comm rfl rfl
  | deleteLink | deleteRule =>
    rw [if_neg fun h => by rw [← h] at hb; exact Multiset.singleton_ne_zero _ hb.symm]
    rfl

/-- The same for the step that takes it down. -/
theorem count_removed_of {host : HostCall} (hd : d.removed = {b}) :
    host.removed.count b = if host = d then 1 else 0 := by
  cases d with
  | createLink | appendRule => exact absurd hd.symm (Multiset.singleton_ne_zero _)
  | deleteLink | deleteRule =>
    obtain rfl := Multiset.singleton_inj.1 hd
    cases host <;> simp [HostCall.removed, Multiset.count_singleton, eq_comm]

/-- A thing was built as often as the step that builds it succeeded. -/
theorem count_built (t : Traffic) (hb : b.built = {b}) : t.built.count b = t.successes b := by
  rw [built, successes]
  induction t.log with
  | nil => rfl
  | cons e log ih =>
    rw [List.map_cons, List.sum_cons, Multiset.count_add, ih, List.countP_cons, add_comm]
    congr 1
    split
    · rw [count_built_of hb]
      simp [*]
    · simp [*]

/-- A thing was taken down as often as the step that takes it down was asked for. -/
theorem count_removed (t : Traffic) (hd : d.removed = {b}) : t.removed.count b = t.requests d := by
  rw [removed, requests]
  induction t.log with
  | nil => rfl
  | cons e log ih =>
    rw [List.map_cons, List.sum_cons, Multiset.count_add, ih, List.countP_cons, add_comm,
      count_removed_of hd]
    simp

end Count

/-! ### When no call is in progress -/

section Idle

variable {t : Traffic}

/-- Where no call is in progress, there is no job. -/
theorem find?_jobs_of_isIdle (h : t.isIdle) (n : Nat) : t.jobs.find? n = none := by
  have hsize : t.jobs.size = 0 := by simpa [isIdle] using h
  rw [Table.find?, List.eq_nil_of_length_eq_zero hsize]
  rfl

/-- So nothing is on the books of calls. -/
theorem loose_of_isIdle (h : t.isIdle) : t.loose = 0 :=
  Table.tally_eq_zero fun n job hjob => by rw [find?_jobs_of_isIdle h n] at hjob; cases hjob

/-- And nothing is missing. -/
theorem missing_of_isIdle (h : t.isIdle) : t.missing = 0 :=
  Table.tally_eq_zero fun n job hjob => by rw [find?_jobs_of_isIdle h n] at hjob; cases hjob

/-- When no call is in progress, what stands on the host is on the books of the pool. -/
theorem Balanced.of_isIdle (ht : t.Balanced) (h : t.isIdle) :
    t.built = t.removed + t.pool.stock := by
  have hbalance : t.built + t.missing = t.removed + t.pool.stock + t.loose := ht
  rwa [loose_of_isIdle h, missing_of_isIdle h, add_zero, add_zero] at hbalance

end Idle

end Traffic

/-! ### The books of the pool -/

namespace Pool

variable {c : NetworkConfig} {ownerBase : Option Nat} {p : Pool}

/-- As long as no slot is being given back, the rules on the books of the pool are those
    that are recorded in it. -/
theorem count_appendRule_stock (hfree : ∀ s g, p.slots.find? s = some g → g.releasing = false)
    (r : FirewallRule) : p.stock.count (.appendRule r) = p.recordedRules.count r := by
  have hcount : p.stock.count (.appendRule r) =
      p.slots.tally fun _ g => g.kept.count (.appendRule r) :=
    Table.map_tally (Multiset.countAddMonoidHom _) p.slots fun _ g => g.kept
  have hrules : p.recordedRules.count r =
      p.slots.tally fun _ g => (g.rules ++ portRules g).count r := by
    rw [recordedRules, Table.values, List.count_flatMap, List.map_map]
    rfl
  rw [hcount, hrules]
  refine Table.tally_congr fun s g hfind => ?_
  rw [Holding.kept_of_free (hfree s g hfind), Holding.stock, Multiset.count_add,
    HostCall.count_rules, Multiset.count_eq_zero.2 (by simp), zero_add]

/-- The books of the pool have the link of a slot that nobody gives back. -/
theorem createLink_mem_kept {g : Holding} {link : GuestLink} :
    .createLink link ∈ g.kept ↔ g.releasing = false ∧ g.link = link := by
  rw [Holding.kept]
  cases g.releasing with
  | true => simp
  | false =>
    simp [Holding.stock, HostCall.createLink_notMem_rules, eq_comm]

/-- Slots with the same link are the same. -/
theorem Regular.eq_of_link_eq (hp : p.Regular c ownerBase) {s s' : Nat} {g g' : Holding}
    (hfind : p.slots.find? s = some g) (hfind' : p.slots.find? s' = some g')
    (hlink : g.link = g'.link) : s = s' := by
  by_contra hne
  exact hp.tap s s' g g' hne hfind hfind' (congrArg GuestLink.tap hlink)

/-- The books of the pool have the link of a slot that is not being given back once. -/
theorem Regular.count_createLink_stock (hp : p.Regular c ownerBase) {s : Nat} {g : Holding}
    (hfind : p.slots.find? s = some g) (hfree : g.releasing = false) :
    p.stock.count (.createLink g.link) = 1 := by
  -- what else the books show of this link would be another slot with the same link
  have hothers : .createLink g.link ∉ (p.slots.erase s).tally fun _ g => g.kept := fun h => by
    obtain ⟨s', g', hfind', hmem⟩ := Table.mem_tally.1 h
    by_cases hs : s' = s
    · simp [hs] at hfind'
    · rw [Table.find?_erase_of_ne _ hs] at hfind'
      exact hs (hp.eq_of_link_eq hfind' hfind (createLink_mem_kept.1 hmem).2)
  have hkept : g.kept.count (.createLink g.link) = 1 := by
    rw [Holding.kept_of_free hfree, Holding.stock, Multiset.count_add,
      Multiset.count_singleton_self,
      Multiset.count_eq_zero.2 (HostCall.createLink_notMem_rules _ _)]
  rw [stock, ← Table.tally_erase_of_some hfind, Multiset.count_add,
    Multiset.count_eq_zero.2 hothers, zero_add, hkept]

/-- A link is in the pool if a slot has it. -/
theorem hasLink_eq_true {link : GuestLink} :
    p.hasLink link = true ↔ ∃ s g, p.slots.find? s = some g ∧ g.link = link := by
  rw [hasLink, List.any_eq_true]
  constructor
  · rintro ⟨g, hg, hlink⟩
    obtain ⟨⟨s, _⟩, he, rfl⟩ := List.mem_map.1 hg
    exact ⟨s, _, (Table.mem_entries_iff _).1 he, by simpa using hlink⟩
  · rintro ⟨s, g, hfind, hlink⟩
    exact ⟨g, List.mem_map.2 ⟨_, (Table.mem_entries_iff _).2 hfind, rfl⟩, by simpa using hlink⟩

end Pool

namespace Traffic

variable {c : NetworkConfig} {ownerBase : Option Nat} {t : Traffic}

/-- When no call is in progress, each rule was installed as many times more than it was
    deleted as it is recorded in the pool, and each link was built once more than it was
    taken down if a slot has it. Once all leases were given back, each was deleted as often
    as it was built. -/
theorem builds_sub_deletions (h : Reachable c ownerBase t) (hidle : t.isIdle) :
    (∀ r, (t.successes (.appendRule r) : ℤ) - t.requests (.deleteRule r) =
      t.pool.recordedRules.count r) ∧
    (∀ link, (t.successes (.createLink link) : ℤ) - t.requests (.deleteLink link) =
      if t.pool.hasLink link then 1 else 0) ∧
    ((∀ l ∈ t.granted, ∃ n, t.calls.find? n = some (.release l)) →
      (∀ r, t.requests (.deleteRule r) = t.successes (.appendRule r)) ∧
      ∀ link, t.requests (.deleteLink link) = t.successes (.createLink link)) := by
  have hjobs := find?_jobs_of_isIdle hidle
  -- all books but those of the pool are empty
  have hbalance := h.balanced.of_isIdle hidle
  have hregular := h.orderly.regular
  have hfree : ∀ s g, t.pool.slots.find? s = some g → g.releasing = false :=
    fun s g hfind => h.manned.releasing_eq_false hjobs hfind
  have hrule : ∀ r, t.successes (.appendRule r) =
      t.requests (.deleteRule r) + t.pool.recordedRules.count r := fun r => by
    rw [← count_built t (b := .appendRule r) rfl, hbalance, Multiset.count_add,
      count_removed t (d := .deleteRule r) rfl, Pool.count_appendRule_stock hfree]
  have hlink : ∀ link, t.successes (.createLink link) =
      t.requests (.deleteLink link) + if t.pool.hasLink link then 1 else 0 := fun link => by
    rw [← count_built t (b := .createLink link) rfl, hbalance, Multiset.count_add,
      count_removed t (d := .deleteLink link) rfl]
    congr 1
    split
    · rename_i hhas
      obtain ⟨s, g, hfind, rfl⟩ := Pool.hasLink_eq_true.1 hhas
      exact hregular.count_createLink_stock hfind (hfree s g hfind)
    · rename_i hhas
      refine Multiset.count_eq_zero.2 fun hmem => hhas ?_
      obtain ⟨s, g, hfind, hkept⟩ := Table.mem_tally.1 hmem
      exact Pool.hasLink_eq_true.2 ⟨s, g, hfind, (Pool.createLink_mem_kept.1 hkept).2⟩
  refine ⟨fun r => ?_, fun link => ?_, fun hreturned => ⟨fun r => ?_, fun link => ?_⟩⟩
  · rw [hrule r]
    push_cast
    exact add_sub_cancel_left _ _
  · rw [hlink link]
    split <;> simp
  · have hempty := h.manned.find?_slots_eq_none hjobs hreturned
    have hnone : t.pool.recordedRules.count r = 0 := by
      rw [← Pool.count_appendRule_stock hfree]
      refine Multiset.count_eq_zero.2 fun hmem => ?_
      obtain ⟨s, g, hfind, -⟩ := Table.mem_tally.1 hmem
      rw [hempty s] at hfind
      cases hfind
    rw [hrule r, hnone, add_zero]
  · have hempty := h.manned.find?_slots_eq_none hjobs hreturned
    have hnone : t.pool.hasLink link = false := by
      refine Bool.eq_false_iff.2 fun hhas => ?_
      obtain ⟨s, g, hfind, -⟩ := Pool.hasLink_eq_true.1 hhas
      rw [hempty s] at hfind
      cases hfind
    rw [hlink link, hnone]
    rfl

/-- A lease that is given back while one of its ports is being published. -/
def releaseDuringPublish : List Event :=
  let l := Job.leaseOf "i-1" 0 (Pool.linkFor {} none "i-1" 0)
  let ok (n : Nat) : Event := .answer n (.ok ())
  [.begin (.lease "i-1"), ok 0, ok 0, ok 0, ok 0, .settle 0,
    .begin (.publish "i-1" l.info ⟨8080, 80⟩), ok 1, .begin (.release l), ok 1, .settle 1,
    ok 2, ok 2, ok 2, ok 2, .settle 2, ok 1, ok 1]

/-- The rules of the port are deleted too, though the slot was given back before they were
    written down. -/
theorem requests_eq_successes_releaseDuringPublish :
    ∃ t, (start {} none).play releaseDuringPublish = some t ∧ t.isIdle = true ∧
      ∀ r, t.requests (.deleteRule r) = t.successes (.appendRule r) := by
  let t := ((start {} none).play releaseDuringPublish).get (by decide +kernel)
  have hplay : (start {} none).play releaseDuringPublish = some t := (Option.some_get _).symm
  have hidle : t.isIdle = true := by decide +kernel
  have hreturned : ∀ l ∈ t.granted, t.calls.find? 2 = some (.release l) := by decide +kernel
  exact ⟨t, hplay, hidle,
    ((builds_sub_deletions (Reachable.start.play hplay) hidle).2.2 fun l hl =>
      ⟨2, hreturned l hl⟩).1⟩

end Traffic

end VmNode
