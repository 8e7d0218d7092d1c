import VmNode.Proofs.Network.Live
import VmNode.Proofs.Node.Known

/-!
# The traffic of a node

The calls that the tasks of a node make to the allocator are traffic, as callers make it
(`Node.Mirrors`): tasks lease for an instance once, and whatever lease or network identity
they come with was granted. So what holds of all traffic holds of the pool of a node and of
what stands on its host (`Node.exists_traffic`).
-/

namespace VmNode

/-- The call that goes on. -/
def Errand.Progress.job? : Errand.Progress → Option Job
  | .going e => e.job?
  | .done _ => none

theorem Errand.Progress.job?_ofCall (progress : VmNode.Progress) :
    (ofCall progress).job? = progress.job? := by
  cases progress <;> rfl

namespace Work

variable {work : Work} {e : Errand} {progress : Errand.Progress}

/-- After a step of its errand a task is on its way with the call, as long as the call
    goes on. -/
theorem job?_resume (hwork : work.errand? = some e) (hproper : work.Proper)
    (hof : progress.Of e.call) : (work.resume progress).job? = progress.job? := by
  cases sends hwork hproper with
  | lease hcall =>
    rw [hcall] at hof
    rcases Errand.Progress.of_lease hof with ⟨e', rfl, -⟩ | ⟨l, rfl, -⟩ | ⟨cause, rfl⟩ <;> rfl
  | refuse | withdraw | watch | reap | stop => cases progress <;> rfl
  | publish hcall =>
    rw [hcall] at hof
    rcases Errand.Progress.of_publish hof with ⟨e', rfl, -⟩ | ⟨isNew, rfl⟩ | ⟨cause, rfl⟩
    · rfl
    · cases isNew <;> rfl
    · rfl

theorem known?_of_errand? (h : work.errand? = some e) : work.known? = e.about? := by
  cases work with
  | provision id spec phase => cases phase <;> cases h <;> rfl
  | monitor id process phase =>
    cases phase with
    | giveBack => cases h; rfl
    | _ => cases h
  | deprovision id timeout phase => cases phase <;> cases h <;> rfl
  | forward id mapping phase =>
    cases phase with
    | work => cases h; rfl
    | _ => cases h
  | drain | report | gone => cases h

/-- All that a task learns on its errand is the lease that it is granted. -/
theorem of_known?_resume (hwork : work.errand? = some e) (hproper : work.Proper)
    (hof : progress.Of e.call) (hprogress : ∀ call, progress ≠ .going (.toBegin call)) {l : Lease}
    (hl : (work.resume progress).known? = some l) : progress = .done (.ok (.leased l)) := by
  -- a call that goes on has begun, so it is not one to come
  have hbegun : ∀ e', progress = .going e' → e'.about? = none := fun e' heq => by
    cases e' with
    | toBegin call => exact absurd heq (hprogress call)
    | going job => rfl
  cases sends hwork hproper with
  | lease hcall =>
    rw [hcall] at hof
    rcases Errand.Progress.of_lease hof with ⟨e', rfl, -⟩ | ⟨l', rfl, -⟩ | ⟨cause, rfl⟩
    · cases (hbegun e' rfl).symm.trans hl
    · exact congrArg (fun l => Errand.Progress.done (.ok (.leased l))) (Option.some.inj hl)
    · cases hl
  | refuse | withdraw | watch | reap | stop =>
    cases progress with
    | going e' => cases (hbegun e' rfl).symm.trans hl
    | done => cases hl
  | publish hcall =>
    rw [hcall] at hof
    rcases Errand.Progress.of_publish hof with ⟨e', rfl, -⟩ | ⟨isNew, rfl⟩ | ⟨cause, rfl⟩
    · cases (hbegun e' rfl).symm.trans hl
    · cases isNew <;> cases hl
    · cases hl

end Work

/-! ### Numbers of calls -/

/-- The calls that tasks have in progress are those that have numbers, each under the number
    of the task. -/
structure Matches (number : Nat → Nat) (own called : Nat → Option Job) : Prop where
  /-- What a task has in progress has the number of the task. -/
  isCalled : ∀ s job, own s = some job → called (number s) = some job
  /-- What has a number is in progress for a task. -/
  isOwn : ∀ k job, called k = some job → ∃ s, number s = k ∧ own s = some job
  /-- Two tasks with calls in progress have different numbers. -/
  apart : ∀ s s', own s ≠ none → own s' ≠ none → number s = number s' → s = s'

/-- One task goes on with its call, or begins one under a number that no call in progress
    has. -/
theorem Matches.update {number : Nat → Nat} {own own' called called' : Nat → Option Job}
    (h : Matches number own called) {s k : Nat} (hmine : own s ≠ none → number s = k)
    (hothers : ∀ s', s' ≠ s → own s' ≠ none → number s' ≠ k) (hself : own' s = called' k)
    (hown : ∀ s', s' ≠ s → own' s' = own s') (hcalled : ∀ k', k' ≠ k → called' k' = called k') :
    Matches (Function.update number s k) own' called' := by
  have hnumber : ∀ s', s' ≠ s → Function.update number s k s' = number s' := fun s' hs =>
    Function.update_of_ne hs k number
  have hstays : ∀ s', s' ≠ s → own' s' ≠ none → own s' ≠ none := fun s' hs hsome =>
    hown s' hs ▸ hsome
  refine ⟨fun s' job hjob => ?_, fun k' job hjob => ?_, fun s' s'' h' h'' heq => ?_⟩
  · by_cases hs : s' = s
    · rw [hs, Function.update_self, ← hself, ← hs]
      exact hjob
    · have hsome : own' s' ≠ none := by simp [hjob]
      rw [hnumber s' hs, hcalled _ (hothers s' hs (hstays s' hs hsome))]
      exact h.isCalled s' job (hown s' hs ▸ hjob)
  · by_cases hk : k' = k
    · subst hk
      exact ⟨s, Function.update_self .., hself.trans hjob⟩
    · obtain ⟨s', hs', hjob'⟩ := h.isOwn k' job (hcalled k' hk ▸ hjob)
      have hs : s' ≠ s := fun heq => hk (by
        rw [← hs', heq]
        exact hmine (by simp [← heq, hjob']))
      exact ⟨s', (hnumber s' hs).trans hs', (hown s' hs).trans hjob'⟩
  · by_cases hs : s' = s <;> by_cases hs' : s'' = s
    · exact hs.trans hs'.symm
    · rw [hs, Function.update_self, hnumber s'' hs'] at heq
      exact absurd heq.symm (hothers s'' hs' (hstays s'' hs' h''))
    · rw [hs', Function.update_self, hnumber s' hs] at heq
      exact absurd heq (hothers s' hs (hstays s' hs h'))
    · rw [hnumber s' hs, hnumber s'' hs'] at heq
      exact h.apart s' s'' (hstays s' hs h') (hstays s'' hs' h'') heq

/-! ### Leases without ports -/

/-- A lease is granted without ports. -/
def Progress.IsPlain (progress : Progress) : Prop :=
  ∀ l, progress = .done (.ok (.leased l)) → l.info.ports = []

theorem Progress.isPlain_orphaned (id : InstanceId) (n : NetworkInfo) (m : PortMapping)
    (rules : List FirewallRule) : (Job.orphaned id n m rules).IsPlain := by
  intro l h
  cases rules <;> cases h

theorem Call.Begins.isPlain {c : NetworkConfig} {ownerBase : Option Nat} {p p' : Pool} {call : Call}
    {progress : Progress} (h : call.Begins c ownerBase p p' progress) : progress.IsPlain := by
  intro l hl
  cases h <;> cases hl

theorem Job.Settles.isPlain {p p' : Pool} {job : Job} {progress : Progress}
    (h : job.Settles p p' progress) : progress.IsPlain := by
  intro l hl
  cases h with
  | leased =>
    cases hl
    rfl
  | orphaned => exact Progress.isPlain_orphaned _ _ _ _ l hl
  | unleased | released | published | unpublished | forgotten => cases hl

theorem Job.isPlain_answer (c : NetworkConfig) (result : Except Error Unit) (job : Job) :
    (job.answer c result).IsPlain := by
  intro l hl
  cases job with
  | lease id slot link phase => cases phase <;> cases result <;> cases hl
  | release l' link phase => cases phase <;> cases hl
  | publish id n m phase =>
    cases phase with
    | orphan => exact Progress.isPlain_orphaned _ _ _ _ l hl
    | install | record | undo | abandon => cases result <;> cases hl

namespace Node

variable {ids : List InstanceId} {n m : Node} {s : Nat} {work : Work} {t u : Traffic}
variable {number : Nat → Nat}

/-- Whoever begins to lease a slot has asked for it then. -/
theorem Tidy.asked_of_toBegin (hn : n.Tidy ids) {work' : Work} (h : Carries s work work' n m)
    {id : InstanceId} (herrand : work.errand? = some (.toBegin (.lease id))) : Asked id ids m := by
  have hrole := Work.role?_of_toBegin_lease herrand (hn.proper s work h.turn.before)
  refine ⟨by_contra fun hnot => ?_, fun hr => ?_⟩
  · exact (hn.strange id hnot).2.1 _ ⟨s, h.turn.role?_before.trans hrole⟩
  · rcases h.turn.of_hasRole_after hr with hr | ⟨s', hs, hr⟩
    · exact h.asking id hr
    · exact h.role?_ne hn hrole rfl hs hr

/-- The calls that tasks of a node make are that traffic. -/
structure Mirrors (ids : List InstanceId) (n : Node) (t : Traffic) (number : Nat → Nat) : Prop where
  /-- The configuration is that of the node. -/
  config : t.config = n.config.network
  /-- The user of the first slot is that of the node. -/
  ownerBase : t.ownerBase = n.ownerBase
  /-- The pool is that of the node. -/
  pool : t.pool = n.pool
  /-- The calls in progress are those of the tasks. -/
  jobs : Matches number n.job? t.jobs.find?
  /-- Whatever lease is known was granted. -/
  granted : ∀ l, n.Knows l → l ∈ t.granted
  /-- Leases are granted without ports. -/
  plain : ∀ l ∈ t.granted, l.info.ports = []
  /-- Whoever has asked for a lease does not ask again. -/
  asked : ∀ k id, t.calls.find? k = some (.lease id) → Asked id ids n

namespace Mirrors

/-- A move that the allocator does not see is no event. -/
theorem unseen (h : Mirrors ids n t number) {ids' : List InstanceId}
    (hchanges : Changes ids n ids' m) (hn : n.Tidy ids) (hunseen : Unseen n m) :
    Mirrors ids' m t number := by
  refine ⟨hunseen.config ▸ h.config, hunseen.ownerBase ▸ h.ownerBase, hunseen.pool ▸ h.pool, ?_,
    fun l hl => h.granted l (hunseen.knows l hl), h.plain, fun k id hk => ?_⟩
  · rw [show m.job? = n.job? from funext hunseen.job?]
    exact h.jobs
  · exact (hchanges.induct (P := Asked id) (fun _ h hchange => h.change hchange) hn
      (h.asked k id hk)).2

/-- A task takes a step of its call, and so does the traffic. -/
theorem turn (h : Mirrors ids n t number) (hn : n.Tidy ids) {e : Errand} {k : Nat}
    {progress : Progress} (herrand : work.errand? = some e) (hof : progress.Of e.call)
    (hturn : Turn s work (work.resume (.ofCall progress)) n m)
    (hregistry : m.registry = n.registry) (howner : m.ownerBase = n.ownerBase)
    (hconfig : u.config = t.config ∧ u.ownerBase = t.ownerBase) (hpool : u.pool = m.pool)
    (hjobs : u.jobs = t.jobs) (houtcomes : u.outcomes = t.outcomes)
    (hopen : t.outcomes.find? k = none) (hmine : n.job? s ≠ none → number s = k)
    (hothers : ∀ s', s' ≠ s → n.job? s' ≠ none → number s' ≠ k) (hplain : progress.IsPlain)
    (hasked : ∀ k id, u.calls.find? k = some (.lease id) → Asked id ids m) :
    Mirrors ids m (u.setProgress k progress) (Function.update number s k) := by
  have hproper := hn.proper s work hturn.before
  have hofCall := Errand.Progress.of_ofCall hof
  have hgranted : ∀ l ∈ t.granted, l ∈ (u.setProgress k progress).granted := fun l hl => by
    refine Traffic.mem_granted_setProgress (by rw [houtcomes]; exact hopen) ?_
    rwa [Traffic.granted, houtcomes]
  refine ⟨?_, ?_, ?_, h.jobs.update hmine hothers ?_ (fun s' hs => ?_) (fun k' hk => ?_),
    fun l hl => ?_, fun l hl => ?_, fun k' id hk => ?_⟩
  · rw [Traffic.config_setProgress, hconfig.1, h.config, hturn.config]
  · rw [Traffic.ownerBase_setProgress, hconfig.2, h.ownerBase, howner]
  · rw [Traffic.pool_setProgress, hpool]
  · rw [Traffic.find?_jobs_setProgress_self, job?, hturn.after, Option.bind_some,
      Work.job?_resume herrand hproper hofCall, Errand.Progress.job?_ofCall]
  · rw [job?, job?, hturn.work?_of_ne hs]
  · rw [Traffic.find?_jobs_setProgress_of_ne _ _ hk, hjobs]
  · -- what is known was known before, or it is what the call has leased
    rcases hl with ⟨s', w, hw, hl⟩ | hl
    · by_cases hs : s' = s
      · rw [hs, hturn.after, Option.some.injEq] at hw
        subst hw
        have hdone := Work.of_known?_resume herrand hproper hofCall
          (by cases progress <;> simp [Errand.Progress.ofCall]) hl
        obtain rfl : progress = .done (.ok (.leased l)) := by
          cases progress with
          | going => cases hdone
          | done outcome => cases hdone; rfl
        exact Traffic.mem_granted.2 ⟨k, Traffic.find?_outcomes_setProgress_self _ _
          (by rw [houtcomes]; exact hopen)⟩
      · exact hgranted l (h.granted l (.inl ⟨s', w, (hturn.work?_of_ne hs).symm.trans hw, hl⟩))
    · exact hgranted l (h.granted l (.inr (hregistry ▸ hl)))
  · -- a lease that is granted now is the outcome of this call
    obtain ⟨j, hj⟩ := Traffic.mem_granted.1 hl
    by_cases hk : j = k
    · rw [hk, Traffic.find?_outcomes_setProgress_self _ _ (by rw [houtcomes]; exact hopen),
        Progress.outcome?_eq_some] at hj
      exact hplain l hj
    · rw [Traffic.find?_outcomes_setProgress_of_ne _ _ hk, houtcomes] at hj
      exact h.plain l (Traffic.mem_granted.2 ⟨j, hj⟩)
  · rw [Traffic.calls_setProgress] at hk
    exact hasked k' id hk

/-- Callers make the calls that tasks make. -/
theorem admits (h : Mirrors ids n t number) (hn : n.Tidy ids) (hwork : n.work? s = some work)
    {call : Call} (herrand : work.errand? = some (.toBegin call)) : t.admits call := by
  have hknown : ∀ l, call.about? = some l → l ∈ t.granted := fun l hl => by
    refine h.granted l (.inl ⟨s, work, hwork, ?_⟩)
    rw [Work.known?_of_errand? herrand]
    exact hl
  cases call with
  | lease id =>
    have hrole := Work.role?_of_toBegin_lease herrand (hn.proper s work hwork)
    simp only [Traffic.admits, Bool.not_eq_true', List.contains_eq_mem, decide_eq_false_iff_not]
    intro hmem
    obtain ⟨⟨k, call⟩, hk, rfl⟩ := List.mem_map.1 hmem
    exact (h.asked k id ((Table.mem_entries_iff _).1 hk)).2 (.of_work? hwork hrole)
  | release l => simpa [Traffic.admits] using hknown l rfl
  | publish id network mapping => simpa [Traffic.admits] using hknown _ rfl

/-- The next step of a call on the pool. -/
theorem run (h : Mirrors ids n t number) (hn : n.Tidy ids) (ht : t.Sound)
    (hwork : n.work? s = some work) {e : Errand} (herrand : work.errand? = some e)
    {progress : Errand.Progress} (hstep : n.stepErrand e = some (m, progress)) :
    ∃ event u number', t.step event = some u ∧ u.log = t.log ∧
      Mirrors ids (m.setWork s (work.resume progress)) u number' := by
  have hproper := hn.proper s work hwork
  obtain ⟨p, rfl, hsteps⟩ := stepErrand_eq_some hstep
  have hturn : Turn s work (work.resume progress) n
      ({ n with pool := p }.setWork s (work.resume progress)) :=
    .setWork (m := { n with pool := p }) hwork rfl rfl _
  have hcarries := Carries.of_steps hn hturn herrand rfl rfl hsteps
  have hasked : ∀ k id, t.calls.find? k = some (.lease id) →
      Asked id ids ({ n with pool := p }.setWork s (work.resume progress)) := fun k id hk =>
    (h.asked k id hk).change (.carries hcarries)
  cases e with
  | toBegin call =>
    -- the call is made now, and gets the next number
    have hadmits := h.admits hn hwork herrand
    simp only [stepErrand, Option.some.injEq, Prod.mk.injEq] at hstep
    obtain ⟨hpool, rfl⟩ := hstep
    obtain rfl : (call.begin n.config.network n.ownerBase n.pool).1 = p := congrArg Node.pool hpool
    have hbegins := call.begins n.config.network n.ownerBase n.pool
    refine ⟨.begin call, _, _, ?_, ?_, h.turn hn herrand hbegins.of hturn rfl rfl
      (u := { t with
        pool := (call.begin n.config.network n.ownerBase n.pool).1,
        calls := t.calls.insert t.calls.size call }) (k := t.calls.size) ⟨rfl, rfl⟩ rfl rfl rfl
      ht.find?_outcomes_size ?_ ?_ hbegins.isPlain ?_⟩
    · rw [Traffic.step, if_pos hadmits, h.config, h.ownerBase, h.pool]
    · exact Traffic.log_setProgress ..
    · intro hjob
      rw [job?, hwork, Option.bind_some, Work.job?, herrand] at hjob
      exact absurd rfl hjob
    · -- a new number is none of those in progress
      intro s' _ hjob heq
      obtain ⟨job, hjob⟩ := Option.ne_none_iff_exists'.1 hjob
      have hcalled := h.jobs.isCalled s' job hjob
      rw [heq, ht.find?_jobs_size] at hcalled
      cases hcalled
    · -- the instance that a slot is asked for is one that was asked for before, or this one
      intro k id hk
      by_cases hsize : k = t.calls.size
      · rw [hsize, Table.find?_insert_self, Option.some.injEq] at hk
        subst hk
        exact hn.asked_of_toBegin hcarries herrand
      · rw [Table.find?_insert_of_ne _ _ hsize] at hk
        exact hasked k id hk
  | going job =>
    -- the call goes on under its number
    have hjob := job?_of_going hwork herrand
    have hcalled := h.jobs.isCalled s job hjob
    rw [stepErrand] at hstep
    split at hstep
    · cases hstep
    · rename_i hhost
      have hnone : job.hostCall? = none := by simpa using hhost
      simp only [Option.some.injEq, Prod.mk.injEq] at hstep
      obtain ⟨hpool, rfl⟩ := hstep
      obtain rfl : (job.settle n.pool).1 = p := congrArg Node.pool hpool
      have hsettles := job.settles n.pool hnone
      refine ⟨.settle (number s), _, _, ?_, ?_, h.turn hn herrand hsettles.of hturn rfl rfl
        (u := { t with pool := (job.settle n.pool).1 }) (k := number s) ⟨rfl, rfl⟩ rfl rfl rfl
        (ht.pending _ job hcalled) (fun _ => rfl) (fun s' hs hjob' heq => hs ?_) hsettles.isPlain
        hasked⟩
      · simp only [Traffic.step, hcalled, hnone, h.pool]
      · exact Traffic.log_setProgress ..
      · exact h.jobs.apart s' s hjob' (by simp [hjob]) heq

/-- The host makes the step that a call waits for. -/
theorem answer (h : Mirrors ids n t number) (hn : n.Tidy ids) (ht : t.Sound)
    (hwork : n.work? s = some work) {e : Errand} (herrand : work.errand? = some e)
    {result : Except Error Unit} {progress : Errand.Progress}
    (hanswer : e.answer n.config.network result = some progress) :
    ∃ host event u number', n.hostCall? s = some host ∧ t.step event = some u ∧
      u.log = (host, result) :: t.log ∧
        Mirrors ids (n.setWork s (work.resume progress)) u number' := by
  have hturn : Turn s work (work.resume progress) n (n.setWork s (work.resume progress)) :=
    .setWork hwork rfl rfl _
  have hcarries := Carries.of_answer hn hturn herrand rfl rfl rfl hanswer
  obtain ⟨job, rfl, hhost, rfl⟩ := Errand.answer_eq_some hanswer
  obtain ⟨host, hhost⟩ := Option.isSome_iff_exists.1 hhost
  have hjob := job?_of_going hwork herrand
  have hcalled := h.jobs.isCalled s job hjob
  obtain ⟨task, hfind, rfl⟩ := Option.map_eq_some_iff.1 hwork
  refine ⟨host, .answer (number s) result, _, _, ?_, ?_, ?_,
    h.turn hn herrand (job.of_answer n.config.network result) hturn rfl rfl
      (u := { t with log := (host, result) :: t.log }) (k := number s) ⟨rfl, rfl⟩ h.pool rfl rfl
      (ht.pending _ job hcalled) (fun _ => rfl)
      (fun s' hs hjob' heq => hs (h.jobs.apart s' s hjob' (by simp [hjob]) heq))
      (job.isPlain_answer _ result) fun k id hk => (h.asked k id hk).change (.carries hcarries)⟩
  · rw [hostCall?, hfind, Option.bind_some, herrand]
    exact hhost
  · simp only [Traffic.step, hcalled, hhost, h.config]
  · exact Traffic.log_setProgress ..

end Mirrors

/-! ### What the host is asked for -/

/-- The step on the host that is answered with a move, and the answer. -/
def hostAnswer? (n : Node) : Move → Option (HostCall × Except Error Unit)
  | .host t result => (n.hostCall? t).map fun host => (host, result)
  | _ => none

/-- What the host was asked for, with what it answered, one after the other. -/
def hostLog (n : Node) : List Move → List (HostCall × Except Error Unit)
  | [] => []
  | a :: rest => (n.hostAnswer? a).toList ++ (n.move a).elim [] fun m => m.hostLog rest

/-- A task does not ask the host for anything by a step of its own. -/
theorem hostLog_concat_run {moves : List Move} :
    ∀ n : Node, n.hostLog (moves ++ [.run s]) = n.hostLog moves := by
  induction moves with
  | nil =>
    intro n
    rw [List.nil_append, hostLog, hostLog]
    cases n.move (.run s) <;> rfl
  | cons b rest ih =>
    intro n
    rw [List.cons_append, hostLog, hostLog]
    cases n.move b with
    | none => rfl
    | some k => exact congrArg ((n.hostAnswer? b).toList ++ ·) (ih k)

/-- What stands on the host: what was built, in order, without what was taken down. -/
def standing (log : List (HostCall × Except Error Unit)) : List HostCall :=
  log.foldl (fun live e => if e.2.isOk then e.1.applyTo live else live) []

/-- A move is no event of the traffic, or one. -/
theorem Mirrors.move {a : Move} (h : Mirrors ids n t number) (hn : n.Tidy ids) (ht : t.Sound)
    (hnew : ∀ id, a.provision? = some id → id ∉ ids) (hmove : n.move a = some m) :
    ∃ u number', (u = t ∨ ∃ event, t.step event = some u) ∧
      u.log = (n.hostAnswer? a).toList.reverse ++ t.log ∧
        Mirrors (ids ++ a.provision?.toList) m u number' := by
  have hunseen : n.errandStep? a = none → n.hostAnswer? a = none →
      ∃ u number', (u = t ∨ ∃ event, t.step event = some u) ∧
        u.log = (n.hostAnswer? a).toList.reverse ++ t.log ∧
          Mirrors (ids ++ a.provision?.toList) m u number' := fun hstep hanswer => by
    refine ⟨t, number, .inl rfl, ?_, h.unseen (.of_move hn hnew hmove) hn
      (.of_move hn (fun l hl => h.plain l (h.granted l hl)) hmove hstep)⟩
    rw [hanswer]
    rfl
  cases a with
  | begin | launched | leave | process | print | pass => exact hunseen rfl rfl
  | run s =>
    -- a task goes on: with its call, or with something that the allocator does not see
    rw [show ids ++ (Move.run s).provision?.toList = ids from List.append_nil ids]
    obtain ⟨work, hwork, ⟨e, k, progress, herrand, hstep, rfl⟩ | ⟨_, _, _, herrand, -, -⟩⟩ :=
      run_eq_some hmove
    · obtain ⟨event, u, number', hevent, hlog, hu⟩ := h.run hn ht hwork herrand hstep
      exact ⟨u, number', .inr ⟨event, hevent⟩, hlog, hu⟩
    · have hquiet : n.errandStep? (.run s) = none := by
        rw [errandStep?, hwork, Option.bind_some, herrand]
        rfl
      obtain ⟨u, number', hu⟩ := hunseen hquiet rfl
      rw [show ids ++ (Move.run s).provision?.toList = ids from List.append_nil ids] at hu
      exact ⟨u, number', hu⟩
  | host s result =>
    -- the host answers, which is on both logs
    rw [show ids ++ (Move.host s result).provision?.toList = ids from List.append_nil ids]
    obtain ⟨work, e, progress, hwork, herrand, hanswer, rfl⟩ := answerHost_eq_some hmove
    obtain ⟨host, event, u, number', hhost, hevent, hlog, hu⟩ :=
      h.answer hn ht hwork herrand hanswer
    refine ⟨u, number', .inr ⟨event, hevent⟩, ?_, hu⟩
    rw [hlog, hostAnswer?, hhost]
    rfl

/-- Whatever moves are made, the calls of the tasks are traffic, with what the host was asked
    for. -/
theorem Mirrors.play {c : NetworkConfig} {ownerBase : Option Nat} {moves : List Move} :
    ∀ {ids : List InstanceId} {n : Node} {t : Traffic} {number : Nat → Nat}, n.Tidy ids →
      Mirrors ids n t number → Traffic.Reachable c ownerBase t → (ids ++ provisioned moves).Nodup →
      n.play moves = some m → ∃ u number', Traffic.Reachable c ownerBase u ∧
        u.log = (n.hostLog moves).reverse ++ t.log ∧
          Mirrors (ids ++ provisioned moves) m u number' := by
  -- each move adds one event at most to the traffic
  induction moves with
  | nil =>
    intro ids n t number _ h ht _ hplay
    obtain rfl := Option.some.inj hplay
    rw [provisioned, List.filterMap_nil, List.append_nil]
    exact ⟨t, number, ht, rfl, h⟩
  | cons a rest ih =>
    intro ids n t number hn h ht hnodup hplay
    obtain ⟨k, hmove, hrest⟩ := Option.bind_eq_some_iff.1 hplay
    have hnew := notMem_of_nodup hnodup
    rw [append_provisioned_cons] at hnodup ⊢
    obtain ⟨v, number', hv, hlog, hmirrors⟩ := h.move hn ht.orderly.sound hnew hmove
    have hreach : Traffic.Reachable c ownerBase v := by
      rcases hv with rfl | ⟨event, hevent⟩
      · exact ht
      · exact ht.step hevent
    obtain ⟨u, number'', hu, hlog', hmirrors'⟩ :=
      ih (hn.changes (.of_move hn hnew hmove)) hmirrors hreach hnodup hrest
    refine ⟨u, number'', hu, ?_, hmirrors'⟩
    rw [hlog', hlog, hostLog, hmove, List.reverse_append, List.append_assoc]
    rfl

/-- A node that was started has no calls yet. -/
theorem Mirrors.start {config : NodeConfig} {ownerBase : Option Nat} {start : Node}
    (hstart : Node.start config ownerBase = .ok start) :
    Mirrors [] start (.start config.network ownerBase) id := by
  obtain rfl := start_eq_ok hstart
  refine ⟨rfl, rfl, rfl, ⟨fun _ _ h => ?_, fun _ _ h => ?_, fun _ _ h => ?_⟩, fun l hl => ?_,
    fun l hl => ?_, fun _ _ h => ?_⟩
  · cases h
  · cases h
  · exact absurd rfl h
  · rcases hl with ⟨_, _, h, -⟩ | ⟨_, _, h, -⟩ <;> cases h
  · cases hl
  · cases h

/-- The calls that the tasks of a node make are traffic, with what its host was asked for. -/
theorem exists_traffic {config : NodeConfig} {ownerBase : Option Nat} {start : Node}
    {moves : List Move} (hstart : Node.start config ownerBase = .ok start)
    (hids : (provisioned moves).Nodup) (hplay : start.play moves = some n) :
    ∃ t number, Traffic.Reachable config.network ownerBase t ∧
      t.log = (start.hostLog moves).reverse ∧ Mirrors (provisioned moves) n t number := by
  obtain ⟨t, number, ht, hlog, h⟩ :=
    (Mirrors.start hstart).play (tidy_start hstart) .start hids hplay
  exact ⟨t, number, ht, hlog.trans (List.append_nil _), h⟩

/-! ### What stands on the host -/

/-- It stands on the host for an instance: as the link or a rule of a slot that the instance
    holds, or for a call in progress. -/
def StandsFor (n : Node) (id : InstanceId) (b : HostCall) : Prop :=
  (∃ slot g, n.pool.slots.find? slot = some g ∧ g.holder = id ∧ b ∈ g.stock) ∨
    ∃ s job, n.job? s = some job ∧ job.call.holder = id ∧ b ∈ job.loose

/-- As long as the host takes down whatever it is asked to, whatever stands there stands for
    some instance. -/
theorem exists_standsFor {config : NodeConfig} {ownerBase : Option Nat} {start : Node}
    {moves : List Move} (hstart : Node.start config ownerBase = .ok start)
    (hids : (provisioned moves).Nodup) (hplay : start.play moves = some n)
    (hdel : ∀ e ∈ start.hostLog moves, e.1.isDeletion → e.2.isOk) {b : HostCall}
    (hb : b ∈ standing (start.hostLog moves)) : ∃ id, n.StandsFor id b := by
  obtain ⟨t, number, ht, hlog, hmirrors⟩ := exists_traffic hstart hids hplay
  have hdel' : t.DeletionsSucceed := fun e he => hdel e (List.mem_reverse.1 (hlog ▸ he))
  have hlive : t.live = standing (start.hostLog moves) := by
    rw [Traffic.live, hlog, List.foldr_reverse]
    rfl
  have hbooks : b ∈ t.pool.stock + t.loose := by
    rw [← Traffic.live_add_missing ht.balanced (ht.live_add_removed hdel'), hlive]
    exact Multiset.mem_add.2 (.inl (Multiset.mem_coe.2 hb))
  rcases Multiset.mem_add.1 hbooks with hstock | hloose
  · obtain ⟨slot, g, hfind, hkept⟩ := Table.mem_tally.1 hstock
    refine ⟨g.holder, .inl ⟨slot, g, hmirrors.pool ▸ hfind, rfl, ?_⟩⟩
    rw [Holding.kept] at hkept
    split at hkept
    · cases hkept
    · exact hkept
  · obtain ⟨k, job, hjob, hmem⟩ := Table.mem_tally.1 hloose
    obtain ⟨s, -, hs⟩ := hmirrors.jobs.isOwn k job hjob
    exact ⟨job.call.holder, .inr ⟨s, job, hs, rfl, hmem⟩⟩

end Node

end VmNode
