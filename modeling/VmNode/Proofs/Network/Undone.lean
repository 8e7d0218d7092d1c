import VmNode.Proofs.Network.Listed
import VmNode.Proofs.Network.Run

/-!
# Calls that fail change nothing

A call that runs alone, on a host that takes down whatever it is asked to but may fail to
build anything, either succeeds or leaves the allocator and the host as they were. While it
goes on, the pool differs from what it was by what the call has reserved (`Job.Reserves`),
and what stands on the host by what is on the books of the call; when it fails it has taken
back the one and taken down the other (`Undoes.answer`, `Undoes.settle`). Rules can be equal
to those of other slots, so what stands there is counted.

This needs the two tables of ports to agree (`Pool.Listed`). They may not after an instance
has leased a slot while a port was being published for its former one: a port that fails
then takes its reservation back from the new lease (`Traffic.pool_ne_afterRelet`).
-/

namespace VmNode

/-! ### What stands on the host -/

/-- What takes something down that stands there leaves the rest, and what builds something
    adds it. -/
theorem HostCall.coe_applyTo {call : HostCall} {live : List HostCall}
    (h : call.removed ≤ (live : Multiset HostCall)) :
    (call.applyTo live : Multiset HostCall) + call.removed = live + call.built := by
  have herase : ∀ b ∈ live, ((live.erase b : List HostCall) : Multiset HostCall) + {b} = live :=
    fun b hb => by
      rw [← Multiset.coe_erase, add_comm]
      exact Multiset.cons_erase (Multiset.mem_coe.2 hb)
  cases call with
  | createLink | appendRule => exact (add_zero _).trans (Multiset.coe_add _ _).symm
  | deleteLink | deleteRule =>
    exact (herase _ (Multiset.mem_coe.1 (Multiset.singleton_le.1 h))).trans (add_zero _).symm

/-- A call that takes something down misses nothing. -/
theorem Job.missing_of_isDeletion {job : Job} {call : HostCall} (hcall : job.hostCall? = some call)
    (hdel : call.isDeletion) : job.missing = 0 := by
  cases job with
  | lease id slot link phase =>
    cases phase with
    | create | install =>
      cases hcall
      cases hdel
    | undo | unlink => rfl
    | record | abandon => cases hcall
  | release | publish => rfl

/-- The first error among what a host was asked for. -/
def HostCall.firstError (steps : List (HostCall × Except Error Unit)) : Option Error :=
  steps.findSome? fun step => HostCall.error? step.2

theorem HostCall.firstError_concat (steps : List (HostCall × Except Error Unit))
    (step : HostCall × Except Error Unit) :
    firstError (steps ++ [step]) = (firstError steps).or (error? step.2) := by
  rw [firstError, List.findSome?_append]
  cases h : error? step.2 <;> simp [firstError, h]

/-! ### Calls that run alone -/

namespace Traffic

/-- What a host fails to build, and with which error: it may depend on all that the host was
    asked for before, the last step first. -/
abbrev Failures := List (HostCall × Except Error Unit) → HostCall → Option Error

/-- What a host answers that takes down whatever it is asked to. -/
def hostAnswer (fails : Failures) (t : Traffic) (call : HostCall) : Except Error Unit :=
  if call.isDeletion then .ok ()
  else
    match fails t.log call with
    | none => .ok ()
    | some e => .error e

/-- Asks such a host for a step. -/
def ask (fails : Failures) (t : Traffic) (call : HostCall) : Traffic × Except Error Unit :=
  ({ t with log := (call, t.hostAnswer fails call) :: t.log }, t.hostAnswer fails call)

/-- Makes a call on such a host, with no step of another call between its steps. -/
def alone (fails : Failures) (t : Traffic) (call : Call) : Traffic × Except Error Reply :=
  call.run t.config t.ownerBase pool (fun t pool => { t with pool }) (ask fails) t

variable {fails : Failures}

theorem hostAnswer_of_isDeletion {t : Traffic} {call : HostCall} (h : call.isDeletion) :
    t.hostAnswer fails call = .ok () := if_pos h

/-- What the host was asked for stands there afterwards, or no longer. -/
theorem live_ask (fails : Failures) {t : Traffic} {call : HostCall}
    (h : call.removed ≤ (t.live : Multiset HostCall)) :
    ((t.ask fails call).1.live : Multiset HostCall) + call.removed =
      t.live + if (t.hostAnswer fails call).isOk then call.built else 0 := by
  change ((if (t.hostAnswer fails call).isOk then call.applyTo t.live else t.live : List HostCall) :
    Multiset HostCall) + call.removed = _
  cases hdel : call.isDeletion with
  | true =>
    rw [hostAnswer_of_isDeletion hdel]
    exact HostCall.coe_applyTo h
  | false =>
    split
    · exact HostCall.coe_applyTo h
    · rw [(HostCall.eq_append_of_not_isDeletion hdel).1]

end Traffic

/-! ### What a call has reserved -/

/-- The slot was given back before the port was published. -/
def PublishPhase.isOrphan : PublishPhase → Bool
  | .orphan .. => true
  | .install .. | .record _ | .undo .. | .abandon _ => false

@[simp] theorem PublishPhase.isOrphan_installing (done rest : List FirewallRule) :
    (installing done rest).isOrphan = false := by
  cases rest <;> rfl

@[simp] theorem PublishPhase.isOrphan_undoing (cause : Error) (rest : List FirewallRule) :
    (undoing cause rest).isOrphan = false := by
  cases rest <;> rfl

namespace Job

/-- The pool `p` is `p₀` but for what the call has reserved: a slot, or a port of the slot
    that its instance holds. -/
def Reserves (p₀ p : Pool) : Job → Prop
  | .lease id slot link _ =>
    p₀.slots.find? slot = none ∧
      p = { p₀ with slots := p₀.slots.insert slot ⟨id, link, [], .empty, false⟩ }
  | .release .. => False
  | .publish id n m phase =>
    phase.isOrphan = false ∧ ∃ g, p₀.slots.find? n.slot.toNat = some g ∧ g.holder = id ∧
      g.releasing = false ∧ g.ports.find? m.hostPort = none ∧
      p₀.hostPorts.find? m.hostPort = none ∧
      p = ⟨p₀.slots.insert n.slot.toNat
          { g with ports := g.ports.insert m.hostPort ⟨m.guestPort, []⟩ },
        p₀.hostPorts.insert m.hostPort n.slot.toNat⟩

/-- The link that a call is about, and that was not there before. -/
def due : Job → Multiset HostCall
  | .lease _ _ link _ => {.createLink link}
  | .release .. | .publish .. => 0

/-- A call that has reserved something goes on after a step on the host. -/
theorem Reserves.answer {c : NetworkConfig} {p₀ p : Pool} {job : Job} (h : job.Reserves p₀ p)
    (result : Except Error Unit) :
    ∃ next, job.answer c result = .going next ∧ next.Reserves p₀ p ∧ next.due = job.due := by
  cases job with
  | lease id slot link phase => cases phase <;> cases result <;> exact ⟨_, rfl, h, rfl⟩
  | release => cases h
  | publish id n m phase =>
    obtain ⟨hphase, hport⟩ := h
    cases phase with
    | orphan => cases hphase
    | install | record | undo | abandon =>
      cases result <;>
        exact ⟨_, rfl, ⟨by first | rfl | exact PublishPhase.isOrphan_installing .. |
          exact PublishPhase.isOrphan_undoing .., hport⟩, rfl⟩

/-- What a call takes down is on its books, or the link that it is about. -/
theorem Reserves.removed_le {p₀ p : Pool} {job : Job} {call : HostCall}
    (h : job.Reserves p₀ p) (hcall : job.hostCall? = some call) :
    call.removed ≤ job.due + job.loose := by
  rcases job.removed_le hcall with hle | ⟨id, slot, link, cause, rfl, hremoved⟩
  · exact hle.trans (Multiset.le_add_left _ _)
  · rw [hremoved]
    exact Multiset.le_add_right _ _

/-- When a call that has reserved something ends, it ends well, or it has taken back its
    reservation. -/
theorem Reserves.settle {p₀ p : Pool} {job : Job} (h : job.Reserves p₀ p)
    (hcall : job.hostCall? = none) :
    (∃ reply, (job.settle p).2 = .done (.ok reply)) ∨
      ∃ e, job.settle p = (p₀, .done (.error e)) ∧ job.cause? = some e ∧
        job.missing = job.due ∧ job.loose = 0 := by
  cases job with
  | lease id slot link phase =>
    obtain ⟨hnone, rfl⟩ := h
    cases phase with
    | create | install | undo | unlink => cases hcall
    -- what was reserved is still there, so the rules are written down
    | record rules => exact .inl ⟨_, rfl⟩
    | abandon cause =>
      -- the slot was free before it was taken
      refine .inr ⟨cause, ?_, rfl, rfl, rfl⟩
      have hslots : (p₀.slots.insert slot ⟨id, link, [], .empty, false⟩).erase slot = p₀.slots :=
        Table.erase_insert_of_none hnone _
      rw [Job.settle, Pool.abandon, hslots]
  | release => cases h
  | publish id n m phase =>
    obtain ⟨hphase, g, hfind, hholder, hfree, hport, hhost, rfl⟩ := h
    have hheld : Pool.heldBy? ⟨p₀.slots.insert n.slot.toNat
        { g with ports := g.ports.insert m.hostPort ⟨m.guestPort, []⟩ },
        p₀.hostPorts.insert m.hostPort n.slot.toNat⟩ n.slot.toNat id =
        some { g with ports := g.ports.insert m.hostPort ⟨m.guestPort, []⟩ } :=
      Pool.heldBy?_eq_some.2 ⟨Table.find?_insert_self .., hholder⟩
    cases phase with
    | install | undo => cases hcall
    | orphan => cases hphase
    | record rules =>
      refine .inl ⟨.published true, ?_⟩
      rw [Job.settle, Pool.recordPort?, hheld]
      simp only [hfree, Bool.false_eq_true, if_false, Table.find?_insert_self]
    | abandon cause =>
      -- neither the slot nor the table of ports had the port before it was reserved
      refine .inr ⟨cause, ?_, rfl, rfl, rfl⟩
      have hports : (g.ports.insert m.hostPort ⟨m.guestPort, []⟩).erase m.hostPort = g.ports :=
        Table.erase_insert_of_none hport _
      have hhosts : (p₀.hostPorts.insert m.hostPort n.slot.toNat).erase m.hostPort = p₀.hostPorts :=
        Table.erase_insert_of_none hhost _
      have hslots : (p₀.slots.insert n.slot.toNat
          { g with ports := g.ports.insert m.hostPort ⟨m.guestPort, []⟩ }).insert n.slot.toNat g =
          p₀.slots := by
        rw [Table.insert_insert, Table.insert_eq_self hfind]
      rw [Job.settle, Pool.abandonPort, hheld]
      simp only [hports, hhosts, hslots]

end Job

/-! ### While a call goes on -/

/-- A call that runs alone since `t₀` has come as far as `t`: what it has reserved and built
    is on its books, and it takes it down if the host has failed it. -/
structure Undoes (t₀ t : Traffic) (job : Job) : Prop where
  /-- The pool differs in what the call has reserved, and in nothing else. -/
  reserves : job.Reserves t₀.pool t.pool
  /-- What the host has more than before, the call is to undo. -/
  live : (t.live : Multiset HostCall) + job.missing = t₀.live + (job.due + job.loose)
  /-- The error that the call gives up at is the first one of the host. -/
  asked : ∃ steps, t.log = steps.reverse ++ t₀.log ∧ HostCall.firstError steps = job.cause?

/-- A call that has run alone since `t₀` and ended with an error in `t` has changed nothing,
    and the error is the first one of the host, if the host was asked for anything. -/
structure Undone (t₀ t : Traffic) (e : Error) : Prop where
  /-- The pool is as it was. -/
  pool : t.pool = t₀.pool
  /-- The host has what it had. -/
  live : (t.live : Multiset HostCall) = t₀.live
  /-- The error is the first one of the host. -/
  asked : ∃ steps, t.log = steps.reverse ++ t₀.log ∧
    (steps = [] ∨ HostCall.firstError steps = some e)

namespace Undoes

variable {t₀ t : Traffic} {job : Job}

theorem answer (c : NetworkConfig) (fails : Traffic.Failures) {call : HostCall}
    (h : Undoes t₀ t job) (hcall : job.hostCall? = some call) :
    ∃ next, job.answer c (t.hostAnswer fails call) = .going next ∧
      Undoes t₀ (t.ask fails call).1 next := by
  obtain ⟨next, hnext, hreserves, hdue⟩ := h.reserves.answer (c := c) (t.hostAnswer fails call)
  refine ⟨next, hnext, hreserves, ?_, ?_⟩
  · -- what is taken down stands there: it is on the books, and not missing
    have hremoved : call.removed ≤ (t.live : Multiset HostCall) := by
      cases hdel : call.isDeletion with
      | true =>
        calc call.removed
          _ ≤ job.due + job.loose := h.reserves.removed_le hcall
          _ ≤ t₀.live + (job.due + job.loose) := Multiset.le_add_left _ _
          _ = t.live + job.missing := h.live.symm
          _ = t.live := by rw [Job.missing_of_isDeletion hcall hdel, add_zero]
      | false =>
        rw [(HostCall.eq_append_of_not_isDeletion hdel).1]
        exact Multiset.zero_le _
    have hbooks := job.stock_answer c (t.hostAnswer fails call) hcall
    rw [hnext, Progress.missing_going, Progress.loose_going] at hbooks
    -- both sides are compared thing by thing
    refine Multiset.ext.2 fun x => ?_
    have h₁ := congrArg (Multiset.count x) h.live
    have h₂ := congrArg (Multiset.count x) hbooks
    have h₃ := congrArg (Multiset.count x) (Traffic.live_ask fails hremoved)
    rw [hdue]
    simp only [Multiset.count_add] at h₁ h₂ h₃ ⊢
    omega
  · obtain ⟨steps, hlog, hcause⟩ := h.asked
    refine ⟨steps ++ [(call, t.hostAnswer fails call)], ?_, ?_⟩
    · change (call, t.hostAnswer fails call) :: t.log = _
      rw [hlog, List.reverse_append]
      rfl
    · rw [HostCall.firstError_concat, hcause, Job.cause?_answer hcall hnext]
      congr 1
      split
      · rename_i hdel
        rw [Traffic.hostAnswer_of_isDeletion hdel]
        rfl
      · rfl

theorem settle (h : Undoes t₀ t job) (hcall : job.hostCall? = none) :
    (∃ reply, (job.settle t.pool).2 = .done (.ok reply)) ∨
      ∃ e, (job.settle t.pool).2 = .done (.error e) ∧
        Undone t₀ { t with pool := (job.settle t.pool).1 } e := by
  rcases h.reserves.settle hcall with hok | ⟨e, hsettle, hcause, hmissing, hloose⟩
  · exact .inl hok
  · obtain ⟨steps, hlog, herror⟩ := h.asked
    refine .inr ⟨e, by rw [hsettle], by rw [hsettle], ?_, steps, hlog, .inr (herror.trans hcause)⟩
    have hlive := h.live
    rw [hmissing, hloose, add_zero] at hlive
    exact add_right_cancel hlive

end Undoes

/-! ### From the first step on -/

namespace Traffic

variable {c : NetworkConfig} {ownerBase : Option Nat} {t : Traffic}
variable {fails : Failures}

/-- A call begins by being over, or by giving a slot back, or with what it may have to undo
    on its books. -/
theorem undoes_begin (ht : t.pool.Listed) (call : Call) :
    (call.begin t.config t.ownerBase t.pool).2.Meets
      (fun job => (∃ l link phase, job = .release l link phase) ∨
        Undoes t { t with pool := (call.begin t.config t.ownerBase t.pool).1 } job)
      (fun outcome => ∀ e, outcome = .error e →
        Undone t { t with pool := (call.begin t.config t.ownerBase t.pool).1 } e) := by
  have hbegins := call.begins t.config t.ownerBase t.pool
  generalize (call.begin t.config t.ownerBase t.pool).1 = p,
    (call.begin t.config t.ownerBase t.pool).2 = progress at hbegins
  cases hbegins with
  | refused => exact fun e _ => ⟨rfl, rfl, [], rfl, .inl rfl⟩
  | lease htap hnone hlt hlink =>
    exact .inr ⟨⟨hnone, rfl⟩, congrArg _ (add_zero _).symm, [], rfl, rfl⟩
  | release => exact .inl ⟨_, _, _, rfl⟩
  | known => exact fun e he => by cases he
  | @publish id n m g hport hfind hholder hfree =>
    have hnone : g.ports.find? m.hostPort = none := by
      by_contra hsome
      have hlisted := ht _ g _ hfind (Option.isSome_iff_ne_none.2 hsome)
      rw [hport] at hlisted
      cases hlisted
    refine .inr ⟨⟨PublishPhase.isOrphan_installing .., g, hfind, hholder, hfree, hnone, hport, rfl⟩,
      ?_, [], rfl, ?_⟩
    · rw [Job.loose, PublishPhase.loose_installing]
      rfl
    · rw [Job.cause?, PublishPhase.cause?_installing]
      rfl

/-- A call that runs alone and ends with an error leaves the slots, their rules and ports,
    the published ports and what stands on the host as they were, as often as it stood
    there, and the error is the first one of the host, if the host was asked for anything:
    in whatever state calls have brought the allocator, if no instance has leased a slot
    while one of its ports was being published. -/
theorem undone_of_error (h : Arises MayBegin c ownerBase t) {call : Call} {e : Error}
    (herror : (t.alone fails call).2 = .error e) : Undone t (t.alone fails call).1 e := by
  let I (u : Traffic) (job : Job) : Prop :=
    (∃ l link phase, job = .release l link phase) ∨ Undoes t u job
  let Q (u : Traffic) (outcome : Except Error Reply) : Prop :=
    ∀ e, outcome = .error e → Undone t u e
  refine Call.run_meets (I := I) (Q := Q) (undoes_begin h.listed.listed call)
    (fun u job call hjob hcall => ?_) (fun u job hjob hcall => ?_) e herror
  · rcases hjob with ⟨l, link, phase, rfl⟩ | hundoes
    · cases phase with
      | remove | unlink => exact .inl ⟨_, _, _, rfl⟩
      | vacate => cases hcall
    · obtain ⟨next, hnext, hundoes'⟩ := hundoes.answer t.config fails hcall
      rw [show (u.ask fails call).2 = u.hostAnswer fails call from rfl, hnext]
      exact .inr hundoes'
  · rcases hjob with ⟨l, link, phase, rfl⟩ | hundoes
    · cases phase with
      | remove | unlink => cases hcall
      | vacate => exact fun e he => by cases he
    · rcases hundoes.settle hcall with ⟨reply, hdone⟩ | ⟨e, hdone, hundone⟩
      · rw [hdone]
        exact fun e he => by cases he
      · rw [hdone]
        exact fun e' he => by cases he; exact hundone

/-- A slot is leased. -/
def oneLease : List Event :=
  let ok : Event := .answer 0 (.ok ())
  [.begin (.lease "i-1"), ok, ok, ok, ok, .settle 0]

/-- A host that installs no rule once it was asked for more than five things. -/
def failsLater : Failures
  | log, .appendRule _ => if 5 < log.length then some (.network "no chain") else none
  | _, _ => none

/-- A second slot is free again after the second of its rules could not be installed. -/
theorem undone_failsLater : ∃ t, (start {} none).play oneLease = some t ∧
    (t.alone failsLater (.lease "i-2")).2 = .error (.network "no chain") ∧
    Undone t (t.alone failsLater (.lease "i-2")).1 (.network "no chain") := by
  let t := ((start {} none).play oneLease).get (by decide +kernel)
  have hplay : (start {} none).play oneLease = some t := (Option.some_get _).symm
  have herror : (t.alone failsLater (.lease "i-2")).2 = .error (.network "no chain") := by
    decide +kernel
  have harises := (Reachable.start.play hplay).arises fun _ _ h hadmits => h.mayBegin hadmits
  exact ⟨t, hplay, herror, undone_of_error harises herror⟩

/-- While a port is being published for the first instance, its slot is given back and it
    leases it again, and the second instance publishes the same port of the host. Then the
    first port fails, and takes the reservation of the second away. -/
def afterRelet : List Event :=
  let l := Job.leaseOf "i-1" 0 (Pool.linkFor {} none "i-1" 0)
  let l' := Job.leaseOf "i-2" 1 (Pool.linkFor {} none "i-2" 1)
  let ok (n : Nat) : Event := .answer n (.ok ())
  [.begin (.lease "i-1"), ok 0, ok 0, ok 0, ok 0, .settle 0,
    .begin (.lease "i-2"), ok 1, ok 1, ok 1, ok 1, .settle 1,
    .begin (.publish "i-1" l.info ⟨80, 8080⟩),
    .begin (.release l), ok 3, ok 3, ok 3, ok 3, .settle 3,
    .begin (.lease "i-1"), ok 4, ok 4, ok 4, ok 4, .settle 4,
    .begin (.publish "i-2" l'.info ⟨80, 8080⟩), ok 5, ok 5, .settle 5,
    .answer 2 (.error (.network "no chain")), .settle 2]

/-- No call is in progress then, but the second instance loses its port when it asks to
    publish another one there and the host fails. -/
theorem pool_ne_afterRelet : ∃ t call e, Arises (fun _ _ => True) {} none t ∧ t.isIdle = true ∧
    (t.alone (fun _ _ => some (.network "no chain")) call).2 = .error e ∧
    (t.alone (fun _ _ => some (.network "no chain")) call).1.pool ≠ t.pool := by
  let t := ((start {} none).playFreely afterRelet).get (by decide +kernel)
  have hplay : (start {} none).playFreely afterRelet = some t := (Option.some_get _).symm
  let l := Job.leaseOf "i-2" 1 (Pool.linkFor {} none "i-2" 1)
  exact ⟨t, .publish "i-2" l.info ⟨80, 9090⟩, .network "no chain", Arises.start.playFreely hplay,
    by decide +kernel, by decide +kernel, by decide +kernel⟩

end Traffic

end VmNode
