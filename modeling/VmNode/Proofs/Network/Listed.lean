import VmNode.Proofs.Network.Callers

/-!
# Ports of slots are ports of the host

A port is entered in two tables, that of its slot and that of the host. The first tells of
the second (`Pool.Listed`): a port that a slot has is published for this slot and for no
other. A call that publishes a port has reserved it (`Job.reservation?`), and takes the
reservation back when it fails, from whatever slot of that number is held by its instance.
So the tables agree only as long as no instance leases a slot anew while one of its ports is
being published (`Traffic.MayBegin`); then a call finds its own reservation
(`Reservation.Owned`), which no other call in progress has (`Traffic.Arises.listed`).
-/

namespace VmNode

/-- A port that is reserved while its rules go in. -/
structure Reservation where
  /-- The instance. -/
  holder : InstanceId
  /-- The slot. -/
  slot : Nat
  /-- The port of the host. -/
  port : UInt16
  deriving DecidableEq

/-- The reservation of a call that may take it back. -/
def Job.reservation? : Job → Option Reservation
  | .publish _ _ _ (.orphan ..) => none
  | .publish id n m _ => some ⟨id, n.slot.toNat, m.hostPort⟩
  | .lease .. | .release .. => none

/-- A port that a slot has is published for it. -/
def Pool.Listed (p : Pool) : Prop :=
  ∀ s g q, p.slots.find? s = some g → (g.ports.find? q).isSome → p.hostPorts.find? q = some s

/-- If the instance holds the slot, the port is published for it. -/
def Reservation.Owned (p : Pool) (r : Reservation) : Prop :=
  ∀ g, p.slots.find? r.slot = some g → g.holder = r.holder → p.hostPorts.find? r.port = some r.slot

/-- A later phase of a call has the reservation that the earlier one had, or none. -/
theorem Job.Follows.reservation? {a b : Job} {r : Reservation} (h : Follows a b)
    (hb : b.reservation? = some r) : a.reservation? = some r := by
  cases h with
  | lease | release | orphan => cases hb
  | @publish id n m phase phase' hphase =>
    have heq : some ⟨id, n.slot.toNat, m.hostPort⟩ = some r := by
      cases phase' <;> first | exact hb | cases hb
    cases phase <;> first | exact heq | exact absurd rfl (hphase _ _)

section Tables

variable {p : Pool} {s : Nat} {g g' : Holding} {r : Reservation}

/-- A slot changes, but not its ports. -/
theorem Pool.Listed.insert (hp : p.Listed) (hfind : p.slots.find? s = some g)
    (hports : ∀ q, (g'.ports.find? q).isSome → (g.ports.find? q).isSome) :
    Pool.Listed ⟨p.slots.insert s g', p.hostPorts⟩ := fun s' h q hh hq => by
  rcases Table.find?_insert_eq_some hh with ⟨rfl, rfl⟩ | ⟨-, hold⟩
  · exact hp s' g q hfind (hports q hq)
  · exact hp s' h q hold hq

/-- A slot changes, but not its holder. -/
theorem Reservation.Owned.insert (hr : r.Owned p) (hfind : p.slots.find? s = some g)
    (hholder : g'.holder = g.holder) : r.Owned ⟨p.slots.insert s g', p.hostPorts⟩ :=
  fun h hh hmine => by
    rcases Table.find?_insert_eq_some hh with ⟨rfl, rfl⟩ | ⟨-, hold⟩
    · exact hr g hfind (hholder ▸ hmine)
    · exact hr h hold hmine

/-- A slot is freed. -/
theorem Reservation.Owned.erase (hr : r.Owned p) :
    r.Owned ⟨p.slots.erase s, p.hostPorts⟩ := fun g hg hmine =>
  hr g (Table.find?_erase_eq_some hg).2 hmine

end Tables

/-! ### Steps on the pool -/

section Steps

variable {c : NetworkConfig} {ownerBase : Option Nat} {p p' : Pool} {progress : Progress}
variable {r : Reservation}

theorem Call.Begins.listed {call : Call} (h : call.Begins c ownerBase p p' progress)
    (hp : p.Listed) : p'.Listed := by
  cases h with
  | refused | known => exact hp
  | @lease id slot link htap hnone hlt hlink =>
    intro s g q hg hq
    rcases Table.find?_insert_eq_some hg with ⟨-, rfl⟩ | ⟨-, hold⟩
    · simp at hq
    · exact hp s g q hold hq
  | release hfind hholder hfree => exact hp.insert hfind fun _ hq => hq
  | @publish id n m g hport hfind hholder hfree =>
    intro s g' q hg hq
    by_cases hq' : q = m.hostPort
    · -- no slot had the port before
      subst hq'
      rcases Table.find?_insert_eq_some hg with ⟨rfl, -⟩ | ⟨-, hold⟩
      · exact Table.find?_insert_self ..
      · rw [hp s g' _ hold hq] at hport
        cases hport
    · change (p.hostPorts.insert _ _).find? q = some s
      rw [Table.find?_insert_of_ne _ _ hq']
      rcases Table.find?_insert_eq_some hg with ⟨rfl, rfl⟩ | ⟨-, hold⟩
      · exact hp _ g q hfind (by rwa [Table.find?_insert_of_ne _ _ hq'] at hq)
      · exact hp s g' q hold hq

/-- A call that begins leaves the others their reservations, unless it leases a slot for the
    same instance. -/
theorem Call.Begins.owned {call : Call} (h : call.Begins c ownerBase p p' progress)
    (hr : r.Owned p) (hother : call ≠ .lease r.holder) : r.Owned p' := by
  cases h with
  | refused | known => exact hr
  | @lease id slot link htap hnone hlt hlink =>
    intro g hg hmine
    rcases Table.find?_insert_eq_some hg with ⟨-, rfl⟩ | ⟨-, hold⟩
    · exact absurd (congrArg Call.lease hmine) hother
    · exact hr g hold hmine
  | release hfind hholder hfree => exact hr.insert hfind rfl
  | @publish id n m g hport hfind hholder hfree =>
    intro g' hg hmine
    -- a reservation of the same port would be published already
    have hheld : ∃ g, p.slots.find? r.slot = some g ∧ g.holder = r.holder := by
      rcases Table.find?_insert_eq_some hg with ⟨heq, rfl⟩ | ⟨-, hold⟩
      · exact ⟨g, heq ▸ hfind, hmine⟩
      · exact ⟨g', hold, hmine⟩
    obtain ⟨g₀, hfind₀, hmine₀⟩ := hheld
    have hlisted := hr g₀ hfind₀ hmine₀
    have hne : r.port ≠ m.hostPort := fun heq => by
      rw [heq, hport] at hlisted
      cases hlisted
    exact (Table.find?_insert_of_ne _ _ hne).trans hlisted

/-- A call that begins has its own reservation, which no call had before. -/
theorem Call.Begins.owned_self {call : Call} {job : Job}
    (h : call.Begins c ownerBase p p' (.going job)) (hr : job.reservation? = some r) :
    r.Owned p' ∧ ¬ r.Owned p := by
  generalize hprog : Progress.going job = progress at h
  cases h with
  | refused | known => cases hprog
  | lease | release =>
    cases hprog
    cases hr
  | @publish id n m g hport hfind hholder hfree =>
    cases hprog
    obtain rfl : (⟨id, n.slot.toNat, m.hostPort⟩ : Reservation) = r := Option.some.inj hr
    refine ⟨fun _ _ _ => Table.find?_insert_self .., fun howned => ?_⟩
    have hlisted := howned g hfind hholder
    rw [show p.hostPorts.find? _ = none from hport] at hlisted
    cases hlisted

theorem Job.Settles.listed {job : Job} (h : job.Settles p p' progress) (hp : p.Listed)
    (hjob : ∀ r, job.reservation? = some r → r.Owned p) : p'.Listed := by
  cases h with
  | @leased id slot link rules =>
    rw [Pool.record, Table.modify]
    split
    · exact hp
    · rename_i g hfind
      exact hp.insert hfind fun _ hq => hq
  | unleased => exact fun s g q hg hq => hp s g q (Table.find?_erase_eq_some hg).2 hq
  | @released l link =>
    intro s g q hg hq
    obtain ⟨hne, hold⟩ := Table.find?_erase_eq_some hg
    change (p.hostPorts.filter _).find? q = some s
    rw [Table.find?_filter, hp s g q hold hq]
    simpa using hne
  | @published id n m rules g port hfind hholder hfree hport =>
    refine hp.insert hfind fun q hq => ?_
    by_cases hq' : q = m.hostPort
    · rw [hq', hport]
      rfl
    · rwa [Table.find?_insert_of_ne _ _ hq'] at hq
  | orphaned | forgotten => exact hp
  | @unpublished id n m cause g hfind hholder =>
    -- the port that is taken back is that of no other slot
    have hmine := hjob _ rfl g hfind hholder
    intro s g' q hg hq
    have hport : p.hostPorts.find? q = some s ∧ q ≠ m.hostPort := by
      rcases Table.find?_insert_eq_some hg with ⟨rfl, rfl⟩ | ⟨hs, hold⟩
      · have hq' : q ≠ m.hostPort := fun heq => by simp [heq] at hq
        exact ⟨hp _ g q hfind (by rwa [Table.find?_erase_of_ne _ hq'] at hq), hq'⟩
      · have hlisted := hp s g' q hold hq
        refine ⟨hlisted, fun heq => hs ?_⟩
        rw [heq] at hlisted
        exact Option.some.inj (hlisted.symm.trans hmine)
    exact (Table.find?_erase_of_ne _ hport.2).trans hport.1

/-- A step of one call leaves the others their reservations. -/
theorem Job.Settles.owned {job : Job} (h : job.Settles p p' progress)
    (hjob : ∀ r, job.reservation? = some r → r.Owned p) (hr : r.Owned p)
    (hother : job.reservation? ≠ some r) : r.Owned p' := by
  cases h with
  | @leased id slot link rules =>
    rw [Pool.record, Table.modify]
    split
    · exact hr
    · rename_i g hfind
      exact hr.insert hfind rfl
  | unleased => exact hr.erase
  | @released l link =>
    intro g hg hmine
    obtain ⟨hne, hold⟩ := Table.find?_erase_eq_some hg
    change (p.hostPorts.filter _).find? r.port = some r.slot
    rw [Table.find?_filter, hr g hold hmine]
    simpa using hne
  | published hfind hholder hfree hport => exact hr.insert hfind rfl
  | orphaned | forgotten => exact hr
  | @unpublished id n m cause g hfind hholder =>
    -- the same port would be that of the same slot, and so of the same instance
    have hmine := hjob _ rfl g hfind hholder
    intro g' hg hholder'
    have hlisted : p.hostPorts.find? r.port = some r.slot := by
      rcases Table.find?_insert_eq_some hg with ⟨heq, rfl⟩ | ⟨-, hold⟩
      · exact hr g (heq ▸ hfind) hholder'
      · exact hr g' hold hholder'
    have hne : r.port ≠ m.hostPort := fun heq => by
      rw [heq] at hlisted
      have hslot : n.slot.toNat = r.slot := Option.some.inj (hmine.symm.trans hlisted)
      have hholder'' : id = r.holder := by
        rw [← hholder', ← hholder]
        rcases Table.find?_insert_eq_some hg with ⟨-, rfl⟩ | ⟨hs, -⟩
        · rfl
        · exact absurd hslot.symm hs
      exact hother (congrArg some (by rw [hslot, hholder'', ← heq]))
    exact (Table.find?_erase_of_ne _ hne).trans hlisted

end Steps

namespace Traffic

/-- Callers lease for no instance while a port is being published for it. -/
def MayBegin (t : Traffic) (call : Call) : Prop :=
  ∀ id, call = .lease id → ∀ n i m phase, t.jobs.find? n ≠ some (.publish id i m phase)

/-- The tables of ports agree, and each call finds the reservation that it alone has. -/
structure Listed (t : Traffic) : Prop where
  /-- Slots list the ports that the table of ports gives them. -/
  listed : t.pool.Listed
  /-- A call that publishes a port finds it reserved for it. -/
  owned : ∀ n job r, t.jobs.find? n = some job → job.reservation? = some r → r.Owned t.pool
  /-- Two calls do not have the same reservation. -/
  sole : ∀ m n a b, m ≠ n → t.jobs.find? m = some a → t.jobs.find? n = some b →
    ∀ r, a.reservation? = some r → b.reservation? ≠ some r

namespace Listed

variable {t u : Traffic}

theorem start (c : NetworkConfig) (ownerBase : Option Nat) : (start c ownerBase).Listed where
  listed := fun s g q h => by simp [Traffic.start, Pool.empty] at h
  owned := fun n job r h => by simp [Traffic.start] at h
  sole := fun m n a b _ h => by simp [Traffic.start] at h

/-- One call takes a step, and all find their reservations. -/
theorem setProgress {n : Nat} {progress : Progress} (hlisted : t.pool.Listed)
    (hmine : ∀ job r, progress = .going job → job.reservation? = some r → r.Owned t.pool)
    (hothers : ∀ m j r, m ≠ n → t.jobs.find? m = some j → j.reservation? = some r →
      r.Owned t.pool)
    (hsole : ∀ job, progress = .going job → ∀ m j, m ≠ n → t.jobs.find? m = some j →
      ∀ r, job.reservation? = some r → j.reservation? ≠ some r)
    (hbefore : ∀ m k a b, m ≠ k → t.jobs.find? m = some a → t.jobs.find? k = some b →
      ∀ r, a.reservation? = some r → b.reservation? ≠ some r) :
    (t.setProgress n progress).Listed := by
  refine ⟨by simpa using hlisted, fun m job r h hr => ?_,
    pairwise_jobs_setProgress
      (R := fun a b => ∀ r, a.reservation? = some r → b.reservation? ≠ some r)
      (fun a b hab r hb ha => hab r ha hb) hsole hbefore⟩
  rw [pool_setProgress]
  rcases find?_jobs_setProgress_eq_some h with ⟨-, hprog⟩ | ⟨hm, hold⟩
  · exact hmine job r hprog hr
  · exact hothers m job r hm hold hr

theorem move (ht : t.Listed) (h : t.Move MayBegin u) : u.Listed := by
  cases h with
  | @begin call p progress hmay hbegins =>
    refine setProgress (hbegins.listed ht.listed) (fun job r hprog hr => ?_)
      (fun m j r _ hj hr => ?_) (fun job hprog m j _ hj r hr hr' => ?_) ht.sole
    · subst hprog
      exact (hbegins.owned_self hr).1
    · -- an instance that leases a slot has no port in the making
      refine hbegins.owned (ht.owned m j r hj hr) fun hlease => ?_
      cases j with
      | lease | release => cases hr
      | publish id i k phase =>
        have hid : r.holder = id := by cases phase <;> cases hr <;> rfl
        exact hmay r.holder hlease m i k phase (hid ▸ hj)
    · subst hprog
      exact (hbegins.owned_self hr).2 (ht.owned m j r hj hr')
  | @settle n job p progress hjob hsettles =>
    have hmine := fun r hr => ht.owned n job r hjob hr
    refine setProgress (hsettles.listed ht.listed hmine) (fun next r hprog hr => ?_)
      (fun m j r hm hj hr => ?_) (fun next hprog m j hm hj r hr => ?_) ht.sole
    · subst hprog
      obtain ⟨rfl, hfollows⟩ := hsettles.follows
      exact hmine r (hfollows.reservation? hr)
    · exact hsettles.owned hmine (ht.owned m j r hj hr) (ht.sole m n j job hm hj hjob r hr)
    · subst hprog
      exact ht.sole n m job j hm.symm hjob hj r (hsettles.follows.2.reservation? hr)
  | @answer n job host result hjob hhost =>
    refine setProgress ht.listed (fun next r hprog hr => ?_) (fun m j r _ hj => ht.owned m j r hj)
      (fun next hprog m j hm hj r hr => ?_) ht.sole
    · exact ht.owned n job r hjob ((Job.follows_answer hprog).reservation? hr)
    · exact ht.sole n m job j hm.symm hjob hj r ((Job.follows_answer hprog).reservation? hr)

end Listed

variable {c : NetworkConfig} {ownerBase : Option Nat} {t : Traffic}

/-- As long as no instance leases a slot while one of its ports is being published, a port
    that a slot has is published for it. -/
theorem Arises.listed (h : Arises MayBegin c ownerBase t) : t.Listed :=
  h.of_moves Listed (.start c ownerBase) fun _ _ _ ih hmove => ih.move hmove

/-- An instance that leases a slot for the first time has no port in the making. -/
theorem Reachable.mayBegin {call : Call} (h : Reachable c ownerBase t) (hadmits : t.admits call) :
    t.MayBegin call := by
  rintro id rfl n i m phase hjob
  exact h.orderly.sound.beside hadmits hjob (.inr rfl) rfl

end Traffic

end VmNode
