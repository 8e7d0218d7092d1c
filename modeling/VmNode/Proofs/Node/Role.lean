import VmNode.Node.Move
import VmNode.Proofs.Network.Hold

/-!
# Parts in the life of an instance

Tasks of several kinds work on one instance: the call that provisions it, calls that
deprovision it, the monitor of its process. What matters of a task to the others is the
part that it has at the moment (`Role`), and what matters of the instance is what its
record and the consoles show (`View`).

A role relies on the view (`Role.Fits`), and a view that is not final tells which role
somebody has (`View.Covered`). The steps that change a view are few (`Stride`). None of
them takes from other roles what they rely on (`Stride.fits_others`), and each leaves a
view that somebody looks after (`Stride.covered`).
-/

namespace VmNode

/-- The part that a task has in the life of an instance, if it has one. -/
inductive Role where
  /-- It is going to ask for a slot. -/
  | asking
  /-- A slot is leased, and there is no record yet. -/
  | leasing
  /-- The record is there, and the console is to be opened. -/
  | opening
  /-- The hypervisor is launched. -/
  | launching
  /-- The record has its process and is to become `running`. -/
  | entering
  /-- The record became `failed` and is to be taken out. -/
  | failing
  /-- The record is taken out. What it held and the console are given up. -/
  | clearing
  /-- The record is final and is to be taken out. -/
  | reaping
  /-- The process is stopped, and the lease is still in the record. -/
  | stopping
  /-- The lease is given back, and the record is to become `stopped`. -/
  | returning
  /-- The record became `stopped`, and the console is to be given up. -/
  | stopped
  /-- The console is given up, and the record is to be taken out. -/
  | leaving
  deriving DecidableEq

/-- What the registry says of an instance. -/
structure Status where
  /-- The state. -/
  state : InstanceState
  /-- The record has the handle of a process. -/
  hasProcess : Bool
  /-- The lease in the record. -/
  lease : Option Lease

/-- What a node shows of an instance. -/
structure View where
  /-- What the registry says, if there is a record. -/
  status : Option Status
  /-- There is a console. -/
  hasConsole : Bool

/-- What the registry says of a record. -/
def Record.status {π : Type} (r : Record π) : Status := ⟨r.state, r.process.isSome, r.lease⟩

/-- What a node shows of an instance. -/
def Node.view (n : Node) (id : InstanceId) : View :=
  ⟨(n.registry.records.find? id).map Record.status, (n.hub.current.find? id).isSome⟩

/-- The hold in a lease, if there is one. -/
def leaseHolds (lease : Option Lease) : Multiset Hold := lease.elim 0 Lease.holds

/-- The hold in a record, if there is one. -/
def View.holds (v : View) : Multiset Hold := v.status.elim 0 fun s => leaseHolds s.lease

/-! ### What roles rely on -/

namespace Role

/-- What a role relies on. -/
def Fits : Role → View → Prop
  | asking, v | leasing, v => v.status = none ∧ v.hasConsole = false
  | opening, v =>
    (∃ l, v.status = some ⟨.provisioning, false, some l⟩) ∧ v.hasConsole = false
  | launching, v => (∃ l, v.status = some ⟨.provisioning, false, some l⟩) ∧ v.hasConsole = true
  | entering, v => (∃ l, v.status = some ⟨.provisioning, true, some l⟩) ∧ v.hasConsole = true
  | failing, v =>
    v.status = none ∨ (∃ lease, v.status = some ⟨.failed, false, lease⟩) ∧ v.hasConsole = true
  | clearing, v => v.status = none
  | reaping, v => v.status = none ∨ ∃ s, v.status = some s ∧ s.state.isFinal = true
  | stopping, v =>
    (∃ l, v.status = some ⟨.deprovisioning, true, some l⟩) ∧ v.hasConsole = true
  | returning, v => v.status = some ⟨.deprovisioning, true, none⟩ ∧ v.hasConsole = true
  | stopped, v => v.status = none ∨ v.status = some ⟨.stopped, true, none⟩
  | leaving, v =>
    (v.status = none ∨ v.status = some ⟨.stopped, true, none⟩) ∧ v.hasConsole = false

/-- There is no record yet. -/
def isFresh : Role → Bool
  | asking | leasing => true
  | _ => false

/-- The record is `provisioning`. -/
def isRaising : Role → Bool
  | opening | launching | entering => true
  | _ => false

/-- The record is `deprovisioning`. -/
def isFelling : Role → Bool
  | stopping | returning => true
  | _ => false

/-- The instance has stopped, and its record is about to be taken out. -/
def isStopped : Role → Bool
  | stopped | leaving => true
  | _ => false

/-- Two tasks can have these roles for one instance. Whoever has no record yet is alone,
    and one task at most moves the record on. -/
structure Apart (r q : Role) : Prop where
  /-- Neither of them is yet to register the instance. -/
  fresh : r.isFresh = false ∧ q.isFresh = false
  /-- One task at most provisions the instance. -/
  raising : r.isRaising = false ∨ q.isRaising = false
  /-- One task at most shuts it down. -/
  felling : r.isFelling = false ∨ q.isFelling = false

theorem Apart.symm {r q : Role} (h : r.Apart q) : q.Apart r :=
  ⟨h.fresh.symm, h.raising.symm, h.felling.symm⟩

end Role

namespace Role.Fits

variable {q : Role} {s : Status} {status : Option Status} {console : Bool}

/-- Nobody relies on a record that is `running`: the process may go away, and any call may
    begin to shut the instance down. Only who moves it on relies on one that is
    `provisioning` or `deprovisioning`. -/
theorem standing (hq : q.Fits ⟨some s, console⟩) :
    s.state = .provisioning ∧ q.isRaising = true ∨ s.state = .deprovisioning ∧ q.isFelling = true ∨
      s.state.isFinal = true := by
  cases q with
  | asking | leasing =>
    obtain ⟨h, -⟩ := hq
    cases h
  | clearing => cases hq
  | opening | launching | entering =>
    obtain ⟨⟨l, h⟩, -⟩ := hq
    cases h
    exact .inl ⟨rfl, rfl⟩
  | stopping =>
    obtain ⟨⟨l, h⟩, -⟩ := hq
    cases h
    exact .inr (.inl ⟨rfl, rfl⟩)
  | returning =>
    obtain ⟨h, -⟩ := hq
    cases h
    exact .inr (.inl ⟨rfl, rfl⟩)
  | failing =>
    rcases hq with h | ⟨⟨lease, h⟩, -⟩ <;> cases h
    exact .inr (.inr rfl)
  | reaping =>
    rcases hq with h | ⟨s', h, hfinal⟩ <;> cases h
    exact .inr (.inr hfinal)
  | stopped =>
    rcases hq with h | h <;> cases h
    exact .inr (.inr rfl)
  | leaving =>
    rcases hq with ⟨h | h, -⟩ <;> cases h
    exact .inr (.inr rfl)

theorem of_provisioning (hq : q.Fits ⟨some s, console⟩) (hs : s.state = .provisioning) :
    q.isRaising = true := by
  rcases hq.standing with ⟨-, h⟩ | ⟨h, -⟩ | h
  · exact h
  · rw [hs] at h
    cases h
  · rw [hs] at h
    cases h

theorem of_deprovisioning (hq : q.Fits ⟨some s, console⟩) (hs : s.state = .deprovisioning) :
    q.isFelling = true := by
  rcases hq.standing with ⟨h, -⟩ | ⟨-, h⟩ | h
  · rw [hs] at h
    cases h
  · exact h
  · rw [hs] at h
    cases h

theorem not_running (hq : q.Fits ⟨some s, console⟩) : s.state ≠ .running := fun hs => by
  rcases hq.standing with ⟨h, -⟩ | ⟨h, -⟩ | h
  all_goals
    rw [hs] at h
    cases h

/-- A final record may be taken out at any time. -/
theorem remove (hq : q.Fits ⟨some s, console⟩) (hfinal : s.state.isFinal = true) :
    q.Fits ⟨none, console⟩ := by
  cases q with
  | asking | leasing =>
    obtain ⟨h, -⟩ := hq
    cases h
  | clearing => cases hq
  | opening | launching | entering | stopping =>
    obtain ⟨⟨l, h⟩, -⟩ := hq
    cases h
    cases hfinal
  | returning =>
    obtain ⟨h, -⟩ := hq
    cases h
    cases hfinal
  | failing | reaping | stopped => exact .inl rfl
  | leaving => exact ⟨.inl rfl, hq.2⟩

/-- The console of an instance that has stopped, or has no record any more, may be given up
    at any time. -/
theorem close (hq : q.Fits ⟨status, console⟩)
    (hstatus : status = none ∨ status = some ⟨.stopped, true, none⟩) : q.Fits ⟨status, false⟩ := by
  cases q with
  | asking | leasing | leaving => exact ⟨hq.1, rfl⟩
  | opening | launching | entering | stopping =>
    obtain ⟨⟨l, h⟩, -⟩ := hq
    rcases hstatus with rfl | rfl <;> cases h
  | returning =>
    obtain ⟨h, -⟩ := hq
    rcases hstatus with rfl | rfl <;> cases h
  | failing =>
    rcases hstatus with rfl | rfl
    · exact .inl rfl
    · rcases hq with h | ⟨⟨lease, h⟩, -⟩ <;> cases h
  | clearing | reaping | stopped => exact hq

end Role.Fits

/-- Somebody looks after a view that is not one to stay, where `has` says which roles
    tasks have. Without any role, an instance is running with its process and its lease, or
    failed without both, and has a console exactly if it has a record. -/
def View.Covered (id : InstanceId) (has : Role → Prop) (v : View) : Prop :=
  match v.status with
  | none => v.hasConsole = true → has .clearing
  | some s => (∀ l, s.lease = some l → l.holder = id) ∧
    match s.state with
    | .provisioning => has .opening ∨ has .launching ∨ has .entering
    | .running => s.hasProcess = true ∧ s.lease.isSome = true ∧ v.hasConsole = true
    | .deprovisioning => has .stopping ∨ has .returning
    | .stopped => has .stopped ∨ has .leaving
    | .failed => s.hasProcess = false ∧ (s.lease = none ∨ has .failing) ∧ v.hasConsole = true

/-! ### Steps -/

/-- A step of a task, with the role that it has for an instance, the hold that it has, and
    the view of the instance, before and after the step. -/
inductive Stride (id : InstanceId) :
    Option Role → Multiset Hold → View → Option Role → Multiset Hold → View → Prop
  /-- Nothing happens to the instance. -/
  | still {r : Option Role} {h : Multiset Hold} {v : View} : Stride id r h v r h v
  /-- A record is inserted that holds the lease. -/
  | insert {l : Lease} {console : Bool} : l.holder = id →
    Stride id (some .leasing) l.holds ⟨none, console⟩
      (some .opening) 0 ⟨some ⟨.provisioning, false, some l⟩, console⟩
  /-- The console is opened. -/
  | openConsole {s : Option Status} {console : Bool} :
    Stride id (some .opening) 0 ⟨s, console⟩ (some .launching) 0 ⟨s, true⟩
  /-- The record gets its process. -/
  | attach {p : Bool} {lease : Option Lease} {console : Bool} :
    Stride id (some .launching) 0 ⟨some ⟨.provisioning, p, lease⟩, console⟩
      (some .entering) 0 ⟨some ⟨.provisioning, true, lease⟩, console⟩
  /-- The instance runs. -/
  | run {p : Bool} {lease : Option Lease} {console : Bool} :
    Stride id (some .entering) 0 ⟨some ⟨.provisioning, p, lease⟩, console⟩
      none 0 ⟨some ⟨.running, p, lease⟩, console⟩
  /-- The launch failed. -/
  | fail {p : Bool} {lease : Option Lease} {console : Bool} :
    Stride id (some .launching) 0 ⟨some ⟨.provisioning, p, lease⟩, console⟩
      (some .failing) 0 ⟨some ⟨.failed, p, lease⟩, console⟩
  /-- The process of a running instance has gone away. -/
  | crash {p : Bool} {lease : Option Lease} {console : Bool} :
    Stride id none 0 ⟨some ⟨.running, p, lease⟩, console⟩
      none (leaseHolds lease) ⟨some ⟨.failed, false, none⟩, console⟩
  /-- A running instance begins to be shut down. -/
  | shutDown {p : Bool} {lease : Option Lease} {console : Bool} :
    Stride id none 0 ⟨some ⟨.running, p, lease⟩, console⟩
      (some .stopping) 0 ⟨some ⟨.deprovisioning, p, lease⟩, console⟩
  /-- The lease is taken out of the record. -/
  | takeLease {p : Bool} {l : Lease} {console : Bool} :
    Stride id (some .stopping) 0 ⟨some ⟨.deprovisioning, p, some l⟩, console⟩
      (some .returning) l.holds ⟨some ⟨.deprovisioning, p, none⟩, console⟩
  /-- The instance has stopped. -/
  | stop {p : Bool} {lease : Option Lease} {console : Bool} :
    Stride id (some .returning) 0 ⟨some ⟨.deprovisioning, p, lease⟩, console⟩
      (some .stopped) 0 ⟨some ⟨.stopped, p, lease⟩, console⟩
  /-- The console of an instance that has stopped is given up. -/
  | closeConsole {s : Option Status} {console : Bool} :
    Stride id (some .stopped) 0 ⟨s, console⟩ (some .leaving) 0 ⟨s, false⟩
  /-- An instance is found to be in a final state. -/
  | find {s : Status} {console : Bool} : s.state.isFinal = true →
    Stride id none 0 ⟨some s, console⟩ (some .reaping) 0 ⟨some s, console⟩
  /-- A record is taken out, with the lease if it has one. -/
  | remove {r : Role} {s : Status} {console : Bool} : r = .failing ∨ r = .reaping →
    Stride id (some r) 0 ⟨some s, console⟩ (some .clearing) (leaseHolds s.lease) ⟨none, console⟩
  /-- A record is taken out that somebody else has taken out already. -/
  | miss {console : Bool} :
    Stride id (some .failing) 0 ⟨none, console⟩ (some .clearing) 0 ⟨none, console⟩
  /-- The record of a final instance is taken out that somebody else has taken out
      already. -/
  | pass {console : Bool} :
    Stride id (some .reaping) 0 ⟨none, console⟩ none 0 ⟨none, console⟩
  /-- The record of an instance that has stopped is taken out. -/
  | withdraw {s : Option Status} {console : Bool} :
    Stride id (some .leaving) 0 ⟨s, console⟩ none 0 ⟨none, console⟩
  /-- The console is given up whose record is taken out. -/
  | clear {s : Option Status} {console : Bool} :
    Stride id (some .clearing) 0 ⟨s, console⟩ none 0 ⟨s, false⟩

namespace Stride

variable {id : InstanceId} {r r' : Option Role} {h h' : Multiset Hold} {v v' : View}

/-- A record is taken out that has this lease, or none. -/
theorem take {r : Role} {s : Status} {l : Option Lease} {console : Bool} (hlease : s.lease = l)
    (hr : r = .failing ∨ r = .reaping) :
    Stride id (some r) 0 ⟨some s, console⟩ (some .clearing) (leaseHolds l) ⟨none, console⟩ :=
  hlease ▸ .remove hr

/-- Who has no record after a step had none before. -/
theorem of_isFresh {q : Role} (hs : Stride id r h v (some q) h' v') (hfresh : q.isFresh = true) :
    r = some q := by
  cases hs <;> first | rfl | cases hfresh

/-- After a step a role finds what it relies on. -/
theorem fits (hs : Stride id r h v r' h' v') (hv : ∀ q, r = some q → q.Fits v)
    {has : Role → Prop} (hcovered : v.Covered id has) : ∀ q, r' = some q → q.Fits v' := by
  rintro q rfl
  cases hs with
  | still => exact hv q rfl
  | insert | openConsole | attach | fail | takeLease | stop | closeConsole | miss =>
    have := hv _ rfl
    simp_all [Role.Fits]
  | shutDown =>
    -- the record was `running`, where every instance has all that it needs
    simp_all [Role.Fits, View.Covered, Option.isSome_iff_exists]
  | find hfinal => exact .inr ⟨_, rfl, hfinal⟩
  | remove => rfl

/-- A step takes from other roles nothing that they rely on. -/
theorem fits_others (hs : Stride id r h v r' h' v') (hv : ∀ q, r = some q → q.Fits v) {q : Role}
    (hq : q.Fits v) (hapart : ∀ o, r = some o → o.Apart q) : q.Fits v' := by
  cases hs with
  | still | find | miss | pass => exact hq
  | insert => exact absurd (hapart _ rfl).fresh.1 (by simp [Role.isFresh])
  | openConsole =>
    -- the record is `provisioning`, and whoever moves it on is alone
    obtain ⟨⟨l, hl⟩, -⟩ : _ ∧ _ := hv _ rfl
    cases hl
    exact absurd (hq.of_provisioning rfl) (by simpa [Role.isRaising] using (hapart _ rfl).raising)
  | attach | run | fail =>
    exact absurd (hq.of_provisioning rfl) (by simpa [Role.isRaising] using (hapart _ rfl).raising)
  | crash | shutDown => exact absurd rfl hq.not_running
  | takeLease | stop =>
    exact absurd (hq.of_deprovisioning rfl) (by simpa [Role.isFelling] using (hapart _ rfl).felling)
  | closeConsole => exact hq.close (hv _ rfl)
  | @remove o s console ho =>
    refine hq.remove ?_
    rcases ho with rfl | rfl
    · rcases hv _ rfl with hs | ⟨⟨lease, hs⟩, -⟩ <;> cases hs
      rfl
    · rcases hv _ rfl with hs | ⟨_, hs, hfinal⟩ <;> cases hs
      exact hfinal
  | withdraw =>
    rcases (hv _ rfl).1 with hs | hs <;> cases hs
    · exact hq
    · exact hq.remove rfl
  | clear => exact hq.close (.inl (hv _ rfl))

/-- A step gives a task no role that another task's role excludes. -/
theorem apart (hs : Stride id r h v r' h' v') {q : Role} (hq : q.Fits v)
    (hapart : ∀ o, r = some o → o.Apart q) : ∀ o, r' = some o → o.Apart q := by
  rintro o rfl
  cases hs with
  | still => exact hapart o rfl
  | insert => exact absurd (hapart _ rfl).fresh.1 (by simp [Role.isFresh])
  | openConsole | attach | takeLease =>
    obtain ⟨hfresh, hraising, hfelling⟩ := hapart _ rfl
    exact ⟨⟨rfl, hfresh.2⟩, hraising, hfelling⟩
  | fail | stop | closeConsole | remove | miss =>
    obtain ⟨hfresh, hraising, hfelling⟩ := hapart _ rfl
    exact ⟨⟨rfl, hfresh.2⟩, .inl rfl, .inl rfl⟩
  | shutDown => exact absurd rfl hq.not_running
  | find =>
    have hfresh : q.isFresh = false := by
      cases q with
      | asking | leasing =>
        obtain ⟨h, -⟩ := hq
        cases h
      | _ => rfl
    exact ⟨⟨rfl, hfresh⟩, .inl rfl, .inl rfl⟩

/-- After a step somebody looks after the view that is not one to stay. -/
theorem covered (hs : Stride id r h v r' h' v') (hv : ∀ q, r = some q → q.Fits v)
    {others : Role → Prop} (hcovered : v.Covered id fun q => r = some q ∨ others q) :
    v'.Covered id fun q => r' = some q ∨ others q := by
  cases hs with
  | still => exact hcovered
  | @insert l console hholder =>
    exact ⟨fun l' hl => Option.some.inj hl ▸ hholder, .inl (.inl rfl)⟩
  | openConsole =>
    obtain ⟨⟨l, hl⟩, -⟩ : _ ∧ _ := hv _ rfl
    cases hl
    exact ⟨hcovered.1, .inr (.inl (.inl rfl))⟩
  | attach => exact ⟨hcovered.1, .inr (.inr (.inl rfl))⟩
  | run =>
    obtain ⟨⟨l, hl⟩, hconsole⟩ : _ ∧ _ := hv _ rfl
    cases hl
    exact ⟨hcovered.1, rfl, rfl, hconsole⟩
  | fail =>
    obtain ⟨⟨l, hl⟩, hconsole⟩ : _ ∧ _ := hv _ rfl
    cases hl
    exact ⟨hcovered.1, rfl, .inr (.inl rfl), hconsole⟩
  | crash =>
    obtain ⟨-, -, -, hconsole⟩ := hcovered
    exact ⟨fun l hl => (by cases hl), rfl, .inl rfl, hconsole⟩
  | shutDown => exact ⟨hcovered.1, .inl (.inl rfl)⟩
  | takeLease => exact ⟨fun l hl => (by cases hl), .inr (.inl rfl)⟩
  | stop => exact ⟨hcovered.1, .inl (.inl rfl)⟩
  | closeConsole =>
    rcases hv _ rfl with hs | hs <;> cases hs
    · exact fun hconsole => by cases hconsole
    · exact ⟨fun l hl => (by cases hl), .inr (.inl rfl)⟩
  | @find s console hfinal =>
    -- whoever looked after the view does so still, and it was not this task
    obtain ⟨state, p, lease⟩ := s
    obtain ⟨hlease, hstate⟩ := hcovered
    refine ⟨hlease, ?_⟩
    cases state with
    | provisioning | running | deprovisioning => cases hfinal
    | stopped =>
      exact hstate.imp (fun h => .inr (h.resolve_left (by simp))) fun h =>
        .inr (h.resolve_left (by simp))
    | failed =>
      obtain ⟨hprocess, hfailing, hconsole⟩ := hstate
      exact ⟨hprocess, hfailing.imp_right fun h => .inr (h.resolve_left (by simp)), hconsole⟩
  | remove | miss => exact fun _ => .inl rfl
  | pass => exact fun hconsole => .inr ((hcovered hconsole).resolve_left (by simp))
  | withdraw =>
    obtain ⟨-, hconsole⟩ : _ ∧ _ := hv _ rfl
    exact fun h => absurd (hconsole.symm.trans h) (by simp)
  | clear =>
    obtain hs : _ = none := hv _ rfl
    cases hs
    exact fun h => by cases h

/-- What the instance holds passes from the record to the task and the other way round. -/
theorem holds (hs : Stride id r h v r' h' v') (hv : ∀ q, r = some q → q.Fits v) :
    h + v.holds = h' + v'.holds := by
  cases hs with
  | withdraw =>
    -- a record that is taken out at last has no lease
    rcases (hv _ rfl).1 with hs | hs <;> cases hs <;> rfl
  | insert | takeLease | remove | crash => exact add_comm _ _
  | _ => rfl

/-- Whoever gives the lease of an instance back has just taken it out of the record, or goes
    on as before. -/
theorem of_returning (hs : Stride id r h v (some .returning) h' v') :
    r = some .returning ∧ h' = h ∨ ∃ s l, v.status = some s ∧ s.lease = some l ∧ h' = l.holds := by
  cases hs with
  | still => exact .inl ⟨rfl, rfl⟩
  | takeLease => exact .inr ⟨_, _, rfl, rfl, rfl⟩

/-- An instance stops when its lease has been given back. -/
theorem of_isStopped {q : Role} (hs : Stride id r h v (some q) h' v') (hq : q.isStopped = true) :
    (∃ o, r = some o ∧ o.isStopped = true) ∨ r = some .returning ∧ h = 0 := by
  cases hs with
  | still => exact .inl ⟨q, rfl, hq⟩
  | stop => exact .inr ⟨rfl, rfl⟩
  | closeConsole => exact .inl ⟨_, rfl, rfl⟩
  | insert | openConsole | attach | fail | shutDown | takeLease | find | remove | miss => cases hq

/-- A record that is being shut down stays until the instance has stopped. -/
theorem of_felled (hs : Stride id r h v r' h' v') (hv : ∀ q, r = some q → q.Fits v) {s : Status}
    (hstatus : v.status = some s) (hstate : s.state = .deprovisioning ∨ s.state = .stopped) :
    (∃ s', v'.status = some s' ∧ (s'.state = .deprovisioning ∨ s'.state = .stopped)) ∨
      v'.status = none ∧ s.state = .stopped := by
  cases hs with
  | still => exact .inl ⟨s, hstatus, hstate⟩
  | openConsole | closeConsole | clear | find => exact .inl ⟨s, hstatus, hstate⟩
  | insert | miss | pass => cases hstatus
  | attach | run | fail | crash | shutDown =>
    cases hstatus
    rcases hstate with h | h <;> cases h
  | takeLease => exact .inl ⟨_, rfl, .inl rfl⟩
  | stop => exact .inl ⟨_, rfl, .inr rfl⟩
  | @remove o s' console ho =>
    -- only a final record is taken out, so it is not `deprovisioning`
    obtain rfl := Option.some.inj hstatus
    refine .inr ⟨rfl, hstate.resolve_left fun hd => ?_⟩
    have hfits := hv o rfl
    rcases ho with rfl | rfl
    · rcases hfits with hs | ⟨⟨lease, hs⟩, -⟩ <;> cases hs
      cases hd
    · rcases hfits with hs | ⟨_, hs, hfinal⟩ <;> cases hs
      rw [hd] at hfinal
      cases hfinal
  | withdraw =>
    refine .inr ⟨rfl, ?_⟩
    rcases (hv _ rfl).1 with hs | hs
    · cases hs.symm.trans hstatus
    · obtain rfl := Option.some.inj (hs.symm.trans hstatus)
      rfl

/-- Only a task that has a slot for a new instance inserts a record. -/
theorem status_eq_none (hs : Stride id r h v r' h' v') (hr : ∀ q, r = some q → q.isFresh = false)
    (hstatus : v.status = none) : v'.status = none := by
  cases hs with
  | insert => cases hr _ rfl
  | still | openConsole | closeConsole | clear => exact hstatus
  | remove | miss | pass | withdraw => rfl
  | attach | run | fail | crash | shutDown | takeLease | stop | find => cases hstatus

end Stride

end VmNode
