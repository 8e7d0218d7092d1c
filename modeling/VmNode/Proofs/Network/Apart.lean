import VmNode.Proofs.Network.Regular

/-!
# What calls rely on

A call in progress relies on the pool between its steps (`Job.Fits`): the slot that it
sets up or gives back is as it left it, and a port that it publishes is reserved as long
as the slot is held. Two calls that rely on different things are apart (`Job.Apart`).

A step of one call takes nothing from a call that is apart from it (`Job.Settles.fits`,
`Call.Begins.fits`), and a call that begins is apart from those in progress
(`Call.Begins.apart`), as long as nobody asks for anything for an instance whose slot is
still being set up.
-/

namespace VmNode

/-! ### Calls in progress together -/

/-- The instance that a call is for. -/
def Call.holder : Call → InstanceId
  | .lease id => id
  | .release l => l.holder
  | .publish id _ _ => id

/-- Whether a call leases a slot. -/
def Call.isLease : Call → Bool
  | .lease _ => true
  | .release _ | .publish .. => false

/-- Two calls can be in progress together: while a slot is set up for an instance, no
    other call is for that instance. -/
def Call.Beside (a b : Call) : Prop := a.isLease ∨ b.isLease → a.holder ≠ b.holder

namespace Job

/-- Two calls rely on different things. -/
def Apart : Job → Job → Prop
  | .lease _ s _ _, .lease _ s' _ _ => s ≠ s'
  | .lease _ s _ _, .release l _ _ | .release l _ _, .lease _ s _ _ => s ≠ l.slot
  | .lease id _ _ _, .publish id' _ _ _ | .publish id _ _ _, .lease id' _ _ _ => id ≠ id'
  | .release l _ _, .release l' _ _ => l.slot ≠ l'.slot
  | .release .., .publish .. | .publish .., .release .. => True
  | .publish _ _ _ (.orphan ..), .publish .. | .publish .., .publish _ _ _ (.orphan ..) => True
  | .publish id n m _, .publish id' n' m' _ =>
    n.slot.toNat = n'.slot.toNat → id = id' → m.hostPort ≠ m'.hostPort

/-- Which of two calls comes first makes no difference. -/
theorem Apart.symm {a b : Job} (h : a.Apart b) : b.Apart a := by
  cases a with
  | lease | release => cases b <;> simp_all [Apart, ne_comm]
  | publish id n m phase =>
    cases b with
    | lease | release => simp_all [Apart, ne_comm]
    | publish id' n' m' phase' => cases phase <;> cases phase' <;> simp_all [Apart, eq_comm]

/-- One phase of a call comes after another. -/
inductive Follows : Job → Job → Prop
  /-- A lease is made for one instance, in one slot. -/
  | lease {id : InstanceId} {slot : Nat} {link : GuestLink} {phase phase' : LeasePhase} :
      Follows (.lease id slot link phase) (.lease id slot link phase')
  /-- One lease is given back. -/
  | release {l : Lease} {link : GuestLink} {phase phase' : ReleasePhase} :
      Follows (.release l link phase) (.release l link phase')
  /-- The rules of one port are installed or undone. -/
  | publish {id : InstanceId} {n : NetworkInfo} {m : PortMapping} {phase phase' : PublishPhase} :
      (∀ rule rest, phase ≠ .orphan rule rest) →
      Follows (.publish id n m phase) (.publish id n m phase')
  /-- The rules of a port are removed, of which the slot knows nothing any more. -/
  | orphan {id : InstanceId} {n : NetworkInfo} {m : PortMapping} {phase : PublishPhase}
      {rule : FirewallRule} {rest : List FirewallRule} :
      Follows (.publish id n m phase) (.publish id n m (.orphan rule rest))

/-- A later phase of a call relies on the same. -/
theorem Follows.fits {p : Pool} {a b : Job} (h : Follows a b) (ha : a.Fits p) : b.Fits p := by
  cases h with
  | lease | release => exact ha
  | publish hphase =>
    rename_i phase phase'
    cases phase <;> cases phase' <;> first | exact ha | trivial | exact absurd rfl (hphase _ _)
  | orphan => trivial

/-- So it is apart from the same calls. -/
theorem Follows.apart {a b j : Job} (h : Follows a b) (ha : a.Apart j) : b.Apart j := by
  cases h with
  | lease | release => cases j <;> exact ha
  | publish hphase =>
    rename_i phase phase'
    cases j with
    | lease | release => exact ha
    | publish id n m other =>
      cases phase <;> cases phase' <;> cases other <;>
        first | exact ha | trivial | exact absurd rfl (hphase _ _)
  | orphan => cases j <;> first | exact ha | trivial

/-- A step on the host leads to a later phase of the same call. -/
theorem follows_answer {c : NetworkConfig} {result : Except Error Unit} {a b : Job}
    (h : a.answer c result = .going b) : Follows a b := by
  cases a with
  | lease id slot link phase =>
    cases phase <;> cases result <;>
      (simp only [answer, Progress.going.injEq] at h; subst h; exact .lease)
  | release l link phase =>
    cases phase <;> (simp only [answer, Progress.going.injEq] at h; subst h; exact .release)
  | publish id n m phase =>
    cases phase with
    | orphan rule rest =>
      cases rest with
      | nil => simp [answer, orphaned] at h
      | cons =>
        simp only [answer, orphaned, Progress.going.injEq] at h
        exact h ▸ .orphan
    | install | record | undo | abandon =>
      cases result <;>
        (simp only [answer, Progress.going.injEq] at h; subst h; exact .publish (by simp))

/-- A call that goes on after a step on the pool has left the pool as it was. -/
theorem Settles.follows {p p' : Pool} {a b : Job} (h : a.Settles p p' (.going b)) :
    p' = p ∧ Follows a b := by
  generalize hprog : Progress.going b = progress at h
  cases h with
  | @orphaned id n m rules hlost =>
    cases hr : rules.reverse with
    | nil => simp [hr, Job.orphaned] at hprog
    | cons =>
      simp only [hr, Job.orphaned, Progress.going.injEq] at hprog
      exact ⟨rfl, hprog ▸ .orphan⟩
  | leased | unleased | released | published | unpublished | forgotten => cases hprog

/-- The slot that a call is about. -/
def slot : Job → Nat
  | .lease _ s _ _ => s
  | .release l _ _ => l.slot
  | .publish _ n _ _ => n.slot.toNat

/-- A call relies on its slot alone. -/
theorem Fits.congr {p p' : Pool} {j : Job} (hj : j.Fits p)
    (h : p'.slots.find? j.slot = p.slots.find? j.slot) : j.Fits p' := by
  cases j with
  | lease | release =>
    simp only [slot] at h
    simpa only [Fits, h] using hj
  | publish id n m phase =>
    simp only [slot] at h
    cases phase <;> first | trivial | simpa only [Fits, h] using hj

/-- What a port in the making relies on, whatever phase it is in. -/
theorem fits_publish {p : Pool} {id : InstanceId} {n : NetworkInfo} {m : PortMapping}
    {phase : PublishPhase}
    (h : (∀ rule rest, phase ≠ .orphan rule rest) → ∀ g, p.slots.find? n.slot.toNat = some g →
      g.holder = id → g.ports.find? m.hostPort = some ⟨m.guestPort, []⟩) :
    (Job.publish id n m phase).Fits p := by
  cases phase with
  | orphan => trivial
  | install | record | undo | abandon => exact h (by simp)

/-- The port of a call that publishes it is reserved, as long as the slot is held and the call did
    not find it given back. -/
theorem Fits.port {p : Pool} {id : InstanceId} {n : NetworkInfo} {m : PortMapping}
    {phase : PublishPhase} (h : (Job.publish id n m phase).Fits p)
    (hphase : ∀ rule rest, phase ≠ .orphan rule rest) {g : Holding}
    (hfind : p.slots.find? n.slot.toNat = some g) (hholder : g.holder = id) :
    g.ports.find? m.hostPort = some ⟨m.guestPort, []⟩ := by
  cases phase with
  | orphan => exact absurd rfl (hphase _ _)
  | install | record | undo | abandon => exact h g hfind hholder

/-- Two calls for one slot publish different ports. -/
theorem Apart.port {id id' : InstanceId} {n n' : NetworkInfo} {m m' : PortMapping}
    {phase phase' : PublishPhase}
    (h : (Job.publish id n m phase).Apart (.publish id' n' m' phase'))
    (hphase : ∀ rule rest, phase ≠ .orphan rule rest)
    (hphase' : ∀ rule rest, phase' ≠ .orphan rule rest) (hslot : n.slot.toNat = n'.slot.toNat)
    (hid : id = id') : m.hostPort ≠ m'.hostPort := by
  cases phase <;> cases phase' <;>
    first | exact h hslot hid | exact absurd rfl (hphase _ _) | exact absurd rfl (hphase' _ _)

/-- When two ports in the making are apart, whatever phase each is in. -/
theorem apart_publish {id id' : InstanceId} {n n' : NetworkInfo} {m m' : PortMapping}
    {phase phase' : PublishPhase}
    (h : (∀ rule rest, phase ≠ .orphan rule rest) → (∀ rule rest, phase' ≠ .orphan rule rest) →
      n.slot.toNat = n'.slot.toNat → id = id' → m.hostPort ≠ m'.hostPort) :
    (Job.publish id n m phase).Apart (.publish id' n' m' phase') := by
  cases phase <;> cases phase' <;> first | trivial | exact h (by simp) (by simp)

/-! ### Steps of other calls -/

section

variable {p : Pool} {j : Job} {s : Nat} {ports : Table UInt16 Nat}

/-- A slot is freed. Only a port in the making goes on, and relies on nothing any more. -/
theorem Fits.of_erase (hj : j.Fits p)
    (hpublish : j.slot = s → ∃ id n m phase, j = .publish id n m phase) :
    j.Fits ⟨p.slots.erase s, ports⟩ := by
  by_cases hs : j.slot = s
  · obtain ⟨id, n, m, phase, rfl⟩ := hpublish hs
    refine fits_publish fun _ g hfind _ => ?_
    rw [show n.slot.toNat = s from hs, Table.find?_erase_self] at hfind
    cases hfind
  · exact hj.congr (Table.find?_erase_of_ne _ hs)

/-- One port of a slot changes that is held. No call relies on this port that is in progress, and
    the slot is not being set up for its holder. -/
theorem Fits.of_port {g g' : Holding} {q : UInt16} (hj : j.Fits p)
    (hfind : p.slots.find? s = some g) (hholder : g'.holder = g.holder) (hlink : g'.link = g.link)
    (hleaving : g'.releasing = g.releasing)
    (hsame : ∀ q', q' ≠ q → g'.ports.find? q' = g.ports.find? q')
    (hlease : ∀ {id link phase}, j = .lease id s link phase → g.holder ≠ id)
    (hport : ∀ {id n m phase}, j = .publish id n m phase →
      (∀ rule rest, phase ≠ .orphan rule rest) → n.slot.toNat = s → g.holder = id →
      m.hostPort ≠ q) :
    j.Fits ⟨p.slots.insert s g', ports⟩ := by
  by_cases hs : j.slot = s
  · cases j with
    | lease id s' link phase =>
      obtain rfl : s' = s := hs
      obtain rfl := Option.some.inj (Eq.trans (Eq.symm hj) hfind)
      exact absurd rfl (hlease rfl)
    | release l link phase =>
      obtain rfl : l.slot = s := hs
      obtain ⟨g₀, hfind₀, hholder₀, hlink₀, hleaving₀⟩ := hj
      obtain rfl := Option.some.inj (hfind₀.symm.trans hfind)
      exact ⟨g', Table.find?_insert_self .., hholder.trans hholder₀, hlink.trans hlink₀,
        hleaving.trans hleaving₀⟩
    | publish id n m phase =>
      obtain rfl : n.slot.toNat = s := hs
      refine fits_publish fun hphase g₀ hfind₀ hholder₀ => ?_
      rw [Table.find?_insert_self, Option.some.injEq] at hfind₀
      subst hfind₀
      have hid := hholder.symm.trans hholder₀
      rw [hsame _ (hport rfl hphase rfl hid)]
      exact hj.port hphase hfind hid
  · exact hj.congr (Table.find?_insert_of_ne _ _ hs)

/-- What a call for a port makes of its port, another call does not notice that is apart. -/
theorem Fits.of_apart {id : InstanceId} {n : NetworkInfo} {m : PortMapping} {phase : PublishPhase}
    {g g' : Holding} (hj : j.Fits p) (hapart : (Job.publish id n m phase).Apart j)
    (hphase : ∀ rule rest, phase ≠ .orphan rule rest)
    (hfind : p.slots.find? n.slot.toNat = some g) (hholder : g.holder = id)
    (hholder' : g'.holder = g.holder) (hlink : g'.link = g.link)
    (hleaving : g'.releasing = g.releasing)
    (hsame : ∀ q, q ≠ m.hostPort → g'.ports.find? q = g.ports.find? q) :
    j.Fits ⟨p.slots.insert n.slot.toNat g', ports⟩ := by
  refine hj.of_port hfind hholder' hlink hleaving hsame ?_ ?_
  · rintro _ _ _ rfl heq
    exact hapart (hholder.symm.trans heq)
  · rintro _ _ _ _ rfl hphase' hs hid
    exact (hapart.port hphase hphase' hs.symm (hholder.symm.trans hid)).symm

end

/-- A step of one call takes nothing from another that is apart from it. -/
theorem Settles.fits {p p' : Pool} {progress : Progress} {a j : Job}
    (h : a.Settles p p' progress) (ha : a.Fits p) (hj : j.Fits p) (hapart : a.Apart j) :
    j.Fits p' := by
  -- only what happens to the slot of the other call matters to it
  cases h with
  | @leased id s link rules =>
    by_cases hs : j.slot = s
    · cases j with
      | lease | release => exact absurd hs.symm hapart
      | publish id' n' m' phase =>
        -- the slot is held by another instance
        refine fits_publish fun hphase g hfind hholder => ?_
        rw [Pool.record, show n'.slot.toNat = s from hs, Table.find?_modify_self, ha] at hfind
        cases hfind
        exact absurd hholder hapart
    · exact hj.congr (Table.find?_modify_of_ne _ _ hs)
  | @unleased id s link cause =>
    refine hj.of_erase fun hs => ?_
    cases j with
    | lease | release => exact absurd hs.symm hapart
    | publish => exact ⟨_, _, _, _, rfl⟩
  | @released l link =>
    refine hj.of_erase fun hs => ?_
    cases j with
    | lease => exact absurd hs hapart
    | release => exact absurd hs.symm hapart
    | publish => exact ⟨_, _, _, _, rfl⟩
  | published hfind hholder =>
    exact hj.of_apart hapart (by simp) hfind hholder rfl rfl rfl fun _ hq =>
      Table.find?_insert_of_ne _ _ hq
  | orphaned | forgotten => exact hj
  | unpublished hfind hholder =>
    exact hj.of_apart hapart (by simp) hfind hholder rfl rfl rfl fun _ hq =>
      Table.find?_erase_of_ne _ hq

end Job

/-! ### Calls that begin -/

namespace Call.Begins

variable {c : NetworkConfig} {ownerBase : Option Nat} {p p' : Pool} {progress : Progress}
variable {call : Call} {job j : Job}

/-- The first step of a call takes nothing from a call in progress. -/
theorem fits (h : call.Begins c ownerBase p p' progress) (hp : p.Regular c ownerBase)
    (hj : j.Fits p) (hbeside : j.call.Beside call) : j.Fits p' := by
  cases h with
  | refused | known => exact hj
  | @lease id s link htap hnone hlt hlink =>
    by_cases hs : j.slot = s
    · cases j with
      | lease id' s' link' phase =>
        rw [Job.Fits, show s' = s from hs, hnone] at hj
        cases hj
      | release l link' phase =>
        obtain ⟨g, hfind, -⟩ := hj
        rw [show l.slot = s from hs, hnone] at hfind
        cases hfind
      | publish id' n' m' phase =>
        -- the slot is taken by another instance
        refine Job.fits_publish fun hphase g hfind hholder => ?_
        rw [show n'.slot.toNat = s from hs, Table.find?_insert_self, Option.some.injEq] at hfind
        subst hfind
        exact absurd hholder.symm (hbeside (.inr rfl))
    · exact hj.congr (Table.find?_insert_of_ne _ _ hs)
  | @release l g hfind hholder hfree =>
    by_cases hs : j.slot = l.slot
    · cases j with
      | lease id' s' link' phase =>
        rw [Job.Fits, show s' = l.slot from hs, hfind, Option.some.injEq] at hj
        subst hj
        exact absurd hholder (hbeside (.inl rfl))
      | release l' link' phase =>
        obtain ⟨g', hfind', -, -, hleaving⟩ := hj
        rw [show l'.slot = l.slot from hs, hfind, Option.some.injEq] at hfind'
        subst hfind'
        rw [hfree] at hleaving
        cases hleaving
      | publish id' n' m' phase =>
        refine Job.fits_publish fun hphase g' hfind' hholder' => ?_
        rw [show n'.slot.toNat = l.slot from hs, Table.find?_insert_self,
          Option.some.injEq] at hfind'
        subst hfind'
        exact hj.port (g := g) hphase (by rw [show n'.slot.toNat = l.slot from hs]; exact hfind)
          hholder'
    · exact hj.congr (Table.find?_insert_of_ne _ _ hs)
  | @publish id n m g hport hfind hholder hfree =>
    refine hj.of_port hfind rfl rfl rfl (fun q hq => Table.find?_insert_of_ne _ _ hq) ?_ ?_
    · rintro _ _ _ rfl
      exact fun heq => hbeside (.inl rfl) (heq.symm.trans hholder)
    · rintro _ _ _ _ rfl hphase hs hid heq
      -- a port that is reserved is not reserved again
      have hmine := hj.port hphase (by rw [hs]; exact hfind) hid
      rw [heq, hp.find?_ports_eq_none hport hfind] at hmine
      cases hmine

/-- A call that begins finds in the pool what it relies on. -/
theorem fits_job (h : call.Begins c ownerBase p p' (.going job)) : job.Fits p' := by
  generalize hprog : Progress.going job = progress at h
  cases h with
  | refused | known => cases hprog
  | lease =>
    cases hprog
    exact Table.find?_insert_self ..
  | @release l g hfind hholder hfree =>
    cases hprog
    exact ⟨_, Table.find?_insert_self .., hholder, rfl, rfl⟩
  | publish =>
    cases hprog
    refine Job.fits_publish fun hphase g' hfind' hholder' => ?_
    rw [Table.find?_insert_self, Option.some.injEq] at hfind'
    subst hfind'
    exact Table.find?_insert_self ..

/-- A call that begins is apart from those in progress. -/
theorem apart (h : call.Begins c ownerBase p p' (.going job)) (hp : p.Regular c ownerBase)
    (hj : j.Fits p) (hbeside : j.call.Beside call) : job.Apart j := by
  generalize hprog : Progress.going job = progress at h
  cases h with
  | refused | known => cases hprog
  | @lease id s link htap hnone hlt hlink =>
    cases hprog
    cases j with
    | lease id' s' link' phase =>
      intro hs
      rw [Job.Fits, ← hs, hnone] at hj
      cases hj
    | release l link' phase =>
      intro hs
      obtain ⟨g, hfind, -⟩ := hj
      rw [← hs, hnone] at hfind
      cases hfind
    | publish id' n' m' phase => exact (hbeside (.inr rfl)).symm
  | @release l g hfind hholder hfree =>
    cases hprog
    cases j with
    | lease id' s' link' phase =>
      intro hs
      rw [Job.Fits, hs, hfind, Option.some.injEq] at hj
      subst hj
      exact hbeside (.inl rfl) hholder
    | release l' link' phase =>
      intro hs
      -- the slot is being given back already
      obtain ⟨g', hfind', -, -, hleaving⟩ := hj
      rw [← hs, hfind, Option.some.injEq] at hfind'
      subst hfind'
      rw [hfree] at hleaving
      cases hleaving
    | publish => trivial
  | @publish id n m g hport hfind hholder hfree =>
    cases hprog
    cases j with
    | lease id' s' link' phase => exact (hbeside (.inl rfl)).symm
    | release => trivial
    | publish id' n' m' phase =>
      refine Job.apart_publish fun _ hphase hs hid hsame => ?_
      have hmine := hj.port hphase (by rw [← hs]; exact hfind) (hholder.trans hid)
      rw [← hsame, hp.find?_ports_eq_none hport hfind] at hmine
      cases hmine

end Call.Begins

end VmNode
