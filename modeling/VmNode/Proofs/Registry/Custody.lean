import Mathlib.Data.Multiset.Bind
import Mathlib.Data.Multiset.Range
import Mathlib.Tactic.Abel
import VmNode.Proofs.Registry.Operation
import VmNode.Registry.Custody

/-!
# Where the leases are

A lease that was brought into a registry is in the record that it came with, or with the one
caller who was given it. Two things are counted over all records, those in the registry, those
kept aside, and those that are no more: their numbers, which are those that were ever given
out, and their leases, which together with those that callers were given are the leases that
were brought in (`Custody.Kept`). An event at most moves a record, or changes one that hands
out its lease if it does not keep it (`Custody.Settles`), so neither count changes unless a new
record is made.

Main statement: however records are inserted, changed, taken out, put back, taken apart and
thrown away, every lease is in one place (`Custody.accounted_play`).
-/

namespace VmNode

variable {π : Type}

namespace Record

variable {r : Record π} {x : Nat × Lease}

/-- A record holds a lease under its own number. -/
theorem numberedLease_eq_some :
    r.numberedLease = some x ↔ r.signal = x.1 ∧ r.lease = some x.2 := by
  obtain ⟨n, l⟩ := x
  simp [numberedLease, and_comm]

/-- What a record holds: its lease, if it has one. -/
def held (r : Record π) : Multiset (Nat × Lease) := ↑r.numberedLease.toList

theorem mem_held : x ∈ r.held ↔ r.numberedLease = some x := by simp [held]

end Record

namespace Custody

variable {c c' : Custody π} {r : Record π} {x : Nat × Lease}

/-! ### Places -/

/-- Where a lease can be. -/
inductive Place where
  /-- In the record of an instance in the registry. -/
  | table (id : InstanceId)
  /-- In a record that is kept aside. -/
  | aside (k : Nat)
  /-- In a record that was thrown away. -/
  | gone (k : Nat)
  /-- With the caller who was the `k`-th to be given a lease. -/
  | caller (k : Nat)
  deriving DecidableEq

/-- The record at a place. -/
def recordAt (c : Custody π) : Place → Option (Record π)
  | .table id => c.registry.records.find? id
  | .aside k => c.aside[k]?
  | .gone k => c.gone[k]?
  | .caller _ => none

/-- The lease at a place. -/
def leaseAt (c : Custody π) : Place → Option (Nat × Lease)
  | .caller k => c.given[k]?
  | p => (c.recordAt p).bind Record.numberedLease

/-- A lease is at a place if the record there holds it, or if the caller there was given it. -/
theorem leaseAt_eq_some {p : Place} : c.leaseAt p = some x ↔
    (∃ r, c.recordAt p = some r ∧ r.numberedLease = some x) ∨
      ∃ k, p = .caller k ∧ c.given[k]? = some x := by
  cases p <;> simp [leaseAt, recordAt, Option.bind_eq_some_iff]

/-- All records, with their places. -/
def shelf (c : Custody π) : List (Place × Record π) :=
  c.registry.records.entries.map (fun e => (.table e.1, e.2)) ++
    (c.aside.zipIdx.map (fun e => (.aside e.2, e.1)) ++
      c.gone.zipIdx.map fun e => (.gone e.2, e.1))

/-- The shelf has each record at its place. -/
theorem mem_shelf {p : Place} : (p, r) ∈ c.shelf ↔ c.recordAt p = some r := by
  cases p <;>
    simp [shelf, recordAt, List.mk_mem_zipIdx_iff_getElem?, Table.mem_entries_iff]

/-- All records. -/
def records (c : Custody π) : Multiset (Record π) :=
  (c.registry.records.tally fun _ r => {r}) + (↑c.aside + ↑c.gone)

/-- All records are on the shelf. -/
theorem coe_shelf : (↑(c.shelf.map Prod.snd) : Multiset (Record π)) = c.records := by
  rw [records, Table.tally_singleton]
  simp [shelf, Table.values, Function.comp_def, List.zipIdx_map_fst]

/-- Every record has a place. -/
theorem mem_records : r ∈ c.records ↔ ∃ p, c.recordAt p = some r := by
  rw [← coe_shelf]
  simp [mem_shelf]

section Records

variable {g : Registry π} {given brought : List (Nat × Lease)}

/-- One more record is kept aside. -/
theorem records_of_aside (hg : g.records = c.registry.records) :
    (⟨g, c.aside ++ [r], c.gone, given, brought⟩ : Custody π).records = c.records + {r} := by
  simp only [records, hg, ← Multiset.coe_add, Multiset.coe_singleton]
  abel

/-- One more record is no more. -/
theorem records_of_gone (hg : g.records = c.registry.records) :
    (⟨g, c.aside, c.gone ++ [r], given, brought⟩ : Custody π).records = c.records + {r} := by
  simp only [records, hg, ← Multiset.coe_add, Multiset.coe_singleton]
  abel

end Records

/-- All leases, those in records and those that callers were given. -/
def leases (c : Custody π) : Multiset (Nat × Lease) := c.records.bind Record.held + ↑c.given

/-- Every lease has a place. -/
theorem mem_leases : x ∈ c.leases ↔ ∃ p, c.leaseAt p = some x := by
  simp only [leases, Multiset.mem_add, Multiset.mem_bind, Multiset.mem_coe, Record.mem_held,
    mem_records, leaseAt_eq_some, List.mem_iff_getElem?]
  constructor
  · rintro (⟨r, ⟨p, hr⟩, hx⟩ | ⟨k, hk⟩)
    · exact ⟨p, .inl ⟨r, hr, hx⟩⟩
    · exact ⟨.caller k, .inr ⟨k, rfl, hk⟩⟩
  · rintro ⟨p, ⟨r, hr, hx⟩ | ⟨k, -, hk⟩⟩
    · exact .inl ⟨r, ⟨p, hr⟩, hx⟩
    · exact .inr ⟨k, hk⟩

/-! ### What is kept -/

/-- No number and no lease is missing, and there is none too many. -/
structure Kept (c : Custody π) : Prop where
  /-- Records are under their own identifiers. -/
  keyed : c.registry.Keyed
  /-- As many numbers were given out as there are signals. -/
  signals : c.registry.signals.IsNumbered
  /-- Each number is that of one record. -/
  numbers : c.records.map Record.signal = Multiset.range c.registry.signals.size
  /-- Leases were brought in with these numbers, in order. -/
  order : c.brought.map Prod.fst = List.range c.registry.signals.size
  /-- All leases that were brought in are there, and no others. -/
  leases : c.leases = ↑c.brought

/-- At first there is nothing. -/
theorem kept_start : (start : Custody π).Kept :=
  ⟨Registry.keyed_empty, Table.isNumbered_empty, rfl, rfl, rfl⟩

/-- One record is changed at most. It keeps its number, and its lease stays in it or is given to
    a caller. -/
inductive Settles (c c' : Custody π) : Prop
  /-- No record is changed. -/
  | moved (hrecords : c'.records = c.records) (hgiven : c'.given = c.given)
  /-- A record is changed. -/
  | changed {r q : Record π} {l : Option Lease} (hrecords : c'.records + {r} = c.records + {q})
    (hsignal : q.signal = r.signal)
    (hlease : q.lease = r.lease ∧ l = none ∨ q.lease = none ∧ l = r.lease)
    (hgiven : c'.given = c.given ++ (l.map fun l => (r.signal, l)).toList)

namespace Settles

/-- The numbers of the records stay what they are. -/
theorem numbers (h : c.Settles c') :
    c'.records.map Record.signal = c.records.map Record.signal := by
  cases h with
  | moved hrecords _ => rw [hrecords]
  | changed hrecords hsignal _ _ =>
    have hmap := congrArg (Multiset.map Record.signal) hrecords
    rw [Multiset.map_add, Multiset.map_add, Multiset.map_singleton, Multiset.map_singleton,
      hsignal] at hmap
    exact add_right_cancel hmap

/-- So do the leases, wherever they go. -/
theorem leases (h : c.Settles c') : c'.leases = c.leases := by
  cases h with
  | moved hrecords hgiven => rw [Custody.leases, Custody.leases, hrecords, hgiven]
  | @changed r q l hrecords hsignal hlease hgiven =>
    -- what the record has had it has still, or a caller was given it
    have hheld : r.held = ↑(l.map fun l => (r.signal, l)).toList + q.held := by
      rcases hlease with ⟨hlease, rfl⟩ | ⟨hlease, rfl⟩
      · simp [Record.held, Record.numberedLease, hlease, hsignal]
      · simp [Record.held, Record.numberedLease, hlease]
    have hbind := congrArg (Multiset.bind · Record.held) hrecords
    simp only [Multiset.add_bind, Multiset.singleton_bind, hheld, ← add_assoc] at hbind
    rw [Custody.leases, Custody.leases, hgiven, ← add_right_cancel hbind, ← Multiset.coe_add,
      add_assoc, add_comm (↑c.given : Multiset (Nat × Lease))]

end Settles

/-- What is kept is kept as long as no record is made. -/
theorem Kept.settle (h : c.Kept) (hs : c.Settles c') (hkeyed : c'.registry.Keyed)
    (hsignals : c'.registry.signals.IsNumbered)
    (hsize : c'.registry.signals.size = c.registry.signals.size)
    (hbrought : c'.brought = c.brought) : c'.Kept where
  keyed := hkeyed
  signals := hsignals
  numbers := by rw [hs.numbers, h.numbers, hsize]
  order := by rw [hbrought, h.order, hsize]
  leases := by rw [hs.leases, h.leases, hbrought]

end Custody

/-! ### Operations of the registry -/

namespace Registry

variable {g g' : Registry π} {op : Operation π} {a : Answer π} {id : InstanceId}

/-- No operation gives out a number. -/
theorem Effect.signals (he : g.Effect op a g') : g'.signals = g.signals := by
  cases he <;> rfl

@[simp] theorem numbered_none : g.numbered id none = none := by simp [numbered]

/-- A lease that is handed out goes under the number of its record. -/
theorem numbered_of_find? {r : Record π} (h : g.records.find? id = some r) (l : Option Lease) :
    g.numbered id l = l.map fun l => (r.signal, l) := by
  simp [numbered, signal?, h]

/-- An operation that only works or fails hands out no lease. -/
theorem lease?_done (result : Except Error (Registry π)) :
    (perform.done g result).1.lease? = none := by
  cases result <;> rfl

/-- Whoever inserts a record is given no lease. -/
theorem lease?_insert (r : Record π) : (g.perform (.insert r)).1.lease? = none := by
  rw [perform]
  split <;> rfl

end Registry

namespace Custody

variable {c c' : Custody π} {id : InstanceId} {r q : Record π} {k : Nat} {x : Nat × Lease}
variable {op : Registry.Operation π} {a : Registry.Answer π} {g : Registry π}

/-- A caller is given what comes with the answer. -/
theorem given_receive :
    (c.receive op a g).given = c.given ++ (c.registry.numbered op.id a.lease?).toList := rfl

/-- The records are those in the registry, those aside with the one that was handed back, and those
    that are gone. -/
theorem records_receive : (c.receive op a g).records =
    (g.records.tally fun _ r => {r}) + (↑c.aside + ↑a.record?.toList + ↑c.gone) := by
  simp only [records, receive, ← Multiset.coe_add]

/-- Nothing has happened to any record. -/
theorem records_receive_self (h : a.record? = none) :
    (c.receive op a c.registry).records = c.records := by
  rw [records_receive, h, records, Option.toList_none, Multiset.coe_nil, add_zero]

/-- Any operation of the registry but an insertion changes one record at most. -/
theorem settles_receive (he : c.registry.Effect op a g) (hc : c.registry.Keyed)
    (hop : ∀ r, op ≠ .insert r) : c.Settles (c.receive op a g) := by
  cases he with
  | inserted | rejected => exact absurd rfl (hop _)
  | @removed id r hfind =>
    -- the record moves from the registry to those aside
    refine .moved ?_ (by simp [given_receive, Registry.Answer.lease?])
    rw [records_receive, records]
    simp only [← Table.tally_erase_of_some hfind fun _ r => {r}, Registry.Answer.record?,
      Option.toList_some, Multiset.coe_singleton]
    abel
  | absent =>
    exact .moved (records_receive_self rfl) (by simp [given_receive, Registry.Answer.lease?])
  | @changed _ _ r q _ _ hrecord hfind hturns =>
    -- one record of the registry is changed for another
    refine .changed (r := r) (q := q) (l := a.lease?) ?_ hturns.signal hturns.lease
      (by rw [given_receive, Registry.numbered_of_find? hfind])
    have hput := Table.tally_insert_of_some hfind q fun _ r => ({r} : Multiset (Record π))
    rw [← hc _ _ hfind, ← hturns.id] at hput
    rw [records_receive, records, hrecord, add_right_comm, Registry.put, hput, add_right_comm,
      Option.toList_none, Multiset.coe_nil, add_zero]
  | still _ hlease hrecord =>
    exact .moved (records_receive_self hrecord) (by simp [given_receive, hlease])

/-! ### Records that are kept aside -/

/-- What is left when a record has been taken from those that are kept aside. -/
abbrev without (c : Custody π) (k : Nat) : Custody π := { c with aside := c.aside.eraseIdx k }

/-- What is done with a record that is aside is done if there is one. -/
theorem withAside_induction {P : Custody π → Prop} {f : Custody π → Record π → Custody π}
    (hnone : P c) (hsome : ∀ r, c.aside[k]? = some r → P (f (c.without k) r)) :
    P (c.withAside k f) := by
  rw [withAside]
  split
  · exact hnone
  · exact hsome _ ‹_›

/-- Taking a record from those aside leaves all the others. -/
theorem records_without (hk : c.aside[k]? = some r) : (c.without k).records + {r} = c.records := by
  obtain ⟨hlt, rfl⟩ := List.getElem?_eq_some_iff.1 hk
  have haside : (↑(c.aside.eraseIdx k) + {c.aside[k]} : Multiset (Record π)) = ↑c.aside := by
    rw [add_comm, Multiset.singleton_add, Multiset.cons_coe, Multiset.coe_eq_coe]
    exact List.getElem_cons_eraseIdx_perm hlt
  simp only [records, ← haside]
  abel

/-- A record that is kept aside is changed, wherever it is put. -/
theorem settles_of_without {l : Option Lease} (hk : c.aside[k]? = some r)
    (hrecords : c'.records = (c.without k).records + {q}) (hsignal : q.signal = r.signal)
    (hlease : q.lease = r.lease ∧ l = none ∨ q.lease = none ∧ l = r.lease)
    (hgiven : c'.given = c.given ++ (l.map fun l => (r.signal, l)).toList) : c.Settles c' := by
  refine .changed ?_ hsignal hlease hgiven
  rw [hrecords, ← records_without hk]
  exact add_right_comm ..

/-- A record that is inserted moves into the registry, or back to those aside. -/
theorem settles_insert (hk : c.aside[k]? = some r) (he : c.registry.Effect (.insert r) a g) :
    c.Settles ((c.without k).receive (.insert r) a g) := by
  refine settles_of_without (q := r) (l := none) hk ?_ rfl (.inl ⟨rfl, rfl⟩) ?_
  · rw [records_receive, records]
    cases he with
    | inserted hfind =>
      simp only [Registry.Answer.record?, Option.toList_none, Multiset.coe_nil]
      rw [Registry.put, Table.tally_insert_of_none hfind]
      abel
    | rejected =>
      rw [Registry.Answer.record?, Option.toList_some, Multiset.coe_singleton]
      abel
    | changed hedit | still hedit => cases hedit
  · rw [given_receive]
    cases he with
    | inserted | rejected => simp [Registry.Answer.lease?]
    | changed hedit | still hedit => cases hedit

/-! ### One event -/

namespace Kept

/-- The number of a record was given out. -/
theorem signal_isSome (h : c.Kept) (hr : r ∈ c.records) :
    (c.registry.signals.find? r.signal).isSome := by
  rw [h.signals, ← Multiset.mem_range, ← h.numbers]
  exact Multiset.mem_map_of_mem _ hr

/-- An operation of the registry, with the records that are aside as they are or one fewer. -/
theorem perform (h : c.Kept) (hc : c'.registry = c.registry) (hbrought : c'.brought = c.brought)
    (hs : c.Settles (c'.perform op)) : (c'.perform op).Kept := by
  have he := Registry.effect_perform h.keyed op
  rw [← hc] at he
  have hsignals : (c'.perform op).registry.signals = c.registry.signals := hc ▸ he.signals
  exact h.settle hs (he.keyed (hc ▸ h.keyed)) (hsignals ▸ h.signals) (hsignals ▸ rfl) hbrought

/-- A new record gets the next number, and its lease is brought in under it. -/
theorem bring (h : c.Kept) {spec : InstanceSpec} {l : Lease} {time : Timestamp} :
    (c.step (.bring id spec l time)).Kept := by
  set r := (c.registry.newRecord id spec l time).1
  have hrecords : (c.step (.bring id spec l time)).records = c.records + {r} :=
    records_of_aside rfl
  have hsize : (c.step (.bring id spec l time)).registry.signals.size =
      c.registry.signals.size + 1 := Table.length_put_of_none _ h.signals.find?_size
  have hheld : r.held = {(c.registry.signals.size, l)} := rfl
  refine ⟨h.keyed, h.signals.insert_size _, ?_, ?_, ?_⟩
  · -- one more number, and it is that of the new record
    rw [hrecords, hsize, Multiset.map_add, h.numbers, Multiset.map_singleton, Multiset.range_succ,
      ← Multiset.singleton_add, add_comm]
    rfl
  · rw [hsize, List.range_succ, ← h.order]
    exact List.map_append ..
  · rw [Custody.leases, hrecords, Multiset.add_bind, Multiset.singleton_bind, hheld, add_right_comm]
    change c.leases + _ = ↑(c.brought ++ [(c.registry.signals.size, l)])
    rw [h.leases, ← Multiset.coe_add, Multiset.coe_singleton]

/-- Every event keeps the count: each moves a record, or changes one. -/
theorem step (h : c.Kept) (e : Event π) : (c.step e).Kept := by
  cases e with
  | bring => exact h.bring
  | insert k =>
    rw [Custody.step]
    refine withAside_induction h fun r hk => ?_
    exact h.perform rfl rfl (settles_insert hk (Registry.effect_perform h.keyed _))
  | operate op hop =>
    exact h.perform rfl rfl (settles_receive (Registry.effect_perform h.keyed op) h.keyed hop)
  | relabel k info =>
    rw [Custody.step]
    refine withAside_induction h fun r hk => ?_
    refine h.settle ?_ h.keyed h.signals rfl rfl
    exact settles_of_without (q := r.relabel info) (l := none) hk (records_of_aside rfl) rfl
      (.inl ⟨rfl, rfl⟩) (List.append_nil _).symm
  | takeApart k =>
    -- the record is gone without its lease, which the caller has
    rw [Custody.step]
    refine withAside_induction h fun r hk => ?_
    have hsome := h.signal_isSome (mem_records.2 ⟨.aside k, hk⟩)
    refine h.settle ?_ h.keyed (h.signals.insert hsome _) (Table.length_put_of_some _ hsome) rfl
    exact settles_of_without (q := r.husk) (l := r.lease) hk (records_of_gone rfl) rfl
      (.inr ⟨rfl, rfl⟩) rfl
  | discard k =>
    -- the record is gone with its lease
    rw [Custody.step]
    refine withAside_induction h fun r hk => ?_
    have hsome := h.signal_isSome (mem_records.2 ⟨.aside k, hk⟩)
    refine h.settle ?_ h.keyed (h.signals.insert hsome _) (Table.length_put_of_some _ hsome) rfl
    exact settles_of_without (q := r) (l := none) hk (records_of_gone rfl) rfl
      (.inl ⟨rfl, rfl⟩) (List.append_nil _).symm

/-- Hence so does every run. -/
theorem play (h : c.Kept) (events : List (Event π)) : (c.play events).Kept := by
  induction events generalizing c with
  | nil => exact h
  | cons e rest ih => exact ih (h.step e)

/-! ### What follows of places -/

section

variable (h : c.Kept)
include h

/-- No lease was brought in twice under one number. -/
theorem nodup_brought : c.brought.Nodup := .of_map Prod.fst (h.order ▸ List.nodup_range)

/-- No two records have one number. -/
theorem place_eq {i j : Place} (hr : c.recordAt i = some r) (hq : c.recordAt j = some q)
    (hsignal : r.signal = q.signal) : i = j := by
  have hnumbers := h.numbers
  rw [← coe_shelf, Multiset.map_coe, List.map_map] at hnumbers
  have hnodup : (c.shelf.map (Record.signal ∘ Prod.snd)).Nodup :=
    Multiset.coe_nodup.1 (hnumbers ▸ Multiset.nodup_range _)
  exact congrArg Prod.fst
    (List.inj_on_of_nodup_map hnodup (mem_shelf.2 hr) (mem_shelf.2 hq) hsignal)

/-- No lease is in two places. -/
theorem sole {i j : Place} (hi : c.leaseAt i = some x) (hj : c.leaseAt j = some x) : i = j := by
  have hnodup : c.leases.Nodup := h.leases ▸ Multiset.coe_nodup.2 h.nodup_brought
  obtain ⟨-, hgiven, hapart⟩ := Multiset.nodup_add.1 hnodup
  -- a lease that a caller was given is in no record
  have hout : ∀ p r k, c.recordAt p = some r → r.numberedLease = some x →
      c.given[k]? ≠ some x := fun p r k hr hx hk =>
    Multiset.disjoint_left.1 hapart
      (Multiset.mem_bind.2 ⟨r, mem_records.2 ⟨p, hr⟩, Record.mem_held.2 hx⟩)
      (List.mem_of_getElem? hk)
  rcases leaseAt_eq_some.1 hi with ⟨r, hr, hrx⟩ | ⟨k, rfl, hk⟩ <;>
    rcases leaseAt_eq_some.1 hj with ⟨q, hq, hqx⟩ | ⟨m, rfl, hm⟩
  · rw [Record.numberedLease_eq_some] at hrx hqx
    exact h.place_eq hr hq (hrx.1.trans hqx.1.symm)
  · exact absurd hm (hout i r m hr hrx)
  · exact absurd hk (hout j q k hq hqx)
  · obtain ⟨hlt, -⟩ := List.getElem?_eq_some_iff.1 hk
    exact congrArg Place.caller
      ((List.getElem?_inj hlt (Multiset.coe_nodup.1 hgiven)).1 (hk.trans hm.symm))

/-- A lease that was brought in is in one place. -/
theorem existsUnique_place (hx : x ∈ c.brought) : ∃! p, c.leaseAt p = some x := by
  obtain ⟨p, hp⟩ := mem_leases.1 (h.leases.symm ▸ hx : x ∈ c.leases)
  exact ⟨p, hp, fun q hq => h.sole hq hp⟩

/-- Nothing else is in any place. -/
theorem mem_brought {p : Place} (hp : c.leaseAt p = some x) : x ∈ c.brought :=
  Multiset.mem_coe.1 (h.leases ▸ mem_leases.2 ⟨p, hp⟩)

/-- No lease was given to two callers: all that was given was brought in, once. -/
theorem nodup_given : (c.given.map Prod.fst).Nodup := by
  have hle : (↑c.given : Multiset (Nat × Lease)) ≤ ↑c.brought :=
    h.leases ▸ Multiset.le_add_left ..
  have hmap := Multiset.map_le_map hle (f := Prod.fst)
  rw [Multiset.map_coe, Multiset.map_coe, h.order] at hmap
  exact Multiset.coe_nodup.1 (Multiset.nodup_of_le hmap (Multiset.coe_nodup.2 List.nodup_range))

/-- The lease that a record was made with is in the record, or a caller was given it. -/
theorem stays {p : Place} {l : Lease} (hr : c.recordAt p = some r)
    (hx : (r.signal, l) ∈ c.brought) :
    c.leaseAt p = some (r.signal, l) ∨ ∃ k, c.leaseAt (.caller k) = some (r.signal, l) := by
  obtain ⟨j, hj, -⟩ := h.existsUnique_place hx
  rcases leaseAt_eq_some.1 hj with ⟨q, hq, hqx⟩ | ⟨k, rfl, -⟩
  · obtain rfl := h.place_eq hr hq (Record.numberedLease_eq_some.1 hqx).1.symm
    exact .inl hj
  · exact .inr ⟨k, hj⟩

end

end Kept

/-! ### How a lease leaves its place -/

/-- The place whose lease an event hands out, if there is one. -/
def Event.source? : Event π → Option Place
  | .operate (.takeLease id) _ | .operate (.failRunning id _) _ => some (.table id)
  | .takeApart k => some (.aside k)
  | _ => none

/-- An operation that hands out a lease takes it or fails a running instance. -/
theorem source?_of_lease? {g : Registry π} {l : Lease} (h : (g.perform op).1.lease? = some l) :
    ∃ hop, (Event.operate op hop).source? = some (.table op.id) := by
  cases op with
  | takeLease | failRunning => exact ⟨by simp, rfl⟩
  | insert r => cases (Registry.lease?_insert r).symm.trans h
  | updateState =>
    rw [Registry.perform] at h
    split at h <;> cases h
  | transition | attach | addPort =>
    rw [Registry.perform, Registry.lease?_done] at h
    cases h
  | setExitReason | remove => cases h

/-- A lease stays in its record, comes with the answer, or is taken out with its record. -/
theorem leaseAt_receive (he : c.registry.Effect op a g) (hc : c.registry.Keyed)
    (hx : c.leaseAt (.table id) = some x) :
    (c.receive op a g).leaseAt (.table id) = some x ∨
      op.id = id ∧ a.lease? = some x.2 ∧ (c.receive op a g).given = c.given ++ [x] ∨
      op = .remove id ∧ ∃ k, (c.receive op a g).leaseAt (.aside k) = some x := by
  obtain ⟨r, hfind, hlease⟩ := Option.bind_eq_some_iff.1 hx
  change c.registry.records.find? id = some r at hfind
  -- the lease stays if the record does
  have hstays : ∀ q, g.records.find? id = some q → q.numberedLease = some x →
      (c.receive op a g).leaseAt (.table id) = some x := fun q hq hqx =>
    Option.bind_eq_some_iff.2 ⟨q, hq, hqx⟩
  by_cases hid : id = op.id
  · subst hid
    cases he with
    | inserted hnone | absent hnone => cases hnone.symm.trans hfind
    | rejected => exact .inl (hstays r hfind hlease)
    | still => exact .inl (hstays r hfind hlease)
    | removed hfind' =>
      obtain rfl := Option.some.inj (hfind'.symm.trans hfind)
      refine .inr (.inr ⟨rfl, c.aside.length, ?_⟩)
      simp [leaseAt, recordAt, receive, hlease, Registry.Answer.record?]
    | @changed _ _ _ q _ _ _ hfind' hturns =>
      obtain rfl := Option.some.inj (hfind'.symm.trans hfind)
      rcases hturns.lease with ⟨hsame, -⟩ | ⟨-, hout⟩
      · refine .inl (hstays q (Registry.find?_put_self (hturns.id.trans (hc _ _ hfind))) ?_)
        rw [← hlease, Record.numberedLease, Record.numberedLease, hturns.signal, hsame]
      · refine .inr (.inl ⟨rfl, hout.trans (Record.numberedLease_eq_some.1 hlease).2, ?_⟩)
        rw [given_receive, Registry.numbered_of_find? hfind, hout, ← Record.numberedLease, hlease]
        rfl
  · exact .inl (hstays r ((he.find?_of_ne hc hid).trans hfind) hlease)

/-- A caller is only given a lease that was in the record. -/
theorem given_eq_or (he : c.registry.Effect op a g) :
    (c.receive op a g).given = c.given ∨ ∃ x, c.leaseAt (.table op.id) = some x ∧
      a.lease? = some x.2 ∧ (c.receive op a g).given = c.given ++ [x] := by
  rw [given_receive]
  cases he with
  | inserted | rejected | absent | removed => exact .inl (by simp [Registry.Answer.lease?])
  | still _ hlease => exact .inl (by simp [hlease])
  | @changed _ _ r _ _ _ _ hfind hturns =>
    rcases hturns.lease with ⟨-, hnone⟩ | ⟨-, hout⟩
    · exact .inl (by simp [hnone])
    · rw [Registry.numbered_of_find? hfind, hout, ← Record.numberedLease]
      cases hlease : r.numberedLease with
      | none => exact .inl (List.append_nil _)
      | some x =>
        have hx := Option.bind_eq_some_iff.2 ⟨r, hfind, hlease⟩
        exact .inr ⟨x, hx, (Record.numberedLease_eq_some.1 hlease).2, rfl⟩

/-- What can become of a lease in the registry with one event. -/
theorem Kept.leaves (h : c.Kept) (e : Event π) (hx : c.leaseAt (.table id) = some x) :
    (c.step e).leaseAt (.table id) = some x ∨
      e.source? = some (.table id) ∧ (c.step e).given = c.given ++ [x] ∨
      (∃ hop, e = .operate (.remove id) hop) ∧ ∃ k, (c.step e).leaseAt (.aside k) = some x := by
  cases e with
  | bring => exact .inl hx
  | insert k =>
    left
    refine withAside_induction (P := fun c => c.leaseAt (.table id) = some x) hx fun r hk => ?_
    have he := Registry.effect_perform h.keyed (.insert r)
    rcases leaseAt_receive (c := c.without k) he h.keyed hx with hsame | ⟨-, hout, -⟩ | ⟨hop, -⟩
    · exact hsame
    · cases (Registry.lease?_insert r).symm.trans hout
    · cases hop
  | operate op hop =>
    have he := Registry.effect_perform h.keyed op
    rcases leaseAt_receive he h.keyed hx with hsame | ⟨rfl, hout, hgiven⟩ | ⟨rfl, hk⟩
    · exact .inl hsame
    · obtain ⟨_, hsource⟩ := source?_of_lease? hout
      exact .inr (.inl ⟨hsource, hgiven⟩)
    · exact .inr (.inr ⟨⟨hop, rfl⟩, hk⟩)
  | relabel | takeApart | discard =>
    exact .inl (withAside_induction (P := fun c => c.leaseAt (.table id) = some x) hx fun _ _ => hx)

/-- What callers can get with one event. -/
theorem Kept.callers (h : c.Kept) (e : Event π) : (c.step e).given = c.given ∨
    ∃ p x, e.source? = some p ∧ c.leaseAt p = some x ∧ (c.step e).given = c.given ++ [x] := by
  cases e with
  | bring => exact .inl rfl
  | insert k =>
    refine .inl (withAside_induction (P := fun c' => c'.given = c.given) rfl fun r hk => ?_)
    have he := Registry.effect_perform h.keyed (.insert r)
    rcases given_eq_or (c := c.without k) he with hgiven | ⟨x, -, hout, -⟩
    · exact hgiven
    · cases (Registry.lease?_insert r).symm.trans hout
  | operate op hop =>
    rcases given_eq_or (Registry.effect_perform h.keyed op) with hgiven | ⟨x, hx, hout, hgiven⟩
    · exact .inl hgiven
    · obtain ⟨_, hsource⟩ := source?_of_lease? hout
      exact .inr ⟨_, x, hsource, hx, hgiven⟩
  | relabel | discard =>
    exact .inl (withAside_induction (P := fun c' => c'.given = c.given) rfl fun _ _ => rfl)
  | takeApart k =>
    refine withAside_induction (P := fun c' => c'.given = c.given ∨ ∃ p x,
      some (.aside k) = some p ∧ c.leaseAt p = some x ∧ c'.given = c.given ++ [x])
      (.inl rfl) fun r hk => ?_
    change c.given ++ r.numberedLease.toList = c.given ∨ ∃ p x, some (.aside k) = some p ∧
      c.leaseAt p = some x ∧ c.given ++ r.numberedLease.toList = c.given ++ [x]
    cases hlease : r.numberedLease with
    | none => exact .inl (List.append_nil _)
    | some x => exact .inr ⟨_, x, rfl, Option.bind_eq_some_iff.2 ⟨r, hk, hlease⟩, rfl⟩

/-! ### All events -/

/-- Every lease is accounted for. -/
structure Accounted (c : Custody π) : Prop where
  /-- The leases that were brought in are numbered in that order. -/
  numbered : c.brought.map Prod.fst = List.range c.brought.length
  /-- A lease that comes with a new record gets the next number. -/
  brings : ∀ id spec l time,
    (c.step (.bring id spec l time)).brought = c.brought ++ [(c.brought.length, l)]
  /-- A lease that was brought in is in one place, and in no other. -/
  place : ∀ x ∈ c.brought, ∃! p, c.leaseAt p = some x
  /-- Nothing else is in any place. -/
  known : ∀ p x, c.leaseAt p = some x → x ∈ c.brought
  /-- No lease was handed out twice. -/
  once : (c.given.map Prod.fst).Nodup
  /-- The lease that a record was made with is in the record, or with a caller. -/
  stays : ∀ p r l, c.recordAt p = some r → (r.signal, l) ∈ c.brought →
    c.leaseAt p = some (r.signal, l) ∨ ∃ k, c.leaseAt (.caller k) = some (r.signal, l)
  /-- The next event leaves a lease where it is in the registry, hands it out, or takes the record
      out with it. -/
  leaves : ∀ e id x, c.leaseAt (.table id) = some x →
    (c.step e).leaseAt (.table id) = some x ∨
      e.source? = some (.table id) ∧ (c.step e).given = c.given ++ [x] ∨
      (∃ hop, e = .operate (.remove id) hop) ∧ ∃ k, (c.step e).leaseAt (.aside k) = some x
  /-- Callers keep what they were given, and the next event gives one of them what it hands out,
      at most. -/
  callers : ∀ e, (c.step e).given = c.given ∨
    ∃ p x, e.source? = some p ∧ c.leaseAt p = some x ∧ (c.step e).given = c.given ++ [x]

/-- All that is to be said about leases follows from the count. -/
theorem Kept.accounted (h : c.Kept) : c.Accounted := by
  have hlength : c.brought.length = c.registry.signals.size := by
    rw [← List.length_map Prod.fst, h.order, List.length_range]
  exact {
    numbered := hlength ▸ h.order
    brings := fun _ _ _ _ => hlength ▸ rfl
    place := fun _ hx => h.existsUnique_place hx
    known := fun _ _ hp => h.mem_brought hp
    once := h.nodup_given
    stays := fun _ _ _ hr hx => h.stays hr hx
    leaves := fun e _ _ hx => h.leaves e hx
    callers := fun e => h.callers e }

/-- However records are made, inserted, worked on, taken out, put back, taken apart and thrown
    away, every lease that was brought in is in one place: in the record that it came with, or
    with the one caller who was given it. -/
theorem accounted_play (events : List (Event π)) : (start.play events).Accounted :=
  (kept_start.play events).accounted

/-- Of all who ask for a lease, only the first is given it. -/
example : ((start : Custody Nat).play [.bring "a" default default default, .insert 0,
    .operate (.updateState "a" .running) (by simp), .operate (.failRunning "a" default) (by simp),
    .operate (.takeLease "a") (by simp), .operate (.remove "a") (by simp), .takeApart 0]).given =
    [(0, default)] := by
  decide +kernel

end Custody

end VmNode
