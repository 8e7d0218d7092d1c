import Mathlib.Logic.Relation
import VmNode.Proofs.Registry
import VmNode.Registry.Operation

/-!
# What operations do to records

An operation adds a record, changes one along at most one legal move, takes one out, or does
nothing, and a lease that it takes out of a record comes with its answer (`Registry.Effect`).
The moves take an instance further each time (`InstanceState.rank`), so where it has left it
does not come back to, whatever operations follow each other.

Main statement: what any operations have made of a registry goes on lawfully
(`Registry.lawful_after`).
-/

namespace VmNode

namespace InstanceState

variable {s t u : InstanceState}

/-- The state is reached from another along legal moves. -/
abbrev Reaches (s t : InstanceState) : Prop :=
  Relation.ReflTransGen (fun s t : InstanceState => s.canMoveTo t = true) s t

/-- A state that is reached is the same or further on: each move adds to the rank. -/
theorem Reaches.eq_or_rank_lt (h : s.Reaches t) : s = t ∨ s.rank < t.rank := by
  induction h with
  | refl => exact .inl rfl
  | tail _ hmove ih =>
    have hlt := rank_lt_of_canMoveTo hmove
    rcases ih with rfl | ih
    · exact .inr hlt
    · exact .inr (ih.trans hlt)

/-- No legal move goes back. -/
theorem Reaches.rank_le (h : s.Reaches t) : s.rank ≤ t.rank :=
  h.eq_or_rank_lt.elim (fun heq => heq ▸ Nat.le_refl _) Nat.le_of_lt

/-- A state that was left is not reached again. -/
theorem Reaches.ne_of_ne (hst : s.Reaches t) (htu : t.Reaches u) (hne : t ≠ s) : u ≠ s := by
  rintro rfl
  rcases hst.eq_or_rank_lt with rfl | hlt
  · exact hne rfl
  · exact absurd htu.rank_le (Nat.not_le.2 hlt)

/-- What is not being provisioned will not be: no state is before that one. -/
theorem Reaches.ne_provisioning (h : s.Reaches t) (hs : s ≠ .provisioning) :
    t ≠ .provisioning := by
  rintro rfl
  rcases h.eq_or_rank_lt with rfl | hlt
  · exact hs rfl
  · exact absurd hlt (Nat.not_lt_zero _)

/-- A final state is not left. -/
theorem Reaches.eq_of_isFinal (h : s.Reaches t) (hs : s.isFinal = true) : t = s := by
  rcases h.eq_or_rank_lt with rfl | hlt
  · rfl
  · cases s <;> cases t <;> revert hs hlt <;> decide

end InstanceState

namespace Registry

variable {π : Type} {g g' : Registry π} {id j : InstanceId} {r r' : Record π}
variable {op : Operation π} {ops later : List (Operation π)} {a : Answer π}

/-! ### One operation -/

/-- The operation changes a record at most. -/
def Operation.isEdit : Operation π → Bool
  | .insert _ | .remove _ => false
  | _ => true

/-- A record that is changed keeps its identifier and its number, its state stays or makes a
    legal move, and its lease stays or is handed out. -/
structure Turns (r r' : Record π) (handed : Option Lease) : Prop where
  /-- The identifier stays. -/
  id : r'.id = r.id
  /-- So does the number. -/
  signal : r'.signal = r.signal
  /-- The state stays or makes a legal move. -/
  state : r'.state = r.state ∨ r.state.canMoveTo r'.state = true
  /-- The lease stays, or it is handed out. -/
  lease : r'.lease = r.lease ∧ handed = none ∨ r'.lease = none ∧ handed = r.lease

/-- What an operation does to a registry, with its answer. -/
inductive Effect (g : Registry π) : Operation π → Answer π → Registry π → Prop
  /-- A record is added. -/
  | inserted {r : Record π} : g.records.find? r.id = none →
    Effect g (.insert r) (.inserted (.ok ())) (g.put r)
  /-- A record is handed back. -/
  | rejected {r : Record π} : Effect g (.insert r) (.inserted (.error r)) g
  /-- A record is taken out. -/
  | removed {id : InstanceId} {r : Record π} : g.records.find? id = some r →
    Effect g (.remove id) (.removed (some r)) { g with records := g.records.erase id }
  /-- There is none to take out. -/
  | absent {id : InstanceId} : g.records.find? id = none →
    Effect g (.remove id) (.removed none) g
  /-- A record is changed. -/
  | changed {op : Operation π} {a : Answer π} {r r' : Record π} : op.isEdit = true →
    a.isRefusal = false → a.record? = none → g.records.find? op.id = some r →
    Turns r r' a.lease? → Effect g op a (g.put r')
  /-- No record is changed. -/
  | still {op : Operation π} {a : Answer π} : op.isEdit = true → a.lease? = none →
    a.record? = none → Effect g op a g

/-- An operation that works or leaves the registry as it is. -/
theorem effect_done (hop : op.isEdit = true) {result : Except Error (Registry π)}
    (hok : ∀ g', result = .ok g' → g' = g ∨ ∃ r r', g.records.find? op.id = some r ∧
      Turns r r' none ∧ g' = g.put r') :
    g.Effect op (perform.done g result).1 (perform.done g result).2 := by
  cases result with
  | error e => exact .still hop rfl rfl
  | ok g' =>
    rcases hok g' rfl with rfl | ⟨r, r', hfind, hturns, rfl⟩
    · exact .still hop rfl rfl
    · exact .changed hop rfl rfl hfind hturns

/-- Every operation has one of these effects. -/
theorem effect_perform (hg : g.Keyed) (op : Operation π) :
    g.Effect op (g.perform op).1 (g.perform op).2 := by
  cases op with
  | insert r =>
    rw [perform, insert, Table.contains]
    cases hfind : g.records.find? r.id with
    | none => exact .inserted hfind
    | some q => exact .rejected
  | updateState id target =>
    -- the move is checked before the record is changed
    rw [perform]
    cases hupdate : g.updateState id target with
    | error e => exact .still rfl rfl rfl
    | ok answer =>
      obtain ⟨source, g'⟩ := answer
      obtain ⟨r, hfind, rfl, hmove, rfl⟩ := updateState_eq_ok hupdate
      exact .changed rfl rfl rfl hfind ⟨rfl, rfl, .inr hmove, .inl ⟨rfl, rfl⟩⟩
  | transition id source target =>
    refine effect_done rfl fun g' hg' => ?_
    obtain ⟨r, hfind, rfl, hmove, rfl⟩ := transition_eq_ok hg'
    exact .inr ⟨r, { r with state := target }, hfind,
      ⟨rfl, rfl, .inr hmove, .inl ⟨rfl, rfl⟩⟩, rfl⟩
  | attach id process =>
    refine effect_done rfl fun g' hg' => ?_
    obtain ⟨r, hfind, rfl⟩ := attach_eq_ok hg'
    exact .inr ⟨r, { r with process := some process }, hfind,
      ⟨rfl, rfl, .inl rfl, .inl ⟨rfl, rfl⟩⟩, rfl⟩
  | takeLease id =>
    rw [perform, takeLease]
    cases hfind : g.records.find? id with
    | none => exact .still rfl rfl rfl
    | some r =>
      cases hlease : r.lease with
      | none =>
        -- without a lease the record stays as it is
        have hput : g.put { r with lease := none } = g := by
          rw [← hlease]
          exact put_eq_self hfind (hg id r hfind)
        simp only [hlease, hput]
        exact .still rfl rfl rfl
      | some l =>
        simp only [hlease]
        exact .changed rfl rfl rfl hfind ⟨rfl, rfl, .inl rfl, .inr ⟨rfl, hlease.symm⟩⟩
  | setExitReason id reason =>
    rw [perform, setExitReason]
    cases hfind : g.records.find? id with
    | none => exact .still rfl rfl rfl
    | some r => exact .changed rfl rfl rfl hfind ⟨rfl, rfl, .inl rfl, .inl ⟨rfl, rfl⟩⟩
  | failRunning id reason =>
    -- a lease is handed out only if the instance was running
    rw [perform, failRunning]
    cases hfind : g.records.find? id with
    | none => exact .still rfl rfl rfl
    | some r =>
      by_cases hrunning : r.state = .running
      · simp only [if_pos hrunning]
        exact .changed rfl rfl rfl hfind
          ⟨rfl, rfl, .inr (by rw [hrunning]; rfl), .inr ⟨rfl, rfl⟩⟩
      · simp only [if_neg hrunning]
        exact .still rfl rfl rfl
  | addPort id mapping =>
    refine effect_done rfl fun g' hg' => ?_
    rcases addPort_eq_ok hg' with ⟨rfl, -⟩ | ⟨r, ports, hfind, -, rfl⟩
    · exact .inl rfl
    · exact .inr ⟨r, { r with network := { r.network with ports } }, hfind,
        ⟨rfl, rfl, .inl rfl, .inl ⟨rfl, rfl⟩⟩, rfl⟩
  | remove id =>
    rw [perform, remove]
    cases hfind : g.records.find? id with
    | none => exact .absent hfind
    | some r => exact .removed hfind

namespace Effect

variable (he : g.Effect op a g') (hg : g.Keyed)
include he hg

/-- Records stay under their own identifiers. -/
theorem keyed : g'.Keyed := fun j q hq => by
  -- a record that is put goes under its own identifier
  have hput : ∀ p : Record π, (g.put p).records.find? j = some q → q.id = j := fun p hp => by
    by_cases hj : j = p.id
    · rw [hj, find?_put_self rfl, Option.some.injEq] at hp
      rw [← hp, hj]
    · exact hg j q (find?_put_of_ne hj ▸ hp)
  cases he with
  | inserted _ => exact hput _ hq
  | changed => exact hput _ hq
  | rejected | absent _ | still => exact hg j q hq
  | @removed id r _ =>
    by_cases hj : j = id
    · rw [hj, Table.find?_erase_self] at hq
      cases hq
    · exact hg j q (Table.find?_erase_of_ne _ hj ▸ hq)

/-- Other instances are not concerned. -/
theorem find?_of_ne (hj : j ≠ op.id) : g'.records.find? j = g.records.find? j := by
  cases he with
  | inserted _ => exact find?_put_of_ne hj
  | changed _ _ _ hfind hturns => exact find?_put_of_ne (hturns.id.trans (hg _ _ hfind) ▸ hj)
  | rejected | absent _ | still => rfl
  | removed _ => exact Table.find?_erase_of_ne _ hj

/-- A record that is not taken out stays, and its state stays or makes a legal move. -/
theorem state (hfind : g.records.find? id = some r) (hremove : op ≠ .remove id) :
    ∃ r', g'.records.find? id = some r' ∧
      (r'.state = r.state ∨ r.state.canMoveTo r'.state = true) := by
  by_cases hid : id = op.id
  · subst hid
    cases he with
    | inserted hnone => cases hnone.symm.trans hfind
    | changed _ _ _ hfind' hturns =>
      obtain rfl := Option.some.inj (hfind'.symm.trans hfind)
      exact ⟨_, find?_put_self (hturns.id.trans (hg _ _ hfind)), hturns.state⟩
    | rejected | absent _ | still => exact ⟨r, hfind, .inl rfl⟩
    | removed _ => exact absurd rfl hremove
  · exact ⟨r, (he.find?_of_ne hg hid).trans hfind, .inl rfl⟩

omit hg in
/-- An operation that is refused leaves the registry as it was. -/
theorem eq_of_isRefusal (ha : a.isRefusal = true) : g' = g := by
  cases he with
  | rejected | absent _ | still => rfl
  | inserted _ | removed _ => cases ha
  | changed _ hgranted => cases hgranted.symm.trans ha

end Effect

/-! ### Several operations -/

/-- Operations go on where others have ended. -/
theorem after_append : g.after (ops ++ later) = (g.after ops).after later := List.foldl_append ..

/-- Whatever operations follow each other, records are under their own identifiers. -/
theorem Keyed.after (hg : g.Keyed) (ops : List (Operation π)) : (g.after ops).Keyed := by
  induction ops generalizing g with
  | nil => exact hg
  | cons op rest ih => exact ih ((effect_perform hg op).keyed hg)

/-- As long as it is not taken out, a record stays, and its state moves on. -/
theorem Keyed.reaches (hg : g.Keyed) (hfind : g.records.find? id = some r)
    (hremove : .remove id ∉ ops) :
    ∃ r', (g.after ops).records.find? id = some r' ∧ r.state.Reaches r'.state := by
  induction ops generalizing g r with
  | nil => exact ⟨r, hfind, .refl⟩
  | cons op rest ih =>
    rw [List.mem_cons, not_or] at hremove
    obtain ⟨hop, hrest⟩ := hremove
    have heffect := effect_perform hg op
    obtain ⟨q, hq, hstate⟩ := heffect.state hg hfind (Ne.symm hop)
    obtain ⟨r', hr', hreaches⟩ := ih (heffect.keyed hg) hq hrest
    refine ⟨r', hr', ?_⟩
    -- the first operation leaves the state or makes one move, and the others go on from there
    rcases hstate with hstate | hmove
    · exact hstate ▸ hreaches
    · exact .head hmove hreaches

/-- What operations do to a registry from now on. -/
structure Lawful (g : Registry π) : Prop where
  /-- A record that is added was not there, and one that is refused is handed back. -/
  inserted : ∀ r, (g.perform (.insert r)).1 = .inserted (.error r) ∨
    (g.perform (.insert r)).1 = .inserted (.ok ()) ∧ g.records.find? r.id = none ∧
      (g.perform (.insert r)).2.records.find? r.id = some r
  /-- The record that is taken out is the one that was there, and it is gone. -/
  removed : ∀ id, (g.perform (.remove id)).1 = .removed (g.records.find? id) ∧
    (g.perform (.remove id)).2.records.find? id = none
  /-- An operation leaves the state of a record or makes one legal move. -/
  step : ∀ op id r, g.records.find? id = some r → op ≠ .remove id →
    ∃ r', (g.perform op).2.records.find? id = some r' ∧
      (r'.state = r.state ∨ r.state.canMoveTo r'.state = true)
  /-- Until a record is taken out, its state moves on along legal moves. -/
  moves : ∀ ops id r, g.records.find? id = some r → .remove id ∉ ops →
    ∃ r', (g.after ops).records.find? id = some r' ∧ r.state.Reaches r'.state
  /-- It does not come back to a state that it has left. -/
  left : ∀ ops later id r r' r'', .remove id ∉ ops ++ later → g.records.find? id = some r →
    (g.after ops).records.find? id = some r' →
    (g.after (ops ++ later)).records.find? id = some r'' → r'.state ≠ r.state → r''.state ≠ r.state
  /-- It is not provisioned again. -/
  provisioned : ∀ ops id r r', .remove id ∉ ops → g.records.find? id = some r →
    (g.after ops).records.find? id = some r' → r.state ≠ .provisioning → r'.state ≠ .provisioning
  /-- It does not leave a final state. -/
  final : ∀ ops id r r', .remove id ∉ ops → g.records.find? id = some r →
    (g.after ops).records.find? id = some r' → r.state.isFinal = true → r'.state = r.state
  /-- An operation on one instance leaves the others alone. -/
  others : ∀ op j, j ≠ op.id → (g.perform op).2.records.find? j = g.records.find? j
  /-- An operation that is refused changes nothing. -/
  refused : ∀ op, (g.perform op).1.isRefusal = true → (g.perform op).2 = g

/-- A registry whose records are under their own identifiers goes on lawfully. -/
theorem Keyed.lawful (hg : g.Keyed) : g.Lawful where
  inserted r := by
    rw [perform, insert, Table.contains]
    cases hfind : g.records.find? r.id with
    | none => exact .inr ⟨rfl, rfl, find?_put_self rfl⟩
    | some q => exact .inl rfl
  removed id := by
    rw [perform, remove]
    cases hfind : g.records.find? id with
    | none => exact ⟨rfl, hfind⟩
    | some r => exact ⟨rfl, Table.find?_erase_self ..⟩
  step op _ _ hfind hremove := (effect_perform hg op).state hg hfind hremove
  moves _ _ _ hfind hremove := hg.reaches hfind hremove
  left ops later id r r' r'' hremove hr hr' hr'' := by
    rw [List.mem_append, not_or] at hremove
    obtain ⟨q, hq, hst⟩ := hg.reaches hr hremove.1
    obtain ⟨q', hq', htu⟩ := (hg.after ops).reaches hr' hremove.2
    rw [after_append] at hr''
    obtain rfl := Option.some.inj (hq.symm.trans hr')
    obtain rfl := Option.some.inj (hq'.symm.trans hr'')
    exact hst.ne_of_ne htu
  provisioned ops id r r' hremove hr hr' := by
    obtain ⟨q, hq, hreaches⟩ := hg.reaches hr hremove
    obtain rfl := Option.some.inj (hq.symm.trans hr')
    exact hreaches.ne_provisioning
  final ops id r r' hremove hr hr' := by
    obtain ⟨q, hq, hreaches⟩ := hg.reaches hr hremove
    obtain rfl := Option.some.inj (hq.symm.trans hr')
    exact hreaches.eq_of_isFinal
  others op _ hj := (effect_perform hg op).find?_of_ne hg hj
  refused op ha := (effect_perform hg op).eq_of_isRefusal ha

/-- Whatever operations have made of a registry, and in whatever order, between its insertion
    and its removal a record only moves along legal moves and never back, operations on other
    instances leave it alone, and what is refused changes nothing. -/
theorem lawful_after (ops : List (Operation π)) : (empty.after ops).Lawful :=
  (keyed_empty.after ops).lawful

end Registry

end VmNode
