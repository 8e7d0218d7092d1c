import VmNode.Console.Hub
import VmNode.Proofs.Table

/-!
# Which instances have a console

The operations that open and give up a console are the only ones that change for which
instances there is one. A subscription has the same channel all the time.
-/

namespace VmNode

namespace Console.Hub

variable (h : Hub) (id : InstanceId)

/-- A note goes into a console that there is and opens none. -/
theorem current_note (now : Int64) (message : String) :
    (h.note now id message).current = h.current := by
  rw [note]
  split <;> rfl

/-- A console that is closed is still there. -/
theorem current_close : (h.close id).current = h.current := by
  rw [close]
  split <;> rfl

theorem current_unsubscribe (s : Subscription) : (h.unsubscribe s).current = h.current := by
  rw [unsubscribe]
  split <;> rfl

/-- A console that is given up is there no more. -/
theorem find?_remove_self : (h.remove id).current.find? id = none := by
  rw [remove]
  split
  · exact Table.find?_erase_self ..
  · assumption

theorem find?_remove_of_ne {j : InstanceId} (hj : j ≠ id) :
    (h.remove id).current.find? j = h.current.find? j := by
  rw [remove]
  split
  · exact Table.find?_erase_of_ne _ hj
  · rfl

/-- A console that is opened is there. -/
theorem find?_openFor_self : ((h.openFor id).2.current.find? id).isSome = true := by
  rw [openFor]
  split
  · simp_all
  · rw [Table.find?_insert_self]
    rfl

theorem find?_openFor_of_ne {j : InstanceId} (hj : j ≠ id) :
    (h.openFor id).2.current.find? j = h.current.find? j := by
  rw [openFor]
  split
  · rfl
  · exact Table.find?_insert_of_ne _ _ hj

theorem current_subscribe {h b : Hub} {buffer : List LogRecord} {s : Subscription}
    (heq : h.subscribe id = .ok (buffer, s, b)) : b.current = h.current := by
  rw [subscribe] at heq
  cases hlook : h.lookUp id with
  | error e =>
    rw [hlook] at heq
    cases heq
  | ok found =>
    rw [hlook] at heq
    cases heq
    rfl

/-- A subscription stays with its channel. -/
theorem channel_next (s : Subscription) : (h.next s).2.channel = s.channel := by
  rw [next]
  split <;> rfl

end Console.Hub

end VmNode
