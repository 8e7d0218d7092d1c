import VmNode.Proofs.Process.Supervisor

/-!
# Processes that will be killed

Once a request to kill a process is in the queue of its supervisor, the process is doomed
(`Supervisor.Doomed`), and stays so whatever happens. What has to happen until the exit reason
is published gets less with all that the supervisor does (`Supervisor.Doomed.steps`), except that
it goes on to take requests while a process that was killed has not gone away yet. So such a
process is gone in the end if the supervisor is not left alone with what it is at
(`Supervisor.isBusy`) and processes that were killed exit.
-/

namespace VmNode.Supervisor

/-- The supervisor is at something that comes to an end, or has something to take. -/
def isBusy (s : Supervisor) : Bool :=
  match s.phase with
  | .watching => s.hasNews
  | .delivering | .killing | .cleaning _ => true
  | .ended _ => false

/-- The process was killed or is about to be, or it is gone. -/
def Doomed (s : Supervisor) : Prop :=
  s.isKilled = true ∨ .kill ∈ s.queue ∨ s.reason?.isSome = true

/-- A bound on what has to happen until the exit reason of a doomed process is published. -/
def doom (s : Supervisor) : Nat :=
  let watching := if s.isKilled then 2 else 2 * s.queue.idxOf .kill + 4
  match s.phase with
  | .watching => watching
  | .delivering | .killing => watching + 1
  | .cleaning _ => 1
  | .ended _ => 0

variable {s m : Supervisor} {e : Event} {act : Option Act} {r : StopRequest}
variable {queue : List StopRequest}

/-- Only a supervisor that waits takes requests. -/
theorem Steps.watching_of_take (h : s.Steps .take m act) : s.phase = .watching := by
  cases h <;> assumption

/-- A doomed process that was not killed has the request for it in its queue. -/
theorem Doomed.mem_queue (h : s.Doomed) (hphase : s.phase = .watching)
    (hkilled : s.isKilled = false) : .kill ∈ s.queue := by
  rcases h with h | h | h
  · cases hkilled.symm.trans h
  · exact h
  · rw [reason?, hphase] at h
    cases h

/-- What is behind the request to kill the process does not matter. -/
theorem Doomed.doom_append (h : s.Doomed) (r : StopRequest) :
    doom { s with queue := s.queue ++ [r] } = s.doom := by
  cases hphase : s.phase with
  | cleaning | ended => simp [doom, hphase]
  | watching | delivering | killing =>
    cases hkilled : s.isKilled with
    | true => simp [doom, hphase, hkilled]
    | false =>
      have hmem : .kill ∈ s.queue := by
        rcases h with h | h | h
        · cases hkilled.symm.trans h
        · exact h
        · simp [reason?, hphase] at h
      simp [doom, hphase, hkilled, List.idxOf_append_of_mem hmem]

/-- A doomed process stays doomed. What has to happen gets less, except by what handles do and by
    requests that are taken after the process was killed. -/
theorem Doomed.steps (h : s.Doomed) (hs : s.Steps e m act) : m.Doomed ∧ (m.doom < s.doom ∨
    m.doom = s.doom ∧
      ((∃ r, e = .request r) ∨ e = .forsaken ∨ e = .take ∧ s.isKilled = true)) := by
  cases hs with
  | @late r => exact ⟨h, .inr ⟨rfl, .inl ⟨r, rfl⟩⟩⟩
  | @request r =>
    exact ⟨h.imp_right fun h => h.imp_left fun h => List.mem_append_left _ h,
      .inr ⟨h.doom_append r, .inl ⟨r, rfl⟩⟩⟩
  | forsaken => exact ⟨h, .inr ⟨rfl, .inr (.inl rfl)⟩⟩
  | @skip r queue hphase hqueue hdone =>
    cases hkilled : s.isKilled with
    | true => exact ⟨.inl rfl, .inr ⟨by simp [doom, hphase, hkilled], .inr (.inr ⟨rfl, rfl⟩)⟩⟩
    | false =>
      -- a request to shut down was before the one to kill
      obtain ⟨rfl, -⟩ := hdone.resolve_right (Bool.eq_false_iff.1 hkilled)
      have hmem := h.mem_queue hphase hkilled
      rw [hqueue] at hmem
      refine ⟨.inr (.inl (by simpa using hmem)), .inl ?_⟩
      simp [doom, hphase, hqueue, hkilled]
  | @ask queue hphase hqueue _ hkilled =>
    have hmem := h.mem_queue hphase hkilled
    rw [hqueue] at hmem
    refine ⟨.inr (.inl (by simpa using hmem)), .inl ?_⟩
    simp [doom, hphase, hqueue, hkilled]
    omega
  | kill hphase _ hkilled => exact ⟨.inl rfl, .inl (by simp [doom, hphase, hkilled])⟩
  | deaf hphase hqueue =>
    cases hkilled : s.isKilled with
    | true => exact ⟨.inl rfl, .inr ⟨by simp [doom, hphase, hkilled], .inr (.inr ⟨rfl, rfl⟩)⟩⟩
    | false =>
      have hmem := h.mem_queue hphase hkilled
      rw [hqueue] at hmem
      cases hmem
  | delivery hphase | killed hphase =>
    refine ⟨?_, .inl (by simp [doom, hphase])⟩
    simpa [Doomed, reason?, hphase] using h
  | exit hphase =>
    refine ⟨.inr (.inr rfl), .inl ?_⟩
    simp only [doom, hphase]
    split <;> omega
  | cleaned hphase => exact ⟨.inr (.inr rfl), .inl (by simp [doom, hphase])⟩

/-- Until the exit reason is published, the supervisor of a doomed process has something to do, or
    the process was killed. -/
theorem Doomed.isBusy (h : s.Doomed) (hexit : s.exit? = none) :
    s.isBusy = true ∨ s.phase = .watching ∧ s.isKilled = true := by
  cases hphase : s.phase with
  | delivering | killing | cleaning => exact .inl (by simp [Supervisor.isBusy, hphase])
  | ended => simp [exit?, hphase] at hexit
  | watching =>
    cases hkilled : s.isKilled with
    | true => exact .inr ⟨rfl, rfl⟩
    | false =>
      have hqueue := List.ne_nil_of_mem (h.mem_queue hphase hkilled)
      exact .inl (by simp [Supervisor.isBusy, hphase, hasNews, hqueue])

end VmNode.Supervisor
