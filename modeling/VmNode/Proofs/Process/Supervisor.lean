import Mathlib.Data.List.Nodup
import VmNode.Process.Supervisor

/-!
# The life of a supervisor

What happens to a supervisor one event after the other (`Supervisor.play`) makes it do things
to its process (`Supervisor.acts`). All that it has done can be read off its state
(`Supervisor.deeds`): it asks the guest to power off, then it kills the process, then it
cleans up, and then it publishes the exit reason. It leaves steps out, but never changes
their order and never takes one twice (`Supervisor.acts_eq`).

The exit reason is fixed when waiting for the process is over (`Supervisor.reason?_of_play`).
From the time when it is published, everybody who looks sees it
(`Supervisor.exit?_of_play`).
-/

namespace VmNode

/-- The exit code that waiting for a process came to, if it came to one. -/
def WaitResult.code? : WaitResult → Option Int32
  | .exited code => code
  | .failed => none

namespace Supervisor

/-- What events one after the other make of a supervisor, if they can happen. -/
def play (s : Supervisor) : List Event → Option Supervisor
  | [] => some s
  | e :: rest => (s.step e).bind fun next => next.1.play rest

/-- What a supervisor does along events. -/
def acts (s : Supervisor) : List Event → List Act
  | [] => []
  | e :: rest => (s.step e).elim [] fun next => next.2.toList ++ next.1.acts rest

/-- The request that a supervisor takes out of its queue with an event. -/
def taken? (s : Supervisor) : Event → Option StopRequest
  | .take => s.queue.head?
  | _ => none

/-- The requests that a supervisor takes out of its queue along events. -/
def taken (s : Supervisor) : List Event → List StopRequest
  | [] => []
  | e :: rest => (s.step e).elim [] fun next => (s.taken? e).toList ++ next.1.taken rest

/-- What waiting for the process came to, if it is over with an event. -/
def Event.waited? : Event → Option WaitResult
  | .exit result => some result
  | _ => none

/-- What waiting for the process came to along events. -/
def waited (events : List Event) : List WaitResult := events.filterMap Event.waited?

/-- The exit reason that is published. -/
def Act.reason? : Act → Option ExitReason
  | .publish reason => some reason
  | _ => none

/-- The place of an act in the life of a supervisor. -/
def Act.place : Act → Nat
  | .sendShutdown => 0
  | .startKill => 1
  | .cleanUp => 2
  | .publish _ => 3

variable {s m k : Supervisor} {e : Event} {act : Option Act} {events : List Event}
variable {reason : ExitReason}

/-! ### Steps -/

/-- All that can happen to a supervisor, and what it does then. -/
inductive Steps (s : Supervisor) : Event → Supervisor → Option Act → Prop
  /-- A request comes too late. -/
  | late {r : StopRequest} : s.exit?.isSome = true → Steps s (.request r) s none
  /-- A request is put into the queue. -/
  | request {r : StopRequest} : s.exit? = none →
    Steps s (.request r) { s with queue := s.queue ++ [r] } none
  /-- The last handle is dropped. -/
  | forsaken : Steps s .forsaken { s with isForsaken := true } none
  /-- A request is taken for which it is too late. -/
  | skip {r : StopRequest} {queue : List StopRequest} : s.phase = .watching → s.queue = r :: queue →
    r = .shutdown ∧ s.isAsked = true ∨ s.isKilled = true → Steps s .take { s with queue } none
  /-- The guest is asked to power off. -/
  | ask {queue : List StopRequest} : s.phase = .watching → s.queue = .shutdown :: queue →
    s.isAsked = false → s.isKilled = false →
    Steps s .take { s with queue, phase := .delivering, isAsked := true } (some .sendShutdown)
  /-- The process is killed. -/
  | kill {queue : List StopRequest} {isListening : Bool} : s.phase = .watching →
    s.queue = .kill :: queue ∨ s.queue = [] ∧ queue = [] → s.isKilled = false →
    Steps s .take { s with queue, isListening, phase := .killing, isKilled := true }
      (some .startKill)
  /-- No more requests will come, and the process was killed before. -/
  | deaf : s.phase = .watching → s.queue = [] → Steps s .take { s with isListening := false } none
  /-- Passing the request on is over. -/
  | delivery {result : DeliveryResult} : s.phase = .delivering →
    Steps s (.delivery result) { s with phase := .watching } none
  /-- Killing is over. -/
  | killed {worked : Bool} : s.phase = .killing →
    Steps s (.kill worked) { s with phase := .watching } none
  /-- The process is gone. -/
  | exit {result : WaitResult} : s.phase = .watching →
    Steps s (.exit result) { s with phase := .cleaning (s.reasonFor result) } (some .cleanUp)
  /-- Cleaning up is over. -/
  | cleaned {reason : ExitReason} : s.phase = .cleaning reason →
    Steps s .cleaned { s with phase := .ended reason } (some (.publish reason))

theorem steps_takeNext (hphase : s.phase = .watching) :
    s.Steps .take s.takeNext.1 s.takeNext.2 := by
  rw [takeNext]
  split
  · rename_i queue hqueue
    split
    · rename_i hdone
      exact .skip hphase hqueue ((Bool.or_eq_true _ _ ▸ hdone).imp_left fun h => ⟨rfl, h⟩)
    · rename_i hdone
      rw [Bool.not_eq_true, Bool.or_eq_false_iff] at hdone
      exact .ask hphase hqueue hdone.1 hdone.2
  · rename_i queue hqueue
    rw [killOnce]
    split
    · rename_i hkilled
      exact .skip hphase hqueue (.inr hkilled)
    · rename_i hkilled
      exact .kill hphase (.inl hqueue) (by simpa using hkilled)
  · rename_i hqueue
    rw [killOnce]
    split
    · exact .deaf hphase hqueue
    · rename_i hkilled
      exact .kill hphase (.inr ⟨hqueue, hqueue⟩) (by simpa using hkilled)

theorem steps_of_step (h : s.step e = some (m, act)) : s.Steps e m act := by
  cases e with
  | forsaken =>
    cases h
    exact .forsaken
  | request r =>
    rw [step] at h
    cases hexit : s.exit? with
    | some reason =>
      rw [hexit] at h
      cases h
      exact .late (by rw [hexit]; rfl)
    | none =>
      rw [hexit] at h
      split at h
      · contradiction
      · split at h <;> cases h
        exact .request hexit
  | take =>
    rw [step] at h
    split at h
    · rename_i hphase
      split at h
      · rw [Option.some.injEq] at h
        have := steps_takeNext hphase
        rwa [h] at this
      · cases h
    · cases h
  | delivery result =>
    rw [step] at h
    split at h <;> cases h
    exact .delivery ‹_›
  | kill worked =>
    rw [step] at h
    split at h <;> cases h
    exact .killed ‹_›
  | exit result =>
    rw [step] at h
    split at h <;> cases h
    exact .exit ‹_›
  | cleaned =>
    rw [step] at h
    split at h <;> cases h
    exact .cleaned ‹_›

/-- What events make of a supervisor, one first. -/
theorem play_cons (h : s.play (e :: events) = some k) :
    ∃ m act, s.step e = some (m, act) ∧ m.play events = some k := by
  obtain ⟨⟨m, act⟩, hstep, hplay⟩ := Option.bind_eq_some_iff.1 h
  exact ⟨m, act, hstep, hplay⟩

theorem play_concat (h : s.play events = some m) (hstep : m.step e = some (k, act)) :
    s.play (events ++ [e]) = some k := by
  induction events generalizing s with
  | nil =>
    obtain rfl := Option.some.inj h
    rw [List.nil_append, play, hstep]
    rfl
  | cons f rest ih =>
    obtain ⟨v, act', hfirst, hrest⟩ := play_cons h
    rw [List.cons_append, play, hfirst]
    exact ih hrest

/-! ### Acts -/

/-- The exit reason, which is known to the supervisor before it is published. -/
def reason? (s : Supervisor) : Option ExitReason :=
  match s.phase with
  | .cleaning reason | .ended reason => some reason
  | _ => none

/-- All that a supervisor in this state has done. -/
def deeds (s : Supervisor) : List Act :=
  (if s.isAsked then [.sendShutdown] else []) ++ (if s.isKilled then [.startKill] else []) ++
    match s.phase with
    | .watching | .delivering | .killing => []
    | .cleaning _ => [.cleanUp]
    | .ended reason => [.cleanUp, .publish reason]

/-- A step adds to the deeds what the supervisor does then, at their end. -/
theorem Steps.deeds (h : s.Steps e m act) : m.deeds = s.deeds ++ act.toList := by
  cases h with
  | late | request | forsaken | skip | deaf => simp [Supervisor.deeds]
  | ask hphase _ hasked hkilled => simp [Supervisor.deeds, hphase, hasked, hkilled]
  | kill hphase _ hkilled => simp [Supervisor.deeds, hphase, hkilled]
  | delivery hphase | killed hphase | exit hphase | cleaned hphase =>
    simp [Supervisor.deeds, hphase]

/-- What a supervisor does along events are the deeds that it has more afterwards. -/
theorem acts_eq (h : s.play events = some k) : s.deeds ++ s.acts events = k.deeds := by
  induction events generalizing s with
  | nil =>
    obtain rfl := Option.some.inj h
    exact List.append_nil _
  | cons e rest ih =>
    obtain ⟨m, act, hstep, hplay⟩ := play_cons h
    rw [acts, hstep, Option.elim_some, ← List.append_assoc, ← (steps_of_step hstep).deeds]
    exact ih hplay

theorem acts_start (h : start.play events = some s) : start.acts events = s.deeds := acts_eq h

theorem mem_deeds_startKill : .startKill ∈ s.deeds ↔ s.isKilled = true := by
  rw [deeds]
  cases s.phase <;> simp

/-- No act comes twice, or before one that has an earlier place. -/
theorem pairwise_deeds (s : Supervisor) : s.deeds.Pairwise fun a b => a.place < b.place := by
  rw [deeds]
  cases s.phase <;> cases s.isAsked <;> cases s.isKilled <;> simp [Act.place]

/-- So the guest is asked once at most, and the process is killed once at most. -/
theorem count_deeds_le (s : Supervisor) (act : Act) : s.deeds.count act ≤ 1 := by
  refine List.nodup_iff_count_le_one.1 (s.pairwise_deeds.imp fun hplace heq => ?_) act
  rw [heq] at hplace
  exact Nat.lt_irrefl _ hplace

/-- The process is cleaned up behind once, when it is known why it went away. -/
theorem count_cleanUp_deeds (s : Supervisor) :
    s.deeds.count .cleanUp = s.reason?.toList.length := by
  rw [deeds, reason?]
  cases s.phase <;> cases s.isAsked <;> cases s.isKilled <;> rfl

/-- What is published is the exit reason that everybody sees. -/
theorem filterMap_deeds (s : Supervisor) : s.deeds.filterMap Act.reason? = s.exit?.toList := by
  rw [deeds, exit?]
  cases s.phase <;> cases s.isAsked <;> cases s.isKilled <;> rfl

/-! ### Requests -/

/-- A process that is not killed is asked with the first request that is taken. -/
theorem Steps.isAsked (h : s.Steps e m act) (hkilled : m.isKilled = false) :
    s.isKilled = false ∧ (m.isAsked = true ↔ s.isAsked = true ∨ s.taken? e = some .shutdown) := by
  cases h with
  | late | request | forsaken | delivery | killed | exit | cleaned =>
    exact ⟨hkilled, by simp [taken?]⟩
  | skip hphase hqueue hdone =>
    rcases hdone with ⟨rfl, hasked⟩ | hdone
    · exact ⟨hkilled, by simp [hasked]⟩
    · cases hdone.symm.trans hkilled
  | ask hphase hqueue => exact ⟨hkilled, by simp [taken?, hqueue]⟩
  | kill => cases hkilled
  | deaf hphase hqueue => exact ⟨hkilled, by simp [taken?, hqueue]⟩

theorem isAsked_of_play (h : s.play events = some k) (hkilled : k.isKilled = false) :
    s.isKilled = false ∧ (k.isAsked = true ↔ s.isAsked = true ∨ .shutdown ∈ s.taken events) := by
  induction events generalizing s with
  | nil =>
    obtain rfl := Option.some.inj h
    exact ⟨hkilled, by simp [taken]⟩
  | cons e rest ih =>
    obtain ⟨m, act, hstep, hplay⟩ := play_cons h
    obtain ⟨hm, hrest⟩ := ih hplay
    obtain ⟨hs, hfirst⟩ := (steps_of_step hstep).isAsked hm
    refine ⟨hs, ?_⟩
    rw [hrest, hfirst, taken, hstep, Option.elim_some, List.mem_append, Option.mem_toList, or_assoc]

/-! ### Exit reasons -/

theorem reason?_of_exit? (h : s.exit? = some reason) : s.reason? = some reason := by
  rw [exit?] at h
  split at h
  · rename_i hphase
    rw [reason?, hphase]
    exact h
  · cases h

/-- The reason is found when waiting for the process is over. After that nothing happens any
    more that would count for it. -/
theorem Steps.reason? (h : s.Steps e m act) :
    (∃ result, e = .exit result ∧ s.reason? = none ∧ m.reason? = some (m.reasonFor result)) ∨
    e.waited? = none ∧ m.reason? = s.reason? ∧
      (s.reason? ≠ none → ∀ result, m.reasonFor result = s.reasonFor result) := by
  cases h with
  | late => exact .inr ⟨rfl, rfl, fun _ _ => rfl⟩
  | request | forsaken => exact .inr ⟨rfl, rfl, fun _ _ => rfl⟩
  | skip | deaf => exact .inr ⟨rfl, rfl, fun _ _ => rfl⟩
  | ask hphase | kill hphase | delivery hphase | killed hphase =>
    have hnone : s.reason? = none := by rw [Supervisor.reason?, hphase]
    exact .inr ⟨rfl, hnone.symm, fun hsome => absurd hnone hsome⟩
  | @exit result hphase =>
    exact .inl ⟨result, rfl, by rw [Supervisor.reason?, hphase], rfl⟩
  | @cleaned reason hphase =>
    exact .inr ⟨rfl, by simp [Supervisor.reason?, hphase], fun _ _ => rfl⟩

/-- A reason that is found stays, and waiting for the process is not over again. -/
theorem reason?_of_found (h : s.play events = some k) (hs : s.reason? = some reason) :
    waited events = [] ∧ k.reason? = some reason ∧
      ∀ result, k.reasonFor result = s.reasonFor result := by
  induction events generalizing s with
  | nil =>
    obtain rfl := Option.some.inj h
    exact ⟨rfl, hs, fun _ => rfl⟩
  | cons e rest ih =>
    obtain ⟨m, act, hstep, hplay⟩ := play_cons h
    rcases (steps_of_step hstep).reason? with ⟨result, -, hnone, -⟩ | ⟨hwaited, hreason, hsame⟩
    · cases hnone.symm.trans hs
    · obtain ⟨hrest, hk, hfor⟩ := ih hplay (hreason.trans hs)
      refine ⟨?_, hk, fun result => (hfor result).trans (hsame (by simp [hs]) result)⟩
      rw [waited, List.filterMap_cons, hwaited]
      exact hrest

/-- Waiting for a process is over once at most, and the reason follows from what it came to. -/
theorem reason?_of_play (h : s.play events = some k) (hs : s.reason? = none) :
    waited events = [] ∧ k.reason? = none ∨
      ∃ result, waited events = [result] ∧ k.reason? = some (k.reasonFor result) := by
  induction events generalizing s with
  | nil =>
    obtain rfl := Option.some.inj h
    exact .inl ⟨rfl, hs⟩
  | cons e rest ih =>
    obtain ⟨m, act, hstep, hplay⟩ := play_cons h
    rcases (steps_of_step hstep).reason? with ⟨result, rfl, -, hm⟩ | ⟨hwaited, hreason, -⟩
    · obtain ⟨hrest, hk, hfor⟩ := reason?_of_found hplay hm
      refine .inr ⟨result, ?_, hk.trans (congrArg some (hfor result).symm)⟩
      rw [waited, List.filterMap_cons]
      exact congrArg (result :: ·) hrest
    · rw [waited, List.filterMap_cons, hwaited]
      exact ih hplay (hreason.trans hs)

/-! ### Publishing -/

/-- The reason is published when cleaning up is over, and stays. -/
theorem Steps.exit? (h : s.Steps e m act) :
    (e = .cleaned ∧ m.exit? = s.reason? ∧ m.exit?.isSome = true) ∨
      e ≠ .cleaned ∧ m.exit? = s.exit? := by
  cases h with
  | late => exact .inr ⟨nofun, rfl⟩
  | request | forsaken | skip | deaf => exact .inr ⟨nofun, rfl⟩
  | ask hphase | kill hphase | delivery hphase | killed hphase | exit hphase =>
    exact .inr ⟨nofun, by simp [Supervisor.exit?, hphase]⟩
  | @cleaned reason hphase => exact .inl ⟨rfl, by rw [Supervisor.reason?, hphase]; rfl, rfl⟩

/-- A reason that is published stays. -/
theorem exit?_of_steps (h : s.Steps e m act) (hs : s.exit? = some reason) :
    m.exit? = some reason := by
  rcases h.exit? with ⟨-, hm, -⟩ | ⟨-, hm⟩
  · rw [hm]
    exact reason?_of_exit? hs
  · exact hm.trans hs

theorem exit?_of_play (h : s.play events = some k) (hs : s.exit? = some reason) :
    k.exit? = some reason := by
  induction events generalizing s with
  | nil =>
    obtain rfl := Option.some.inj h
    exact hs
  | cons e rest ih =>
    obtain ⟨m, act, hstep, hplay⟩ := play_cons h
    exact ih hplay (exit?_of_steps (steps_of_step hstep) hs)

/-- The reason is published if cleaning up is over, and not before. -/
theorem isSome_exit?_of_play (h : s.play events = some k) :
    k.exit?.isSome = true ↔ s.exit?.isSome = true ∨ .cleaned ∈ events := by
  induction events generalizing s with
  | nil =>
    obtain rfl := Option.some.inj h
    simp
  | cons e rest ih =>
    obtain ⟨m, act, hstep, hplay⟩ := play_cons h
    rw [ih hplay, List.mem_cons]
    rcases (steps_of_step hstep).exit? with ⟨rfl, -, hm⟩ | ⟨hne, hm⟩
    · simp [hm]
    · rw [hm]
      simp [hne.symm]

/-- Before cleaning up is over, the process has gone away. -/
theorem exit_before_cleaned (h : s.play events = some k) (hs : s.reason? = none)
    (hk : k.exit?.isSome = true) : ∃ result, [.exit result, .cleaned].Sublist events := by
  induction events generalizing s with
  | nil =>
    obtain rfl := Option.some.inj h
    obtain ⟨reason, hreason⟩ := Option.isSome_iff_exists.1 hk
    cases hs.symm.trans (reason?_of_exit? hreason)
  | cons e rest ih =>
    obtain ⟨m, act, hstep, hplay⟩ := play_cons h
    have hsteps := steps_of_step hstep
    rcases hsteps.reason? with ⟨result, rfl, hnone, hm⟩ | ⟨-, hreason, -⟩
    · -- the reason is found but not published, so cleaning up is still to come
      have hexit : m.exit? = none := by
        rcases hsteps.exit? with ⟨hne, -⟩ | ⟨-, heq⟩
        · cases hne
        · refine heq.trans (Option.eq_none_iff_forall_ne_some.2 fun r hr => ?_)
          cases hnone.symm.trans (reason?_of_exit? hr)
      have hcleaned := ((isSome_exit?_of_play hplay).1 hk).resolve_left (by simp [hexit])
      exact ⟨result, (List.singleton_sublist.2 hcleaned).cons_cons _⟩
    · obtain ⟨result, hsub⟩ := ih hplay (hreason.trans hs)
      exact ⟨result, hsub.cons _⟩

/-! ### A whole life -/

/-- What a supervisor of a process that was just started has done and shows after these
    events. -/
structure Faithful (events : List Event) (s : Supervisor) : Prop where
  /-- The guest is asked to power off once at most. -/
  asked : (start.acts events).count .sendShutdown ≤ 1
  /-- The process is killed once at most. -/
  killed : (start.acts events).count .startKill ≤ 1
  /-- The guest is asked, if at all, before the process is killed, which is cleaned up after
      that; and the reason is published last. -/
  ordered : (start.acts events).Pairwise fun a b => a.place < b.place
  /-- When waiting for the process is over, and only then, it is cleaned up behind it; and
      waiting is over once at most. -/
  cleaned : (start.acts events).count .cleanUp = (waited events).length ∧ (waited events).length ≤ 1
  /-- One reason is published, if it is one that everybody sees. -/
  published : (start.acts events).filterMap Act.reason? = s.exit?.toList
  /-- There is a reason to see if cleaning up is over. -/
  visible : s.exit?.isSome = true ↔ .cleaned ∈ events
  /-- By then the process has gone away. -/
  gone : s.exit?.isSome = true → ∃ result, [.exit result, .cleaned].Sublist events
  /-- Whoever looks later sees the same reason. -/
  fixed : ∀ later m, s.play later = some m → s.exit? = none ∨ m.exit? = s.exit?
  /-- A call to stop the process ends with no other reason. -/
  answered : ∀ (stage : Stop) now timeout m reason,
    stage.step now timeout s = some (m, .inr reason) → s.exit? = some reason
  /-- The reason tells whether the process was killed, and if it was not, whether its guest
      was asked. -/
  reason : ∀ r, s.exit? = some r → ∃ result, waited events = [result] ∧
    (r = .forced ↔ .startKill ∈ start.acts events) ∧
    (r = .clean ↔ .startKill ∉ start.acts events ∧ .shutdown ∈ start.taken events ∧
      ∃ code, result = .exited code) ∧
    ∀ code, r = .crashed code ↔ .startKill ∉ start.acts events ∧
      (.shutdown ∉ start.taken events ∨ result = .failed) ∧ code = result.code?

/-- A process that was killed is said to be, whatever waiting for it came to. -/
theorem reasonFor_eq_forced {result : WaitResult} :
    s.reasonFor result = .forced ↔ s.isKilled = true := by
  cases result <;> cases hk : s.isKilled <;> cases ha : s.isAsked <;> simp [reasonFor, hk, ha]

theorem reasonFor_eq_clean {result : WaitResult} : s.reasonFor result = .clean ↔
    s.isKilled = false ∧ s.isAsked = true ∧ ∃ code, result = .exited code := by
  cases result <;> cases hk : s.isKilled <;> cases ha : s.isAsked <;> simp [reasonFor, hk, ha]

theorem reasonFor_eq_crashed {result : WaitResult} {code : Option Int32} :
    s.reasonFor result = .crashed code ↔
      s.isKilled = false ∧ (s.isAsked = false ∨ result = .failed) ∧ code = result.code? := by
  cases result <;> cases hk : s.isKilled <;> cases ha : s.isAsked <;>
    simp [reasonFor, hk, ha, WaitResult.code?, eq_comm]

/-- A call that stops a process ends when the exit reason is published. -/
theorem exit?_of_stop {stage : Stop} {now timeout : Nat}
    (h : stage.step now timeout s = some (m, .inr reason)) : s.exit? = some reason := by
  cases stage with
  | ask =>
    rw [Stop.step] at h
    split at h
    · cases h
      assumption
    · obtain ⟨_, -, heq⟩ := Option.map_eq_some_iff.1 h
      cases heq
  | await deadline =>
    rw [Stop.step] at h
    split at h
    · cases h
      assumption
    · split at h <;> cases h
  | escalate =>
    obtain ⟨_, -, heq⟩ := Option.map_eq_some_iff.1 h
    cases heq
  | reap =>
    obtain ⟨_, hexit, heq⟩ := Option.map_eq_some_iff.1 h
    cases heq
    exact hexit

/-- The reason that is published is the one that fits what waiting for the process came to. -/
theorem eq_reasonFor_of_exit? (h : start.play events = some s) (hr : s.exit? = some reason) :
    ∃ result, waited events = [result] ∧ reason = s.reasonFor result := by
  have hknown := reason?_of_exit? hr
  rcases reason?_of_play h rfl with ⟨-, hnone⟩ | ⟨result, hwaited, hfound⟩
  · cases hnone.symm.trans hknown
  · exact ⟨result, hwaited, Option.some.inj (hknown.symm.trans hfound)⟩

/-- A process is cleaned up as often as waiting for it is over, which is once at most. -/
theorem cleaned_of_play (h : start.play events = some s) :
    (start.acts events).count .cleanUp = (waited events).length ∧
      (waited events).length ≤ 1 := by
  rw [acts_start h, count_cleanUp_deeds]
  rcases reason?_of_play h rfl with ⟨hwaited, hnone⟩ | ⟨result, hwaited, hfound⟩
  · rw [hwaited, hnone]
    exact ⟨rfl, Nat.zero_le 1⟩
  · rw [hwaited, hfound]
    exact ⟨rfl, Nat.le_refl 1⟩

/-- Which reason is published. -/
theorem reason_of_play (h : start.play events = some s) (hr : s.exit? = some reason) :
    ∃ result, waited events = [result] ∧
      (reason = .forced ↔ .startKill ∈ start.acts events) ∧
      (reason = .clean ↔ .startKill ∉ start.acts events ∧ .shutdown ∈ start.taken events ∧
        ∃ code, result = .exited code) ∧
      ∀ code, reason = .crashed code ↔ .startKill ∉ start.acts events ∧
        (.shutdown ∉ start.taken events ∨ result = .failed) ∧ code = result.code? := by
  obtain ⟨result, hwaited, rfl⟩ := eq_reasonFor_of_exit? h hr
  have hkilled : .startKill ∈ start.acts events ↔ s.isKilled = true := by
    rw [acts_start h]
    exact mem_deeds_startKill
  -- a process that was not killed was asked if the supervisor has taken such a request
  have hasked : s.isKilled = false → (s.isAsked = true ↔ .shutdown ∈ start.taken events) :=
    fun hk => by simpa [start] using (isAsked_of_play h hk).2
  refine ⟨result, hwaited, reasonFor_eq_forced.trans hkilled.symm, ?_, fun code => ?_⟩
  · rw [reasonFor_eq_clean, hkilled, Bool.not_eq_true]
    exact and_congr_right fun hk => and_congr_left' (hasked hk)
  · rw [reasonFor_eq_crashed, hkilled, Bool.not_eq_true]
    refine and_congr_right fun hk => and_congr_left' (or_congr_left ?_)
    rw [← hasked hk, Bool.not_eq_true]

/-- Whatever requests come, in whatever order and number, and whatever becomes of them, the
    supervisor of a process passes them on, cleans up behind the process, and publishes why it
    went away, each of it once at most and in this order; and it publishes the right reason,
    which stays. -/
theorem faithful_of_play (h : start.play events = some s) : Faithful events s where
  asked := acts_start h ▸ count_deeds_le s _
  killed := acts_start h ▸ count_deeds_le s _
  ordered := acts_start h ▸ pairwise_deeds s
  cleaned := cleaned_of_play h
  published := acts_start h ▸ filterMap_deeds s
  visible := by simpa [start, exit?] using isSome_exit?_of_play h
  gone hs := exit_before_cleaned h rfl hs
  fixed later m hlater := by
    cases hexit : s.exit? with
    | none => exact .inl rfl
    | some r => exact .inr (exit?_of_play hlater hexit)
  answered _ _ _ _ _ hstop := exit?_of_stop hstop
  reason _ hr := reason_of_play h hr

/-- A guest is asked twice to power off, does not take the request in time, and is killed, in
    vain at first; then all handles are dropped. -/
def wedged : List Event :=
  [.request .shutdown, .request .shutdown, .take, .delivery .timedOut, .request .kill, .take,
    .request .kill, .take, .kill false, .take, .forsaken, .take, .exit .failed, .cleaned,
    .request .kill]

/-- One request of each kind gets through, and whoever looks sees that the process was
    killed. -/
theorem faithful_wedged : ∃ s, start.play wedged = some s ∧
    start.acts wedged = [.sendShutdown, .startKill, .cleanUp, .publish .forced] ∧
    s.exit? = some .forced ∧ Faithful wedged s := by
  let s := (start.play wedged).get (by decide)
  have hplay : start.play wedged = some s := (Option.some_get _).symm
  exact ⟨s, hplay, by decide, by decide, faithful_of_play hplay⟩

end Supervisor

end VmNode
