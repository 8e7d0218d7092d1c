import VmNode.Proofs.Process.Supervisor

/-!
# What an exit reason is worth

A supervisor attempts to pass a shutdown request on, and it attempts to kill the process.
Either attempt may fail. What came of it is known when it is over (`Supervisor.attempts`), but
the exit reason is named after the attempt, whatever came of it:

* an attempt of either kind is made once at most, and it is over or still under way
  (`Supervisor.length_attempts`);
* it is over before the process goes away, and no other is made after that
  (`Supervisor.exists_exit`).

So a clean exit follows an attempt to pass a request on, and a forced one an attempt to kill. An
exit reason is *earned* if that attempt worked (`Supervisor.Earned`). `Supervisor.tried_of_play`
says what each reason stands for, and which are earned; `Supervisor.not_earned` has a run for
each of the two that are not.
-/

namespace VmNode.Supervisor

/-- Whether the attempt to do as requested worked, if it is over with an event. -/
def Event.attempt? : StopRequest → Event → Option Bool
  | .shutdown, .delivery result => some (result = .delivered)
  | .kill, .kill worked => some worked
  | _, _ => none

/-- Which attempts to do as requested worked, of those that are over along events. -/
def attempts (r : StopRequest) (events : List Event) : List Bool :=
  events.filterMap (Event.attempt? r)

/-- The attempts to do as requested that are under way in a phase. -/
def Phase.attempting : StopRequest → Phase → Nat
  | .shutdown, .delivering => 1
  | .kill, .killing => 1
  | _, _ => 0

/-- The attempts to do as requested that were ever made. -/
def attempted (s : Supervisor) : StopRequest → Nat
  | .shutdown => s.isAsked.toNat
  | .kill => s.isKilled.toNat

/-- An attempt to do as requested was over before the process went away, and it worked or did
    not. -/
def Preceded (r : StopRequest) (worked : Bool) (events : List Event) : Prop :=
  ∃ e result, e.attempt? r = some worked ∧ [e, .exit result].Sublist events

variable {s m k : Supervisor} {e : Event} {act : Option Act} {events : List Event}
variable {r : StopRequest} {reason : ExitReason}

/-! ### Attempts -/

theorem attempts_cons (r : StopRequest) (e : Event) (events : List Event) :
    attempts r (e :: events) = (e.attempt? r).toList ++ attempts r events := by
  rw [attempts, List.filterMap_cons]
  cases e.attempt? r <;> rfl

theorem Preceded.mem {worked : Bool} (h : Preceded r worked events) :
    worked ∈ attempts r events := by
  obtain ⟨e, result, he, hsub⟩ := h
  exact List.mem_filterMap.2 ⟨e, hsub.subset (List.mem_cons_self ..), he⟩

/-- An attempt is made, is under way, and is over. -/
theorem Steps.length_attempt (h : s.Steps e m act) (r : StopRequest) :
    (e.attempt? r).toList.length + m.phase.attempting r + s.attempted r =
      s.phase.attempting r + m.attempted r := by
  cases h with
  | late | request | forsaken | skip | deaf => cases r <;> simp [Event.attempt?, attempted]
  | ask hphase _ hasked =>
    cases r <;> simp [Event.attempt?, Phase.attempting, attempted, hphase, hasked]
  | kill hphase _ hkilled =>
    cases r <;> simp [Event.attempt?, Phase.attempting, attempted, hphase, hkilled]
  | delivery hphase | killed hphase | exit hphase | cleaned hphase =>
    cases r <;> simp [Event.attempt?, Phase.attempting, attempted, hphase]

theorem length_attempts (h : s.play events = some k) (r : StopRequest) :
    (attempts r events).length + k.phase.attempting r + s.attempted r =
      s.phase.attempting r + k.attempted r := by
  induction events generalizing s with
  | nil =>
    obtain rfl := Option.some.inj h
    simp [attempts]
  | cons e rest ih =>
    obtain ⟨m, act, hstep, hplay⟩ := play_cons h
    have hfirst := (steps_of_step hstep).length_attempt r
    have hrest := ih hplay
    rw [attempts_cons, List.length_append]
    omega

/-! ### The exit -/

/-- When it is known why the process went away, nothing is attempted any more. -/
theorem Steps.attempt?_of_found (h : s.Steps e m act) (hs : s.reason? = some reason) :
    e.attempt? r = none ∧ m.reason? = some reason := by
  cases h with
  | late | request | forsaken | skip | deaf => exact ⟨by cases r <;> rfl, hs⟩
  | ask hphase | kill hphase | delivery hphase | killed hphase | exit hphase =>
    rw [Supervisor.reason?, hphase] at hs
    cases hs
  | cleaned hphase =>
    rw [Supervisor.reason?, hphase] at hs
    exact ⟨by cases r <;> rfl, hs⟩

theorem attempts_of_found (h : s.play events = some k) (hs : s.reason? = some reason) :
    attempts r events = [] := by
  induction events generalizing s with
  | nil => rfl
  | cons e rest ih =>
    obtain ⟨m, act, hstep, hplay⟩ := play_cons h
    obtain ⟨hfirst, hm⟩ := (steps_of_step hstep).attempt?_of_found (r := r) hs
    rw [attempts_cons, hfirst, ih hplay hm]
    rfl

/-- The process goes away in the midst of the events, and all attempts are over before. -/
theorem exists_exit (h : s.play events = some k) (hs : s.reason? = none)
    (hk : k.reason? = some reason) :
    ∃ before result after, events = before ++ .exit result :: after ∧
      ∀ r, attempts r events = attempts r before := by
  induction events generalizing s with
  | nil =>
    obtain rfl := Option.some.inj h
    cases hs.symm.trans hk
  | cons e rest ih =>
    obtain ⟨m, act, hstep, hplay⟩ := play_cons h
    rcases (steps_of_step hstep).reason? with ⟨result, rfl, -, hm⟩ | ⟨-, hm, -⟩
    · refine ⟨[], result, rest, rfl, fun r => ?_⟩
      rw [attempts_cons, attempts_of_found hplay hm]
      cases r <;> rfl
    · obtain ⟨before, result, after, rfl, hbefore⟩ := ih hplay (hm.trans hs)
      refine ⟨e :: before, result, after, rfl, fun r => ?_⟩
      rw [attempts_cons, attempts_cons, hbefore]

/-- Whatever was attempted was over before the process went away. -/
theorem preceded_iff (h : s.play events = some k) (hs : s.reason? = none)
    (hk : k.reason? = some reason) (worked : Bool) :
    Preceded r worked events ↔ worked ∈ attempts r events := by
  refine ⟨Preceded.mem, fun hmem => ?_⟩
  obtain ⟨before, result, after, rfl, hbefore⟩ := exists_exit h hs hk
  rw [hbefore] at hmem
  obtain ⟨e, hin, he⟩ := List.mem_filterMap.1 hmem
  refine ⟨e, result, he, ?_⟩
  exact (List.singleton_sublist.2 hin).append ((List.nil_sublist after).cons_cons (.exit result))

/-! ### What a reason stands for -/

/-- The exit reason says what became of the attempts to stop the process. -/
structure Earned (events : List Event) (s : Supervisor) : Prop where
  /-- The guest got a shutdown request before a clean exit. -/
  clean : s.exit? = some .clean → Preceded .shutdown true events
  /-- Killing worked before a forced exit. -/
  forced : s.exit? = some .forced → Preceded .kill true events
  /-- Any other exit is a crash. -/
  crashed : ∀ reason, s.exit? = some reason → ¬ Preceded .shutdown true events →
    ¬ Preceded .kill true events → ∃ code, reason = .crashed code

/-- The exit reason says what was attempted to stop the process. -/
structure Tried (events : List Event) (s : Supervisor) : Prop where
  /-- Before a clean exit one request was passed on, and the process was not killed. -/
  clean : s.exit? = some .clean → attempts .kill events = [] ∧
    ∃ worked, attempts .shutdown events = [worked] ∧ Preceded .shutdown worked events
  /-- Before a forced exit the process was killed once. -/
  forced : s.exit? = some .forced →
    ∃ worked, attempts .kill events = [worked] ∧ Preceded .kill worked events
  /-- Before a crash the process was not killed, and no request was passed on unless waiting for
      the process failed. -/
  crashed : ∀ code, s.exit? = some (.crashed code) → attempts .kill events = [] ∧
    ∃ result, waited events = [result] ∧ code = result.code? ∧
      (attempts .shutdown events = [] ∨ result = .failed)
  /-- The reason is earned if the attempt that it is named after worked, and only then. -/
  earned : Earned events s ↔
    (s.exit? = some .clean → ∀ worked ∈ attempts .shutdown events, worked = true) ∧
    (s.exit? = some .forced → ∀ worked ∈ attempts .kill events, worked = true)

/-- When the exit reason is published, all attempts are over. -/
theorem length_attempts_of_exit? (h : start.play events = some s) (hs : s.exit? = some reason)
    (r : StopRequest) : (attempts r events).length = s.attempted r := by
  have hlength := length_attempts h r
  have hstart : start.attempted r = 0 := by cases r <;> rfl
  have hbefore : start.phase.attempting r = 0 := by cases r <;> rfl
  have hafter : s.phase.attempting r = 0 := by
    rw [exit?] at hs
    split at hs
    · rename_i hphase
      cases r <;> simp [Phase.attempting, hphase]
    · cases hs
  omega

/-- The one attempt was over before the process went away. -/
theorem exists_attempt (h : start.play events = some s) (hs : s.exit? = some reason)
    (hr : s.attempted r = 1) :
    ∃ worked, attempts r events = [worked] ∧ Preceded r worked events := by
  obtain ⟨worked, hworked⟩ := List.length_eq_one_iff.1
    ((length_attempts_of_exit? h hs r).trans hr)
  refine ⟨worked, hworked, (preceded_iff h rfl (reason?_of_exit? hs) worked).2 ?_⟩
  rw [hworked]
  exact List.mem_singleton_self worked

theorem attempts_eq_nil (h : start.play events = some s) (hs : s.exit? = some reason)
    (hr : s.attempted r = 0) : attempts r events = [] :=
  List.length_eq_zero_iff.1 ((length_attempts_of_exit? h hs r).trans hr)

/-- The published reason follows from what waiting for the process came to. -/
theorem exists_waited (h : start.play events = some s) (hs : s.exit? = some reason) :
    ∃ result, waited events = [result] ∧ s.reasonFor result = reason := by
  have hfound := reason?_of_exit? hs
  rcases reason?_of_play h rfl with ⟨-, hnone⟩ | ⟨result, hwaited, hresult⟩
  · cases hnone.symm.trans hfound
  · exact ⟨result, hwaited, Option.some.inj (hresult.symm.trans hfound)⟩

theorem attempted_of_clean (h : start.play events = some s) (hs : s.exit? = some .clean) :
    s.attempted .kill = 0 ∧ s.attempted .shutdown = 1 := by
  obtain ⟨result, -, hresult⟩ := exists_waited h hs
  obtain ⟨hkilled, hasked, -⟩ := reasonFor_eq_clean.1 hresult
  simp [attempted, hkilled, hasked]

theorem attempted_of_forced (h : start.play events = some s) (hs : s.exit? = some .forced) :
    s.attempted .kill = 1 := by
  obtain ⟨result, -, hresult⟩ := exists_waited h hs
  simp [attempted, reasonFor_eq_forced.1 hresult]

/-- What holds of the one attempt holds of all. -/
theorem preceded_true_iff (h : start.play events = some s) (hs : s.exit? = some reason)
    (hr : s.attempted r = 1) :
    Preceded r true events ↔ ∀ worked ∈ attempts r events, worked = true := by
  obtain ⟨worked, hworked, -⟩ := exists_attempt h hs hr
  rw [preceded_iff h rfl (reason?_of_exit? hs), hworked]
  simp [eq_comm]

/-- The reason is earned if the attempt that it is named after worked, and only then. -/
theorem earned_iff (h : start.play events = some s) : Earned events s ↔
    (s.exit? = some .clean → ∀ worked ∈ attempts .shutdown events, worked = true) ∧
    (s.exit? = some .forced → ∀ worked ∈ attempts .kill events, worked = true) := by
  have hclean : s.exit? = some .clean → (Preceded .shutdown true events ↔
      ∀ worked ∈ attempts .shutdown events, worked = true) :=
    fun hs => preceded_true_iff h hs (attempted_of_clean h hs).2
  have hforced : s.exit? = some .forced → (Preceded .kill true events ↔
      ∀ worked ∈ attempts .kill events, worked = true) :=
    fun hs => preceded_true_iff h hs (attempted_of_forced h hs)
  constructor
  · intro hearned
    exact ⟨fun hs => (hclean hs).1 (hearned.clean hs),
      fun hs => (hforced hs).1 (hearned.forced hs)⟩
  · rintro ⟨hasked, hkilled⟩
    refine ⟨fun hs => (hclean hs).2 (hasked hs), fun hs => (hforced hs).2 (hkilled hs),
      fun reason hs hnoRequest hnoKill => ?_⟩
    cases reason with
    | clean => exact absurd ((hclean hs).2 (hasked hs)) hnoRequest
    | forced => exact absurd ((hforced hs).2 (hkilled hs)) hnoKill
    | crashed code => exact ⟨code, rfl⟩

/-- Whatever requests come and whatever becomes of them, the exit reason says what was attempted
    to stop the process; and it says what became of that if the attempt that it is named after
    worked. -/
theorem tried_of_play (h : start.play events = some s) : Tried events s := by
  refine ⟨fun hs => ?_, fun hs => exists_attempt h hs (attempted_of_forced h hs),
    fun code hs => ?_, earned_iff h⟩
  · obtain ⟨hkill, hshutdown⟩ := attempted_of_clean h hs
    exact ⟨attempts_eq_nil h hs hkill, exists_attempt h hs hshutdown⟩
  · obtain ⟨result, hwaited, hresult⟩ := exists_waited h hs
    obtain ⟨hkilled, hasked, hcode⟩ := reasonFor_eq_crashed.1 hresult
    refine ⟨attempts_eq_nil h hs (by simp [attempted, hkilled]), result, hwaited, hcode,
      hasked.imp_left fun hasked => attempts_eq_nil h hs (by simp [attempted, hasked])⟩

/-- The guest takes a shutdown request, and a second one is dropped; it powers off before it is
    killed, which is then in vain. -/
def obliging : List Event :=
  [.request .shutdown, .request .shutdown, .take, .delivery .delivered, .take, .request .kill,
    .exit (.exited (some 0)), .request .kill, .forsaken, .cleaned]

/-- A shutdown request cannot be passed on, and the guest exits for a reason of its own. -/
def refused : List Event :=
  [.request .shutdown, .take, .delivery .failed, .exit (.exited (some 7)), .cleaned]

/-- The process cannot be killed, and exits for a reason of its own. -/
def survived : List Event :=
  [.request .kill, .take, .kill false, .exit (.exited (some 7)), .cleaned]

/-- The exit of the guest that took the request is clean, and that is earned. -/
theorem tried_obliging : ∃ s, start.play obliging = some s ∧ s.exit? = some .clean ∧
    attempts .shutdown obliging = [true] ∧ Tried obliging s := by
  let s := (start.play obliging).get (by decide)
  have hplay : start.play obliging = some s := (Option.some_get _).symm
  exact ⟨s, hplay, by decide, by decide, tried_of_play hplay⟩

/-- The guest that got no request is said to have powered off when asked, and the process that
    was not killed is said to have been killed. -/
theorem not_earned :
    (∃ s, start.play refused = some s ∧ s.exit? = some .clean ∧ ¬ Earned refused s) ∧
    ∃ s, start.play survived = some s ∧ s.exit? = some .forced ∧ ¬ Earned survived s := by
  constructor
  · let s := (start.play refused).get (by decide)
    have hexit : s.exit? = some .clean := by decide
    have hrequest : true ∉ attempts .shutdown refused := by decide
    exact ⟨s, (Option.some_get _).symm, hexit, fun hearned => hrequest (hearned.clean hexit).mem⟩
  · let s := (start.play survived).get (by decide)
    have hexit : s.exit? = some .forced := by decide
    have hkill : true ∉ attempts .kill survived := by decide
    exact ⟨s, (Option.some_get _).symm, hexit, fun hearned => hkill (hearned.forced hexit).mem⟩

end VmNode.Supervisor
