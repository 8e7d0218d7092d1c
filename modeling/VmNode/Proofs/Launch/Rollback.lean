import VmNode.Launch.Rollback

/-!
# What an attempt to launch leaves behind

An attempt goes through stages (`LaunchStage`), and what there is on the host of it can be
read off its stage (`LaunchScene.Fits`). It ends in one of two ways
(`LaunchScene.settled_of_play`):

* with a process for its caller: the rollback does nothing, so jail and hypervisor are there
  (`LaunchScene.HandedOver`);
* without one: the rollback kills the jailer and the process that was opened. When it is
  through, the jail is gone, unless the host refused to remove it or was still making it
  when the caller went away (`LaunchScene.RolledBack`).

The rollback does not promise that the hypervisor is gone: it kills the process that was
opened, and from the fork to that step none has been (`LaunchScene.leftovers`).
-/

namespace VmNode

/-- The stages of an attempt. -/
inductive LaunchStage where
  /-- The root of the jail is made. -/
  | making
  /-- The jail is filled. -/
  | filling
  /-- The jailer is awaited. -/
  | awaiting
  /-- The process that the jailer has forked is looked for. -/
  | finding
  /-- The machine is configured. -/
  | using
  deriving DecidableEq

/-- Whether a step fills the jail. -/
def LaunchStep.isFill : LaunchStep → Bool
  | .copyKernel | .copyRootfs | .makeScratch | .sizeScratch | .writeMetadata | .handOver _ => true
  | _ => false

/-- Whether a step needs the hypervisor's interface. -/
def LaunchStep.isUse : LaunchStep → Bool
  | .awaitInterface | .send _ => true
  | _ => false

/-- The steps that are left at a stage. -/
inductive LaunchStage.Leaves : LaunchStage → List LaunchStep → Prop
  | makeRoot {todo : List LaunchStep} : Leaves .filling todo → Leaves .making (.makeRoot :: todo)
  | fill {step : LaunchStep} {todo : List LaunchStep} : step.isFill = true →
    Leaves .filling todo → Leaves .filling (step :: todo)
  | spawnJailer {todo : List LaunchStep} : Leaves .awaiting todo →
    Leaves .filling (.spawnJailer :: todo)
  | awaitJailer {todo : List LaunchStep} : Leaves .finding (.readNumber :: todo) →
    Leaves .awaiting (.awaitJailer :: .readNumber :: todo)
  | readNumber {todo : List LaunchStep} : Leaves .using todo →
    Leaves .finding (.readNumber :: todo)
  | openProcess {number : Int} {todo : List LaunchStep} : Leaves .using todo →
    Leaves .finding (.openProcess number :: todo)
  | use {step : LaunchStep} {todo : List LaunchStep} : step.isUse = true →
    Leaves .using todo → Leaves .using (step :: todo)
  | nil : Leaves .using []

namespace LaunchScene

variable {c : HypervisorConfig} {r : LaunchRequest} {s t : LaunchScene}
variable {e : Event} {events : List Event}

/-- What there is on the host at a stage of the attempt, after the events so far. -/
structure Fits (s : LaunchScene) (stage : LaunchStage) (events : List Event) : Prop where
  /-- There is nothing to roll back yet. -/
  rollback : s.rollback = .idle
  /-- No root is made for nobody. -/
  isMaking : s.isMaking = false
  /-- The jail is there from the second stage on. -/
  hasJail : s.hasJail = (stage != .making)
  /-- The jailer runs while it is awaited. -/
  hasJailer : s.hasJailer = (stage == .awaiting)
  /-- A process was opened if the machine is configured. -/
  process : s.attempt.process.isSome = (stage == .using)
  /-- The hypervisor was forked when its process is looked for. -/
  forked : stage = .finding ∨ stage = .using → s.forked.isSome = true
  /-- Only what was forked runs. -/
  running : s.isRunning = true → s.forked.isSome = true
  /-- What was forked runs until it exits by itself. -/
  alive : s.forked.isSome = true → .exit ∉ events → s.isRunning = true

/-- An attempt that ended with a process for its caller is not rolled back. -/
structure HandedOver (s : LaunchScene) (events : List Event) : Prop where
  /-- The rollback has nothing to do. -/
  rollback : s.rollback = .idle
  /-- No root is made for nobody. -/
  isMaking : s.isMaking = false
  /-- The jail is there. -/
  hasJail : s.hasJail = true
  /-- The jailer is done. -/
  hasJailer : s.hasJailer = false
  /-- The caller has a process. -/
  process : s.attempt.process.isSome = true
  /-- The hypervisor runs, unless it has exited by itself. -/
  running : .exit ∉ events → s.isRunning = true

/-- An attempt that ended without a process for its caller is rolled back. -/
structure RolledBack (s : LaunchScene) (events : List Event) : Prop where
  /-- The rollback has begun. -/
  begun : s.rollback ≠ .idle
  /-- The jailer is killed. -/
  hasJailer : s.hasJailer = false
  /-- A hypervisor runs only if the process that was opened, if one was, is another one. -/
  running : s.isRunning = true → s.forked.isSome = true ∧ s.attempt.process ≠ s.forked
  /-- The rollback ends with the answer of the host. -/
  ended : s.rollback = .done → .refused ∈ events ∨ .removed ∈ events
  /-- When the rollback is through, the jail is there only if the host refused to remove it,
      or made it again for nobody. -/
  hasJail : s.rollback = .done → s.hasJail = true →
    .refused ∈ events ∨ [.removed, .made].Sublist events

/-- What holds of a host after some events, by how far the attempt has come. -/
structure Sound (s : LaunchScene) (events : List Event) : Prop where
  /-- While the attempt is under way, the host fits its stage. -/
  going : ∀ step rest, s.attempt.phase = .going step rest →
    ∃ stage : LaunchStage, stage.Leaves (step :: rest) ∧ s.Fits stage events
  /-- When it has succeeded, there is nothing to roll back. -/
  handedOver : s.attempt.phase = .succeeded → s.HandedOver events
  /-- When it is undone, it is rolled back. -/
  rolledBack : s.attempt.isUndone = true → s.RolledBack events

theorem leaves_start : LaunchStage.making.Leaves (.makeRoot :: Attempt.steps c r) := by
  simp only [Attempt.steps, List.cons_append, List.nil_append]
  refine .makeRoot <| .fill rfl <| .fill rfl <| .fill rfl <| .fill rfl <| .fill rfl <|
    .fill rfl <| .fill rfl <| .fill rfl <| .fill rfl <| .spawnJailer <| .awaitJailer <|
    .readNumber <| .use rfl ?_
  induction MachineRequest.all c r with
  | nil => exact .nil
  | cons request rest ih => exact .use rfl ih

theorem sound_start : (start c r).Sound [] :=
  ⟨fun _ _ h => ⟨.making, by cases h; exact leaves_start,
    ⟨rfl, rfl, rfl, rfl, rfl, by simp, nofun, nofun⟩⟩, nofun, nofun⟩

/-! ### Ends -/

theorem rollBack_of_not_isUndone (h : s.attempt.isUndone = false) : s.rollBack = s :=
  if_neg (Bool.eq_false_iff.1 h)

/-- An attempt that ends without a process is rolled back, whatever its stage was. -/
theorem sound_of_isUndone (hundone : s.attempt.isUndone = true)
    (hrunning : s.isRunning = true → s.forked.isSome = true) : s.rollBack.Sound events := by
  rw [rollBack, if_pos hundone]
  refine ⟨fun step rest h => ?_, fun h => ?_, fun _ => ⟨nofun, rfl, fun h => ?_, nofun, nofun⟩⟩
  · simp [Attempt.isUndone, show s.attempt.phase = _ from h] at hundone
  · simp [Attempt.isUndone, show s.attempt.phase = _ from h] at hundone
  · obtain ⟨hruns, hother⟩ := Bool.and_eq_true_iff.1 h
    refine ⟨hrunning hruns, fun (heq : s.attempt.process = s.forked) => ?_⟩
    simp_all

/-- What fits a stage is sound when the attempt goes on with what is left at the stage. -/
theorem Fits.sound_proceed {stage : LaunchStage} {todo : List LaunchStep}
    (h : s.Fits stage events) (hleaves : stage.Leaves todo) :
    ({ s with attempt := s.attempt.proceed todo }.rollBack).Sound events := by
  have hgoing (step : LaunchStep) (rest : List LaunchStep) (heq : todo = step :: rest) :
      ({ s with attempt := { s.attempt with phase := .going step rest } }.rollBack).Sound
        events := by
    rw [rollBack_of_not_isUndone rfl]
    refine ⟨fun step' rest' h' => ⟨stage, ?_, ⟨h.rollback, h.isMaking, h.hasJail, h.hasJailer,
      h.process, h.forked, h.running, h.alive⟩⟩, nofun, nofun⟩
    cases h'
    exact heq ▸ hleaves
  rw [Attempt.proceed.eq_def]
  split
  · cases hleaves
    rw [rollBack_of_not_isUndone rfl]
    exact ⟨nofun, fun _ => ⟨h.rollback, h.isMaking, h.hasJail, h.hasJailer, h.process,
      h.alive (h.forked (.inr rfl))⟩, nofun⟩
  · split
    · exact hgoing _ _ rfl
    · exact sound_of_isUndone rfl h.running
  · exact hgoing _ _ rfl

/-! ### Answers -/

/-- A step has no part in who runs the attempt, the hypervisor and the rollback. -/
theorem effect_frame {step : LaunchStep} {a : LaunchAnswer} (h : s.effect step a = some t) :
    t.attempt = s.attempt ∧ t.forked = s.forked ∧ t.isRunning = s.isRunning ∧
      t.isMaking = s.isMaking ∧ t.rollback = s.rollback := by
  rw [effect.eq_def] at h
  split at h
  case h_3 => split at h <;> cases h; exact ⟨rfl, rfl, rfl, rfl, rfl⟩
  all_goals cases h; exact ⟨rfl, rfl, rfl, rfl, rfl⟩

/-- What a step does for the stage that it belongs to, it leaves as it fits the next one. -/
theorem Fits.sound_answer {stage : LaunchStage} {step : LaunchStep} {rest : List LaunchStep}
    {a : LaunchAnswer} (h : s.Fits stage events) (hphase : s.attempt.phase = .going step rest)
    (hleaves : stage.Leaves (step :: rest)) (hfor : a.isFor step = true)
    (heffect : s.effect step a = some t) :
    ({ t with attempt := s.attempt.answer a }.rollBack).Sound events := by
  obtain ⟨-, hforked, hruns, hmaking, hrollback⟩ := effect_frame heffect
  have hrunning : t.isRunning = true → t.forked.isSome = true := by
    rw [hruns, hforked]
    exact h.running
  have halive : t.forked.isSome = true → .exit ∉ events → t.isRunning = true := by
    rw [hruns, hforked]
    exact h.alive
  rw [Attempt.answer, hphase]
  cases herror : s.attempt.errorOf? step a with
  | some e =>
    -- a step that fails ends the attempt, which is then undone
    simp only [herror]
    exact sound_of_isUndone rfl hrunning
  | none =>
    simp only [herror]
    cases hleaves with
    | makeRoot htodo =>
      -- from now on there is a jail to remove
      cases heffect
      have hnext : Fits { s with hasJail := true } .filling events :=
        ⟨h.rollback, h.isMaking, rfl, h.hasJailer, h.process, nofun, hrunning, halive⟩
      exact hnext.sound_proceed htodo
    | fill hfill htodo =>
      -- the jail is filled, and nothing else changes
      have hsame : s = t := by cases step <;> simp_all [LaunchStep.isFill, effect]
      have hadvance : s.attempt.advance step a rest = s.attempt.proceed rest := by
        cases step <;> simp_all [LaunchStep.isFill, Attempt.advance]
      rw [hadvance, ← hsame]
      exact h.sound_proceed htodo
    | spawnJailer htodo =>
      -- from now on there is a jailer to kill
      cases a <;> simp [LaunchAnswer.isFor, Attempt.errorOf?] at hfor herror
      cases heffect
      have hnext : Fits { s with hasJailer := true } .awaiting events :=
        ⟨h.rollback, h.isMaking, h.hasJail, rfl, h.process, by simp, hrunning, halive⟩
      exact hnext.sound_proceed htodo
    | awaitJailer htodo =>
      -- a jailer that has ended well has forked the hypervisor
      cases a <;> simp [LaunchAnswer.isFor, Attempt.errorOf?] at hfor herror
      case exited status isSuccess =>
        cases isSuccess <;> simp at herror
        rw [effect] at heffect
        split at heffect <;> cases heffect
        rename_i hfork
        have hnext : Fits { s with hasJailer := false } .finding events :=
          ⟨h.rollback, h.isMaking, h.hasJail, rfl, h.process, fun _ => hfork, hrunning, halive⟩
        exact hnext.sound_proceed htodo
    | readNumber htodo =>
      -- a number that cannot be read ends the attempt
      cases a <;> simp [LaunchAnswer.isFor, Attempt.errorOf?] at hfor herror
      case text spelled =>
        cases heffect
        rw [Attempt.advance]
        split
        · exact h.sound_proceed (.openProcess htodo)
        · exact sound_of_isUndone rfl hrunning
    | @openProcess number _ htodo =>
      -- from now on there is a process to kill
      cases heffect
      rw [Attempt.advance]
      have hnext : Fits { s with attempt.process := some number } .using events :=
        ⟨h.rollback, h.isMaking, h.hasJail, h.hasJailer, rfl, fun _ => h.forked (.inl rfl),
          hrunning, halive⟩
      exact hnext.sound_proceed htodo
    | use huse htodo =>
      -- the interface is used, and nothing else changes
      have hsame : s = t := by cases step <;> simp_all [LaunchStep.isUse, effect]
      have hadvance : s.attempt.advance step a rest = s.attempt.proceed rest := by
        cases step <;> simp_all [LaunchStep.isUse, Attempt.advance]
      rw [hadvance, ← hsame]
      exact h.sound_proceed htodo

/-! ### Runs -/

theorem Fits.concat {stage : LaunchStage} (h : s.Fits stage events) :
    s.Fits stage (events ++ [e]) :=
  ⟨h.rollback, h.isMaking, h.hasJail, h.hasJailer, h.process, h.forked, h.running,
    fun hfork hexit => h.alive hfork fun hmem => hexit (List.mem_append_left _ hmem)⟩

theorem RolledBack.concat (h : s.RolledBack events) : s.RolledBack (events ++ [e]) :=
  ⟨h.begun, h.hasJailer, h.running,
    fun hdone => (h.ended hdone).imp (List.mem_append_left _) (List.mem_append_left _),
    fun hdone hjail => (h.hasJail hdone hjail).imp (List.mem_append_left _)
      (·.trans (List.sublist_append_left _ _))⟩

/-- Where there is something to roll back, or a root is made for nobody, the attempt is undone. -/
theorem Sound.isUndone (h : s.Sound events) (hs : s.rollback ≠ .idle ∨ s.isMaking = true) :
    s.attempt.isUndone = true := by
  rw [Attempt.isUndone]
  cases hphase : s.attempt.phase with
  | going step rest =>
    obtain ⟨stage, -, hfits⟩ := h.going _ _ hphase
    simp [hfits.rollback, hfits.isMaking] at hs
  | succeeded =>
    have hover := h.handedOver hphase
    simp [hover.rollback, hover.isMaking] at hs
  | failed | dropped => rfl

theorem RolledBack.sound (h : s.RolledBack events) (hundone : s.attempt.isUndone = true) :
    s.Sound events := by
  refine ⟨fun step rest hphase => ?_, fun hphase => ?_, fun _ => h⟩
  · simp [Attempt.isUndone, hphase] at hundone
  · simp [Attempt.isUndone, hphase] at hundone

/-- The host is sound after whatever happens on it. -/
theorem Sound.step (h : s.Sound events) (hstep : s.step e = some t) :
    t.Sound (events ++ [e]) := by
  cases e with
  | answer a =>
    rw [LaunchScene.step, Attempt.step?] at hstep
    cases hphase : s.attempt.phase with
    | going step rest =>
      simp only [hphase] at hstep
      split at hstep
      · rename_i hfor
        obtain ⟨u, heffect, rfl⟩ := Option.map_eq_some_iff.1 hstep
        obtain ⟨stage, hleaves, hfits⟩ := h.going _ _ hphase
        rw [(effect_frame heffect).1]
        exact hfits.concat.sound_answer hphase hleaves hfor heffect
      · cases hstep
    | _ => simp [hphase] at hstep
  | drop =>
    -- an attempt that was dropped is undone
    obtain ⟨step, hsome, rfl⟩ := Option.map_eq_some_iff.1 hstep
    cases hphase : s.attempt.phase with
    | going step rest =>
      obtain ⟨stage, -, hfits⟩ := h.going _ _ hphase
      exact sound_of_isUndone (by simp [Attempt.drop, hphase, Attempt.isUndone]) hfits.running
    | _ => simp [Attempt.step?, hphase] at hsome
  | fork number =>
    -- only a jailer forks, and there is none when the attempt is over
    rw [LaunchScene.step] at hstep
    split at hstep <;> cases hstep
    rename_i hcan
    have hjailer := (Bool.and_eq_true_iff.1 hcan).1
    refine ⟨fun step rest hphase => ?_, fun hphase => ?_, fun hundone => ?_⟩
    · obtain ⟨stage, hleaves, hfits⟩ := h.going _ _ hphase
      exact ⟨stage, hleaves, hfits.rollback, hfits.isMaking, hfits.hasJail, hfits.hasJailer,
        hfits.process, fun _ => rfl, fun _ => rfl, fun _ _ => rfl⟩
    · simp [(h.handedOver hphase).hasJailer] at hjailer
    · simp [(h.rolledBack hundone).hasJailer] at hjailer
  | exit =>
    -- a hypervisor that is gone is not running, whoever has the attempt
    rw [LaunchScene.step] at hstep
    split at hstep <;> cases hstep
    refine ⟨fun step rest hphase => ?_, fun hphase => ?_, fun hundone => ?_⟩
    · obtain ⟨stage, hleaves, hfits⟩ := h.going _ _ hphase
      exact ⟨stage, hleaves, hfits.rollback, hfits.isMaking, hfits.hasJail, hfits.hasJailer,
        hfits.process, hfits.forked, nofun, by simp⟩
    · have hover := h.handedOver hphase
      exact ⟨hover.rollback, hover.isMaking, hover.hasJail, hover.hasJailer, hover.process,
        by simp⟩
    · exact { (h.rolledBack hundone).concat with running := nofun }
  | made =>
    -- a root that is made after the rollback is left
    rw [LaunchScene.step] at hstep
    split at hstep <;> cases hstep
    rename_i hmaking
    have hundone := h.isUndone (.inr hmaking)
    have hback := h.rolledBack hundone
    have hnext : RolledBack { s with hasJail := true, isMaking := false } (events ++ [.made]) := by
      refine { hback.concat with hasJail := fun hdone _ => (hback.ended hdone).imp ?_ ?_ }
      · exact List.mem_append_left _
      · intro hremoved
        exact (List.singleton_sublist.2 hremoved).append (List.Sublist.refl [Event.made])
    exact hnext.sound hundone
  | removed =>
    -- the rollback is over, and the jail is gone
    rw [LaunchScene.step] at hstep
    split at hstep <;> cases hstep
    rename_i hremoving
    have hundone := h.isUndone (.inl (by simp [hremoving]))
    have hback := h.rolledBack hundone
    have hnext : RolledBack { s with hasJail := false, rollback := .done }
        (events ++ [.removed]) :=
      ⟨nofun, hback.hasJailer, hback.running, fun _ => .inr (by simp), nofun⟩
    exact hnext.sound hundone
  | refused =>
    -- the rollback is over, and the jail is left
    rw [LaunchScene.step] at hstep
    split at hstep <;> cases hstep
    rename_i hremoving
    have hundone := h.isUndone (.inl (by simp [hremoving]))
    have hback := h.rolledBack hundone
    have hnext : RolledBack { s with rollback := .done } (events ++ [.refused]) :=
      ⟨nofun, hback.hasJailer, hback.running, fun _ => .inl (by simp), fun _ _ => .inl (by simp)⟩
    exact hnext.sound hundone

/-- The host stays sound along every run. -/
theorem Sound.play {before : List Event} (h : s.Sound before) (hplay : s.play events = some t) :
    t.Sound (before ++ events) := by
  induction events generalizing s before with
  | nil =>
    obtain rfl := Option.some.inj hplay
    rwa [List.append_nil]
  | cons e rest ih =>
    rw [LaunchScene.play, List.foldlM_cons] at hplay
    obtain ⟨m, hstep, hrest⟩ := Option.bind_eq_some_iff.1 hplay
    rw [List.append_cons]
    exact ih (h.step hstep) hrest

/-- An attempt that hands a process to its caller is not rolled back, and one that ends without
    a process is. -/
theorem settled_of_play (h : (start c r).play events = some s) :
    (s.attempt.phase = .succeeded → s.HandedOver events) ∧
      (s.attempt.isUndone = true → s.RolledBack events) :=
  have hsound := sound_start.play h
  ⟨hsound.handedOver, hsound.rolledBack⟩

/-- A request for a small machine. -/
def small : LaunchRequest := ⟨"vm-1", .ofImage "app", default⟩

/-- The jail is filled and the jailer started, which forks the hypervisor and exits. -/
def forking : List Event :=
  List.replicate 11 (.answer .done) ++ [.fork 7, .answer (.exited "exit status: 0" true)]

/-- The process that was forked is opened, but its interface is not there in time. -/
def interfaceLate : List Event :=
  forking ++ [.answer (.text "7\n"), .answer .done, .answer .timedOut, .removed]

/-- The process that was forked is opened, and it takes all requests. -/
def configured : List Event :=
  forking ++ [.answer (.text "7\n"), .answer .done] ++ List.replicate 8 (.answer .done)

theorem settled_small :
    (∃ s, (start {} small).play interfaceLate = some s ∧ s.attempt.isUndone = true ∧
      s.RolledBack interfaceLate ∧ s.hasJail = false ∧ s.isRunning = false) ∧
    ∃ s, (start {} small).play configured = some s ∧ s.attempt.phase = .succeeded ∧
      s.HandedOver configured := by
  constructor
  · have hlate : ((start {} small).play interfaceLate).map
        (fun s => (s.attempt.isUndone, s.hasJail, s.isRunning)) = some (true, false, false) := by
      decide +kernel
    obtain ⟨s, hplay, hends⟩ := Option.map_eq_some_iff.1 hlate
    simp only [Prod.mk.injEq] at hends
    exact ⟨s, hplay, hends.1, (settled_of_play hplay).2 hends.1, hends.2⟩
  · have hdone : ((start {} small).play configured).map (·.attempt.phase) = some .succeeded := by
      rfl
    obtain ⟨s, hplay, hphase⟩ := Option.map_eq_some_iff.1 hdone
    exact ⟨s, hplay, hphase, (settled_of_play hplay).1 hphase⟩

/-- The host refuses to remove the jail of an attempt that could not be begun. -/
def stuck : List Event := [.answer (.failed "No space left on device (os error 28)"), .refused]

/-- The file with the number of the process cannot be read. -/
def unnumbered : List Event :=
  forking ++ [.answer (.failed "No such file or directory (os error 2)"), .removed]

/-- The caller goes away while the root of the jail is made, which is over after the rollback. -/
def outlived : List Event := [.drop, .removed, .made]

/-- What an undone attempt has left when its rollback is through: its jail, and a hypervisor
    that runs. -/
def remains? (s : LaunchScene) : Option (Bool × Bool) :=
  if s.attempt.isUndone ∧ s.rollback = .done then some (s.hasJail, s.isRunning) else none

/-- A jail stays where the host refuses to remove it, and where it is made after the rollback;
    a hypervisor stays whose process was not opened. -/
theorem leftovers :
    ((start {} small).play stuck).bind remains? = some (true, false) ∧
      ((start {} small).play unnumbered).bind remains? = some (false, true) ∧
      ((start {} small).play outlived).bind remains? = some (true, false) := by
  decide +kernel

end LaunchScene

end VmNode
