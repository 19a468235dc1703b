import DirGlob.Proofs.Log.Hub
import DirGlob.Proofs.World.Keeps
import DirGlob.Session.LogStep
import Mathlib.Data.List.Forall2

set_option autoImplicit false

/-! # The states of the log

The log is set up, or it is not, and three things have to say the same about it: the flag, the
listener, and the one handler that is ours. A hub in which they do is *consistent*. Whatever state
the hub was in, stopping it and setting it up, by any of the ways that this can end, leave it
consistent, and records and handlers of others do not touch these three.

So the log is consistent at every point of its life, as long as nobody else marks a handler as ours
(`forall_consistent_runLogSteps`). -/

namespace DirGlob.Log.Hub

variable {h : Hub}

/-- There is at most one handler of ours. It is the queue if the log is set up, and then there is a
    listener; if it is not, there is none, and the handler, if any, is the emergency console. -/
structure Consistent (h : Hub) : Prop where
  length_ours : h.ours.length ≤ 1
  configured_iff_listener : h.configured = true ↔ h.listener.isSome = true
  configured_iff_queue : h.configured = true ↔ .queue ∈ h.ours
  of_not_configured : h.configured = false →
    h.listener = none ∧ ∀ kind ∈ h.ours, kind = .emergency

/-! ## The three states -/

theorem consistent_of_queue (hconfigured : h.configured = true)
    (hlistener : h.listener.isSome = true) (hours : h.ours = [.queue]) : h.Consistent where
  length_ours := by simp [hours]
  configured_iff_listener := by simp [hconfigured, hlistener]
  configured_iff_queue := by simp [hconfigured, hours]
  of_not_configured hnot := by simp [hconfigured] at hnot

theorem consistent_of_not_configured (hconfigured : h.configured = false)
    (hlistener : h.listener = none) (hours : h.ours = [] ∨ h.ours = [.emergency]) :
    h.Consistent where
  length_ours := by rcases hours with hours | hours <;> simp [hours]
  configured_iff_listener := by simp [hconfigured, hlistener]
  configured_iff_queue := by rcases hours with hours | hours <;> simp [hconfigured, hours]
  of_not_configured _ := ⟨hlistener, by rcases hours with hours | hours <;> simp [hours]⟩

theorem consistent_start (time : String) (disk : Disk) : (start time disk).Consistent :=
  consistent_of_not_configured rfl rfl (.inl rfl)

theorem consistent_cleared (h : Hub) (level : Int) (disk : Disk) (errors : String) :
    (h.cleared level disk errors).Consistent :=
  consistent_of_not_configured rfl rfl (.inl (ours_cleared h level disk errors))

theorem consistent_emergency (h : Hub) (level : Int) (disk : Disk) (errors : String) :
    ((h.cleared level disk errors).addOurs .emergency).Consistent := by
  refine consistent_of_not_configured rfl rfl (.inr ?_)
  rw [ours_addOurs, ours_cleared, List.nil_append]

theorem consistent_listening (h : Hub) (level : Int) (disk : Disk) (errors : String)
    (sinks : List Sink) : ((h.cleared level disk errors).listening sinks).Consistent := by
  refine consistent_of_queue rfl rfl ?_
  have hours := ours_addOurs (h.cleared level disk errors) .queue
  rwa [ours_cleared, List.nil_append] at hours

/-! ## Steps -/

/-- A hub is as consistent as another one with the same flag, the same handlers of ours, and a
    listener if that one has one. -/
theorem Consistent.congr {h' : Hub} (hh : h.Consistent) (hconfigured : h'.configured = h.configured)
    (hlistener : h'.listener.isSome = h.listener.isSome) (hours : h'.ours = h.ours) :
    h'.Consistent where
  length_ours := hours ▸ hh.length_ours
  configured_iff_listener := by rw [hconfigured, hlistener, hh.configured_iff_listener]
  configured_iff_queue := by rw [hconfigured, hours, hh.configured_iff_queue]
  of_not_configured hnot := by
    obtain ⟨hnone, hemergency⟩ := hh.of_not_configured (hconfigured ▸ hnot)
    refine ⟨?_, hours ▸ hemergency⟩
    rw [hnone] at hlistener
    simpa using hlistener

theorem consistent_shutdown (h : Hub) : h.shutdown.Consistent := by
  rw [shutdown_eq_cleared]
  exact consistent_cleared _ _ _ _

theorem Consistent.configure (hh : h.Consistent) (cfg : Config) (force : Bool)
    (broken : Option Breakdown) : (h.configure cfg force broken).Consistent := by
  rcases configure_cases h cfg force broken with ⟨-, -, hsame⟩ | ⟨-, hends⟩
  · rwa [hsame]
  · generalize h.configure cfg force broken = h' at hends
    cases hends with
    | idle => exact consistent_cleared _ _ _ _
    | listening => exact consistent_listening _ _ _ _ _
    | emergency => exact consistent_emergency _ _ _ _

theorem Consistent.take (hh : h.Consistent) (r : Record) : (h.take r).Consistent := by
  obtain ⟨errors, htake⟩ := h.take_eq r
  rw [htake]
  refine hh.congr rfl ?_ rfl
  simp only
  split
  · rfl
  · exact Option.isSome_map

theorem Consistent.addForeign (hh : h.Consistent) (raises : Bool) :
    (h.addForeign raises).Consistent :=
  hh.congr rfl rfl (h.ours_addForeign raises)

theorem Consistent.stopListener (hh : h.Consistent) (closingFails : Bool) :
    (h.stopListener closingFails).Consistent := by
  have hours : (h.stopListener closingFails).ours = h.ours := by
    rw [ours, handlers_stopListener, ours]
  refine hh.congr ?_ ?_ hours
  · rw [Hub.stopListener]
    split <;> rfl
  · rw [Hub.stopListener]
    split
    · rfl
    · next l hl => simp [hl]

end DirGlob.Log.Hub

namespace DirGlob.Session

open DirGlob.Action

/-- What records and operations do, they do to a consistent hub without harm. -/
theorem lasting_consistent : Lasting (·.hub.Consistent) :=
  ⟨fun _ _ h => h, fun w logger level message h => h.take ⟨w.hub.time, logger, level, message⟩⟩

/-- A step keeps the log consistent unless it marks a handler. -/
theorem LogStep.keeps_consistent {step : LogStep} (hmark : ∀ index, step ≠ .markOurs index) :
    Keeps (·.hub.Consistent) step.run := by
  cases step with
  | configure cfg force broken stage => exact keeps_modify fun w h => h.configure cfg force _
  | configureBy settings force =>
      refine keeps_bind (keeps_ofResult _) fun cfg => ?_
      exact keeps_modify fun w h => h.configure cfg force none
  | record logger level message => exact keeps_modify fun w h => h.take _
  | shutdown => exact keeps_modify fun w _ => w.hub.consistent_shutdown
  | stop closingFails => exact keeps_modify fun w h => h.stopListener closingFails
  | addForeign => exact keeps_modify fun w h => h.addForeign false
  | markOurs index => exact absurd rfl (hmark index)
  | checkSettings mode settings =>
      exact keeps_discard (lasting_consistent.keeps_checkSettings mode settings)
  | glob pattern cwd => exact keeps_discard (lasting_consistent.keeps_glob pattern cwd)
  | scope path => exact lasting_consistent.keeps_within (fun _ _ h => h) (keeps_pure _) path

/-- A request to set the log up never fails. -/
theorem LogStep.run_configure (cfg : Log.Config) (force : Bool) (broken : Option String)
    (stage : Log.Stage) (w : World) :
    ((LogStep.configure cfg force broken stage).run.run w).1 = .ok () := rfl

/-! ## Runs -/

/-- What a step came to, as its answer shows it. -/
def failureOf : Except Failure Unit → Option Failure
  | .ok _ => none
  | .error f => some f

theorem run_runLogSteps_cons {step : LogStep} {steps : List LogStep} {w w' : World}
    {answers : List LogAnswer} (h : (runLogSteps steps).run (step.run.run w).2 = (.ok answers, w')) :
    (runLogSteps (step :: steps)).run w =
      (.ok (⟨failureOf (step.run.run w).1, (step.run.run w).2.hub⟩ :: answers), w') := by
  have hattempt : (attempt step.run).run w = (.ok (step.run.run w).1, (step.run.run w).2) := rfl
  have hrest (answer : LogAnswer) :
      (runLogSteps steps >>= fun rest => pure (answer :: rest) : Action (List LogAnswer)).run
        (step.run.run w).2 = (.ok (answer :: answers), w') := run_bind_of_ok h
  rw [runLogSteps, run_bind_of_ok hattempt]
  cases (step.run.run w).1 <;> exact hrest _

/-- **The log is consistent at every point of its life,** and a request to set it up never fails. The
    life may consist of any steps, but nobody else marks a handler as ours. -/
theorem forall_consistent_runLogSteps (tree : Tree) (initial : String) (disk : Log.Disk)
    (time : String) (fault : Option String) (steps : List LogStep)
    (hmark : ∀ step ∈ steps, ∀ index, step ≠ .markOurs index) :
    (World.start tree initial disk time fault).hub.Consistent ∧
      ∃ answers w',
        (runLogSteps steps).run (.start tree initial disk time fault) = (.ok answers, w') ∧
        List.Forall₂
          (fun step answer => answer.hub.Consistent ∧
            ∀ cfg force broken stage, step = .configure cfg force broken stage →
              answer.failure = none)
          steps answers := by
  have hstart : (World.start tree initial disk time fault).hub.Consistent :=
    Log.Hub.consistent_start time disk
  refine ⟨hstart, ?_⟩
  -- The induction is on the steps that are left; all it needs of the world is that it is consistent.
  generalize World.start tree initial disk time fault = w at hstart
  induction steps generalizing w with
  | nil => exact ⟨[], w, rfl, .nil⟩
  | cons step steps ih =>
      have hkept := LogStep.keeps_consistent (hmark step List.mem_cons_self) w hstart
      obtain ⟨answers, w', hrun, hall⟩ :=
        ih (fun step hmem => hmark step (List.mem_cons_of_mem _ hmem)) _ hkept
      refine ⟨_, w', run_runLogSteps_cons hrun, .cons ⟨hkept, ?_⟩ hall⟩
      rintro cfg force broken stage rfl
      exact congrArg failureOf (LogStep.run_configure cfg force broken stage w)

/-- A set-up that fails and is asked for again, with records in between. -/
theorem forall_consistent_of_failing_configure :
    let steps : List LogStep := [.configure {} false none, .addForeign, .record "a" 20 "x",
      .configure { maxBytes := .text "?", logFile := .text "l" } true none, .record "b" 30 "y",
      .configure {} true (some "down"), .configure { level := .null } false none, .shutdown]
    let w := World.start ⟨[]⟩ "/" (.empty "/home") "" none
    (∀ step ∈ steps, ∀ index, step ≠ .markOurs index) ∧ w.hub.Consistent ∧
      ∃ answers w', (runLogSteps steps).run w = (.ok answers, w') ∧
        answers.map (·.hub.configured) = [true, true, true, false, false, false, true, false] ∧
        List.Forall₂
          (fun step answer => answer.hub.Consistent ∧
            ∀ cfg force broken stage, step = .configure cfg force broken stage →
              answer.failure = none)
          steps answers := by
  intro steps w
  have hmark : ∀ step ∈ steps, ∀ index, step ≠ .markOurs index := by simp [steps]
  obtain ⟨hstart, answers, w', hrun, hall⟩ :=
    forall_consistent_runLogSteps ⟨[]⟩ "/" (.empty "/home") "" none steps hmark
  refine ⟨hmark, hstart, answers, w', hrun, ?_, hall⟩
  have hflags : (((runLogSteps steps).run w).1.toOption.map fun l => l.map (·.hub.configured)) =
      some [true, true, true, false, false, false, true, false] := by decide +kernel
  rw [hrun] at hflags
  exact Option.some.inj hflags

end DirGlob.Session
