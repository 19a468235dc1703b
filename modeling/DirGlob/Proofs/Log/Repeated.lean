import DirGlob.Proofs.Log.Hub

set_option autoImplicit false

/-! # Requests that are repeated

The log keeps a flag that says whether it is set up, and a request that is not forced is ignored
while the flag stands. So in a stretch of its life without a shutdown and without force, the
requests after the one that has raised the flag can be left out (`run_eq_run_filter`).

A request that finds nothing to write to ends before it raises the flag, although nothing has gone
wrong, and then the next one is not ignored. Those requests are the only ones that can be repeated
with effect (`setUpAs_repeated_iff`). -/

namespace DirGlob.Log

/-! ## Events that leave the set-up alone -/

/-- Whether the event is a request to set the log up. -/
def Event.isConfigure : Event → Bool
  | .configure .. => true
  | _ => false

/-- Whether the event can take a set-up away: a forced request and a shutdown can. -/
def Event.resets : Event → Bool
  | .configure _ force _ => force
  | .shutdown => true
  | _ => false

namespace Hub

variable {h : Hub}

theorem configure_of_configured (hset : h.configured = true) (cfg : Config)
    (broken : Option Breakdown) : h.configure cfg false broken = h := by
  rw [configure, hset]
  rfl

theorem configured_take (h : Hub) (r : Record) : (h.take r).configured = h.configured := by
  obtain ⟨errors, htake⟩ := h.take_eq r
  rw [htake]

theorem configured_turn (h : Hub) : h.turn.configured = h.configured := by
  unfold turn
  split <;> rfl

theorem after_of_isConfigure (hset : h.configured = true) {e : Event}
    (hrequest : e.isConfigure = true) (hkeeps : e.resets = false) : h.after e = h := by
  cases e with
  | configure cfg force broken =>
      obtain rfl : force = false := hkeeps
      exact configure_of_configured hset cfg broken
  | record | shutdown | addForeign | turn => simp [Event.isConfigure] at hrequest

theorem configured_after (hset : h.configured = true) {e : Event} (hkeeps : e.resets = false) :
    (h.after e).configured = true := by
  cases e with
  | configure cfg force broken =>
      rw [after_of_isConfigure hset rfl hkeeps]
      exact hset
  | record r => exact (h.configured_take r).trans hset
  | shutdown => simp [Event.resets] at hkeeps
  | addForeign => exact hset
  | turn => exact h.configured_turn.trans hset

/-- Once the log is set up, requests that are not forced can be left out. -/
theorem run_eq_run_filter (hset : h.configured = true) {es : List Event}
    (hkeep : ∀ e ∈ es, e.resets = false) : h.run es = h.run (es.filter (!·.isConfigure)) := by
  induction es generalizing h with
  | nil => rfl
  | cons e es ih =>
      obtain ⟨hkeeps, hrest⟩ := List.forall_mem_cons.1 hkeep
      cases hrequest : e.isConfigure with
      | true =>
          rw [run_cons, after_of_isConfigure hset hrequest hkeeps, ih hset hrest,
            List.filter_cons_of_neg (by simp [hrequest])]
      | false =>
          rw [run_cons, ih (configured_after hset hkeeps) hrest,
            List.filter_cons_of_pos (by simp [hrequest]), run_cons]

/-! ## Requests that set the log up -/

/-- A request that does not end in the emergency console leaves the log set up exactly if it was
    ignored because of an earlier one, or has a sink. -/
theorem configured_configure_iff {cfg : Config} {force : Bool} {broken : Option Breakdown}
    (hcalm : .emergency ∉ (h.configure cfg force broken).ours) :
    (h.configure cfg force broken).configured = true ↔
      (h.configured && !force) = true ∨ cfg.sinks h.shutdown.outlets.disk broken ≠ [] := by
  rcases configure_cases h cfg force broken with ⟨hset, hforce, hsame⟩ | ⟨hdone, hends⟩
  · rw [hsame, hset, hforce]
    simp
  · generalize h.configure cfg force broken = first at hcalm hends
    cases hends with
    | idle _ hnone => simp [cleared, hdone, hnone]
    | listening _ hsome => simp [listening, hsome]
    | emergency => simp [ours_addOurs] at hcalm

/-- The default request finds the console to write to. -/
theorem configured_configure_default (h : Hub) : (h.configure {} false none).configured = true := by
  cases hset : h.configured with
  | true => rw [configure_of_configured hset, hset]
  | false =>
      rw [configure, hset]
      rfl

/-! ## Repetition -/

/-- Unforced requests, one after the other. -/
def requests (later : List (Config × Option Breakdown)) : List Event :=
  later.map fun (cfg, broken) => .configure cfg false broken

theorem of_mem_requests {later : List (Config × Option Breakdown)} {e : Event}
    (he : e ∈ requests later) : e.isConfigure = true ∧ e.resets = false := by
  obtain ⟨_, -, rfl⟩ := List.mem_map.1 he
  exact ⟨rfl, rfl⟩

theorem run_requests (hset : h.configured = true) (later : List (Config × Option Breakdown)) :
    h.run (requests later) = h := by
  have hnone : (requests later).filter (!·.isConfigure) = [] :=
    List.filter_eq_nil_iff.2 fun e he => by simp [(of_mem_requests he).1]
  rw [run_eq_run_filter hset fun e he => (of_mem_requests he).2, hnone]
  rfl

/-- The hub has the level, the flag, the listener and the handlers of another one. -/
structure SetUpAs (h h' : Hub) : Prop where
  level : h.level = h'.level
  configured : h.configured = h'.configured
  listener : h.listener = h'.listener
  handlers : h.handlers = h'.handlers

/-- **A request is repeated without effect once it has something to write to.** After a request that
    does not end in the emergency console, later requests that are not forced leave the set-up as it
    is, exactly if the first one was ignored itself or has a sink. Then nothing at all depends on
    them, whatever else happens to the log in between, force and a shutdown apart. -/
theorem setUpAs_repeated_iff {cfg : Config} {force : Bool} {broken : Option Breakdown}
    (hcalm : .emergency ∉ (h.configure cfg force broken).ours) :
    let first := h.configure cfg force broken
    let lasts := (h.configured && !force) = true ∨ cfg.sinks h.shutdown.outlets.disk broken ≠ []
    ((∀ later, (first.run (requests later)).SetUpAs first) ↔ lasts) ∧
      (lasts → ∀ es : List Event, (∀ e ∈ es, e.resets = false) →
        first.run es = first.run (es.filter (!·.isConfigure))) := by
  intro first lasts
  have hset : first.configured = true ↔ lasts := configured_configure_iff hcalm
  refine ⟨⟨fun hrepeated => ?_, fun hlasts later => ?_⟩, fun hlasts es hkeep => ?_⟩
  · -- The default request always raises the flag, so the first one must have done so already.
    have hdefault := (hrepeated [({}, none)]).configured
    exact hset.1 (hdefault.symm.trans (configured_configure_default first))
  · rw [run_requests (hset.2 hlasts)]
    exact ⟨rfl, rfl, rfl, rfl⟩
  · exact run_eq_run_filter (hset.2 hlasts) hkeep

/-- A log that is moved from the console to a file stays with the file, and one that is silenced
    does not stay silent. -/
theorem setUpAs_repeated_of_file :
    let h := (start "t" (.empty "/home")).run
      [.configure {} false none, .record ⟨"t", "a", 40, "x"⟩]
    let toFile := h.configure { console := .null, logFile := .text "l" } true none
    let silent := h.configure { console := .null } true none
    .emergency ∉ toFile.ours ∧ .emergency ∉ silent.ours ∧
      (∀ later, (toFile.run (requests later)).SetUpAs toFile) ∧
      ¬∀ later, (silent.run (requests later)).SetUpAs silent := by
  intro h toFile silent
  have hfile : .emergency ∉ toFile.ours := by decide +kernel
  have hsilent : .emergency ∉ silent.ours := by decide +kernel
  refine ⟨hfile, hsilent, (setUpAs_repeated_iff hfile).1.2 (.inr (by decide +kernel)),
    mt (setUpAs_repeated_iff hsilent).1.1 ?_⟩
  rintro (hignored | hsink)
  · simp at hignored
  · exact hsink rfl

/-- A request without a sink sets the level, and a later one does it again. -/
theorem not_forall_setUpAs_repeated :
    ¬∀ (time : String) (disk : Disk) (es : List Event) (cfg : Config) (force : Bool)
      (broken : Option Breakdown) (later : List (Config × Option Breakdown)),
      let first := ((start time disk).run es).configure cfg force broken
      .emergency ∉ first.ours → (first.run (requests later)).SetUpAs first := by
  intro h
  have hlevel := (h "t" (.empty "/home") [] { console := .bool false, level := .text "DEBUG" } false
    none [({}, none)] (by decide +kernel)).level
  exact absurd hlevel (by decide +kernel)

end Hub

end DirGlob.Log
