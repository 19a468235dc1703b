import DirGlob.Log.Event

set_option autoImplicit false

/-! # Calm hubs

A handler of another owner may raise an error when a record comes to it, and then the record does
not come to the handlers behind it. A hub where no handler does so is *calm*. It stays calm whatever
happens to it, as long as no one adds a handler that raises errors (`IsCalm.after`). -/

namespace DirGlob.Log

/-- The handler that another owner adds, if one is added, raises no errors. -/
def Event.IsCalm : Event → Prop
  | .addForeign raises => raises = false
  | _ => True

namespace Hub

variable {h h' : Hub}

/-- No handler raises an error when a record comes to it. -/
def IsCalm (h : Hub) : Prop := ∀ x ∈ h.handlers, x.kind.raises = false

theorem isCalm_start (time : String) (disk : Disk) : (start time disk).IsCalm := nofun

/-- A hub is calm if its handlers are among those of a calm one. -/
theorem IsCalm.of_subset (hcalm : h.IsCalm) (hsub : h'.handlers ⊆ h.handlers) : h'.IsCalm :=
  fun x hx => hcalm x (hsub hx)

/-- A hub is calm if it has the handlers of a calm one. -/
theorem IsCalm.congr (hcalm : h.IsCalm) (heq : h'.handlers = h.handlers) : h'.IsCalm :=
  hcalm.of_subset (heq ▸ List.Subset.refl h.handlers)

theorem IsCalm.writeError (hcalm : h.IsCalm) (text : String) : (h.writeError text).IsCalm := hcalm

/-! ## Records -/

theorem handlers_handle (h : Hub) (r : Record) (handler : Handler) :
    (h.handle r handler).handlers = h.handlers := by
  rw [handle]
  split <;> rfl

theorem handlers_foldl_handle (h : Hub) (r : Record) (hs : List Handler) :
    (hs.foldl (fun h x => h.handle r x) h).handlers = h.handlers := by
  induction hs generalizing h with
  | nil => rfl
  | cons x hs ih => rw [List.foldl_cons, ih, handlers_handle]

theorem handlers_take (h : Hub) (r : Record) : (h.take r).handlers = h.handlers := by
  rw [take]
  split
  · rfl
  · split
    · split <;> rfl
    · exact handlers_foldl_handle h r _

theorem IsCalm.take (hcalm : h.IsCalm) (r : Record) : (h.take r).IsCalm :=
  hcalm.congr (handlers_take h r)

theorem IsCalm.log (hcalm : h.IsCalm) (logger : String) (level : Int) (message : String) :
    (h.log logger level message).IsCalm :=
  hcalm.take _

/-! ## Stopping -/

theorem IsCalm.stopListener (hcalm : h.IsCalm) (closingFails : Bool) :
    (h.stopListener closingFails).IsCalm :=
  hcalm.congr (handlers_stopListener h closingFails)

theorem IsCalm.shutdown (hcalm : h.IsCalm) : h.shutdown.IsCalm :=
  hcalm.of_subset List.filter_sublist.subset

/-! ## Setting up -/

theorem IsCalm.addOurs (hcalm : h.IsCalm) {kind : HandlerKind} (hkind : kind.raises = false) :
    (h.addOurs kind).IsCalm :=
  List.forall_mem_append.2 ⟨hcalm, by simpa using hkind⟩

theorem IsCalm.attach (hcalm : h.IsCalm) (sinks : List Sink) (broken : Option Breakdown) :
    (h.attach sinks broken).1.IsCalm := by
  rw [Hub.attach]
  split
  · exact hcalm
  · split
    · exact hcalm
    · exact hcalm.addOurs rfl

theorem IsCalm.openSinks (hcalm : h.IsCalm) (cfg : Config) (level : Int) (console : List Sink)
    (broken : Option Breakdown) : (h.openSinks cfg level console broken).1.IsCalm := by
  rw [Hub.openSinks]
  split
  · generalize openLogFile h.outlets.disk cfg level broken = opened
    obtain ⟨disk, opened⟩ := opened
    have hdisk : IsCalm { h with outlets := { h.outlets with disk } } := hcalm
    cases opened with
    | sink s => exact hdisk.attach _ broken
    | refused e => exact (hdisk.writeError _).attach _ broken
    | failed f => exact hcalm
  · exact hcalm.attach _ broken

theorem IsCalm.install (hcalm : h.IsCalm) (cfg : Config) (broken : Option Breakdown) :
    (h.install cfg broken).1.IsCalm := by
  rw [Hub.install]
  split
  · exact hcalm
  · split
    · exact hcalm
    · next l _ =>
      have hshutdown : { h with level := l.number }.shutdown.IsCalm := IsCalm.shutdown hcalm
      simp only
      split
      · split
        · exact hshutdown
        · exact hshutdown.openSinks cfg _ _ broken
      · exact hshutdown.openSinks cfg _ _ broken

theorem IsCalm.fallBack (hcalm : h.IsCalm) (fault : SetupFault) : (h.fallBack fault).IsCalm := by
  have hshutdown : { h.shutdown with level := Level.number .info }.IsCalm := hcalm.shutdown
  exact (hshutdown.addOurs rfl).log _ _ _

theorem IsCalm.configure (hcalm : h.IsCalm) (cfg : Config) (force : Bool)
    (broken : Option Breakdown) : (h.configure cfg force broken).IsCalm := by
  have hinstall := hcalm.install cfg broken
  rw [Hub.configure]
  split
  · exact hcalm
  · split
    · next heq => rwa [heq] at hinstall
    · next heq =>
      rw [heq] at hinstall
      exact hinstall.fallBack _

/-! ## Handlers of others and turns -/

theorem IsCalm.addForeign (hcalm : h.IsCalm) : (h.addForeign false).IsCalm :=
  List.forall_mem_append.2 ⟨hcalm, by simp [HandlerKind.raises]⟩

/-- Marking a handler as ours does not change what it does. -/
theorem IsCalm.of_markOurs (hcalm : h.IsCalm) {index : Int} (hmark : h.markOurs? index = some h') :
    h'.IsCalm := by
  simp only [markOurs?, Option.ite_none_left_eq_some, Option.some.injEq] at hmark
  obtain ⟨-, rfl⟩ := hmark
  intro x hx
  obtain ⟨i, hi, rfl⟩ := List.getElem_of_mem hx
  rw [List.length_modify] at hi
  rw [List.getElem_modify, apply_ite Handler.kind, ite_self]
  exact hcalm h.handlers[i] (List.getElem_mem hi)

theorem IsCalm.turn (hcalm : h.IsCalm) : h.turn.IsCalm := by
  rw [Hub.turn]
  split <;> exact hcalm

/-- A hub stays calm in an event where no one adds a handler that raises errors. -/
theorem IsCalm.after (hcalm : h.IsCalm) {e : Event} (he : e.IsCalm) : (h.after e).IsCalm := by
  cases e with
  | configure cfg force broken => exact hcalm.configure cfg force broken
  | record r => exact hcalm.take r
  | shutdown => exact hcalm.shutdown
  | addForeign raises =>
      obtain rfl : raises = false := he
      exact hcalm.addForeign
  | turn => exact hcalm.turn

end Hub

end DirGlob.Log
