import DirGlob.Proofs.Pattern.Cache
import DirGlob.Proofs.Session.Absolute

set_option autoImplicit false

/-! # Worlds that sessions reach

Whatever happens in a session, its tree stays as it is, and its cache holds nothing but what
compiling gives. Neither the contexts nor the log matter to that, so that it is a property like
those that operations keep, and scopes and nested contexts keep it as well (`Progress.keeps_run`).
-/

namespace DirGlob

namespace Session

open DirGlob.Action

variable {P : World → Prop} {p : Progress}

/-! ## Keeping a property -/

/-- What happens keeps what compiling patterns, making records and changing the contexts do not
    touch. -/
theorem Progress.keeps_next (hP : Lasting P) (hcontexts : ∀ w c, P w → P { w with contexts := c })
    (h : P p.world) (e : Happening) : P (p.next e).world := by
  cases e with
  | operation op =>
      show P (answer op.run p.world).2
      rw [answer_snd]
      exact op.keeps_run hP p.world h
  | enter handle path =>
      show P (answer (enterScope handle path >>= fun s => pure (.text s)) p.world).2
      rw [answer_snd]
      exact keeps_bind (hP.keeps_enterScope hcontexts handle path) (fun _ => keeps_pure _) _ h
  | exit handle raising =>
      show P (answer (exitScope handle >>= fun _ => pure (.flag false)) p.world).2
      rw [answer_snd]
      exact keeps_bind (hP.keeps_exitScope hcontexts handle) (fun _ => keeps_pure _) _ h
  | nest mode => exact hcontexts _ _ h
  | resume =>
      obtain ⟨w, answers, waiting⟩ := p
      cases waiting with
      | nil => exact h
      | cons o waiting => exact hcontexts _ _ h

theorem Progress.keeps_run (hP : Lasting P) (hcontexts : ∀ w c, P w → P { w with contexts := c })
    (h : P p.world) (es : List Happening) : P (p.run es).world := by
  induction es generalizing p with
  | nil => exact h
  | cons e es ih => exact ih (Progress.keeps_next hP hcontexts h e)

end Session

/-! ## Reached worlds -/

/-- A world that a session over the tree comes to, if it begins in an absolute directory. -/
def World.Reached (tree : Tree) (w : World) : Prop :=
  ∃ initial disk time fault happened, Path.isAbsolute initial = true ∧
    w = ((Session.Progress.start (.start tree initial disk time fault)).run happened).world

namespace World.Reached

variable {tree : Tree} {w : World}

theorem isAbsolute_cwd (h : w.Reached tree) : Path.isAbsolute w.cwd = true := by
  obtain ⟨initial, disk, time, fault, happened, habs, rfl⟩ := h
  have hstart : (World.start tree initial disk time fault).contexts.AllAbsolute :=
    WorkDir.Contexts.allAbsolute_start habs
  exact ((Session.Progress.allAbsolute_start hstart).run happened).running.cwd

theorem tree_eq_and_faithful (h : w.Reached tree) : w.tree = tree ∧ w.cache.Faithful := by
  obtain ⟨initial, disk, time, fault, happened, -, rfl⟩ := h
  have hlasting : Action.Lasting fun w => w.tree = tree ∧ w.cache.Faithful :=
    ⟨fun _ pattern hw => ⟨hw.1, hw.2.compile pattern⟩, fun _ _ _ _ hw => hw⟩
  exact Session.Progress.keeps_run hlasting (fun _ _ hw => hw)
    ⟨rfl, Pattern.Cache.faithful_empty⟩ happened

end World.Reached

end DirGlob
