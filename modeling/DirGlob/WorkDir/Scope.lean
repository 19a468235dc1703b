import DirGlob.Failure

set_option autoImplicit false

/-! # Scopes of the working directory

The working directory belongs to a context. A scope replaces it for a while; it remembers the
context that it was opened in and the directory that it replaced. Closing it brings that directory
back, also when other scopes were opened or closed in between, but only in its own context and only
once.

Nested contexts start with a copy of the working directory or with the initial one, and what
happens to it there is forgotten when they end. Scopes are shared between contexts and known by
their handles. A handle that is used again stands for the new scope from then on, and the old one,
if it is still open, is closed without a report. -/

namespace DirGlob.WorkDir

/-- A scope: the context that it was opened in, the directory that closing it brings back, and
    whether it was tried to close it. -/
structure Scope where
  context : Nat
  restores : String
  spent : Bool
deriving Repr, DecidableEq

/-- How a nested context starts. -/
inductive ContextMode where
  /-- With a copy of the working directory. -/
  | copy
  /-- With the initial working directory. -/
  | fresh
deriving Repr, DecidableEq

/-- The initial working directory, the running context and its working directory, the number of the
    context that starts next, and the scopes by their handles. -/
structure Contexts where
  initial : String
  current : Nat
  cwd : String
  next : Nat
  scopes : List (String × Scope)
deriving Repr, DecidableEq

namespace Contexts

/-- One context in which nothing has happened. -/
def start (initial : String) : Contexts := ⟨initial, 0, initial, 1, []⟩

/-- The scope that a handle stands for. -/
def scope? (c : Contexts) (handle : String) : Option Scope := c.scopes.lookup handle

/-- Makes a handle stand for a scope. -/
def setScope (c : Contexts) (handle : String) (s : Scope) : Contexts :=
  { c with scopes := (handle, s) :: c.scopes.filter (·.1 ≠ handle) }

/-- What closing a scope does to the working directory: it comes back in the scope's own context,
    unless that was tried before. -/
def restore (c : Contexts) (s : Scope) : Contexts :=
  if !s.spent && s.context = c.current then { c with cwd := s.restores } else c

/-- Opens a scope, after which the directory is the working directory. A scope that the handle
    stood for is closed once the new one is open. -/
def enter (c : Contexts) (handle directory : String) : Contexts :=
  let opened := { c with cwd := directory }.setScope handle ⟨c.current, c.cwd, false⟩
  match c.scope? handle with
  | some old => opened.restore old
  | none => opened

/-- Closes the scope that a handle stands for; a failure uses the scope up as well. -/
def exit (c : Contexts) (handle : String) : Contexts × Except Failure Unit :=
  match c.scope? handle with
  | none => (c, .error (.unknownHandle handle))
  | some s =>
    let closed := (c.restore s).setScope handle { s with spent := true }
    (closed, if !s.spent && s.context ≠ c.current then .error .foreignContext else .ok ())

/-- Starts a nested context. -/
def nest (c : Contexts) (mode : ContextMode) : Contexts :=
  { c with
    current := c.next
    next := c.next + 1
    cwd := match mode with
      | .copy => c.cwd
      | .fresh => c.initial }

/-- Ends a nested context and goes on in the one that started it. -/
def resume (inner outer : Contexts) : Contexts :=
  { inner with current := outer.current, cwd := outer.cwd }

end Contexts

end DirGlob.WorkDir
