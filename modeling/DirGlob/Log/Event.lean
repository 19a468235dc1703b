import DirGlob.Log.Hub

set_option autoImplicit false

/-! # The life of the log as a list of events

What happens to the log comes from three sides: this library sets it up, stops it and makes records;
other owners add their handlers; and the listener, which runs by itself, gets a turn now and then and
writes one of the records that wait. -/

namespace DirGlob.Log

/-- What a running listener does in one turn: it writes the record that has waited longest to all of
    its sinks. -/
def Listener.turn (l : Listener) (o : Outlets) : Listener × Outlets :=
  match l.running, l.pending with
  | true, r :: pending => ({ l with pending }, l.sinks.foldl (fun o s => s.write o r) o)
  | _, _ => (l, o)

/-- Something that happens to the log. -/
inductive Event where
  | configure (cfg : Config) (force : Bool) (broken : Option Breakdown)
  | record (r : Record)
  | shutdown
  | addForeign (raises : Bool)
  /-- The listener gets a turn. -/
  | turn
deriving Repr

namespace Hub

/-- Gives the listener a turn. -/
def turn (h : Hub) : Hub :=
  match h.listener with
  | none => h
  | some l => { h with listener := some (l.turn h.outlets).1, outlets := (l.turn h.outlets).2 }

/-- The hub after an event. -/
def after (h : Hub) : Event → Hub
  | .configure cfg force broken => h.configure cfg force broken
  | .record r => h.take r
  | .shutdown => h.shutdown
  | .addForeign raises => h.addForeign raises
  | .turn => h.turn

/-- The hub after events, one after the other. -/
def run (h : Hub) (es : List Event) : Hub := es.foldl after h

theorem run_cons (h : Hub) (e : Event) (es : List Event) : h.run (e :: es) = (h.after e).run es := rfl

theorem run_append (h : Hub) (es es' : List Event) : h.run (es ++ es') = (h.run es).run es' :=
  List.foldl_append

end Hub

end DirGlob.Log
