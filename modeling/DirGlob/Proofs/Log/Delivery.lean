import DirGlob.Proofs.Log.Hub

set_option autoImplicit false

/-! # Where records end up

A record waits in a queue until the listener writes it, and in the meantime the log may be stopped or
set up anew, with other sinks or with the same file. The *ledger* of a life of the log says what
should become of its records without any queue: it lists each record that was made while the log was
set up and that its level let through, together with the set-up that was in force then.

Once the log is stopped, the console shows the records of the ledger whose set-up has a console, and
each log file has got the records whose set-up has opened it, in the order of the ledger and nothing
else, whatever turns the listener was given in between (`run_delivers`). What carries the induction
is `settled`: what the console and the files would show if the log were stopped right away.

Two things are asked for. A log file that is written to may grow without limit, since older files of
a limited one are lost; and handlers of other owners raise no errors, since a record on its way to
the queue is lost with the one that does. -/

namespace DirGlob.Log

/-! ## Ledgers -/

/-- The path of the log file that a sink writes to. -/
def Sink.path? : Sink → Option String
  | .console _ => none
  | .file _ path .. => some path

/-- A set-up, as far as records have to do with it: the least level that it takes, whether it has a
    console, and the path of the log file if it has opened one. -/
structure Setup where
  level : Int
  console : Bool
  file : Option String
deriving Repr, DecidableEq

namespace Setup

/-- The set-up that is asked for, with a log file if it can be opened on this disk. -/
def ofConfig (cfg : Config) (d : Disk) (broken : Option Breakdown) : Setup :=
  { level := cfg.threshold
    console := cfg.console.truthy
    file := (cfg.fileSink? d broken).bind Sink.path? }

/-- Whether a path leads to the log file of the set-up. -/
def hasFile (s : Setup) (path : String) : Bool := s.file.any (Disk.key · = Disk.key path)

/-- The set-up that was asked for last, after an event. A request that is ignored asks for none. -/
def next (h : Hub) (s : Option Setup) : Event → Option Setup
  | .configure cfg force broken =>
    if h.configured && !force then s else some (ofConfig cfg h.shutdown.outlets.disk broken)
  | _ => s

end Setup

/-- A record, and the set-up that was in force when it was made. -/
structure Entry where
  record : Record
  setup : Setup
deriving Repr, DecidableEq

/-- The entry that an event adds to the ledger: a record that is made while the log is set up, if its
    level is high enough. -/
def entryOf? (h : Hub) (s : Option Setup) : Event → Option Entry
  | .record r => (s.filter fun s => h.configured && s.level ≤ r.level).map (⟨r, ·⟩)
  | _ => none

/-- The entries that events add to the ledger, in order. -/
def ledger (h : Hub) (s : Option Setup) : List Event → List Entry
  | [] => []
  | e :: es => (entryOf? h s e).toList ++ ledger (h.after e) (Setup.next h s e) es

/-- What the console shows of entries. -/
def consoleText (entries : List Entry) : String :=
  String.join ((entries.filter (·.setup.console)).map (·.record.consoleLine))

/-- What stands in a log file of entries. -/
def fileText (entries : List Entry) (path : String) : String :=
  String.join ((entries.filter (·.setup.hasFile path)).map (·.record.fileLine))

/-! ## What is asked for -/

/-- Whether the sink is never rotated because it has no limit. -/
def Sink.isUnlimited : Sink → Bool
  | .console _ => true
  | .file _ _ _ maxBytes _ _ => maxBytes ≤ 0

/-- Whether the log file that the listener writes to, if there is one, may grow without limit. -/
def Hub.isUnlimited (h : Hub) : Bool := h.listener.all fun l => l.sinks.all Sink.isUnlimited

/-- Whether the log file that the listener writes to, if there is one, may grow without limit after
    each of these events. What a request asks for that is ignored or fails does not count. -/
def areUnlimited (h : Hub) : List Event → Bool
  | [] => true
  | e :: es => (h.after e).isUnlimited && areUnlimited (h.after e) es

/-! ## Gains -/

/-- Of all that is shown, the entries were added to it and nothing else. -/
structure Outlets.Gains (o o' : Outlets) (entries : List Entry) : Prop where
  console : o'.console = o.console ++ consoleText entries
  files : ∀ path, o'.disk.textOf path = o.disk.textOf path ++ fileText entries path

namespace Outlets

variable {o o' o'' : Outlets}

theorem gains_nil (hconsole : o'.console = o.console) (hdisk : o.disk.SameTexts o'.disk) :
    o.Gains o' [] :=
  ⟨by rw [hconsole]; exact String.append_empty.symm,
    fun path => by rw [hdisk path]; exact String.append_empty.symm⟩

theorem gains_refl (o : Outlets) : o.Gains o [] := gains_nil rfl (Disk.sameTexts_refl _)

theorem Gains.trans {entries entries' : List Entry} (h : o.Gains o' entries)
    (h' : o'.Gains o'' entries') : o.Gains o'' (entries ++ entries') where
  console := by
    simp only [h'.console, h.console, consoleText, List.filter_append, List.map_append,
      String.join_append, String.append_assoc]
  files path := by
    simp only [h'.files, h.files, fileText, List.filter_append, List.map_append,
      String.join_append, String.append_assoc]

end Outlets

theorem consoleText_singleton (r : Record) (s : Setup) :
    consoleText [⟨r, s⟩] = if s.console then r.consoleLine else "" := by
  cases h : s.console <;> simp [consoleText, h]

theorem fileText_singleton (r : Record) (s : Setup) (path : String) :
    fileText [⟨r, s⟩] path = if s.hasFile path then r.fileLine else "" := by
  cases h : s.hasFile path <;> simp [fileText, h]

/-! ## Writing -/

/-- Writing a record that the set-up takes to these sinks is what the ledger has in mind. -/
def Setup.Serves (s : Setup) (sinks : List Sink) : Prop :=
  ∀ (o : Outlets) (r : Record), s.level ≤ r.level →
    o.Gains (sinks.foldl (fun o sink => sink.write o r) o) [⟨r, s⟩]

theorem write_console {r : Record} {level : Int} (h : level ≤ r.level) (o : Outlets) :
    (Sink.console level).write o r = { o with console := o.console ++ r.consoleLine } :=
  if_neg (Int.not_lt.2 h)

theorem write_file {r : Record} {level maxBytes : Int} (h : level ≤ r.level) (hmax : maxBytes ≤ 0)
    (path shownPath : String) (backups : Int) (isOutput : Bool) (o : Outlets) :
    (Sink.file level path shownPath maxBytes backups isOutput).write o r =
      { o with
        disk := o.disk.append path r.fileLine
        output := if isOutput then o.output ++ r.fileLine else o.output } := by
  have hroom : Sink.isFull o.disk path maxBytes r.fileLine = false := by
    simp [Sink.isFull, Int.not_lt.2 hmax]
  refine (if_neg (Int.not_lt.2 h)).trans ?_
  simp only [hroom]
  rfl

theorem foldl_console {r : Record} {level : Int} (h : level ≤ r.level) (on : Bool) (o : Outlets) :
    (if on then [Sink.console level] else []).foldl (fun o sink => sink.write o r) o =
      { o with console := o.console ++ if on then r.consoleLine else "" } := by
  cases on with
  | false => simp
  | true => exact write_console h o

theorem foldl_fileSink {cfg : Config} {d : Disk} {broken : Option Breakdown}
    (hmax : (cfg.fileSink? d broken).all Sink.isUnlimited = true) {r : Record}
    (hlevel : cfg.threshold ≤ r.level) (o : Outlets) :
    ∃ disk output, (cfg.fileSink? d broken).toList.foldl (fun o sink => sink.write o r) o =
        { o with disk, output } ∧
      ∀ path, disk.textOf path = o.disk.textOf path ++
        if (Setup.ofConfig cfg d broken).hasFile path then r.fileLine else "" := by
  cases hfile : cfg.fileSink? d broken with
  | none =>
      refine ⟨o.disk, o.output, rfl, fun path => ?_⟩
      simp [Setup.hasFile, Setup.ofConfig, hfile]
  | some s =>
      obtain ⟨name, shownPath, maxBytes, backups, -, rfl⟩ := Config.fileSink?_eq_some hfile
      have hle : maxBytes ≤ 0 := by simpa [hfile, Sink.isUnlimited] using hmax
      refine ⟨_, _, write_file hlevel hle (d.absolute name) shownPath backups _ o, fun path => ?_⟩
      rw [Disk.textOf_append]
      simp [Setup.hasFile, Setup.ofConfig, hfile, Sink.path?, eq_comm]

/-- The sinks that a set-up gets serve it. -/
theorem serves_sinks {cfg : Config} {d : Disk} {broken : Option Breakdown}
    (hmax : (cfg.sinks d broken).all Sink.isUnlimited = true) :
    (Setup.ofConfig cfg d broken).Serves (cfg.sinks d broken) := by
  intro o r hlevel
  have hthreshold : cfg.threshold ≤ r.level := hlevel
  have hfile : (cfg.fileSink? d broken).all Sink.isUnlimited = true := by
    rw [Config.sinks, List.all_append, Bool.and_eq_true] at hmax
    cases hsink : cfg.fileSink? d broken with
    | none => rfl
    | some s => simpa [hsink] using hmax.2
  rw [Config.sinks, List.foldl_append, foldl_console hthreshold]
  obtain ⟨disk, output, hwritten, htext⟩ := foldl_fileSink hfile hthreshold
    { o with console := o.console ++ if cfg.console.truthy then r.consoleLine else "" }
  rw [hwritten]
  refine ⟨?_, fun path => ?_⟩
  · rw [consoleText_singleton]
    rfl
  · rw [fileText_singleton, htext]

/-! ## Accounts -/

namespace Hub

/-- What the console and the files would show if the log were stopped right away. -/
def settled (h : Hub) : Outlets := h.shutdown.outlets

/-- The hub fits the set-up that was asked for last: if it is set up, a running listener serves that
    set-up, and one queue feeds it. No handler keeps a record from the queue. -/
structure Accounts (h : Hub) (s : Option Setup) : Prop where
  calm : h.IsCalm
  queue_ours : ∀ x ∈ h.handlers, x.kind = .queue → x.ours = true
  idle : h.configured = false → h.listener = none
  serving : h.configured = true → ∃ setup l, s = some setup ∧ h.level = setup.level ∧
    h.queues = 1 ∧ h.listener = some l ∧ l.running = true ∧ setup.Serves l.sinks

theorem settled_of_listener_none {h : Hub} (hnone : h.listener = none) : h.settled = h.outlets := by
  rw [settled, shutdown, stopListener]
  simp only [hnone]

theorem settled_of_running {h : Hub} {l : Listener} (hl : h.listener = some l)
    (hrunning : l.running = true) : h.settled = l.drain h.outlets := by
  rw [settled, shutdown, stopListener]
  simp only [hl, Listener.stop, if_pos hrunning]

theorem settled_congr {h h' : Hub} (hlistener : h'.listener = h.listener)
    (houtlets : h'.outlets = h.outlets) : h'.settled = h.settled := by
  simp only [settled, shutdown, stopListener, hlistener, houtlets]
  cases h.listener <;> simp only [houtlets]

variable {h : Hub} {s : Option Setup}

theorem accounts_of_not_configured (hcalm : h.IsCalm)
    (hqueue : ∀ x ∈ h.handlers, x.kind = .queue → x.ours = true)
    (hconfigured : h.configured = false) (hlistener : h.listener = none) : h.Accounts s where
  calm := hcalm
  queue_ours := hqueue
  idle _ := hlistener
  serving hset := by simp [hconfigured] at hset

/-- No queue is left when everything of ours is taken away. -/
theorem Accounts.kind_ne_queue (ha : h.Accounts s) {level : Int} {disk : Disk} {errors : String} :
    ∀ x ∈ (h.cleared level disk errors).handlers, x.kind ≠ .queue := by
  intro x hx hkind
  obtain ⟨hmem, hnotours⟩ := List.mem_filter.1 hx
  simp [ha.queue_ours x hmem hkind] at hnotours

theorem Accounts.queue_ours_cleared (ha : h.Accounts s) {level : Int} {disk : Disk}
    {errors : String} :
    ∀ x ∈ (h.cleared level disk errors).handlers, x.kind = .queue → x.ours = true :=
  fun x hx hkind => absurd hkind (ha.kind_ne_queue x hx)

/-! ### Events -/

theorem Accounts.configure (ha : h.Accounts s) {cfg : Config} {force : Bool}
    {broken : Option Breakdown} (hmax : (h.configure cfg force broken).isUnlimited = true) :
    (h.configure cfg force broken).Accounts (Setup.next h s (.configure cfg force broken)) ∧
      h.settled.Gains (h.configure cfg force broken).settled [] := by
  rw [Setup.next]
  rcases configure_cases h cfg force broken with ⟨hconfigured, hforce, hsame⟩ | ⟨hdone, hends⟩
  · rw [hsame, hconfigured, hforce]
    exact ⟨ha, Outlets.gains_refl _⟩
  rw [hdone]
  -- What waited was written when the old listener was stopped, and no later stage writes anything,
  -- so in each case nothing is gained.
  have hcalm := ha.calm.configure cfg force broken
  generalize h.configure cfg force broken = h' at hends hmax hcalm
  cases hends with
  | idle same =>
      refine ⟨accounts_of_not_configured hcalm ha.queue_ours_cleared rfl rfl, ?_⟩
      exact Outlets.gains_nil rfl same
  | emergency same =>
      refine ⟨accounts_of_not_configured hcalm ?_ rfl rfl, Outlets.gains_nil rfl same⟩
      exact List.forall_mem_append.2 ⟨ha.queue_ours_cleared, by simp⟩
  | @listening disk errors same =>
      refine ⟨⟨hcalm, ?_, ?_, fun _ => ?_⟩, Outlets.gains_nil rfl same⟩
      · exact List.forall_mem_append.2 ⟨ha.queue_ours_cleared, by simp⟩
      · intro hnot
        cases hnot
      · refine ⟨_, _, rfl, rfl, ?_, rfl, rfl, serves_sinks hmax⟩
        have hnone : (h.cleared cfg.threshold disk errors).handlers.countP (·.kind = .queue) = 0 :=
          List.countP_eq_zero.2 fun x hx => by simpa using ha.kind_ne_queue x hx
        rw [queues, reached_of_isCalm hcalm]
        show ((h.cleared cfg.threshold disk errors).handlers ++ [_]).countP _ = 1
        rw [List.countP_append, hnone]
        rfl

theorem Accounts.take (ha : h.Accounts s) (r : Record) :
    (h.take r).Accounts s ∧ h.settled.Gains (h.take r).settled (entryOf? h s (.record r)).toList := by
  cases hconfigured : h.configured with
  | false =>
      have hnone := ha.idle hconfigured
      obtain ⟨errors, htake⟩ := take_of_listener_none hnone r
      have hentry : entryOf? h s (.record r) = none := by
        cases s <;> simp [entryOf?, hconfigured]
      have hsettled : (h.take r).settled = h.settled := by rw [htake]; exact settled_congr rfl rfl
      rw [hsettled, hentry, htake]
      exact ⟨accounts_of_not_configured ha.calm ha.queue_ours hconfigured hnone,
        Outlets.gains_refl _⟩
  | true =>
      obtain ⟨setup, l, rfl, hlevel, hqueues, hl, hrunning, hserves⟩ := ha.serving hconfigured
      obtain ⟨errors, htake⟩ := h.take_eq r
      by_cases hlow : r.level < h.level
      · have hentry : entryOf? h (some setup) (.record r) = none := by
          simpa [entryOf?, hconfigured, ← hlevel] using hlow
        rw [if_pos hlow] at htake
        have hsettled : (h.take r).settled = h.settled := by rw [htake]; exact settled_congr rfl rfl
        rw [hsettled, hentry, htake]
        exact ⟨⟨ha.calm, ha.queue_ours, ha.idle, ha.serving⟩, Outlets.gains_refl _⟩
      · have hentry : entryOf? h (some setup) (.record r) = some ⟨r, setup⟩ := by
          simpa [entryOf?, hconfigured, ← hlevel] using hlow
        -- One queue: the record waits once, behind all others.
        have hqueued : h.listener.map (fun l =>
            { l with pending := l.pending ++ List.replicate h.queues r }) = some (l.enqueue r) := by
          rw [hl, hqueues]
          rfl
        rw [if_neg hlow, hqueued] at htake
        have hafter : (h.take r).settled = (l.enqueue r).drain h.outlets := by
          rw [htake]
          exact settled_of_running rfl hrunning
        rw [settled_of_running hl hrunning, hafter, Listener.drain_enqueue, hentry, htake]
        refine ⟨⟨ha.calm, ha.queue_ours, ?_, fun _ => ?_⟩, hserves _ r (hlevel ▸ Int.not_lt.1 hlow)⟩
        · intro hnot
          simp [hconfigured] at hnot
        · exact ⟨setup, l.enqueue r, rfl, hlevel, hqueues, rfl, hrunning, hserves⟩

theorem Accounts.shutdown (ha : h.Accounts s) :
    h.shutdown.Accounts s ∧ h.settled.Gains h.shutdown.settled [] := by
  have hsettled : h.shutdown.settled = h.settled := settled_of_listener_none rfl
  have hcalm := ha.calm.shutdown
  rw [hsettled]
  rw [shutdown_eq_cleared] at hcalm ⊢
  exact ⟨accounts_of_not_configured hcalm ha.queue_ours_cleared rfl rfl, Outlets.gains_refl _⟩

theorem Accounts.addForeign (ha : h.Accounts s) :
    (h.addForeign false).Accounts s ∧ h.settled.Gains (h.addForeign false).settled [] := by
  have hcalm : (h.addForeign false).IsCalm := ha.calm.addForeign
  have hqueues : (h.addForeign false).queues = h.queues := by
    rw [queues, queues, reached_of_isCalm hcalm, reached_of_isCalm ha.calm]
    simp [Hub.addForeign]
  have hsettled : (h.addForeign false).settled = h.settled := settled_congr rfl rfl
  refine ⟨⟨hcalm, ?_, ha.idle, fun hset => ?_⟩, hsettled ▸ Outlets.gains_refl _⟩
  · exact List.forall_mem_append.2 ⟨ha.queue_ours, by simp⟩
  · rw [hqueues]
    exact ha.serving hset

theorem Accounts.turn (ha : h.Accounts s) :
    h.turn.Accounts s ∧ h.settled.Gains h.turn.settled [] := by
  cases hl : h.listener with
  | none =>
      have hturn : h.turn = h := by rw [Hub.turn, hl]
      rw [hturn]
      exact ⟨ha, Outlets.gains_refl _⟩
  | some l =>
      have hconfigured : h.configured = true := by
        cases hconfigured : h.configured with
        | true => rfl
        | false => cases hl.symm.trans (ha.idle hconfigured)
      obtain ⟨setup, l', rfl, hlevel, hqueues, hl', hrunning, hserves⟩ := ha.serving hconfigured
      cases hl.symm.trans hl'
      have hturn : h.turn = { h with
          listener := some (l.turn h.outlets).1, outlets := (l.turn h.outlets).2 } := by
        rw [Hub.turn, hl]
      have hrunning' : (l.turn h.outlets).1.running = true := by rw [Listener.running_turn, hrunning]
      -- A turn only writes earlier what stopping would write.
      have hsettled : h.turn.settled = h.settled := by
        rw [settled_of_running hl hrunning, hturn, ← Listener.drain_turn]
        exact settled_of_running rfl hrunning'
      rw [hsettled, hturn]
      refine ⟨⟨ha.calm, ha.queue_ours, ?_, fun _ => ?_⟩, Outlets.gains_refl _⟩
      · intro hnot
        simp [hconfigured] at hnot
      · refine ⟨setup, _, rfl, hlevel, hqueues, rfl, hrunning', ?_⟩
        rw [Listener.sinks_turn]
        exact hserves

/-- An event keeps the account, and what it makes of the outlets in the end is its entry. -/
theorem Accounts.after (ha : h.Accounts s) {e : Event} (hmax : (h.after e).isUnlimited = true)
    (hcalm : e.IsCalm) :
    (h.after e).Accounts (Setup.next h s e) ∧
      h.settled.Gains (h.after e).settled (entryOf? h s e).toList := by
  cases e with
  | configure cfg force broken => exact ha.configure hmax
  | record r => exact ha.take r
  | shutdown => exact ha.shutdown
  | addForeign raises =>
      obtain rfl : raises = false := hcalm
      exact ha.addForeign
  | turn => exact ha.turn

/-- What events make of the outlets in the end is the ledger. -/
theorem Accounts.run (ha : h.Accounts s) {es : List Event} (hmax : areUnlimited h es = true)
    (hcalm : ∀ e ∈ es, e.IsCalm) : h.settled.Gains (h.run es).settled (ledger h s es) := by
  induction es generalizing h s with
  | nil => exact Outlets.gains_refl _
  | cons e es ih =>
      obtain ⟨hfirst, hrest⟩ := (Bool.and_eq_true _ _).mp hmax
      obtain ⟨hcalm, hcalms⟩ := List.forall_mem_cons.1 hcalm
      obtain ⟨hafter, hgains⟩ := ha.after hfirst hcalm
      exact hgains.trans (ih hafter hrest hcalms)

end Hub

/-- **No record is lost, and none is written twice.** Once the log is stopped, the console has shown
    the records of the ledger whose set-up has a console, in order and nothing else, and the same holds
    of each log file and the records whose set-up has opened it. The log may have been set up any
    number of times, with success or without, and its listener was given turns at any time; but each
    log file that is written to may grow without limit, and handlers of others raise no errors. -/
theorem run_delivers (time : String) (disk : Disk) (es : List Event)
    (hmax : areUnlimited (.start time disk) es = true) (hothers : ∀ e ∈ es, e.IsCalm) :
    let entries := ledger (.start time disk) none es
    let ended := (Hub.start time disk).run (es ++ [.shutdown])
    ended.outlets.console = consoleText entries ∧
      ∀ path, ended.outlets.disk.textOf path = disk.textOf path ++ fileText entries path := by
  intro entries ended
  have haccounts : (Hub.start time disk).Accounts none :=
    Hub.accounts_of_not_configured nofun nofun rfl rfl
  have hgains := haccounts.run hmax hothers
  have hended : ended.outlets = ((Hub.start time disk).run es).settled := by
    show ((Hub.start time disk).run (es ++ [.shutdown])).outlets = _
    rw [Hub.run_append]
    rfl
  rw [hended]
  exact ⟨hgains.console.trans String.empty_append, hgains.files⟩

/-- A log file, then the console only, and then the same file again, without the console and with a
    higher level. Of the two other set-ups, whose files have a limit, the first one is ignored and
    the second one fails. -/
theorem run_delivers_over_three_set_ups :
    let record (level : Int) (message : String) : Event := .record ⟨"t", "a", level, message⟩
    let es : List Event := [
      .configure { logFile := .text "l", maxBytes := .int 0 } false none,
      record 20 "one", .turn, record 10 "two", .addForeign false,
      .configure { logFile := .text "other" } false none, record 30 "three",
      .configure { logFile := .text "other" } true (some ⟨.queue, "no"⟩), record 50 "four",
      .configure {} false none, record 20 "five",
      .configure { maxBytes := .int 0, logFile := .text "/home/l", console := .null,
                   level := .text "error" } true none,
      record 30 "six", record 40 "seven"]
    let entries := ledger (.start "t" (.empty "/home")) none es
    let ended := (Hub.start "t" (.empty "/home")).run (es ++ [.shutdown])
    areUnlimited (.start "t" (.empty "/home")) es = true ∧ (∀ e ∈ es, e.IsCalm) ∧
      entries.map (·.record.message) = ["one", "three", "five", "seven"] ∧
      consoleText entries = "INFO | one\nWARNING | three\nINFO | five\n" ∧
      ended.outlets.console = consoleText entries ∧
      fileText entries "/home/l" =
        "t | INFO | a | one\nt | WARNING | a | three\nt | ERROR | a | seven\n" ∧
      ∀ path, ended.outlets.disk.textOf path =
        (Disk.empty "/home").textOf path ++ fileText entries path := by
  intro record es entries ended
  have hmax : areUnlimited (.start "t" (.empty "/home")) es = true := by decide +kernel
  have hothers : ∀ e ∈ es, e.IsCalm := by simp [es, record, Event.IsCalm]
  obtain ⟨hconsole, hfiles⟩ := run_delivers "t" (.empty "/home") es hmax hothers
  exact ⟨hmax, hothers, by decide +kernel, by decide +kernel, hconsole, by decide +kernel, hfiles⟩

end DirGlob.Log
