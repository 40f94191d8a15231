import Esr.Ets
import Esr.Runs
import Esr.Yaml
import Mathlib.Logic.Function.Basic

/-! # The queue of admin commands

A command is a file: the CLI puts it into `pending/`, `Esr.Slash.QueueWatcher` moves
it to `processing/` and casts it to the slash handler, and when the handler has a
response `Esr.Slash.QueueResult` moves the file to `completed/` or `failed/` and
writes the outcome over it.  A watcher that starts first moves back what has been in
`processing/` for long, going by the time of the file.

A step is one move of a file, one message, or one thing that a process does between
these.  Files are named by the ids of their commands; the names that the watcher
passes over (`.tmp`, and all but `.yaml`) are not among them.
-/
namespace Esr
namespace AdminQueue
open Yaml

inductive Dir where
  | pending
  | processing
  | completed
  | failed
  deriving DecidableEq

/-- A file: its document, if it parses to a map, and its modification time. -/
structure File where
  doc : Option Entries
  mtime : Nat

/-- What the slash handler answers.  Keys are as `to_string/1` has them, and the
terms that are not maps as `inspect/1` has them. -/
inductive Response where
  | ok (m : List (String × Value))
  | okOther (value : String)
  | error (m : List (String × Value))
  | errorOther (reason : String)
  | text (text : String)
  | other (term : String)

/-- `Map.merge(%{"ok" => ok}, stringify(m))`. -/
def merged (ok : Bool) (m : List (String × Value)) : Entries :=
  m.foldl (fun acc e => put e.1 e.2 acc) [(.str "ok", .bool ok)]

/-- `render/1` of the queue's reply target. -/
def Response.render : Response → Dir × Entries
  | .ok m => (.completed, merged true m)
  | .okOther value => (.completed, put "value" (.str value) [(.str "ok", .bool true)])
  | .error m => (.failed, merged false m)
  | .errorOther reason | .text reason | .other reason =>
    (.failed, put "error" (.str reason) [(.str "ok", .bool false)])

/-- `@secret_arg_keys`. -/
def secretArgKeys : List String := ["app_secret", "secret", "token"]

/-- An argument after `redact_args/1`. -/
def redactArg (e : Value × Value) : Value × Value :=
  match Writer.toStr e.1 with
  | some key => if key ∈ secretArgKeys then (e.1, .str "[redacted_post_exec]") else e
  | none => e

/-- `redact_secrets/1`. -/
def redactSecrets (doc : Entries) : Entries :=
  match get "args" doc with
  | some (.map args) => put "args" (.map (args.map redactArg)) doc
  | _ => doc

/-- `Map.put_new/3` with a string key. -/
def putNew (key : String) (v : Value) (m : Entries) : Entries :=
  if (get key m).isSome then m else put key v m

/-- A command that has been cast to the slash handler. -/
structure Dispatch where
  ref : Nat
  id : String
  deriving DecidableEq

/-- A command that has its response, written `at` some time. -/
structure Outcome where
  dispatch : Dispatch
  command : Entries
  response : Response
  time : Nat

/-- What the slash handler answers when no result has come in time. -/
def timedOut : Response := .text "command timed out (>5s)"

/-- Where its file is. -/
def Outcome.dest (o : Outcome) : Dir := o.response.render.1

/-- The document of the file: `respond/3` and `finish/3`. -/
def Outcome.doc (iso : Nat → String) (o : Outcome) : Entries :=
  redactSecrets (putNew "completed_at" (.str (iso o.time))
    (put "result" (.map o.response.render.2) o.command))

/-- The watcher: down, in its stale scan that began at `now`, dispatching what is in
`pending/` (or waiting for events, when that is done), with a file it has read, or
with one that it has moved. -/
inductive Watcher where
  | down
  | sweeping (now : Nat) (rest : List String)
  | ready (rest : List String)
  | loaded (id : String) (command : Entries) (rest : List String)
  | moved (id : String) (command : Entries) (rest : List String)

/-- The slash handler: idle, or in `finish/3`, before the file is moved or before the
outcome is written. -/
inductive Handler where
  | idle
  | moving (d : Dispatch) (r : Response)
  | writing (d : Dispatch) (r : Response)

/-- `inbox` has the casts to the slash handler, `awaiting` its pending references,
`running` the tasks, `results` what they have sent.  The last four fields are what
the runs are about: the ids there have been, what each dispatch has come to (its task's
result, or its refusal), the commands that are finished, and the ids whose outcome the
janitor has removed. -/
structure State where
  files : Dir → Ets String File
  clock : Nat
  watcher : Watcher
  nextRef : Nat
  commandOf : Nat → Entries
  inbox : List Dispatch
  awaiting : List Dispatch
  running : List Dispatch
  results : Dispatch → Option Response
  handler : Handler
  submitted : List String
  answers : List (Dispatch × Response)
  finished : List Outcome
  purged : List String

inductive Act where
  | submit (id : String) (doc : Option Entries)
  | tick (seconds : Nat)
  | boot
  | sweep
  | listOrphans
  | next
  | event (id : String)
  | startProcessing
  | dispatch
  | kill
  | accept (refusal : Option Response)
  | complete (d : Dispatch) (r : Response)
  | takeResult (d : Dispatch)
  | timeout (d : Dispatch)
  | move
  | write (written : Bool)
  | purge (dir : Dir) (id : String)

/-- `File.rename/2`, of a file that may not be there. -/
def rename (files : Dir → Ets String File) (id : String) (src dst : Dir) : Dir → Ets String File :=
  match (files src).lookup id with
  | some f =>
    Function.update (Function.update files src ((files src).delete id)) dst
      ((files dst).insert id f)
  | none => files

namespace State

/-- `dispatch_pending_file/2`, up to the file that it has read. -/
def load (s : State) (id : String) (rest : List String) : State :=
  match (s.files .pending).lookup id with
  | some ⟨some command, _⟩ => { s with watcher := .loaded id command rest }
  | some ⟨none, _⟩ | none => { s with watcher := .ready rest }

/-- The file has been in `processing/` for more than ten minutes before `now`, going
by its time. -/
def stale (s : State) (now : Nat) (id : String) : Bool :=
  match (s.files .processing).lookup id with
  | some f => decide (f.mtime + 10 * 60 < now)
  | none => false

/-- One file of `scan_stale_processing/2`. -/
def sweep (s : State) : Option State :=
  match s.watcher with
  | .sweeping now (id :: rest) =>
    some { s with
      watcher := .sweeping now rest
      files := if s.stale now id then rename s.files id .processing .pending else s.files }
  | _ => none

/-- `init/1` has come to its end. -/
def listOrphans (s : State) : Option State :=
  match s.watcher with
  | .sweeping _ [] => some { s with watcher := .ready (s.files .pending).keys }
  | _ => none

/-- One file of `scan_pending_orphans/1`. -/
def next (s : State) : Option State :=
  match s.watcher with
  | .ready (id :: rest) => some (s.load id rest)
  | _ => none

/-- `handle_info({:file_event, …})`. -/
def event (s : State) (id : String) : Option State :=
  match s.watcher with
  | .ready [] => some (s.load id [])
  | _ => none

/-- `start_processing/1`. -/
def startProcessing (s : State) : Option State :=
  match s.watcher with
  | .loaded id command rest =>
    some { s with
      watcher := .moved id command rest
      files := rename s.files id .pending .processing }
  | _ => none

/-- `SlashHandler.dispatch_command/2`. -/
def dispatch (s : State) : Option State :=
  match s.watcher with
  | .moved id command rest =>
    some { s with
      watcher := .ready rest
      nextRef := s.nextRef + 1
      commandOf := Function.update s.commandOf s.nextRef command
      inbox := s.inbox ++ [⟨s.nextRef, id⟩] }
  | _ => none

/-- `handle_cast({:dispatch_command, …})`: the command is refused, or a task begins to
run it. -/
def accept (s : State) (refusal : Option Response) : Option State :=
  match s.handler, s.inbox with
  | .idle, d :: rest =>
    some (match refusal with
      | some r =>
        { s with inbox := rest, handler := .moving d r, answers := (d, r) :: s.answers }
      | none => { s with inbox := rest, awaiting := d :: s.awaiting, running := d :: s.running })
  | _, _ => none

/-- The slash handler has a response, to a dispatch that it still waits for. -/
def settle (s : State) (d : Dispatch) (r : Response) : State :=
  if d ∈ s.awaiting then
    { s with awaiting := s.awaiting.filter fun d' => d' ≠ d, handler := .moving d r }
  else s

/-- `handle_info({:command_result, …})`. -/
def takeResult (s : State) (d : Dispatch) : Option State :=
  match s.handler, s.results d with
  | .idle, some r => some ({ s with results := Function.update s.results d none }.settle d r)
  | _, _ => none

/-- `handle_info({:slash_dispatch_timeout, …})`. -/
def timeout (s : State) (d : Dispatch) : Option State :=
  match s.handler with
  | .idle => some (s.settle d timedOut)
  | _ => none

/-- The move in `finish/3`. -/
def move (s : State) : Option State :=
  match s.handler with
  | .moving d r =>
    some { s with handler := .writing d r, files := rename s.files d.id .processing r.render.1 }
  | _ => none

/-- The write in `finish/3`, which may fail. -/
def write (iso : Nat → String) (s : State) (written : Bool) : Option State :=
  match s.handler with
  | .writing d r =>
    let o : Outcome := ⟨d, s.commandOf d.ref, r, s.clock⟩
    some { s with
      handler := .idle
      finished := o :: s.finished
      files :=
        if written then Function.update s.files o.dest
          ((s.files o.dest).insert d.id ⟨some (o.doc iso), s.clock⟩)
        else s.files }
  | _ => none

end State

variable (iso : Nat → String) (retentionDays : Nat)

/-- `maybe_remove/2` of the janitor. -/
def State.purge (s : State) (dir : Dir) (id : String) : Option State :=
  match (s.files dir).lookup id with
  | some f =>
    if (dir = .completed ∨ dir = .failed) ∧ f.mtime + retentionDays * 86400 < s.clock then
      some { s with
        files := Function.update s.files dir ((s.files dir).delete id)
        purged := id :: s.purged }
    else none
  | none => none

/-- The steps of the CLI, the watcher, the slash handler with its tasks, the janitor
and the clock.  An id is used once. -/
def step (s : State) : Act → Option State
  | .submit id doc =>
    if id ∈ s.submitted then none
    else some { s with
      submitted := id :: s.submitted
      files := Function.update s.files .pending ((s.files .pending).insert id ⟨doc, s.clock⟩) }
  | .tick seconds => some { s with clock := s.clock + seconds }
  | .boot =>
    match s.watcher with
    | .down => some { s with watcher := .sweeping s.clock (s.files .processing).keys }
    | _ => none
  | .sweep => s.sweep
  | .listOrphans => s.listOrphans
  | .next => s.next
  | .event id => s.event id
  | .startProcessing => s.startProcessing
  | .dispatch => s.dispatch
  | .kill => some { s with watcher := .down }
  | .accept refusal => s.accept refusal
  | .complete d r =>
    if d ∈ s.running then some { s with
      running := s.running.filter fun d' => d' ≠ d
      results := Function.update s.results d (some r)
      answers := (d, r) :: s.answers }
    else none
  | .takeResult d => s.takeResult d
  | .timeout d => s.timeout d
  | .move => s.move
  | .write written => s.write iso written
  | .purge dir id => s.purge retentionDays dir id

/-- No files, no watcher. -/
def start : State where
  files := fun _ => Ets.empty
  clock := 0
  watcher := .down
  nextRef := 0
  commandOf := fun _ => []
  inbox := []
  awaiting := []
  running := []
  results := fun _ => none
  handler := .idle
  submitted := []
  answers := []
  finished := []
  purged := []

/-! ## What it should do -/

/-- **One file for a command, one run at a time, and its own outcome**: an id is in at
most one directory; no command runs twice at a time; the outcome file of a finished
command is there, until the janitor removes it, in its directory and with its response;
and the response is what its own dispatch has come to, unless that took too long. -/
structure Correct (s : State) : Prop where
  oneDir : ∀ id dir dir', (s.files dir).lookup id ≠ none → (s.files dir').lookup id ≠ none →
    dir = dir'
  oneRun : (s.running.map Dispatch.id).Nodup
  outcome : ∀ o ∈ s.finished, ∀ dir f, dir = .completed ∨ dir = .failed →
    (s.files dir).lookup o.dispatch.id = some f → dir = o.dest ∧ f.doc = some (o.doc iso)
  recorded : ∀ o ∈ s.finished, o.dispatch.id ∉ s.purged →
    (s.files o.dest).lookup o.dispatch.id ≠ none
  own : ∀ o ∈ s.finished, (o.dispatch, o.response) ∈ s.answers ∨ o.response = timedOut

/-- The slash handler has a dispatch of the id that is not finished. -/
def State.busy (s : State) (id : String) : Bool :=
  s.inbox.any (fun d => d.id = id) || s.awaiting.any (fun d => d.id = id) ||
    match s.handler with
    | .idle => false
    | .moving d _ | .writing d _ => d.id = id

/-- The stale scan moves no file back whose command the slash handler has, and the
outcome can be written. -/
def Patient (s : State) : Act → Prop
  | .sweep =>
    match s.watcher with
    | .sweeping now (id :: _) => s.stale now id = true → s.busy id = false
    | _ => True
  | .write written => written = true
  | _ => True

instance : ∀ (s : State) (a : Act), Decidable (Patient s a)
  | s, .sweep =>
    match hw : s.watcher with
    | .sweeping now (id :: _) =>
      decidable_of_iff (s.stale now id = true → s.busy id = false) (by simp only [Patient, hw])
    | .sweeping _ [] | .down | .ready _ | .loaded .. | .moved .. =>
      isTrue (by simp only [Patient, hw])
  | _, .write written => inferInstanceAs (Decidable (written = true))
  | _, .submit .. | _, .tick _ | _, .boot | _, .listOrphans | _, .next | _, .event _
  | _, .startProcessing | _, .dispatch | _, .kill | _, .accept _ | _, .complete ..
  | _, .takeResult _ | _, .timeout _ | _, .move | _, .purge .. => isTrue trivial

/-! ## The life of a command -/

/-- Where a command is in its life. -/
inductive Stage where
  | absent
  | pending
  | taken
  | dispatched (d : Dispatch)
  | executing (d : Dispatch)
  | answered (d : Dispatch) (r : Response)
  | moved (d : Dispatch) (r : Response)
  | finished (o : Outcome)

namespace Stage

/-- The dispatch that has been made of it. -/
def dispatch : Stage → Option Dispatch
  | absent | pending | taken => none
  | dispatched d | executing d | answered d _ | moved d _ => some d
  | finished o => some o.dispatch

/-- The dispatch whose task may run. -/
def executed : Stage → Option Dispatch
  | absent | pending | taken | dispatched _ => none
  | executing d | answered d _ | moved d _ => some d
  | finished o => some o.dispatch

/-- The directory its file may be in, and with what document. -/
def Allows (iso : Nat → String) : Stage → Dir → Option Entries → Prop
  | absent, _, _ => False
  | pending, dir, _ => dir = .pending
  | taken, dir, _ | dispatched _, dir, _ | executing _, dir, _ | answered _ _, dir, _ =>
    dir = .processing
  | moved _ r, dir, _ => dir = r.render.1
  | finished o, dir, doc => dir = o.dest ∧ doc = some (o.doc iso)

theorem dispatch_of_executed {st : Stage} {d : Dispatch} (h : st.executed = some d) :
    st.dispatch = some d := by
  cases st <;> first | exact h | cases h

end Stage

theorem Response.dest_render (r : Response) :
    r.render.1 = .completed ∨ r.render.1 = .failed := by
  cases r <;> simp [render]

theorem Stage.eq_pending {st : Stage} {doc : Option Entries}
    (h : st.Allows iso .pending doc) : st = .pending := by
  cases st with
  | pending => rfl
  | absent => exact h.elim
  | taken | dispatched | executing | answered => cases h
  | moved d r =>
    have hdest : Dir.pending = r.render.1 := h
    rcases r.dest_render with he | he <;> exact nomatch hdest.trans he
  | finished o =>
    have hdest : Dir.pending = o.response.render.1 := h.1
    rcases o.response.dest_render with he | he <;> exact nomatch hdest.trans he

variable {iso retentionDays}
variable {s s' : State} {id : String} {st : Stage} {d : Dispatch} {r : Response}

/-- A command fits its stage: its file, the slash handler, the tasks and the watcher
are as the stage says. -/
structure Fits (iso : Nat → String) (s : State) (id : String) (st : Stage) : Prop where
  own : ∀ d, st.dispatch = some d → d.id = id
  files : ∀ dir f, (s.files dir).lookup id = some f → st.Allows iso dir f.doc
  inbox : ∀ d, d.id = id → (d ∈ s.inbox ↔ st = .dispatched d)
  awaiting : ∀ d, d.id = id → (d ∈ s.awaiting ↔ st = .executing d)
  moving : ∀ d r, d.id = id → (s.handler = .moving d r ↔ st = .answered d r)
  writing : ∀ d r, d.id = id → (s.handler = .writing d r ↔ st = .moved d r)
  running : ∀ d ∈ s.running, d.id = id → st.executed = some d
  finished : ∀ o, o.dispatch.id = id → (o ∈ s.finished ↔ st = .finished o)
  recorded : ∀ o, st = .finished o → id ∉ s.purged → (s.files o.dest).lookup id ≠ none
  loaded : ∀ command rest, s.watcher = .loaded id command rest → st = .pending
  moved : ∀ command rest, s.watcher = .moved id command rest → st = .taken
  submitted : id ∉ s.submitted → st = .absent

theorem fits_start (id : String) : Fits iso start id .absent where
  own := nofun
  files := nofun
  inbox _ _ := ⟨nofun, nofun⟩
  awaiting _ _ := ⟨nofun, nofun⟩
  moving _ _ _ := ⟨nofun, nofun⟩
  writing _ _ _ := ⟨nofun, nofun⟩
  running := nofun
  finished _ _ := ⟨nofun, nofun⟩
  recorded := nofun
  loaded := nofun
  moved := nofun
  submitted _ := rfl

/-- Nothing has changed for a command. -/
structure SameAt (s s' : State) (id : String) : Prop where
  files : ∀ dir, (s'.files dir).lookup id = (s.files dir).lookup id
  inbox : ∀ d, d.id = id → (d ∈ s'.inbox ↔ d ∈ s.inbox)
  awaiting : ∀ d, d.id = id → (d ∈ s'.awaiting ↔ d ∈ s.awaiting)
  moving : ∀ d r, d.id = id → (s'.handler = .moving d r ↔ s.handler = .moving d r)
  writing : ∀ d r, d.id = id → (s'.handler = .writing d r ↔ s.handler = .writing d r)
  running : ∀ d ∈ s'.running, d.id = id → d ∈ s.running
  finished : ∀ o, o.dispatch.id = id → (o ∈ s'.finished ↔ o ∈ s.finished)
  purged : id ∉ s'.purged → id ∉ s.purged
  loaded : ∀ command rest, s'.watcher = .loaded id command rest →
    s.watcher = .loaded id command rest
  moved : ∀ command rest, s'.watcher = .moved id command rest → s.watcher = .moved id command rest
  submitted : id ∉ s'.submitted → id ∉ s.submitted

theorem SameAt.refl (s : State) (id : String) : SameAt s s id :=
  ⟨fun _ => rfl, fun _ _ => Iff.rfl, fun _ _ => Iff.rfl, fun _ _ _ => Iff.rfl,
    fun _ _ _ => Iff.rfl, fun _ hin _ => hin, fun _ _ => Iff.rfl, fun hp => hp, fun _ _ hw => hw,
    fun _ _ hw => hw, fun hnew => hnew⟩

theorem Fits.same (h : Fits iso s id st) (hsame : SameAt s s' id) : Fits iso s' id st where
  own := h.own
  files dir f hf := h.files dir f ((hsame.files dir).symm.trans hf)
  inbox d hd := (hsame.inbox d hd).trans (h.inbox d hd)
  awaiting d hd := (hsame.awaiting d hd).trans (h.awaiting d hd)
  moving d r hd := (hsame.moving d r hd).trans (h.moving d r hd)
  writing d r hd := (hsame.writing d r hd).trans (h.writing d r hd)
  running d hin hd := h.running d (hsame.running d hin hd) hd
  finished o ho := (hsame.finished o ho).trans (h.finished o ho)
  recorded o ho hpurged := by
    rw [hsame.files]
    exact h.recorded o ho (hsame.purged hpurged)
  loaded command rest hw := h.loaded command rest (hsame.loaded command rest hw)
  moved command rest hw := h.moved command rest (hsame.moved command rest hw)
  submitted hnew := h.submitted (hsame.submitted hnew)

/-- Every command fits a stage, no two casts are of one command, and no two tasks. -/
structure Inv (iso : Nat → String) (s : State) : Prop where
  stages : ∃ stage : String → Stage, ∀ id, Fits iso s id (stage id)
  inbox : (s.inbox.map Dispatch.id).Nodup
  running : (s.running.map Dispatch.id).Nodup

theorem inv_start : Inv iso start where
  stages := ⟨fun _ => .absent, fits_start⟩
  inbox := List.nodup_nil
  running := List.nodup_nil

theorem fits_update {stage : String → Stage} (h : ∀ id, Fits iso s id (stage id)) (id : String)
    (st : Stage) (hst : Fits iso s' id st) (hother : ∀ id', id' ≠ id → SameAt s s' id') :
    ∃ stage : String → Stage, ∀ id, Fits iso s' id (stage id) := by
  refine ⟨Function.update stage id st, fun id' => ?_⟩
  by_cases he : id' = id
  · rw [he, Function.update_self]
    exact hst
  · rw [Function.update_of_ne he]
    exact (h id').same (hother id' he)

/-! ## Moves of files -/

variable {files : Dir → Ets String File} {id' : String} {dir : Dir}

theorem rename_eq_self {src : Dir} (dst : Dir) (h : (files src).lookup id = none) :
    rename files id src dst = files := by
  rw [rename, h]

theorem lookup_rename_of_ne (files : Dir → Ets String File) (src dst dir : Dir) (hne : id' ≠ id) :
    (rename files id src dst dir).lookup id' = (files dir).lookup id' := by
  cases hrow : (files src).lookup id with
  | none => rw [rename_eq_self dst hrow]
  | some f =>
    simp only [rename, hrow, Function.update_apply]
    split
    · rename_i he
      rw [Ets.lookup_insert_of_ne _ _ hne, he]
    · split
      · rename_i he
        rw [Ets.lookup_delete_of_ne _ hne, he]
      · rfl

theorem lookup_rename_self {src dst : Dir} {f : File}
    (h : (rename files id src dst dir).lookup id = some f) :
    (dir = dst ∧ (files src).lookup id = some f) ∨
      (dir ≠ src ∧ (files dir).lookup id = some f) := by
  cases hrow : (files src).lookup id with
  | none =>
    rw [rename_eq_self dst hrow] at h
    refine Or.inr ⟨?_, h⟩
    rintro rfl
    rw [hrow] at h
    cases h
  | some g =>
    simp only [rename, hrow, Function.update_apply] at h
    split at h
    · rename_i he
      rw [Ets.lookup_insert_self] at h
      exact Or.inl ⟨he, h⟩
    · split at h
      · rw [Ets.lookup_delete_self] at h
        cases h
      · rename_i hsrc
        exact Or.inr ⟨hsrc, h⟩

theorem lookup_insertAt_of_ne (files : Dir → Ets String File) (dst dir : Dir) (f : File)
    (hne : id' ≠ id) :
    (Function.update files dst ((files dst).insert id f) dir).lookup id' =
      (files dir).lookup id' := by
  by_cases he : dir = dst
  · rw [he, Function.update_self, Ets.lookup_insert_of_ne _ _ hne]
  · rw [Function.update_of_ne he]

theorem lookup_insertAt_self {dst : Dir} {f g : File}
    (h : (Function.update files dst ((files dst).insert id f) dir).lookup id = some g) :
    (dir = dst ∧ g = f) ∨ (dir ≠ dst ∧ (files dir).lookup id = some g) := by
  by_cases he : dir = dst
  · rw [he, Function.update_self, Ets.lookup_insert_self] at h
    exact Or.inl ⟨he, (Option.some.inj h).symm⟩
  · rw [Function.update_of_ne he] at h
    exact Or.inr ⟨he, h⟩

theorem lookup_deleteAt_of_ne (files : Dir → Ets String File) (src dir : Dir) (hne : id' ≠ id) :
    (Function.update files src ((files src).delete id) dir).lookup id' =
      (files dir).lookup id' := by
  by_cases he : dir = src
  · rw [he, Function.update_self, Ets.lookup_delete_of_ne _ hne]
  · rw [Function.update_of_ne he]

theorem lookup_deleteAt_self {src : Dir} {f : File}
    (h : (Function.update files src ((files src).delete id) dir).lookup id = some f) :
    dir ≠ src ∧ (files dir).lookup id = some f := by
  by_cases he : dir = src
  · rw [he, Function.update_self, Ets.lookup_delete_self] at h
    cases h
  · rw [Function.update_of_ne he] at h
    exact ⟨he, h⟩

/-! ## What each step can do -/

theorem boot_eq_some (h : step iso retentionDays s .boot = some s') :
    s' = { s with watcher := .sweeping s.clock (s.files .processing).keys } := by
  simp only [step] at h
  split at h
  · exact (Option.some.inj h).symm
  · cases h

theorem sweep_eq_some (h : s.sweep = some s') : ∃ now id rest,
    s.watcher = .sweeping now (id :: rest) ∧ s' = { s with
      watcher := .sweeping now rest
      files := if s.stale now id then rename s.files id .processing .pending else s.files } := by
  unfold State.sweep at h
  split at h
  · rename_i now id rest hw
    exact ⟨now, id, rest, hw, (Option.some.inj h).symm⟩
  · cases h

theorem listOrphans_eq_some (h : s.listOrphans = some s') :
    s' = { s with watcher := .ready (s.files .pending).keys } := by
  unfold State.listOrphans at h
  split at h
  · exact (Option.some.inj h).symm
  · cases h

theorem next_eq_some (h : s.next = some s') : ∃ id rest, s' = s.load id rest := by
  unfold State.next at h
  split at h
  · exact ⟨_, _, (Option.some.inj h).symm⟩
  · cases h

theorem event_eq_some (h : s.event id = some s') : s' = s.load id [] := by
  unfold State.event at h
  split at h
  · exact (Option.some.inj h).symm
  · cases h

theorem load_eq (s : State) (id : String) (rest : List String) :
    (∃ command f, (s.files .pending).lookup id = some f ∧
      s.load id rest = { s with watcher := .loaded id command rest }) ∨
    s.load id rest = { s with watcher := .ready rest } := by
  unfold State.load
  split
  · rename_i command mtime hf
    exact Or.inl ⟨command, _, hf, rfl⟩
  · exact Or.inr rfl
  · exact Or.inr rfl

theorem startProcessing_eq_some (h : s.startProcessing = some s') : ∃ id command rest,
    s.watcher = .loaded id command rest ∧ s' = { s with
      watcher := .moved id command rest
      files := rename s.files id .pending .processing } := by
  unfold State.startProcessing at h
  split at h
  · rename_i id command rest hw
    exact ⟨id, command, rest, hw, (Option.some.inj h).symm⟩
  · cases h

theorem dispatch_eq_some (h : s.dispatch = some s') : ∃ id command rest,
    s.watcher = .moved id command rest ∧ s' = { s with
      watcher := .ready rest
      nextRef := s.nextRef + 1
      commandOf := Function.update s.commandOf s.nextRef command
      inbox := s.inbox ++ [⟨s.nextRef, id⟩] } := by
  unfold State.dispatch at h
  split at h
  · rename_i id command rest hw
    exact ⟨id, command, rest, hw, (Option.some.inj h).symm⟩
  · cases h

theorem accept_eq_some {refusal : Option Response} (h : s.accept refusal = some s') :
    ∃ d rest, s.handler = .idle ∧ s.inbox = d :: rest ∧
      ((∃ r, refusal = some r ∧ s' = { s with
          inbox := rest, handler := .moving d r, answers := (d, r) :: s.answers }) ∨
        (refusal = none ∧ s' = { s with
          inbox := rest, awaiting := d :: s.awaiting, running := d :: s.running })) := by
  unfold State.accept at h
  split at h
  · rename_i d rest hidle hinbox
    refine ⟨d, rest, hidle, hinbox, ?_⟩
    cases refusal with
    | none => exact Or.inr ⟨rfl, (Option.some.inj h).symm⟩
    | some r => exact Or.inl ⟨r, rfl, (Option.some.inj h).symm⟩
  · cases h

theorem takeResult_eq_some (h : s.takeResult d = some s') :
    ∃ r, s.handler = .idle ∧ s.results d = some r ∧
      s' = { s with results := Function.update s.results d none }.settle d r := by
  unfold State.takeResult at h
  split at h
  · rename_i r hidle hr
    exact ⟨r, hidle, hr, (Option.some.inj h).symm⟩
  · cases h

theorem timeout_eq_some (h : s.timeout d = some s') : s.handler = .idle ∧
    s' = s.settle d timedOut := by
  unfold State.timeout at h
  split at h
  · rename_i hidle
    exact ⟨hidle, (Option.some.inj h).symm⟩
  · cases h

theorem move_eq_some (h : s.move = some s') : ∃ d r, s.handler = .moving d r ∧ s' = { s with
    handler := .writing d r, files := rename s.files d.id .processing r.render.1 } := by
  unfold State.move at h
  split at h
  · rename_i d r hd
    exact ⟨d, r, hd, (Option.some.inj h).symm⟩
  · cases h

theorem write_eq_some {written : Bool} (h : s.write iso written = some s') :
    ∃ d r o, s.handler = .writing d r ∧ o = (⟨d, s.commandOf d.ref, r, s.clock⟩ : Outcome) ∧
      s' = { s with
        handler := .idle
        finished := o :: s.finished
        files :=
          if written then Function.update s.files o.dest
            ((s.files o.dest).insert d.id ⟨some (o.doc iso), s.clock⟩)
          else s.files } := by
  unfold State.write at h
  split at h
  · rename_i d r hd
    exact ⟨d, r, _, hd, rfl, (Option.some.inj h).symm⟩
  · cases h

theorem purge_eq_some (h : s.purge retentionDays dir id = some s') :
    s' = { s with
      files := Function.update s.files dir ((s.files dir).delete id)
      purged := id :: s.purged } := by
  unfold State.purge at h
  split at h
  · obtain ⟨_, he⟩ := Option.ite_none_right_eq_some.mp h
    exact (Option.some.inj he).symm
  · cases h

/-! ## The steps -/

theorem Fits.undispatched {st' : Stage} (h : Fits iso s id st) (hst : st.dispatch = none)
    (hst' : st'.dispatch = none)
    (hfiles : ∀ dir f, (s'.files dir).lookup id = some f → st'.Allows iso dir f.doc)
    (hinbox : s'.inbox = s.inbox) (hawaiting : s'.awaiting = s.awaiting)
    (hhandler : s'.handler = s.handler) (hrunning : s'.running = s.running)
    (hfinished : s'.finished = s.finished)
    (hloaded : ∀ command rest, s'.watcher = .loaded id command rest → st' = .pending)
    (hmoved : ∀ command rest, s'.watcher = .moved id command rest → st' = .taken)
    (hsubmitted : id ∈ s'.submitted) : Fits iso s' id st' := by
  have hneither : ∀ {st'' : Stage} {d}, st''.dispatch = some d → (st = st'' ↔ st' = st'') := by
    intro st'' d hd
    constructor
    · rintro rfl
      exact nomatch hst.symm.trans hd
    · rintro rfl
      exact nomatch hst'.symm.trans hd
  constructor
  · exact fun d he => nomatch hst'.symm.trans he
  · exact hfiles
  · intro d hd
    rw [hinbox, h.inbox d hd]
    exact hneither rfl
  · intro d hd
    rw [hawaiting, h.awaiting d hd]
    exact hneither rfl
  · intro d r hd
    rw [hhandler, h.moving d r hd]
    exact hneither rfl
  · intro d r hd
    rw [hhandler, h.writing d r hd]
    exact hneither rfl
  · intro d hin hd
    have hrun := Stage.dispatch_of_executed (h.running d (hrunning ▸ hin) hd)
    exact nomatch hst.symm.trans hrun
  · intro o ho
    rw [hfinished, h.finished o ho]
    exact hneither rfl
  · rintro o rfl
    cases hst'
  · exact hloaded
  · exact hmoved
  · exact fun hnew => absurd hsubmitted hnew

theorem Fits.mem_submitted (h : Fits iso s id st) (hst : st ≠ .absent) : id ∈ s.submitted := by
  by_contra hnew
  exact hst (h.submitted hnew)

theorem SameAt.ofWatcher {w : Watcher} (hloaded : ∀ command rest, w ≠ .loaded id command rest)
    (hmoved : ∀ command rest, w ≠ .moved id command rest) :
    SameAt s { s with watcher := w } id :=
  { SameAt.refl s id with
    loaded := fun command rest hw => absurd hw (hloaded command rest)
    moved := fun command rest hw => absurd hw (hmoved command rest) }

theorem Inv.keep (h : Inv iso s) (hsame : ∀ id, SameAt s s' id) (hinbox : s'.inbox = s.inbox)
    (hrunning : s'.running.Sublist s.running) : Inv iso s' := by
  obtain ⟨stage, hall⟩ := h.stages
  exact ⟨⟨stage, fun id => (hall id).same (hsame id)⟩, hinbox ▸ h.inbox,
    h.running.sublist (hrunning.map _)⟩

theorem Inv.submit (h : Inv iso s) (hnew : id ∉ s.submitted) (doc : Option Entries) :
    Inv iso { s with
      submitted := id :: s.submitted
      files := Function.update s.files .pending
        ((s.files .pending).insert id ⟨doc, s.clock⟩) } := by
  obtain ⟨stage, hall⟩ := h.stages
  have hst := (hall id).submitted hnew
  have hid : Fits iso s id .absent := hst ▸ hall id
  refine ⟨fits_update hall id .pending ?_ ?_, h.inbox, h.running⟩
  · refine hid.undispatched rfl rfl ?_ rfl rfl rfl rfl rfl (fun _ _ _ => rfl) ?_ List.mem_cons_self
    · intro dir f hf
      rcases lookup_insertAt_self hf with ⟨he, _⟩ | ⟨_, hf'⟩
      · exact he
      · exact (hid.files dir f hf').elim
    · intro command rest hw
      exact nomatch hid.moved command rest hw
  · intro id' hne
    exact { SameAt.refl s id' with
      files := fun dir => lookup_insertAt_of_ne s.files .pending dir _ hne
      submitted := fun hnew' hin => hnew' (List.mem_cons_of_mem _ hin) }

theorem Inv.load (h : Inv iso s) (id : String) (rest : List String) : Inv iso (s.load id rest) := by
  rcases load_eq s id rest with ⟨command, f, hf, he⟩ | he
  · rw [he]
    obtain ⟨stage, hall⟩ := h.stages
    have hid := hall id
    have hallows := hid.files _ f hf
    have hpending : stage id = .pending := Stage.eq_pending iso hallows
    rw [hpending] at hid
    refine ⟨fits_update hall id .pending ?_ ?_, h.inbox, h.running⟩
    · refine hid.undispatched rfl rfl hid.files rfl rfl rfl rfl rfl (fun _ _ _ => rfl) nofun ?_
      exact hid.mem_submitted nofun
    · intro id' hne
      refine SameAt.ofWatcher ?_ nofun
      intro command' rest' hw
      exact hne (Watcher.loaded.inj hw).1.symm
  · rw [he]
    exact h.keep (fun id => SameAt.ofWatcher nofun nofun) rfl (List.Sublist.refl _)

theorem Fits.eq_taken {f : File} (h : Fits iso s id st)
    (hf : (s.files .processing).lookup id = some f) (hbusy : s.busy id = false) : st = .taken := by
  have hallows := h.files _ _ hf
  rw [State.busy, Bool.or_eq_false_iff, Bool.or_eq_false_iff] at hbusy
  obtain ⟨⟨hinbox, hawaiting⟩, hhandler⟩ := hbusy
  cases st with
  | taken => rfl
  | absent => exact hallows.elim
  | pending => cases hallows
  | dispatched d =>
    have hd : d.id = id := h.own d rfl
    have hin : d ∈ s.inbox := (h.inbox d hd).mpr rfl
    exact absurd (decide_eq_true hd) (List.any_eq_false.mp hinbox d hin)
  | executing d =>
    have hd : d.id = id := h.own d rfl
    have hin : d ∈ s.awaiting := (h.awaiting d hd).mpr rfl
    exact absurd (decide_eq_true hd) (List.any_eq_false.mp hawaiting d hin)
  | answered d r =>
    have hd : d.id = id := h.own d rfl
    rw [(h.moving d r hd).mpr rfl] at hhandler
    exact absurd hd (of_decide_eq_false hhandler)
  | moved d r =>
    have hdest : Dir.processing = r.render.1 := hallows
    rcases r.dest_render with he | he <;> exact nomatch hdest.trans he
  | finished o =>
    have hdest : Dir.processing = o.response.render.1 := hallows.1
    rcases o.response.dest_render with he | he <;> exact nomatch hdest.trans he

theorem SameAt.ofMove (hne : id' ≠ id) (src dst : Dir) {w : Watcher}
    (hloaded : ∀ command rest, w ≠ .loaded id' command rest)
    (hmoved : ∀ command rest, w ≠ .moved id' command rest) :
    SameAt s { s with watcher := w, files := rename s.files id src dst } id' :=
  { SameAt.ofWatcher hloaded hmoved with
    files := fun dir => lookup_rename_of_ne s.files src dst dir hne }

theorem exists_of_stale {now : Nat} (h : s.stale now id = true) :
    ∃ f, (s.files .processing).lookup id = some f := by
  unfold State.stale at h
  split at h
  · rename_i f hf
    exact ⟨f, hf⟩
  · cases h

theorem Inv.sweep (h : Inv iso s) (hpatient : Patient s .sweep) (hs : s.sweep = some s') :
    Inv iso s' := by
  obtain ⟨now, id, rest, hw, rfl⟩ := sweep_eq_some hs
  have hfree : s.stale now id = true → s.busy id = false := by
    simpa only [Patient, hw] using hpatient
  by_cases hstale : s.stale now id = true
  · rw [if_pos hstale]
    obtain ⟨stage, hall⟩ := h.stages
    have hid := hall id
    obtain ⟨f, hf⟩ := exists_of_stale hstale
    have htaken : stage id = .taken := hid.eq_taken hf (hfree hstale)
    rw [htaken] at hid
    refine ⟨fits_update hall id .pending ?_ ?_, h.inbox, h.running⟩
    · refine hid.undispatched rfl rfl ?_ rfl rfl rfl rfl rfl nofun nofun (hid.mem_submitted nofun)
      intro dir g hg
      rcases lookup_rename_self hg with ⟨he, _⟩ | ⟨hdir, hg'⟩
      · exact he
      · exact absurd (hid.files dir g hg') hdir
    · exact fun id' hne => SameAt.ofMove hne _ _ nofun nofun
  · rw [if_neg hstale]
    exact h.keep (fun id => SameAt.ofWatcher nofun nofun) rfl (List.Sublist.refl _)

theorem Inv.startProcessing (h : Inv iso s) (hs : s.startProcessing = some s') : Inv iso s' := by
  obtain ⟨id, command, rest, hw, rfl⟩ := startProcessing_eq_some hs
  obtain ⟨stage, hall⟩ := h.stages
  have hid := hall id
  have hpending : stage id = .pending := hid.loaded command rest hw
  rw [hpending] at hid
  refine ⟨fits_update hall id .taken ?_ ?_, h.inbox, h.running⟩
  · refine hid.undispatched rfl rfl ?_ rfl rfl rfl rfl rfl nofun (fun _ _ _ => rfl)
      (hid.mem_submitted nofun)
    intro dir f hf
    rcases lookup_rename_self hf with ⟨he, _⟩ | ⟨hdir, hf'⟩
    · exact he
    · exact absurd (hid.files dir f hf') hdir
  · intro id' hne
    refine SameAt.ofMove hne _ _ nofun ?_
    intro command' rest' hw'
    exact hne (Watcher.moved.inj hw').1.symm

theorem Inv.dispatch (h : Inv iso s) (hs : s.dispatch = some s') : Inv iso s' := by
  obtain ⟨id, command, rest, hw, rfl⟩ := dispatch_eq_some hs
  obtain ⟨stage, hall⟩ := h.stages
  have hid := hall id
  have htaken : stage id = .taken := hid.moved command rest hw
  rw [htaken] at hid
  have hnone : ∀ d ∈ s.inbox, d.id ≠ id := fun d hin hd => nomatch (hid.inbox d hd).mp hin
  refine ⟨fits_update hall id (.dispatched ⟨s.nextRef, id⟩) ?_ ?_, ?_, h.running⟩
  · constructor
    · rintro d ⟨⟩
      rfl
    · exact hid.files
    · intro d hd
      rw [List.mem_append, List.mem_singleton]
      constructor
      · rintro (hin | rfl)
        · exact absurd hd (hnone d hin)
        · rfl
      · rintro ⟨⟩
        exact Or.inr rfl
    · exact fun d hd => (hid.awaiting d hd).trans ⟨nofun, nofun⟩
    · exact fun d r hd => (hid.moving d r hd).trans ⟨nofun, nofun⟩
    · exact fun d r hd => (hid.writing d r hd).trans ⟨nofun, nofun⟩
    · exact hid.running
    · exact fun o ho => (hid.finished o ho).trans ⟨nofun, nofun⟩
    · exact nofun
    · exact nofun
    · exact nofun
    · exact fun hnew => absurd (hid.mem_submitted nofun) hnew
  · intro id' hne
    refine { SameAt.refl s id' with inbox := ?_, loaded := nofun, moved := nofun }
    intro d hd
    rw [List.mem_append, List.mem_singleton]
    refine or_iff_left ?_
    rintro rfl
    exact hne hd.symm
  · show ((s.inbox ++ [Dispatch.mk s.nextRef id]).map Dispatch.id).Nodup
    rw [List.map_append, List.nodup_append]
    refine ⟨h.inbox, List.nodup_singleton _, ?_⟩
    intro id₁ hin₁ id₂ hin₂
    obtain ⟨d, hin, rfl⟩ := List.mem_map.mp hin₁
    rw [List.mem_singleton.mp hin₂]
    exact hnone d hin

theorem Fits.answered (h : Fits iso s d.id st) (hst : st = .dispatched d ∨ st = .executing d)
    (hfiles : s'.files = s.files) (hinbox : ∀ d', d'.id = d.id → d' ∉ s'.inbox)
    (hawaiting : ∀ d', d'.id = d.id → d' ∉ s'.awaiting) (hhandler : s'.handler = .moving d r)
    (hrunning : s'.running = s.running) (hfinished : s'.finished = s.finished)
    (hwatcher : s'.watcher = s.watcher) (hsubmitted : s'.submitted = s.submitted) :
    Fits iso s' d.id (.answered d r) := by
  have hdispatch : st.dispatch = some d := by rcases hst with rfl | rfl <;> rfl
  constructor
  · exact fun d' hd => (Option.some.inj hd) ▸ rfl
  · intro dir f hf
    rw [hfiles] at hf
    have hallows := h.files dir f hf
    rcases hst with rfl | rfl <;> exact hallows
  · exact fun d' hd => ⟨fun hin => absurd hin (hinbox d' hd), nofun⟩
  · exact fun d' hd => ⟨fun hin => absurd hin (hawaiting d' hd), nofun⟩
  · intro d' r' _
    rw [hhandler]
    constructor <;> rintro ⟨⟩ <;> rfl
  · intro d' r' _
    rw [hhandler]
    exact ⟨nofun, nofun⟩
  · intro d' hin hd
    rw [hrunning] at hin
    exact hdispatch.symm.trans (Stage.dispatch_of_executed (h.running d' hin hd))
  · intro o ho
    rw [hfinished, h.finished o ho]
    refine ⟨?_, nofun⟩
    rintro rfl
    rcases hst with he | he <;> cases he
  · exact nofun
  · intro command rest hw
    rw [hwatcher] at hw
    rw [h.loaded command rest hw] at hdispatch
    cases hdispatch
  · intro command rest hw
    rw [hwatcher] at hw
    rw [h.moved command rest hw] at hdispatch
    cases hdispatch
  · intro hnew
    rw [hsubmitted] at hnew
    rw [h.submitted hnew] at hdispatch
    cases hdispatch

theorem Fits.executing (h : Fits iso s d.id (.dispatched d)) {rest : List Dispatch}
    (hrest : ∀ d' ∈ rest, d'.id ≠ d.id) :
    Fits iso { s with inbox := rest, awaiting := d :: s.awaiting, running := d :: s.running } d.id
      (.executing d) := by
  constructor
  · exact h.own
  · exact h.files
  · exact fun d' hd => ⟨fun hin => absurd hd (hrest d' hin), nofun⟩
  · intro d' hd
    rw [List.mem_cons]
    constructor
    · rintro (rfl | hin)
      · rfl
      · exact nomatch (h.awaiting d' hd).mp hin
    · rintro ⟨⟩
      exact Or.inl rfl
  · exact fun d' r hd => (h.moving d' r hd).trans ⟨nofun, nofun⟩
  · exact fun d' r hd => (h.writing d' r hd).trans ⟨nofun, nofun⟩
  · intro d' hin hd
    rcases List.mem_cons.mp hin with rfl | hin'
    · rfl
    · exact nomatch h.running d' hin' hd
  · exact fun o ho => (h.finished o ho).trans ⟨nofun, nofun⟩
  · exact nofun
  · exact fun command rest hw => nomatch h.loaded command rest hw
  · exact fun command rest hw => nomatch h.moved command rest hw
  · exact fun hnew => nomatch h.submitted hnew

theorem handler_of_ne (hidle : s.handler = .idle) (hne : id' ≠ d.id) :
    (∀ d' r', d'.id = id' → (Handler.moving d r = .moving d' r' ↔ s.handler = .moving d' r')) ∧
      ∀ d' r', d'.id = id' →
        (Handler.moving d r = .writing d' r' ↔ s.handler = .writing d' r') := by
  rw [hidle]
  refine ⟨?_, fun _ _ _ => ⟨nofun, nofun⟩⟩
  intro d' r' hd
  refine ⟨?_, nofun⟩
  rintro ⟨⟩
  exact absurd hd.symm hne

theorem Inv.accept (h : Inv iso s) {refusal : Option Response} (hs : s.accept refusal = some s') :
    Inv iso s' := by
  obtain ⟨d, rest, hidle, hinbox, hcases⟩ := accept_eq_some hs
  obtain ⟨stage, hall⟩ := h.stages
  have hid := hall d.id
  have hst : stage d.id = .dispatched d := (hid.inbox d rfl).mp (hinbox ▸ List.mem_cons_self)
  rw [hst] at hid
  have hnodup := h.inbox
  rw [hinbox, List.map_cons, List.nodup_cons] at hnodup
  have hnone : ∀ d' ∈ rest, d'.id ≠ d.id := fun d' hin hd =>
    hnodup.1 (List.mem_map.mpr ⟨d', hin, hd⟩)
  have hsame : ∀ d', d'.id ≠ d.id → (d' ∈ rest ↔ d' ∈ s.inbox) := by
    intro d' hne
    rw [hinbox, List.mem_cons]
    refine (or_iff_right ?_).symm
    rintro rfl
    exact hne rfl
  rcases hcases with ⟨r, _, rfl⟩ | ⟨_, rfl⟩
  · refine ⟨fits_update hall d.id (.answered d r) ?_ ?_, hnodup.2, h.running⟩
    · exact hid.answered (Or.inl rfl) rfl (fun d' hd hin => hnone d' hin hd)
        (fun d' hd hin => nomatch (hid.awaiting d' hd).mp hin) rfl rfl rfl rfl rfl
    · intro id' hne
      obtain ⟨hmoving, hwriting⟩ := handler_of_ne (r := r) hidle hne
      exact { SameAt.refl s id' with
        inbox := fun d' hd => hsame d' (hd ▸ hne), moving := hmoving, writing := hwriting }
  · refine ⟨fits_update hall d.id (.executing d) ?_ ?_, hnodup.2, ?_⟩
    · exact hid.executing hnone
    · intro id' hne
      refine { SameAt.refl s id' with
        inbox := fun d' hd => hsame d' (hd ▸ hne), awaiting := ?_, running := ?_ }
      · intro d' hd
        rw [List.mem_cons]
        refine or_iff_right ?_
        rintro rfl
        exact hne hd.symm
      · intro d' hin hd
        rcases List.mem_cons.mp hin with rfl | hin'
        · exact absurd hd.symm hne
        · exact hin'
    · show ((d :: s.running).map Dispatch.id).Nodup
      rw [List.map_cons, List.nodup_cons]
      refine ⟨?_, h.running⟩
      intro hin
      obtain ⟨d', hin', hd⟩ := List.mem_map.mp hin
      exact nomatch hid.running d' hin' hd

theorem Inv.settle (h : Inv iso s) (hidle : s.handler = .idle) (d : Dispatch) (r : Response) :
    Inv iso (s.settle d r) := by
  unfold State.settle
  split
  · rename_i hin
    obtain ⟨stage, hall⟩ := h.stages
    have hid := hall d.id
    have hst : stage d.id = .executing d := (hid.awaiting d rfl).mp hin
    rw [hst] at hid
    refine ⟨fits_update hall d.id (.answered d r) ?_ ?_, h.inbox, h.running⟩
    · refine hid.answered (Or.inr rfl) rfl (fun d' hd hin' => nomatch (hid.inbox d' hd).mp hin')
        ?_ rfl rfl rfl rfl rfl
      intro d' hd hin'
      obtain ⟨hawaits, hne⟩ := List.mem_filter.mp hin'
      obtain ⟨⟩ := (hid.awaiting d' hd).mp hawaits
      exact absurd rfl (of_decide_eq_true hne)
    · intro id' hne
      obtain ⟨hmoving, hwriting⟩ := handler_of_ne (r := r) hidle hne
      refine { SameAt.refl s id' with awaiting := ?_, moving := hmoving, writing := hwriting }
      intro d' hd
      rw [List.mem_filter]
      refine and_iff_left (decide_eq_true ?_)
      rintro rfl
      exact hne hd.symm
  · exact h

theorem Inv.move (h : Inv iso s) (hs : s.move = some s') : Inv iso s' := by
  obtain ⟨d, r, hmoving, rfl⟩ := move_eq_some hs
  obtain ⟨stage, hall⟩ := h.stages
  have hid := hall d.id
  have hst : stage d.id = .answered d r := (hid.moving d r rfl).mp hmoving
  rw [hst] at hid
  refine ⟨fits_update hall d.id (.moved d r) ?_ ?_, h.inbox, h.running⟩
  · constructor
    · exact hid.own
    · intro dir f hf
      rcases lookup_rename_self hf with ⟨he, _⟩ | ⟨hdir, hf'⟩
      · exact he
      · exact absurd (hid.files dir f hf') hdir
    · exact fun d' hd => (hid.inbox d' hd).trans ⟨nofun, nofun⟩
    · exact fun d' hd => (hid.awaiting d' hd).trans ⟨nofun, nofun⟩
    · exact fun d' r' _ => ⟨nofun, nofun⟩
    · intro d' r' _
      constructor <;> rintro ⟨⟩ <;> rfl
    · exact hid.running
    · exact fun o ho => (hid.finished o ho).trans ⟨nofun, nofun⟩
    · exact nofun
    · exact fun command rest hw => nomatch hid.loaded command rest hw
    · exact fun command rest hw => nomatch hid.moved command rest hw
    · exact fun hnew => nomatch hid.submitted hnew
  · intro id' hne
    refine { SameAt.refl s id' with
      files := fun dir => lookup_rename_of_ne s.files _ _ dir hne, moving := ?_, writing := ?_ }
    · intro d' r' hd
      rw [hmoving]
      refine ⟨nofun, ?_⟩
      rintro ⟨⟩
      exact absurd hd.symm hne
    · intro d' r' hd
      rw [hmoving]
      refine ⟨?_, nofun⟩
      rintro ⟨⟩
      exact absurd hd.symm hne

theorem Inv.write (h : Inv iso s) (hs : s.write iso true = some s') : Inv iso s' := by
  obtain ⟨d, r, o, hwriting, ho, he⟩ := write_eq_some hs
  rw [if_pos rfl] at he
  obtain rfl := he
  have hod : o.dispatch = d := by rw [ho]
  have hdest : o.dest = r.render.1 := by rw [ho, Outcome.dest]
  obtain ⟨stage, hall⟩ := h.stages
  have hid := hall d.id
  have hst : stage d.id = .moved d r := (hid.writing d r rfl).mp hwriting
  rw [hst] at hid
  refine ⟨fits_update hall d.id (.finished o) ?_ ?_, h.inbox, h.running⟩
  · constructor
    · intro d' hd
      exact hid.own d' (hod ▸ hd)
    · intro dir f hf
      rcases lookup_insertAt_self hf with ⟨he, rfl⟩ | ⟨hne, hf'⟩
      · exact ⟨he, rfl⟩
      · exact absurd ((hid.files dir f hf').trans hdest.symm) hne
    · exact fun d' hd => (hid.inbox d' hd).trans ⟨nofun, nofun⟩
    · exact fun d' hd => (hid.awaiting d' hd).trans ⟨nofun, nofun⟩
    · exact fun d' r' _ => ⟨nofun, nofun⟩
    · exact fun d' r' _ => ⟨nofun, nofun⟩
    · intro d' hin hd
      have hrun : some d = some d' := hid.running d' hin hd
      exact (congrArg some hod).trans hrun
    · intro o' ho'
      rw [List.mem_cons]
      constructor
      · rintro (rfl | hin)
        · rfl
        · exact nomatch (hid.finished o' ho').mp hin
      · rintro ⟨⟩
        exact Or.inl rfl
    · rintro o' ⟨⟩ _
      show (Function.update s.files o.dest _ o.dest).lookup d.id ≠ none
      rw [Function.update_self, Ets.lookup_insert_self]
      exact Option.some_ne_none _
    · exact fun command rest hw => nomatch hid.loaded command rest hw
    · exact fun command rest hw => nomatch hid.moved command rest hw
    · exact fun hnew => nomatch hid.submitted hnew
  · intro id' hne
    refine { SameAt.refl s id' with
      files := fun dir => lookup_insertAt_of_ne s.files o.dest dir _ hne
      moving := ?_, writing := ?_, finished := ?_ }
    · intro d' r' hd
      rw [hwriting]
      exact ⟨nofun, nofun⟩
    · intro d' r' hd
      rw [hwriting]
      refine ⟨nofun, ?_⟩
      rintro ⟨⟩
      exact absurd hd.symm hne
    · intro o' ho'
      rw [List.mem_cons]
      refine or_iff_right ?_
      rintro rfl
      exact hne (ho'.symm.trans (congrArg Dispatch.id hod))

theorem Inv.purge (h : Inv iso s) (hs : s.purge retentionDays dir id = some s') : Inv iso s' := by
  obtain rfl := purge_eq_some hs
  obtain ⟨stage, hall⟩ := h.stages
  have hid := hall id
  refine ⟨fits_update hall id (stage id) ?_ ?_, h.inbox, h.running⟩
  · refine { hid with files := ?_, recorded := ?_ }
    · exact fun dir' f hf => hid.files dir' f (lookup_deleteAt_self hf).2
    · exact fun o _ hpurged => absurd List.mem_cons_self hpurged
  · intro id' hne
    exact { SameAt.refl s id' with
      files := fun dir' => lookup_deleteAt_of_ne s.files dir dir' hne
      purged := fun hpurged hin => hpurged (List.mem_cons_of_mem _ hin) }

theorem Inv.silent (h : Inv iso s) {clock : Nat} {results : Dispatch → Option Response}
    {answers : List (Dispatch × Response)} {running : List Dispatch}
    (hrunning : running.Sublist s.running) :
    Inv iso { s with clock, results, answers, running } := by
  refine h.keep (fun id => ?_) rfl hrunning
  exact { SameAt.refl s id with running := fun _ hin _ => hrunning.subset hin }

/-- **Every patient step keeps the commands in their stages.** -/
theorem Inv.step (h : Inv iso s) {a : Act} (hpatient : Patient s a)
    (hs : step iso retentionDays s a = some s') : Inv iso s' := by
  cases a with
  | submit id doc =>
    simp only [AdminQueue.step] at hs
    split at hs
    · cases hs
    · rename_i hnew
      obtain ⟨⟩ := hs
      exact h.submit hnew doc
  | tick seconds =>
    obtain ⟨⟩ := hs
    exact h.silent (List.Sublist.refl _)
  | boot =>
    obtain rfl := boot_eq_some hs
    exact h.keep (fun id => SameAt.ofWatcher nofun nofun) rfl (List.Sublist.refl _)
  | sweep => exact h.sweep hpatient hs
  | listOrphans =>
    obtain rfl := listOrphans_eq_some hs
    exact h.keep (fun id => SameAt.ofWatcher nofun nofun) rfl (List.Sublist.refl _)
  | next =>
    obtain ⟨id, rest, rfl⟩ := next_eq_some hs
    exact h.load id rest
  | event id =>
    obtain rfl := event_eq_some hs
    exact h.load id []
  | startProcessing => exact h.startProcessing hs
  | dispatch => exact h.dispatch hs
  | kill =>
    obtain ⟨⟩ := hs
    exact h.keep (fun id => SameAt.ofWatcher nofun nofun) rfl (List.Sublist.refl _)
  | accept refusal => exact h.accept hs
  | complete d r =>
    simp only [AdminQueue.step] at hs
    split at hs
    · obtain ⟨⟩ := hs
      exact h.silent List.filter_sublist
    · cases hs
  | takeResult d =>
    obtain ⟨r, hidle, _, rfl⟩ := takeResult_eq_some hs
    have hkeep : Inv iso { s with results := Function.update s.results d none } :=
      h.silent (List.Sublist.refl _)
    exact hkeep.settle hidle d r
  | timeout d =>
    obtain ⟨hidle, rfl⟩ := timeout_eq_some hs
    exact h.settle hidle d _
  | move => exact h.move hs
  | write written =>
    obtain rfl : written = true := hpatient
    exact h.write hs
  | purge dir id => exact h.purge hs

/-! ## Whose the responses are -/

/-- A response is what a dispatch has come to, or says that it took too long. -/
def State.Owns (s : State) (d : Dispatch) (r : Response) : Prop :=
  (d, r) ∈ s.answers ∨ r = timedOut

/-- The slash handler has its responses from the dispatches that they are for. -/
structure Owned (s : State) : Prop where
  results : ∀ d r, s.results d = some r → s.Owns d r
  moving : ∀ d r, s.handler = .moving d r → s.Owns d r
  writing : ∀ d r, s.handler = .writing d r → s.Owns d r
  finished : ∀ o ∈ s.finished, s.Owns o.dispatch o.response

theorem owned_start : Owned start where
  results := nofun
  moving := nofun
  writing := nofun
  finished := nofun

theorem Owned.answer (h : Owned s) (d : Dispatch) (r : Response) :
    Owned { s with answers := (d, r) :: s.answers } where
  results d' r' hr := (h.results d' r' hr).imp_left (List.mem_cons_of_mem _)
  moving d' r' hr := (h.moving d' r' hr).imp_left (List.mem_cons_of_mem _)
  writing d' r' hr := (h.writing d' r' hr).imp_left (List.mem_cons_of_mem _)
  finished o ho := (h.finished o ho).imp_left (List.mem_cons_of_mem _)

theorem Owned.settle (h : Owned s) (hr : s.Owns d r) : Owned (s.settle d r) := by
  unfold State.settle
  split
  · refine ⟨h.results, ?_, nofun, h.finished⟩
    rintro d' r' ⟨⟩
    exact hr
  · exact h

theorem Owned.load (h : Owned s) (id : String) (rest : List String) : Owned (s.load id rest) := by
  rcases load_eq s id rest with ⟨_, _, _, he⟩ | he <;> rw [he] <;>
    exact ⟨h.results, h.moving, h.writing, h.finished⟩

/-- **Every step keeps the responses with their dispatches.** -/
theorem Owned.step (h : Owned s) {a : Act} (hs : step iso retentionDays s a = some s') :
    Owned s' := by
  cases a with
  | submit id doc =>
    obtain ⟨_, hs⟩ := Option.ite_none_left_eq_some.mp hs
    obtain ⟨⟩ := hs
    exact ⟨h.results, h.moving, h.writing, h.finished⟩
  | tick seconds | kill =>
    obtain ⟨⟩ := hs
    exact ⟨h.results, h.moving, h.writing, h.finished⟩
  | boot =>
    obtain rfl := boot_eq_some hs
    exact ⟨h.results, h.moving, h.writing, h.finished⟩
  | sweep =>
    obtain ⟨_, _, _, _, rfl⟩ := sweep_eq_some hs
    exact ⟨h.results, h.moving, h.writing, h.finished⟩
  | listOrphans =>
    obtain rfl := listOrphans_eq_some hs
    exact ⟨h.results, h.moving, h.writing, h.finished⟩
  | next =>
    obtain ⟨id, rest, rfl⟩ := next_eq_some hs
    exact h.load id rest
  | event id =>
    obtain rfl := event_eq_some hs
    exact h.load id []
  | startProcessing =>
    obtain ⟨_, _, _, _, rfl⟩ := startProcessing_eq_some hs
    exact ⟨h.results, h.moving, h.writing, h.finished⟩
  | dispatch =>
    obtain ⟨_, _, _, _, rfl⟩ := dispatch_eq_some hs
    exact ⟨h.results, h.moving, h.writing, h.finished⟩
  | accept refusal =>
    obtain ⟨d, rest, _, _, ⟨r, _, rfl⟩ | ⟨_, rfl⟩⟩ := accept_eq_some hs
    · have hanswer := h.answer d r
      refine ⟨hanswer.results, ?_, nofun, hanswer.finished⟩
      rintro d' r' ⟨⟩
      exact Or.inl List.mem_cons_self
    · exact ⟨h.results, h.moving, h.writing, h.finished⟩
  | complete d r =>
    obtain ⟨_, hs⟩ := Option.ite_none_right_eq_some.mp hs
    obtain ⟨⟩ := hs
    have hanswer := h.answer d r
    refine ⟨?_, hanswer.moving, hanswer.writing, hanswer.finished⟩
    intro d' r' hr
    replace hr : Function.update s.results d (some r) d' = some r' := hr
    by_cases hd : d' = d
    · rw [hd, Function.update_self] at hr
      obtain ⟨⟩ := hr
      exact hd ▸ Or.inl List.mem_cons_self
    · rw [Function.update_of_ne hd] at hr
      exact hanswer.results d' r' hr
  | takeResult d =>
    obtain ⟨r, _, hr, rfl⟩ := takeResult_eq_some hs
    have htaken : Owned { s with results := Function.update s.results d none } := by
      refine ⟨?_, h.moving, h.writing, h.finished⟩
      intro d' r' hr'
      replace hr' : Function.update s.results d none d' = some r' := hr'
      by_cases hd : d' = d
      · rw [hd, Function.update_self] at hr'
        cases hr'
      · rw [Function.update_of_ne hd] at hr'
        exact h.results d' r' hr'
    exact htaken.settle (h.results d r hr)
  | timeout d =>
    obtain ⟨_, rfl⟩ := timeout_eq_some hs
    exact h.settle (Or.inr rfl)
  | move =>
    obtain ⟨d, r, hmoving, rfl⟩ := move_eq_some hs
    refine ⟨h.results, nofun, ?_, h.finished⟩
    rintro d' r' ⟨⟩
    exact h.moving d r hmoving
  | write written =>
    obtain ⟨d, r, o, hwriting, rfl, rfl⟩ := write_eq_some hs
    refine ⟨h.results, nofun, nofun, ?_⟩
    intro o ho
    rcases List.mem_cons.mp ho with rfl | hold
    · exact h.writing d r hwriting
    · exact h.finished o hold
  | purge dir id =>
    obtain rfl := purge_eq_some hs
    exact ⟨h.results, h.moving, h.writing, h.finished⟩

theorem Stage.Allows.dir_eq {dir' : Dir} {doc doc' : Option Entries} (h : st.Allows iso dir doc)
    (h' : st.Allows iso dir' doc') : dir = dir' := by
  cases st with
  | absent => exact h.elim
  | pending | taken | dispatched | executing | answered | moved => exact Eq.trans h h'.symm
  | finished => exact h.1.trans h'.1.symm

theorem Inv.correct (h : Inv iso s) (hown : Owned s) : Correct iso s := by
  obtain ⟨stage, hall⟩ := h.stages
  constructor
  · intro id dir dir' hdir hdir'
    obtain ⟨f, hf⟩ := Option.ne_none_iff_exists'.mp hdir
    obtain ⟨f', hf'⟩ := Option.ne_none_iff_exists'.mp hdir'
    exact ((hall id).files dir f hf).dir_eq ((hall id).files dir' f' hf')
  · exact h.running
  · intro o ho dir f _ hf
    have hid := hall o.dispatch.id
    have hallows := hid.files dir f hf
    rw [(hid.finished o rfl).mp ho] at hallows
    exact hallows
  · intro o ho
    have hid := hall o.dispatch.id
    exact hid.recorded o ((hid.finished o rfl).mp ho)
  · exact hown.finished

/-- **The queue keeps its commands apart and their outcomes**, whenever the watcher
dies and comes back, and however long the commands take, as long as its stale scan
moves back no file whose command the slash handler still has. -/
theorem correct_of_patient (h : Reaches (step iso retentionDays) Patient start s) :
    Correct iso s :=
  (h.invariant inv_start fun _ _ _ hinv hpatient hs => hinv.step hpatient hs).correct
    (h.invariant owned_start fun _ _ _ hown _ hs => hown.step hs)

/-- A command whose watcher dies before the cast, which the next one moves back and
dispatches. -/
theorem correct_requeued : ∃ s,
    Reaches (step (fun _ => "2026-01-01T00:00:00Z") 14) Patient start s ∧
    s.finished.map (fun o => o.dispatch.id) = ["01"] ∧
    Correct (fun _ => "2026-01-01T00:00:00Z") s := by
  have hrun : ((exec (step (fun _ => "2026-01-01T00:00:00Z") 14) Patient start
      [.submit "01" (some []), .boot, .listOrphans, .next, .startProcessing, .kill, .tick 700,
       .boot, .sweep, .listOrphans, .next, .startProcessing, .dispatch, .accept none,
       .complete ⟨0, "01"⟩ (.ok []), .takeResult ⟨0, "01"⟩, .move, .write true]).map fun s =>
        s.finished.map fun o => o.dispatch.id) = some ["01"] := by decide +kernel
  obtain ⟨s, hs, hfinished⟩ := Option.map_eq_some_iff.mp hrun
  have hreach := Reaches.of_exec hs
  exact ⟨s, hreach, hfinished, correct_of_patient hreach⟩

/-- **A command that the stale scan moves back runs twice**: its file was submitted
eleven minutes ago, so that it is stale the moment its task begins. -/
theorem not_correct_stale : ¬ ∀ iso retentionDays s,
    Reaches (step iso retentionDays) anyStep start s → Correct iso s := by
  intro h
  have hrun : ((exec (step (fun _ => "2026-01-01T00:00:00Z") 14) anyStep start
      [.submit "01" (some []), .tick 700, .boot, .listOrphans, .next, .startProcessing, .dispatch,
       .accept none, .kill, .boot, .sweep, .listOrphans, .next, .startProcessing, .dispatch,
       .accept none]).map fun s => s.running.map Dispatch.id) = some ["01", "01"] := by
    decide +kernel
  obtain ⟨s, hs, hrunning⟩ := Option.map_eq_some_iff.mp hrun
  have hnodup := (h _ _ s (Reaches.of_exec hs)).oneRun
  rw [hrunning] at hnodup
  revert hnodup
  decide

end AdminQueue
end Esr
