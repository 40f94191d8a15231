import Esr.Ets
import Esr.Runs

/-! # One worker per key

`Esr.WorkerSupervisor` starts the Python workers of adapters and handlers as children
of a `DynamicSupervisor` of its own and remembers the pid of each under its key.  The
children have no name and are `:transient`: the supervisor starts one that crashed
again, under a new pid that only the supervisor knows.  The monitor of the old pid, the
restart and the next call come in any order, and all of them are steps here.

`Correct` is what the idempotency of `ensure_adapter/4` and `ensure_handler/3` promises,
with what `terminate_adapter/2` answers.  It holds in every run in which no call for a
key meets a worker the map does not know (`Careful`).
-/
namespace Esr
namespace WorkerSupervisor

abbrev Pid := Nat

inductive Kind where
  | adapter
  | handler
deriving DecidableEq

/-- `{:adapter | :handler, name, id}`. -/
structure Key where
  kind : Kind
  name : String
  id : String
deriving DecidableEq

/-- What a child is started with. -/
inductive Args where
  | adapter (adapter instanceId url configJson : String)
  | handler (module workerId url : String)
deriving DecidableEq

/-- The key under which a child is tracked. -/
def Args.key : Args → Key
  | .adapter name id _ _ => ⟨.adapter, name, id⟩
  | .handler module id _ => ⟨.handler, module, id⟩

/-- Why a worker ended, as far as `:transient` asks. -/
inductive ExitReason where
  | normal
  | crash
deriving DecidableEq

/-- A child: running, ended with its exit not yet taken by the supervisor, or waiting for
another try at its restart. -/
inductive Status where
  | running
  | exited (reason : ExitReason)
  | restarting
deriving DecidableEq

/-- A child, and which supervisor has it. -/
structure Child where
  args : Args
  sup : Nat
  status : Status
deriving DecidableEq

inductive Answer where
  | ok
  | alreadyRunning
  | notFound
  | error (reason : String)
deriving DecidableEq

inductive CallKind where
  | ensure
  | terminate
deriving DecidableEq

/-- A call that was answered, with the live workers of its key while it was handled and
after it. -/
structure Reply where
  call : CallKind
  key : Key
  answer : Answer
  before : List Pid
  after : List Pid
deriving DecidableEq

/-- Where the server stands: waiting, between `Process.alive?/1` and `start_child/2` with
the live workers it left behind, or crashed. -/
inductive Phase where
  | idle
  | spawning (args : Args) (seen : List Pid)
  | down
deriving DecidableEq

/-- The server, the supervisors with the times of their restarts, and the children.
`sup` is the supervisor of the server; `watched` are the monitors that have not fired. -/
structure Node where
  workers : Ets Key Pid
  sup : Nat
  watched : List Pid
  phase : Phase
  sups : Ets Nat (List Nat)
  children : Ets Pid Child
  nextPid : Pid
  nextSup : Nat
  replies : List Reply

/-- After the first `init/1`. -/
def start : Node := ⟨.empty, 0, [], .idle, Ets.empty.insert 0 [], .empty, 0, 1, []⟩

/-- A config as the callers give it. -/
inductive Config (M : Type) where
  | text (json : String)
  | map (config : M)

variable {M : Type}

/-- `normalise_config/1`; `encode` is `Jason.encode!/1`, with `none` where it raises. -/
def normaliseConfig (encode : M → Option String) : Config M → Option String
  | .text json => some json
  | .map config => encode config

def maxRestarts : Nat := 3

def maxSeconds : Nat := 60

/-- `DynamicSupervisor.add_restart/3`. -/
def addRestart (restarts : List Nat) (now : Nat) : List Nat :=
  (now :: restarts).filter fun before => now ≤ before + maxSeconds

namespace Node

/-- `Process.alive?/1` of a worker. -/
def isAlive (n : Node) (p : Pid) : Bool :=
  match n.children.lookup p with
  | some c => c.status = .running
  | none => false

/-- The live workers of a key. -/
def live (n : Node) (k : Key) : List Pid :=
  (n.children.tab2list.filter fun r => r.2.args.key = k ∧ r.2.status = .running).map Prod.fst

/-- The server crashes: its map goes, its monitors with it, and the caller gets no
answer. -/
def crash (n : Node) : Node := { n with workers := .empty, watched := [], phase := .down }

def reply (n : Node) (call : CallKind) (k : Key) (answer : Answer) (before : List Pid) : Node :=
  { n with phase := .idle, replies := n.replies ++ [⟨call, k, answer, before, n.live k⟩] }

/-- `spawn_or_already/3`, up to the call of the supervisor. -/
def spawnOrAlready (n : Node) (args : Args) : Node :=
  match n.workers.lookup args.key with
  | some pid =>
      if n.isAlive pid then n.reply .ensure args.key .alreadyRunning (n.live args.key)
      else { n with phase := .spawning args (n.live args.key) }
  | none => { n with phase := .spawning args (n.live args.key) }

/-- `DynamicSupervisor.start_child/2`, when the child's `init/1` succeeds. -/
def startChild (n : Node) (args : Args) (sup : Nat) : Node :=
  { n with children := n.children.insert n.nextPid ⟨args, sup, .running⟩, nextPid := n.nextPid + 1 }

/-- `Process.monitor(pid)` and `Map.put(state.workers, key, pid)`. -/
def track (n : Node) (k : Key) (p : Pid) : Node :=
  { n with workers := n.workers.insert k p, watched := p :: n.watched }

/-- `Map.delete(state.workers, key)`. -/
def forget (n : Node) (k : Key) : Node := { n with workers := n.workers.delete k }

/-- `spawn_and_track/3`.  A child without a name is never `:already_started`; a
supervisor that is gone takes the server with it. -/
def spawnAndTrack (n : Node) (args : Args) (seen : List Pid) (result : Except String Unit) : Node :=
  match n.sups.lookup n.sup, result with
  | none, _ => n.crash
  | some _, .ok () =>
      ((n.startChild args n.sup).track args.key n.nextPid).reply .ensure args.key .ok
        (seen ++ n.live args.key)
  | some _, .error reason => n.reply .ensure args.key (.error reason) (seen ++ n.live args.key)

/-- `DynamicSupervisor.terminate_child/2`. -/
def terminateChild (n : Node) (p : Pid) : Node := { n with children := n.children.delete p }

/-- `handle_call({:terminate, key}, ...)`. -/
def handleTerminate (n : Node) (k : Key) : Node :=
  match n.workers.lookup k with
  | some pid =>
      match n.sups.lookup n.sup with
      | some _ =>
          ((n.terminateChild pid).forget k).reply .terminate k .ok (n.live k)
      | none => n.crash
  | none => n.reply .terminate k .notFound (n.live k)

/-- `handle_info({:DOWN, ...})`. -/
def handleDown (n : Node) (p : Pid) : Node :=
  { n with workers := n.workers.deleteWhere fun _ pid => pid = p, watched := n.watched.erase p }

/-- The worker ends. -/
def exit (n : Node) (p : Pid) (c : Child) (reason : ExitReason) : Node :=
  { n with children := n.children.insert p { c with status := .exited reason } }

/-- `DynamicSupervisor.restart_child/3`: within the budget the child is started again, or
tried again later; beyond it the supervisor ends its children and itself. -/
def restartChild (n : Node) (p : Pid) (c : Child) (restarts : List Nat) (now : Nat)
    (started : Bool) : Node :=
  if (addRestart restarts now).length ≤ maxRestarts then
    let n := { n with sups := n.sups.insert c.sup (addRestart restarts now) }
    if started then (n.terminateChild p).startChild c.args c.sup
    else { n with children := n.children.insert p { c with status := .restarting } }
  else
    { n with
      sups := n.sups.delete c.sup
      children := n.children.deleteWhere fun _ c' => c'.sup = c.sup }

/-- The supervisor takes the exit of a child, or its own `$gen_restart`. -/
def supervise (n : Node) (p : Pid) (c : Child) (restarts : List Nat) (now : Nat)
    (started : Bool) : Node :=
  match c.status with
  | .running => n
  | .exited .normal => n.terminateChild p
  | .exited .crash => n.restartChild p c restarts now started
  | .restarting => n.restartChild p c restarts now started

/-- A new server, with a supervisor of its own. -/
def reboot (n : Node) : Node :=
  { n with
    sup := n.nextSup
    phase := .idle
    sups := n.sups.insert n.nextSup []
    nextSup := n.nextSup + 1 }

end Node

/-- What can happen next.  `started` and `result` are how the `init/1` of a child went;
`shutdown` is the supervisor of a crashed server taking the exit of its owner: it
restarts no one any more, and its children end one after the other. -/
inductive Act (M : Type) where
  | ensureAdapter (adapterName instanceId : String) (config : Config M) (url : String)
  | ensureHandler (handlerModule workerId url : String)
  | start (result : Except String Unit)
  | terminateAdapter (adapterName instanceId : String)
  | down (p : Pid)
  | exit (p : Pid) (reason : ExitReason)
  | supervise (p : Pid) (now : Nat) (started : Bool)
  | shutdown (sup : Nat)
  | reboot

variable (encode : M → Option String)

/-- One step. -/
def step (n : Node) : Act M → Option Node
  | .ensureAdapter adapterName instanceId config url =>
      if n.phase = .idle then
        match normaliseConfig encode config with
        | some configJson => some (n.spawnOrAlready (.adapter adapterName instanceId url configJson))
        | none => some n.crash
      else none
  | .ensureHandler handlerModule workerId url =>
      if n.phase = .idle then some (n.spawnOrAlready (.handler handlerModule workerId url))
      else none
  | .start result =>
      match n.phase with
      | .spawning args seen => some (n.spawnAndTrack args seen result)
      | _ => none
  | .terminateAdapter adapterName instanceId =>
      if n.phase = .idle then some (n.handleTerminate ⟨.adapter, adapterName, instanceId⟩)
      else none
  | .down p =>
      if n.phase = .idle ∧ p ∈ n.watched ∧ n.isAlive p = false then some (n.handleDown p) else none
  | .exit p reason =>
      match n.children.lookup p with
      | some c => if c.status = .running then some (n.exit p c reason) else none
      | none => none
  | .supervise p now started =>
      match n.children.lookup p with
      | some c =>
          match n.sups.lookup c.sup with
          | some restarts =>
              if c.status ≠ .running then some (n.supervise p c restarts now started) else none
          | none => none
      | none => none
  | .shutdown sup =>
      if n.phase = .down ∨ sup ≠ n.sup then some { n with sups := n.sups.delete sup } else none
  | .reboot => if n.phase = .down then some n.reboot else none

/-! ## The property -/

/-- A live worker of a key. -/
def Live (n : Node) (p : Pid) (k : Key) : Prop :=
  ∃ c, n.children.lookup p = some c ∧ c.args.key = k ∧ c.status = .running

/-- What the answer to a call says of the workers of its key. -/
def Honest (r : Reply) : Prop :=
  match r.call with
  | .ensure => r.before ≠ [] ↔ r.answer = .alreadyRunning
  | .terminate => if r.answer = .notFound then r.before = [] else r.after = []

/-- One worker per key. -/
structure Correct (n : Node) : Prop where
  single : ∀ k p q, Live n p k → Live n q k → p = q
  honest : ∀ r ∈ n.replies, Honest r

/-- The child runs, or its supervisor will start it again. -/
def Node.lasts (n : Node) (c : Child) : Bool :=
  match c.status with
  | .running => true
  | .exited .normal => false
  | .exited .crash => (n.sups.lookup c.sup).isSome
  | .restarting => (n.sups.lookup c.sup).isSome

/-- The map knows every live worker of the key. -/
def Known (n : Node) (k : Key) : Prop := ∀ p ∈ n.live k, n.workers.lookup k = some p

/-- No call for a key is taken while a worker of the key is live that the map does not
know, and none is started while one of the key is to be restarted. -/
def Careful (n : Node) : Act M → Prop
  | .ensureAdapter adapterName instanceId _ _ => Known n ⟨.adapter, adapterName, instanceId⟩
  | .ensureHandler handlerModule workerId _ => Known n ⟨.handler, handlerModule, workerId⟩
  | .terminateAdapter adapterName instanceId => Known n ⟨.adapter, adapterName, instanceId⟩
  | .start _ =>
      match n.phase with
      | .spawning args _ =>
          ∀ r ∈ n.children.tab2list, r.2.args.key = args.key → n.lasts r.2 = false
      | _ => True
  | _ => True

/-! ## The invariant -/

/-- A key has one worker that lasts, the map and the counters know no other, and a call
that is under way has left no live worker behind. -/
structure Inv (n : Node) : Prop where
  single : ∀ p q c c', n.children.lookup p = some c → n.children.lookup q = some c' →
    c.args.key = c'.args.key → n.lasts c = true → n.lasts c' = true → p = q
  tracked : ∀ k p, n.workers.lookup k = some p →
    p < n.nextPid ∧ ∀ c, n.children.lookup p = some c → c.args.key = k
  bounded : ∀ p c, n.children.lookup p = some c → p < n.nextPid ∧ c.sup < n.nextSup
  own : n.sup < n.nextSup
  seen : ∀ args seen, n.phase = .spawning args seen → seen = []
  honest : ∀ r ∈ n.replies, Honest r

section
variable {n : Node} {p : Pid} {k : Key}

theorem mem_live : p ∈ n.live k ↔ Live n p k := by
  unfold Node.live Live
  rw [List.mem_map]
  constructor
  · rintro ⟨⟨q, c⟩, hmem, rfl⟩
    obtain ⟨hrow, hc⟩ := List.mem_filter.mp hmem
    obtain ⟨hk, hrun⟩ := of_decide_eq_true hc
    exact ⟨c, Ets.mem_tab2list.mp hrow, hk, hrun⟩
  · rintro ⟨c, hrow, hk, hrun⟩
    exact ⟨(p, c), List.mem_filter.mpr ⟨Ets.mem_tab2list.mpr hrow, decide_eq_true ⟨hk, hrun⟩⟩, rfl⟩

theorem isAlive_iff : n.isAlive p = true ↔ ∃ c, n.children.lookup p = some c ∧ c.status = .running := by
  unfold Node.isAlive
  cases n.children.lookup p with
  | none => simp
  | some c => simp

theorem live_eq_nil (h : ∀ p, ¬Live n p k) : n.live k = [] :=
  List.eq_nil_iff_forall_not_mem.mpr fun p hp => h p (mem_live.mp hp)

theorem Live.isAlive (h : Live n p k) : n.isAlive p = true := by
  obtain ⟨c, hc, -, hrun⟩ := h
  exact isAlive_iff.mpr ⟨c, hc, hrun⟩

theorem lasts_of_running {c : Child} (h : c.status = .running) : n.lasts c = true := by
  unfold Node.lasts
  rw [h]

theorem live_eq_nil_of_known (hknown : Known n k)
    (hdead : ∀ p, n.workers.lookup k = some p → n.isAlive p = false) : n.live k = [] := by
  refine live_eq_nil fun p hp => ?_
  have hno := hdead p (hknown p (mem_live.mpr hp))
  rw [hp.isAlive] at hno
  cases hno

end

theorem lasts_mono {n n' : Node} {c : Child}
    (hsup : (n.sups.lookup c.sup).isSome = true → (n'.sups.lookup c.sup).isSome = true)
    (h : n.lasts c = true) : n'.lasts c = true := by
  obtain ⟨args, sup, status⟩ := c
  cases status with
  | running => rfl
  | exited reason =>
    cases reason with
    | normal => cases h
    | crash => exact hsup h
  | restarting => exact hsup h

/-- Every child of `n'` is one of `n`, and lasts there if it lasts here. -/
structure Shrinks (n n' : Node) : Prop where
  child : ∀ p c', n'.children.lookup p = some c' → ∃ c, n.children.lookup p = some c ∧
    c.args = c'.args ∧ c.sup = c'.sup ∧ (n'.lasts c' = true → n.lasts c = true)
  nextPid : n'.nextPid = n.nextPid
  nextSup : n'.nextSup = n.nextSup

namespace Inv
variable {n n' : Node}

theorem start : Inv start := by
  have hno : ∀ p c, WorkerSupervisor.start.children.lookup p ≠ some c := by
    intro p c h
    rw [show WorkerSupervisor.start.children = .empty from rfl, Ets.lookup_empty] at h
    cases h
  refine ⟨fun p _ c _ h => absurd h (hno p c), ?_, fun p c h => absurd h (hno p c), Nat.one_pos, ?_, ?_⟩
  · intro k p h
    rw [show WorkerSupervisor.start.workers = .empty from rfl, Ets.lookup_empty] at h
    cases h
  · rintro args seen ⟨⟩
  · rintro r ⟨⟩

theorem correct (h : Inv n) : Correct n := by
  refine ⟨?_, h.honest⟩
  rintro k p q ⟨c, hc, rfl, hrun⟩ ⟨c', hc', hk, hrun'⟩
  exact h.single p q c c' hc hc' hk.symm (lasts_of_running hrun) (lasts_of_running hrun')

theorem shrink (h : Inv n) (hs : Shrinks n n')
    (hworkers : ∀ k p, n'.workers.lookup k = some p → n.workers.lookup k = some p)
    (hsup : n'.sup = n.sup)
    (hseen : ∀ args seen, n'.phase = .spawning args seen → seen = [])
    (hhonest : ∀ r ∈ n'.replies, Honest r) : Inv n' := by
  refine ⟨?_, ?_, ?_, ?_, hseen, hhonest⟩
  · intro p q c c' hc hc' hk hl hl'
    obtain ⟨d, hd, hargs, -, hlasts⟩ := hs.child p c hc
    obtain ⟨d', hd', hargs', -, hlasts'⟩ := hs.child q c' hc'
    exact h.single p q d d' hd hd' (by rw [hargs, hargs', hk]) (hlasts hl) (hlasts' hl')
  · intro k p hp
    obtain ⟨hlt, hkey⟩ := h.tracked k p (hworkers k p hp)
    refine ⟨by rw [hs.nextPid]; exact hlt, fun c hc => ?_⟩
    obtain ⟨d, hd, hargs, -⟩ := hs.child p c hc
    rw [← hargs]
    exact hkey d hd
  · intro p c hc
    obtain ⟨d, hd, -, hsup', -⟩ := hs.child p c hc
    rw [hs.nextPid, hs.nextSup, ← hsup']
    exact h.bounded p d hd
  · rw [hsup, hs.nextSup]
    exact h.own

theorem startChild (h : Inv n) {args : Args} {sup : Nat} (hsup : sup < n.nextSup)
    (hfree : ∀ p c, n.children.lookup p = some c → c.args.key = args.key → n.lasts c = false) :
    Inv (n.startChild args sup) := by
  have hcases : ∀ {p c}, (n.startChild args sup).children.lookup p = some c →
      (p = n.nextPid ∧ c = ⟨args, sup, .running⟩) ∨ n.children.lookup p = some c := by
    intro p c hc
    rw [Node.startChild, Ets.lookup_insert] at hc
    split at hc
    · rename_i hp
      exact .inl ⟨hp, (Option.some.inj hc).symm⟩
    · exact .inr hc
  refine ⟨?_, ?_, ?_, h.own, h.seen, h.honest⟩
  · intro p q c c' hc hc' hk hl hl'
    rcases hcases hc with ⟨rfl, rfl⟩ | hold <;> rcases hcases hc' with ⟨rfl, rfl⟩ | hold'
    · rfl
    · have hno := hfree q c' hold' hk.symm
      rw [show n.lasts c' = true from hl'] at hno
      cases hno
    · have hno := hfree p c hold hk
      rw [show n.lasts c = true from hl] at hno
      cases hno
    · exact h.single p q c c' hold hold' hk hl hl'
  · intro k p hp
    obtain ⟨hlt, hkey⟩ := h.tracked k p hp
    refine ⟨Nat.lt_succ_of_lt hlt, fun c hc => ?_⟩
    rcases hcases hc with ⟨rfl, -⟩ | hold
    · exact absurd hlt (Nat.lt_irrefl _)
    · exact hkey c hold
  · intro p c hc
    rcases hcases hc with ⟨rfl, rfl⟩ | hold
    · exact ⟨Nat.lt_succ_self _, hsup⟩
    · obtain ⟨hp, hs⟩ := h.bounded p c hold
      exact ⟨Nat.lt_succ_of_lt hp, hs⟩

theorem reply (h : Inv n) {call : CallKind} {k : Key} {answer : Answer} {before : List Pid}
    (hr : Honest ⟨call, k, answer, before, n.live k⟩) : Inv (n.reply call k answer before) := by
  refine { h with seen := ?_, honest := fun r hmem => ?_ }
  · rintro args seen ⟨⟩
  · rcases List.mem_append.mp hmem with hold | hnew
    · exact h.honest r hold
    · rw [List.mem_singleton.mp hnew]
      exact hr

theorem track (h : Inv n) {k : Key} {p : Pid} {c : Child} (hc : n.children.lookup p = some c)
    (hk : c.args.key = k) : Inv (n.track k p) := by
  refine { h with tracked := fun k' q hq => ?_ }
  rw [Node.track, Ets.lookup_insert] at hq
  split at hq
  · rename_i hkey
    obtain rfl := Option.some.inj hq
    refine ⟨(h.bounded p c hc).1, fun c' hc' => ?_⟩
    obtain rfl := Option.some.inj (hc.symm.trans hc')
    exact hk.trans hkey.symm
  · exact h.tracked k' q hq

theorem forget (h : Inv n) (k : Key) : Inv (n.forget k) := by
  refine { h with tracked := fun k' q hq => ?_ }
  rw [Node.forget, Ets.lookup_delete] at hq
  split at hq
  · cases hq
  · exact h.tracked k' q hq

theorem crash (h : Inv n) : Inv n.crash := by
  refine { h with tracked := fun k p hp => ?_, seen := ?_ }
  · rw [show n.crash.workers = .empty from rfl, Ets.lookup_empty] at hp
    cases hp
  · rintro args seen ⟨⟩

theorem spawnOrAlready (h : Inv n) {args : Args} (hknown : Known n args.key) :
    Inv (n.spawnOrAlready args) := by
  have hspawn : (∀ p, n.workers.lookup args.key = some p → n.isAlive p = false) →
      Inv { n with phase := .spawning args (n.live args.key) } := by
    intro hdead
    refine { h with seen := ?_ }
    rintro args' seen ⟨⟩
    exact live_eq_nil_of_known hknown hdead
  unfold Node.spawnOrAlready
  split
  · rename_i pid hp
    split
    · rename_i halive
      refine h.reply ?_
      obtain ⟨c, hc, hrun⟩ := isAlive_iff.mp halive
      have hmem : pid ∈ n.live args.key := mem_live.mpr ⟨c, hc, (h.tracked _ _ hp).2 c hc, hrun⟩
      exact ⟨fun _ => rfl, fun _ => List.ne_nil_of_mem hmem⟩
    · rename_i hdead
      refine hspawn fun p hp' => ?_
      obtain rfl := Option.some.inj (hp.symm.trans hp')
      exact Bool.eq_false_iff.mpr hdead
  · rename_i hnone
    refine hspawn fun p hp => ?_
    rw [hnone] at hp
    cases hp

theorem spawnAndTrack (h : Inv n) {args : Args} {seen : List Pid} {result : Except String Unit}
    (hphase : n.phase = .spawning args seen)
    (hfree : ∀ p c, n.children.lookup p = some c → c.args.key = args.key → n.lasts c = false) :
    Inv (n.spawnAndTrack args seen result) := by
  have hnone : seen ++ n.live args.key = [] := by
    rw [h.seen args seen hphase, List.nil_append]
    refine live_eq_nil ?_
    rintro p ⟨c, hc, hk, hrun⟩
    have hno := hfree p c hc hk
    rw [lasts_of_running hrun] at hno
    cases hno
  unfold Node.spawnAndTrack
  rw [hnone]
  split
  · exact h.crash
  · refine ((h.startChild h.own hfree).track (Ets.lookup_insert_self _ _ _) rfl).reply ?_
    exact ⟨fun hne => absurd rfl hne, fun ha => by cases ha⟩
  · exact h.reply ⟨fun hne => absurd rfl hne, fun ha => by cases ha⟩

theorem shrinks_terminateChild (n : Node) (p : Pid) : Shrinks n (n.terminateChild p) := by
  refine ⟨fun q c hc => ?_, rfl, rfl⟩
  rw [Node.terminateChild, Ets.lookup_delete] at hc
  split at hc
  · cases hc
  · exact ⟨c, hc, rfl, rfl, fun hl => hl⟩

theorem terminateChild (h : Inv n) (p : Pid) : Inv (n.terminateChild p) :=
  h.shrink (shrinks_terminateChild n p) (fun _ _ hp => hp) rfl h.seen h.honest

theorem handleTerminate (h : Inv n) {k : Key} (hknown : Known n k) : Inv (n.handleTerminate k) := by
  unfold Node.handleTerminate
  split
  · rename_i pid hp
    split
    · refine ((h.terminateChild pid).forget k).reply (live_eq_nil ?_)
      rintro q ⟨c, hc, hk, hrun⟩
      rw [show ((n.terminateChild pid).forget k).children = n.children.delete pid from rfl,
        Ets.lookup_delete] at hc
      split at hc
      · cases hc
      · rename_i hne
        have hq := hknown q (mem_live.mpr ⟨c, hc, hk, hrun⟩)
        exact hne (Option.some.inj (hq.symm.trans hp))
    · exact h.crash
  · rename_i hnone
    refine h.reply (live_eq_nil_of_known hknown fun p hp => ?_)
    rw [hnone] at hp
    cases hp

theorem handleDown (h : Inv n) (p : Pid) : Inv (n.handleDown p) := by
  refine { h with tracked := fun k q hq => ?_ }
  rw [Node.handleDown, Ets.lookup_deleteWhere] at hq
  exact h.tracked k q (Option.filter_eq_some_iff.mp hq).1

theorem exit (h : Inv n) {p : Pid} {c : Child} (hc : n.children.lookup p = some c)
    (hrun : c.status = .running) (reason : ExitReason) : Inv (n.exit p c reason) := by
  refine h.shrink ⟨fun q c' hc' => ?_, rfl, rfl⟩ (fun _ _ hp => hp) rfl h.seen h.honest
  rw [Node.exit, Ets.lookup_insert] at hc'
  split at hc'
  · rename_i hq
    obtain rfl := Option.some.inj hc'
    exact ⟨c, hq ▸ hc, rfl, rfl, fun _ => lasts_of_running hrun⟩
  · exact ⟨c', hc', rfl, rfl, fun hl => hl⟩

theorem replace (h : Inv n) {p : Pid} {c : Child} (hc : n.children.lookup p = some c)
    (hlasts : n.lasts c = true) : Inv ((n.terminateChild p).startChild c.args c.sup) := by
  refine (h.terminateChild p).startChild (h.bounded p c hc).2 fun q c' hc' hk => ?_
  rw [Node.terminateChild, Ets.lookup_delete] at hc'
  split at hc'
  · cases hc'
  · rename_i hne
    rw [Bool.eq_false_iff]
    exact fun hl => hne (h.single q p c' c hc' hc hk hl hlasts)

theorem resup (h : Inv n) {sups : Ets Nat (List Nat)}
    (hsups : ∀ sup, sup < n.nextSup → (sups.lookup sup).isSome = true →
      (n.sups.lookup sup).isSome = true) : Inv { n with sups := sups } := by
  refine h.shrink ⟨fun p c hc => ⟨c, hc, rfl, rfl, fun hl => ?_⟩, rfl, rfl⟩ (fun _ _ hp => hp) rfl
    h.seen h.honest
  exact lasts_mono (hsups c.sup (h.bounded p c hc).2) hl

theorem restartChild (h : Inv n) {p : Pid} {c : Child} {times : List Nat} {now : Nat}
    {started : Bool} (hc : n.children.lookup p = some c) (hsup : n.sups.lookup c.sup = some times)
    (hlasts : n.lasts c = true) : Inv (n.restartChild p c times now started) := by
  have hinsert : ∀ sup, ((n.sups.insert c.sup (addRestart times now)).lookup sup).isSome = true →
      (n.sups.lookup sup).isSome = true := by
    intro sup hs
    rw [Ets.lookup_insert] at hs
    split at hs
    · rename_i he
      rw [he, hsup]
      rfl
    · exact hs
  have hself : ((n.sups.insert c.sup (addRestart times now)).lookup c.sup).isSome = true := by
    rw [Ets.lookup_insert_self]
    rfl
  have hcounted : Inv { n with sups := n.sups.insert c.sup (addRestart times now) } :=
    h.resup fun sup _ => hinsert sup
  unfold Node.restartChild
  split
  · dsimp only
    split
    · exact hcounted.replace hc (lasts_mono (fun _ => hself) hlasts)
    · refine hcounted.shrink ⟨fun q c' hc' => ?_, rfl, rfl⟩ (fun _ _ hp => hp) rfl h.seen h.honest
      rw [Ets.lookup_insert] at hc'
      split at hc'
      · rename_i hq
        obtain rfl := Option.some.inj hc'
        exact ⟨c, hq ▸ hc, rfl, rfl, fun _ => lasts_mono (fun _ => hself) hlasts⟩
      · exact ⟨c', hc', rfl, rfl, fun hl => hl⟩
  · refine h.shrink ⟨fun q c' hc' => ?_, rfl, rfl⟩ (fun _ _ hp => hp) rfl h.seen h.honest
    rw [Ets.lookup_deleteWhere] at hc'
    refine ⟨c', (Option.filter_eq_some_iff.mp hc').1, rfl, rfl, lasts_mono fun hs => ?_⟩
    rw [Ets.lookup_delete] at hs
    split at hs
    · cases hs
    · exact hs

theorem supervise (h : Inv n) {p : Pid} {c : Child} {times : List Nat} {now : Nat} {started : Bool}
    (hc : n.children.lookup p = some c) (hsup : n.sups.lookup c.sup = some times) :
    Inv (n.supervise p c times now started) := by
  have hopen : (n.sups.lookup c.sup).isSome = true := by
    rw [hsup]
    rfl
  unfold Node.supervise
  split
  · exact h
  · exact h.terminateChild p
  · rename_i hstatus
    refine h.restartChild hc hsup ?_
    unfold Node.lasts
    rw [hstatus]
    exact hopen
  · rename_i hstatus
    refine h.restartChild hc hsup ?_
    unfold Node.lasts
    rw [hstatus]
    exact hopen

theorem reboot (h : Inv n) : Inv n.reboot := by
  have hnew : Inv { n with sups := n.sups.insert n.nextSup [] } := by
    refine h.resup fun sup hlt hs => ?_
    rw [Ets.lookup_insert_of_ne _ _ (Nat.ne_of_lt hlt)] at hs
    exact hs
  refine { hnew with bounded := fun p c hc => ?_, own := Nat.lt_succ_self _, seen := ?_ }
  · obtain ⟨hp, hs⟩ := h.bounded p c hc
    exact ⟨hp, Nat.lt_succ_of_lt hs⟩
  · rintro args seen ⟨⟩

/-- **One step.** -/
theorem step {encode : M → Option String} {a : Act M} (h : Inv n) (hok : Careful n a)
    (hs : step encode n a = some n') : Inv n' := by
  unfold WorkerSupervisor.step at hs
  cases a with
  | ensureAdapter adapterName instanceId config url =>
    dsimp only at hs
    split at hs
    · split at hs
      · obtain rfl := Option.some.inj hs
        exact h.spawnOrAlready hok
      · obtain rfl := Option.some.inj hs
        exact h.crash
    · cases hs
  | ensureHandler handlerModule workerId url =>
    dsimp only at hs
    split at hs
    · obtain rfl := Option.some.inj hs
      exact h.spawnOrAlready hok
    · cases hs
  | start result =>
    dsimp only at hs
    split at hs
    · rename_i args seen hphase
      obtain rfl := Option.some.inj hs
      refine h.spawnAndTrack hphase fun p c hc hk => ?_
      unfold Careful at hok
      rw [hphase] at hok
      exact hok (p, c) (Ets.mem_tab2list.mpr hc) hk
    · cases hs
  | terminateAdapter adapterName instanceId =>
    dsimp only at hs
    split at hs
    · obtain rfl := Option.some.inj hs
      exact h.handleTerminate hok
    · cases hs
  | down p =>
    dsimp only at hs
    split at hs
    · obtain rfl := Option.some.inj hs
      exact h.handleDown p
    · cases hs
  | exit p reason =>
    dsimp only at hs
    split at hs
    · rename_i c hc
      split at hs
      · rename_i hrun
        obtain rfl := Option.some.inj hs
        exact h.exit hc hrun reason
      · cases hs
    · cases hs
  | supervise p now started =>
    dsimp only at hs
    split at hs
    · rename_i c hc
      split at hs
      · rename_i times hsup
        split at hs
        · obtain rfl := Option.some.inj hs
          exact h.supervise hc hsup
        · cases hs
      · cases hs
    · cases hs
  | shutdown sup =>
    dsimp only at hs
    split at hs
    · obtain rfl := Option.some.inj hs
      refine h.resup fun sup' _ hs' => ?_
      rw [Ets.lookup_delete] at hs'
      split at hs'
      · cases hs'
      · exact hs'
    · cases hs
  | reboot =>
    dsimp only at hs
    split at hs
    · obtain rfl := Option.some.inj hs
      exact h.reboot
    · cases hs

end Inv

/-! ## Runs -/

/-- **One worker per key**, in every run in which no call for a key meets a live worker
that the map does not know, or is answered with a new one while another is to be
restarted. -/
theorem oneWorker_of_careful {encode : M → Option String} {n : Node}
    (h : Reaches (step encode) Careful start n) : Correct n :=
  (h.invariant Inv.start fun _ _ _ (hinv : Inv _) hok hs => hinv.step hok hs).correct

instance (n : Node) (k : Key) : Decidable (Known n k) :=
  inferInstanceAs (Decidable (∀ p ∈ n.live k, n.workers.lookup k = some p))

instance (n : Node) (a : Act M) : Decidable (Careful n a) :=
  match a with
  | .ensureAdapter adapterName instanceId _ _ =>
      inferInstanceAs (Decidable (Known n ⟨.adapter, adapterName, instanceId⟩))
  | .ensureHandler handlerModule workerId _ =>
      inferInstanceAs (Decidable (Known n ⟨.handler, handlerModule, workerId⟩))
  | .terminateAdapter adapterName instanceId =>
      inferInstanceAs (Decidable (Known n ⟨.adapter, adapterName, instanceId⟩))
  | .start _ => by
      unfold Careful
      cases n.phase with
      | spawning args seen =>
        exact inferInstanceAs (Decidable (∀ r ∈ n.children.tab2list,
          r.2.args.key = args.key → n.lasts r.2 = false))
      | idle => exact isTrue trivial
      | down => exact isTrue trivial
  | .down _ | .exit _ _ | .supervise _ _ _ | .shutdown _ | .reboot => isTrue trivial

/-- `Jason.encode!(%{})`. -/
def encodeEmpty : Unit → Option String := fun _ => some "{}"

/-- `ensure_adapter("feishu", "main", %{}, url)`. -/
def ensureMain : Act Unit := .ensureAdapter "feishu" "main" (.map ()) "ws://127.0.0.1:4001/adapter_hub"

def mainKey : Key := ⟨.adapter, "feishu", "main"⟩

/-- The worker ends normally and is started again by the next call, then terminated. -/
def endedAndEnsured : List (Act Unit) :=
  [ensureMain, .start (.ok ()), ensureMain, .exit 0 .normal, .supervise 0 0 true, .down 0, ensureMain,
    .start (.ok ()), .terminateAdapter "feishu" "main", .down 1, .terminateAdapter "feishu" "main"]

/-- The worker crashes, is restarted, and the `DOWN` of its old pid arrives before the
next call. -/
def crashedAndEnsured : List (Act Unit) :=
  [ensureMain, .start (.ok ()), .exit 0 .crash, .supervise 0 0 true, .down 0, ensureMain,
    .start (.ok ())]

theorem oneWorker_endedAndEnsured :
    ∃ n : Node, n.replies.map Reply.answer = [.ok, .alreadyRunning, .ok, .ok, .notFound] ∧
      Correct n := by
  have hrun : (exec (step encodeEmpty) Careful start endedAndEnsured).map
      (fun n => n.replies.map Reply.answer) =
      some [.ok, .alreadyRunning, .ok, .ok, .notFound] := by decide +kernel
  obtain ⟨n, hn, hreplies⟩ := Option.map_eq_some_iff.mp hrun
  exact ⟨n, hreplies, oneWorker_of_careful (.of_exec hn)⟩

/-- **Two live workers of one key.** -/
theorem not_oneWorker_crashedAndEnsured :
    ¬∀ (M : Type) (encode : M → Option String) (n : Node),
      Reaches (step encode) anyStep start n → Correct n := by
  intro h
  have hrun : (exec (step encodeEmpty) anyStep start crashedAndEnsured).map
      (fun n => n.live mainKey) = some [2, 1] := by decide +kernel
  obtain ⟨n, hn, hlive⟩ := Option.map_eq_some_iff.mp hrun
  have hone : Live n 1 mainKey := mem_live.mp (by rw [hlive]; decide)
  have htwo : Live n 2 mainKey := mem_live.mp (by rw [hlive]; decide)
  have heq := (h Unit encodeEmpty n (.of_exec hn)).single mainKey 1 2 hone htwo
  cases heq

end WorkerSupervisor
end Esr
