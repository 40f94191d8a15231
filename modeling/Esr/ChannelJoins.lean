import Esr.Ets
import Esr.Runs

/-! # Who holds a session's socket

Each CC session has one channel process that may hold its row in
`Esr.Resource.AdapterSocket.Registry`.  `join/3` of `EsrWeb.ChannelChannel` reads the
row from the table, refuses if its holder is still alive, and otherwise calls the
registry, which writes the row; `session_register` and `terminate/2` call it too.  The
registry takes its calls one after the other, and any other process may take its steps
between those of a join.

`Correct` is what the check in `join/3` is for: one holder, whose row is online with
its pid until it leaves, and no one else marks it offline.  It holds in every run in
which no join reads the row while another join of the session is under way
(`Orderly`).
-/
namespace Esr
namespace ChannelJoins

/-- A process. -/
abbrev Pid := Nat

/-- The topic of a channel, less `cli:channel/`. -/
abbrev SessionId := String

inductive Status where
  | online
  | offline
deriving DecidableEq

/-- What a registration sets, besides the process. -/
structure Fields where
  chatIds : List (Option String)
  appIds : List (Option String)
  workspace : String
  principalId : Option String
  workspaceName : Option String
deriving DecidableEq

/-- A row of the registry. -/
structure Row where
  wsPid : Pid
  fields : Fields
  status : Status
  lastSeenMs : Nat
deriving DecidableEq

/-- A call of the registry. -/
inductive Request where
  | register (fields : Fields)
  | markOffline
deriving DecidableEq

/-- A call in the mailbox of the registry, with its caller. -/
structure Call where
  caller : Pid
  sessionId : SessionId
  request : Request
deriving DecidableEq

/-- Where a channel process stands. -/
inductive Phase where
  | connecting
  | looked (found : Option Row)
  | registering
  | registered
  | joined
  | updating
  | leaving
  | left
  | rejected
  | dead
deriving DecidableEq

structure Proc where
  sessionId : SessionId
  phase : Phase
deriving DecidableEq

/-- A row marked offline: by which process, and whose row it was. -/
structure Marked where
  caller : Pid
  sessionId : SessionId
  holder : Pid
deriving DecidableEq

/-- The registry and the channel processes. -/
structure Net where
  table : Ets SessionId Row
  mailbox : List Call
  procs : Ets Pid Proc
  marked : List Marked

/-- Before any process has connected. -/
def start : Net := ⟨.empty, [], .empty, []⟩

/-- The process has neither ended nor been refused. -/
def Phase.alive : Phase → Bool
  | .rejected | .dead => false
  | _ => true

/-- What `join/3` registers. -/
def joinFields : Fields := ⟨[], [], "", none, none⟩

/-- A chat in the payload of a `session_register`. -/
structure Chat where
  chatId : Option String
  appId : Option String
deriving DecidableEq

/-- The payload of a `session_register`. -/
structure Payload where
  chats : List Chat
  principalId : Option String
  workspaceName : Option String
  workspace : Option String
deriving DecidableEq

/-- What `session_register` registers; `bootstrap` is `ESR_BOOTSTRAP_PRINCIPAL_ID`. -/
def registerFields (bootstrap : Option String) (payload : Payload) : Fields :=
  { chatIds := payload.chats.map Chat.chatId
    appIds := (payload.chats.map Chat.appId).eraseDups
    workspace := payload.workspace.getD ""
    principalId := payload.principalId.or bootstrap
    workspaceName := payload.workspaceName }

namespace Net

/-- `Process.alive?/1`. -/
def isAlive (n : Net) (p : Pid) : Bool :=
  match n.procs.lookup p with
  | some proc => proc.phase.alive
  | none => false

/-- The process goes on. -/
def go (n : Net) (p : Pid) (sid : SessionId) (phase : Phase) : Net :=
  { n with procs := n.procs.insert p ⟨sid, phase⟩ }

/-- `GenServer.call/2`: the process waits for the registry. -/
def call (n : Net) (p : Pid) (sid : SessionId) (request : Request) (phase : Phase) : Net :=
  { n.go p sid phase with mailbox := n.mailbox ++ [⟨p, sid, request⟩] }

/-- The answer reaches the caller, if it still waits. -/
def answer (n : Net) (c : Call) : Net :=
  match n.procs.lookup c.caller with
  | some ⟨sid, .registering⟩ => n.go c.caller sid .registered
  | some ⟨sid, .updating⟩ => n.go c.caller sid .joined
  | some ⟨sid, .leaving⟩ => n.go c.caller sid .left
  | _ => n

/-- `handle_call({:register, ...})`. -/
def handleRegister (n : Net) (p : Pid) (sid : SessionId) (fields : Fields) (now : Nat) : Net :=
  { n with table := n.table.insert sid ⟨p, fields, .online, now⟩ }

/-- `handle_call({:mark_offline, ...})`. -/
def handleMarkOffline (n : Net) (p : Pid) (sid : SessionId) (now : Nat) : Net :=
  match n.table.lookup sid with
  | some row =>
      { n with table := n.table.insert sid { row with status := .offline, lastSeenMs := now }
               marked := n.marked ++ [⟨p, sid, row.wsPid⟩] }
  | none => n

/-- `handle_call/3` of the registry. -/
def handle (n : Net) (c : Call) (now : Nat) : Net :=
  match c.request with
  | .register fields => n.handleRegister c.caller c.sessionId fields now
  | .markOffline => n.handleMarkOffline c.caller c.sessionId now

/-- The check of `join/3`: the row found has a holder that is still there. -/
def heldByOther (n : Net) (p : Pid) (found : Option Row) : Bool :=
  match found with
  | some row => row.status = .online && row.wsPid ≠ p && n.isAlive row.wsPid
  | none => false

end Net

/-- What can happen next.  `leave` is whatever makes a joined process terminate; `kill`
ends a process where it stands. -/
inductive Act where
  | connect (p : Pid) (sid : SessionId)
  | lookup (p : Pid)
  | check (p : Pid)
  | handle (now : Nat)
  | joinReturns (p : Pid)
  | sessionRegister (p : Pid) (bootstrap : Option String) (payload : Payload)
  | leave (p : Pid)
  | exit (p : Pid)
  | kill (p : Pid)

/-- One step. -/
def step (n : Net) : Act → Option Net
  | .connect p sid =>
      match n.procs.lookup p with
      | none => some (n.go p sid .connecting)
      | some _ => none
  | .lookup p =>
      match n.procs.lookup p with
      | some ⟨sid, .connecting⟩ => some (n.go p sid (.looked (n.table.lookup sid)))
      | _ => none
  | .check p =>
      match n.procs.lookup p with
      | some ⟨sid, .looked found⟩ =>
          if n.heldByOther p found then some (n.go p sid .rejected)
          else some (n.call p sid (.register joinFields) .registering)
      | _ => none
  | .handle now =>
      match n.mailbox with
      | c :: rest => some (({ n with mailbox := rest }.handle c now).answer c)
      | [] => none
  | .joinReturns p =>
      match n.procs.lookup p with
      | some ⟨sid, .registered⟩ => some (n.go p sid .joined)
      | _ => none
  | .sessionRegister p bootstrap payload =>
      match n.procs.lookup p with
      | some ⟨sid, .joined⟩ =>
          some (n.call p sid (.register (registerFields bootstrap payload)) .updating)
      | _ => none
  | .leave p =>
      match n.procs.lookup p with
      | some ⟨sid, .joined⟩ => some (n.call p sid .markOffline .leaving)
      | _ => none
  | .exit p =>
      match n.procs.lookup p with
      | some ⟨sid, .left⟩ => some (n.go p sid .dead)
      | _ => none
  | .kill p =>
      match n.procs.lookup p with
      | some ⟨sid, phase⟩ => if phase.alive then some (n.go p sid .dead) else none
      | none => none

/-! ## The property -/

/-- Joined, and not leaving. -/
def Phase.holds : Phase → Bool
  | .joined | .updating => true
  | _ => false

/-- The process is joined to the session. -/
def Joined (n : Net) (p : Pid) (sid : SessionId) : Prop :=
  ∃ phase, n.procs.lookup p = some ⟨sid, phase⟩ ∧ phase.holds = true

/-- The row of the session is online with the process as its holder. -/
def Holds (n : Net) (sid : SessionId) (p : Pid) : Prop :=
  ∃ row, n.table.lookup sid = some row ∧ row.status = .online ∧ row.wsPid = p

/-- One holder for each session. -/
structure Correct (n : Net) : Prop where
  single : ∀ p q sid, Joined n p sid → Joined n q sid → p = q
  online : ∀ p sid, Joined n p sid → Holds n sid p
  marked : ∀ m ∈ n.marked, m.holder = m.caller

/-- Between reading the row and having registered. -/
def Phase.underWay : Phase → Bool
  | .looked _ | .registering => true
  | _ => false

/-- A join reads the row while no other join of its session is under way. -/
def Orderly (n : Net) : Act → Prop
  | .lookup p => ∀ proc, n.procs.lookup p = some proc →
      ∀ r ∈ n.procs.tab2list, r.2.sessionId = proc.sessionId → r.2.phase.underWay = false
  | _ => True

/-! ## The invariant -/

/-- The calls about a session that wait in the mailbox. -/
def Net.queued (n : Net) (sid : SessionId) : List Call := n.mailbox.filter fun c => c.sessionId = sid

/-- From the call of a join to that of `terminate/2`. -/
def Phase.active : Phase → Bool
  | .registering | .registered | .joined | .updating | .leaving => true
  | _ => false

/-- A process whose call may be in the mailbox. -/
def Phase.mayWait : Phase → Bool
  | .registering | .updating | .leaving | .dead => true
  | _ => false

/-- What holds of the row and the calls of a session while a process is in a phase. -/
def Standing (n : Net) (p : Pid) (sid : SessionId) : Phase → Prop
  | .registering => ∃ front fields, n.queued sid = front ++ [⟨p, sid, .register fields⟩] ∧
      ∀ c ∈ front, n.procs.lookup c.caller = some ⟨sid, .dead⟩
  | .registered | .joined => Holds n sid p ∧ n.queued sid = []
  | .updating => Holds n sid p ∧ ∃ fields, n.queued sid = [⟨p, sid, .register fields⟩]
  | .leaving => Holds n sid p ∧ n.queued sid = [⟨p, sid, .markOffline⟩]
  | _ => True

/-- A session has one active process, and a join that is under way has seen it. -/
structure Inv (n : Net) : Prop where
  callers : ∀ c ∈ n.mailbox, ∃ phase, n.procs.lookup c.caller = some ⟨c.sessionId, phase⟩ ∧
    phase.mayWait = true
  standing : ∀ p sid phase, n.procs.lookup p = some ⟨sid, phase⟩ → Standing n p sid phase
  alone : ∀ p q sid phase phase', n.procs.lookup p = some ⟨sid, phase⟩ → phase.active = true →
    n.procs.lookup q = some ⟨sid, phase'⟩ → phase'.active = true → p = q
  looked : ∀ p sid found, n.procs.lookup p = some ⟨sid, .looked found⟩ →
    ∀ q phase, n.procs.lookup q = some ⟨sid, phase⟩ → phase.active = true →
      ∃ row, found = some row ∧ row.status = .online ∧ row.wsPid = q
  inTurn : ∀ p q sid phase phase', n.procs.lookup p = some ⟨sid, phase⟩ →
    phase.underWay = true → n.procs.lookup q = some ⟨sid, phase'⟩ → phase'.underWay = true → p = q
  marks : ∀ sid c rest, n.queued sid = c :: rest →
    (∀ c' ∈ rest, c'.request ≠ .markOffline) ∧
      (c.request = .markOffline → ∃ row, n.table.lookup sid = some row ∧ row.wsPid = c.caller)
  marked : ∀ m ∈ n.marked, m.holder = m.caller

theorem standing_of_not_active {n : Net} {p : Pid} {sid : SessionId} {phase : Phase}
    (h : phase.active = false) : Standing n p sid phase := by
  cases phase <;> trivial

theorem Standing.keep {n n' : Net} {p : Pid} {sid : SessionId} {phase : Phase}
    (h : Standing n p sid phase) (hrow : n'.table.lookup sid = n.table.lookup sid)
    (hqueued : n'.queued sid = n.queued sid)
    (hdead : ∀ q, n.procs.lookup q = some ⟨sid, .dead⟩ → n'.procs.lookup q = some ⟨sid, .dead⟩) :
    Standing n' p sid phase := by
  have hholds : Holds n sid p → Holds n' sid p := by
    rintro ⟨row, hr, hrest⟩
    exact ⟨row, hrow.trans hr, hrest⟩
  cases phase with
  | registering =>
    obtain ⟨front, fields, hq, hfront⟩ := h
    exact ⟨front, fields, hqueued.trans hq, fun c hc => hdead _ (hfront c hc)⟩
  | registered => exact ⟨hholds h.1, hqueued.trans h.2⟩
  | joined => exact ⟨hholds h.1, hqueued.trans h.2⟩
  | updating =>
    obtain ⟨hrow', fields, hq⟩ := h
    exact ⟨hholds hrow', fields, hqueued.trans hq⟩
  | leaving => exact ⟨hholds h.1, hqueued.trans h.2⟩
  | _ => trivial

section
variable {n : Net} {p q : Pid} {sid sid' : SessionId} {phase phase' : Phase}

theorem lookup_go : (n.go p sid phase).procs.lookup q =
    if q = p then some ⟨sid, phase⟩ else n.procs.lookup q := Ets.lookup_insert _ _ _ _

theorem lookup_go_self : (n.go p sid phase).procs.lookup p = some ⟨sid, phase⟩ :=
  Ets.lookup_insert_self _ _ _

theorem lookup_go_cases (h : (n.go p sid phase).procs.lookup q = some ⟨sid', phase'⟩) :
    (q = p ∧ sid' = sid ∧ phase' = phase) ∨ (q ≠ p ∧ n.procs.lookup q = some ⟨sid', phase'⟩) := by
  rw [lookup_go] at h
  split at h
  · rename_i hq
    obtain ⟨rfl, rfl⟩ := Proc.mk.inj (Option.some.inj h)
    exact .inl ⟨hq, rfl, rfl⟩
  · rename_i hq
    exact .inr ⟨hq, h⟩

theorem queued_call {request : Request} : (n.call p sid request phase).queued sid' =
    n.queued sid' ++ if sid = sid' then [⟨p, sid, request⟩] else [] := by
  unfold Net.queued Net.call
  rw [List.filter_append]
  by_cases hs : sid = sid' <;> simp [hs]

theorem mem_queued {c : Call} : c ∈ n.queued sid ↔ c ∈ n.mailbox ∧ c.sessionId = sid := by
  unfold Net.queued
  rw [List.mem_filter, decide_eq_true_eq]

end

namespace Inv
variable {n : Net}

theorem start : Inv start := by
  have hno : ∀ p proc, ChannelJoins.start.procs.lookup p ≠ some proc := by
    intro p proc h
    rw [show ChannelJoins.start.procs = .empty from rfl, Ets.lookup_empty] at h
    cases h
  refine ⟨?_, fun p _ _ h => absurd h (hno p _), fun p _ _ _ _ h => absurd h (hno p _),
    fun p _ _ h => absurd h (hno p _), fun p _ _ _ _ h => absurd h (hno p _), ?_, ?_⟩
  · rintro c ⟨⟩
  · rintro sid c rest ⟨⟩
  · rintro m ⟨⟩

theorem correct (h : Inv n) : Correct n := by
  have hactive : ∀ phase : Phase, phase.holds = true → phase.active = true := by
    intro phase hp
    cases phase <;> first | rfl | cases hp
  refine ⟨?_, ?_, h.marked⟩
  · rintro p q sid ⟨phase, hp, hhold⟩ ⟨phase', hq, hhold'⟩
    exact h.alone p q sid phase phase' hp (hactive _ hhold) hq (hactive _ hhold')
  · rintro p sid ⟨phase, hp, hhold⟩
    have hstand := h.standing p sid phase hp
    cases phase with
    | joined => exact hstand.1
    | updating => exact hstand.1
    | _ => cases hhold

variable {p : Pid} {sid : SessionId} {phase : Phase}

theorem go (h : Inv n)
    (hwait : ∀ c ∈ n.mailbox, c.caller = p → c.sessionId = sid ∧ phase.mayWait = true)
    (hstand : Standing (n.go p sid phase) p sid phase)
    (hactive : phase.active = true → ∃ old, n.procs.lookup p = some ⟨sid, old⟩ ∧ old.active = true)
    (hway : phase.underWay = true → ∃ old, n.procs.lookup p = some ⟨sid, old⟩ ∧ old.underWay = true)
    (hlooked : ∀ found, phase ≠ .looked found)
    (hdead : ∀ sid', n.procs.lookup p ≠ some ⟨sid', .dead⟩) : Inv (n.go p sid phase) := by
  have hold : ∀ {q sid' phase'}, (n.go p sid phase).procs.lookup q = some ⟨sid', phase'⟩ →
      phase'.active = true → ∃ old, n.procs.lookup q = some ⟨sid', old⟩ ∧ old.active = true := by
    intro q sid' phase' hq ha
    rcases lookup_go_cases hq with ⟨rfl, rfl, rfl⟩ | ⟨-, hq⟩
    · exact hactive ha
    · exact ⟨phase', hq, ha⟩
  have holdWay : ∀ {q sid' phase'}, (n.go p sid phase).procs.lookup q = some ⟨sid', phase'⟩ →
      phase'.underWay = true → ∃ old, n.procs.lookup q = some ⟨sid', old⟩ ∧ old.underWay = true := by
    intro q sid' phase' hq ha
    rcases lookup_go_cases hq with ⟨rfl, rfl, rfl⟩ | ⟨-, hq⟩
    · exact hway ha
    · exact ⟨phase', hq, ha⟩
  refine ⟨?_, ?_, ?_, ?_, ?_, h.marks, h.marked⟩
  · intro c hc
    rw [lookup_go]
    split
    · rename_i hcaller
      obtain ⟨hs, hw⟩ := hwait c hc hcaller
      exact ⟨phase, by rw [hs], hw⟩
    · exact h.callers c hc
  · intro q sid' phase' hq
    rcases lookup_go_cases hq with ⟨rfl, rfl, rfl⟩ | ⟨-, hq⟩
    · exact hstand
    · refine (h.standing q sid' phase' hq).keep rfl rfl fun r hr => ?_
      rw [lookup_go, if_neg]
      · exact hr
      · rintro rfl
        exact hdead sid' hr
  · intro a b sid' phase₁ phase₂ ha hact hb hact'
    obtain ⟨old, ha', hold₁⟩ := hold ha hact
    obtain ⟨old', hb', hold₂⟩ := hold hb hact'
    exact h.alone a b sid' old old' ha' hold₁ hb' hold₂
  · intro a sid' found ha q phase' hq hact
    rcases lookup_go_cases ha with ⟨-, -, hf⟩ | ⟨-, ha⟩
    · exact absurd hf.symm (hlooked found)
    · obtain ⟨old, hq', hold'⟩ := hold hq hact
      exact h.looked a sid' found ha q old hq' hold'
  · intro a b sid' phase₁ phase₂ ha hw hb hw'
    obtain ⟨old, ha', hold₁⟩ := holdWay ha hw
    obtain ⟨old', hb', hold₂⟩ := holdWay hb hw'
    exact h.inTurn a b sid' old old' ha' hold₁ hb' hold₂

theorem no_call (h : Inv n) (hp : n.procs.lookup p = some ⟨sid, phase⟩)
    (hw : phase.mayWait = false) :
    ∀ c ∈ n.mailbox, c.caller ≠ p := by
  rintro c hc rfl
  obtain ⟨phase', hp', hw'⟩ := h.callers c hc
  obtain ⟨-, rfl⟩ := Proc.mk.inj (Option.some.inj (hp.symm.trans hp'))
  rw [hw] at hw'
  cases hw'

theorem connect (h : Inv n) (hp : n.procs.lookup p = none) : Inv (n.go p sid .connecting) := by
  refine h.go ?_ trivial (fun ha => by cases ha) (fun ha => by cases ha) (fun _ ha => by cases ha) ?_
  · rintro c hc rfl
    obtain ⟨phase, hc', -⟩ := h.callers c hc
    rw [hp] at hc'
    cases hc'
  · intro sid' hdead
    rw [hp] at hdead
    cases hdead

theorem advance (h : Inv n) {phase' : Phase} (hp : n.procs.lookup p = some ⟨sid, phase⟩)
    (hstand : Standing (n.go p sid phase') p sid phase')
    (hwait : phase.mayWait = true → phase'.mayWait = true)
    (hactive : phase'.active = true → phase.active = true) (hway : phase'.underWay = false)
    (hdead : phase ≠ .dead) : Inv (n.go p sid phase') := by
  refine h.go ?_ hstand (fun ha => ⟨phase, hp, hactive ha⟩) (fun hw => ?_) ?_ ?_
  · rintro c hc rfl
    obtain ⟨old, hold, hw⟩ := h.callers c hc
    obtain ⟨hs, rfl⟩ := Proc.mk.inj (Option.some.inj (hp.symm.trans hold))
    exact ⟨hs.symm, hwait hw⟩
  · rw [hway] at hw
    cases hw
  · rintro found rfl
    cases hway
  · intro sid' hlook
    rw [hp] at hlook
    exact hdead (Proc.mk.inj (Option.some.inj hlook)).2

theorem lookup (h : Inv n) (hp : n.procs.lookup p = some ⟨sid, .connecting⟩)
    (hok : ∀ q phase, n.procs.lookup q = some ⟨sid, phase⟩ → phase.underWay = false) :
    Inv (n.go p sid (.looked (n.table.lookup sid))) := by
  have hne : ∀ {q sid' phase}, (n.go p sid (.looked (n.table.lookup sid))).procs.lookup q =
      some ⟨sid', phase⟩ → phase.active = true → n.procs.lookup q = some ⟨sid', phase⟩ := by
    intro q sid' phase hq ha
    rcases lookup_go_cases hq with ⟨-, -, rfl⟩ | ⟨-, hq⟩
    · cases ha
    · exact hq
  refine ⟨?_, ?_, ?_, ?_, ?_, h.marks, h.marked⟩
  · intro c hc
    rw [lookup_go, if_neg (h.no_call hp rfl c hc)]
    exact h.callers c hc
  · intro q sid' phase hq
    rcases lookup_go_cases hq with ⟨-, -, rfl⟩ | ⟨-, hq⟩
    · trivial
    · refine (h.standing q sid' phase hq).keep rfl rfl fun r hr => ?_
      rw [lookup_go, if_neg]
      · exact hr
      · rintro rfl
        rw [hp] at hr
        cases hr
  · intro a b sid' phase₁ phase₂ ha hact hb hact'
    exact h.alone a b sid' _ _ (hne ha hact) hact (hne hb hact') hact'
  · intro a sid' found ha q phase hq hact
    have hq' := hne hq hact
    rcases lookup_go_cases ha with ⟨-, rfl, hf⟩ | ⟨-, ha⟩
    · obtain rfl := Phase.looked.inj hf
      -- no join is under way, so the active process has its row
      have hstand := h.standing q sid' phase hq'
      have hway := hok q phase hq'
      cases phase with
      | registered => exact hstand.1
      | joined => exact hstand.1
      | updating => exact hstand.1
      | leaving => exact hstand.1
      | registering => cases hway
      | _ => cases hact
    · exact h.looked a sid' found ha q phase hq' hact
  · intro a b sid' phase₁ phase₂ ha hw hb hw'
    rcases lookup_go_cases ha with ⟨rfl, rfl, -⟩ | ⟨-, ha₀⟩ <;>
      rcases lookup_go_cases hb with ⟨rfl, hs, -⟩ | ⟨-, hb₀⟩
    · rfl
    · rw [hok b phase₂ hb₀] at hw'
      cases hw'
    · rw [hok a phase₁ (hs ▸ ha₀)] at hw
      cases hw
    · exact h.inTurn a b sid' phase₁ phase₂ ha₀ hw hb₀ hw'

theorem call (h : Inv n) {phase' : Phase} {request : Request}
    (hp : n.procs.lookup p = some ⟨sid, phase⟩) (hwait : phase.mayWait = false)
    (hwait' : phase'.mayWait = true)
    (hstand : Standing (n.call p sid request phase') p sid phase')
    (halone : ∀ q old, n.procs.lookup q = some ⟨sid, old⟩ → old.active = true → q = p)
    (hlooked : ∀ q found, n.procs.lookup q = some ⟨sid, .looked found⟩ → q = p ∨ phase.active = true)
    (hway : phase'.underWay = true → phase.underWay = true)
    (hmark : request = .markOffline → Holds n sid p ∧ n.queued sid = []) :
    Inv (n.call p sid request phase') := by
  have hnotLooked : ∀ found, phase' ≠ .looked found := by
    rintro found rfl
    cases hwait'
  have hcases : ∀ {q sid' old}, (n.call p sid request phase').procs.lookup q = some ⟨sid', old⟩ →
      (q = p ∧ sid' = sid ∧ old = phase') ∨ (q ≠ p ∧ n.procs.lookup q = some ⟨sid', old⟩) :=
    lookup_go_cases
  have hself : (n.call p sid request phase').procs.lookup p = some ⟨sid, phase'⟩ := lookup_go_self
  have hother : ∀ q, q ≠ p → (n.call p sid request phase').procs.lookup q = n.procs.lookup q :=
    fun q hq => lookup_go.trans (if_neg hq)
  refine ⟨?_, ?_, ?_, ?_, ?_, ?_, h.marked⟩
  · intro c hc
    rcases List.mem_append.mp hc with hold | hnew
    · rw [hother _ (h.no_call hp hwait c hold)]
      exact h.callers c hold
    · obtain rfl := List.mem_singleton.mp hnew
      exact ⟨phase', hself, hwait'⟩
  · intro q sid' old hq
    rcases hcases hq with ⟨rfl, rfl, rfl⟩ | ⟨hne, hq⟩
    · exact hstand
    · by_cases hs : sid' = sid
      · rw [hs] at hq ⊢
        refine standing_of_not_active ?_
        rw [Bool.eq_false_iff]
        exact fun ha => hne (halone q old hq ha)
      · refine (h.standing q sid' old hq).keep rfl ?_ fun r hr => ?_
        · rw [queued_call, if_neg (Ne.symm hs), List.append_nil]
        · rw [hother r]
          · exact hr
          · rintro rfl
            rw [hp] at hr
            exact hs (Proc.mk.inj (Option.some.inj hr)).1.symm
  · intro a b sid' phase₁ phase₂ ha hact hb hact'
    rcases hcases ha with ⟨rfl, rfl, -⟩ | ⟨-, ha₀⟩ <;>
      rcases hcases hb with ⟨rfl, hs, -⟩ | ⟨-, hb₀⟩
    · rfl
    · exact (halone b phase₂ hb₀ hact').symm
    · exact halone a phase₁ (hs ▸ ha₀) hact
    · exact h.alone a b sid' phase₁ phase₂ ha₀ hact hb₀ hact'
  · intro a sid' found ha q old hq hact
    rcases hcases ha with ⟨-, -, hf⟩ | ⟨hne, hlook⟩
    · exact absurd hf.symm (hnotLooked found)
    · rcases hcases hq with ⟨rfl, rfl, -⟩ | ⟨-, hq⟩
      · rcases hlooked a found hlook with hap | hold
        · exact absurd hap hne
        · exact h.looked a _ found hlook _ phase hp hold
      · exact h.looked a sid' found hlook q old hq hact
  · intro a b sid' phase₁ phase₂ ha hw hb hw'
    rcases hcases ha with ⟨rfl, rfl, rfl⟩ | ⟨-, ha₀⟩ <;>
      rcases hcases hb with ⟨rfl, hs, rfl⟩ | ⟨-, hb₀⟩
    · rfl
    · exact h.inTurn a b _ phase phase₂ hp (hway hw) hb₀ hw'
    · exact h.inTurn a b _ phase₁ phase ha₀ hw (hs ▸ hp) (hway hw')
    · exact h.inTurn a b sid' phase₁ phase₂ ha₀ hw hb₀ hw'
  · intro sid' c rest hq
    rw [queued_call] at hq
    by_cases hs : sid = sid'
    · subst hs
      rw [if_pos rfl] at hq
      cases hold : n.queued sid with
      | nil =>
        rw [hold, List.nil_append] at hq
        obtain ⟨rfl, rfl⟩ := List.cons.inj hq
        refine ⟨fun c' hc' => (by cases hc'), fun hr => ?_⟩
        obtain ⟨⟨row, hrow, -, hws⟩, -⟩ := hmark hr
        exact ⟨row, hrow, hws⟩
      | cons c₀ rest₀ =>
        rw [hold, List.cons_append] at hq
        obtain ⟨rfl, rfl⟩ := List.cons.inj hq
        obtain ⟨hrest, hhead⟩ := h.marks sid c₀ rest₀ hold
        refine ⟨fun c' hc' => ?_, hhead⟩
        rcases List.mem_append.mp hc' with hc' | hc'
        · exact hrest c' hc'
        · obtain rfl := List.mem_singleton.mp hc'
          intro hr
          rw [(hmark hr).2] at hold
          cases hold
    · rw [if_neg hs, List.append_nil] at hq
      exact h.marks sid' c rest hq

end Inv

/-! ## The registry -/

/-- The phase in which the answer of the registry leaves its caller. -/
def Phase.answered : Phase → Phase
  | .registering => .registered
  | .updating => .joined
  | .leaving => .left
  | phase => phase

section
variable {n : Net} {c : Call} {phase : Phase}

theorem handle_spec (n : Net) (c : Call) (now : Nat) :
    (n.handle c now).procs = n.procs ∧ (n.handle c now).mailbox = n.mailbox ∧
    (∀ sid, sid ≠ c.sessionId → (n.handle c now).table.lookup sid = n.table.lookup sid) ∧
    (∀ fields, c.request = .register fields → Holds (n.handle c now) c.sessionId c.caller) ∧
    ∀ m ∈ (n.handle c now).marked, m ∈ n.marked ∨ c.request = .markOffline ∧
      ∃ row, n.table.lookup c.sessionId = some row ∧ m = ⟨c.caller, c.sessionId, row.wsPid⟩ := by
  unfold Net.handle
  cases hr : c.request with
  | register fields =>
    refine ⟨rfl, rfl, fun sid hs => Ets.lookup_insert_of_ne _ _ hs, fun _ _ => ?_,
      fun m hm => .inl hm⟩
    exact ⟨_, Ets.lookup_insert_self _ _ _, rfl, rfl⟩
  | markOffline =>
    dsimp only
    unfold Net.handleMarkOffline
    cases hrow : n.table.lookup c.sessionId with
    | none =>
      refine ⟨rfl, rfl, fun _ _ => rfl, ?_, fun m hm => .inl hm⟩
      rintro fields ⟨⟩
    | some row =>
      refine ⟨rfl, rfl, fun sid hs => Ets.lookup_insert_of_ne _ _ hs, ?_, fun m hm => ?_⟩
      · rintro fields ⟨⟩
      · rcases List.mem_append.mp hm with hold | hnew
        · exact .inl hold
        · exact .inr ⟨rfl, row, rfl, List.mem_singleton.mp hnew⟩

theorem answer_spec (n : Net) (c : Call) :
    (n.answer c).table = n.table ∧ (n.answer c).mailbox = n.mailbox ∧
      (n.answer c).marked = n.marked := by
  unfold Net.answer
  split <;> exact ⟨rfl, rfl, rfl⟩

theorem lookup_answer (hc : n.procs.lookup c.caller = some ⟨c.sessionId, phase⟩) (q : Pid) :
    (n.answer c).procs.lookup q =
      if q = c.caller then some ⟨c.sessionId, phase.answered⟩ else n.procs.lookup q := by
  have hsame : (if q = c.caller then some ⟨c.sessionId, phase⟩ else n.procs.lookup q) =
      n.procs.lookup q := by
    split
    · rename_i hq
      rw [hq, hc]
    · rfl
  unfold Net.answer
  rw [hc]
  cases phase with
  | registering => exact lookup_go
  | updating => exact lookup_go
  | leaving => exact lookup_go
  | _ => exact hsame.symm

end

namespace Inv
variable {n : Net}

variable {phase : Phase} {sid : SessionId}

/-- The call at the head of the mailbox, if its caller is active, is the only one about
its session; and it is the one its caller waits for. -/
theorem only_call (h : Inv n) {c : Call} {tail : List Call}
    (hq : n.queued c.sessionId = c :: tail)
    (hc : n.procs.lookup c.caller = some ⟨c.sessionId, phase⟩) (hactive : phase.active = true) :
    tail = [] ∧ (phase = .leaving ∨ ∃ fields, c.request = .register fields) := by
  have hstand := h.standing _ _ _ hc
  cases phase with
  | registering =>
    obtain ⟨front, fields, hfront, hdead⟩ := hstand
    rw [hq] at hfront
    cases front with
    | nil =>
      obtain ⟨hhead, htail⟩ := List.cons.inj hfront
      exact ⟨htail, .inr ⟨fields, by rw [hhead]⟩⟩
    | cons c₀ front =>
      obtain ⟨rfl, -⟩ := List.cons.inj hfront
      have hd := hdead c List.mem_cons_self
      rw [hc] at hd
      cases hd
  | registered =>
    obtain ⟨-, hnone⟩ := hstand
    rw [hq] at hnone
    cases hnone
  | joined =>
    obtain ⟨-, hnone⟩ := hstand
    rw [hq] at hnone
    cases hnone
  | updating =>
    obtain ⟨-, fields, hone⟩ := hstand
    rw [hq] at hone
    obtain ⟨hhead, htail⟩ := List.cons.inj hone
    exact ⟨htail, .inr ⟨fields, by rw [hhead]⟩⟩
  | leaving =>
    obtain ⟨-, hone⟩ := hstand
    rw [hq] at hone
    exact ⟨(List.cons.inj hone).2, .inl rfl⟩
  | _ => cases hactive

theorem standing_behind_dead (h : Inv n) {c : Call} {tail : List Call} {q : Pid}
    (hq : n.queued c.sessionId = c :: tail)
    (hc : n.procs.lookup c.caller = some ⟨c.sessionId, .dead⟩)
    (hp : n.procs.lookup q = some ⟨c.sessionId, phase⟩) (hactive : phase.active = true) :
    phase = .registering ∧ ∃ front fields,
      tail = front ++ [⟨q, c.sessionId, .register fields⟩] ∧
        ∀ c' ∈ front, n.procs.lookup c'.caller = some ⟨c.sessionId, .dead⟩ := by
  have hself : ∀ request, c ≠ ⟨q, c.sessionId, request⟩ := by
    intro request he
    have hcaller : c.caller = q := congrArg Call.caller he
    rw [hcaller, hp] at hc
    obtain ⟨-, rfl⟩ := Proc.mk.inj (Option.some.inj hc)
    cases hactive
  have hstand := h.standing _ _ _ hp
  cases phase with
  | registering =>
    obtain ⟨front, fields, hfront, hdead⟩ := hstand
    rw [hq] at hfront
    cases front with
    | nil => exact absurd (List.cons.inj hfront).1 (hself _)
    | cons c₀ front =>
      obtain ⟨-, htail⟩ := List.cons.inj hfront
      exact ⟨rfl, front, fields, htail, fun c' hc' => hdead c' (List.mem_cons_of_mem _ hc')⟩
  | registered =>
    obtain ⟨-, hnone⟩ := hstand
    rw [hq] at hnone
    cases hnone
  | joined =>
    obtain ⟨-, hnone⟩ := hstand
    rw [hq] at hnone
    cases hnone
  | updating =>
    obtain ⟨-, fields, hone⟩ := hstand
    rw [hq] at hone
    exact absurd (List.cons.inj hone).1 (hself _)
  | leaving =>
    obtain ⟨-, hone⟩ := hstand
    rw [hq] at hone
    exact absurd (List.cons.inj hone).1 (hself _)
  | _ => cases hactive

theorem answered_active (hw : phase.mayWait = true) (h : phase.answered.active = true) :
    phase.active = true := by
  cases phase <;> simp_all [Phase.mayWait, Phase.answered, Phase.active]

theorem answered_underWay (hw : phase.mayWait = true) : phase.answered.underWay = false := by
  cases phase <;> simp_all [Phase.mayWait, Phase.answered, Phase.underWay]

theorem active_or_dead (hw : phase.mayWait = true) : phase.active = true ∨ phase = .dead := by
  cases phase <;> simp_all [Phase.mayWait, Phase.active]

theorem handle (h : Inv n) {c : Call} {rest : List Call} (hm : n.mailbox = c :: rest) (now : Nat) :
    Inv ((({ n with mailbox := rest } : Net).handle c now).answer c) := by
  obtain ⟨phase, hc, hwait⟩ := h.callers c (by rw [hm]; exact List.mem_cons_self)
  obtain ⟨hprocs, hbox, htable, hregister, hmarked⟩ := handle_spec { n with mailbox := rest } c now
  obtain ⟨htable', hbox', hmarked'⟩ := answer_spec (({ n with mailbox := rest } : Net).handle c now) c
  have hlook : ∀ q, ((({ n with mailbox := rest } : Net).handle c now).answer c).procs.lookup q =
      if q = c.caller then some ⟨c.sessionId, phase.answered⟩ else n.procs.lookup q := by
    intro q
    rw [lookup_answer (by rw [hprocs]; exact hc), hprocs]
  generalize hn' : (({ n with mailbox := rest } : Net).handle c now).answer c = n' at *
  have hrow : ∀ sid, sid ≠ c.sessionId → n'.table.lookup sid = n.table.lookup sid := by
    intro sid hs
    rw [htable', htable sid hs]
  have hqueued : ∀ sid, sid ≠ c.sessionId → n'.queued sid = n.queued sid := by
    intro sid hs
    unfold Net.queued
    rw [hbox', hbox, hm, List.filter_cons, if_neg (by simpa using Ne.symm hs)]
  have hqueuedSelf : n.queued c.sessionId = c :: n'.queued c.sessionId := by
    unfold Net.queued
    rw [hbox', hbox, hm, List.filter_cons, if_pos (by simp)]
  have hcases : ∀ {q sid phase'}, n'.procs.lookup q = some ⟨sid, phase'⟩ →
      (q = c.caller ∧ sid = c.sessionId ∧ phase' = phase.answered) ∨
        (q ≠ c.caller ∧ n.procs.lookup q = some ⟨sid, phase'⟩) := by
    intro q sid phase' hq
    rw [hlook] at hq
    split at hq
    · rename_i he
      obtain ⟨rfl, rfl⟩ := Proc.mk.inj (Option.some.inj hq)
      exact .inl ⟨he, rfl, rfl⟩
    · rename_i he
      exact .inr ⟨he, hq⟩
  have hold : ∀ {q sid phase'}, n'.procs.lookup q = some ⟨sid, phase'⟩ → phase'.active = true →
      ∃ old, n.procs.lookup q = some ⟨sid, old⟩ ∧ old.active = true := by
    intro q sid phase' hq ha
    rcases hcases hq with ⟨rfl, rfl, rfl⟩ | ⟨-, hq⟩
    · exact ⟨phase, hc, answered_active hwait ha⟩
    · exact ⟨phase', hq, ha⟩
  have hdeadKeep : ∀ q sid, n.procs.lookup q = some ⟨sid, .dead⟩ →
      n'.procs.lookup q = some ⟨sid, .dead⟩ := by
    intro q sid hq
    rw [hlook]
    split
    · rename_i he
      rw [he, hc] at hq
      obtain ⟨rfl, rfl⟩ := Proc.mk.inj (Option.some.inj hq)
      rfl
    · exact hq
  refine ⟨?_, ?_, ?_, ?_, ?_, ?_, ?_⟩
  · intro c' hc'
    have hmem : c' ∈ rest := by rwa [hbox', hbox] at hc'
    obtain ⟨old, hold', hw⟩ := h.callers c' (by rw [hm]; exact List.mem_cons_of_mem _ hmem)
    rw [hlook]
    split
    · rename_i he
      rw [he, hc] at hold'
      obtain ⟨hs, rfl⟩ := Proc.mk.inj (Option.some.inj hold')
      refine ⟨phase.answered, by rw [hs], ?_⟩
      by_cases hactive : phase.active = true
      · -- then this is not the only call about the session
        have hnil := (h.only_call hqueuedSelf hc hactive).1
        have hin : c' ∈ n'.queued c.sessionId := mem_queued.mpr ⟨hc', hs.symm⟩
        rw [hnil] at hin
        cases hin
      · obtain rfl := (active_or_dead hwait).resolve_left hactive
        rfl
    · exact ⟨old, hold', hw⟩
  · intro q sid phase' hq
    by_cases hs : sid = c.sessionId
    · subst hs
      rcases hcases hq with ⟨rfl, -, rfl⟩ | ⟨hne, hq⟩
      · by_cases hactive : phase.active = true
        · obtain ⟨hnil, hreq⟩ := h.only_call hqueuedSelf hc hactive
          have hholds : (∃ fields, c.request = .register fields) → Holds n' c.sessionId c.caller := by
            rintro ⟨fields, hf⟩
            obtain ⟨row, hr, hrest⟩ := hregister fields hf
            exact ⟨row, by rw [htable']; exact hr, hrest⟩
          cases phase with
          | registering => exact ⟨hholds (hreq.resolve_left (by decide)), hnil⟩
          | updating => exact ⟨hholds (hreq.resolve_left (by decide)), hnil⟩
          | leaving => trivial
          | dead => cases hactive
          | _ => cases hwait
        · refine standing_of_not_active ?_
          rw [Bool.eq_false_iff]
          exact fun ha => hactive (answered_active hwait ha)
      · by_cases hactive : phase'.active = true
        · have hdead : phase = .dead := (active_or_dead hwait).resolve_left
            fun hact => hne (h.alone _ _ _ _ _ hq hactive hc hact)
          subst hdead
          obtain ⟨rfl, front, fields, htail, hfront⟩ :=
            h.standing_behind_dead hqueuedSelf hc hq hactive
          exact ⟨front, fields, htail, fun c' hc' => hdeadKeep _ _ (hfront c' hc')⟩
        · exact standing_of_not_active (Bool.eq_false_iff.mpr hactive)
    · rcases hcases hq with ⟨-, hsid, -⟩ | ⟨-, hq⟩
      · exact absurd hsid hs
      · exact (h.standing q sid phase' hq).keep (hrow sid hs) (hqueued sid hs)
          fun r hr => hdeadKeep r sid hr
  · intro a b sid phase₁ phase₂ ha hact hb hact'
    obtain ⟨old, ha', hold₁⟩ := hold ha hact
    obtain ⟨old', hb', hold₂⟩ := hold hb hact'
    exact h.alone a b sid old old' ha' hold₁ hb' hold₂
  · intro a sid found ha q phase' hq hact
    obtain ⟨old, hq', hold'⟩ := hold hq hact
    rcases hcases ha with ⟨-, -, hf⟩ | ⟨-, ha⟩
    · have hno := answered_underWay hwait
      rw [← hf] at hno
      cases hno
    · exact h.looked a sid found ha q old hq' hold'
  · have hway : ∀ {q sid phase'}, n'.procs.lookup q = some ⟨sid, phase'⟩ →
        phase'.underWay = true → n.procs.lookup q = some ⟨sid, phase'⟩ := by
      intro q sid phase' hq hw
      rcases hcases hq with ⟨-, -, rfl⟩ | ⟨-, hq⟩
      · rw [answered_underWay hwait] at hw
        cases hw
      · exact hq
    intro a b sid phase₁ phase₂ ha hw hb hw'
    exact h.inTurn a b sid phase₁ phase₂ (hway ha hw) hw (hway hb hw') hw'
  · intro sid c' rest' hq
    by_cases hs : sid = c.sessionId
    · subst hs
      rw [hq] at hqueuedSelf
      have hno := (h.marks c.sessionId c _ hqueuedSelf).1
      exact ⟨fun x hx => hno x (List.mem_cons_of_mem _ hx),
        fun hr => absurd hr (hno c' List.mem_cons_self)⟩
    · rw [hqueued sid hs] at hq
      rw [hrow sid hs]
      exact h.marks sid c' rest' hq
  · intro m hmem
    rw [hmarked'] at hmem
    rcases hmarked m hmem with hold | ⟨hr, row, hrow', rfl⟩
    · exact h.marked m hold
    · obtain ⟨row', hrow'', hws⟩ := (h.marks c.sessionId c _ hqueuedSelf).2 hr
      obtain rfl := Option.some.inj (hrow''.symm.trans hrow')
      exact hws

/-- Whoever is active in the session stands in the row a join has in hand, and is alive:
the join is refused. -/
theorem refused (h : Inv n) {p q : Pid} {found : Option Row}
    (hp : n.procs.lookup p = some ⟨sid, .looked found⟩)
    (hq : n.procs.lookup q = some ⟨sid, phase⟩) (hactive : phase.active = true) :
    n.heldByOther p found = true := by
  obtain ⟨row, rfl, honline, rfl⟩ := h.looked p sid found hp q phase hq hactive
  have hne : row.wsPid ≠ p := by
    rintro rfl
    rw [hp] at hq
    obtain ⟨-, rfl⟩ := Proc.mk.inj (Option.some.inj hq)
    cases hactive
  have halive : n.isAlive row.wsPid = true := by
    unfold Net.isAlive
    rw [hq]
    cases phase <;> first | rfl | cases hactive
  simp [Net.heldByOther, honline, hne, halive]

theorem register (h : Inv n) {p : Pid} {found : Option Row} (fields : Fields)
    (hp : n.procs.lookup p = some ⟨sid, .looked found⟩) (hfree : n.heldByOther p found = false) :
    Inv (n.call p sid (.register fields) .registering) := by
  have hnone : ∀ q phase, n.procs.lookup q = some ⟨sid, phase⟩ → phase.active = false := by
    intro q phase hq
    rw [Bool.eq_false_iff]
    intro ha
    rw [h.refused hp hq ha] at hfree
    cases hfree
  refine h.call hp rfl rfl ?_ (fun q old hq ha => ?_) (fun q found' hq => .inl ?_)
    (fun _ => rfl) (fun hr => by cases hr)
  · refine ⟨n.queued sid, fields, by rw [queued_call, if_pos rfl], fun c hc => ?_⟩
    -- every caller still queued has been killed
    obtain ⟨hmem, hs⟩ := mem_queued.mp hc
    obtain ⟨phase, hlook, hw⟩ := h.callers c hmem
    rw [hs] at hlook
    have hdead : phase = .dead := (active_or_dead hw).resolve_left fun ha => by
      rw [hnone _ _ hlook] at ha
      cases ha
    rw [hdead] at hlook
    refine lookup_go.trans ?_
    rw [if_neg (h.no_call hp rfl c hmem)]
    exact hlook
  · rw [hnone q old hq] at ha
    cases ha
  · exact h.inTurn q p sid _ _ hq rfl hp rfl

theorem again (h : Inv n) {p : Pid} {request : Request}
    (hp : n.procs.lookup p = some ⟨sid, .joined⟩) (hwait : phase.mayWait = true)
    (hway : phase.underWay = false)
    (hstand : Holds n sid p → (n.call p sid request phase).queued sid = [⟨p, sid, request⟩] → Standing (n.call p sid request phase) p sid phase) :
    Inv (n.call p sid request phase) := by
  obtain ⟨hholds, hnone⟩ := h.standing p sid _ hp
  refine h.call hp rfl hwait (hstand hholds ?_) (fun q old hq ha => ?_) (fun _ _ _ => .inr rfl)
    (fun hw => ?_) (fun _ => ⟨hholds, hnone⟩)
  · rw [queued_call, hnone, if_pos rfl, List.nil_append]
  · exact h.alone q p sid old _ hq ha hp rfl
  · rw [hway] at hw
    cases hw

/-- **One step.** -/
theorem step {a : Act} {n' : Net} (h : Inv n) (hok : Orderly n a) (hs : step n a = some n') :
    Inv n' := by
  unfold ChannelJoins.step at hs
  cases a with
  | connect p sid =>
    dsimp only at hs
    split at hs
    · rename_i hp
      obtain rfl := Option.some.inj hs
      exact h.connect hp
    · cases hs
  | lookup p =>
    dsimp only at hs
    split at hs
    · rename_i sid hp
      obtain rfl := Option.some.inj hs
      refine h.lookup hp fun q phase hq => ?_
      exact hok _ hp (q, ⟨sid, phase⟩) (Ets.mem_tab2list.mpr hq) rfl
    · cases hs
  | check p =>
    dsimp only at hs
    split at hs
    · rename_i sid found hp
      split at hs
      · obtain rfl := Option.some.inj hs
        exact h.advance hp trivial (fun hw => hw) (fun ha => ha) rfl (by rintro ⟨⟩)
      · rename_i hfree
        obtain rfl := Option.some.inj hs
        exact h.register joinFields hp (Bool.eq_false_iff.mpr hfree)
    · cases hs
  | handle now =>
    dsimp only at hs
    split at hs
    · rename_i c rest hm
      obtain rfl := Option.some.inj hs
      exact h.handle hm now
    · cases hs
  | joinReturns p =>
    dsimp only at hs
    split at hs
    · rename_i sid hp
      obtain rfl := Option.some.inj hs
      exact h.advance hp (h.standing p sid _ hp) (fun hw => hw) (fun _ => rfl) rfl (by rintro ⟨⟩)
    · cases hs
  | sessionRegister p bootstrap payload =>
    dsimp only at hs
    split at hs
    · rename_i sid hp
      obtain rfl := Option.some.inj hs
      exact h.again hp rfl rfl fun hholds hq => ⟨hholds, _, hq⟩
    · cases hs
  | leave p =>
    dsimp only at hs
    split at hs
    · rename_i sid hp
      obtain rfl := Option.some.inj hs
      exact h.again hp rfl rfl fun hholds hq => ⟨hholds, hq⟩
    · cases hs
  | exit p =>
    dsimp only at hs
    split at hs
    · rename_i sid hp
      obtain rfl := Option.some.inj hs
      exact h.advance hp trivial (fun _ => rfl) (fun ha => by cases ha) rfl (by rintro ⟨⟩)
    · cases hs
  | kill p =>
    dsimp only at hs
    split at hs
    · rename_i sid phase hp
      split at hs
      · rename_i halive
        obtain rfl := Option.some.inj hs
        refine h.advance hp trivial (fun _ => rfl) (fun ha => by cases ha) rfl ?_
        rintro rfl
        cases halive
      · cases hs
    · cases hs

end Inv

/-! ## Runs -/

/-- **One holder.**  In every run in which no join reads the row while another join of its
session is under way, a session has at most one joined process, its row is online with
that process, and a process marks only its own row offline. -/
theorem oneHolder_of_orderly {n : Net} (h : Reaches step Orderly start n) : Correct n :=
  (h.invariant Inv.start fun _ _ _ (hinv : Inv _) hok hs => hinv.step hok hs).correct

instance (n : Net) (a : Act) : Decidable (Orderly n a) := by
  cases a with
  | lookup p =>
    refine match hp : n.procs.lookup p with
      | none => isTrue fun proc h => ?_
      | some proc => decidable_of_iff (∀ r ∈ n.procs.tab2list,
          r.2.sessionId = proc.sessionId → r.2.phase.underWay = false)
          ⟨fun h proc' hp' => ?_, fun h => h proc hp⟩
    · rw [hp] at h
      cases h
    · obtain rfl := Option.some.inj (hp.symm.trans hp')
      exact h
  | _ => exact isTrue trivial

/-- A join, from the connection to its return. -/
def joining (p : Pid) (sid : SessionId) : List Act :=
  [.connect p sid, .lookup p, .check p, .handle 0, .joinReturns p]

/-- What a session announces of itself. -/
def devSession : Payload :=
  { chats := [⟨some "oc_dev", some "cli_a"⟩, ⟨some "oc_ops", some "cli_a"⟩]
    principalId := none
    workspaceName := some "esr-dev"
    workspace := none }

/-- A process joins, registers and leaves; another one joins after it, and a third is
refused. -/
def oneAfterTheOther : List Act :=
  joining 0 "s1" ++ [.sessionRegister 0 (some "ou_admin") devSession, .handle 1, .leave 0, .handle 2,
    .exit 0] ++ joining 1 "s1" ++ [.connect 2 "s1", .lookup 2, .check 2]

/-- Two processes read the row before either has registered. -/
def bothJoin : List Act :=
  [.connect 0 "s1", .connect 1 "s1", .lookup 0, .lookup 1, .check 0, .check 1, .handle 0,
    .handle 0, .joinReturns 0, .joinReturns 1]

theorem oneHolder_oneAfterTheOther :
    ∃ n : Net, (n.procs.lookup 0, n.procs.lookup 1, n.procs.lookup 2) =
      (some ⟨"s1", .dead⟩, some ⟨"s1", .joined⟩, some ⟨"s1", .rejected⟩) ∧ Correct n := by
  have hrun : (exec step Orderly start oneAfterTheOther).map
      (fun n => (n.procs.lookup 0, n.procs.lookup 1, n.procs.lookup 2)) =
      some (some ⟨"s1", .dead⟩, some ⟨"s1", .joined⟩, some ⟨"s1", .rejected⟩) := by decide +kernel
  obtain ⟨n, hn, hprocs⟩ := Option.map_eq_some_iff.mp hrun
  exact ⟨n, hprocs, oneHolder_of_orderly (.of_exec hn)⟩

/-- **Two processes are joined to one session.** -/
theorem not_oneHolder_bothJoin : ¬∀ n : Net, Reaches step anyStep start n → Correct n := by
  intro h
  have hrun : (exec step anyStep start bothJoin).map
      (fun n => (n.procs.lookup 0, n.procs.lookup 1)) =
      some (some ⟨"s1", .joined⟩, some ⟨"s1", .joined⟩) := by decide +kernel
  obtain ⟨n, hn, hprocs⟩ := Option.map_eq_some_iff.mp hrun
  obtain ⟨h₀, h₁⟩ := Prod.mk.inj hprocs
  have heq := (h n (.of_exec hn)).single 0 1 "s1" ⟨_, h₀, rfl⟩ ⟨_, h₁, rfl⟩
  cases heq

end ChannelJoins
end Esr
