import Mathlib.Data.List.Infix
import Esr.Runs
import Esr.Utf8

/-! # The bridge of the boot

Until `cc_mcp` is there, the chat proxy mirrors what the wrapped process writes to its
terminal: the chunks are gathered in a buffer, half a second after the first of them a
timer flushes the buffer into the chat, and a dialog that is recognised in the buffer is
answered with a key.  A second timer gives the terminal a size, unless a browser attaches
before.

Here is the proxy with its mailbox and its timers.  A timer that is cancelled may have put
its message into the mailbox already; the message is then handled as if nothing had been
cancelled.  Chunks are flushed once each in every run (`Inv.chunks`).  The dialog is looked
for in the buffer, which a flush empties, and the default size is not given up when its
message is waiting: what both need of a step is `Meets`.
-/
namespace Esr
namespace BootBridge

abbrev Bytes := List UInt8

/-! ## `Esr.AnsiStrip` -/

/-- `drop_until_csi_final/1`. -/
def dropUntilCsiFinal : Bytes → Bytes
  | [] => []
  | b :: rest => if 0x40 ≤ b ∧ b ≤ 0x7E then rest else dropUntilCsiFinal rest

/-- `drop_until_st_or_bel/1`. -/
def dropUntilStOrBel : Bytes → Bytes
  | [] => []
  | b :: rest =>
    if b = 0x07 then rest
    else if b = 0x1B ∧ rest.head? = some 0x5C then rest.tail
    else dropUntilStOrBel rest

/-- `drop_until_st/1`. -/
def dropUntilSt : Bytes → Bytes
  | [] => []
  | b :: rest => if b = 0x1B ∧ rest.head? = some 0x5C then rest.tail else dropUntilSt rest

theorem length_dropUntilCsiFinal (bs : Bytes) : (dropUntilCsiFinal bs).length ≤ bs.length := by
  induction bs with
  | nil => exact Nat.le_refl _
  | cons b rest ih =>
    rw [dropUntilCsiFinal, List.length_cons]
    split <;> omega

theorem length_dropUntilStOrBel (bs : Bytes) : (dropUntilStOrBel bs).length ≤ bs.length := by
  induction bs with
  | nil => exact Nat.le_refl _
  | cons b rest ih =>
    have htail : rest.tail.length = rest.length - 1 := List.length_tail
    rw [dropUntilStOrBel, List.length_cons]
    split
    · omega
    · split <;> omega

theorem length_dropUntilSt (bs : Bytes) : (dropUntilSt bs).length ≤ bs.length := by
  induction bs with
  | nil => exact Nat.le_refl _
  | cons b rest ih =>
    have htail : rest.tail.length = rest.length - 1 := List.length_tail
    rw [dropUntilSt, List.length_cons]
    split <;> omega

/-- `strip/1`.  Of the bare control bytes only DEL is dropped: the clause for the others asks
for a byte in a list of ranges, and no byte is equal to a range. -/
def strip : Bytes → Bytes
  | [] => []
  | b :: [] => if b = 0x7F then [] else [b]
  | b :: next :: rest =>
    if b = 0x1B then
      if next = 0x5B then 0x20 :: strip (dropUntilCsiFinal rest)
      else if next = 0x5D then strip (dropUntilStOrBel rest)
      else if next = 0x50 ∨ next = 0x58 ∨ next = 0x5E ∨ next = 0x5F then strip (dropUntilSt rest)
      else strip rest
    else if b = 0x7F then strip (next :: rest)
    else b :: strip (next :: rest)
termination_by bs => bs.length
decreasing_by
  all_goals simp only [List.length_cons]
  · have hle := length_dropUntilCsiFinal rest
    omega
  · have hle := length_dropUntilStOrBel rest
    omega
  · have hle := length_dropUntilSt rest
    omega
  all_goals omega

/-! ## The text of a flush -/

/-- The characters that `String.trim/1` takes off, as bytes. -/
def whitespace : List Bytes :=
  ['\t', '\n', '\x0B', '\x0C', '\r', ' ', '\u0085', '\u00A0', '\u1680', '\u2000', '\u2001',
    '\u2002', '\u2003', '\u2004', '\u2005', '\u2006', '\u2007', '\u2008', '\u2009', '\u200A',
    '\u2028', '\u2029', '\u202F', '\u205F', '\u3000'].map String.utf8EncodeChar

/-- Take off what is in the list, `n` times at most. -/
def dropLeading (ws : List Bytes) : Nat → Bytes → Bytes
  | 0, bs => bs
  | n + 1, bs =>
    match ws.find? fun w => w.isPrefixOf bs with
    | some w => dropLeading ws n (bs.drop w.length)
    | none => bs

/-- `String.trim/1`. -/
def trim (bs : Bytes) : Bytes :=
  let leading := dropLeading whitespace bs.length bs
  (dropLeading (whitespace.map List.reverse) leading.length leading.reverse).reverse

/-- `trim_redundant_blanks/1`. -/
def trimRedundantBlanks (text : Bytes) : Bytes :=
  let isBlank : Bytes → Bool := fun line => trim line = []
  let chunks := (text.splitOn 0x0A).splitBy fun a b => isBlank a == isBlank b
  List.intercalate [0x0A] (chunks.flatMap fun chunk =>
    match chunk with
    | maybeBlank :: _ => if isBlank maybeBlank then [[]] else chunk
    | [] => [])

/-! ## The proxy -/

/-- A reference of a timer. -/
abbrev Ref := Nat

inductive Msg where
  | ptyStdout (data : Bytes)
  | flushPtyBuffer
  | ccMcpReady (sid : String)
  | sendDefaultWinsize
  | ptyAttach (sid : String)
deriving DecidableEq

/-- What the handlers of the bridge read and write of the proxy's state. -/
structure Proxy where
  sessionId : String
  ptyActorId : String
  bootMode : Bool
  ptyBuffer : Bytes
  ptyFlushTimer : Option Ref
  devChannelsConfirmed : Bool
  winsizePendingRef : Option Ref

inductive Effect where
  | forwardReply (text : Bytes)
  | ptyWrite (actorId : String) (data : Bytes)
  | ptyResize (actorId : String) (cols rows : Nat)
  | sendAfter (ref : Ref) (m : Msg) (ms : Nat)
  | cancelTimer (ref : Ref)
  | sendSelf (m : Msg)
  | unsubscribe (topic : String)

def loadingChannels : Bytes := bytesOf "Loading development channels".toList

def localDevelopment : Bytes := bytesOf "I am using this for local development".toList

/-- The stripped text has both texts of the dialog. -/
def isDialog (stripped : Bytes) : Bool :=
  decide (loadingChannels <:+: stripped) && decide (localDevelopment <:+: stripped)

/-- `maybe_confirm_dev_channels/1`. -/
def maybeConfirmDevChannels (p : Proxy) : Proxy × List Effect :=
  if p.devChannelsConfirmed then (p, [])
  else if isDialog (strip p.ptyBuffer) then
    ({ p with devChannelsConfirmed := true }, [.ptyWrite p.ptyActorId (bytesOf "1\r".toList)])
  else (p, [])

/-- The text a flush sends, if there is any. -/
def flushText (buffer : Bytes) : Bytes :=
  match strip buffer with
  | [] => []
  | stripped => trimRedundantBlanks (trim stripped)

/-- `@bridge_flush_ms`. -/
def bridgeFlushMs : Nat := 500

/-- `handle_info/2`; a timer that is set gets the reference `ref`. -/
def handleInfo (ref : Ref) (p : Proxy) : Msg → Proxy × List Effect
  | .ptyStdout data =>
    if p.bootMode then
      let timer := p.ptyFlushTimer.getD ref
      let set := if p.ptyFlushTimer = none then [.sendAfter ref .flushPtyBuffer bridgeFlushMs] else []
      let r := maybeConfirmDevChannels
        { p with ptyBuffer := p.ptyBuffer ++ data, ptyFlushTimer := some timer }
      (r.1, set ++ r.2)
    else (p, [])
  | .flushPtyBuffer =>
    let text := flushText p.ptyBuffer
    ({ p with ptyBuffer := [], ptyFlushTimer := none }, if text = [] then [] else [.forwardReply text])
  | .ccMcpReady sid =>
    if sid = p.sessionId then
      let flush := match p.ptyFlushTimer with
        | none => []
        | some ref => [.cancelTimer ref, .sendSelf .flushPtyBuffer]
      ({ p with bootMode := false, ptyFlushTimer := none },
        flush ++ [.unsubscribe ("pty:" ++ p.ptyActorId)])
    else (p, [])
  | .sendDefaultWinsize =>
    ({ p with winsizePendingRef := none },
      if p.bootMode then [.ptyResize p.ptyActorId 120 40] else [])
  | .ptyAttach sid =>
    if sid = p.sessionId then
      match p.winsizePendingRef with
      | none => (p, [])
      | some ref => ({ p with winsizePendingRef := none }, [.cancelTimer ref])
    else (p, [])

/-! ## The proxy, its mailbox and its timers -/

/-- What has happened. -/
inductive Event where
  /-- A chunk was handled in boot mode. -/
  | received (data : Bytes)
  /-- A flush has taken this from the buffer. -/
  | flushed (data : Bytes)
  | written
  | resized
  /-- The session's `pty_attach` was handled. -/
  | attached
deriving DecidableEq

structure World where
  proxy : Proxy
  mailbox : List Msg
  timers : List (Ref × Msg)
  nextRef : Ref
  subscribed : Bool
  log : List Event

inductive Action where
  | stdout (data : Bytes)
  | ready (sid : String)
  | attach (sid : String)
  | fire (ref : Ref)
  /-- The first message is handled; a worker of the terminal is registered, or not. -/
  | handle (registered : Bool)

/-- What an effect does around the proxy. -/
def World.apply (registered : Bool) (w : World) : Effect → World
  | .forwardReply _ => w
  | .ptyWrite _ _ => if registered then { w with log := w.log ++ [.written] } else w
  | .ptyResize _ _ _ => if registered then { w with log := w.log ++ [.resized] } else w
  | .sendAfter ref m _ => { w with timers := (ref, m) :: w.timers, nextRef := w.nextRef + 1 }
  | .cancelTimer ref => { w with timers := w.timers.filter fun t => t.1 ≠ ref }
  | .sendSelf m => { w with mailbox := w.mailbox ++ [m] }
  | .unsubscribe _ => { w with subscribed := false }

/-- What the handling of a message is, whatever comes of it. -/
def noted (p : Proxy) : Msg → List Event
  | .ptyStdout data => if p.bootMode then [.received data] else []
  | .flushPtyBuffer => [.flushed p.ptyBuffer]
  | .ptyAttach sid => if sid = p.sessionId then [.attached] else []
  | _ => []

def World.step (w : World) : Action → Option World
  | .stdout data =>
    if w.subscribed then some { w with mailbox := w.mailbox ++ [.ptyStdout data] } else none
  | .ready sid => some { w with mailbox := w.mailbox ++ [.ccMcpReady sid] }
  | .attach sid => some { w with mailbox := w.mailbox ++ [.ptyAttach sid] }
  | .fire ref =>
    (w.timers.find? fun t => t.1 = ref).map fun t =>
      { w with mailbox := w.mailbox ++ [t.2], timers := w.timers.filter fun t => t.1 ≠ ref }
  | .handle registered =>
    match w.mailbox with
    | [] => none
    | m :: rest =>
      some ((handleInfo w.nextRef w.proxy m).2.foldl (World.apply registered)
        { w with
          proxy := (handleInfo w.nextRef w.proxy m).1
          mailbox := rest
          log := w.log ++ noted w.proxy m })

/-- After `init/1`: the timer of the default size is running. -/
def World.start (sessionId ptyActorId : String) : World where
  proxy := {
    sessionId := sessionId
    ptyActorId := ptyActorId
    bootMode := true
    ptyBuffer := []
    ptyFlushTimer := none
    devChannelsConfirmed := false
    winsizePendingRef := some 0 }
  mailbox := []
  timers := [(0, .sendDefaultWinsize)]
  nextRef := 1
  subscribed := true
  log := []

/-! ## What is asked of a run -/

/-- The chunks handled in boot mode. -/
def received (log : List Event) : List Bytes :=
  log.filterMap fun
    | .received data => some data
    | _ => none

/-- What the flushes have taken. -/
def flushed (log : List Event) : List Bytes :=
  log.filterMap fun
    | .flushed data => some data
    | _ => none

/-- The chunks are flushed, the dialog is answered once, and the default size is not given
behind a browser's back. -/
structure Mirrored (w : World) : Prop where
  /-- The chunks received were flushed, each once and in order, but for those in the buffer. -/
  chunks : ∃ (groups : List (List Bytes)) (pending : List Bytes),
    received w.log = groups.flatten ++ pending ∧ flushed w.log = groups.map List.flatten ∧
      w.proxy.ptyBuffer = pending.flatten
  /-- A flush of the buffer is coming, and behind the hand-off its message is there. -/
  coming : w.proxy.ptyBuffer ≠ [] → .flushPtyBuffer ∈ w.mailbox ∨
    w.proxy.bootMode = true ∧ ∃ ref, (ref, .flushPtyBuffer) ∈ w.timers
  once : w.log.count .written ≤ 1
  confirmed : isDialog (strip (received w.log).flatten) = true → .written ∈ w.log
  noResize : w.log.Pairwise fun before after => before = .attached → after ≠ .resized

/-- In the mailbox the message of the default size comes before the hand-off. -/
def resizeAhead (sid : String) : List Msg → Bool
  | [] => false
  | .sendDefaultWinsize :: _ => true
  | .ccMcpReady sid' :: rest => if sid' = sid then false else resizeAhead sid rest
  | _ :: rest => resizeAhead sid rest

/-- What is asked of the handling of a message: where a chunk completes the dialog in the
output of the boot, it completes it in what came since the last flush, and a worker is there
to be written to; and a browser does not attach when the message of the default size is
waiting. -/
def World.Meets (w : World) : Action → Prop
  | .handle registered =>
    match w.mailbox with
    | .ptyStdout data :: _ => w.proxy.bootMode = true →
        isDialog (strip ((received w.log).flatten ++ data)) = true → .written ∈ w.log ∨
          w.proxy.devChannelsConfirmed = false ∧
            isDialog (strip (w.proxy.ptyBuffer ++ data)) = true ∧ registered = true
    | .ptyAttach sid :: rest => sid = w.proxy.sessionId → w.proxy.bootMode = true →
        resizeAhead sid rest = false
    | _ => True
  | _ => True

/-! ## The handlers, one by one -/

/-- The timer of a flush is running. -/
def World.arm (w : World) : World :=
  match w.proxy.ptyFlushTimer with
  | none => { w with
      proxy := { w.proxy with ptyFlushTimer := some w.nextRef }
      timers := (w.nextRef, .flushPtyBuffer) :: w.timers
      nextRef := w.nextRef + 1 }
  | some _ => w

/-- The chunk is in the buffer. -/
def World.receive (data : Bytes) (rest : List Msg) (w : World) : World :=
  { w with
    proxy := { w.proxy with ptyBuffer := w.proxy.ptyBuffer ++ data }
    mailbox := rest
    log := w.log ++ [.received data] }

/-- The dialog is answered if it is in the buffer. -/
def World.confirm (registered : Bool) (w : World) : World :=
  if w.proxy.devChannelsConfirmed = false ∧ isDialog (strip w.proxy.ptyBuffer) = true then
    { w with
      proxy := { w.proxy with devChannelsConfirmed := true }
      log := w.log ++ if registered then [.written] else [] }
  else w

/-- What is in the buffer is flushed. -/
def World.flush (rest : List Msg) (w : World) : World :=
  { w with
    proxy := { w.proxy with ptyBuffer := [], ptyFlushTimer := none }
    mailbox := rest
    log := w.log ++ [.flushed w.proxy.ptyBuffer] }

/-- The hand-off: what is in the buffer is flushed by a message of its own. -/
def World.handOff (rest : List Msg) (w : World) : World :=
  { w with
    proxy := { w.proxy with bootMode := false, ptyFlushTimer := none }
    mailbox := if w.proxy.ptyFlushTimer = none then rest else rest ++ [.flushPtyBuffer]
    timers := w.timers.filter fun t => some t.1 ≠ w.proxy.ptyFlushTimer
    subscribed := false }

/-- The default size is given, if there is a worker. -/
def World.size (registered : Bool) (rest : List Msg) (w : World) : World :=
  { w with
    proxy := { w.proxy with winsizePendingRef := none }
    mailbox := rest
    log := w.log ++ if w.proxy.bootMode && registered then [.resized] else [] }

/-- A browser attaches: the timer of the default size is not running after it. -/
def World.attach (rest : List Msg) (w : World) : World :=
  { w with
    proxy := { w.proxy with winsizePendingRef := none }
    mailbox := rest
    timers := w.timers.filter fun t => some t.1 ≠ w.proxy.winsizePendingRef
    log := w.log ++ [.attached] }

/-- A timer fires: its message arrives, and it is gone. -/
def World.expire (t : Ref × Msg) (w : World) : World :=
  { w with mailbox := w.mailbox ++ [t.2], timers := w.timers.filter fun t' => t'.1 ≠ t.1 }

section
variable {w w' : World} {m : Msg} {rest : List Msg} {registered : Bool} {data : Bytes} {ref : Ref}

theorem step_stdout (hbox : w.mailbox = .ptyStdout data :: rest) (hboot : w.proxy.bootMode = true) :
    w.step (.handle registered) = some ((w.arm.receive data rest).confirm registered) := by
  cases htimer : w.proxy.ptyFlushTimer <;> cases hflag : w.proxy.devChannelsConfirmed <;>
    cases hdialog : isDialog (strip (w.proxy.ptyBuffer ++ data)) <;> cases registered <;>
    simp [World.step, hbox, handleInfo, hboot, htimer, maybeConfirmDevChannels, hflag, hdialog,
      noted, World.apply, World.arm, World.receive, World.confirm]

/-- What a step does. -/
inductive Does (w : World) : Action → World → Prop
  | arrive {act : Action} {m : Msg} (hm : m ≠ .sendDefaultWinsize) :
      Does w act { w with mailbox := w.mailbox ++ [m] }
  | expire {t : Ref × Msg} (ht : t ∈ w.timers) : Does w (.fire t.1) (w.expire t)
  | ignore {registered : Bool} {m : Msg} {rest : List Msg} (hbox : w.mailbox = m :: rest)
      (hm : m ≠ .flushPtyBuffer) (hsid : m ≠ .ccMcpReady w.proxy.sessionId) :
      Does w (.handle registered) { w with mailbox := rest }
  | receive {registered : Bool} {data : Bytes} {rest : List Msg}
      (hbox : w.mailbox = .ptyStdout data :: rest) (hboot : w.proxy.bootMode = true) :
      Does w (.handle registered) ((w.arm.receive data rest).confirm registered)
  | flush {registered : Bool} {rest : List Msg} (hbox : w.mailbox = .flushPtyBuffer :: rest) :
      Does w (.handle registered) (w.flush rest)
  | handOff {registered : Bool} {rest : List Msg}
      (hbox : w.mailbox = .ccMcpReady w.proxy.sessionId :: rest) :
      Does w (.handle registered) (w.handOff rest)
  | size {registered : Bool} {rest : List Msg} (hbox : w.mailbox = .sendDefaultWinsize :: rest) :
      Does w (.handle registered) (w.size registered rest)
  | attach {registered : Bool} {rest : List Msg}
      (hbox : w.mailbox = .ptyAttach w.proxy.sessionId :: rest) :
      Does w (.handle registered) (w.attach rest)

theorem step_stdout_off (hbox : w.mailbox = .ptyStdout data :: rest)
    (hboot : w.proxy.bootMode = false) :
    w.step (.handle registered) = some { w with mailbox := rest } := by
  simp [World.step, hbox, handleInfo, hboot, noted]

theorem step_flush (hbox : w.mailbox = .flushPtyBuffer :: rest) :
    w.step (.handle registered) = some (w.flush rest) := by
  by_cases htext : flushText w.proxy.ptyBuffer = [] <;>
    simp [World.step, hbox, handleInfo, htext, noted, World.apply, World.flush]

theorem step_ready (hbox : w.mailbox = .ccMcpReady w.proxy.sessionId :: rest) :
    w.step (.handle registered) = some (w.handOff rest) := by
  cases htimer : w.proxy.ptyFlushTimer <;>
    simp [World.step, hbox, handleInfo, htimer, noted, World.apply, World.handOff]

theorem step_ready_other {sid : String} (hbox : w.mailbox = .ccMcpReady sid :: rest)
    (hsid : sid ≠ w.proxy.sessionId) :
    w.step (.handle registered) = some { w with mailbox := rest } := by
  simp [World.step, hbox, handleInfo, hsid, noted]

theorem step_winsize (hbox : w.mailbox = .sendDefaultWinsize :: rest) :
    w.step (.handle registered) = some (w.size registered rest) := by
  cases hboot : w.proxy.bootMode <;> cases registered <;>
    simp [World.step, hbox, handleInfo, hboot, noted, World.apply, World.size]

theorem step_attach (hbox : w.mailbox = .ptyAttach w.proxy.sessionId :: rest) :
    w.step (.handle registered) = some (w.attach rest) := by
  obtain ⟨⟨sessionId, ptyActorId, boot, buffer, flushTimer, flag, winsize⟩, _, _, _, _, _⟩ := w
  cases winsize <;> simp_all [World.step, handleInfo, noted, World.apply, World.attach]

theorem step_attach_other {sid : String} (hbox : w.mailbox = .ptyAttach sid :: rest)
    (hsid : sid ≠ w.proxy.sessionId) :
    w.step (.handle registered) = some { w with mailbox := rest } := by
  simp [World.step, hbox, handleInfo, hsid, noted]

theorem Does.of_step {act : Action} (hs : w.step act = some w') : Does w act w' := by
  cases act with
  | stdout data =>
    rw [World.step] at hs
    split at hs
    · obtain rfl := Option.some.inj hs
      exact .arrive (by simp)
    · cases hs
  | ready sid =>
    obtain rfl := Option.some.inj hs
    exact .arrive (by simp)
  | attach sid =>
    obtain rfl := Option.some.inj hs
    exact .arrive (by simp)
  | fire ref =>
    obtain ⟨t, ht, rfl⟩ := Option.map_eq_some_iff.mp hs
    obtain rfl : t.1 = ref := by simpa using List.find?_some ht
    exact .expire (List.mem_of_find?_eq_some ht)
  | handle registered =>
    cases hbox : w.mailbox with
    | nil =>
      rw [World.step, hbox] at hs
      cases hs
    | cons m rest =>
      cases m with
      | ptyStdout data =>
        cases hboot : w.proxy.bootMode with
        | true =>
          rw [step_stdout hbox hboot] at hs
          obtain rfl := Option.some.inj hs
          exact .receive hbox hboot
        | false =>
          rw [step_stdout_off hbox hboot] at hs
          obtain rfl := Option.some.inj hs
          exact .ignore hbox (by simp) (by simp)
      | flushPtyBuffer =>
        rw [step_flush hbox] at hs
        obtain rfl := Option.some.inj hs
        exact .flush hbox
      | ccMcpReady sid =>
        by_cases hsid : sid = w.proxy.sessionId
        · subst hsid
          rw [step_ready hbox] at hs
          obtain rfl := Option.some.inj hs
          exact .handOff hbox
        · rw [step_ready_other hbox hsid] at hs
          obtain rfl := Option.some.inj hs
          exact .ignore hbox (by simp) (by simpa using hsid)
      | sendDefaultWinsize =>
        rw [step_winsize hbox] at hs
        obtain rfl := Option.some.inj hs
        exact .size hbox
      | ptyAttach sid =>
        by_cases hsid : sid = w.proxy.sessionId
        · subst hsid
          rw [step_attach hbox] at hs
          obtain rfl := Option.some.inj hs
          exact .attach hbox
        · rw [step_attach_other hbox hsid] at hs
          obtain rfl := Option.some.inj hs
          exact .ignore hbox (by simp) (by simp)

end

/-! ## What every run keeps -/

/-- The chunks received, in the groups that were flushed together, and those in the buffer. -/
def Accounted (log : List Event) (buffer : Bytes) : Prop :=
  ∃ (groups : List (List Bytes)) (pending : List Bytes),
    received log = groups.flatten ++ pending ∧ flushed log = groups.map List.flatten ∧
      buffer = pending.flatten

theorem received_append (log log' : List Event) :
    received (log ++ log') = received log ++ received log' := List.filterMap_append

theorem flushed_append (log log' : List Event) :
    flushed (log ++ log') = flushed log ++ flushed log' := List.filterMap_append

namespace Accounted
variable {log : List Event} {buffer data : Bytes}

theorem receive (h : Accounted log buffer) :
    Accounted (log ++ [.received data]) (buffer ++ data) := by
  obtain ⟨groups, pending, hreceived, hflushed, hbuffer⟩ := h
  refine ⟨groups, pending ++ [data], ?_, ?_, ?_⟩
  · rw [received_append, hreceived, List.append_assoc]
    rfl
  · rw [flushed_append, hflushed]
    exact List.append_nil _
  · rw [hbuffer, List.flatten_append, List.flatten_singleton]

theorem flush (h : Accounted log buffer) : Accounted (log ++ [.flushed buffer]) [] := by
  obtain ⟨groups, pending, hreceived, hflushed, hbuffer⟩ := h
  refine ⟨groups ++ [pending], [], ?_, ?_, rfl⟩
  · rw [received_append, hreceived, List.flatten_append, List.flatten_singleton, List.append_nil]
    exact List.append_nil _
  · rw [flushed_append, hflushed, List.map_append, List.map_singleton, ← hbuffer]
    rfl

theorem other (h : Accounted log buffer) {log' : List Event} (hreceived : received log' = [])
    (hflushed : flushed log' = []) : Accounted (log ++ log') buffer := by
  rw [Accounted, received_append, flushed_append, hreceived, hflushed, List.append_nil,
    List.append_nil]
  exact h

end Accounted

/-- What holds in every state, whatever the steps were. -/
structure Inv (w : World) : Prop where
  chunks : Accounted w.log w.proxy.ptyBuffer
  timer : ∀ ref, w.proxy.ptyFlushTimer = some ref → w.proxy.bootMode = true →
    (ref, .flushPtyBuffer) ∈ w.timers ∨ .flushPtyBuffer ∈ w.mailbox
  buffered : w.proxy.ptyBuffer ≠ [] →
    w.proxy.bootMode = true ∧ w.proxy.ptyFlushTimer ≠ none ∨ .flushPtyBuffer ∈ w.mailbox
  /-- The first timer is that of the default size, and all others are those of flushes. -/
  timers : ∀ t ∈ w.timers, t.1 = 0 ∧ t.2 = .sendDefaultWinsize ∨ t.1 ≠ 0 ∧ t.2 = .flushPtyBuffer
  nextRef : w.nextRef ≠ 0
  flushRef : w.proxy.ptyFlushTimer ≠ some 0
  winsizeRef : ∀ ref, w.proxy.winsizePendingRef = some ref → ref = 0
  winsize : ∀ ref, (ref, .sendDefaultWinsize) ∈ w.timers →
    w.proxy.winsizePendingRef = some ref ∧ .sendDefaultWinsize ∉ w.mailbox
  written : .written ∈ w.log → w.proxy.devChannelsConfirmed = true
  once : w.log.count .written ≤ 1

section
variable {w w' : World} {m : Msg} {rest : List Msg} {registered : Bool} {data : Bytes} {ref : Ref}
variable {sessionId ptyActorId : String}

theorem inv_start : Inv (World.start sessionId ptyActorId) where
  chunks := ⟨[], [], rfl, rfl, rfl⟩
  timer := by
    intro ref href
    cases href
  buffered := fun hne => absurd rfl hne
  timers := by
    intro t ht
    obtain rfl := List.mem_singleton.mp ht
    exact .inl ⟨rfl, rfl⟩
  nextRef := Nat.one_ne_zero
  flushRef := by
    intro h
    cases h
  winsizeRef := fun ref href => (Option.some.inj href).symm
  winsize := by
    intro ref href
    obtain rfl := (Prod.mk.inj (List.mem_singleton.mp href)).1
    exact ⟨rfl, List.not_mem_nil⟩
  written := by
    intro h
    cases h
  once := Nat.zero_le _

theorem Inv.arrive (h : Inv w) (hm : m ≠ .sendDefaultWinsize) :
    Inv { w with mailbox := w.mailbox ++ [m] } :=
  { h with
    timer := fun ref href hboot => (h.timer ref href hboot).imp id (List.mem_append_left _)
    buffered := fun hne => (h.buffered hne).imp id (List.mem_append_left _)
    winsize := by
      intro ref href
      obtain ⟨hpending, hnot⟩ := h.winsize ref href
      refine ⟨hpending, fun hmem => ?_⟩
      rcases List.mem_append.mp hmem with hold | hnew
      · exact hnot hold
      · exact hm (List.mem_singleton.mp hnew).symm }

theorem Inv.not_mem_rest (h : Inv w) (hbox : w.mailbox = m :: rest)
    (href : (ref, .sendDefaultWinsize) ∈ w.timers) : .sendDefaultWinsize ∉ rest := by
  intro hmem
  refine (h.winsize ref href).2 ?_
  rw [hbox]
  exact List.mem_cons_of_mem _ hmem

theorem Inv.take (h : Inv w) (hbox : w.mailbox = m :: rest) (hm : m ≠ .flushPtyBuffer) :
    Inv { w with mailbox := rest } := by
  have hkept : .flushPtyBuffer ∈ w.mailbox → .flushPtyBuffer ∈ rest := by
    intro hmem
    rw [hbox] at hmem
    exact (List.mem_cons.mp hmem).resolve_left hm.symm
  exact { h with
    timer := fun ref href hboot => (h.timer ref href hboot).imp id hkept
    buffered := fun hne => (h.buffered hne).imp id hkept
    winsize := fun ref href => ⟨(h.winsize ref href).1, h.not_mem_rest hbox href⟩ }

theorem arm_of_none (h : w.proxy.ptyFlushTimer = none) : w.arm = { w with
    proxy := { w.proxy with ptyFlushTimer := some w.nextRef }
    timers := (w.nextRef, .flushPtyBuffer) :: w.timers
    nextRef := w.nextRef + 1 } := by
  rw [World.arm, h]

theorem arm_of_some (h : w.proxy.ptyFlushTimer = some ref) : w.arm = w := by
  rw [World.arm, h]

theorem arm_same : w.arm.log = w.log ∧ w.arm.mailbox = w.mailbox ∧
    w.arm.proxy.bootMode = w.proxy.bootMode ∧ w.arm.proxy.ptyBuffer = w.proxy.ptyBuffer ∧
    w.arm.proxy.devChannelsConfirmed = w.proxy.devChannelsConfirmed ∧
    w.arm.proxy.sessionId = w.proxy.sessionId ∧ w.arm.proxy.ptyFlushTimer ≠ none ∧
    ∀ ref, (ref, .sendDefaultWinsize) ∈ w.arm.timers → (ref, .sendDefaultWinsize) ∈ w.timers := by
  cases htimer : w.proxy.ptyFlushTimer with
  | none =>
    rw [arm_of_none htimer]
    refine ⟨rfl, rfl, rfl, rfl, rfl, rfl, Option.some_ne_none _, fun ref href => ?_⟩
    rcases List.mem_cons.mp href with heq | hold
    · cases (Prod.mk.inj heq).2
    · exact hold
  | some ref =>
    rw [arm_of_some htimer, htimer]
    exact ⟨rfl, rfl, rfl, rfl, rfl, rfl, Option.some_ne_none _, fun _ href => href⟩

theorem Inv.arm (h : Inv w) : Inv w.arm := by
  cases htimer : w.proxy.ptyFlushTimer with
  | some ref =>
    rw [arm_of_some htimer]
    exact h
  | none =>
    rw [arm_of_none htimer]
    exact { h with
      timer := by
        intro ref href _
        obtain rfl := Option.some.inj href
        exact .inl List.mem_cons_self
      buffered := by
        intro hne
        refine (h.buffered hne).imp (fun hboot => ⟨hboot.1, Option.some_ne_none _⟩) id
      timers := by
        intro t ht
        rcases List.mem_cons.mp ht with rfl | hold
        · exact .inr ⟨h.nextRef, rfl⟩
        · exact h.timers t hold
      nextRef := Nat.succ_ne_zero _
      flushRef := fun href => h.nextRef (Option.some.inj href)
      winsize := by
        intro ref href
        rcases List.mem_cons.mp href with heq | hold
        · cases (Prod.mk.inj heq).2
        · exact h.winsize ref hold }

theorem count_written_snoc {log : List Event} {e : Event} (he : e ≠ .written) :
    (log ++ [e]).count .written = log.count .written := by
  rw [List.count_append, List.count_singleton, if_neg (by simpa using he), Nat.add_zero]

theorem mem_written_snoc {log : List Event} {e : Event} (he : e ≠ .written)
    (h : .written ∈ log ++ [e]) : .written ∈ log := by
  rcases List.mem_append.mp h with hold | hnew
  · exact hold
  · exact absurd (List.mem_singleton.mp hnew).symm he

theorem Inv.receive (h : Inv w) (hbox : w.mailbox = .ptyStdout data :: rest)
    (hboot : w.proxy.bootMode = true) (htimer : w.proxy.ptyFlushTimer ≠ none) :
    Inv (w.receive data rest) := by
  have htaken : Inv { w with mailbox := rest } := h.take hbox (by simp)
  have hother : Event.received data ≠ .written := by
    intro heq
    cases heq
  exact { htaken with
    chunks := h.chunks.receive
    buffered := fun _ => .inl ⟨hboot, htimer⟩
    written := fun hmem => h.written (mem_written_snoc hother hmem)
    once := by
      rw [World.receive, count_written_snoc hother]
      exact h.once }

theorem Inv.confirm (h : Inv w) (registered : Bool) : Inv (w.confirm registered) := by
  rw [World.confirm]
  split
  · rename_i hcond
    have hnone : w.log.count .written = 0 := by
      rw [List.count_eq_zero]
      intro hmem
      cases hcond.1.symm.trans (h.written hmem)
    exact { h with
      chunks := h.chunks.other (by cases registered <;> rfl) (by cases registered <;> rfl)
      written := fun _ => rfl
      once := by
        rw [List.count_append, hnone, Nat.zero_add]
        cases registered <;> decide }
  · exact h

theorem Inv.flush (h : Inv w) (hbox : w.mailbox = m :: rest) : Inv (w.flush rest) := by
  have hother : Event.flushed w.proxy.ptyBuffer ≠ .written := by
    intro heq
    cases heq
  exact { h with
    chunks := h.chunks.flush
    timer := by
      intro ref href
      cases href
    buffered := fun hne => absurd rfl hne
    flushRef := by
      intro href
      cases href
    winsize := fun ref href => ⟨(h.winsize ref href).1, h.not_mem_rest hbox href⟩
    written := fun hmem => h.written (mem_written_snoc hother hmem)
    once := by
      rw [World.flush, count_written_snoc hother]
      exact h.once }

theorem Inv.handOff (h : Inv w) (hbox : w.mailbox = m :: rest) (hm : m ≠ .flushPtyBuffer) :
    Inv (w.handOff rest) := by
  have htaken : Inv { w with mailbox := rest } := h.take hbox hm
  exact { h with
    timer := by
      intro ref href
      cases href
    buffered := by
      intro hne
      right
      rw [World.handOff]
      split
      · rename_i hnone
        exact (htaken.buffered hne).resolve_left fun hboot => hboot.2 hnone
      · exact List.mem_append_right _ List.mem_cons_self
    timers := fun t ht => h.timers t (List.mem_of_mem_filter ht)
    flushRef := by
      intro href
      cases href
    winsize := by
      intro ref href
      obtain ⟨hpending, hnot⟩ := htaken.winsize ref (List.mem_of_mem_filter href)
      refine ⟨hpending, fun hmem => ?_⟩
      rw [World.handOff] at hmem
      split at hmem
      · exact hnot hmem
      · rcases List.mem_append.mp hmem with hold | hnew
        · exact hnot hold
        · cases List.mem_singleton.mp hnew }

theorem Inv.size (h : Inv w) (hbox : w.mailbox = .sendDefaultWinsize :: rest) (registered : Bool) :
    Inv (w.size registered rest) := by
  have htaken : Inv { w with mailbox := rest } := h.take hbox (by simp)
  have hnone : ∀ ref, (ref, .sendDefaultWinsize) ∉ w.timers := by
    intro ref href
    refine (h.winsize ref href).2 ?_
    rw [hbox]
    exact List.mem_cons_self
  have hlog : (w.size registered rest).log.count .written = w.log.count .written := by
    rw [World.size]
    split
    · exact count_written_snoc (by simp)
    · rw [List.append_nil]
  exact { htaken with
    chunks := h.chunks.other (by split <;> rfl) (by split <;> rfl)
    winsizeRef := by
      intro ref href
      cases href
    winsize := fun ref href => absurd href (hnone ref)
    written := by
      intro hmem
      refine h.written (List.count_pos_iff.mp ?_)
      rw [← hlog]
      exact List.count_pos_iff.mpr hmem
    once := by
      rw [hlog]
      exact h.once }

theorem Inv.no_winsize (h : Inv w) :
    (ref, .sendDefaultWinsize) ∉ w.timers.filter fun t => some t.1 ≠ w.proxy.winsizePendingRef := by
  intro hmem
  obtain ⟨href, hne⟩ := List.mem_filter.mp hmem
  exact of_decide_eq_true hne (h.winsize ref href).1.symm

theorem Inv.attach (h : Inv w) (hbox : w.mailbox = m :: rest) (hm : m ≠ .flushPtyBuffer) :
    Inv (w.attach rest) := by
  have htaken : Inv { w with mailbox := rest } := h.take hbox hm
  exact { htaken with
    chunks := h.chunks.other rfl rfl
    timer := by
      intro ref href hboot
      refine (htaken.timer ref href hboot).imp (fun hmem => ?_) id
      -- The timer of a flush is not the one that is cancelled.
      refine List.mem_filter.mpr ⟨hmem, decide_eq_true ?_⟩
      intro heq
      obtain rfl := h.winsizeRef ref heq.symm
      exact h.flushRef href
    timers := fun t ht => h.timers t (List.mem_of_mem_filter ht)
    winsizeRef := by
      intro ref href
      cases href
    winsize := fun ref href => absurd href h.no_winsize
    written := fun hmem => h.written (mem_written_snoc (by simp) hmem)
    once := by
      rw [World.attach, count_written_snoc (by simp)]
      exact h.once }

theorem Inv.expire (h : Inv w) {t : Ref × Msg} (ht : t ∈ w.timers) : Inv (w.expire t) :=
  { h with
    timer := by
      intro ref href hboot
      rcases h.timer ref href hboot with hrunning | hthere
      · by_cases heq : ref = t.1
        · right
          have hnot : ref ≠ 0 := fun hzero => h.flushRef (hzero ▸ href)
          have hmsg : t.2 = .flushPtyBuffer := by
            rcases h.timers t ht with ⟨hzero, -⟩ | ⟨-, hmsg⟩
            · exact absurd (heq.trans hzero) hnot
            · exact hmsg
          rw [World.expire, hmsg]
          exact List.mem_append_right _ List.mem_cons_self
        · exact .inl (List.mem_filter.mpr ⟨hrunning, decide_eq_true heq⟩)
      · exact .inr (List.mem_append_left _ hthere)
    buffered := fun hne => (h.buffered hne).imp id (List.mem_append_left _)
    timers := fun t' ht' => h.timers t' (List.mem_of_mem_filter ht')
    winsize := by
      intro ref href
      obtain ⟨hrunning, hne⟩ := List.mem_filter.mp href
      obtain ⟨hpending, hnot⟩ := h.winsize ref hrunning
      refine ⟨hpending, fun hmem => ?_⟩
      rcases List.mem_append.mp hmem with hold | hnew
      · exact hnot hold
      · -- Both are the timer of the default size, but one of them is gone.
        rcases h.timers t ht with ⟨hzero, -⟩ | ⟨-, hmsg⟩
        · exact of_decide_eq_true hne ((h.winsizeRef ref hpending).trans hzero.symm)
        · cases (List.mem_singleton.mp hnew).trans hmsg }

theorem Inv.step {act : Action} (h : Inv w) (hdoes : Does w act w') : Inv w' := by
  cases hdoes with
  | arrive hm => exact h.arrive hm
  | expire ht => exact h.expire ht
  | ignore hbox hm _ => exact h.take hbox hm
  | receive hbox hboot =>
    obtain ⟨-, hbox', hboot', -, -, -, htimer, -⟩ := @arm_same w
    exact (h.arm.receive (hbox'.trans hbox) (hboot'.trans hboot) htimer).confirm _
  | flush hbox => exact h.flush hbox
  | handOff hbox => exact h.handOff hbox (by simp)
  | size hbox => exact h.size hbox _
  | attach hbox => exact h.attach hbox (by simp)

end

/-! ## What the conditions add -/

/-- What holds in every state of a run whose steps meet the conditions. -/
structure Kept (w : World) : Prop where
  confirmed : isDialog (strip (received w.log).flatten) = true → .written ∈ w.log
  /-- Behind a browser no message of the default size comes before the hand-off. -/
  settled : .attached ∈ w.log → w.proxy.bootMode = true →
    resizeAhead w.proxy.sessionId w.mailbox = false ∧ ∀ ref, (ref, .sendDefaultWinsize) ∉ w.timers
  noResize : w.log.Pairwise fun before after => before = .attached → after ≠ .resized

section
variable {w w' : World} {m : Msg} {rest : List Msg} {registered : Bool} {data : Bytes} {ref : Ref}
variable {sessionId ptyActorId sid : String}

theorem kept_start : Kept (World.start sessionId ptyActorId) where
  confirmed := by
    intro h
    have hno : isDialog (strip []) = false := by
      rw [strip]
      decide +kernel
    exact absurd (hno.symm.trans h) Bool.false_ne_true
  settled := by
    intro h
    cases h
  noResize := .nil

theorem resizeAhead_snoc {box : List Msg} (hm : m ≠ .sendDefaultWinsize)
    (h : resizeAhead sid box = false) : resizeAhead sid (box ++ [m]) = false := by
  induction box with
  | nil => cases m <;> simp_all [resizeAhead]
  | cons m' box ih =>
    cases m' with
    | sendDefaultWinsize => cases h
    | ccMcpReady sid' =>
      rw [List.cons_append, resizeAhead]
      rw [resizeAhead] at h
      split
      · rfl
      · rename_i hsid
        rw [if_neg hsid] at h
        exact ih h
    | ptyStdout data | flushPtyBuffer | ptyAttach sid' => exact ih h

theorem resizeAhead_tail (hm : m ≠ .ccMcpReady sid) (h : resizeAhead sid (m :: rest) = false) :
    resizeAhead sid rest = false := by
  cases m with
  | sendDefaultWinsize => cases h
  | ccMcpReady sid' =>
    have hne : sid' ≠ sid := by
      rintro rfl
      exact hm rfl
    rw [resizeAhead, if_neg hne] at h
    exact h
  | ptyStdout data | flushPtyBuffer | ptyAttach sid' => exact h

theorem noResize_append {log log' : List Event}
    (h : log.Pairwise fun before after => before = .attached → after ≠ .resized)
    (hlog' : log'.Pairwise fun before after => before = .attached → after ≠ .resized)
    (hnew : .resized ∈ log' → .attached ∉ log) :
    (log ++ log').Pairwise fun before after => before = .attached → after ≠ .resized := by
  refine List.pairwise_append.mpr ⟨h, hlog', ?_⟩
  rintro before hbefore after hafter rfl rfl
  exact hnew hafter hbefore

theorem Kept.arrive (h : Kept w) (hm : m ≠ .sendDefaultWinsize) :
    Kept { w with mailbox := w.mailbox ++ [m] } where
  confirmed := h.confirmed
  settled := fun hattached hboot =>
    ⟨resizeAhead_snoc hm (h.settled hattached hboot).1, (h.settled hattached hboot).2⟩
  noResize := h.noResize

theorem Kept.take (h : Kept w) (hbox : w.mailbox = m :: rest)
    (hm : m ≠ .ccMcpReady w.proxy.sessionId) : Kept { w with mailbox := rest } where
  confirmed := h.confirmed
  settled := by
    intro hattached hboot
    obtain ⟨hahead, hnone⟩ := h.settled hattached hboot
    rw [hbox] at hahead
    exact ⟨resizeAhead_tail hm hahead, hnone⟩
  noResize := h.noResize

theorem Kept.expire (h : Kept w) {t : Ref × Msg} (ht : t ∈ w.timers) : Kept (w.expire t) where
  confirmed := h.confirmed
  settled := by
    intro hattached hboot
    obtain ⟨hahead, hnone⟩ := h.settled hattached hboot
    have hmsg : t.2 ≠ .sendDefaultWinsize := fun heq => hnone t.1 (heq ▸ ht)
    exact ⟨resizeAhead_snoc hmsg hahead, fun ref href => hnone ref (List.mem_of_mem_filter href)⟩
  noResize := h.noResize

theorem confirm_same (registered : Bool) : (w.confirm registered).mailbox = w.mailbox ∧
    (w.confirm registered).timers = w.timers ∧
    (w.confirm registered).proxy.bootMode = w.proxy.bootMode ∧
    (w.confirm registered).proxy.sessionId = w.proxy.sessionId ∧
    ∃ log', (w.confirm registered).log = w.log ++ log' ∧ ∀ e ∈ log', e = .written := by
  rw [World.confirm]
  split
  · refine ⟨rfl, rfl, rfl, rfl, _, rfl, fun e he => ?_⟩
    split at he
    · exact List.mem_singleton.mp he
    · cases he
  · exact ⟨rfl, rfl, rfl, rfl, [], (List.append_nil _).symm, fun e he => by cases he⟩

theorem written_of_dialog (hflag : w.proxy.devChannelsConfirmed = false)
    (hdialog : isDialog (strip w.proxy.ptyBuffer) = true) : .written ∈ (w.confirm true).log := by
  rw [World.confirm, if_pos ⟨hflag, hdialog⟩]
  exact List.mem_append_right _ List.mem_cons_self

theorem Kept.stdout (h : Kept w) (hbox : w.mailbox = .ptyStdout data :: rest)
    (hok : isDialog (strip ((received w.log).flatten ++ data)) = true → .written ∈ w.log ∨
      w.proxy.devChannelsConfirmed = false ∧
        isDialog (strip (w.proxy.ptyBuffer ++ data)) = true ∧ registered = true) :
    Kept ((w.arm.receive data rest).confirm registered) := by
  obtain ⟨hlog, -, hboot, hbuffer, hflag, hsid, -, htimers⟩ := @arm_same w
  have hlogReceive : (w.arm.receive data rest).log = w.log ++ [.received data] := by
    rw [World.receive, hlog]
  obtain ⟨hmailbox', htimers', hboot', hsid', log', hlog', hwritten⟩ :=
    @confirm_same (w.arm.receive data rest) registered
  rw [hlogReceive, List.append_assoc] at hlog'
  have hnew : ∀ e ∈ [.received data] ++ log', e ≠ .attached ∧ e ≠ .resized := by
    intro e he
    rcases List.mem_append.mp he with hhead | htail
    · rw [List.mem_singleton.mp hhead]
      exact ⟨by simp, by simp⟩
    · rw [hwritten e htail]
      exact ⟨by simp, by simp⟩
  have hreceived : received ([.received data] ++ log') = [data] := by
    have hnil : received log' = [] := by
      refine List.filterMap_eq_nil_iff.mpr fun e he => ?_
      rw [hwritten e he]
    rw [received_append, hnil]
    rfl
  exact {
    confirmed := by
      rw [hlog', received_append, hreceived, List.flatten_append, List.flatten_singleton]
      intro hdialog
      rcases hok hdialog with hold | ⟨hno, hbuf, rfl⟩
      · exact List.mem_append_left _ hold
      · rw [← hlog']
        refine written_of_dialog (hflag.trans hno) ?_
        change isDialog (strip (w.arm.proxy.ptyBuffer ++ data)) = true
        rw [hbuffer]
        exact hbuf
    settled := by
      intro hattached hbootAfter
      rw [hlog'] at hattached
      have hold : .attached ∈ w.log := by
        rcases List.mem_append.mp hattached with hold | hnewer
        · exact hold
        · exact absurd rfl (hnew _ hnewer).1
      rw [hboot'] at hbootAfter
      obtain ⟨hahead, hnone⟩ := h.settled hold (hboot.symm.trans hbootAfter)
      rw [hbox] at hahead
      rw [hsid', hmailbox', htimers']
      refine ⟨?_, fun ref href => hnone ref (htimers ref href)⟩
      change resizeAhead w.arm.proxy.sessionId rest = false
      rw [hsid]
      exact hahead
    noResize := by
      rw [hlog']
      refine noResize_append h.noResize ?_ fun hmem => absurd rfl (hnew _ hmem).2
      refine List.pairwise_iff_forall_sublist.mpr fun hsub hbefore => ?_
      exact absurd hbefore (hnew _ (hsub.subset List.mem_cons_self)).1 }

theorem Kept.confirmed_append (h : Kept w) {log' : List Event} (hnone : received log' = [])
    (hdialog : isDialog (strip (received (w.log ++ log')).flatten) = true) :
    .written ∈ w.log ++ log' := by
  rw [received_append, hnone, List.append_nil] at hdialog
  exact List.mem_append_left _ (h.confirmed hdialog)

theorem Kept.flush (h : Kept w) (hbox : w.mailbox = .flushPtyBuffer :: rest) :
    Kept (w.flush rest) := by
  have htaken : Kept { w with mailbox := rest } := h.take hbox (by simp)
  exact {
    confirmed := h.confirmed_append rfl
    settled := by
      intro hattached
      rcases List.mem_append.mp hattached with hold | hnew
      · exact htaken.settled hold
      · cases List.mem_singleton.mp hnew
    noResize := by
      refine noResize_append h.noResize (List.pairwise_singleton _ _) fun hmem => ?_
      cases List.mem_singleton.mp hmem }

theorem Kept.handOff (h : Kept w) (rest : List Msg) : Kept (w.handOff rest) where
  confirmed := h.confirmed
  settled := fun _ hboot => absurd hboot Bool.false_ne_true
  noResize := h.noResize

theorem Kept.size (h : Kept w) (hbox : w.mailbox = .sendDefaultWinsize :: rest)
    (registered : Bool) : Kept (w.size registered rest) := by
  have hbefore : w.proxy.bootMode = true → .attached ∉ w.log := by
    intro hboot hattached
    have hahead := (h.settled hattached hboot).1
    rw [hbox] at hahead
    cases hahead
  rw [World.size]
  cases hboot : w.proxy.bootMode && registered with
  | false =>
    rw [if_neg Bool.false_ne_true, List.append_nil]
    have htaken : Kept { w with mailbox := rest } := h.take hbox (by simp)
    exact ⟨htaken.confirmed, htaken.settled, htaken.noResize⟩
  | true =>
    have hon : w.proxy.bootMode = true := by
      rw [Bool.and_eq_true] at hboot
      exact hboot.1
    rw [if_pos rfl]
    exact {
      confirmed := h.confirmed_append rfl
      settled := by
        intro hattached
        rcases List.mem_append.mp hattached with hold | hnew
        · exact absurd hold (hbefore hon)
        · cases List.mem_singleton.mp hnew
      noResize := noResize_append h.noResize (List.pairwise_singleton _ _) fun _ => hbefore hon }

theorem Kept.attach (hinv : Inv w) (h : Kept w)
    (hok : w.proxy.bootMode = true → resizeAhead w.proxy.sessionId rest = false) :
    Kept (w.attach rest) where
  confirmed := h.confirmed_append rfl
  settled := fun _ hboot => ⟨hok hboot, fun _ => hinv.no_winsize⟩
  noResize := by
    refine noResize_append h.noResize (List.pairwise_singleton _ _) fun hmem => ?_
    cases List.mem_singleton.mp hmem

theorem Kept.step {act : Action} (hinv : Inv w) (h : Kept w) (hok : w.Meets act)
    (hdoes : Does w act w') : Kept w' := by
  cases hdoes with
  | arrive hm => exact h.arrive hm
  | expire ht => exact h.expire ht
  | ignore hbox _ hsid => exact h.take hbox hsid
  | receive hbox hboot =>
    rw [World.Meets, hbox] at hok
    exact h.stdout hbox (hok hboot)
  | flush hbox => exact h.flush hbox
  | handOff hbox => exact h.handOff _
  | size hbox => exact h.size hbox _
  | attach hbox =>
    rw [World.Meets, hbox] at hok
    exact h.attach hinv (hok rfl)

theorem Inv.coming (h : Inv w) (hne : w.proxy.ptyBuffer ≠ []) : .flushPtyBuffer ∈ w.mailbox ∨
    w.proxy.bootMode = true ∧ ∃ ref, (ref, .flushPtyBuffer) ∈ w.timers := by
  rcases h.buffered hne with ⟨hboot, htimer⟩ | hthere
  · obtain ⟨ref, href⟩ := Option.ne_none_iff_exists'.mp htimer
    exact (h.timer ref href hboot).symm.imp id fun hrunning => ⟨hboot, ref, hrunning⟩
  · exact .inl hthere

/-- **In every run whose steps all meet the conditions the boot is mirrored.** -/
theorem mirrored_of_meets (sessionId ptyActorId : String) (w : World)
    (hr : Reaches World.step World.Meets (World.start sessionId ptyActorId) w) : Mirrored w := by
  have hboth : Inv w ∧ Kept w := by
    refine @Reaches.invariant _ _ _ _ _ _ (fun w => Inv w ∧ Kept w) hr ⟨inv_start, kept_start⟩ ?_
    intro t act u h hok hs
    exact ⟨h.1.step (.of_step hs), h.2.step h.1 hok (.of_step hs)⟩
  obtain ⟨hinv, hkept⟩ := hboth
  exact ⟨hinv.chunks, hinv.coming, hinv.once, hkept.confirmed, hkept.noResize⟩

end

/-! ### A dialog in two chunks, and a browser that attaches late -/

theorem strip_plain {bs : Bytes} (h : ∀ b ∈ bs, b ≠ 0x1B ∧ b ≠ 0x7F) : strip bs = bs := by
  induction bs with
  | nil => rw [strip]
  | cons b rest ih =>
    obtain ⟨hesc, hdel⟩ := h b List.mem_cons_self
    have hrest := ih fun b' hb' => h b' (List.mem_cons_of_mem _ hb')
    cases rest with
    | nil => rw [strip, if_neg hdel]
    | cons next rest => rw [strip, if_neg hesc, if_neg hdel, hrest]

theorem reaches_split {sessionId ptyActorId : String} {first second : Bytes}
    (hfirst : isDialog (strip first) = false) (hsecond : isDialog (strip second) = false) :
    ∃ w, Reaches World.step anyStep (World.start sessionId ptyActorId) w ∧
      w.log = [.received first, .flushed first, .received second] := by
  have hrun : exec World.step anyStep (World.start sessionId ptyActorId)
      [.stdout first, .handle true, .fire 1, .handle true, .stdout second, .handle true] = some {
        World.start sessionId ptyActorId with
        proxy := { (World.start sessionId ptyActorId).proxy with
          ptyBuffer := second
          ptyFlushTimer := some 2 }
        timers := [(2, .flushPtyBuffer), (0, .sendDefaultWinsize)]
        nextRef := 3
        log := [.received first, .flushed first, .received second] } := by
    by_cases htext : flushText first = [] <;>
      simp [exec, anyStep, World.step, World.start, handleInfo, maybeConfirmDevChannels, hfirst,
        hsecond, htext, noted, World.apply]
  exact ⟨_, .of_exec hrun, rfl⟩

/-- The two texts of the dialog come in two chunks, with a flush between them. -/
theorem not_mirrored_split : ¬∀ (sessionId ptyActorId : String) (w : World),
    Reaches World.step anyStep (World.start sessionId ptyActorId) w → Mirrored w := by
  intro hall
  have hplain : ∀ b ∈ loadingChannels ++ localDevelopment, b ≠ 0x1B ∧ b ≠ 0x7F := by
    decide +kernel
  have hfirst : isDialog (strip loadingChannels) = false := by
    rw [strip_plain fun b hb => hplain b (List.mem_append_left _ hb)]
    decide +kernel
  have hsecond : isDialog (strip localDevelopment) = false := by
    rw [strip_plain fun b hb => hplain b (List.mem_append_right _ hb)]
    decide +kernel
  obtain ⟨w, hr, hlog⟩ := @reaches_split "s" "s" _ _ hfirst hsecond
  have hwritten := (hall "s" "s" w hr).confirmed
  rw [hlog] at hwritten
  have hboth : isDialog (strip (loadingChannels ++ localDevelopment)) = true := by
    rw [strip_plain hplain, isDialog, Bool.and_eq_true, decide_eq_true_eq, decide_eq_true_eq]
    exact ⟨(List.prefix_append _ _).isInfix, (List.suffix_append _ _).isInfix⟩
  rcases List.mem_cons.mp (hwritten hboth) with heq | hmem
  · cases heq
  · rcases List.mem_cons.mp hmem with heq | hmem
    · cases heq
    · cases List.mem_singleton.mp hmem

/-- A browser attaches before the timer of the default size fires. -/
theorem mirrored_attached : ∃ w, exec World.step anyStep (World.start "s" "s")
    [.attach "s", .handle true] = some w ∧ Mirrored w := by
  refine ⟨_, rfl, mirrored_of_meets "s" "s" _ ⟨[.attach "s", .handle true], ?_⟩⟩
  exact .cons trivial rfl (.cons (fun _ _ => rfl) rfl .nil)

end BootBridge
end Esr
