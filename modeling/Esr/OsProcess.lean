import Esr.Lines

/-! # The lines of a child process

The worker of `Esr.OSProcess` gets the output of its child in chunks, cuts what has come into
lines, with CR LF made LF, and gives each complete line to `handle_upstream/2` of its parent.
What is left of a chunk waits in a buffer for the next one.

The chunks do not matter (`upstream_handleAll`).  When the child has ended the worker gets
`:DOWN` or `:EXIT` and stops; only for `:DOWN` it gives the parent what is still in the
buffer first, so behind `:EXIT` a last line without a newline is lost (`framed_iff`).
-/
namespace Esr
namespace OsProcess
open Lines (cut cut_append cut_of_not_mem pieces rest isCut IsPiece)

abbrev Bytes := List UInt8

def cr : UInt8 := 0x0D

def lf : UInt8 := 0x0A

/-- `String.replace(buf, "\r\n", "\n")`. -/
def normalize : Bytes → Bytes
  | [] => []
  | b :: bs => if b = cr ∧ bs.head? = some lf then normalize bs else b :: normalize bs

/-- `:binary.split(bin, "\n")`. -/
def binarySplit : Bytes → Option (Bytes × Bytes)
  | [] => none
  | b :: bs => if b = lf then some ([], bs) else (binarySplit bs).map fun p => (b :: p.1, p.2)

theorem binarySplit_length {bin line tail : Bytes} (h : binarySplit bin = some (line, tail)) :
    tail.length < bin.length := by
  induction bin generalizing line with
  | nil => cases h
  | cons b bs ih =>
    rw [binarySplit] at h
    split at h
    · obtain ⟨-, rfl⟩ := Prod.mk.inj (Option.some.inj h)
      exact Nat.lt_succ_self _
    · obtain ⟨p, hp, hpair⟩ := Option.map_eq_some_iff.mp h
      obtain ⟨-, rfl⟩ := Prod.mk.inj hpair
      exact Nat.lt_succ_of_lt (ih hp)

/-- `do_split_lines/3`. -/
def doSplitLines (bin : Bytes) (acc : List Bytes) : List Bytes × Bytes :=
  match _h : binarySplit bin with
  | none => (acc.reverse, bin)
  | some (line, tail) => doSplitLines tail ((line ++ [lf]) :: acc)
termination_by bin.length
decreasing_by exact binarySplit_length ‹_›

/-- `split_lines/1`. -/
def splitLines (buf : Bytes) : List Bytes × Bytes := doSplitLines (normalize buf) []

/-! ## The worker -/

/-- The `reason` of `:DOWN` and `:EXIT`. -/
inductive Reason where
  | normal
  | exitStatus (n : Int)
  | other

/-- `reason_to_status/1`. -/
def reasonToStatus : Reason → Int
  | .normal => 0
  | .exitStatus n => n
  | .other => 1

inductive Message (M : Type) where
  | stdout (osPid : Nat) (data : Bytes)
  | stderr (osPid : Nat) (data : Bytes)
  | down (osPid : Nat) (reason : Reason)
  | exit (execPid : Nat) (reason : Reason)
  | other (msg : M)

inductive ExitAction (S R : Type) where
  | stop (reason : R)
  | restart (newState : S)

/-- The callbacks of the module that uses `Esr.OSProcess`.  The three results of
`handle_upstream/2` have a new state each; `none` is a result of `handle_downstream/2` that has
none, or no such callback. -/
structure Parent (S R M : Type) where
  handleUpstream : Bytes → S → S
  handleDownstream : Message M → S → Option S
  onOsExit : Int → S → ExitAction S R

/-- The worker's state, and the lines that it has given to `handle_upstream/2`. -/
structure Worker (S : Type) where
  state : S
  execPid : Nat
  osPid : Nat
  stdoutBuf : Bytes
  upstream : List Bytes

inductive StopReason (R : Type) where
  | parent (reason : R)
  | restartNotYetImplemented

/-- What a message is answered with. -/
inductive Answer (S R : Type) where
  | noreply (s : Worker S)
  | stop (reason : StopReason R) (s : Worker S)

variable {S R M : Type} (parent : Parent S R M)

/-- `dispatch_stdout/2`. -/
def dispatchStdout (s : Worker S) (line : Bytes) : Worker S :=
  { s with state := parent.handleUpstream line s.state, upstream := s.upstream ++ [line] }

/-- The clauses for `:stdout` and `:stderr`. -/
def handleOutput (data : Bytes) (s : Worker S) : Worker S :=
  let (lines, rest) := splitLines (s.stdoutBuf ++ data)
  { lines.foldl (dispatchStdout parent) s with stdoutBuf := rest }

/-- `on_os_exit/2`. -/
def handleExit (reason : Reason) (s : Worker S) : Answer S R :=
  match parent.onOsExit (reasonToStatus reason) s.state with
  | .stop stopReason => .stop (.parent stopReason) s
  | .restart _ => .stop .restartNotYetImplemented s

/-- `String.trim_trailing(buf, "\n")`. -/
def trimNewlines (buf : Bytes) : Bytes := (buf.reverse.dropWhile (· = lf)).reverse

/-- What is done with the rest of the buffer when `:DOWN` comes. -/
def flush (s : Worker S) : Worker S :=
  if trimNewlines s.stdoutBuf = [] then s
  else dispatchStdout parent { s with stdoutBuf := [] } (trimNewlines s.stdoutBuf)

/-- The last clause: the message goes to the parent. -/
def handleOther (msg : Message M) (s : Worker S) : Answer S R :=
  match parent.handleDownstream msg s.state with
  | some newState => .noreply { s with state := newState }
  | none => .noreply s

/-- `handle_info/2`. -/
def handleInfo (s : Worker S) : Message M → Answer S R
  | .stdout osPid data =>
      if osPid = s.osPid then .noreply (handleOutput parent data s)
      else handleOther parent (.stdout osPid data) s
  | .stderr osPid data =>
      if osPid = s.osPid then .noreply (handleOutput parent data s)
      else handleOther parent (.stderr osPid data) s
  | .down osPid reason =>
      if osPid = s.osPid then handleExit parent reason (flush parent s)
      else handleOther parent (.down osPid reason) s
  | .exit execPid reason =>
      if execPid = s.execPid then handleExit parent reason s
      else handleOther parent (.exit execPid reason) s
  | .other msg => handleOther parent (.other msg) s

/-- The worker after some messages, if it has not stopped. -/
def handleAll (s : Worker S) : List (Message M) → Option (Worker S)
  | [] => some s
  | msg :: msgs =>
      match handleInfo parent s msg with
      | .noreply s' => handleAll s' msgs
      | .stop _ _ => none

/-! ## Cutting -/

theorem binarySplit_eq_none {bin : Bytes} (h : binarySplit bin = none) : lf ∉ bin := by
  induction bin with
  | nil => exact List.not_mem_nil
  | cons b bs ih =>
    rw [binarySplit] at h
    split at h
    · cases h
    · rename_i hb
      simp only [List.mem_cons, not_or]
      exact ⟨Ne.symm hb, ih (by simpa using h)⟩

theorem binarySplit_eq_some {bin line tail : Bytes} (h : binarySplit bin = some (line, tail)) :
    lf ∉ line ∧ bin = line ++ lf :: tail := by
  induction bin generalizing line with
  | nil => cases h
  | cons b bs ih =>
    rw [binarySplit] at h
    split at h
    · rename_i hb
      obtain ⟨rfl, rfl⟩ := Prod.mk.inj (Option.some.inj h)
      exact ⟨List.not_mem_nil, by rw [hb]; rfl⟩
    · rename_i hb
      obtain ⟨p, hp, hpair⟩ := Option.map_eq_some_iff.mp h
      obtain ⟨rfl, rfl⟩ := Prod.mk.inj hpair
      obtain ⟨hline, hbs⟩ := ih hp
      simp only [List.mem_cons, not_or]
      exact ⟨⟨Ne.symm hb, hline⟩, by rw [hbs]; rfl⟩

theorem doSplitLines_eq (bin : Bytes) (acc : List Bytes) :
    doSplitLines bin acc = (acc.reverse ++ pieces lf bin, rest lf bin) := by
  induction bin, acc using doSplitLines.induct with
  | case1 bin acc hsplit =>
    have hcut := cut_of_not_mem (binarySplit_eq_none hsplit)
    rw [doSplitLines]
    split
    · rw [pieces, rest, hcut, List.append_nil]
    · rename_i hsome
      rw [hsplit] at hsome
      cases hsome
  | case2 bin acc line tail hsplit ih =>
    obtain ⟨hline, hbin⟩ := binarySplit_eq_some hsplit
    rw [doSplitLines]
    split
    · rename_i hnone
      rw [hsplit] at hnone
      cases hnone
    · rename_i line' tail' hsome
      rw [hsplit] at hsome
      obtain ⟨rfl, rfl⟩ := Prod.mk.inj (Option.some.inj hsome)
      have hcut := Lines.cut_append_mark hline tail
      have hpieces : pieces lf bin = (line ++ [lf]) :: pieces lf tail := by rw [hbin, pieces, hcut]
      have hrest : rest lf bin = rest lf tail := by rw [hbin, rest, hcut]
      rw [ih, hpieces, hrest, List.reverse_cons, List.append_assoc]
      rfl

/-- **The scanner cuts** what has come, normalized, behind its newlines. -/
theorem splitLines_eq (buf : Bytes) :
    splitLines buf = (pieces lf (normalize buf), rest lf (normalize buf)) := by
  rw [splitLines, doSplitLines_eq]
  rfl

/-! ## Chunks -/

theorem normalize_of_not_mem {bs : Bytes} (h : lf ∉ bs) : normalize bs = bs := by
  induction bs with
  | nil => rfl
  | cons b bs ih =>
    simp only [List.mem_cons, not_or] at h
    rw [normalize, if_neg, ih h.2]
    rintro ⟨-, hnext⟩
    exact h.2 (List.mem_of_head? hnext)

theorem normalize_lf (as bs : Bytes) :
    normalize (as ++ lf :: bs) = normalize (as ++ [lf]) ++ normalize bs := by
  induction as with
  | nil =>
    rw [List.nil_append, List.nil_append, normalize, normalize, if_neg fun h => absurd h.1 (by decide),
      if_neg fun h => absurd h.1 (by decide)]
    rfl
  | cons a as ih =>
    have hhead : (as ++ lf :: bs).head? = (as ++ [lf]).head? := by cases as <;> rfl
    rw [List.cons_append, List.cons_append, normalize, normalize, hhead]
    split
    · exact ih
    · rw [ih]
      rfl

theorem getLast?_normalize (as : Bytes) : (normalize (as ++ [lf])).getLast? = some lf := by
  induction as with
  | nil => rfl
  | cons a as ih =>
    rw [List.cons_append, normalize]
    split
    · exact ih
    · rw [List.getLast?_cons, ih]
      rfl

theorem cut_normalize (as : Bytes) {bs : Bytes} (h : lf ∉ bs) :
    cut lf (normalize (as ++ lf :: bs)) = (pieces lf (normalize (as ++ [lf])), bs) := by
  have hdone : rest lf (normalize (as ++ [lf])) = [] :=
    Lines.rest_eq_nil_iff.mpr (.inr (getLast?_normalize as))
  rw [normalize_lf, normalize_of_not_mem h, cut_append, hdone, List.nil_append, pieces, rest,
    pieces, cut_of_not_mem h, List.append_nil]

theorem last_lf {bs : Bytes} (h : lf ∈ bs) : ∃ as tail, bs = as ++ lf :: tail ∧ lf ∉ tail := by
  obtain ⟨tail, as, hrev, htail⟩ := List.eq_append_cons_of_mem (List.mem_reverse.mpr h)
  refine ⟨as.reverse, tail.reverse, ?_, fun hmem => htail (List.mem_reverse.mp hmem)⟩
  rw [← List.reverse_reverse bs, hrev]
  simp

/-- **What has come is normalized once**, but for the rest, which has no newline. -/
theorem cut_normalize_append (stream data : Bytes) : cut lf (normalize (stream ++ data)) =
    (pieces lf (normalize stream) ++ pieces lf (normalize (rest lf (normalize stream) ++ data)),
      rest lf (normalize (rest lf (normalize stream) ++ data))) := by
  by_cases hmem : lf ∈ stream
  · obtain ⟨as, tail, rfl, htail⟩ := last_lf hmem
    have hdone : rest lf (normalize (as ++ [lf])) = [] :=
      Lines.rest_eq_nil_iff.mpr (.inr (getLast?_normalize as))
    rw [pieces, rest, cut_normalize as htail, List.append_assoc, List.cons_append, normalize_lf,
      cut_append, hdone, List.nil_append]
  · have hcut := cut_of_not_mem hmem
    rw [normalize_of_not_mem hmem, pieces, rest, hcut, List.nil_append]
    rfl

theorem rest_normalize_iff {stream : Bytes} :
    rest lf (normalize stream) = [] ↔ stream = [] ∨ stream.getLast? = some lf := by
  by_cases hmem : lf ∈ stream
  · obtain ⟨as, tail, rfl, htail⟩ := last_lf hmem
    rw [rest, cut_normalize as htail]
    constructor
    · rintro rfl
      exact .inr (by simp)
    · rintro (hnil | hlast)
      · simp at hnil
      · by_contra hne
        rw [List.getLast?_append_of_ne_nil _ (by simp), List.getLast?_cons_of_ne_nil hne] at hlast
        exact htail (List.mem_of_getLast? hlast)
  · rw [normalize_of_not_mem hmem, Lines.rest_eq_nil_iff]

/-! ## The lines of a stream -/

/-- The bytes of the child that the messages bring. -/
def received (osPid : Nat) : List (Message M) → Bytes
  | [] => []
  | .stdout pid data :: msgs | .stderr pid data :: msgs =>
      if pid = osPid then data ++ received osPid msgs else received osPid msgs
  | _ :: msgs => received osPid msgs

/-- The stream has been given to the parent in lines, but for what is in the buffer. -/
structure UpTo (stream : Bytes) (s : Worker S) : Prop where
  upstream : s.upstream = pieces lf (normalize stream)
  buffer : s.stdoutBuf = rest lf (normalize stream)

variable {parent} {s s' : Worker S} {stream : Bytes}

theorem foldl_dispatchStdout (lines : List Bytes) (s : Worker S) :
    (lines.foldl (dispatchStdout parent) s).upstream = s.upstream ++ lines ∧
      (lines.foldl (dispatchStdout parent) s).osPid = s.osPid ∧
      (lines.foldl (dispatchStdout parent) s).execPid = s.execPid := by
  induction lines generalizing s with
  | nil => exact ⟨(List.append_nil _).symm, rfl, rfl⟩
  | cons line lines ih =>
    obtain ⟨hup, hos, hexec⟩ := ih (dispatchStdout parent s line)
    exact ⟨hup.trans (List.append_assoc ..), hos, hexec⟩

theorem UpTo.handleOutput (h : UpTo stream s) (data : Bytes) :
    UpTo (stream ++ data) (handleOutput parent data s) := by
  have hcut := cut_normalize_append stream data
  rw [OsProcess.handleOutput, splitLines_eq, h.buffer]
  constructor
  · show (List.foldl _ s _).upstream = (cut lf _).1
    rw [(foldl_dispatchStdout _ s).1, h.upstream, hcut]
  · show rest lf _ = (cut lf _).2
    rw [hcut]

/-- The worker keeps its child. -/
structure SameChild (s s' : Worker S) : Prop where
  osPid : s'.osPid = s.osPid
  execPid : s'.execPid = s.execPid

theorem handleOutput_sameChild (data : Bytes) (s : Worker S) :
    SameChild s (handleOutput parent data s) := by
  rw [handleOutput, splitLines_eq]
  obtain ⟨-, hos, hexec⟩ := @foldl_dispatchStdout S R M parent _ s
  exact ⟨hos, hexec⟩

theorem handleOther_noreply {msg : Message M} (h : handleOther parent msg s = .noreply s') :
    s'.upstream = s.upstream ∧ s'.stdoutBuf = s.stdoutBuf ∧ SameChild s s' := by
  rw [handleOther] at h
  split at h <;> obtain rfl := Answer.noreply.inj h <;> exact ⟨rfl, rfl, rfl, rfl⟩

theorem handleExit_stop (reason : Reason) (s : Worker S) :
    ∃ stopReason, handleExit parent reason s = .stop stopReason s := by
  rw [handleExit]
  split
  · exact ⟨_, rfl⟩
  · exact ⟨_, rfl⟩

/-- **One message.** -/
theorem UpTo.handleInfo (h : UpTo stream s) {msg : Message M}
    (hmsg : handleInfo parent s msg = .noreply s') :
    UpTo (stream ++ received s.osPid [msg]) s' ∧ SameChild s s' := by
  have hother : ∀ {msg : Message M}, received s.osPid [msg] = [] →
      handleOther parent msg s = .noreply s' →
        UpTo (stream ++ received s.osPid [msg]) s' ∧ SameChild s s' := by
    intro msg hnone hmsg
    obtain ⟨hup, hbuf, hsame⟩ := handleOther_noreply hmsg
    rw [hnone, List.append_nil]
    exact ⟨⟨by rw [hup, h.upstream], by rw [hbuf, h.buffer]⟩, hsame⟩
  have hexit : ∀ (reason : Reason) (t : Worker S), handleExit parent reason t ≠ .noreply s' := by
    intro reason t hnoreply
    obtain ⟨stopReason, hstop⟩ := @handleExit_stop S R M parent reason t
    rw [hstop] at hnoreply
    cases hnoreply
  cases msg with
  | stdout pid data | stderr pid data =>
    rw [OsProcess.handleInfo] at hmsg
    split at hmsg
    · rename_i hpid
      obtain rfl := Answer.noreply.inj hmsg
      rw [received, if_pos hpid, received, List.append_nil]
      exact ⟨h.handleOutput data, handleOutput_sameChild data s⟩
    · rename_i hpid
      exact hother (by rw [received, if_neg hpid, received]) hmsg
  | down pid reason | exit pid reason =>
    rw [OsProcess.handleInfo] at hmsg
    split at hmsg
    · exact absurd hmsg (hexit _ _)
    · exact hother rfl hmsg
  | other msg => exact hother rfl hmsg

theorem received_append (osPid : Nat) (msgs msgs' : List (Message M)) :
    received osPid (msgs ++ msgs') = received osPid msgs ++ received osPid msgs' := by
  induction msgs with
  | nil => rfl
  | cons msg msgs ih =>
    cases msg with
    | stdout pid data | stderr pid data =>
      rw [List.cons_append, received, received, ih]
      split
      · rw [List.append_assoc]
      · rfl
    | _ => exact ih

/-- **Some messages**, in chunks of any size. -/
theorem UpTo.handleAll (h : UpTo stream s) {msgs : List (Message M)}
    (hmsgs : handleAll parent s msgs = some s') :
    UpTo (stream ++ received s.osPid msgs) s' ∧ SameChild s s' := by
  induction msgs generalizing s stream with
  | nil =>
    obtain rfl := Option.some.inj hmsgs
    rw [received, List.append_nil]
    exact ⟨h, rfl, rfl⟩
  | cons msg msgs ih =>
    rw [OsProcess.handleAll] at hmsgs
    split at hmsgs
    · rename_i t ht
      obtain ⟨hone, hsame⟩ := h.handleInfo ht
      obtain ⟨hall, hsame'⟩ := ih hone hmsgs
      rw [hsame.osPid] at hall
      have hsplit : msg :: msgs = [msg] ++ msgs := rfl
      rw [hsplit, received_append, ← List.append_assoc]
      exact ⟨hall, hsame'.osPid.trans hsame.osPid, hsame'.execPid.trans hsame.execPid⟩
    · cases hmsgs

/-! ## The end of the child -/

/-- Either kind of exit notification. -/
inductive Notification where
  | down (reason : Reason)
  | exit (reason : Reason)

/-- The message that the worker gets. -/
def Notification.message (s : Worker S) : Notification → Message M
  | down reason => .down s.osPid reason
  | exit reason => .exit s.execPid reason

/-- Lines of a text: each but the last has a newline at its end, and none has one elsewhere. -/
structure Framed (text : Bytes) (lines : List Bytes) : Prop where
  whole : lines.flatten = text
  ended : ∀ line ∈ lines.dropLast, IsPiece lf line
  single : ∀ line ∈ lines, lf ∉ line.dropLast ∧ line ≠ []

/-- A worker whose child has just been started. -/
structure Started (s : Worker S) : Prop where
  upstream : s.upstream = []
  buffer : s.stdoutBuf = []

/-- The worker is given the messages, and then the notification, at which it stops. -/
def Ends (parent : Parent S R M) (s : Worker S) (msgs : List (Message M)) (n : Notification)
    (u : Worker S) : Prop :=
  ∃ t reason, handleAll parent s msgs = some t ∧ handleInfo parent t (n.message t) = .stop reason u

/-- The lines that a stream comes to. -/
def linesOf (stream : Bytes) : Notification → List Bytes
  | .down _ =>
      if rest lf (normalize stream) = [] then pieces lf (normalize stream)
      else pieces lf (normalize stream) ++ [rest lf (normalize stream)]
  | .exit _ => pieces lf (normalize stream)

theorem trimNewlines_of_not_mem {buf : Bytes} (h : lf ∉ buf) : trimNewlines buf = buf := by
  have hnone : buf.reverse.dropWhile (· = lf) = buf.reverse := by
    rcases hrev : buf.reverse with _ | ⟨b, bs⟩
    · rfl
    · refine List.dropWhile_cons_of_neg ?_
      have hmem : b ∈ buf := List.mem_reverse.mp (by rw [hrev]; exact List.mem_cons_self)
      simpa using fun hb : b = lf => h (hb ▸ hmem)
  rw [trimNewlines, hnone, List.reverse_reverse]

/-- **The lines at the end** are those of the stream, whatever the chunks are. -/
theorem upstream_ends {msgs : List (Message M)} {n : Notification} {u : Worker S} (hs : Started s)
    (h : Ends parent s msgs n u) : u.upstream = linesOf (received s.osPid msgs) n := by
  obtain ⟨t, reason, ht, hstop⟩ := h
  have hstart : UpTo [] s := ⟨hs.upstream, hs.buffer⟩
  obtain ⟨hupTo, -⟩ := hstart.handleAll ht
  rw [List.nil_append] at hupTo
  have hcut : lf ∉ t.stdoutBuf := by
    rw [hupTo.buffer]
    exact (isCut _).unmarked
  cases n with
  | down r =>
    rw [Notification.message, handleInfo, if_pos rfl] at hstop
    obtain ⟨stopReason, hexit⟩ := @handleExit_stop S R M parent r (flush parent t)
    rw [hexit] at hstop
    obtain ⟨-, rfl⟩ := Answer.stop.inj hstop
    rw [flush, trimNewlines_of_not_mem hcut, linesOf, hupTo.buffer]
    split
    · exact hupTo.upstream
    · rw [dispatchStdout]
      exact congrArg (· ++ _) hupTo.upstream
  | exit r =>
    rw [Notification.message, handleInfo, if_pos rfl] at hstop
    obtain ⟨stopReason, hexit⟩ := @handleExit_stop S R M parent r t
    rw [hexit] at hstop
    obtain ⟨-, rfl⟩ := Answer.stop.inj hstop
    exact hupTo.upstream

theorem framed_pieces (text : Bytes) :
    Framed text (pieces lf text) ↔ rest lf text = [] := by
  have hcut : Lines.IsCut lf text (pieces lf text) (rest lf text) := isCut text
  constructor
  · intro h
    have hwhole := hcut.whole
    rw [h.whole] at hwhole
    exact List.append_right_eq_self.mp hwhole
  · intro hrest
    have hwhole := hcut.whole
    rw [hrest, List.append_nil] at hwhole
    refine ⟨hwhole, fun line hline => hcut.complete line (List.dropLast_subset _ hline), ?_⟩
    intro line hline
    obtain ⟨body, hbody, rfl⟩ := hcut.complete line hline
    exact ⟨by simpa using hbody, by simp⟩

theorem framed_rest {text : Bytes} (hrest : rest lf text ≠ []) :
    Framed text (pieces lf text ++ [rest lf text]) := by
  have hcut : Lines.IsCut lf text (pieces lf text) (rest lf text) := isCut text
  refine ⟨by rw [List.flatten_append, List.flatten_singleton, hcut.whole], ?_, fun line hline => ?_⟩
  · rw [List.dropLast_concat]
    exact hcut.complete
  · rcases List.mem_append.mp hline with hline | hline
    · obtain ⟨body, hbody, rfl⟩ := hcut.complete line hline
      exact ⟨by simpa using hbody, by simp⟩
    · obtain rfl := List.mem_singleton.mp hline
      exact ⟨fun hmem => hcut.unmarked (List.dropLast_subset _ hmem), hrest⟩

/-- **The lines are those of the whole stream exactly when** `:DOWN` tells of the end, or the
stream ends in a newline; for either notification they do not depend on the chunks. -/
theorem framed_iff {msgs : List (Message M)} {n : Notification} {u : Worker S} (hs : Started s)
    (h : Ends parent s msgs n u) :
    (Framed (normalize (received s.osPid msgs)) u.upstream ∧
      ∀ msgs' u', received s.osPid msgs' = received s.osPid msgs → Ends parent s msgs' n u' →
        u'.upstream = u.upstream) ↔
      (∃ reason, n = .down reason) ∨ received s.osPid msgs = [] ∨
        (received s.osPid msgs).getLast? = some lf := by
  have hsame : ∀ msgs' u', received s.osPid msgs' = received s.osPid msgs → Ends parent s msgs' n u' →
      u'.upstream = u.upstream := by
    intro msgs' u' hstream h'
    rw [upstream_ends hs h, upstream_ends hs h', hstream]
  rw [and_iff_left hsame, upstream_ends hs h]
  cases n with
  | down reason =>
    refine iff_of_true ?_ (.inl ⟨reason, rfl⟩)
    rw [linesOf]
    split
    · rename_i hrest
      exact (framed_pieces _).mpr hrest
    · rename_i hrest
      exact framed_rest hrest
  | exit reason =>
    rw [linesOf, framed_pieces, rest_normalize_iff]
    exact ⟨.inr, fun hor => hor.resolve_left nofun⟩

/-- A parent that does nothing with the lines. -/
def quiet : Parent Unit Unit Unit where
  handleUpstream _ _ := ()
  handleDownstream _ _ := none
  onOsExit _ _ := .stop ()

/-- A child that has written `o` and `k`, in two chunks. -/
def ok (s : Worker Unit) : List (Message Unit) :=
  [.stdout s.osPid [0x6F], .stdout s.osPid [0x6B]]

def child : Worker Unit := ⟨(), 1, 7, [], []⟩

theorem handleAll_ok : handleAll quiet child (ok child) = some { child with stdoutBuf := [0x6F, 0x6B] } := by
  have hfirst : handleOutput quiet [0x6F] child = { child with stdoutBuf := [0x6F] } := by
    rw [handleOutput, splitLines_eq]
    rfl
  have hsecond : handleOutput quiet [0x6B] { child with stdoutBuf := [0x6F] } =
      { child with stdoutBuf := [0x6F, 0x6B] } := by
    rw [handleOutput, splitLines_eq]
    rfl
  rw [ok, handleAll, handleInfo, if_pos rfl, hfirst]
  dsimp only
  rw [handleAll, handleInfo, if_pos rfl, hsecond]
  rfl

theorem framed_down : Started child ∧ ∃ u, Ends quiet child (ok child) (.down .normal) u ∧
    Framed (normalize (received child.osPid (ok child))) u.upstream := by
  have hends : Ends quiet child (ok child) (.down .normal)
      { child with upstream := [[0x6F, 0x6B]] } := ⟨_, _, handleAll_ok, rfl⟩
  exact ⟨⟨rfl, rfl⟩, _, hends, ((framed_iff ⟨rfl, rfl⟩ hends).mpr (.inl ⟨_, rfl⟩)).1⟩

/-- The same child, with `:EXIT`: its only line is lost. -/
theorem not_framed_exit : Started child ∧ ∃ u, Ends quiet child (ok child) (.exit .normal) u ∧
    ¬Framed (normalize (received child.osPid (ok child))) u.upstream := by
  refine ⟨⟨rfl, rfl⟩, _, ⟨_, _, handleAll_ok, rfl⟩, fun h => ?_⟩
  have hwhole := h.whole
  revert hwhole
  decide

end OsProcess
end Esr
