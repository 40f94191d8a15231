import Esr.AgentDeath
import Esr.MediaFiles

/-! # The send_file tool

A call of `send_file` names a file for the chat.  The proxy guesses the media type from
the extension, asks whether the adapter of the channel takes such media, stores the file
and only then looks at the path: it has to be absolute and without `..`, and the file may
not be too large.  The directive with the content is sent behind all of that.

A call that is answered with an error has sent nothing; `cleanlyRejects_iff` says which of
them leave no file in the store.
-/
namespace Esr
namespace SendFile
open Yaml MediaStore
open MediaFiles (Local Files Io Adds Placed TidyErrors Finishes place store)
open EntityServer (Pid)
open FeishuChatProxy (Env State Effect replyToolResult argOr)

/-- `infer_media_type/1`. -/
def inferMediaType (path : String) : Option String :=
  let ext := Uri.downcase (extname path)
  if ext = "" ∨ ext = "." then none
  else if ext ∈ [".png", ".jpg", ".jpeg", ".gif", ".webp", ".heic"] then some "image"
  else some "file"

/-- The reasons that the caller is told. -/
inductive Reason where
  | store (e : MediaFiles.Error)
  | emptyPath
  | pathNotAbsolute
  | pathContainsTraversal
  | enoent
  | unreadable
  | tooLarge (size : Nat)

/-- What the proxy finds: the runtime it is in, the adapter of its channel, the media that
each plugin takes, Jason's text of the metadata for a session and a chat, if it has one,
`Base.encode64/1` and `Kernel.inspect/1`. -/
structure Site where
  here : Local
  channelAdapter : String
  supportsOutbound : String → String → Bool
  encode : String → Value → Option Bytes
  encode64 : Bytes → String
  inspect : Reason → String

/-- The name that the manifests of plugins have for an adapter. -/
def normalized (pluginName : String) : String :=
  if "_app".toList.isSuffixOf pluginName.toList then
    String.ofList (pluginName.toList.take (pluginName.toList.length - 4))
  else pluginName

/-- `check_outbound_capability/2`. -/
def Site.checkOutboundCapability (site : Site) (mediaType : String) : Bool :=
  site.supportsOutbound (normalized site.channelAdapter) mediaType

/-- `@send_file_max_bytes`. -/
def sendFileMaxBytes : Nat := 30 * 1024 * 1024

/-- `read_file_for_send/1`: the name of the file and its content. -/
def readFileForSend (w : World) (path : String) : Except Reason (String × Bytes) :=
  if path = "" then .error .emptyPath
  else if Path.isAbsolute path = false then .error .pathNotAbsolute
  else if ['.', '.'] <:+: path.toList then .error .pathContainsTraversal
  else
    match w.stat path with
    | none => .error .enoent
    | some .dir => .error .unreadable
    | some (.file content) =>
        if content.length ≤ sendFileMaxBytes then .ok (Path.basename path, content)
        else .error (.tooLarge content.length)

/-- `"store_or_read_failed"`. -/
def Site.failed (site : Site) (reason : Reason) : Entries :=
  [(.str "detail", .str (site.inspect reason)), (.str "type", .str "store_or_read_failed")]

/-- What there is around one call: the files when the source is stored, those when it is read
again, and the answers of the system. -/
structure Call where
  first : World
  again : World
  io : Io

/-- What a call comes to with what `store/3` returns; `none` is a raise. -/
def answer (site : Site) (c : Call) (path : String) (chatId : Value) :
    MediaFiles.Outcome → Option (Except Entries Entries)
  | .error (.refused .unsupportedExt) => some (.error [(.str "type", .str "unsupported_ext")])
  | .error e => some (.error (site.failed (.store e)))
  | .raised => none
  | .ok stored =>
      match readFileForSend c.again path with
      | .error reason => some (.error (site.failed reason))
      | .ok (fileName, content) =>
          some (.ok [(.str "chat_id", chatId),
            (.str "content_b64", .str (site.encode64 content)), (.str "file_name", .str fileName),
            (.str "sha256", .str stored.sha256)])

/-- What becomes of the file of a call, and of the store. -/
def sendFile (site : Site) (c : Call) (sessionId path : String) (chatId : Value) (files : Files) :
    Option (Except Entries Entries) × Files :=
  match inferMediaType path with
  | none => (some (.error [(.str "type", .str "no_extension")]), files)
  | some mediaType =>
      if site.checkOutboundCapability mediaType then
        let (outcome, files) :=
          store site.here c.first c.io (site.encode sessionId chatId) mediaType path files
        (answer site c path chatId outcome, files)
      else
        (some (.error [(.str "kind", .str mediaType), (.str "type", .str "unsupported_outbound")]),
          files)

/-- The file of a call, for the dispatch; a path that is no text raises. -/
def fileOf (site : Site) (c : Call) (sessionId : String) (files : Files) : AgentDeath.SendFile
  | .str path, chatId => (sendFile site c sessionId path chatId files).1
  | _, _ => none

/-- The store after the call. -/
def filesAfter (site : Site) (c : Call) (s : State) (files : Files) : Value → Files
  | .map args =>
      match argOr "file_path" (.str "") args with
      | .str path =>
          (sendFile site c s.sessionId path (argOr "chat_id" (.str s.chatId) args) files).2
      | _ => files
  | _ => files

/-- `dispatch_tool_invoke("send_file", ...)`. -/
def dispatch (env : Env) (site : Site) (c : Call) (s : State) (reqId args : Value)
    (channelPid : Pid) (files : Files) : FeishuChatProxy.Outcome × Files :=
  (AgentDeath.dispatchToolInvoke env (fileOf site c s.sessionId files) s (.str "send_file") reqId
    args channelPid, filesAfter site c s files args)

/-! ## Rejections -/

/-- The call is answered with an error. -/
def Rejected (reqId : Value) (channelPid : Pid) (effects : List Effect) : Prop :=
  ∃ error, replyToolResult channelPid reqId false .null error ∈ effects

/-- **A call that is rejected stores nothing and sends nothing.** -/
def CleanlyRejects (env : Env) (site : Site) (c : Call) (s : State) (reqId args : Value)
    (channelPid : Pid) (files : Files) : Prop :=
  Rejected reqId channelPid (dispatch env site c s reqId args channelPid files).1.effects →
    ¬ Adds files (dispatch env site c s reqId args channelPid files).2 ∧
      ReplyTool.outbounds (dispatch env site c s reqId args channelPid files).1.effects = []

/-- The path and the file are such that they can be sent. -/
structure Sendable (w : World) (path : String) : Prop where
  absolute : Path.isAbsolute path = true
  noTraversal : ¬ ['.', '.'] <:+: path.toList
  small : ∃ content, w.stat path = some (.file content) ∧ content.length ≤ sendFileMaxBytes

section
variable {site : Site} {c : Call} {sessionId path mediaType : String} {chatId : Value}
  {files : Files}

theorem readFileForSend_isOk {w : World} :
    (∃ file, readFileForSend w path = .ok file) ↔ Sendable w path := by
  have hempty : Path.isAbsolute "" = false := by decide
  rw [readFileForSend]
  constructor
  · rintro ⟨file, h⟩
    split_ifs at h with hne habsolute hinfix
    split at h
    · cases h
    · cases h
    · rename_i content hstat
      split_ifs at h with hsmall
      exact ⟨by simpa using habsolute, hinfix, content, hstat, hsmall⟩
  · rintro ⟨habsolute, hinfix, content, hstat, hsmall⟩
    have hne : path ≠ "" := by
      rintro rfl
      rw [hempty] at habsolute
      cases habsolute
    rw [if_neg hne, if_neg (by simp [habsolute]), if_neg hinfix, hstat]
    exact ⟨_, if_pos hsmall⟩

theorem answer_error {outcome : MediaFiles.Outcome} :
    (∃ error, answer site c path chatId outcome = some (.error error)) ↔
      (∃ e, outcome = .error e) ∨ (∃ stored, outcome = .ok stored) ∧ ¬ Sendable c.again path := by
  rw [← readFileForSend_isOk]
  rcases outcome with stored | e | _
  · rw [answer]
    cases hread : readFileForSend c.again path with
    | error reason => simp
    | ok file => simp
  · refine iff_of_true ?_ (.inl ⟨e, rfl⟩)
    rcases e with (_ | _ | _) | _ | _ | _ <;> exact ⟨_, rfl⟩
  · simp [answer]

/-- **Which calls for a medium leave no file where they are told an error.** -/
theorem answer_clean {w : World} {l : Local} {io : Io} {line : Option Bytes} {m : Medium}
    (hv : m.Valid w) :
    ((∃ error, answer site c path chatId (place l io line m files).1 = some (.error error)) →
        ¬ Adds files (place l io line m files).2) ↔
      TidyErrors l io line m files ∧
        (Finishes l io line m files → Sendable c.again path ∨
          files.lookup (l.dest m).file ≠ none ∧ files.lookup (l.refs m).file ≠ none) := by
  have hadds : Finishes l io line m files → (¬ Adds files (place l io line m files).2 ↔
      files.lookup (l.dest m).file ≠ none ∧ files.lookup (l.refs m).file ≠ none) := by
    intro hfinishes
    rw [MediaFiles.adds_of_finishes hv hfinishes, not_or]
  rw [answer_error, ← MediaFiles.place_error hv]
  constructor
  · intro h
    refine ⟨fun e he => h (.inl ⟨e, he⟩), fun hfinishes => ?_⟩
    by_cases hsend : Sendable c.again path
    · exact .inl hsend
    · obtain ⟨stored, hok⟩ := MediaFiles.ok_of_finishes hv hfinishes
      exact .inr ((hadds hfinishes).mp (h (.inr ⟨⟨stored, hok⟩, hsend⟩)))
  · rintro ⟨herror, hsends⟩ (⟨e, he⟩ | ⟨⟨stored, hok⟩, hnot⟩)
    · exact herror e he
    · have hfinishes := MediaFiles.finishes_of_ok hv hok
      exact (hadds hfinishes).mpr ((hsends hfinishes).resolve_left hnot)

theorem sendFile_clean (site : Site) (c : Call) (sessionId path : String) (chatId : Value)
    (files : Files) :
    ((∃ error, (sendFile site c sessionId path chatId files).1 = some (.error error)) →
        ¬ Adds files (sendFile site c sessionId path chatId files).2) ↔
      ∀ mediaType m, inferMediaType path = some mediaType →
        site.checkOutboundCapability mediaType = true →
        exCheck c.first mediaType path = .ok m → c.io.mkdir = true →
        TidyErrors site.here c.io (site.encode sessionId chatId) m files ∧
          (Finishes site.here c.io (site.encode sessionId chatId) m files →
            Sendable c.again path ∨ files.lookup (site.here.dest m).file ≠ none ∧
              files.lookup (site.here.refs m).file ≠ none) := by
  by_cases hgoes : ∃ mediaType m, inferMediaType path = some mediaType ∧
      site.checkOutboundCapability mediaType = true ∧
      exCheck c.first mediaType path = .ok m ∧ c.io.mkdir = true
  · obtain ⟨mediaType, m, hinfer, hcap, hm, hmkdir⟩ := hgoes
    obtain ⟨hv, -, -⟩ := MediaFiles.of_exCheck hm
    have hsend : sendFile site c sessionId path chatId files =
        (answer site c path chatId
          (place site.here c.io (site.encode sessionId chatId) m files).1,
          (place site.here c.io (site.encode sessionId chatId) m files).2) := by
      unfold sendFile
      rw [hinfer]
      dsimp only
      rw [if_pos hcap, MediaFiles.store_eq_place hm hmkdir]
    rw [hsend, answer_clean hv]
    constructor
    · intro h mediaType' m' hinfer' _ hm' _
      obtain rfl := Option.some.inj (hinfer.symm.trans hinfer')
      obtain rfl := Except.ok.inj (hm.symm.trans hm')
      exact h
    · exact fun h => h mediaType m hinfer hcap hm hmkdir
  · have hfiles : (sendFile site c sessionId path chatId files).2 = files := by
      unfold sendFile
      cases hinfer : inferMediaType path with
      | none => rfl
      | some mediaType =>
        dsimp only
        by_cases hcap : site.checkOutboundCapability mediaType = true
        · obtain ⟨e, he⟩ : ∃ e, store site.here c.first c.io (site.encode sessionId chatId)
              mediaType path files = (.error e, files) :=
            MediaFiles.store_refused fun m hm hmkdir =>
              hgoes ⟨mediaType, m, hinfer, hcap, hm, hmkdir⟩
          rw [if_pos hcap, he]
        · rw [if_neg hcap]
    constructor
    · intro _ mediaType m hinfer hcap hm hmkdir
      exact (hgoes ⟨mediaType, m, hinfer, hcap, hm, hmkdir⟩).elim
    · intro _ _
      rw [hfiles]
      exact MediaFiles.not_adds_self

variable {env : Env} {s : State} {reqId args : Value} {channelPid : Pid}

theorem dispatch_text {entries : Entries}
    (hpath : argOr "file_path" (.str "") entries = .str path) :
    dispatch env site c s reqId (.map entries) channelPid files =
      let r := sendFile site c s.sessionId path (argOr "chat_id" (.str s.chatId) entries) files
      (match r.1 with
        | some (.ok fileArgs) =>
            ⟨(FeishuChatProxy.emitToFeishuAppProxy env s
              [(.str "args", .map fileArgs), (.str "kind", .str "send_file")]).1 ++
                [replyToolResult channelPid reqId true (.map [(.str "dispatched", .bool true)])
                  .null], some s⟩
        | some (.error error) =>
            ⟨[replyToolResult channelPid reqId false .null (.map error)], some s⟩
        | none => .raised, r.2) := by
  have hfile : fileOf site c s.sessionId files (argOr "file_path" (.str "") entries)
      (argOr "chat_id" (.str s.chatId) entries) =
        (sendFile site c s.sessionId path (argOr "chat_id" (.str s.chatId) entries) files).1 := by
    rw [hpath]
    rfl
  have hafter : filesAfter site c s files (.map entries) =
      (sendFile site c s.sessionId path (argOr "chat_id" (.str s.chatId) entries) files).2 := by
    simp only [filesAfter, hpath]
  rcases hr : sendFile site c s.sessionId path (argOr "chat_id" (.str s.chatId) entries) files with
    ⟨_ | _ | _, after⟩ <;>
  simp only [dispatch, AgentDeath.dispatchToolInvoke, hfile, hafter, hr]

/-- A call for a text is rejected with the error that comes of its file, and then this is all
that it sends. -/
theorem rejected_iff {entries : Entries}
    (hpath : argOr "file_path" (.str "") entries = .str path) :
    (Rejected reqId channelPid
        (dispatch env site c s reqId (.map entries) channelPid files).1.effects ↔
      ∃ error, (sendFile site c s.sessionId path (argOr "chat_id" (.str s.chatId) entries)
        files).1 = some (.error error)) ∧
    (Rejected reqId channelPid
        (dispatch env site c s reqId (.map entries) channelPid files).1.effects →
      ReplyTool.outbounds
        (dispatch env site c s reqId (.map entries) channelPid files).1.effects = []) := by
  rw [dispatch_text hpath]
  generalize sendFile site c s.sessionId path (argOr "chat_id" (.str s.chatId) entries) files = r
  obtain ⟨_ | error | fileArgs, after⟩ := r <;> dsimp only
  · have hnot : ¬ Rejected reqId channelPid FeishuChatProxy.Outcome.raised.effects := by
      rintro ⟨error, h⟩
      cases h
    exact ⟨iff_of_false hnot (by simp), fun h => absurd h hnot⟩
  · exact ⟨iff_of_true ⟨.map error, List.mem_singleton.mpr rfl⟩ ⟨error, rfl⟩, fun _ => rfl⟩
  · have hnot : ¬ Rejected reqId channelPid ((FeishuChatProxy.emitToFeishuAppProxy env s
        [(.str "args", .map fileArgs), (.str "kind", .str "send_file")]).1 ++
          [replyToolResult channelPid reqId true (.map [(.str "dispatched", .bool true)]) .null]) := by
      rintro ⟨error, h⟩
      rcases List.mem_append.mp h with h | h
      · rw [FeishuChatProxy.emitToFeishuAppProxy] at h
        split at h
        · simp [replyToolResult] at h
        · cases h
      · simp [replyToolResult] at h
    exact ⟨iff_of_false hnot (by simp), fun h => absurd h hnot⟩

theorem cleanlyRejects_text {entries : Entries}
    (hpath : argOr "file_path" (.str "") entries = .str path) :
    CleanlyRejects env site c s reqId (.map entries) channelPid files ↔
      ((∃ error, (sendFile site c s.sessionId path (argOr "chat_id" (.str s.chatId) entries)
          files).1 = some (.error error)) →
        ¬ Adds files (sendFile site c s.sessionId path (argOr "chat_id" (.str s.chatId) entries)
          files).2) := by
  have hafter : (dispatch env site c s reqId (.map entries) channelPid files).2 =
      (sendFile site c s.sessionId path (argOr "chat_id" (.str s.chatId) entries) files).2 := by
    rw [dispatch_text hpath]
  obtain ⟨hrejected, hsilent⟩ := rejected_iff (c := c) (s := s) hpath
  rw [CleanlyRejects, hafter]
  constructor
  · exact fun h herror => (h (hrejected.mpr herror)).1
  · exact fun h hr => ⟨h (hrejected.mp hr), hsilent hr⟩

/-- **When a rejected call stores nothing.**  Of a source that is accepted, for a path that
is a text and a medium that the adapter takes: an error of the store has to be tidy, and a
file that is stored has to be one that can be sent, unless it was there before with a file
of references. -/
theorem cleanlyRejects_iff (env : Env) (site : Site) (c : Call) (s : State) (reqId args : Value)
    (channelPid : Pid) (files : Files) :
    CleanlyRejects env site c s reqId args channelPid files ↔
      ∀ entries path mediaType m, args = .map entries →
        argOr "file_path" (.str "") entries = .str path →
        inferMediaType path = some mediaType → site.checkOutboundCapability mediaType = true →
        exCheck c.first mediaType path = .ok m → c.io.mkdir = true →
        let line := site.encode s.sessionId (argOr "chat_id" (.str s.chatId) entries)
        TidyErrors site.here c.io line m files ∧
          (Finishes site.here c.io line m files → Sendable c.again path ∨
            files.lookup (site.here.dest m).file ≠ none ∧
              files.lookup (site.here.refs m).file ≠ none) := by
  by_cases htext : ∃ entries path, args = .map entries ∧
      argOr "file_path" (.str "") entries = .str path
  · obtain ⟨entries, path, rfl, hpath⟩ := htext
    rw [cleanlyRejects_text hpath, sendFile_clean]
    constructor
    · intro h entries' path' mediaType m he hpath'
      obtain rfl := Value.map.inj he
      obtain rfl := Value.str.inj (hpath.symm.trans hpath')
      exact h mediaType m
    · exact fun h mediaType m => h entries path mediaType m rfl hpath
  · -- Such a call raises before it has done anything.
    have hraised : (dispatch env site c s reqId args channelPid files).1.effects = [] := by
      rcases args with _ | _ | _ | _ | _ | _ | entries
      case map =>
        have hnone : fileOf site c s.sessionId files (argOr "file_path" (.str "") entries)
            (argOr "chat_id" (.str s.chatId) entries) = none := by
          cases hpath : argOr "file_path" (.str "") entries with
          | str path => exact absurd ⟨entries, path, rfl, hpath⟩ htext
          | _ => rfl
        simp only [dispatch, AgentDeath.dispatchToolInvoke, hnone]
        rfl
      all_goals rfl
    constructor
    · intro _ entries path mediaType m he hpath
      exact absurd ⟨entries, path, he, hpath⟩ htext
    · rintro _ ⟨error, h⟩
      rw [hraised] at h
      cases h

end

/-- A photo in the current directory. -/
def cwdWorld : World where
  look p := if p = ⟨false, ["photo.png"]⟩ then some (.file [0xff]) else none
  sha256 _ := zeros
  hexLength _ := MediaRuns.length_zeros
  hexChars _ := MediaRuns.hex_zeros
  collisionFree p q b c hb hc _ := by
    split at hb
    · split at hc
      · cases hb
        cases hc
        rfl
      · cases hc
    · cases hb

/-- The adapter takes every medium, and every metadata has a text. -/
def devSite : Site where
  here := ⟨"/root/.esrd", none, "localhost:4001"⟩
  channelAdapter := "feishu"
  supportsOutbound _ _ := true
  encode _ _ := some [123, 125]
  encode64 _ := "/w=="
  inspect _ := ":path_not_absolute"

/-- The photo is stored, and then its path is refused. -/
theorem not_cleanlyRejects_relative : ¬ CleanlyRejects ReplyTool.noAdapter devSite
    ⟨cwdWorld, cwdWorld, .smooth⟩ AgentDeath.devChat (.str "r1")
    (.map [(.str "file_path", .str "photo.png")]) 7 .empty := by
  intro h
  have harg : argOr "file_path" (.str "") [(.str "file_path", .str "photo.png")] =
      .str "photo.png" := rfl
  rw [cleanlyRejects_text harg, sendFile_clean] at h
  have hpath : purePath ["photo.png"] = ⟨false, ["photo.png"]⟩ := by decide +kernel
  obtain ⟨m, hm⟩ : ∃ m, exCheck cwdWorld "image" "photo.png" = .ok m :=
    MediaFiles.exists_exCheck (by decide +kernel) (by rw [hpath]; rfl) (by decide +kernel)
  obtain ⟨-, hsends⟩ := h "image" m (by decide +kernel) rfl hm rfl
  rcases hsends ⟨.inr ⟨rfl, rfl⟩, Option.some_ne_none _, rfl⟩ with hsend | ⟨hdest, -⟩
  · exact absurd hsend.absolute (by decide +kernel)
  · exact hdest (Ets.lookup_empty _)

end SendFile
end Esr
