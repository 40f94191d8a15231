import Esr.SlashTotality

/-! # The two shapes of an envelope

The text of a slash command is in `payload.text` or in `payload.args.content`, where
the adapters and `submit_slash` put it.  The handler reads the text once from either,
and almost all that follows looks at the text it has read and at fields that have
nothing to do with it.  For the kind `pty_key` it reads `payload.text` once more.

`dispatch_eq_iff` says for which texts this makes a difference.
-/
namespace Esr
open Yaml SlashHandler

namespace SlashEnvelopes

/-- Two envelopes, equal except that the first has the text in `payload.text` and the
second in `payload.args.content`. -/
structure TwoShapes (text : String) (e e' : Value) : Prop where
  reads : envelopeReads e = true
  reads' : envelopeReads e' = true
  argsRead : SlashHandler.argsRead e = true
  argsRead' : SlashHandler.argsRead e' = true
  inText : field "text" (field "payload" e) = .str text
  noContent : field "content" (argsOf e) = .null
  noText : field "text" (field "payload" e') = .null
  inContent : field "content" (argsOf e') = .str text
  top : ∀ key, key ≠ "payload" → field key e = field key e'
  payload : ∀ key, key ≠ "text" → key ≠ "args" →
    field key (field "payload" e) = field key (field "payload" e')
  args : ∀ key, key ≠ "content" → field key (argsOf e) = field key (argsOf e')

/-- The keys that `/pty:key` is given. -/
def keysOf (text : String) : String := trim (stripSlashPrefix text "/pty:key")

/-- The text starts a command of the kind `pty_key`, with keys. -/
structure SendsKeys (rt : Runtime) (text : String) (e : Value) (route : SlashRoute) : Prop where
  found : rt.registry.lookup text = some route
  kind : route.kind = "pty_key"
  parses : ∃ parsed, parseRouteArgs text route = .ok parsed
  workspace : checkWorkspaceBinding rt route e = .ok ()
  user : checkUserBinding rt route e = .ok ()
  keys : keysOf text ≠ ""

variable {rt : Runtime} {text : String} {e e' : Value}

/-! ## What both shapes give -/

section
variable (h : TwoShapes text e e')
include h

theorem access_agree {key : String} (hkey : key ≠ "payload") : access key e = access key e' := by
  rw [access_eq (readable_of_reads h.reads).1, access_eq (readable_of_reads h.reads').1,
    h.top key hkey]

theorem getIn_payload_agree {key : String} (htext : key ≠ "text") (hargs : key ≠ "args") :
    getIn e ["payload", key] = getIn e' ["payload", key] := by
  rw [getIn_payload h.reads, getIn_payload h.reads', h.payload key htext hargs]

theorem getIn_args_agree {key : String} (hkey : key ≠ "content") :
    getIn e ["payload", "args", key] = getIn e' ["payload", "args", key] := by
  rw [getIn_args h.reads, getIn_args h.reads', access_eq h.argsRead, access_eq h.argsRead',
    h.args key hkey]

theorem extractText_agree : extractText e = .ok text ∧ extractText e' = .ok text := by
  unfold extractText
  constructor
  · rw [getIn_payload h.reads, h.inText]
    rfl
  · rw [getIn_payload h.reads', h.noText, getIn_args h.reads', access_eq h.argsRead', h.inContent]
    rfl

theorem envelopeChatId_agree : envelopeChatId e = envelopeChatId e' := by
  unfold envelopeChatId
  rw [getIn_payload_agree h (by decide) (by decide), getIn_args_agree h (by decide)]

theorem envelopeThreadId_agree : envelopeThreadId e = envelopeThreadId e' := by
  unfold envelopeThreadId
  rw [getIn_payload_agree h (by decide) (by decide), getIn_args_agree h (by decide)]

theorem envelopeAppId_agree : envelopeAppId e = envelopeAppId e' := getIn_args_agree h (by decide)

theorem resolveUsername_agree : resolveUsername rt e = resolveUsername rt e' := by
  unfold resolveUsername
  rw [access_agree h (by decide), access_agree h (by decide),
    getIn_payload_agree h (by decide) (by decide), getIn_args_agree h (by decide)]

theorem checkWorkspaceBinding_agree (route : SlashRoute) :
    checkWorkspaceBinding rt route e = checkWorkspaceBinding rt route e' := by
  unfold checkWorkspaceBinding
  rw [envelopeChatId_agree h, envelopeAppId_agree h]

theorem checkUserBinding_agree (route : SlashRoute) :
    checkUserBinding rt route e = checkUserBinding rt route e' := by
  unfold checkUserBinding
  rw [resolveUsername_agree h, access_agree h (by decide), access_agree h (by decide)]

theorem injectEnvelopeArgs_agree (args : Entries) :
    injectEnvelopeArgs args e = injectEnvelopeArgs args e' := by
  unfold injectEnvelopeArgs
  rw [envelopeChatId_agree h, envelopeThreadId_agree h, envelopeAppId_agree h,
    access_agree h (by decide), access_agree h (by decide)]

theorem mergeChatContext_agree (args : Entries) {kind : String} (hkind : kind ≠ "pty_key") :
    mergeChatContext rt args kind e = mergeChatContext rt args kind e' := by
  unfold mergeChatContext
  rw [envelopeChatId_agree h, envelopeThreadId_agree h, envelopeAppId_agree h,
    resolveUsername_agree h]
  split
  · rfl
  · rfl
  · rfl
  · rfl
  · rfl
  · exact absurd rfl hkind
  · rfl

theorem mergeChatContext_ptyKey (args : Entries) :
    mergeChatContext rt args "pty_key" e = .ok (put "keys" (.str (keysOf text)) args) ∧
      mergeChatContext rt args "pty_key" e' = .ok (put "keys" (.str "") args) := by
  unfold mergeChatContext
  constructor
  · rw [getIn_payload h.reads, h.inText]
    rfl
  · rw [getIn_payload h.reads', h.noText]
    rfl

theorem exists_injected (args : Entries) : ∃ injected, injectEnvelopeArgs args e = .ok injected := by
  unfold injectEnvelopeArgs envelopeChatId envelopeThreadId envelopeAppId
  rw [getIn_payload h.reads, getIn_payload h.reads, getIn_args h.reads, getIn_args h.reads,
    getIn_args h.reads, access_eq h.argsRead, access_eq h.argsRead, access_eq h.argsRead,
    access_eq (readable_of_reads h.reads).1, access_eq (readable_of_reads h.reads).1]
  unfold orElse
  dsimp only [bind, Except.bind]
  split_ifs <;> exact ⟨_, rfl⟩

theorem prepareArgs_agree {route : SlashRoute} (hroute : route.kind ≠ "pty_key" ∨ keysOf text = "") :
    prepareArgs rt text route e = prepareArgs rt text route e' := by
  have hmerge : ∀ args, mergeChatContext rt args route.kind e =
      mergeChatContext rt args route.kind e' := by
    intro args
    by_cases hkind : route.kind = "pty_key"
    · obtain ⟨hfirst, hsecond⟩ := @mergeChatContext_ptyKey rt _ _ _ h args
      rw [hkind, hfirst, hsecond, hroute.resolve_left (not_not_intro hkind)]
    · exact mergeChatContext_agree h args hkind
  unfold prepareArgs
  simp only [checkWorkspaceBinding_agree h, checkUserBinding_agree h,
    injectEnvelopeArgs_agree h, hmerge]

theorem prepareArgs_refused {route : SlashRoute}
    (hrefused : ¬((∃ parsed, parseRouteArgs text route = .ok parsed) ∧
      checkWorkspaceBinding rt route e = .ok () ∧ checkUserBinding rt route e = .ok ())) :
    prepareArgs rt text route e = prepareArgs rt text route e' := by
  unfold prepareArgs
  rw [← checkWorkspaceBinding_agree h, ← checkUserBinding_agree h]
  cases hparse : parseRouteArgs text route with
  | error stop => rfl
  | ok parsed =>
    cases hws : checkWorkspaceBinding rt route e with
    | error stop => rfl
    | ok _ =>
      cases huser : checkUserBinding rt route e with
      | error stop => rfl
      | ok _ => exact absurd ⟨⟨parsed, hparse⟩, hws, huser⟩ hrefused

theorem keys_of_sendsKeys {route : SlashRoute} (hsends : SendsKeys rt text e route) :
    ∃ args args', prepareArgs rt text route e = .ok args ∧
      prepareArgs rt text route e' = .ok args' ∧
      get "keys" args = some (.str (keysOf text)) ∧ get "keys" args' = some (.str "") := by
  obtain ⟨parsed, hparse⟩ := hsends.parses
  obtain ⟨injected, hinject⟩ := exists_injected h parsed
  obtain ⟨hfirst, hsecond⟩ := @mergeChatContext_ptyKey rt _ _ _ h injected
  refine ⟨put "keys" (.str (keysOf text)) injected, put "keys" (.str "") injected, ?_, ?_,
    get_put_self _ _ _, get_put_self _ _ _⟩
  · unfold prepareArgs
    rw [hparse, hsends.workspace, hsends.user, hsends.kind]
    dsimp only [bind, Except.bind]
    rw [hinject]
    dsimp only
    rw [hfirst]
    rfl
  · unfold prepareArgs
    rw [← checkWorkspaceBinding_agree h, ← checkUserBinding_agree h, hparse, hsends.workspace,
      hsends.user, hsends.kind]
    dsimp only [bind, Except.bind]
    rw [← injectEnvelopeArgs_agree h, hinject]
    dsimp only
    rw [hsecond]
    rfl

end

/-! ## The outcome -/

/-- The arguments of the command that is started. -/
def keysOfOutcome (outcome : Outcome) : Option Value :=
  match outcome.command.bind (get "args") with
  | some (.map args) => get "keys" args
  | _ => none

theorem dispatch_of_text {id : String} (htext : extractText e = .ok text) {principal : Value}
    (hprincipal : orElse (access "principal_id" e) (.ok (.str "ou_unknown")) = .ok principal) :
    dispatch rt e id =
      match rt.registry.lookup text with
      | none => .answered (answerNotFound rt.registry text)
      | some route =>
          match prepareArgs rt text route e with
          | .ok args => .started (buildCommand id route.kind principal args)
          | .error (.refused message) => .answered (.text message)
          | .error .raised => .raised := by
  cases hlookup : rt.registry.lookup text with
  | none => simp only [dispatch, htext, hprincipal, hlookup]
  | some route =>
    cases hargs : prepareArgs rt text route e with
    | ok args => simp only [dispatch, htext, hprincipal, hlookup, hargs]
    | error refusal =>
      cases refusal <;> simp only [dispatch, htext, hprincipal, hlookup, hargs]

/-- **Both shapes are one command**, unless the text sends keys. -/
theorem dispatch_eq_iff (h : TwoShapes text e e') (id : String) :
    dispatch rt e id = dispatch rt e' id ↔ ¬∃ route, SendsKeys rt text e route := by
  obtain ⟨hfirst, hsecond⟩ := extractText_agree h
  obtain ⟨principal, hprincipal⟩ : ∃ principal,
      orElse (access "principal_id" e) (.ok (.str "ou_unknown")) = .ok principal := by
    rw [access_eq (readable_of_reads h.reads).1]
    unfold orElse
    dsimp only [bind, Except.bind]
    split_ifs <;> exact ⟨_, rfl⟩
  have hprincipal' : orElse (access "principal_id" e') (.ok (.str "ou_unknown")) = .ok principal := by
    rw [← access_agree h (by decide), hprincipal]
  rw [dispatch_of_text hfirst hprincipal, dispatch_of_text hsecond hprincipal']
  cases hroute : rt.registry.lookup text with
  | none =>
    refine iff_of_true rfl ?_
    rintro ⟨route, hsends⟩
    rw [hsends.found] at hroute
    cases hroute
  | some route =>
    dsimp only
    by_cases hsends : SendsKeys rt text e route
    · refine iff_of_false ?_ (not_not_intro ⟨route, hsends⟩)
      obtain ⟨args, args', hargs, hargs', hkeys, hkeys'⟩ := keys_of_sendsKeys h hsends
      rw [hargs, hargs']
      intro heq
      have hsame : get "keys" args = get "keys" args' := congrArg keysOfOutcome heq
      rw [hkeys, hkeys'] at hsame
      exact hsends.keys (Value.str.inj (Option.some.inj hsame))
    · refine iff_of_true ?_ ?_
      · have hagree : prepareArgs rt text route e = prepareArgs rt text route e' := by
          by_cases hkeys : route.kind ≠ "pty_key" ∨ keysOf text = ""
          · exact prepareArgs_agree h hkeys
          · obtain ⟨hkind, hkeys⟩ := not_or.mp hkeys
            refine prepareArgs_refused h fun hall => hsends ?_
            exact ⟨hroute, not_not.mp hkind, hall.1, hall.2.1, hall.2.2, hkeys⟩
        rw [hagree]
      · rintro ⟨other, hother⟩
        rw [hother.found] at hroute
        exact hsends (Option.some.inj hroute ▸ hother)

/-! ## Keys for a terminal -/

/-- A registry with `/pty:key`. -/
def ptyRuntime : Runtime where
  registry := ⟨Ets.empty.insert "/pty:key"
    ⟨"/pty:key", "pty_key", false, false, [⟨"keys", true, .null⟩]⟩, .empty⟩
  workspaceNameForChat := fun _ _ => none
  usernameForFeishuId := fun _ => none
  resolve := fun _ => none
  pathJoin := "/".intercalate

/-- A message with the text in `payload.text`. -/
def textShape (text : String) : Value :=
  .map [(.str "payload", .map [(.str "args", .map [(.str "chat_id", .str "oc_ops")]),
    (.str "text", .str text)]), (.str "principal_id", .str "ou_eve")]

/-- The message with the text in `payload.args.content`. -/
def contentShape (text : String) : Value :=
  .map [(.str "payload", .map [(.str "args", .map [(.str "chat_id", .str "oc_ops"),
    (.str "content", .str text)])]), (.str "principal_id", .str "ou_eve")]

theorem field_skip {key other : String} (h : key ≠ other) (v : Value) (m : Entries) :
    field key (.map ((.str other, v) :: m)) = field key (.map m) := by
  have hne : (Value.str other).isStr key = false := by simpa using h.symm
  show (get key ((.str other, v) :: m)).getD .null = (get key m).getD .null
  rw [get_cons, hne]
  rfl

theorem twoShapes (text : String) : TwoShapes text (textShape text) (contentShape text) where
  reads := rfl
  reads' := rfl
  argsRead := rfl
  argsRead' := rfl
  inText := rfl
  noContent := rfl
  noText := rfl
  inContent := rfl
  top key h := (field_skip h _ _).trans (field_skip h _ _).symm
  payload key htext hargs := by
    refine ((field_skip hargs _ _).trans (field_skip htext _ _)).trans ?_
    exact (field_skip hargs _ _).symm
  args key h := by
    by_cases hchat : key = "chat_id"
    · rw [hchat]
      rfl
    · refine (field_skip hchat _ _).trans ?_
      exact ((field_skip hchat _ _).trans (field_skip h _ _)).symm

/-- An unknown command is refused in both shapes alike. -/
theorem dispatch_eq_unknown : dispatch ptyRuntime (textShape "/pty:list") "1" =
    dispatch ptyRuntime (contentShape "/pty:list") "1" := by
  refine (dispatch_eq_iff (twoShapes "/pty:list") "1").mpr ?_
  rintro ⟨route, hsends⟩
  have hnone : (ptyRuntime.registry.lookup "/pty:list").isNone = true := by decide +kernel
  rw [hsends.found] at hnone
  cases hnone

/-- Whether the command gets no keys. -/
def withoutKeys (e : Value) : Option Bool :=
  (keysOfOutcome (dispatch ptyRuntime e "1")).map (Value.isStr "")

/-- **The keys are lost** in the shape of the adapters. -/
theorem not_dispatch_eq_keys : ¬∀ (rt : Runtime) (text : String) (e e' : Value) (id : String),
    TwoShapes text e e' → dispatch rt e id = dispatch rt e' id := by
  intro h
  have heq := h ptyRuntime _ _ _ "1" (twoShapes "/pty:key down down enter")
  have hfirst : withoutKeys (textShape "/pty:key down down enter") = some false := by
    decide +kernel
  have hsecond : withoutKeys (contentShape "/pty:key down down enter") = some true := by
    decide +kernel
  unfold withoutKeys at hfirst hsecond
  rw [heq, hsecond] at hfirst
  cases hfirst

end SlashEnvelopes
end Esr
