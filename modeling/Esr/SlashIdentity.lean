import Esr.SlashArguments
import Esr.SlashTotality

/-! # Who calls a slash command

A command learns who calls it from two of its arguments, `caller_principal_id` and
`username`.  The handler takes the first from the envelope, and for some kinds the
second from the registry of users, and writes both over what was typed.  Where it
has nothing to write, it leaves what was typed: the envelope names no principal, the
user is not bound, or the kind is not one of those.

`Independent` compares two dispatches with the same envelope identity whose texts
differ in tokens of these two names only.
-/
namespace Esr
open Yaml SlashHandler SlashArguments

namespace SlashIdentity

/-! ## The identity of a dispatch -/

/-- The arguments that say who calls. -/
def identityNames : List String := ["caller_principal_id", "username"]

/-- A token `name=value` with one of these names. -/
def setsIdentity (tok : String) : Bool :=
  match splitParts2 '=' tok with
  | [name, _] => identityNames.contains name
  | _ => false

/-- The words of the text without these tokens. -/
def otherTokens (text : String) : List String := (tokens text).filter fun tok => !setsIdentity tok

/-- What the adapters send to the handler: a text that begins with a slash. -/
def isSlashText (text : String) : Bool := (stripPrefix "/" (trimLeading text)).isSome

/-- The fields of the envelope that say who sent it. -/
structure SameIdentity (e e' : Value) : Prop where
  principal : field "principal_id" e = field "principal_id" e'
  user : field "user_id" e = field "user_id" e'
  payloadUser : field "user_id" (field "payload" e) = field "user_id" (field "payload" e')
  sender : field "sender_id" (argsOf e) = field "sender_id" (argsOf e')

/-- Two envelopes of one sender with slash texts that differ in tokens of the two
names only. -/
structure Alike (e e' : Value) : Prop where
  identity : SameIdentity e e'
  texts : ∃ text text', extractText e = .ok text ∧ extractText e' = .ok text' ∧
    isSlashText text = true ∧ isSlashText text' = true ∧ otherTokens text = otherTokens text'

/-- The two arguments of a command. -/
def identityArgs (command : Entries) : Option Value × Option Value :=
  match get "args" command with
  | some (.map args) => (get "caller_principal_id" args, get "username" args)
  | _ => (none, none)

variable (rt : Runtime)

/-- **The text has no say** in who calls. -/
def Independent (e : Value) : Prop :=
  ∀ e' id id' command command', Alike e e' → dispatch rt e id = .started command →
    dispatch rt e' id' = .started command' → identityArgs command = identityArgs command'

/-! ## What the handler writes over the typed arguments -/

/-- The principal of the envelope, `null` where it names none. -/
def caller (e : Value) : Value :=
  if truthy (field "principal_id" e) then field "principal_id" e else field "user_id" e

/-- The open id the user is looked up by. -/
def openId (e : Value) : Value :=
  if truthy (field "user_id" e) then field "user_id" e
  else if truthy (field "principal_id" e) then field "principal_id" e
  else if truthy (field "user_id" (field "payload" e)) then field "user_id" (field "payload" e)
  else field "sender_id" (argsOf e)

/-- The user an open id is bound to, and `null` where there is none. -/
def usernameFor : Value → Value
  | .str id =>
      if id = "" then .null
      else
        match rt.usernameForFeishuId id with
        | some name => .str name
        | none => .null
  | _ => .null

/-- The kinds whose commands get the user's name. -/
def mergesUsername (kind : String) : Bool :=
  ["session_new", "session_end", "session_list", "workspace_info", "workspace_new"].contains kind

/-- The name the handler writes into the arguments, `null` for none. -/
def username (route : SlashRoute) (e : Value) : Value :=
  if mergesUsername route.kind then usernameFor rt (openId e) else .null

/-- The text starts a command of the route. -/
def StartsVia (e : Value) (route : SlashRoute) : Prop :=
  ∃ text args, extractText e = .ok text ∧ rt.registry.lookup text = some route ∧
    prepareArgs rt text route e = .ok args

/-- The routes that the text and those like it start leave nothing to be typed: they
take no arguments or the envelope names a principal, and they either all get the
user's name or all do not and take no arguments. -/
def Fixed (e : Value) : Prop :=
  ∀ e' route route', Alike e e' → StartsVia rt e route → StartsVia rt e' route' →
    (caller e ≠ .null ∨ route'.args = []) ∧
      (username rt route e ≠ .null ∧ username rt route' e ≠ .null ∨
        username rt route e = .null ∧ username rt route' e = .null ∧ route'.args = [])

/-! ## Arguments under a put -/

/-- What is found under a key after `maybePut`. -/
def orKept (v : Value) (old : Option Value) : Option Value :=
  match v with
  | .null => old
  | _ => some v

theorem orKept_null (old : Option Value) : orKept .null old = old := rfl

theorem orKept_of_ne {v : Value} (h : v ≠ .null) (old : Option Value) : orKept v old = some v := by
  cases v with
  | null => exact absurd rfl h
  | _ => rfl

theorem get_maybePut_self (key : String) (v : Value) (m : Entries) :
    get key (maybePut key v m) = orKept v (get key m) := by
  cases v with
  | null => rfl
  | _ => exact get_put_self key _ m

variable {key text : String} {route : SlashRoute}

theorem get_maybePut_of_ne {key' : String} (h : key' ≠ key) (v : Value) (m : Entries) :
    get key' (maybePut key v m) = get key' m := by
  cases v with
  | null => rfl
  | _ => exact get_put_of_ne _ m h

theorem get_putNew_self (key : String) (v : Value) (m : Entries) :
    get key (putNew key v m) = some ((get key m).getD v) := by
  unfold putNew
  cases hkey : get key m with
  | none => exact get_put_self key v m
  | some old => exact hkey

theorem get_putNew_of_ne {key' : String} (h : key' ≠ key) (v : Value) (m : Entries) :
    get key' (putNew key v m) = get key' m := by
  unfold putNew
  split_ifs
  · rfl
  · exact get_put_of_ne v m h

theorem get_defaultWorkspace (h : key ≠ "workspace") (chatId appId : Value) (m : Entries) :
    get key (defaultWorkspace rt chatId appId m) = get key m := by
  unfold defaultWorkspace
  split_ifs
  · exact get_maybePut_of_ne h _ m
  · rfl

theorem get_maybeDeriveSessionNewCwd (h : key ≠ "cwd") (m : Entries) (kind : String) :
    get key (maybeDeriveSessionNewCwd rt m kind) = get key m := by
  unfold maybeDeriveSessionNewCwd
  split_ifs
  · split
    · split_ifs
      · exact get_put_of_ne _ m h
      · rfl
    · rfl
  · rfl

/-! ## Reading the envelope -/

section
variable {rt} {e : Value}

theorem exists_of_bind_ok {α β : Type} {x : Except Stop α} {f : α → Except Stop β} {b : β}
    (h : (x >>= f) = .ok b) : ∃ a, x = .ok a ∧ f a = .ok b := by
  cases x with
  | ok a => exact ⟨a, rfl, h⟩
  | error stop => cases h

theorem of_access_ok {key : String} {v w : Value} (h : access key v = .ok w) :
    readable v = true ∧ w = field key v := by
  cases v with
  | map m => exact ⟨rfl, (Except.ok.inj h).symm⟩
  | null => exact ⟨rfl, (Except.ok.inj h).symm⟩
  | _ => cases h

theorem orElse_ok (v : Value) (b : Except Stop Value) :
    orElse (.ok v) b = if truthy v then .ok v else b := rfl

theorem reads_of_getIn_args {key : String} {v : Value}
    (h : getIn e ["payload", "args", key] = .ok v) :
    envelopeReads e = true ∧ argsRead e = true := by
  have hthree : getIn e ["payload", "args", key] = (access "payload" e >>= fun payload =>
      access "args" payload >>= fun args => access key args) := by
    simp only [getIn, List.foldlM_cons, List.foldlM_nil, bind_pure]
  rw [hthree] at h
  obtain ⟨payload, hpayload, h⟩ := exists_of_bind_ok h
  obtain ⟨args, hargs, h⟩ := exists_of_bind_ok h
  obtain ⟨henv, rfl⟩ := of_access_ok hpayload
  obtain ⟨hread, rfl⟩ := of_access_ok hargs
  exact ⟨Bool.and_eq_true_iff.mpr ⟨henv, hread⟩, (of_access_ok h).1⟩

theorem reads_of_inject {args injected : Entries}
    (h : injectEnvelopeArgs args e = .ok injected) :
    envelopeReads e = true ∧ argsRead e = true := by
  unfold injectEnvelopeArgs at h
  obtain ⟨chatId, -, h⟩ := exists_of_bind_ok h
  obtain ⟨threadId, -, h⟩ := exists_of_bind_ok h
  obtain ⟨appId, happ, -⟩ := exists_of_bind_ok h
  exact reads_of_getIn_args happ

section
variable (h : envelopeReads e = true) (ha : argsRead e = true)
include h ha

theorem getIn_args_ok (key : String) :
    getIn e ["payload", "args", key] = .ok (field key (argsOf e)) := by
  rw [getIn_args h, access_eq ha]

theorem payloadOrArgs_ok (key : String) : ∃ v,
    orElse (getIn e ["payload", key]) (getIn e ["payload", "args", key]) = .ok v := by
  rw [getIn_payload h, getIn_args_ok h ha, orElse_ok]
  split_ifs
  · exact ⟨_, rfl⟩
  · exact ⟨_, rfl⟩

theorem resolveUsername_eq : resolveUsername rt e = .ok (usernameFor rt (openId e)) := by
  obtain ⟨henv, -⟩ := readable_of_reads h
  have hid : (orElse (access "user_id" e) (orElse (access "principal_id" e)
      (orElse (getIn e ["payload", "user_id"]) (getIn e ["payload", "args", "sender_id"])))) =
      .ok (openId e) := by
    rw [access_eq henv, access_eq henv, getIn_payload h, getIn_args_ok h ha, orElse_ok, orElse_ok,
      orElse_ok, openId]
    split_ifs <;> rfl
  unfold resolveUsername
  rw [hid]
  show (match openId e with
    | .str id => _
    | _ => _) = _
  unfold usernameFor
  cases openId e with
  | str id =>
    dsimp only
    split_ifs
    · rfl
    · cases rt.usernameForFeishuId id <;> rfl
  | _ => rfl

omit ha in
theorem payloadText_ok {text : String} (htext : extractText e = .ok text) : ∃ keys, (do
    let v ← orElse (getIn e ["payload", "text"]) (.ok (.str ""))
    toStr v) = .ok keys := by
  unfold extractText at htext
  rw [getIn_payload h] at htext ⊢
  rw [orElse_ok] at htext ⊢
  split_ifs at htext ⊢ with hv
  · exact ⟨text, htext⟩
  · exact ⟨"", rfl⟩

theorem injectEnvelopeArgs_ok (args : Entries) : ∃ injected,
    injectEnvelopeArgs args e = .ok injected ∧
      get "caller_principal_id" injected =
        orKept (caller e) (get "caller_principal_id" args) ∧
      get "username" injected = get "username" args := by
  obtain ⟨henv, -⟩ := readable_of_reads h
  obtain ⟨chatId, hchat⟩ := payloadOrArgs_ok h ha "chat_id"
  obtain ⟨threadId, hthread⟩ := payloadOrArgs_ok h ha "thread_id"
  have hcaller : orElse (access "principal_id" e) (access "user_id" e) = .ok (caller e) := by
    rw [access_eq henv, access_eq henv, orElse_ok, caller]
    split_ifs <;> rfl
  refine ⟨maybePut "caller_principal_id" (caller e) (maybePut "app_id"
    (field "app_id" (argsOf e)) (maybePut "thread_id" threadId (maybePut "chat_id" chatId args))),
    ?_, ?_, ?_⟩
  · unfold injectEnvelopeArgs envelopeChatId envelopeThreadId envelopeAppId
    rw [hchat, hthread, getIn_args_ok h ha, hcaller]
    rfl
  · rw [get_maybePut_self, get_maybePut_of_ne (by decide), get_maybePut_of_ne (by decide),
      get_maybePut_of_ne (by decide)]
  · rw [get_maybePut_of_ne (by decide), get_maybePut_of_ne (by decide),
      get_maybePut_of_ne (by decide), get_maybePut_of_ne (by decide)]

/-- The context of a kind: it has the last word on the user's name if the kind gets
one, and leaves the caller alone. -/
theorem mergeChatContext_ok {text : String} (htext : extractText e = .ok text) (args : Entries)
    (kind : String) : ∃ merged, mergeChatContext rt args kind e = .ok merged ∧
      get "caller_principal_id" merged = get "caller_principal_id" args ∧
      get "username" merged =
        orKept (if mergesUsername kind then usernameFor rt (openId e) else .null)
          (get "username" args) := by
  obtain ⟨chatId, hchat⟩ := payloadOrArgs_ok h ha "chat_id"
  obtain ⟨threadId, hthread⟩ := payloadOrArgs_ok h ha "thread_id"
  have hname : resolveUsername rt e = _ := resolveUsername_eq h ha
  have happ := getIn_args_ok h ha "app_id"
  unfold mergeChatContext envelopeChatId envelopeThreadId envelopeAppId
  split
  · rw [hchat, hthread, hname]
    refine ⟨_, rfl, ?_, ?_⟩
    · rw [get_maybePut_of_ne (by decide), get_maybePut_of_ne (by decide),
        get_maybePut_of_ne (by decide)]
    · rw [get_maybePut_self, get_maybePut_of_ne (by decide), get_maybePut_of_ne (by decide)]
      rfl
  · rw [hchat, hthread, happ, hname]
    refine ⟨_, rfl, ?_, ?_⟩
    · rw [get_defaultWorkspace rt (by decide), get_maybePut_of_ne (by decide),
        get_maybePut_of_ne (by decide), get_maybePut_of_ne (by decide)]
    · rw [get_defaultWorkspace rt (by decide), get_maybePut_self,
        get_maybePut_of_ne (by decide), get_maybePut_of_ne (by decide)]
      rfl
  · rw [hchat, happ, hname]
    refine ⟨_, rfl, ?_, ?_⟩
    · rw [get_defaultWorkspace rt (by decide), get_maybePut_of_ne (by decide),
        get_maybePut_of_ne (by decide)]
    · rw [get_defaultWorkspace rt (by decide), get_maybePut_self, get_maybePut_of_ne (by decide)]
      rfl
  · rw [hchat, happ, hname]
    refine ⟨_, rfl, ?_, ?_⟩
    · rw [get_defaultWorkspace rt (by decide), get_maybePut_of_ne (by decide),
        get_maybePut_of_ne (by decide)]
    · rw [get_defaultWorkspace rt (by decide), get_maybePut_self, get_maybePut_of_ne (by decide)]
      rfl
  · rw [hchat, happ, hname]
    refine ⟨_, rfl, ?_, ?_⟩
    · rw [get_maybePut_of_ne (by decide), get_maybePut_of_ne (by decide),
        get_maybePut_of_ne (by decide)]
    · rw [get_maybePut_self, get_maybePut_of_ne (by decide), get_maybePut_of_ne (by decide)]
      rfl
  · obtain ⟨keys, hkeys⟩ := payloadText_ok h htext
    obtain ⟨v, hv, hkeys⟩ := exists_of_bind_ok hkeys
    rw [hv]
    refine ⟨maybePut "keys" (.str (trim (stripSlashPrefix keys "/pty:key"))) args, ?_, ?_, ?_⟩
    · show (toStr v >>= _) = _
      rw [hkeys]
      rfl
    · exact get_maybePut_of_ne (by decide) _ args
    · exact get_maybePut_of_ne (by decide) _ args
  · have hnone : mergesUsername kind = false := by simp_all [mergesUsername]
    refine ⟨args, rfl, rfl, ?_⟩
    rw [hnone, if_neg Bool.false_ne_true, orKept_null]

end

/-! ## The arguments of a command that is started -/

/-- What has to hold for a command to be started with these typed arguments. -/
structure Ready (rt : Runtime) (text : String) (route : SlashRoute) (e : Value)
    (parsed : Entries) : Prop where
  reads : envelopeReads e = true
  argsRead : argsRead e = true
  textReads : ∃ t, extractText e = .ok t
  parses : parseRouteArgs text route = .ok parsed
  workspace : checkWorkspaceBinding rt route e = .ok ()
  user : checkUserBinding rt route e = .ok ()

variable {route : SlashRoute}

/-- **The arguments** of the command: where the handler has a principal or a name, it
is that one, and otherwise the typed one. -/
theorem Ready.prepareArgs {text : String} {parsed : Entries} (h : Ready rt text route e parsed) :
    ∃ args, prepareArgs rt text route e = .ok args ∧
      get "caller_principal_id" args = orKept (caller e) (get "caller_principal_id" parsed) ∧
      get "username" args = orKept (username rt route e) (get "username" parsed) := by
  obtain ⟨t, ht⟩ := h.textReads
  obtain ⟨injected, hinject, hcaller, hname⟩ := injectEnvelopeArgs_ok h.reads h.argsRead parsed
  obtain ⟨merged, hmerge, hcaller', hname'⟩ :
      ∃ merged, mergeChatContext rt injected route.kind e = .ok merged ∧ _ ∧ _ :=
    mergeChatContext_ok h.reads h.argsRead ht injected route.kind
  refine ⟨maybeDeriveSessionNewCwd rt merged route.kind, ?_, ?_, ?_⟩
  · unfold SlashHandler.prepareArgs
    rw [h.parses, h.workspace, h.user]
    show (injectEnvelopeArgs parsed e >>= _) = _
    rw [hinject]
    show (mergeChatContext rt injected route.kind e >>= _) = _
    rw [hmerge]
    rfl
  · rw [get_maybeDeriveSessionNewCwd rt (by decide), hcaller', hcaller]
  · rw [get_maybeDeriveSessionNewCwd rt (by decide), hname', hname]
    rfl

theorem ready_of_prepareArgs {text t : String} {args : Entries} (htext : extractText e = .ok t)
    (h : SlashHandler.prepareArgs rt text route e = .ok args) :
    ∃ parsed, Ready rt text route e parsed := by
  unfold SlashHandler.prepareArgs at h
  obtain ⟨parsed, hparse, h⟩ := exists_of_bind_ok h
  obtain ⟨⟨⟩, hworkspace, h⟩ := exists_of_bind_ok h
  obtain ⟨⟨⟩, huser, h⟩ := exists_of_bind_ok h
  obtain ⟨injected, hinject, -⟩ := exists_of_bind_ok h
  obtain ⟨hreads, hargs⟩ := reads_of_inject hinject
  exact ⟨parsed, hreads, hargs, ⟨t, htext⟩, hparse, hworkspace, huser⟩

theorem startsVia_iff : StartsVia rt e route ↔
    ∃ text parsed, extractText e = .ok text ∧ rt.registry.lookup text = some route ∧
      Ready rt text route e parsed := by
  constructor
  · rintro ⟨text, args, htext, hlookup, hargs⟩
    obtain ⟨parsed, hready⟩ := ready_of_prepareArgs htext hargs
    exact ⟨text, parsed, htext, hlookup, hready⟩
  · rintro ⟨text, parsed, htext, hlookup, hready⟩
    obtain ⟨args, hargs, -, -⟩ := hready.prepareArgs
    exact ⟨text, args, htext, hlookup, hargs⟩

theorem dispatch_of_ready {text : String} {parsed : Entries} (htext : extractText e = .ok text)
    (hlookup : rt.registry.lookup text = some route) (h : Ready rt text route e parsed)
    (id : String) :
    ∃ command, dispatch rt e id = .started command ∧ identityArgs command =
      (orKept (caller e) (get "caller_principal_id" parsed),
        orKept (username rt route e) (get "username" parsed)) := by
  obtain ⟨args, hargs, hcaller, hname⟩ := h.prepareArgs
  obtain ⟨henv, -⟩ := readable_of_reads h.reads
  obtain ⟨principal, hprincipal⟩ : ∃ v,
      orElse (access "principal_id" e) (.ok (.str "ou_unknown")) = .ok v := by
    rw [access_eq henv, orElse_ok]
    split_ifs
    · exact ⟨_, rfl⟩
    · exact ⟨_, rfl⟩
  refine ⟨buildCommand id route.kind principal args, ?_, ?_⟩
  · unfold dispatch
    rw [htext, hprincipal]
    dsimp only
    rw [hlookup]
    dsimp only
    rw [hargs]
  · rw [← hcaller, ← hname]
    rfl

theorem ready_of_dispatch {id : String} {command : Entries}
    (h : dispatch rt e id = .started command) : ∃ text route parsed,
      extractText e = .ok text ∧ rt.registry.lookup text = some route ∧
        Ready rt text route e parsed := by
  unfold dispatch at h
  cases htext : extractText e with
  | error stop =>
    rw [htext] at h
    cases h
  | ok text =>
    cases hprincipal : orElse (access "principal_id" e) (.ok (.str "ou_unknown")) with
    | error stop =>
      rw [htext, hprincipal] at h
      cases h
    | ok principal =>
      rw [htext, hprincipal] at h
      dsimp only at h
      cases hlookup : rt.registry.lookup text with
      | none =>
        rw [hlookup] at h
        cases h
      | some route =>
        rw [hlookup] at h
        dsimp only at h
        cases hargs : SlashHandler.prepareArgs rt text route e with
        | ok args =>
          obtain ⟨parsed, hready⟩ := ready_of_prepareArgs htext hargs
          exact ⟨text, route, parsed, rfl, hlookup, hready⟩
        | error stop =>
          rw [hargs] at h
          cases stop with
          | raised => cases h
          | refused message => cases h

end

/-! ## One token more for the parser -/

/-- The typed arguments, before the defaults. -/
def given (first : ArgSpec) (toks : List String) : Entries :=
  match (peelPositional toks).1 with
  | some value => putNew first.name (.str value) (parseKvPairs (peelPositional toks).2)
  | none => parseKvPairs (peelPositional toks).2

theorem parseRouteArgs_eq {first : ArgSpec} {rest : List ArgSpec}
    (hargs : route.args = first :: rest) (text : String) : parseRouteArgs text route =
      validateRequired (applyDefaults (given first (argTokens text route.slash)) (first :: rest))
        (first :: rest) route.slash >>= fun _ =>
      .ok (applyDefaults (given first (argTokens text route.slash)) (first :: rest)) := by
  unfold parseRouteArgs
  rw [hargs]
  dsimp only
  unfold given argTokens
  generalize peelPositional (words (trim (stripSlashPrefix text route.slash))) = peeled
  obtain ⟨positional, kvs⟩ := peeled
  cases positional with
  | none => rfl
  | some value => rfl

section
variable {name v tok : String} (htok : splitParts2 '=' tok = [name, v]) (hname : name ≠ "")
include htok hname

theorem parseKvPairs_append (kvs : List String) :
    parseKvPairs (kvs ++ [tok]) = put name (.str v) (parseKvPairs kvs) := by
  unfold parseKvPairs
  rw [List.foldl_append, List.foldl_cons, List.foldl_nil, htok]
  exact if_pos hname

omit hname in
theorem peelPositional_append (toks : List String) :
    peelPositional (toks ++ [tok]) = ((peelPositional toks).1, (peelPositional toks).2 ++ [tok]) := by
  cases toks with
  | nil =>
    have heq : '=' ∈ tok.toList := by
      rw [(splitParts2_eq_pair.mp htok).1]
      simp
    exact if_pos heq
  | cons first toks =>
    have hpeel : ∀ rest, peelPositional (first :: rest) =
        if '=' ∈ first.toList then (none, first :: rest) else (some first, rest) := fun _ => rfl
    rw [List.cons_append, hpeel, hpeel]
    split_ifs
    · rfl
    · rfl

theorem get_given_append (first : ArgSpec) (toks : List String) :
    get name (given first (toks ++ [tok])) = some (.str v) ∧
      ∀ key, key ≠ name → get key (given first (toks ++ [tok])) = get key (given first toks) := by
  unfold given
  rw [peelPositional_append htok]
  dsimp only
  rw [parseKvPairs_append htok hname]
  generalize parseKvPairs (peelPositional toks).2 = kvs
  cases (peelPositional toks).1 with
  | none => exact ⟨get_put_self name _ kvs, fun key hkey => get_put_of_ne _ kvs hkey⟩
  | some value =>
    dsimp only
    constructor
    · by_cases hfirst : name = first.name
      · rw [← hfirst, get_putNew_self, get_put_self]
        rfl
      · rw [get_putNew_of_ne hfirst, get_put_self]
    · intro key hkey
      by_cases hfirst : key = first.name
      · subst hfirst
        rw [get_putNew_self, get_putNew_self, get_put_of_ne _ kvs hkey]
      · rw [get_putNew_of_ne hfirst, get_putNew_of_ne hfirst, get_put_of_ne _ kvs hkey]

end

theorem get_applyDefaults_congr {m m' : Entries} (h : get key m = get key m')
    (specs : List ArgSpec) :
    get key (applyDefaults m specs) = get key (applyDefaults m' specs) := by
  induction specs generalizing m m' with
  | nil => exact h
  | cons spec specs ih =>
    refine ih ?_
    dsimp only
    split
    · exact h
    · by_cases hkey : key = spec.name
      · subst hkey
        rw [get_putNew_self, get_putNew_self, h]
      · rw [get_putNew_of_ne hkey, get_putNew_of_ne hkey, h]

theorem get_applyDefaults_of_some {v : Value} {m : Entries} (h : get key m = some v)
    (specs : List ArgSpec) :
    get key (applyDefaults m specs) = some v := by
  induction specs generalizing m with
  | nil => exact h
  | cons spec specs ih =>
    refine ih ?_
    dsimp only
    split
    · exact h
    · by_cases hkey : key = spec.name
      · subst hkey
        rw [get_putNew_self, h]
        rfl
      · rw [get_putNew_of_ne hkey, h]

theorem validateRequired_ok_iff {args : Entries} {specs : List ArgSpec} {slash : String} :
    validateRequired args specs slash = .ok () ↔
      ∀ spec ∈ specs, spec.required = true → isBlank (get spec.name args) = false := by
  have hnone : validateRequired args specs slash = .ok () ↔
      (specs.filter fun spec => spec.required && isBlank (get spec.name args)) = [] := by
    unfold validateRequired
    generalize specs.filter (fun spec => spec.required && isBlank (get spec.name args)) = missing
    cases missing with
    | nil => exact ⟨fun _ => rfl, fun _ => rfl⟩
    | cons spec missing =>
      refine iff_of_false ?_ (List.cons_ne_nil _ _)
      cases missing with
      | nil => rintro ⟨⟩
      | cons spec' missing => rintro ⟨⟩
  rw [hnone, List.filter_eq_nil_iff]
  simp

/-- **One token more**: the parser finds the argument it sets, and everything else as
before. -/
theorem parse_of_append {text' name v : String} {parsed : Entries} (hargs : route.args ≠ [])
    (hparse : parseRouteArgs text route = .ok parsed) (hname : name ≠ "")
    (hsplit : '=' ∉ name.toList) (hv : v ≠ "")
    (htoks : argTokens text' route.slash = argTokens text route.slash ++ [name ++ "=" ++ v]) :
    ∃ parsed', parseRouteArgs text' route = .ok parsed' ∧ get name parsed' = some (.str v) := by
  obtain ⟨first, rest, hspecs⟩ := List.exists_cons_of_ne_nil hargs
  have htok : splitParts2 '=' (name ++ "=" ++ v) = [name, v] :=
    splitParts2_eq_pair.mpr ⟨rfl, hsplit⟩
  obtain ⟨hself, hother⟩ := get_given_append htok hname first (argTokens text route.slash)
  rw [parseRouteArgs_eq hspecs] at hparse
  obtain ⟨⟨⟩, hrequired, -⟩ := exists_of_bind_ok hparse
  have hfound := get_applyDefaults_of_some hself (first :: rest)
  refine ⟨applyDefaults (given first (argTokens text route.slash ++ [name ++ "=" ++ v]))
    (first :: rest), ?_, hfound⟩
  rw [parseRouteArgs_eq hspecs, htoks]
  have hrequired' : validateRequired (applyDefaults
      (given first (argTokens text route.slash ++ [name ++ "=" ++ v])) (first :: rest))
      (first :: rest) route.slash = .ok () := by
    rw [validateRequired_ok_iff] at hrequired ⊢
    intro spec hspec hreq
    by_cases hkey : spec.name = name
    · rw [hkey, hfound]
      simpa [isBlank] using hv
    · rw [get_applyDefaults_congr (hother _ hkey)]
      exact hrequired spec hspec hreq
  rw [hrequired']
  rfl

/-! ## One token more in the text -/

/-- White space that does not go on with the primary key. -/
def gapAfter (text slash : String) : Char :=
  if (slash.toList.drop (trim text).toList.length).head? = some ' ' then '\t' else ' '

/-- The text with a token at its end. -/
def withToken (text slash tok : String) : String :=
  String.ofList ((trim text).toList ++ gapAfter text slash :: tok.toList)

theorem head?_of_isSlashText (h : isSlashText text = true) :
    (trim text).toList.head? = some '/' := by
  obtain ⟨rest, hrest⟩ := Option.isSome_iff_exists.mp h
  have hlist : text.toList.dropWhile isSpace = '/' :: rest.toList := by
    have hcut := congrArg String.toList (stripPrefix_eq_some.mp hrest)
    rwa [trimLeading, String.toList_ofList, String.toList_append] at hcut
  rw [trim_toList, hlist]
  obtain ⟨end_, hend⟩ := List.rdropWhile_prefix isSpace ('/' :: rest.toList)
  cases hcut : ('/' :: rest.toList).rdropWhile isSpace with
  | nil => cases List.rdropWhile_eq_nil_iff.mp hcut '/' List.mem_cons_self
  | cons c cs =>
    rw [hcut, List.cons_append] at hend
    rw [(List.cons.inj hend).1]
    rfl

theorem tokens_ne_nil (h : isSlashText text = true) : tokens text ≠ [] := by
  intro hempty
  have hhead := head?_of_isSlashText h
  cases hcs : (trim text).toList with
  | nil =>
    rw [hcs] at hhead
    cases hhead
  | cons c cs =>
    obtain ⟨w, rest, hw⟩ := wordsFrom_cons (p := asciiSpace)
      (asciiSpace_of_not_isSpace ((trimmed_trim text).1 c (by rw [hcs]; rfl))) cs
    rw [tokens, words_eq, hcs, hw] at hempty
    cases hempty

section
variable {text slash tok : String}

theorem withToken_toList : (withToken text slash tok).toList =
    (trim text).toList ++ gapAfter text slash :: tok.toList := String.toList_ofList

theorem gapAfter_isSpace :
    isSpace (gapAfter text slash) = true ∧ asciiSpace (gapAfter text slash) = true := by
  unfold gapAfter
  split_ifs
  · exact ⟨rfl, rfl⟩
  · exact ⟨rfl, rfl⟩

theorem stripPrefix_withToken (h : stripPrefix slash (trim text) = none) :
    stripPrefix slash (withToken text slash tok) = none := by
  refine Option.eq_none_iff_forall_ne_some.mpr fun rest hrest => ?_
  have hlist := congrArg String.toList (stripPrefix_eq_some.mp hrest)
  rw [withToken_toList, String.toList_append] at hlist
  rcases List.append_eq_append_iff.mp hlist with ⟨more, hslash, htail⟩ | ⟨more, htext, -⟩
  · -- the key goes on where the text ends, with another white space
    cases more with
    | nil =>
      rw [List.append_nil] at hslash
      have hsome := stripPrefix_eq_some.mpr (show trim text = slash ++ "" by
        rw [String.append_empty, ← String.toList_inj, hslash])
      cases h.symm.trans hsome
    | cons c more =>
      have hgap : gapAfter text slash = c := (List.cons.inj htail).1
      unfold gapAfter at hgap
      rw [hslash, List.drop_left, List.head?_cons] at hgap
      by_cases hc : c = ' '
      · subst hc
        rw [if_pos rfl] at hgap
        cases hgap
      · rw [if_neg (fun he => hc (Option.some.inj he))] at hgap
        exact hc hgap.symm
  · have hsome := stripPrefix_eq_some.mpr (show trim text = slash ++ String.ofList more by
      rw [← String.toList_inj, String.toList_append, String.toList_ofList, htext])
    cases h.symm.trans hsome

variable (htext : isSlashText text = true) (hne : tok.toList ≠ [])
  (htok : ∀ c ∈ tok.toList, isSpace c = false)
include hne htok

theorem getLast?_append_token {cs : List Char} {c : Char}
    (h : (cs ++ tok.toList).getLast? = some c) : isSpace c = false := by
  rw [List.getLast?_append, List.getLast?_eq_some_getLast hne] at h
  exact htok c (Option.some.inj h ▸ List.getLast_mem hne)

theorem words_append_token (cs : List Char) (gap : Char) (hgap : asciiSpace gap = true) :
    wordsFrom asciiSpace [] (cs ++ gap :: tok.toList) = wordsFrom asciiSpace [] cs ++ [tok] := by
  rw [wordsFrom_append_sep hgap,
    wordsFrom_word ⟨hne, fun c hc => asciiSpace_of_not_isSpace (htok c hc)⟩]

include htext

theorem trim_withToken : trim (withToken text slash tok) = withToken text slash tok := by
  refine trim_of_trimmed ⟨fun c hc => ?_, fun c hc => ?_⟩
  · rw [withToken_toList, List.head?_append, head?_of_isSlashText htext] at hc
    obtain rfl := Option.some.inj hc
    rfl
  · rw [withToken_toList, ← List.singleton_append, ← List.append_assoc] at hc
    exact getLast?_append_token hne htok hc

omit hne htok in
theorem isSlashText_withToken : isSlashText (withToken text slash tok) = true := by
  obtain ⟨rest, hrest⟩ : ∃ rest, (withToken text slash tok).toList = '/' :: rest := by
    cases hcs : (trim text).toList with
    | nil =>
      have hhead := head?_of_isSlashText htext
      rw [hcs] at hhead
      cases hhead
    | cons c cs =>
      have hhead := head?_of_isSlashText htext
      rw [hcs] at hhead
      rw [withToken_toList, hcs, List.cons_append, Option.some.inj hhead]
      exact ⟨_, rfl⟩
  have hleading : trimLeading (withToken text slash tok) = "/" ++ String.ofList rest := by
    rw [trimLeading, hrest, List.dropWhile_cons_of_neg (by decide), ← String.toList_inj]
    simp
  rw [isSlashText, hleading, stripPrefix_eq_some.mpr rfl]
  rfl

theorem tokens_withToken : tokens (withToken text slash tok) = tokens text ++ [tok] := by
  rw [tokens, trim_withToken htext hne htok, words_eq, withToken_toList,
    words_append_token hne htok _ _ gapAfter_isSpace.2]
  rfl

theorem argTokens_withToken :
    argTokens (withToken text slash tok) slash = argTokens text slash ++ [tok] := by
  have hwhole : trim (withToken text slash tok) = withToken text slash tok :=
    trim_withToken htext hne htok
  cases hstrip : stripPrefix slash (trim text) with
  | none =>
    have hargs : argTokens text slash = tokens text := by
      rw [argTokens, stripSlashPrefix, hstrip]
      dsimp only
      rw [trim_trim, tokens]
    have hargs' : argTokens (withToken text slash tok) slash =
        tokens (withToken text slash tok) := by
      rw [argTokens, stripSlashPrefix, hwhole, stripPrefix_withToken hstrip]
      dsimp only
      rw [hwhole, tokens, hwhole]
    rw [hargs, hargs', tokens_withToken htext hne htok]
  | some rest =>
    have hbegin := stripPrefix_eq_some.mp hstrip
    have hwith : withToken text slash tok =
        slash ++ String.ofList (rest.toList ++ gapAfter text slash :: tok.toList) := by
      rw [← String.toList_inj, withToken_toList, hbegin, String.toList_append,
        String.toList_append, String.toList_ofList, List.append_assoc]
    have hrest : argTokens text slash = words (trim rest) := by
      rw [argTokens, stripSlashPrefix, hstrip]
      dsimp only
      rw [trim_trim]
    have hlast : ∀ c, rest.toList.getLast? = some c → isSpace c = false := by
      intro c hc
      refine (trimmed_trim text).2 c ?_
      rw [hbegin, String.toList_append, List.getLast?_append, hc]
      rfl
    have htrimmed : Trimmed (withToken text slash tok).toList := hwhole ▸ trimmed_trim _
    have hend : ∀ c, (String.ofList (rest.toList ++ gapAfter text slash ::
        tok.toList)).toList.getLast? = some c → isSpace c = false := by
      intro c hc
      rw [String.toList_ofList, ← List.singleton_append, ← List.append_assoc] at hc
      exact getLast?_append_token hne htok hc
    rw [hwith] at htrimmed ⊢
    rw [argTokens_append htrimmed, words_eq, trim_of_last hend, String.toList_ofList, hrest,
      words_eq, trim_of_last hlast, List.dropWhile_append]
    split_ifs with hempty
    · rw [List.isEmpty_iff.mp hempty, List.dropWhile_cons_of_pos gapAfter_isSpace.1,
        dropWhile_of_head fun c hc => htok c (List.mem_of_mem_head? hc)]
      exact wordsFrom_word ⟨hne, fun c hc => asciiSpace_of_not_isSpace (htok c hc)⟩
    · exact words_append_token hne htok _ _ gapAfter_isSpace.2

theorem lookup_withToken {reg : SlashRegistry}
    (hfresh : reg.slashTable.lookup (" ".intercalate (tokens text ++ [tok])) = none) :
    reg.lookup (withToken text slash tok) = reg.lookup text := by
  have htokens : tokens (withToken text slash tok) = tokens text ++ [tok] :=
    tokens_withToken htext hne htok
  have hsome := tokens_ne_nil htext
  have hlengths : lengths (withToken text slash tok) =
      ((tokens text).length + 1) :: lengths text := by
    rw [lengths, lengths, htokens, if_neg (List.append_ne_nil_of_left_ne_nil hsome _),
      if_neg hsome, List.length_append, List.length_singleton, List.range_succ, List.map_append,
      List.reverse_append, List.map_singleton, List.reverse_singleton, List.singleton_append]
  have hfirst : keyOf (withToken text slash tok) ((tokens text).length + 1) =
      " ".intercalate (tokens text ++ [tok]) := by
    rw [keyOf, htokens, List.take_of_length_le (by simp)]
  have hother : ∀ n ∈ lengths text, keyOf (withToken text slash tok) n = keyOf text n := by
    intro n hn
    obtain ⟨hempty, -⟩ | ⟨-, hle⟩ := mem_lengths hn
    · exact absurd hempty hsome
    · rw [keyOf, keyOf, htokens, List.take_append_of_le_length hle]
  have hkeys : SlashRegistry.keysInText (withToken text slash tok) =
      " ".intercalate (tokens text ++ [tok]) :: SlashRegistry.keysInText text := by
    rw [keysInText_eq, hlengths, List.map_cons, hfirst, List.map_congr_left hother, keysInText_eq]
  have hhead : (tokens (withToken text slash tok)).head? = (tokens text).head? := by
    obtain ⟨first, rest, hcons⟩ := List.exists_cons_of_ne_nil hsome
    rw [htokens, hcons]
    rfl
  unfold tokens at hhead
  unfold SlashRegistry.lookup
  rw [hkeys, List.findSome?_cons, hfresh, hhead]

end

theorem exists_longer (keys : List String) : ∃ n, ∀ key ∈ keys, key.length < n := by
  induction keys with
  | nil => exact ⟨0, List.forall_mem_nil _⟩
  | cons key keys ih =>
    obtain ⟨n, hn⟩ := ih
    refine ⟨n + key.length + 1, fun k hk => ?_⟩
    rcases List.mem_cons.mp hk with rfl | hk
    · omega
    · have hlt := hn k hk
      omega

theorem lookup_eq_none_of_longer {V : Type} {t : Ets String V} {n : Nat}
    (h : ∀ key ∈ t.keys, key.length < n) {toks : List String} (hne : toks ≠ []) {tok : String}
    (hlong : n ≤ tok.length) : t.lookup (" ".intercalate (toks ++ [tok])) = none := by
  refine Option.eq_none_iff_forall_ne_some.mpr fun v hv => ?_
  have hshort := h _ (Ets.mem_keys.mpr ⟨v, hv⟩)
  rw [String.intercalate_append_of_ne_nil hne (List.cons_ne_nil _ _),
    String.intercalate_singleton, String.length_append] at hshort
  omega

/-! ## One token more in the message -/

/-- The entries of a map. -/
def entriesOf : Value → Entries
  | .map m => m
  | _ => []

/-- The envelope with another text. -/
def setText (e : Value) (text : String) : Value :=
  .map (put "payload" (.map (put "text" (.str text) (entriesOf (field "payload" e)))) (entriesOf e))

section
variable {rt} {e : Value} (text : String)

theorem field_eq (key : String) (v : Value) : field key v = (get key (entriesOf v)).getD .null := by
  cases v <;> rfl

theorem field_setText {key : String} (h : key ≠ "payload") :
    field key (setText e text) = field key e := by
  rw [field_eq, field_eq key e]
  exact congrArg (fun o => o.getD .null) (get_put_of_ne _ _ h)

theorem payload_setText : field "payload" (setText e text) =
    .map (put "text" (.str text) (entriesOf (field "payload" e))) := by
  rw [field_eq]
  show (get "payload" (put "payload" _ _)).getD .null = _
  rw [get_put_self]
  rfl

theorem payloadField_setText {key : String} (h : key ≠ "text") :
    field key (field "payload" (setText e text)) = field key (field "payload" e) := by
  rw [payload_setText, field_eq, field_eq key (field "payload" e)]
  exact congrArg (fun o => o.getD .null) (get_put_of_ne _ _ h)

theorem argsOf_setText : argsOf (setText e text) = argsOf e := by
  rw [argsOf, payloadField_setText text (by decide), argsOf]

theorem sameIdentity_setText : SameIdentity e (setText e text) where
  principal := (field_setText text (by decide)).symm
  user := (field_setText text (by decide)).symm
  payloadUser := (payloadField_setText text (by decide)).symm
  sender := by rw [argsOf_setText]

theorem envelopeReads_setText : envelopeReads (setText e text) = true := by
  rw [envelopeReads, payload_setText]
  rfl

theorem extractText_setText : extractText (setText e text) = .ok text := by
  have htext : field "text" (field "payload" (setText e text)) = .str text := by
    rw [payload_setText, field_eq]
    show (get "text" (put "text" _ _)).getD .null = _
    rw [get_put_self]
    rfl
  unfold extractText
  rw [getIn_payload (envelopeReads_setText text), htext]
  rfl

section
variable (h : envelopeReads e = true)
include h

theorem access_setText {key : String} (hkey : key ≠ "payload") :
    access key (setText e text) = access key e := by
  rw [access_eq (readable_of_reads h).1, ← field_setText (e := e) text hkey]
  rfl

theorem getIn_payload_setText {key : String} (hkey : key ≠ "text") :
    getIn (setText e text) ["payload", key] = getIn e ["payload", key] := by
  rw [getIn_payload h, getIn_payload (envelopeReads_setText text), payloadField_setText text hkey]

theorem getIn_args_setText (key : String) :
    getIn (setText e text) ["payload", "args", key] = getIn e ["payload", "args", key] := by
  rw [getIn_args h, getIn_args (envelopeReads_setText text), argsOf_setText]

theorem resolveUsername_setText : resolveUsername rt (setText e text) = resolveUsername rt e := by
  unfold resolveUsername
  rw [access_setText text h (by decide), access_setText text h (by decide),
    getIn_payload_setText text h (by decide), getIn_args_setText text h]

theorem checkWorkspaceBinding_setText (route : SlashRoute) :
    checkWorkspaceBinding rt route (setText e text) = checkWorkspaceBinding rt route e := by
  unfold checkWorkspaceBinding envelopeChatId envelopeAppId
  rw [getIn_payload_setText text h (by decide), getIn_args_setText text h,
    getIn_args_setText text h]

theorem checkUserBinding_setText (route : SlashRoute) :
    checkUserBinding rt route (setText e text) = checkUserBinding rt route e := by
  unfold checkUserBinding
  rw [resolveUsername_setText text h, access_setText text h (by decide),
    access_setText text h (by decide)]

theorem Ready.setText {text : String} {route : SlashRoute} {parsed parsed' : Entries}
    (hready : Ready rt text route e parsed) {text' : String}
    (hparse : parseRouteArgs text' route = .ok parsed') :
    Ready rt text' route (SlashIdentity.setText e text') parsed' where
  reads := envelopeReads_setText text'
  argsRead := by
    rw [SlashHandler.argsRead, argsOf_setText]
    exact hready.argsRead
  textReads := ⟨text', extractText_setText text'⟩
  parses := hparse
  workspace := (checkWorkspaceBinding_setText text' h route).trans hready.workspace
  user := (checkUserBinding_setText text' h route).trans hready.user

end

end

theorem exists_fresh (n : Nat) (avoid : Option Value) : ∃ v : String,
    n ≤ v.length ∧ v ≠ "" ∧ (∀ c ∈ v.toList, isSpace c = false) ∧ some (.str v) ≠ avoid := by
  obtain ⟨m, hm⟩ : ∃ m, ∀ s : String, avoid = some (.str s) → s.length ≤ m := by
    cases avoid with
    | none => exact ⟨0, fun s hs => by cases hs⟩
    | some w =>
      cases w with
      | str s => exact ⟨s.length, fun s' hs' => by cases hs'; exact le_rfl⟩
      | _ => exact ⟨0, fun s hs => by cases hs⟩
  have hlength : (String.ofList (List.replicate (n + m + 1) 'a')).length = n + m + 1 := by simp
  refine ⟨String.ofList (List.replicate (n + m + 1) 'a'), ?_, ?_, ?_, ?_⟩
  · omega
  · intro he
    rw [he] at hlength
    cases hlength
  · intro c hc
    rw [String.toList_ofList] at hc
    rw [List.eq_of_mem_replicate hc]
    rfl
  · intro he
    have hle := hm _ he.symm
    omega

theorem name_facts {name : String} (h : name ∈ identityNames) :
    name ≠ "" ∧ '=' ∉ name.toList ∧ ∀ c ∈ name.toList, isSpace c = false := by
  -- stated with `all`, since with `Fintype Char` in sight `decide` runs over every character
  have hfacts : identityNames.all fun n =>
      decide (n ≠ "" ∧ '=' ∉ n.toList) && n.toList.all fun c => !isSpace c := by decide
  have hname := List.all_eq_true.mp hfacts name h
  simp only [Bool.and_eq_true, decide_eq_true_eq, List.all_eq_true, Bool.not_eq_true'] at hname
  exact ⟨hname.1.1, hname.1.2, hname.2⟩

/-- **Typing an identity.**  Where a route takes arguments, a text like the one that
starts it sets either of the two to a value of our choice. -/
theorem exists_retyped {rt : Runtime} {e : Value} {name : String} {parsed : Entries}
    (hname : name ∈ identityNames) (htext : extractText e = .ok text)
    (hslash : isSlashText text = true) (hlookup : rt.registry.lookup text = some route)
    (hready : Ready rt text route e parsed) (hargs : route.args ≠ []) (avoid : Option Value) :
    ∃ e' text' parsed' v, Alike e e' ∧ extractText e' = .ok text' ∧
      rt.registry.lookup text' = some route ∧ Ready rt text' route e' parsed' ∧
      get name parsed' = some (.str v) ∧ some (.str v) ≠ avoid := by
  obtain ⟨hne, hnoeq, hnospace⟩ := name_facts hname
  obtain ⟨n, hn⟩ := exists_longer rt.registry.slashTable.keys
  obtain ⟨v, hlong, hv, hvspace, havoid⟩ := exists_fresh n avoid
  have htoklist : (name ++ "=" ++ v).toList = name.toList ++ '=' :: v.toList := by simp
  have htokne : (name ++ "=" ++ v).toList ≠ [] := by
    rw [htoklist]
    exact List.append_ne_nil_of_right_ne_nil _ (List.cons_ne_nil _ _)
  have htok : ∀ c ∈ (name ++ "=" ++ v).toList, isSpace c = false := by
    intro c hc
    rw [htoklist] at hc
    rcases List.mem_append.mp hc with hc | hc
    · exact hnospace c hc
    · rcases List.mem_cons.mp hc with rfl | hc
      · rfl
      · exact hvspace c hc
  have hsets : setsIdentity (name ++ "=" ++ v) = true := by
    have hcut : splitParts2 '=' (name ++ "=" ++ v) = [name, v] :=
      splitParts2_eq_pair.mpr ⟨rfl, hnoeq⟩
    rw [setsIdentity, hcut]
    exact List.contains_iff_mem.mpr hname
  have hfresh : rt.registry.slashTable.lookup
      (" ".intercalate (tokens text ++ [name ++ "=" ++ v])) = none := by
    refine lookup_eq_none_of_longer hn (tokens_ne_nil hslash) ?_
    rw [String.length_append]
    omega
  have hargTokens : argTokens (withToken text route.slash (name ++ "=" ++ v)) route.slash =
      argTokens text route.slash ++ [name ++ "=" ++ v] := argTokens_withToken hslash htokne htok
  obtain ⟨parsed', hparse, hget⟩ := parse_of_append hargs hready.parses hne hnoeq hv hargTokens
  have hother : otherTokens text = otherTokens (withToken text route.slash (name ++ "=" ++ v)) := by
    rw [otherTokens, otherTokens, tokens_withToken hslash htokne htok, List.filter_append,
      List.filter_cons_of_neg (by rw [hsets]; exact Bool.false_ne_true), List.filter_nil,
      List.append_nil]
  refine ⟨setText e (withToken text route.slash (name ++ "=" ++ v)), _, parsed', v,
    ⟨sameIdentity_setText _, text, _, htext, extractText_setText _, hslash,
      isSlashText_withToken hslash, hother⟩, extractText_setText _, ?_,
    hready.setText hready.reads hparse, hget, havoid⟩
  rw [lookup_withToken hslash htokne htok hfresh]
  exact hlookup

/-! ## Independence -/

section
variable {rt : Runtime} {e e' : Value}

theorem SameIdentity.caller (h : SameIdentity e e') :
    SlashIdentity.caller e = SlashIdentity.caller e' := by
  rw [SlashIdentity.caller, SlashIdentity.caller, h.principal, h.user]

theorem SameIdentity.username (h : SameIdentity e e') (route : SlashRoute) :
    SlashIdentity.username rt route e = SlashIdentity.username rt route e' := by
  unfold SlashIdentity.username openId
  rw [h.principal, h.user, h.payloadUser, h.sender]

theorem SameIdentity.trans {e'' : Value} (h : SameIdentity e e') (h' : SameIdentity e' e'') :
    SameIdentity e e'' :=
  ⟨h.principal.trans h'.principal, h.user.trans h'.user, h.payloadUser.trans h'.payloadUser,
    h.sender.trans h'.sender⟩

theorem Alike.refl_left (h : Alike e e') : Alike e e := by
  obtain ⟨text, -, htext, -, hslash, -, -⟩ := h.texts
  exact ⟨⟨rfl, rfl, rfl, rfl⟩, text, text, htext, htext, hslash, hslash, rfl⟩

theorem Alike.trans {e'' : Value} (h : Alike e e') (h' : Alike e' e'') : Alike e e'' := by
  obtain ⟨text, text', htext, htext', hslash, -, hother⟩ := h.texts
  obtain ⟨t, t', ht, ht', -, hslash', hother'⟩ := h'.texts
  obtain rfl := Except.ok.inj (htext'.symm.trans ht)
  exact ⟨h.identity.trans h'.identity, text, t', htext, ht', hslash, hslash', hother.trans hother'⟩

variable {route : SlashRoute}

theorem username_of_ne (h : username rt route e ≠ .null) :
    username rt route e = usernameFor rt (openId e) := by
  unfold username at h ⊢
  split_ifs at h ⊢
  · rfl
  · exact absurd rfl h

theorem Ready.parsed_eq_nil {text : String} {parsed : Entries} (h : Ready rt text route e parsed)
    (hargs : route.args = []) : parsed = [] := by
  have hparse := h.parses
  unfold parseRouteArgs at hparse
  rw [hargs] at hparse
  exact (Except.ok.inj hparse).symm

theorem Independent.args_eq (h : Independent rt e) (halike : Alike e e') {text text' : String}
    {route' : SlashRoute} {parsed parsed' : Entries} (htext : extractText e = .ok text)
    (hlookup : rt.registry.lookup text = some route) (hready : Ready rt text route e parsed)
    (htext' : extractText e' = .ok text') (hlookup' : rt.registry.lookup text' = some route')
    (hready' : Ready rt text' route' e' parsed') :
    orKept (caller e) (get "caller_principal_id" parsed) =
        orKept (caller e) (get "caller_principal_id" parsed') ∧
      orKept (username rt route e) (get "username" parsed) =
        orKept (username rt route' e) (get "username" parsed') := by
  obtain ⟨command, hcommand, hargs⟩ := dispatch_of_ready htext hlookup hready ""
  obtain ⟨command', hcommand', hargs'⟩ := dispatch_of_ready htext' hlookup' hready' ""
  have hsame := h e' "" "" command command' halike hcommand hcommand'
  rw [hargs, hargs', ← halike.identity.caller, ← halike.identity.username] at hsame
  exact Prod.mk.inj hsame

/-- What is written over the typed arguments is the same for both texts, or neither
text types anything. -/
theorem Fixed.independent (h : Fixed rt e) : Independent rt e := by
  intro e' id id' command command' halike hcommand hcommand'
  obtain ⟨text, route, parsed, htext, hlookup, hready⟩ := ready_of_dispatch hcommand
  obtain ⟨text', route', parsed', htext', hlookup', hready'⟩ := ready_of_dispatch hcommand'
  have hvia : StartsVia rt e route := startsVia_iff.mpr ⟨text, parsed, htext, hlookup, hready⟩
  have hvia' : StartsVia rt e' route' :=
    startsVia_iff.mpr ⟨text', parsed', htext', hlookup', hready'⟩
  obtain ⟨hcaller, hname⟩ := h e route route halike.refl_left hvia hvia
  obtain ⟨hcaller', hname'⟩ := h e' route route' halike hvia hvia'
  obtain ⟨command₁, hcommand₁, hargs⟩ := dispatch_of_ready htext hlookup hready id
  obtain ⟨command₂, hcommand₂, hargs'⟩ := dispatch_of_ready htext' hlookup' hready' id'
  obtain rfl := Outcome.started.inj (hcommand.symm.trans hcommand₁)
  obtain rfl := Outcome.started.inj (hcommand'.symm.trans hcommand₂)
  rw [hargs, hargs', ← halike.identity.caller, ← halike.identity.username]
  refine congrArg₂ Prod.mk ?_ ?_
  · by_cases hnull : caller e = .null
    · rw [hready.parsed_eq_nil (hcaller.resolve_left (not_not_intro hnull)),
        hready'.parsed_eq_nil (hcaller'.resolve_left (not_not_intro hnull))]
    · rw [orKept_of_ne hnull, orKept_of_ne hnull]
  · rcases hname' with ⟨hsome, hsome'⟩ | ⟨hnull, hnull', hnone'⟩
    · rw [orKept_of_ne hsome, orKept_of_ne hsome', username_of_ne hsome, username_of_ne hsome']
    · have hnone : route.args = [] := by
        rcases hname with ⟨hsome, -⟩ | ⟨-, -, hnone⟩
        · exact absurd hnull hsome
        · exact hnone
      rw [hnull, hnull', hready.parsed_eq_nil hnone, hready'.parsed_eq_nil hnone']

theorem Independent.fixed (h : Independent rt e) : Fixed rt e := by
  intro e' route route' halike hvia hvia'
  obtain ⟨text, parsed, htext, hlookup, hready⟩ := startsVia_iff.mp hvia
  obtain ⟨text', parsed', htext', hlookup', hready'⟩ := startsVia_iff.mp hvia'
  have hslash : isSlashText text = true ∧ isSlashText text' = true := by
    obtain ⟨t, t', ht, ht', hs, hs', -⟩ := halike.texts
    obtain rfl := Except.ok.inj (htext.symm.trans ht)
    obtain rfl := Except.ok.inj (htext'.symm.trans ht')
    exact ⟨hs, hs'⟩
  have hboth := h.args_eq halike htext hlookup hready htext' hlookup' hready'
  constructor
  · by_contra hnot
    obtain ⟨hnull, hargs⟩ := not_or.mp hnot
    obtain ⟨e'', text'', parsed'', v, halike', htext'', hlookup'', hready'', hget, hfresh⟩ :=
      exists_retyped (List.mem_cons_self) htext' hslash.2 hlookup' hready' hargs
        (get "caller_principal_id" parsed)
    have hsame := (h.args_eq (halike.trans halike') htext hlookup hready htext'' hlookup''
      hready'').1
    rw [not_not.mp hnull, orKept_null, orKept_null, hget] at hsame
    exact hfresh hsame.symm
  · have hmem : "username" ∈ identityNames := by decide
    by_cases hnull' : username rt route' e = .null
    · by_cases hargs : route'.args = []
      · refine .inr ⟨?_, hnull', hargs⟩
        by_contra hsome
        have hsame := hboth.2
        rw [hnull', hready'.parsed_eq_nil hargs, orKept_null, orKept_of_ne hsome] at hsame
        cases hsame
      · obtain ⟨e'', text'', parsed'', v, halike', htext'', hlookup'', hready'', hget, hfresh⟩ :=
          exists_retyped hmem htext' hslash.2 hlookup' hready' hargs
            (orKept (username rt route e) (get "username" parsed))
        have hsame := (h.args_eq (halike.trans halike') htext hlookup hready htext'' hlookup''
          hready'').2
        rw [hnull', orKept_null, hget] at hsame
        exact absurd hsame.symm hfresh
    · by_cases hnull : username rt route e = .null
      · by_cases hargs : route.args = []
        · have hsame := hboth.2
          rw [hnull, hready.parsed_eq_nil hargs, orKept_null, orKept_of_ne hnull'] at hsame
          cases hsame
        · obtain ⟨e'', text'', parsed'', v, halike', htext'', hlookup'', hready'', hget, hfresh⟩ :=
            exists_retyped hmem htext hslash.1 hlookup hready hargs (get "username" parsed)
          have hsame := (h.args_eq halike' htext hlookup hready htext'' hlookup'' hready'').2
          rw [hnull, orKept_null, orKept_null, hget] at hsame
          exact absurd hsame.symm hfresh
      · exact .inl ⟨hnull, hnull'⟩

/-- **Who calls is not typed** exactly where the handler writes both names over what
is typed, or nothing can be typed. -/
theorem independent_iff_fixed (rt : Runtime) (e : Value) : Independent rt e ↔ Fixed rt e :=
  ⟨Independent.fixed, Fixed.independent⟩

end

/-! ## A typed name -/

/-- `/workspace:add-folder`, which looks its workspace up by the caller's name, and a
registry that knows one user. -/
def folderRuntime : Runtime where
  registry := ⟨Ets.empty.insert "/workspace:add-folder"
    ⟨"/workspace:add-folder", "workspace_add_folder", false, true,
      [⟨"name", false, .null⟩, ⟨"path", true, .null⟩, ⟨"folder_name", false, .null⟩]⟩, .empty⟩
  workspaceNameForChat := fun _ _ => none
  usernameForFeishuId := fun id => if id = "ou_eve" then some "eve" else none
  resolve := fun _ => none
  pathJoin := "/".intercalate

/-- A message of `ou_eve`. -/
def messageOf (text : String) : Value :=
  .map [(.str "payload", .map [(.str "text", .str text)]), (.str "principal_id", .str "ou_eve")]

/-- Whether the command that the message starts names a user. -/
def namesUser (text : String) : Option Bool :=
  (dispatch folderRuntime (messageOf text) "1").command.map fun c => (identityArgs c).2.isSome

theorem started_of_namesUser {b : Bool} (h : namesUser text = some b) :
    ∃ command, dispatch folderRuntime (messageOf text) "1" = .started command ∧
      (identityArgs command).2.isSome = b := by
  obtain ⟨command, hcommand, hb⟩ := Option.map_eq_some_iff.mp h
  refine ⟨command, ?_, hb⟩
  cases hdispatch : dispatch folderRuntime (messageOf text) "1" with
  | started c =>
    rw [hdispatch] at hcommand
    rw [Option.some.inj hcommand]
  | answered answer =>
    rw [hdispatch] at hcommand
    cases hcommand
  | raised =>
    rw [hdispatch] at hcommand
    cases hcommand

/-- **The text names the user**, and the command believes it. -/
theorem not_independent_typedUsername : ¬∀ (rt : Runtime) (e : Value), Independent rt e := by
  intro h
  obtain ⟨command, hcommand, hnone⟩ := started_of_namesUser
    (show namesUser "/workspace:add-folder path=/srv" = some false by decide +kernel)
  obtain ⟨command', hcommand', hsome⟩ := started_of_namesUser
    (show namesUser "/workspace:add-folder path=/srv username=admin" = some true by decide +kernel)
  have halike : Alike (messageOf "/workspace:add-folder path=/srv")
      (messageOf "/workspace:add-folder path=/srv username=admin") :=
    ⟨⟨rfl, rfl, rfl, rfl⟩, _, _, rfl, rfl, by decide +kernel, by decide +kernel,
      by decide +kernel⟩
  have hsame := h folderRuntime _ _ "1" "1" command command' halike hcommand hcommand'
  rw [hsame, hsome] at hnone
  cases hnone

end SlashIdentity
end Esr
