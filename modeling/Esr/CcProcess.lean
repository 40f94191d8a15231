import Esr.Runs
import Mathlib.Data.List.Basic

/-! # Where CC's replies go

`Esr.Entity.CCProcess` hands each event to the Python handler and carries out the
actions it answers with.  One process serves several sessions: an event that comes from
`FeishuChatProxy` carries a meta with the session and the chat it is from, and the
process keeps the meta of the last such event in its state, where `dispatch_action/2`
finds it.

An event is routed on its own terms (`RoutedByEvent`) if what is sent while it is
handled goes where the event says, whatever has been handled before.
-/
namespace Esr
namespace CcProcess

/-- A term, as far as the process looks at it. -/
inductive Term (T : Type) where
  | nil
  | bool (b : Bool)
  | bin (s : String)
  | other (t : T)
deriving DecidableEq

/-- A key of a map. -/
inductive MapKey where
  | atom (name : String)
  | str (name : String)
  | other
deriving DecidableEq

/-- A map. -/
abbrev Terms (T : Type) := List (MapKey × Term T)

variable {T C : Type}

/-- `Map.get/2`. -/
def get (m : Terms T) (k : MapKey) : Term T := (m.lookup k).getD .nil

/-- `a || b`. -/
def Term.or : Term T → Term T → Term T
  | .nil, b => b
  | .bool false, b => b
  | a, _ => a

/-- `is_nil(v)`. -/
def Term.isNil : Term T → Bool
  | .nil => true
  | _ => false

/-- `sid when is_binary(sid) and sid != ""`. -/
def Term.text? : Term T → Option String
  | .bin s => if s = "" then none else some s
  | _ => none

/-- The third element of an event. -/
inductive Third (T : Type) where
  | map (upstream : Terms T)
  | other

/-- What arrives. -/
inductive Event (T : Type) where
  | text (bytes : Term T)
  | textMeta (bytes : Term T) (upstream : Third T)
  | other

/-- An action of the handler. -/
inductive Action (T : Type) where
  | sendInput (text : Term T)
  | reply (text : Term T) (replyToMessageId : Term T)
  | unknown

/-- What the handler is asked. -/
structure Payload (T C : Type) where
  handler : String
  state : C
  args : List (String × Term T)

/-- How `call_handler/3` comes back. -/
inductive Answer (T C : Type) where
  | ok (newState : C) (actions : List (Action T))
  | error
  | raises

inductive Role where
  | feishuChatProxy
  | ccProxy
deriving DecidableEq

abbrev Pid := Nat

/-- What the process finds around it while it handles one event. -/
structure Env (T C : Type) where
  handler : Payload T C → Answer T C
  listByRole : String → Role → List Pid
  workspaceNameForChat : String → String → Option String
  now : String

/-- The state of the process. -/
structure State (T C : Type) where
  sessionId : String
  handlerModule : String
  ccState : C
  proxyCtx : Option (Terms T)
  lastMeta : Option (Terms T)

/-- The message for a chat proxy. -/
inductive Msg (T : Type) where
  | reply (text : Term T)
  | replyTo (text : Term T) (messageId : String)

/-- What leaves the process. -/
inductive Emission (T : Type) where
  | broadcast (topic : String) (envelope : List (String × Term T))
  | send (pid : Pid) (msg : Msg T)

/-- `init/1`. -/
def init (sessionId handlerModule : String) (initialState : C) (proxyCtx : Option (Terms T)) :
    State T C := ⟨sessionId, handlerModule, initialState, proxyCtx, none⟩

namespace State

/-- `Map.get(state, :last_meta, %{})`. -/
def last (s : State T C) : Terms T := s.lastMeta.getD []

/-- `state.proxy_ctx || %{}`. -/
def ctx (s : State T C) : Terms T := s.proxyCtx.getD []

/-- `current_session_id_or_primary/1`. -/
def currentSessionIdOrPrimary (s : State T C) : String :=
  (get s.last (.atom "current_session_id")).text?.getD s.sessionId

/-- `stash_upstream_meta/2`. -/
def stashUpstreamMeta (s : State T C) : Event T → State T C
  | .textMeta _ (.map upstream) => { s with lastMeta := some upstream }
  | _ => s

/-- A field of the notification: of the last meta, else of the context. -/
def field (s : State T C) (name : String) : Term T :=
  (((get s.last (.atom name)).or (get s.ctx (.atom name))).or (get s.ctx (.str name))).or (.bin "")

/-- A field of the last meta, else the empty text. -/
def lastField (s : State T C) (name : String) : Term T := (get s.last (.atom name)).or (.bin "")

/-- `maybe_put_workspace/3`. -/
def maybePutWorkspace (env : Env T C) (envelope : List (String × Term T)) (chatId appId : Term T) :
    List (String × Term T) :=
  match chatId.text?, appId.text? with
  | some chat, some app =>
      match env.workspaceNameForChat chat app with
      | some ws => envelope ++ [("workspace", .bin ws)]
      | none => envelope
  | _, _ => envelope

/-- `build_channel_notification/2`. -/
def buildChannelNotification (env : Env T C) (s : State T C) (text : Term T) :
    List (String × Term T) :=
  let base := [("kind", .bin "notification"),
    ("source", ((get s.ctx (.str "channel_adapter")).or (get s.ctx (.atom "channel_adapter"))).or
      (.bin "")),
    ("current_session_id", .bin s.currentSessionIdOrPrimary),
    ("chat_id", s.field "chat_id"),
    ("app_id", s.field "app_id"),
    ("thread_id", s.field "thread_id"),
    ("message_id", s.lastField "message_id"),
    ("user", s.lastField "sender_id"),
    ("user_id", s.lastField "sender_id"),
    ("ts", .bin env.now),
    ("content", text),
    ("msg_type", get s.last (.atom "msg_type")),
    ("media_uri", get s.last (.atom "media_uri"))]
  maybePutWorkspace env (base.filter fun r => !r.2.isNil) (s.field "chat_id") (s.field "app_id")

/-- `find_reply_target/1`. -/
def findReplyTarget (env : Env T C) (sessionId : String) : Option Pid :=
  match env.listByRole sessionId .feishuChatProxy with
  | pid :: _ => some pid
  | [] => (env.listByRole sessionId .ccProxy).head?

/-- `dispatch_action/2`, which leaves the state as it is. -/
def dispatchAction (env : Env T C) (s : State T C) : Action T → List (Emission T)
  | .sendInput text =>
      [.broadcast ("cli:channel/" ++ s.currentSessionIdOrPrimary) (s.buildChannelNotification env text)]
  | .reply text replyToMessageId =>
      let msg := match replyToMessageId.text? with
        | some mid => .replyTo text mid
        | none => .reply text
      match findReplyTarget env s.currentSessionIdOrPrimary with
      | some pid => [.send pid msg]
      | none => []
  | .unknown => []

end State

/-- The keys of a meta as texts; `Atom.to_string/1` raises on any other. -/
def atomKeys : Terms T → Option (List (String × Term T))
  | [] => some []
  | (.atom name, v) :: rest => (atomKeys rest).map fun rest => (name, v) :: rest
  | _ :: _ => none

/-- `event_to_map/1`, which has no clause for a third element that is not a map. -/
def eventToMap : Event T → Option (List (String × Term T))
  | .text bytes => some [("text", bytes)]
  | .textMeta bytes (.map upstream) =>
      (atomKeys (upstream.filter fun r => !(r.2.isNil || match r.2 with
        | .bin s => s = ""
        | _ => false))).map fun args =>
          if args.any (fun r => r.1 = "text") then args else ("text", bytes) :: args
  | _ => none

/-- `invoke_and_dispatch/2`, with what leaves the process; `none` where it crashes. -/
def invokeAndDispatch (env : Env T C) (event : Event T) (s : State T C) :
    Option (State T C × List (Emission T)) := do
  let s := s.stashUpstreamMeta event
  let args ← eventToMap event
  match env.handler ⟨s.handlerModule ++ ".on_msg", s.ccState, args⟩ with
  | .ok newState actions =>
      some ({ s with ccState := newState }, actions.flatMap (s.dispatchAction env))
  | .error => some (s, [])
  | .raises => none

/-- `handle_upstream/2`. -/
def handleUpstream (env : Env T C) (event : Event T) (s : State T C) :
    Option (State T C × List (Emission T)) :=
  match event with
  | .text _ => invokeAndDispatch env event s
  | .textMeta _ _ => invokeAndDispatch env event s
  | .other => some (s, [])

/-- One event handled. -/
def step (s : State T C) (a : Env T C × Event T) : Option (State T C) :=
  (handleUpstream a.1 a.2 s).map Prod.fst

/-! ## The property -/

/-- A session, and the chat and thread in it. -/
structure Target (T : Type) where
  session : String
  chatId : Term T
  appId : Term T
  threadId : Term T

/-- What is sent goes to the target. -/
def GoesTo (env : Env T C) (t : Target T) : Emission T → Prop
  | .broadcast topic envelope =>
      topic = "cli:channel/" ++ t.session ∧ envelope.lookup "chat_id" = some t.chatId ∧
        envelope.lookup "app_id" = some t.appId ∧ envelope.lookup "thread_id" = some t.threadId
  | .send pid _ => State.findReplyTarget env t.session = some pid

/-- Whatever the process has handled, and whatever the handler answers, what it sends
while it handles the event goes to one target. -/
def RoutedByEvent (s₀ : State T C) (event : Event T) : Prop :=
  ∃ t : Target T, ∀ s, Reaches step anyStep s₀ s →
    ∀ env s' out, handleUpstream env event s = some (s', out) → ∀ m ∈ out, GoesTo env t m

/-- The target of a state. -/
def State.target (s : State T C) : Target T :=
  ⟨s.currentSessionIdOrPrimary, s.field "chat_id", s.field "app_id", s.field "thread_id"⟩

theorem Term.isNil_or_bin (a : Term T) (s : String) : (a.or (.bin s)).isNil = false := by
  cases a with
  | bool b => cases b <;> rfl
  | _ => rfl

theorem lookup_append_of_some {l l' : List (String × Term T)} {k : String} {v : Term T}
    (h : l.lookup k = some v) : (l ++ l').lookup k = some v := by
  rw [List.lookup_append, h, Option.some_or]

variable {env : Env T C} {s : State T C} {event : Event T} {out : List (Emission T)}

theorem lookup_maybePutWorkspace {envelope : List (String × Term T)} {chatId appId v : Term T}
    {k : String} (h : envelope.lookup k = some v) :
    (State.maybePutWorkspace env envelope chatId appId).lookup k = some v := by
  unfold State.maybePutWorkspace
  split
  · split
    · exact lookup_append_of_some h
    · exact h
  · exact h

theorem lookup_reject {l : List (String × Term T)} {k : String} {v : Term T}
    (h : l.lookup k = some v) (hv : v.isNil = false) :
    (l.filter fun r => !r.2.isNil).lookup k = some v := by
  induction l with
  | nil => cases h
  | cons r rest ih =>
    rw [List.lookup_cons] at h
    split at h
    · rename_i hk
      have hkeep : (!r.2.isNil) = true := by rw [Option.some.inj h, hv]; rfl
      rw [List.filter_cons, if_pos hkeep, List.lookup_cons, hk]
      exact h
    · rename_i hk
      rw [List.filter_cons]
      split
      · rw [List.lookup_cons, hk]
        exact ih h
      · exact ih h

theorem notification_goesTo (env : Env T C) (s : State T C) (text : Term T) :
    GoesTo env s.target (.broadcast ("cli:channel/" ++ s.currentSessionIdOrPrimary)
      (s.buildChannelNotification env text)) :=
  ⟨rfl,
    lookup_maybePutWorkspace (lookup_reject rfl (Term.isNil_or_bin _ _)),
    lookup_maybePutWorkspace (lookup_reject rfl (Term.isNil_or_bin _ _)),
    lookup_maybePutWorkspace (lookup_reject rfl (Term.isNil_or_bin _ _))⟩

theorem dispatchAction_goesTo {action : Action T} {m : Emission T}
    (h : m ∈ s.dispatchAction env action) : GoesTo env s.target m := by
  unfold State.dispatchAction at h
  cases action with
  | sendInput text =>
    obtain rfl := List.mem_singleton.mp h
    exact notification_goesTo env s text
  | reply text replyToMessageId =>
    dsimp only at h
    split at h
    · rename_i pid hpid
      obtain rfl := List.mem_singleton.mp h
      exact hpid
    · cases h
  | unknown => cases h

theorem goesTo_of_handleUpstream {s' : State T C}
    (h : handleUpstream env event s = some (s', out)) :
    ∀ m ∈ out, GoesTo env (s.stashUpstreamMeta event).target m := by
  have hinvoke : invokeAndDispatch env event s = some (s', out) →
      ∀ m ∈ out, GoesTo env (s.stashUpstreamMeta event).target m := by
    intro h m hm
    unfold invokeAndDispatch at h
    obtain ⟨args, -, h⟩ := Option.bind_eq_some_iff.mp h
    split at h
    · obtain ⟨-, rfl⟩ := Prod.mk.inj (Option.some.inj h)
      obtain ⟨action, -, hm⟩ := List.mem_flatMap.mp hm
      exact dispatchAction_goesTo hm
    · obtain ⟨-, rfl⟩ := Prod.mk.inj (Option.some.inj h)
      cases hm
    · cases h
  unfold handleUpstream at h
  cases event with
  | text bytes => exact hinvoke h
  | textMeta bytes upstream => exact hinvoke h
  | other =>
    obtain ⟨-, rfl⟩ := Prod.mk.inj (Option.some.inj h)
    intro m hm
    cases hm

theorem handleUpstream_spec {s' : State T C} (h : handleUpstream env event s = some (s', out)) :
    ∃ ccState, s' = { s.stashUpstreamMeta event with ccState := ccState } := by
  have hinvoke : invokeAndDispatch env event s = some (s', out) →
      ∃ ccState, s' = { s.stashUpstreamMeta event with ccState := ccState } := by
    intro h
    unfold invokeAndDispatch at h
    obtain ⟨args, -, h⟩ := Option.bind_eq_some_iff.mp h
    split at h
    · obtain ⟨rfl, -⟩ := Prod.mk.inj (Option.some.inj h)
      exact ⟨_, rfl⟩
    · obtain ⟨rfl, -⟩ := Prod.mk.inj (Option.some.inj h)
      exact ⟨_, rfl⟩
    · cases h
  unfold handleUpstream at h
  cases event with
  | text bytes => exact hinvoke h
  | textMeta bytes upstream => exact hinvoke h
  | other =>
    obtain ⟨rfl, -⟩ := Prod.mk.inj (Option.some.inj h)
    exact ⟨_, rfl⟩

theorem handleUpstream_keeps {s' : State T C} (h : handleUpstream env event s = some (s', out)) :
    s'.sessionId = s.sessionId ∧ s'.proxyCtx = s.proxyCtx := by
  obtain ⟨ccState, rfl⟩ := handleUpstream_spec h
  show (s.stashUpstreamMeta event).sessionId = s.sessionId ∧
    (s.stashUpstreamMeta event).proxyCtx = s.proxyCtx
  unfold State.stashUpstreamMeta
  split <;> exact ⟨rfl, rfl⟩

theorem reaches_keeps {s₀ : State T C} (h : Reaches step anyStep s₀ s) :
    s.sessionId = s₀.sessionId ∧ s.proxyCtx = s₀.proxyCtx := by
  refine @Reaches.invariant _ _ _ _ _ _
    (fun s => s.sessionId = s₀.sessionId ∧ s.proxyCtx = s₀.proxyCtx) h ⟨rfl, rfl⟩ ?_
  rintro t ⟨env, event⟩ u ⟨hsid, hctx⟩ - hs
  obtain ⟨⟨u', out⟩, h, rfl⟩ := Option.map_eq_some_iff.mp hs
  obtain ⟨hsid', hctx'⟩ := handleUpstream_keeps h
  exact ⟨hsid'.trans hsid, hctx'.trans hctx⟩

/-! ## Events with a meta of their own -/

/-- The event has a third element. -/
def Event.carriesMeta : Event T → Bool
  | .text _ => false
  | _ => true

theorem target_stash {s₀ : State T C} (hsid : s.sessionId = s₀.sessionId)
    (hctx : s.proxyCtx = s₀.proxyCtx) (bytes : Term T) (upstream : Terms T) :
    (s.stashUpstreamMeta (.textMeta bytes (.map upstream))).target =
      (s₀.stashUpstreamMeta (.textMeta bytes (.map upstream))).target := by
  obtain ⟨sid, mod, cc, ctx, last⟩ := s
  obtain ⟨sid₀, mod₀, cc₀, ctx₀, last₀⟩ := s₀
  obtain rfl : sid = sid₀ := hsid
  obtain rfl : ctx = ctx₀ := hctx
  rfl

theorem routedByEvent_of_carriesMeta (s₀ : State T C) (h : event.carriesMeta = true) :
    RoutedByEvent s₀ event := by
  refine ⟨(s₀.stashUpstreamMeta event).target, fun s hr env s' out hs m hm => ?_⟩
  obtain ⟨hsid, hctx⟩ := reaches_keeps hr
  have hgo := goesTo_of_handleUpstream hs m hm
  cases event with
  | text bytes => cases h
  | textMeta bytes upstream =>
    cases upstream with
    | map upstream => rwa [target_stash hsid hctx] at hgo
    | other => cases hs
  | other =>
    obtain ⟨-, rfl⟩ := Prod.mk.inj (Option.some.inj hs)
    cases hm

/-! ## Events without -/

/-- A handler that sends one text, and nothing to find around it. -/
def sendHi (ccState : C) : Env T C where
  handler := fun _ => .ok ccState [.sendInput (.bin "hi")]
  listByRole := fun _ _ => []
  workspaceNameForChat := fun _ _ => none
  now := "2026-05-10T00:00:00Z"

/-- An event of a session. -/
def fromSession (sid : String) : Event T :=
  .textMeta (.bin "hello") (.map [(.atom "current_session_id", .bin sid)])

theorem sends_to_last (s₀ : State T C) (bytes : Term T) (sid : String) (hsid : sid ≠ "") :
    ∃ s, Reaches step anyStep s₀ s ∧ ∃ s' envelope,
      handleUpstream (sendHi s.ccState) (.text bytes) s =
        some (s', [.broadcast ("cli:channel/" ++ sid) envelope]) := by
  refine ⟨{ s₀ with lastMeta := some [(.atom "current_session_id", .bin sid)] },
    ⟨_, .snoc (a := (sendHi s₀.ccState, fromSession sid)) .nil trivial ?_⟩, ?_⟩
  · have hargs : eventToMap (fromSession sid : Event T) =
        some [("text", .bin "hello"), ("current_session_id", .bin sid)] := by
      simp [eventToMap, fromSession, Term.isNil, hsid, atomKeys]
    unfold step handleUpstream
    simp only [fromSession] at hargs ⊢
    simp [invokeAndDispatch, hargs, sendHi, State.stashUpstreamMeta]
  · have hcurrent : ({ s₀ with lastMeta := some [(.atom "current_session_id", .bin sid)] } :
        State T C).currentSessionIdOrPrimary = sid := by
      simp [State.currentSessionIdOrPrimary, State.last, get, Term.text?, hsid]
    exact ⟨_, _, by
      simp [handleUpstream, invokeAndDispatch, eventToMap, sendHi, State.stashUpstreamMeta,
        State.dispatchAction, hcurrent]; exact ⟨rfl, rfl⟩⟩

theorem not_routedByEvent_of_text (s₀ : State T C) (bytes : Term T) :
    ¬RoutedByEvent s₀ (.text bytes) := by
  rintro ⟨t, h⟩
  obtain ⟨s, hr, s', envelope, hs⟩ := sends_to_last s₀ bytes "sA" (by decide)
  obtain ⟨r, hr', r', envelope', hr''⟩ := sends_to_last s₀ bytes "sB" (by decide)
  have hA := (h s hr _ s' _ hs _ List.mem_cons_self).1
  have hB := (h r hr' _ r' _ hr'' _ List.mem_cons_self).1
  rw [← hB] at hA
  exact absurd hA (by decide)

/-- **Replies follow the event being handled** exactly when it carries a meta of its
own. -/
theorem routedByEvent_iff (s₀ : State T C) (event : Event T) :
    RoutedByEvent s₀ event ↔ event.carriesMeta = true := by
  refine ⟨fun h => ?_, routedByEvent_of_carriesMeta s₀⟩
  cases event with
  | text bytes => exact absurd h (not_routedByEvent_of_text s₀ bytes)
  | textMeta bytes upstream => rfl
  | other => rfl

/-- Two sessions take turns before a text without a meta. -/
theorem not_routedByEvent_hello :
    ¬RoutedByEvent (init "s1" "cc_adapter_runner" () none : State Unit Unit) (.text (.bin "hello")) :=
  not_routedByEvent_of_text _ _

end CcProcess
end Esr
